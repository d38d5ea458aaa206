import LatteCode.Lib.Escapes
import LatteCode.Lib.Regex
/- Replacement in a text with quoted strings: which matches leave the strings apart from each other. -/

namespace Quoting
open Escapes Regex

/-- Text in parts: the first one, and each other one behind a quote. -/
def joined (part : List Char) : List (List Char) → List Char
  | [] => part
  | next :: more => part ++ '"' :: joined next more

section Parts

variable {part : List Char} {more : List (List Char)} {mode : Mode}

theorem joined_cons (c : Char) : joined (c :: part) more = c :: joined part more := by
  cases more <;> rfl

theorem joined_append (head : List Char) : joined (head ++ part) more = head ++ joined part more := by
  cases more with
  | nil => rfl
  | cons next more => exact List.append_assoc ..

theorem joined_concat (last : List Char) : joined part (more ++ [last]) = joined part more ++ '"' :: last := by
  induction more generalizing part with
  | nil => rfl
  | cons next more ih => rw [List.cons_append, joined, joined, ih, List.append_assoc, List.cons_append]

theorem scan_joined (first : scan mode part = .ends .plain 0) (others : ∀ next ∈ more, scan .plain next = .ends .plain 0) :
    scan mode (joined part more) = .ends .plain more.length := by
  induction more generalizing mode part with
  | nil => exact first
  | cons next more ih =>
      obtain ⟨here, later⟩ := List.forall_mem_cons.mp others
      rw [joined, scan_append_ends first, Scan.more_zero, scan, if_neg (by decide), if_pos rfl, ih here later]
      exact congrArg _ (Nat.add_comm 1 more.length)

/-- The parts of a text are its own. -/
theorem joined_injective {part' : List Char} {more' : List (List Char)}
    (valid : ∀ next ∈ part :: more, scan .plain next = .ends .plain 0)
    (valid' : ∀ next ∈ part' :: more', scan .plain next = .ends .plain 0)
    (same : joined part more = joined part' more') : part = part' ∧ more = more' := by
  induction more generalizing part part' more' with
  | nil =>
      obtain ⟨here, later⟩ := List.forall_mem_cons.mp valid'
      have count := congrArg (scan .plain) same
      rw [joined, scan_joined here later, valid part List.mem_cons_self] at count
      cases more' with
      | nil => exact ⟨same, rfl⟩
      | cons next more' => cases count
  | cons next more ih =>
      obtain ⟨here, others⟩ := List.forall_mem_cons.mp valid
      obtain ⟨here', others'⟩ := List.forall_mem_cons.mp valid'
      cases more' with
      | nil =>
          have count := congrArg (scan .plain) same
          rw [scan_joined here others, joined, here'] at count
          cases count
      | cons next' more' =>
          have closed : ∀ {first rest : List Char}, scan .plain first = .ends .plain 0 →
              scan .plain (first ++ '"' :: rest) ≠ .ends .plain 0 := by
            intro first rest clean none_
            rw [scan_append_ends clean, Scan.more_zero, scan, if_neg (by decide), if_pos rfl] at none_
            obtain ⟨_, _, total⟩ := Scan.more_ends none_
            omega
          have onward : part = part' ∧ joined next more = joined next' more' := by
            rcases List.append_eq_append_iff.mp same with ⟨extra, longer, rest⟩ | ⟨extra, longer, rest⟩
            · cases extra with
              | nil =>
                  rw [List.append_nil] at longer
                  exact ⟨longer.symm, (List.cons.inj rest).2⟩
              | cons y extra =>
                  obtain ⟨rfl, _⟩ := List.cons.inj rest
                  exact absurd (longer ▸ here') (@closed part extra here)
            · cases extra with
              | nil =>
                  rw [List.append_nil] at longer
                  exact ⟨longer, (List.cons.inj rest).2.symm⟩
              | cons y extra =>
                  obtain ⟨rfl, _⟩ := List.cons.inj rest
                  exact absurd (longer ▸ here) (@closed part' extra here')
          obtain ⟨rfl, tail⟩ := onward
          obtain ⟨rfl, rfl⟩ := ih others others' tail
          exact ⟨rfl, rfl⟩

theorem filter_joined {keep : Char → Bool} (quote : keep '"' = true) :
    (joined part more).filter keep = joined (part.filter keep) (more.map (List.filter keep)) := by
  induction more generalizing part with
  | nil => rfl
  | cons next more ih => rw [joined, List.filter_append, List.filter_cons_of_pos quote, ih, List.map_cons, joined]

end Parts

section Rules

variable {κ : Type} {p : Pattern κ} {replacement : List (κ × List Char) → List Char} {spared : Mode → List Char → Prop}
  {breaks : Prop}

/-- What a replacement does to a text that is read from a mode on: a spared match holds no quote and is replaced by text
without one, any other loses quotes or breaks an escape. -/
structure Rewrites (p : Pattern κ) (replacement : List (κ × List Char) → List Char) (spared : Mode → List Char → Prop)
    (breaks : Prop) : Prop where
  step : ∀ {passed taken : List Char} {d : Cursor κ} {mode : Mode} {before total : Nat}, taken ≠ [] →
    (run p ⟨passed.getLast?, taken ++ d.rest, []⟩).find? (fun e => e.rest.length < (taken ++ d.rest).length) = some d →
    scan .plain passed = .ends mode before → scan mode (taken ++ d.rest) = .ends .plain total →
      ∃ quotes, scan mode taken = .ends .plain quotes ∧
        (spared mode taken → quotes = 0 ∧ scan mode (replacement d.captures) = .ends .plain 0) ∧
        (¬ spared mode taken → (breaks ∧ scan mode (replacement d.captures) = .wrongEscape) ∨
          (0 < quotes ∧ scan mode (replacement d.captures) = .ends .plain 0))

/-- The replaced matches, each with the text before it, are all spared. -/
def Spared (spared : Mode → List Char → Prop) (found : List (List Char × List Char)) : Prop :=
  ∀ pair ∈ found, ∀ mode quotes, scan .plain pair.1 = .ends mode quotes → spared mode pair.2

theorem spared_cons {pair : List Char × List Char} {found : List (List Char × List Char)} {mode : Mode} {quotes : Nat}
    (read : scan .plain pair.1 = .ends mode quotes) :
    Spared spared (pair :: found) ↔ spared mode pair.2 ∧ Spared spared found := by
  constructor
  · exact fun all => ⟨all pair List.mem_cons_self mode quotes read, fun other held =>
      all other (List.mem_cons_of_mem _ held)⟩
  · rintro ⟨here, later⟩ other held other_mode other_quotes readOther
    rcases List.mem_cons.mp held with rfl | inside
    · rw [read] at readOther
      cases readOther
      exact here
    · exact later other inside other_mode other_quotes readOther

/-- A part that the pattern cannot match in. -/
def Inert (p : Pattern κ) (part : List Char) : Prop := ∀ taken, Reads p taken → ¬ taken <:+: part

/-- Replacement takes quotes away, and none only if every match was spared. -/
theorem Rewrites.count (rule : Rewrites p replacement spared breaks) {text : List Char} {total : Nat}
    (read : scan .plain text = .ends .plain total) : (breaks ∧ scan .plain (replaceAll p replacement text) = .wrongEscape) ∨
      ∃ left, scan .plain (replaceAll p replacement text) = .ends .plain left ∧ left ≤ total ∧
        (left = total → Spared spared (replacedFrom p 0 [] text)) := by
  have whole := @replace_induction κ p replacement text [] (fun passed text result found => ∀ mode before total,
    scan .plain passed = .ends mode before → scan mode text = .ends .plain total →
      (breaks ∧ scan mode result = .wrongEscape) ∨
        ∃ left, scan mode result = .ends .plain left ∧ left ≤ total ∧ (left = total → Spared spared found))
  refine whole ?nil ?keep ?swap .plain 0 total rfl read
  case nil =>
    intro passed mode before total _ read
    exact .inr ⟨total, read, Nat.le_refl _, fun _ => List.forall_mem_nil _⟩
  case keep =>
    intro passed x rest result found ih mode before total start read
    have parts : scan mode ([x] ++ rest) = .ends .plain total := read
    obtain ⟨next, here, later, one, tail, rfl⟩ := scan_split parts
    have onward : scan .plain (passed ++ [x]) = .ends next (before + here) := by
      rw [scan_append_ends start, one]
      rfl
    rcases ih next _ later onward tail with ⟨broken, bad⟩ | ⟨left, good, fewer, all⟩
    · refine .inl ⟨broken, ?_⟩
      rw [← List.singleton_append, scan_append_ends one, bad]
      rfl
    · refine .inr ⟨here + left, ?_, by omega, fun same => all (by omega)⟩
      rw [← List.singleton_append, scan_append_ends one, good]
      rfl
  case swap =>
    intro passed taken d result found inhabited first ih mode before total start read
    obtain ⟨quotes, one, kept, lost⟩ := rule.step inhabited first start read
    obtain ⟨later, tail, rfl⟩ : ∃ later, scan .plain d.rest = .ends .plain later ∧ total = quotes + later := by
      rw [scan_append_ends one] at read
      exact Scan.more_ends read
    have onward : scan .plain (passed ++ taken) = .ends .plain (before + quotes) := by
      rw [scan_append_ends start, one]
      rfl
    have replaced : ∀ {quotes}, scan mode (replacement d.captures) = .ends .plain quotes →
        scan mode (replacement d.captures ++ result) = (scan .plain result).more quotes := scan_append_ends
    by_cases clean : spared mode taken
    · obtain ⟨rfl, new⟩ := kept clean
      rw [replaced new, Scan.more_zero, Nat.zero_add, spared_cons start, and_iff_right clean]
      exact ih .plain _ later onward tail
    · rcases lost clean with ⟨broken, bad⟩ | ⟨some_, new⟩
      · refine .inl ⟨broken, ?_⟩
        rw [scan_append, bad]
      · rw [replaced new, Scan.more_zero]
        rcases ih .plain _ later onward tail with bad | ⟨left, good, fewer, _⟩
        · exact .inl bad
        · exact .inr ⟨left, good, by omega, fun same => absurd same (by omega)⟩

/-- Where all matches are spared, each part is rewritten on its own, and one that the pattern cannot match in is kept. -/
theorem Rewrites.parts (rule : Rewrites p replacement spared breaks) {part : List Char} {more : List (List Char)}
    (first : scan .plain part = .ends .plain 0) (others : ∀ next ∈ more, scan .plain next = .ends .plain 0)
    (all : Spared spared (replacedFrom p 0 [] (joined part more))) : ∃ part' more',
      replaceAll p replacement (joined part more) = joined part' more' ∧
        List.Forall₂ (fun old new => scan .plain new = .ends .plain 0 ∧ (Inert p old → new = old)) (part :: more)
          (part' :: more') := by
  have whole := @replace_induction κ p replacement (joined part more) [] (fun passed text result found =>
    ∀ mode before part more, text = joined part more → scan .plain passed = .ends mode before →
      scan mode part = .ends .plain 0 → (∀ next ∈ more, scan .plain next = .ends .plain 0) → Spared spared found →
        ∃ part' more', result = joined part' more' ∧
          (scan mode part' = .ends .plain 0 ∧ (Inert p part → part' = part)) ∧
          List.Forall₂ (fun old new => scan .plain new = .ends .plain 0 ∧ (Inert p old → new = old)) more more')
  suffices split : ∃ part' more', replaceAll p replacement (joined part more) = joined part' more' ∧
      (scan .plain part' = .ends .plain 0 ∧ (Inert p part → part' = part)) ∧
      List.Forall₂ (fun old new => scan .plain new = .ends .plain 0 ∧ (Inert p old → new = old)) more more' by
    obtain ⟨part', more', shape, here, later⟩ := split
    exact ⟨part', more', shape, .cons here later⟩
  refine whole ?nil ?keep ?swap .plain 0 part more rfl rfl first others all
  case nil =>
    intro passed mode before part more shape _ first _ _
    cases more with
    | nil =>
        obtain rfl : [] = part := shape
        exact ⟨[], [], rfl, ⟨first, fun _ => rfl⟩, .nil⟩
    | cons next more => exact absurd (congrArg List.length shape) (by rw [joined, List.length_append]; simp)
  case keep =>
    intro passed x rest result found ih mode before part more shape start first others all
    have onward : ∀ {next here}, scan mode [x] = .ends next here →
        scan .plain (passed ++ [x]) = .ends next (before + here) := by
      intro next here one
      rw [scan_append_ends start, one]
      rfl
    cases part with
    | cons y part =>
        rw [joined_cons] at shape
        obtain ⟨rfl, tail⟩ := List.cons.inj shape
        have parts : scan mode ([x] ++ part) = .ends .plain 0 := first
        obtain ⟨next, here, after, one, rest_, none_⟩ := scan_split parts
        obtain ⟨rfl, rfl⟩ : here = 0 ∧ after = 0 := by omega
        obtain ⟨part', more', rfl, ⟨good, same⟩, later⟩ := ih next _ part more tail (onward one) rest_ others all
        refine ⟨x :: part', more', (joined_cons x).symm, ⟨?_, fun inert => ?_⟩, later⟩
        · rw [← List.singleton_append, scan_append_ends one, Scan.more_zero, good]
        · rw [same fun taken reads inside => inert taken reads (inside.trans (List.suffix_cons x part).isInfix)]
    | nil =>
        obtain rfl : mode = .plain := by
          cases first
          rfl
        cases more with
        | nil => exact absurd shape (List.cons_ne_nil x rest)
        | cons next more =>
            obtain ⟨rfl, tail⟩ := List.cons.inj shape
            obtain ⟨here, later⟩ := List.forall_mem_cons.mp others
            obtain ⟨part', more', rfl, good, rewritten⟩ := ih .plain _ next more tail (onward rfl) here later all
            exact ⟨[], part' :: more', rfl, ⟨rfl, fun _ => rfl⟩, .cons good rewritten⟩
  case swap =>
    intro passed taken d result found inhabited match_ ih mode before part more shape start first others all
    have total := scan_joined first others
    rw [← shape] at total
    obtain ⟨quotes, one, kept, _⟩ := rule.step inhabited match_ start total
    obtain ⟨clean, allLater⟩ := (spared_cons start).mp all
    obtain ⟨rfl, new⟩ := kept clean
    obtain ⟨read, reads, split, _⟩ := run_ends p _ d (List.mem_of_find?_eq_some match_)
    obtain rfl : taken = read := List.append_cancel_right split
    -- a spared match ends in the part it begins in
    obtain ⟨left, rfl, remains⟩ : ∃ left, part = taken ++ left ∧ d.rest = joined left more := by
      cases more with
      | nil => exact ⟨d.rest, shape.symm, rfl⟩
      | cons next more =>
          rcases List.append_eq_append_iff.mp shape with ⟨left, rfl, rest⟩ | ⟨left, isTaken, rest⟩
          · exact ⟨left, rfl, rest⟩
          · cases left with
            | nil =>
                rw [List.append_nil] at isTaken
                exact ⟨[], by rw [isTaken, List.append_nil], rest.symm⟩
            | cons y left =>
                obtain ⟨rfl, _⟩ := List.cons.inj rest
                rw [isTaken, scan_append_ends first, Scan.more_zero, scan, if_neg (by decide), if_pos rfl] at one
                obtain ⟨_, _, none_⟩ := Scan.more_ends one
                omega
    have tail : scan .plain left = .ends .plain 0 := by
      rw [scan_append_ends one, Scan.more_zero] at first
      exact first
    have onward : scan .plain (passed ++ taken) = .ends .plain (before + 0) := by
      rw [scan_append_ends start, one]
      rfl
    obtain ⟨part', more', rfl, ⟨good, _⟩, later⟩ := ih .plain _ left more remains onward tail others allLater
    refine ⟨replacement d.captures ++ part', more', (joined_append _).symm, ⟨?_, fun inert => ?_⟩, later⟩
    · rw [scan_append_ends new, Scan.more_zero, good]
    · exact absurd (List.prefix_append taken left).isInfix (inert taken reads)

end Rules

end Quoting
