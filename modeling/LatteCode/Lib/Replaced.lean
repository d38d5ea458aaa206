import LatteCode.Lib.Regex
/- Where the places of a replaced text come from. -/

namespace Regex

variable {κ : Type} {p : Pattern κ} {replacement : List (κ × List Char) → List Char} {mark : Char}
  {passed text pre post whole : List Char} {seen : Option Char} {all : List (List Char × List Char)}

section Ahead

variable {first second body : Pattern κ} {c : Cursor κ} {rest : List Char}

/-- A sequence has an outcome when its first part can stop where the second has one. -/
theorem ahead_seq (here : ∃ d ∈ run first c, d.rest = rest) (onward : ∀ c : Cursor κ, c.rest = rest → ∃ d, d ∈ run second c) :
    ∃ d, d ∈ run (.seq first second) c := by
  obtain ⟨middle, held, split⟩ := here
  obtain ⟨d, found⟩ := onward middle split
  exact ⟨d, mem_run_seq.mpr ⟨middle, held, found⟩⟩

theorem ahead_group {name : κ} (here : ∃ d ∈ run body c, d.rest = rest) : ∃ d ∈ run (.group name body) c, d.rest = rest := by
  obtain ⟨inner, held, split⟩ := here
  exact ⟨_, List.mem_map.mpr ⟨inner, held, rfl⟩, split⟩

theorem ahead_one {accepts : Char → Bool} {x : Char} (split : c.rest = x :: rest) (accepted : accepts x = true) :
    ∃ d ∈ run (.one accepts) c, d.rest = rest :=
  ⟨_, mem_run_one.mpr ⟨x, rest, split, accepted, rfl⟩, rfl⟩

theorem ahead_class {greedy : Bool} {accepts : Char → Bool} {taken : List Char} (split : c.rest = taken ++ rest)
    (accepted : ∀ x ∈ taken, accepts x = true) : ∃ d ∈ run (.many greedy (.one accepts)) c, d.rest = rest :=
  ⟨_, mem_run_class split accepted, rfl⟩

theorem ahead_alt (here : (∃ d, d ∈ run first c) ∨ ∃ d, d ∈ run second c) : ∃ d, d ∈ run (.alt first second) c := by
  rcases here with ⟨d, found⟩ | ⟨d, found⟩
  · exact ⟨d, List.mem_append_left _ found⟩
  · exact ⟨d, List.mem_append_right _ found⟩

end Ahead

/-- The match that is replaced behind `passed`, from its text on. -/
structure Matched (p : Pattern κ) (passed taken : List Char) (d : Cursor κ) : Prop where
  inhabited : taken ≠ []
  first : (run p ⟨passed.getLast?, taken ++ d.rest, []⟩).find? (fun e => e.rest.length < (taken ++ d.rest).length) =
    some d
  behind : d.before = (passed ++ taken).getLast?

theorem Matched.outcome {taken : List Char} {d : Cursor κ} (matched : Matched p passed taken d) :
    d ∈ run p ⟨passed.getLast?, taken ++ d.rest, []⟩ := List.mem_of_find?_eq_some matched.first

/-- What the replacement does first. -/
inductive Turn (p : Pattern κ) (replacement : List (κ × List Char) → List Char) (passed : List Char) :
    List Char → List Char → List (List Char × List Char) → Prop
  | stop : Turn p replacement passed [] [] []
  | keep (x : Char) (rest : List Char)
      (quiet : ∀ d ∈ run p ⟨passed.getLast?, x :: rest, []⟩, ¬ d.rest.length < (x :: rest).length) :
      Turn p replacement passed (x :: rest) (x :: replaceFrom p replacement 0 (passed ++ [x]).getLast? rest)
        (replacedFrom p 0 (passed ++ [x]) rest)
  | swap (taken : List Char) (d : Cursor κ) (matched : Matched p passed taken d) :
      Turn p replacement passed (taken ++ d.rest)
        (replacement d.captures ++ replaceFrom p replacement 0 (passed ++ taken).getLast? d.rest)
        ((passed, taken) :: replacedFrom p 0 (passed ++ taken) d.rest)

theorem turn (p : Pattern κ) (replacement : List (κ × List Char) → List Char) (passed text : List Char) :
    Turn p replacement passed text (replaceFrom p replacement 0 passed.getLast? text) (replacedFrom p 0 passed text) := by
  cases text with
  | nil =>
      rw [replaceFrom, replacedFrom]
      exact .stop
  | cons x rest =>
      cases first : (run p ⟨passed.getLast?, x :: rest, []⟩).find? (fun d => d.rest.length ≤ rest.length) with
      | none =>
          have here : (passed ++ [x]).getLast? = some x := List.getLast?_concat
          rw [replaceFrom_none first, replacedFrom_none first, ← here]
          refine .keep x rest fun d held shorter => ?_
          exact List.find?_eq_none.mp first d held (decide_eq_true (Nat.le_of_lt_succ shorter))
      | some d =>
          obtain ⟨taken, _, split, behind⟩ := run_ends p _ d (List.mem_of_find?_eq_some first)
          have accepted := List.find?_some first
          have shorter : d.rest.length ≤ rest.length := of_decide_eq_true accepted
          dsimp only at split behind
          rw [← List.getLast?_append] at behind
          have inhabited : taken ≠ [] := by
            rintro rfl
            rw [List.nil_append] at split
            rw [← split, List.length_cons] at shorter
            omega
          rw [replaceFrom_found first, replacedFrom_found split first, behind, split]
          refine .swap taken d ⟨inhabited, ?_, behind⟩
          rw [← split]
          simp only [List.length_cons, Nat.lt_succ_iff]
          exact first

/-- What stands in front of a place: the same as in the text, or the end of a replacement. -/
def Fronted (p : Pattern κ) (mark : Char) (all : List (List Char × List Char)) (passed text : List Char)
    (seen : Option Char) : Prop :=
  seen = passed.getLast? ∨ seen = some mark ∧ ∃ early taken d, passed = early ++ taken ∧ (early, taken) ∈ all ∧
    Matched p early taken d ∧ d.rest = text

/-- A place of the result lies on a character that was kept, or inside a replacement. -/
inductive Place (p : Pattern κ) (replacement : List (κ × List Char) → List Char) (mark : Char) (whole : List Char)
    (all : List (List Char × List Char)) (seen : Option Char) (post : List Char) : Prop
  | kept (passed : List Char) (x : Char) (rest : List Char) (split : whole = passed ++ x :: rest)
      (front : Fronted p mark all passed (x :: rest) seen)
      (quiet : ∀ d ∈ run p ⟨passed.getLast?, x :: rest, []⟩, ¬ d.rest.length < (x :: rest).length)
      (onward : replacedFrom p 0 (passed ++ [x]) rest ⊆ all)
      (shape : post = x :: replaceFrom p replacement 0 (passed ++ [x]).getLast? rest)
  | inside (passed taken : List Char) (d : Cursor κ) (front back : List Char)
      (split : whole = passed ++ (taken ++ d.rest)) (matched : Matched p passed taken d) (found : (passed, taken) ∈ all)
      (onward : replacedFrom p 0 (passed ++ taken) d.rest ⊆ all) (part : replacement d.captures = front ++ back)
      (inhabited : back ≠ [])
      (shape : post = back ++ replaceFrom p replacement 0 (passed ++ taken).getLast? d.rest)

theorem place_from (ends : ∀ captures, (replacement captures).getLast? = some mark) (split : passed ++ text = whole)
    (found : replacedFrom p 0 passed text ⊆ all) (front : Fronted p mark all passed text seen)
    (result : replaceFrom p replacement 0 passed.getLast? text = pre ++ post) (inhabited : post ≠ []) :
    Place p replacement mark whole all (pre.getLast?.or seen) post := by
  induction size : text.length using Nat.strongRecOn generalizing text passed pre seen with
  | _ size ih =>
  subst size
  have step := turn p replacement passed text
  rw [result] at step
  generalize listed : replacedFrom p 0 passed text = list at step found
  generalize written : pre ++ post = output at step
  cases step with
  | stop => exact absurd (List.append_eq_nil_iff.mp written).2 inhabited
  | keep x rest quiet =>
      cases pre with
      | nil => exact .kept passed x rest split.symm front quiet found written
      | cons y pre =>
          obtain ⟨rfl, tail⟩ := List.cons.inj written
          have here : Fronted p mark all (passed ++ [y]) rest (some y) := .inl List.getLast?_concat.symm
          have later := ih rest.length (Nat.lt_succ_self _) (by rw [← split, List.append_assoc]; rfl) found here
            tail.symm rfl
          rwa [← List.singleton_append, List.getLast?_append, List.getLast?_singleton, Option.or_assoc, Option.some_or]
  | swap taken d matched =>
      obtain ⟨here, onward⟩ := List.cons_subset.mp found
      have assoc : (passed ++ taken) ++ d.rest = whole := by rw [← split, List.append_assoc]
      have fronted : Fronted p mark all (passed ++ taken) d.rest (some mark) :=
        .inr ⟨rfl, passed, taken, d, rfl, here, matched, rfl⟩
      have shorter : d.rest.length < (taken ++ d.rest).length := by
        rw [List.length_append]
        exact Nat.lt_add_of_pos_left (List.length_pos_of_ne_nil matched.inhabited)
      have behind : ∀ extra, replaceFrom p replacement 0 (passed ++ taken).getLast? d.rest = extra ++ post →
          pre = replacement d.captures ++ extra → Place p replacement mark whole all (pre.getLast?.or seen) post := by
        rintro extra tail rfl
        have later := ih d.rest.length shorter assoc onward fronted tail rfl
        rwa [List.getLast?_append, ends, Option.or_assoc, Option.some_or]
      rcases List.append_eq_append_iff.mp written with ⟨extra, part, tail⟩ | ⟨extra, isPre, tail⟩
      · cases extra with
        | nil =>
            rw [List.append_nil] at part
            exact behind [] tail.symm (by rw [List.append_nil]; exact part.symm)
        | cons y extra =>
            exact .inside passed taken d pre (y :: extra) (split.symm) matched here onward part (List.cons_ne_nil _ _) tail
      · exact behind extra tail isPre

/-- Every place of a replaced text. -/
theorem place (ends : ∀ captures, (replacement captures).getLast? = some mark)
    (result : replaceAll p replacement text = pre ++ post) (inhabited : post ≠ []) :
    Place p replacement mark text (replacedFrom p 0 [] text) pre.getLast? post := by
  have located := @place_from κ p replacement mark [] text pre post text none _ ends rfl (fun _ held => held)
    (.inl rfl) result inhabited
  rwa [Option.or_none] at located

/-- What can be read in the result was kept, up to a place where a replacement begins. -/
theorem replaceFrom_split {read left : List Char} (result : replaceFrom p replacement 0 passed.getLast? text = read ++ left) :
    (∃ other, text = read ++ other ∧ left = replaceFrom p replacement 0 (passed ++ read).getLast? other ∧
      replacedFrom p 0 (passed ++ read) other = replacedFrom p 0 passed text) ∨
    ∃ early late taken d, read = early ++ late ∧ late ≠ [] ∧ text = early ++ (taken ++ d.rest) ∧
      Matched p (passed ++ early) taken d ∧ replacedFrom p 0 passed text =
        (passed ++ early, taken) :: replacedFrom p 0 (passed ++ early ++ taken) d.rest ∧
      replacement d.captures ++ replaceFrom p replacement 0 (passed ++ early ++ taken).getLast? d.rest = late ++ left := by
  induction read generalizing text passed with
  | nil =>
      refine .inl ⟨text, rfl, ?_, by rw [List.append_nil]⟩
      rw [List.append_nil]
      exact result.symm
  | cons y read ih =>
      have step := turn p replacement passed text
      rw [result] at step
      generalize listed : replacedFrom p 0 passed text = list at step
      generalize written : y :: read ++ left = output at step
      cases step with
      | stop => cases written
      | keep x rest quiet =>
          obtain ⟨rfl, tail⟩ := List.cons.inj written
          have shift : ∀ more, passed ++ [y] ++ more = passed ++ y :: more := List.append_assoc passed [y]
          rcases ih tail.symm with ⟨other, rfl, shape, same⟩ | ⟨early, late, taken, d, rfl, some_, rfl, matched, same, shape⟩
          · rw [shift] at shape same
            exact .inl ⟨other, rfl, shape, same⟩
          · rw [shift] at matched same shape
            exact .inr ⟨y :: early, late, taken, d, rfl, some_, rfl, matched, same, shape⟩
      | swap taken d matched =>
          refine .inr ⟨[], y :: read, taken, d, rfl, List.cons_ne_nil _ _, rfl, ?_, ?_, ?_⟩
          · rwa [List.append_nil]
          · rw [List.append_nil]
          · rw [List.append_nil]
            exact written.symm

section Whole

/-- The replacement from left to right, each step with all that is known of it. -/
theorem turn_induction {motive : List Char → List Char → List Char → List (List Char × List Char) → Prop}
    (stop : ∀ passed, motive passed [] [] [])
    (keep : ∀ passed x rest, (∀ d ∈ run p ⟨passed.getLast?, x :: rest, []⟩, ¬ d.rest.length < (x :: rest).length) →
      motive (passed ++ [x]) rest (replaceFrom p replacement 0 (passed ++ [x]).getLast? rest)
        (replacedFrom p 0 (passed ++ [x]) rest) →
      motive passed (x :: rest) (x :: replaceFrom p replacement 0 (passed ++ [x]).getLast? rest)
        (replacedFrom p 0 (passed ++ [x]) rest))
    (swap : ∀ passed taken (d : Cursor κ), Matched p passed taken d →
      motive (passed ++ taken) d.rest (replaceFrom p replacement 0 (passed ++ taken).getLast? d.rest)
        (replacedFrom p 0 (passed ++ taken) d.rest) →
      motive passed (taken ++ d.rest)
        (replacement d.captures ++ replaceFrom p replacement 0 (passed ++ taken).getLast? d.rest)
        ((passed, taken) :: replacedFrom p 0 (passed ++ taken) d.rest)) :
    motive passed text (replaceFrom p replacement 0 passed.getLast? text) (replacedFrom p 0 passed text) := by
  induction length : text.length using Nat.strongRecOn generalizing text passed with
  | _ length ih =>
  subst length
  have step := turn p replacement passed text
  generalize replaceFrom p replacement 0 passed.getLast? text = result at step ⊢
  generalize replacedFrom p 0 passed text = list at step ⊢
  cases step with
  | stop => exact stop passed
  | keep x rest quiet => exact keep passed x rest quiet (ih rest.length (Nat.lt_succ_self _) rfl)
  | swap taken d matched =>
      have shorter : d.rest.length < (taken ++ d.rest).length := by
        rw [List.length_append]
        exact Nat.lt_add_of_pos_left (List.length_pos_of_ne_nil matched.inhabited)
      exact swap passed taken d matched (ih d.rest.length shorter rfl)

/-- What is replaced is a match in the text. -/
theorem replacedFrom_matched {member : List Char × List Char} (held : member ∈ replacedFrom p 0 passed text) :
    ∃ d, passed ++ text = member.1 ++ (member.2 ++ d.rest) ∧ Matched p member.1 member.2 d := by
  have whole := @turn_induction κ p (fun _ => []) passed text (fun passed text _ found =>
    member ∈ found → ∃ d, passed ++ text = member.1 ++ (member.2 ++ d.rest) ∧ Matched p member.1 member.2 d)
  refine whole ?stop ?keep ?swap held
  case stop => exact fun _ held => nomatch held
  case keep =>
    intro passed x rest _ ih held
    obtain ⟨d, split, matched⟩ := ih held
    rw [List.append_assoc] at split
    exact ⟨d, split, matched⟩
  case swap =>
    intro passed taken d matched ih held
    rcases List.mem_cons.mp held with rfl | later
    · exact ⟨d, rfl, matched⟩
    · obtain ⟨e, split, matched⟩ := ih later
      rw [List.append_assoc] at split
      exact ⟨e, split, matched⟩

/-- What all characters of the text have, those of the result have, if replacements preserve it. -/
theorem forall_replaceAll {P : Char → Prop} (each : ∀ c ∈ text, P c)
    (preserved : ∀ passed taken d, Matched p passed taken d → (∀ c ∈ taken, P c) → ∀ c ∈ replacement d.captures, P c) :
    ∀ c ∈ replaceAll p replacement text, P c := by
  have whole := @turn_induction κ p replacement [] text (fun _ text result _ =>
    (∀ c ∈ text, P c) → ∀ c ∈ result, P c)
  refine whole ?stop ?keep ?swap each
  case stop => exact fun _ _ => List.forall_mem_nil _
  case keep =>
    intro passed x rest _ ih each
    obtain ⟨here, later⟩ := List.forall_mem_cons.mp each
    exact List.forall_mem_cons.mpr ⟨here, ih later⟩
  case swap =>
    intro passed taken d matched ih each
    obtain ⟨here, later⟩ := List.forall_mem_append.mp each
    exact List.forall_mem_append.mpr ⟨preserved passed taken d matched here, ih later⟩

/-- The end of a text that no match reaches stays. -/
theorem replaceAll_tail {front tail : List Char} (inside : ∀ member ∈ replacedFrom p 0 [] (front ++ tail),
    member.1.length + member.2.length ≤ front.length) : ∃ front', replaceAll p replacement (front ++ tail) = front' ++ tail := by
  have whole := @turn_induction κ p replacement [] (front ++ tail) (fun passed text result found => ∀ front tail,
    text = front ++ tail → (∀ member ∈ found, member.1.length + member.2.length ≤ passed.length + front.length) →
      ∃ front', result = front' ++ tail ∧ (front = [] → front' = []))
  suffices all : ∃ front', replaceAll p replacement (front ++ tail) = front' ++ tail ∧ (front = [] → front' = []) by
    obtain ⟨front', shape, _⟩ := all
    exact ⟨front', shape⟩
  refine whole ?stop ?keep ?swap front tail rfl (by simpa using inside)
  case stop =>
    intro _ front tail split _
    obtain ⟨_, rfl⟩ := List.append_eq_nil_iff.mp split.symm
    exact ⟨[], rfl, fun _ => rfl⟩
  case keep =>
    intro passed x rest _ ih front tail split inside
    have count : (passed ++ [x]).length = passed.length + 1 := List.length_append
    cases front with
    | nil =>
        obtain ⟨front', shape, empty⟩ := ih [] rest rfl fun member held => by
          rw [count]
          exact Nat.le_trans (inside member held) (Nat.le_succ _)
        refine ⟨[], ?_, fun _ => rfl⟩
        rw [shape, empty rfl]
        exact split
    | cons y front =>
        obtain ⟨rfl, rfl⟩ := List.cons.inj split
        obtain ⟨front', shape, _⟩ := ih front tail rfl fun member held => by
          have reach := inside member held
          rw [List.length_cons] at reach
          omega
        exact ⟨x :: front', by rw [shape]; rfl, fun same => absurd same (List.cons_ne_nil _ _)⟩
  case swap =>
    intro passed taken d matched ih front tail split inside
    obtain ⟨here, later⟩ := List.forall_mem_cons.mp inside
    have within : taken.length ≤ front.length := Nat.le_of_add_le_add_left here
    rcases List.append_eq_append_iff.mp split with ⟨extra, rfl, behind⟩ | ⟨extra, whole, behind⟩
    · obtain ⟨front', shape, _⟩ := ih extra tail behind fun member held => by
        have reach := later member held
        rw [List.length_append] at reach ⊢
        omega
      refine ⟨replacement d.captures ++ front', by rw [shape, List.append_assoc], fun same => ?_⟩
      exact absurd (List.append_eq_nil_iff.mp same).1 matched.inhabited
    · rw [whole, List.length_append] at within
      obtain rfl : extra = [] := List.length_eq_zero_iff.mp (by omega)
      rw [List.append_nil] at whole
      subst whole
      obtain ⟨front', shape, empty⟩ := ih [] d.rest rfl fun member held => by
        have reach := later member held
        rw [List.length_append]
        exact reach
      refine ⟨replacement d.captures, ?_, fun same => absurd same matched.inhabited⟩
      rw [shape, empty rfl, behind]

/-- How much longer a text becomes when each match gives way to a text of this size. -/
def growth (p : Pattern κ) (size : List Char → Nat) (text : List Char) : Int :=
  ((replacedFrom p 0 [] text).map fun member => (size member.2 : Int) - String.utf8Len member.2).sum

theorem utf8Len_replaceAll {size : List Char → Nat} (sized : ∀ passed taken d, Matched p passed taken d →
    String.utf8Len (replacement d.captures) = size taken) :
    (String.utf8Len (replaceAll p replacement text) : Int) = String.utf8Len text + growth p size text := by
  have whole := @turn_induction κ p replacement [] text (fun _ text result found => (String.utf8Len result : Int) =
    String.utf8Len text + (found.map fun member => (size member.2 : Int) - String.utf8Len member.2).sum)
  refine whole ?stop ?keep ?swap
  case stop => exact fun _ => rfl
  case keep =>
    intro passed x rest _ ih
    rw [String.utf8Len_cons, String.utf8Len_cons]
    omega
  case swap =>
    intro passed taken d matched ih
    have same := sized passed taken d matched
    rw [String.utf8Len_append, String.utf8Len_append, List.map_cons, List.sum_cons]
    dsimp only
    omega

end Whole

end Regex
