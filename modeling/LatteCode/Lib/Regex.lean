import Mathlib
/- Regular expressions with leftmost-first matching, and the replacement of every match. -/

namespace Regex

/-- A pattern; groups are named by `κ`. -/
inductive Pattern (κ : Type) where
  | empty
  | one (accepts : Char → Bool)
  | seq (first second : Pattern κ)
  | alt (preferred other : Pattern κ)
  | many (greedy : Bool) (body : Pattern κ)
  | boundary (word : Char → Bool)
  | group (name : κ) (body : Pattern κ)

/-- A position in a text, with what the groups have captured on the way to it. -/
structure Cursor (κ : Type) where
  before : Option Char
  rest : List Char
  captures : List (κ × List Char)

variable {κ : Type}

/-- Repetition of a step that must read something, most preferred outcome first. -/
def repeats (greedy : Bool) (step : Cursor κ → List (Cursor κ)) : Nat → Cursor κ → List (Cursor κ)
  | 0, c => [c]
  | fuel + 1, c =>
      let more := ((step c).filter fun d => d.rest.length < c.rest.length).flatMap (repeats greedy step fuel)
      if greedy then more ++ [c] else c :: more

/-- The ends of the matches that start here, in the order in which backtracking finds them. -/
def run : Pattern κ → Cursor κ → List (Cursor κ)
  | .empty, c => [c]
  | .one accepts, c =>
      match c.rest with
      | [] => []
      | x :: rest => if accepts x then [⟨some x, rest, c.captures⟩] else []
  | .seq first second, c => (run first c).flatMap (run second)
  | .alt preferred other, c => run preferred c ++ run other c
  | .many greedy body, c => repeats greedy (run body) c.rest.length c
  | .boundary word, c => if c.before.any word = c.rest.head?.any word then [] else [c]
  | .group name body, c =>
      (run body c).map fun d =>
        { d with captures := (name, c.rest.take (c.rest.length - d.rest.length)) :: d.captures }

attribute [local grind =] run

/-- The texts a pattern can read, whatever stands around them. -/
inductive Reads : Pattern κ → List Char → Prop
  | empty : Reads .empty []
  | one {accepts : Char → Bool} {x : Char} (accepted : accepts x = true) : Reads (.one accepts) [x]
  | seq {first second : Pattern κ} {text more : List Char} (head : Reads first text) (tail : Reads second more) :
      Reads (.seq first second) (text ++ more)
  | preferred {preferred other : Pattern κ} {text : List Char} (read : Reads preferred text) :
      Reads (.alt preferred other) text
  | other {preferred other : Pattern κ} {text : List Char} (read : Reads other text) :
      Reads (.alt preferred other) text
  | manyNil {greedy : Bool} {body : Pattern κ} : Reads (.many greedy body) []
  | manyCons {greedy : Bool} {body : Pattern κ} {text more : List Char} (head : Reads body text)
      (tail : Reads (.many greedy body) more) : Reads (.many greedy body) (text ++ more)
  | boundary {word : Char → Bool} : Reads (.boundary word) []
  | group {name : κ} {body : Pattern κ} {text : List Char} (read : Reads body text) : Reads (.group name body) text

section Language

variable {first second body : Pattern κ} {text : List Char} {c d : Cursor κ}

theorem reads_seq : Reads (.seq first second) text ↔
    ∃ head tail, text = head ++ tail ∧ Reads first head ∧ Reads second tail := by
  constructor
  · intro read
    cases read with
    | seq head tail => exact ⟨_, _, rfl, head, tail⟩
  · rintro ⟨head, tail, rfl, first, second⟩
    exact .seq first second

theorem reads_alt : Reads (.alt first second) text ↔ Reads first text ∨ Reads second text := by
  constructor
  · intro read
    cases read with
    | preferred read => exact .inl read
    | other read => exact .inr read
  · rintro (read | read)
    · exact .preferred read
    · exact .other read

theorem reads_one {accepts : Char → Bool} : Reads (κ := κ) (.one accepts) text ↔ ∃ x, text = [x] ∧ accepts x = true := by
  constructor
  · intro read
    cases read with
    | one accepted => exact ⟨_, rfl, accepted⟩
  · rintro ⟨x, rfl, accepted⟩
    exact .one accepted

theorem reads_group {name : κ} : Reads (.group name body) text ↔ Reads body text := by
  constructor
  · intro read
    cases read with
    | group read => exact read
  · exact .group

theorem reads_empty : Reads (κ := κ) .empty text ↔ text = [] := by
  constructor
  · intro read
    cases read
    rfl
  · rintro rfl
    exact .empty

theorem reads_boundary {word : Char → Bool} : Reads (κ := κ) (.boundary word) text ↔ text = [] := by
  constructor
  · intro read
    cases read
    rfl
  · rintro rfl
    exact .boundary

/-- What a repeated class reads is a text of that class. -/
theorem reads_many_one {greedy : Bool} {accepts : Char → Bool} :
    Reads (κ := κ) (.many greedy (.one accepts)) text ↔ ∀ x ∈ text, accepts x = true := by
  constructor
  · intro read
    generalize shape : Pattern.many greedy (.one accepts) = pattern at read
    induction read with
    | manyNil => exact fun _ held => nomatch held
    | manyCons head _ _ ih =>
        cases shape
        obtain ⟨x, rfl, accepted⟩ := reads_one.mp head
        exact List.forall_mem_cons.mpr ⟨accepted, ih rfl⟩
    | _ => cases shape
  · intro accepted
    induction text with
    | nil => exact .manyNil
    | cons x text ih =>
        exact .manyCons (.one (accepted x List.mem_cons_self)) (ih fun y held => accepted y (List.mem_cons_of_mem _ held))

/-- A pattern whose classes accept only such characters. -/
def Pattern.Only (P : Char → Prop) : Pattern κ → Prop
  | .empty | .boundary _ => True
  | .one accepts => ∀ x, accepts x = true → P x
  | .seq first second | .alt first second => first.Only P ∧ second.Only P
  | .many _ body | .group _ body => body.Only P

theorem Reads.only {P : Char → Prop} {p : Pattern κ} (read : Reads p text) (only : p.Only P) : ∀ c ∈ text, P c := by
  induction read with
  | empty | manyNil | boundary => exact List.forall_mem_nil P
  | one accepted => exact fun c held => List.mem_singleton.mp held ▸ only _ accepted
  | seq _ _ first second => exact List.forall_mem_append.mpr ⟨first only.1, second only.2⟩
  | preferred _ ih => exact ih only.1
  | other _ ih => exact ih only.2
  | manyCons _ _ first later => exact List.forall_mem_append.mpr ⟨first only, later only⟩
  | group _ ih => exact ih only

end Language

section Outcomes

variable {p first second body : Pattern κ} {c d : Cursor κ}

/-- The cursor behind some characters. -/
def Cursor.past (c : Cursor κ) (taken rest : List Char) : Cursor κ := ⟨taken.getLast?.or c.before, rest, c.captures⟩

theorem getLast?_past (taken more : List Char) (before : Option Char) :
    more.getLast?.or (taken.getLast?.or before) = (taken ++ more).getLast?.or before := by
  rw [List.getLast?_append, Option.or_assoc]

/-- A match ends behind a text that its pattern reads. -/
def Ends (p : Pattern κ) (c d : Cursor κ) : Prop :=
  ∃ taken, Reads p taken ∧ c.rest = taken ++ d.rest ∧ d.before = taken.getLast?.or c.before

theorem mem_repeats {greedy : Bool} {step : Cursor κ → List (Cursor κ)} (sound : ∀ c, ∀ d ∈ step c, Ends body c d)
    {fuel : Nat} (found : d ∈ repeats greedy step fuel c) : Ends (.many greedy body) c d := by
  have here : Ends (.many greedy body) c c := ⟨[], .manyNil, rfl, rfl⟩
  induction fuel generalizing c with
  | zero => exact List.mem_singleton.mp found ▸ here
  | succ fuel ih =>
      have more : d ∈ ((step c).filter fun d => d.rest.length < c.rest.length).flatMap (repeats greedy step fuel) →
          Ends (.many greedy body) c d := by
        intro later
        obtain ⟨middle, held, end_⟩ := List.mem_flatMap.mp later
        obtain ⟨taken, reads, split, before⟩ := sound c middle (List.mem_filter.mp held).1
        obtain ⟨more, readsMore, splitMore, beforeMore⟩ := ih end_ ⟨[], .manyNil, rfl, rfl⟩
        refine ⟨taken ++ more, .manyCons reads readsMore, ?_, ?_⟩
        · rw [split, splitMore, List.append_assoc]
        · rw [beforeMore, before, getLast?_past]
      rw [repeats] at found
      split at found
      · rcases List.mem_append.mp found with later | stop
        · exact more later
        · exact List.mem_singleton.mp stop ▸ here
      · rcases List.mem_cons.mp found with stop | later
        · exact stop ▸ here
        · exact more later

theorem run_ends : ∀ (p : Pattern κ) (c d : Cursor κ), d ∈ run p c → Ends p c d
  | .empty, c, d, found => List.mem_singleton.mp found ▸ ⟨[], .empty, rfl, rfl⟩
  | .one accepts, c, d, found => by
      rw [run] at found
      split at found
      case h_1 => cases found
      case h_2 x rest text =>
        split at found
        case isTrue accepted =>
          rw [List.mem_singleton.mp found]
          exact ⟨[x], .one accepted, text, rfl⟩
        case isFalse => cases found
  | .seq first second, c, d, found => by
      obtain ⟨middle, held, later⟩ := List.mem_flatMap.mp found
      obtain ⟨head, reads, split, before⟩ := run_ends first c middle held
      obtain ⟨tail, readsTail, splitTail, beforeTail⟩ := run_ends second middle d later
      refine ⟨head ++ tail, .seq reads readsTail, ?_, ?_⟩
      · rw [split, splitTail, List.append_assoc]
      · rw [beforeTail, before, getLast?_past]
  | .alt preferred other, c, d, found => by
      rcases List.mem_append.mp found with held | held
      · obtain ⟨taken, reads, at_⟩ := run_ends preferred c d held
        exact ⟨taken, .preferred reads, at_⟩
      · obtain ⟨taken, reads, at_⟩ := run_ends other c d held
        exact ⟨taken, .other reads, at_⟩
  | .many greedy body, c, d, found => mem_repeats (run_ends body) found
  | .boundary word, c, d, found => by
      rw [run] at found
      split at found
      · cases found
      · exact List.mem_singleton.mp found ▸ ⟨[], .boundary, rfl, rfl⟩
  | .group name body, c, d, found => by
      obtain ⟨inner, held, rfl⟩ := List.mem_map.mp found
      obtain ⟨taken, reads, at_⟩ := run_ends body c inner held
      exact ⟨taken, .group reads, at_⟩

/-- A pattern without groups. -/
def Pattern.groupless : Pattern κ → Bool
  | .empty | .one _ | .boundary _ => true
  | .seq first second | .alt first second => first.groupless && second.groupless
  | .many _ body => body.groupless
  | .group _ _ => false

theorem captures_repeats {greedy : Bool} {step : Cursor κ → List (Cursor κ)}
    (kept : ∀ c, ∀ d ∈ step c, d.captures = c.captures) {fuel : Nat} (found : d ∈ repeats greedy step fuel c) :
    d.captures = c.captures := by
  induction fuel generalizing c with
  | zero => exact List.mem_singleton.mp found ▸ rfl
  | succ fuel ih =>
      have more : d ∈ ((step c).filter fun d => d.rest.length < c.rest.length).flatMap (repeats greedy step fuel) →
          d.captures = c.captures := by
        intro later
        obtain ⟨middle, held, end_⟩ := List.mem_flatMap.mp later
        exact (ih end_).trans (kept c middle (List.mem_filter.mp held).1)
      rw [repeats] at found
      split at found
      · rcases List.mem_append.mp found with later | stop
        · exact more later
        · exact List.mem_singleton.mp stop ▸ rfl
      · rcases List.mem_cons.mp found with stop | later
        · exact stop ▸ rfl
        · exact more later

/-- Without groups nothing is captured. -/
theorem captures_kept : ∀ (p : Pattern κ), p.groupless = true → ∀ c d : Cursor κ, d ∈ run p c → d.captures = c.captures
  | .empty, _, c, d, found => List.mem_singleton.mp found ▸ rfl
  | .one accepts, _, c, d, found => by
      rw [run] at found
      split at found
      case h_1 => cases found
      case h_2 =>
        split at found
        case isTrue => rw [List.mem_singleton.mp found]
        case isFalse => cases found
  | .seq first second, plain, c, d, found => by
      obtain ⟨plainFirst, plainSecond⟩ := Bool.and_eq_true_iff.mp plain
      obtain ⟨middle, held, later⟩ := List.mem_flatMap.mp found
      exact (captures_kept second plainSecond middle d later).trans (captures_kept first plainFirst c middle held)
  | .alt preferred other, plain, c, d, found => by
      obtain ⟨plainPreferred, plainOther⟩ := Bool.and_eq_true_iff.mp plain
      rcases List.mem_append.mp found with held | held
      · exact captures_kept preferred plainPreferred c d held
      · exact captures_kept other plainOther c d held
  | .many greedy body, plain, c, d, found => captures_repeats (captures_kept body plain) found
  | .boundary word, _, c, d, found => by
      rw [run] at found
      split at found
      · cases found
      · exact List.mem_singleton.mp found ▸ rfl

theorem mem_run_seq : d ∈ run (.seq first second) c ↔ ∃ middle ∈ run first c, d ∈ run second middle :=
  List.mem_flatMap

theorem mem_run_one {accepts : Char → Bool} : d ∈ run (.one accepts) c ↔
    ∃ x rest, c.rest = x :: rest ∧ accepts x = true ∧ d = c.past [x] rest := by
  rw [run]
  cases c.rest with
  | nil => simp
  | cons x rest =>
      dsimp only
      split
      case isTrue accepted =>
        rw [List.mem_singleton]
        constructor
        · rintro rfl
          exact ⟨x, rest, rfl, accepted, rfl⟩
        · rintro ⟨_, _, same, _, rfl⟩
          cases same
          rfl
      case isFalse refused =>
        refine iff_of_false List.not_mem_nil ?_
        rintro ⟨_, _, same, accepted, _⟩
        cases same
        exact refused accepted

theorem mem_run_boundary {word : Char → Bool} : d ∈ run (.boundary word) c ↔
    c.before.any word ≠ c.rest.head?.any word ∧ d = c := by
  rw [run]
  split
  case isTrue same => exact iff_of_false List.not_mem_nil fun both => both.1 same
  case isFalse differ => rw [List.mem_singleton, and_iff_right differ]

theorem Cursor.past_past (c : Cursor κ) (taken more between rest : List Char) :
    (c.past taken between).past more rest = c.past (taken ++ more) rest := by
  rw [Cursor.past, Cursor.past, Cursor.past, getLast?_past]

theorem Cursor.past_nil {rest : List Char} (split : c.rest = rest) : c.past [] rest = c := by
  obtain ⟨before, _, captures⟩ := c
  cases split
  rfl

/-- A repetition goes on over characters that its body can read one by one. -/
theorem mem_run_each {greedy : Bool} {taken rest : List Char} (split : c.rest = taken ++ rest)
    (each : ∀ x ∈ taken, ∀ (c : Cursor κ) (rest : List Char), c.rest = x :: rest → c.past [x] rest ∈ run body c) :
    c.past taken rest ∈ run (.many greedy body) c := by
  have reach : ∀ (fuel : Nat) (taken : List Char) (c : Cursor κ), taken.length ≤ fuel → c.rest = taken ++ rest →
      (∀ x ∈ taken, ∀ (c : Cursor κ) (rest : List Char), c.rest = x :: rest → c.past [x] rest ∈ run body c) →
        c.past taken rest ∈ repeats greedy (run body) fuel c := by
    intro fuel
    induction fuel with
    | zero =>
        intro taken c room split _
        rw [List.length_eq_zero_iff.mp (Nat.le_zero.mp room)] at split ⊢
        have here : c.past [] rest = c := Cursor.past_nil split
        rw [here]
        exact List.mem_singleton_self c
    | succ fuel ih =>
        intro taken c room split each
        rw [repeats]
        cases taken with
        | nil =>
            have here : c.past [] rest = c := Cursor.past_nil split
            rw [here]
            split
            · exact List.mem_append_right _ (List.mem_singleton_self c)
            · exact List.mem_cons_self
        | cons x taken =>
            obtain ⟨first, later⟩ := List.forall_mem_cons.mp each
            have onward := ih taken (c.past [x] (taken ++ rest)) (Nat.le_of_succ_le_succ room) rfl later
            rw [Cursor.past_past] at onward
            have shorter : (c.past [x] (taken ++ rest)).rest.length < c.rest.length := by
              rw [split]
              exact Nat.lt_succ_self _
            have more : c.past (x :: taken) rest ∈
                ((run body c).filter fun d => d.rest.length < c.rest.length).flatMap (repeats greedy (run body) fuel) :=
              List.mem_flatMap.mpr ⟨_, List.mem_filter.mpr ⟨first c _ split, decide_eq_true shorter⟩, onward⟩
            split
            · exact List.mem_append_left _ more
            · exact List.mem_cons_of_mem _ more
  refine reach c.rest.length taken c ?_ split each
  rw [split, List.length_append]
  exact Nat.le_add_right _ _

/-- A repeated class may stop anywhere in a run of its characters. -/
theorem mem_run_class {greedy : Bool} {accepts : Char → Bool} {taken rest : List Char} (text : c.rest = taken ++ rest)
    (accepted : ∀ x ∈ taken, accepts x = true) : c.past taken rest ∈ run (.many greedy (.one accepts)) c :=
  mem_run_each text fun x held _ _ split => mem_run_one.mpr ⟨x, _, split, accepted x held, rfl⟩

/-- Patterns whose outcomes depend on nothing but the text ahead, with repeated classes only. -/
def Pattern.Simple : Pattern κ → Prop
  | .empty | .one _ => True
  | .seq first second | .alt first second => first.Simple ∧ second.Simple
  | .many _ (.one _) => True
  | .many _ _ | .boundary _ | .group _ _ => False

attribute [local grind =] Pattern.Simple

/-- What a simple pattern reads is one of its outcomes. -/
theorem Reads.mem_run {text : List Char} (reads : Reads p text) (simple : p.Simple) : ∀ {c : Cursor κ}
    {rest : List Char}, c.rest = text ++ rest → c.past text rest ∈ run p c := by
  induction reads with
  | empty =>
      intro c rest split
      have here : c.past [] rest = c := Cursor.past_nil split
      rw [here]
      exact List.mem_singleton_self c
  | one accepted => exact fun split => mem_run_one.mpr ⟨_, _, split, accepted, rfl⟩
  | @seq _ _ text more _ _ first second =>
      intro c rest split
      rw [List.append_assoc] at split
      have later := @second simple.2 (c.past text (more ++ rest)) rest rfl
      rw [Cursor.past_past] at later
      exact mem_run_seq.mpr ⟨_, first simple.1 split, later⟩
  | preferred _ ih => exact fun split => List.mem_append_left _ (ih simple.1 split)
  | other _ ih => exact fun split => List.mem_append_right _ (ih simple.2 split)
  | @manyNil _ body =>
      intro c rest split
      cases body with
      | one accepts => exact mem_run_class split (List.forall_mem_nil _)
      | _ => exact simple.elim
  | @manyCons _ body _ _ head tail _ _ =>
      intro c rest split
      cases body with
      | one accepts => exact mem_run_class split (reads_many_one.mp (.manyCons head tail))
      | _ => exact simple.elim
  | boundary => exact simple.elim
  | group => exact simple.elim

end Outcomes

section Firsts

variable {p first second : Pattern κ} {c d : Cursor κ} {accepts : Char → Bool}

theorem first_seq (found : (run (.seq first second) c).head? = some d) :
    ∃ middle ∈ run first c, (run second middle).head? = some d := by
  rw [run, List.head?_flatMap] at found
  exact List.exists_of_findSome?_eq_some found

theorem first_alt (found : (run (.alt first second) c).head? = some d) :
    (run first c).head? = some d ∨ (run second c).head? = some d := by
  rw [run, List.head?_append] at found
  exact (Option.or_eq_some_iff.mp found).imp_right fun both => both.2

/-- The preferred pattern decides where it has an outcome. -/
theorem first_alt_left (some_ : ∃ e, e ∈ run first c) (found : (run (.alt first second) c).head? = some d) :
    (run first c).head? = some d := by
  obtain ⟨e, held⟩ := some_
  obtain ⟨f, others, outcomes⟩ := List.exists_cons_of_ne_nil (List.ne_nil_of_mem held)
  rw [run, outcomes] at found
  rw [outcomes]
  exact found

/-- A greedy class goes on as far as it can. -/
theorem first_class (found : (run (.many true (.one accepts)) c).head? = some d) :
    ∃ taken, c.rest = taken ++ d.rest ∧ (∀ x ∈ taken, accepts x = true) ∧
      ∀ x, d.rest.head? = some x → accepts x = false := by
  have stop : ∀ (c : Cursor κ), (∀ x, c.rest.head? = some x → accepts x = false) → ∃ taken,
      c.rest = taken ++ c.rest ∧ (∀ x ∈ taken, accepts x = true) ∧ ∀ x, c.rest.head? = some x → accepts x = false :=
    fun c stops => ⟨[], rfl, List.forall_mem_nil _, stops⟩
  have reach : ∀ (fuel : Nat) (c : Cursor κ), c.rest.length ≤ fuel →
      (repeats true (run (.one accepts)) fuel c).head? = some d →
        ∃ taken, c.rest = taken ++ d.rest ∧ (∀ x ∈ taken, accepts x = true) ∧
          ∀ x, d.rest.head? = some x → accepts x = false := by
    intro fuel
    induction fuel with
    | zero =>
        intro c room found
        cases found
        refine stop _ fun x held => ?_
        rw [List.length_eq_zero_iff.mp (Nat.le_zero.mp room)] at held
        cases held
    | succ fuel ih =>
        intro c room found
        obtain ⟨before, rest, captures⟩ := c
        cases rest with
        | nil =>
            cases found
            exact stop _ fun x held => nomatch held
        | cons x rest =>
            by_cases accepted : accepts x = true
            · have one : run (.one accepts) ⟨before, x :: rest, captures⟩ = [⟨some x, rest, captures⟩] := if_pos accepted
              have unfolded : repeats true (run (.one accepts)) (fuel + 1) ⟨before, x :: rest, captures⟩ =
                  repeats true (run (.one accepts)) fuel ⟨some x, rest, captures⟩ ++ [⟨before, x :: rest, captures⟩] := by
                simp [repeats, one]
              have inhabited : repeats true (run (.one accepts)) fuel ⟨some x, rest, captures⟩ ≠ [] := by
                cases fuel with
                | zero => exact List.cons_ne_nil _ _
                | succ fuel =>
                    rw [repeats, if_pos rfl]
                    exact List.append_ne_nil_of_right_ne_nil _ (List.cons_ne_nil _ _)
              rw [unfolded, List.head?_append_of_ne_nil _ inhabited] at found
              obtain ⟨taken, split, each, stops⟩ := ih _ (Nat.le_of_succ_le_succ room) found
              exact ⟨x :: taken, congrArg (x :: ·) split, List.forall_mem_cons.mpr ⟨accepted, each⟩, stops⟩
            · have none_ : run (.one accepts) ⟨before, x :: rest, captures⟩ = [] := if_neg accepted
              have unfolded : repeats true (run (.one accepts)) (fuel + 1) ⟨before, x :: rest, captures⟩ =
                  [⟨before, x :: rest, captures⟩] := by
                simp [repeats, none_]
              rw [unfolded] at found
              cases found
              refine stop _ fun y same => ?_
              cases same
              exact eq_false_of_ne_true accepted
  exact reach c.rest.length c (Nat.le_refl _) found

end Firsts

section Replacement

/-- Leftmost matches replaced, for patterns that read at least one character; `skip` characters
belong to the match before. -/
def replaceFrom (p : Pattern κ) (replacement : List (κ × List Char) → List Char) :
    Nat → Option Char → List Char → List Char
  | _, _, [] => []
  | skip + 1, _, x :: rest => replaceFrom p replacement skip (some x) rest
  | 0, before, x :: rest =>
      match (run p ⟨before, x :: rest, []⟩).find? fun d => d.rest.length ≤ rest.length with
      | some d => replacement d.captures ++ replaceFrom p replacement (rest.length - d.rest.length) (some x) rest
      | none => x :: replaceFrom p replacement 0 (some x) rest

attribute [local grind =] replaceFrom

def replaceAll (p : Pattern κ) (replacement : List (κ × List Char) → List Char) (text : List Char) : List Char :=
  replaceFrom p replacement 0 none text

/-- Somewhere in the text the pattern matches. -/
def FoundFrom (p : Pattern κ) (before : Option Char) (text : List Char) : Prop :=
  ∃ passed rest, text = passed ++ rest ∧
    ∃ d ∈ run p ⟨passed.getLast?.or before, rest, []⟩, d.rest.length < rest.length

def Found (p : Pattern κ) (text : List Char) : Prop := FoundFrom p none text

variable {p : Pattern κ} {replacement : List (κ × List Char) → List Char} {before : Option Char} {x mark : Char}
  {rest text : List Char}

theorem foundFrom_cons : FoundFrom p before (x :: rest) ↔
    (∃ d ∈ run p ⟨before, x :: rest, []⟩, d.rest.length ≤ rest.length) ∨ FoundFrom p (some x) rest := by
  constructor
  · rintro ⟨passed, left, split, d, held, shorter⟩
    cases passed with
    | nil =>
        cases split
        exact .inl ⟨d, held, Nat.le_of_lt_succ shorter⟩
    | cons y passed =>
        cases split
        refine .inr ⟨passed, left, rfl, d, ?_, shorter⟩
        rw [← List.singleton_append, ← getLast?_past] at held
        exact held
  · rintro (⟨d, held, shorter⟩ | ⟨passed, left, rfl, d, held, shorter⟩)
    · exact ⟨[], x :: rest, rfl, d, held, Nat.lt_succ_of_le shorter⟩
    · refine ⟨x :: passed, left, rfl, d, ?_, shorter⟩
      rw [← List.singleton_append, ← getLast?_past]
      exact held

theorem not_foundFrom_nil : ¬ FoundFrom p before [] := by
  rintro ⟨passed, left, split, d, _, shorter⟩
  rw [(List.append_eq_nil_iff.mp split.symm).2] at shorter
  exact absurd shorter (Nat.not_lt_zero _)

theorem replaceFrom_unfound (absent : ¬ FoundFrom p before text) : replaceFrom p replacement 0 before text = text := by
  induction text generalizing before with
  | nil => rfl
  | cons x rest ih =>
      rw [foundFrom_cons, not_or] at absent
      have missing : (run p ⟨before, x :: rest, []⟩).find? (fun d => d.rest.length ≤ rest.length) = none := by
        rw [List.find?_eq_none]
        exact fun d held shorter => absent.1 ⟨d, held, of_decide_eq_true shorter⟩
      rw [replaceFrom, missing]
      dsimp only
      rw [ih absent.2]

/-- A text without a match stays as it is. -/
theorem replaceAll_unfound (absent : ¬ Found p text) : replaceAll p replacement text = text :=
  replaceFrom_unfound absent

theorem mem_replaceFrom_found (marked : ∀ captures, mark ∈ replacement captures) (found : FoundFrom p before text) :
    mark ∈ replaceFrom p replacement 0 before text := by
  induction text generalizing before with
  | nil => exact absurd found not_foundFrom_nil
  | cons x rest ih =>
      rw [replaceFrom]
      cases first : (run p ⟨before, x :: rest, []⟩).find? (fun d => d.rest.length ≤ rest.length) with
      | some d => exact List.mem_append_left _ (marked _)
      | none =>
          rcases foundFrom_cons.mp found with ⟨d, held, shorter⟩ | later
          · exact absurd (decide_eq_true shorter) (List.find?_eq_none.mp first d held)
          · exact List.mem_cons_of_mem _ (ih later)

/-- Where every replacement bears a mark, a text without the mark is kept exactly when nothing matches. -/
theorem replaceAll_kept_iff (marked : ∀ captures, mark ∈ replacement captures) (clear : mark ∉ text) :
    replaceAll p replacement text = text ↔ ¬ Found p text := by
  refine ⟨fun kept found => clear ?_, replaceAll_unfound⟩
  have written := mem_replaceFrom_found marked found
  rw [← kept]
  exact written

/-- A mark that stands in the text stands in the result. -/
theorem mark_replaceAll (marked : ∀ captures, mark ∈ replacement captures) (held : mark ∈ text) :
    mark ∈ replaceAll p replacement text := by
  by_cases found : Found p text
  · exact mem_replaceFrom_found marked found
  · rw [replaceAll_unfound found]
    exact held

/-- What a match reads is part of the text. -/
theorem Found.reads (found : Found p text) : ∃ taken, Reads p taken ∧ taken <:+: text := by
  obtain ⟨passed, left, rfl, d, held, _⟩ := found
  obtain ⟨taken, reads, split, _⟩ := run_ends p _ d held
  have split : left = taken ++ d.rest := split
  exact ⟨taken, reads, passed, d.rest, by rw [split, List.append_assoc]⟩

section Steps

theorem replaceFrom_skip {skip : Nat} : replaceFrom p replacement skip before text =
    replaceFrom p replacement 0 ((text.take skip).getLast?.or before) (text.drop skip) := by
  induction text generalizing skip before with
  | nil =>
      rw [List.drop_nil, replaceFrom, replaceFrom]
  | cons x rest ih =>
      cases skip with
      | zero => rfl
      | succ skip =>
          rw [replaceFrom, ih, List.take_succ_cons, List.drop_succ_cons, ← List.singleton_append, ← getLast?_past]
          rfl

/-- A match is replaced, and the search goes on behind it. -/
theorem replaceFrom_found {d : Cursor κ}
    (first : (run p ⟨before, x :: rest, []⟩).find? (fun d => d.rest.length ≤ rest.length) = some d) :
    replaceFrom p replacement 0 before (x :: rest) =
      replacement d.captures ++ replaceFrom p replacement 0 d.before d.rest := by
  obtain ⟨taken, _, split, behind⟩ := run_ends p _ d (List.mem_of_find?_eq_some first)
  have accepted := List.find?_some first
  have shorter : d.rest.length ≤ rest.length := of_decide_eq_true accepted
  rw [replaceFrom, first]
  dsimp only at split behind ⊢
  cases taken with
  | nil =>
      have longer := congrArg List.length split
      rw [List.nil_append, List.length_cons] at longer
      omega
  | cons y taken =>
      obtain ⟨rfl, tail⟩ : x = y ∧ rest = taken ++ d.rest := List.cons.inj split
      have count : rest.length - d.rest.length = taken.length := by
        rw [tail, List.length_append, Nat.add_sub_cancel]
      rw [replaceFrom_skip, count, behind, tail, List.take_left, List.drop_left, ← List.singleton_append,
        ← getLast?_past]
      rfl

theorem replaceFrom_none (none_ : (run p ⟨before, x :: rest, []⟩).find? (fun d => d.rest.length ≤ rest.length) = none) :
    replaceFrom p replacement 0 before (x :: rest) = x :: replaceFrom p replacement 0 (some x) rest := by
  rw [replaceFrom, none_]

/-- Characters that no match touches come through, and the search goes on behind them. -/
theorem replaceFrom_passed {passed : List Char} (untouched : ∀ early later, passed = early ++ later → later ≠ [] →
    ∀ d ∈ run p ⟨early.getLast?.or before, later ++ text, []⟩, ¬ d.rest.length < (later ++ text).length) :
    replaceFrom p replacement 0 before (passed ++ text) =
      passed ++ replaceFrom p replacement 0 (passed.getLast?.or before) text := by
  induction passed generalizing before with
  | nil => rfl
  | cons x passed ih =>
      have none_ : (run p ⟨before, x :: (passed ++ text), []⟩).find?
          (fun d => d.rest.length ≤ (passed ++ text).length) = none := by
        rw [List.find?_eq_none]
        intro d held shorter
        exact untouched [] (x :: passed) rfl (List.cons_ne_nil _ _) d held (Nat.lt_succ_of_le (of_decide_eq_true shorter))
      rw [List.cons_append, replaceFrom_none none_, ih, List.cons_append, ← List.singleton_append (l := passed),
        ← getLast?_past]
      · rfl
      · intro early later split more d held
        apply untouched (x :: early) later (congrArg (x :: ·) split) more d
        rw [← List.singleton_append, ← getLast?_past]
        exact held

theorem foundFrom_passed {passed : List Char} (untouched : ∀ early later, passed = early ++ later → later ≠ [] →
    ∀ d ∈ run p ⟨early.getLast?.or before, later ++ text, []⟩, ¬ d.rest.length < (later ++ text).length) :
    FoundFrom p before (passed ++ text) ↔ FoundFrom p (passed.getLast?.or before) text := by
  induction passed generalizing before with
  | nil => rfl
  | cons x passed ih =>
      rw [List.cons_append, foundFrom_cons, ih, ← List.singleton_append (l := passed), ← getLast?_past]
      · refine or_iff_right ?_
        rintro ⟨d, held, shorter⟩
        exact untouched [] (x :: passed) rfl (List.cons_ne_nil _ _) d held (Nat.lt_succ_of_le shorter)
      · intro early later split more d held
        apply untouched (x :: early) later (congrArg (x :: ·) split) more d
        rw [← List.singleton_append, ← getLast?_past]
        exact held

/-- What stands before the first mark was there before. -/
theorem replaceFrom_clean (marked : ∀ captures, (replacement captures).head? = some mark) {clean more : List Char}
    (shape : replaceFrom p replacement 0 before text = clean ++ more) (clear : mark ∉ clean) :
    ∃ other, text = clean ++ other := by
  induction clean generalizing before text with
  | nil => exact ⟨text, rfl⟩
  | cons y clean ih =>
      cases text with
      | nil =>
          rw [replaceFrom] at shape
          cases shape
      | cons x rest =>
          cases first : (run p ⟨before, x :: rest, []⟩).find? (fun d => d.rest.length ≤ rest.length) with
          | some d =>
              have head := congrArg List.head? ((replaceFrom_found first).symm.trans shape)
              rw [List.head?_append, marked, Option.some_or, List.cons_append, List.head?_cons] at head
              exact absurd (Option.some.inj head ▸ List.mem_cons_self) clear
          | none =>
              obtain ⟨rfl, tail⟩ := List.cons.inj ((replaceFrom_none first).symm.trans shape)
              obtain ⟨other, rfl⟩ := ih tail fun held => clear (List.mem_cons_of_mem _ held)
              exact ⟨other, rfl⟩

/-- Every character of the result was there before or belongs to a replacement. -/
theorem mem_replaceFrom {c : Char} {skip : Nat} (held : c ∈ replaceFrom p replacement skip before text) :
    c ∈ text ∨ ∃ captures, c ∈ replacement captures := by
  induction text generalizing skip before with
  | nil =>
      rw [replaceFrom] at held
      cases held
  | cons x rest ih =>
      have later : ∀ {skip before}, c ∈ replaceFrom p replacement skip before rest →
          c ∈ x :: rest ∨ ∃ captures, c ∈ replacement captures := fun held =>
        (ih held).imp_left (List.mem_cons_of_mem x)
      cases skip with
      | succ skip => exact later held
      | zero =>
          rw [replaceFrom] at held
          split at held
          · rcases List.mem_append.mp held with here | more
            · exact .inr ⟨_, here⟩
            · exact later more
          · rcases List.mem_cons.mp held with rfl | more
            · exact .inl List.mem_cons_self
            · exact later more

theorem length_replaceFrom {size skip : Nat} (positive : 0 < size)
    (bounded : ∀ captures, (replacement captures).length ≤ size) :
    (replaceFrom p replacement skip before text).length ≤ size * text.length := by
  induction text generalizing skip before with
  | nil =>
      rw [replaceFrom]
      exact Nat.zero_le _
  | cons x rest ih =>
      rw [List.length_cons, Nat.mul_succ]
      cases skip with
      | succ skip => exact Nat.le_add_right_of_le ih
      | zero =>
          rw [replaceFrom]
          split
          case h_1 d _ =>
            have here := bounded d.captures
            have later := @ih (some x) (rest.length - d.rest.length)
            rw [List.length_append]
            omega
          case h_2 =>
            have later := @ih (some x) 0
            rw [List.length_cons]
            omega

/-- The matches that are replaced, each with the text before it. -/
def replacedFrom (p : Pattern κ) : Nat → List Char → List Char → List (List Char × List Char)
  | _, _, [] => []
  | skip + 1, passed, x :: rest => replacedFrom p skip (passed ++ [x]) rest
  | 0, passed, x :: rest =>
      match (run p ⟨passed.getLast?, x :: rest, []⟩).find? fun d => d.rest.length ≤ rest.length with
      | some d => (passed, (x :: rest).take (rest.length + 1 - d.rest.length)) ::
          replacedFrom p (rest.length - d.rest.length) (passed ++ [x]) rest
      | none => replacedFrom p 0 (passed ++ [x]) rest

attribute [local grind =] replacedFrom

variable {passed taken : List Char} {d : Cursor κ}

theorem replacedFrom_skip {skip : Nat} :
    replacedFrom p skip passed text = replacedFrom p 0 (passed ++ text.take skip) (text.drop skip) := by
  induction text generalizing skip passed with
  | nil => rw [List.drop_nil, replacedFrom, replacedFrom]
  | cons x rest ih =>
      cases skip with
      | zero => rw [List.take_zero, List.append_nil, List.drop_zero]
      | succ skip => rw [replacedFrom, ih, List.take_succ_cons, List.drop_succ_cons, List.append_assoc,
          List.singleton_append]

theorem replacedFrom_found (split : x :: rest = taken ++ d.rest)
    (first : (run p ⟨passed.getLast?, x :: rest, []⟩).find? (fun d => d.rest.length ≤ rest.length) = some d) :
    replacedFrom p 0 passed (x :: rest) = (passed, taken) :: replacedFrom p 0 (passed ++ taken) d.rest := by
  have accepted := List.find?_some first
  have shorter : d.rest.length ≤ rest.length := of_decide_eq_true accepted
  cases taken with
  | nil =>
      have longer := congrArg List.length split
      rw [List.nil_append, List.length_cons] at longer
      omega
  | cons y taken =>
      obtain ⟨rfl, tail⟩ : x = y ∧ rest = taken ++ d.rest := List.cons.inj split
      have size : rest.length = taken.length + d.rest.length := by rw [tail, List.length_append]
      have count : rest.length - d.rest.length = taken.length := by omega
      have whole : rest.length + 1 - d.rest.length = taken.length + 1 := by omega
      rw [replacedFrom, first]
      dsimp only
      rw [count, whole, replacedFrom_skip, tail, List.take_succ_cons, List.take_left, List.drop_left, List.append_assoc,
        List.singleton_append]

theorem replacedFrom_none
    (none_ : (run p ⟨passed.getLast?, x :: rest, []⟩).find? (fun d => d.rest.length ≤ rest.length) = none) :
    replacedFrom p 0 passed (x :: rest) = replacedFrom p 0 (passed ++ [x]) rest := by
  rw [replacedFrom, none_]

/-- The replacement from left to right: a character is kept, or a match replaced. -/
theorem replace_induction {motive : List Char → List Char → List Char → List (List Char × List Char) → Prop}
    (nil : ∀ passed, motive passed [] [] [])
    (keep : ∀ passed x rest result found, motive (passed ++ [x]) rest result found →
      motive passed (x :: rest) (x :: result) found)
    (swap : ∀ passed taken (d : Cursor κ) result found, taken ≠ [] →
      (run p ⟨passed.getLast?, taken ++ d.rest, []⟩).find? (fun e => e.rest.length < (taken ++ d.rest).length) = some d →
      motive (passed ++ taken) d.rest result found →
        motive passed (taken ++ d.rest) (replacement d.captures ++ result) ((passed, taken) :: found)) :
    motive passed text (replaceFrom p replacement 0 passed.getLast? text) (replacedFrom p 0 passed text) := by
  induction size : text.length using Nat.strongRecOn generalizing text passed with
  | _ size ih =>
  subst size
  cases text with
  | nil =>
      rw [replaceFrom, replacedFrom]
      exact nil passed
  | cons x rest =>
      cases first : (run p ⟨passed.getLast?, x :: rest, []⟩).find? (fun d => d.rest.length ≤ rest.length) with
      | none =>
          rw [replaceFrom_none first, replacedFrom_none first]
          have later := @ih rest.length (Nat.lt_succ_self _) rest (passed ++ [x]) rfl
          rw [List.getLast?_concat] at later
          exact keep passed x rest _ _ later
      | some d =>
          obtain ⟨taken, _, split, behind⟩ := run_ends p _ d (List.mem_of_find?_eq_some first)
          have accepted := List.find?_some first
          have shorter : d.rest.length ≤ rest.length := of_decide_eq_true accepted
          dsimp only at split behind
          rw [replaceFrom_found first, replacedFrom_found split first]
          have later := @ih d.rest.length (Nat.lt_succ_of_le shorter) d.rest (passed ++ taken) rfl
          rw [List.getLast?_append, ← behind] at later
          rw [split]
          refine swap passed taken d _ _ ?_ ?_ later
          · rintro rfl
            rw [List.nil_append] at split
            rw [← split, List.length_cons] at shorter
            omega
          · rw [← split]
            simp only [List.length_cons, Nat.lt_succ_iff]
            exact first

/-- A last character that every replacement has too stays last. -/
theorem replaceAll_last {c : Char} (ends : ∀ captures, (replacement captures).getLast? = some c)
    (last : text.getLast? = some c) : (replaceAll p replacement text).getLast? = some c := by
  have whole := @replace_induction κ p replacement text [] (fun _ text result _ =>
    (text = [] → result = []) ∧ (text.getLast? = some c → result.getLast? = some c))
  refine (whole ?nil ?keep ?swap).2 last
  case nil => exact fun _ => ⟨fun _ => rfl, id⟩
  case keep =>
    intro _ x rest result _ ih
    refine ⟨fun empty => absurd empty (List.cons_ne_nil x rest), fun last => ?_⟩
    cases rest with
    | nil =>
        rw [ih.1 rfl]
        exact last
    | cons y rest =>
        rw [List.getLast?_cons_cons] at last
        rw [List.getLast?_cons, ih.2 last]
        rfl
  case swap =>
    intro _ taken d result _ inhabited _ ih
    refine ⟨fun empty => absurd (List.append_eq_nil_iff.mp empty).1 inhabited, fun last => ?_⟩
    rw [List.getLast?_append, ends]
    cases rest : d.rest with
    | nil =>
        rw [ih.1 rest]
        rfl
    | cons y later =>
        rw [List.getLast?_append, rest, List.getLast?_cons, Option.some_or] at last
        rw [ih.2 (by rw [rest, List.getLast?_cons, last])]
        rfl

/-- Where every match reads something, the first is the first outcome. -/
theorem find_first {c : Cursor κ} (progress : ∀ e ∈ run p c, e.rest.length < c.rest.length)
    (first : (run p c).find? (fun e => e.rest.length < c.rest.length) = some d) : (run p c).head? = some d := by
  cases outcomes : run p c with
  | nil =>
      rw [outcomes] at first
      cases first
  | cons e others =>
      have shorter : decide (e.rest.length < c.rest.length) = true :=
        decide_eq_true (progress e (outcomes ▸ List.mem_cons_self))
      rw [outcomes, List.find?_cons, shorter] at first
      exact first

end Steps

end Replacement

end Regex
