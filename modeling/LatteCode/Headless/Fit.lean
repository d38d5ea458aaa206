import LatteCode.Headless.Request
/- What the two-phase fit keeps: the longest mandatory suffix, then the longest optional prefix beside it. -/

namespace LatteCode.Headless

section Sizes

variable {F : FloatFormat} {system : Message} {budget : Nat}

/-- The messages of a request and the commas between them. -/
theorem encodedBytes_ofList (head : Json) (rest : List Json) :
    (Elements.ofList (head :: rest)).encodedBytes F + 1 = ((head :: rest).map fun value => value.encodedBytes F + 1).sum := by
  induction rest generalizing head with
  | nil => rfl
  | cons next rest ih =>
      have tail := ih next
      rw [Elements.ofList] at tail
      rw [Elements.ofList, Elements.ofList, Elements.encodedBytes, List.map_cons, List.sum_cons, ← tail]
      · omega
      · intro same
        cases same

theorem wireBytes_cons (system : Message) (messages : List Message) : wireBytes F (system :: messages) =
    1 + ((system :: messages).map fun message => message.toJson.encodedBytes F + 1).sum := by
  rw [wireBytes, Json.encodedBytes, List.map_cons]
  have sum := encodedBytes_ofList (F := F) system.toJson (messages.map Message.toJson)
  rw [List.map_cons, List.map_map] at sum
  have same : ((fun value : Json => value.encodedBytes F + 1) ∘ Message.toJson) =
      fun message => message.toJson.encodedBytes F + 1 := rfl
  rw [same] at sum
  rw [List.map_cons, ← sum]
  omega

/-- Further messages only make a request longer. -/
theorem wireBytes_mono {fewer more : List Message} (inside : fewer.Sublist more) :
    wireBytes F (system :: fewer) ≤ wireBytes F (system :: more) := by
  rw [wireBytes_cons, wireBytes_cons]
  refine Nat.add_le_add_left ?_ 1
  exact (List.Sublist.map _ (inside.cons_cons system)).sum_le_sum fun _ _ => Nat.zero_le _

end Sizes

/-! ## Entries by position -/

section Selection

variable {entries more : List FitEntry} {n t k : Nat}

/-- The entries that a test of their positions admits, when the first stands at position `n`. -/
def selectedFrom (n : Nat) (entries : List FitEntry) (included : Nat → FitEntry → Bool) : List FitEntry :=
  ((entries.zipIdx n).filter fun unit => included unit.2 unit.1).map Prod.fst

def messagesOf (entries : List FitEntry) : List Message := entries.flatMap FitEntry.messages

theorem candidate_selected (system : Message) (entries : List FitEntry) (included : Nat → FitEntry → Bool) :
    candidate system entries included = system :: messagesOf (selectedFrom 0 entries included) := by
  rw [candidate, messagesOf, selectedFrom, List.flatMap_map]
  congr 1
  induction entries.zipIdx with
  | nil => rfl
  | cons unit units ih =>
      rw [List.flatMap_cons, ih, List.filter_cons]
      split
      · rw [List.flatMap_cons]
      · rw [List.nil_append]

theorem selectedFrom_append (included : Nat → FitEntry → Bool) : selectedFrom n (entries ++ more) included =
    selectedFrom n entries included ++ selectedFrom (n + entries.length) more included := by
  rw [selectedFrom, List.zipIdx_append, List.filter_append, List.map_append]
  rfl

theorem selectedFrom_congr {included other : Nat → FitEntry → Bool}
    (same : ∀ i entry, entries[i]? = some entry → included (n + i) entry = other (n + i) entry) :
    selectedFrom n entries included = selectedFrom n entries other := by
  unfold selectedFrom
  congr 1
  apply List.filter_congr
  rintro ⟨entry, i⟩ member
  obtain ⟨least, found⟩ := List.mk_mem_zipIdx_iff_le_and_getElem?_sub.mp member
  have held := same (i - n) entry found
  rwa [Nat.add_sub_cancel' least] at held

theorem selectedFrom_ge : selectedFrom n entries (fun i _ => decide (t ≤ i)) = entries.drop (t - n) := by
  induction entries generalizing n with
  | nil => rw [List.drop_nil]; rfl
  | cons entry rest ih =>
      have tail := @ih (n + 1)
      unfold selectedFrom at tail ⊢
      rw [List.zipIdx_cons, List.filter_cons]
      split
      case isTrue past =>
        have past := of_decide_eq_true past
        rw [List.map_cons, tail, Nat.sub_eq_zero_of_le past, Nat.sub_eq_zero_of_le (by omega), List.drop_zero,
          List.drop_zero]
      case isFalse early =>
        have early : ¬ t ≤ n := fun past => early (decide_eq_true past)
        have step : t - n = t - (n + 1) + 1 := by omega
        rw [tail, step, List.drop_succ_cons]

theorem selectedFrom_lt : selectedFrom n entries (fun i _ => decide (i < n + k)) = entries.take k := by
  induction entries generalizing n k with
  | nil => rw [List.take_nil]; rfl
  | cons entry rest ih =>
      unfold selectedFrom at ih ⊢
      rw [List.zipIdx_cons, List.filter_cons]
      cases k with
      | zero =>
          have tail := @ih (n + 1) 0
          rw [if_neg (by simp), List.take_zero]
          rw [List.take_zero] at tail
          refine (congrArg (List.map Prod.fst) (List.filter_congr ?_)).trans tail
          rintro ⟨other, i⟩ member
          obtain ⟨least, _⟩ := List.mk_mem_zipIdx_iff_le_and_getElem?_sub.mp member
          exact (decide_eq_false (by omega)).trans (decide_eq_false (by omega)).symm
      | succ k =>
          have tail := @ih (n + 1) k
          rw [if_pos (by simp), List.map_cons, List.take_succ_cons]
          congr 1
          rw [← tail, Nat.add_assoc, Nat.add_comm 1 k]

theorem selectedFrom_filter (p : FitEntry → Bool) (included : Nat → FitEntry → Bool) :
    selectedFrom n entries (fun i entry => p entry && included i entry) = (selectedFrom n entries included).filter p := by
  rw [selectedFrom, selectedFrom, List.filter_map, List.filter_filter]
  rfl

end Selection

/-! ## The mandatory core -/

section Core

variable {F : FloatFormat} {system : Message} {entries : List FitEntry} {budget : Nat}

/-- The marks of the mandatory entries from a position on. -/
def keptFrom (entries : List FitEntry) (t : Nat) : List Bool :=
  entries.zipIdx.map fun unit => unit.1.mandatory && decide (t ≤ unit.2)

/-- The mandatory entries from a position on. -/
def coreFrom (entries : List FitEntry) (t : Nat) : List FitEntry := (entries.drop t).filter FitEntry.mandatory

def coreFits (F : FloatFormat) (system : Message) (entries : List FitEntry) (budget t : Nat) : Prop :=
  wireBytes F (system :: messagesOf (coreFrom entries t)) ≤ budget

theorem kept_keptFrom {t i : Nat} {entry : FitEntry} (found : entries[i]? = some entry) :
    kept (keptFrom entries t) i = (entry.mandatory && decide (t ≤ i)) := by
  rw [kept, keptFrom, List.getD_eq_getElem?_getD, List.getElem?_map, List.getElem?_zipIdx, found]
  simp only [Option.map_some, Option.getD_some, Nat.zero_add]

theorem candidate_core {t : Nat} {included : Nat → FitEntry → Bool}
    (same : ∀ i entry, entries[i]? = some entry → included i entry = (entry.mandatory && decide (t ≤ i))) :
    candidate system entries included = system :: messagesOf (coreFrom entries t) := by
  have whole : selectedFrom 0 entries included = coreFrom entries t := by
    rw [coreFrom, ← Nat.sub_zero t, ← selectedFrom_ge, ← selectedFrom_filter]
    apply selectedFrom_congr
    intro i entry found
    rw [Nat.zero_add]
    exact same i entry found
  rw [candidate_selected, whole]

theorem keptFrom_length : keptFrom entries entries.length = List.replicate entries.length false := by
  apply List.ext_getElem?
  intro i
  rw [keptFrom, List.getElem?_map, List.getElem?_zipIdx, List.getElem?_replicate]
  split
  case isTrue bound =>
    rw [List.getElem?_eq_getElem bound, Option.map_some, Option.map_some]
    simp only [Nat.zero_add, decide_eq_false (Nat.not_le.mpr bound), Bool.and_false]
  case isFalse past =>
    rw [List.getElem?_eq_none (Nat.le_of_not_lt past)]
    rfl

theorem keptFrom_set {t : Nat} {entry : FitEntry} (found : entries[t]? = some entry) (mandatory : entry.mandatory = true) :
    (keptFrom entries (t + 1)).set t true = keptFrom entries t := by
  apply List.ext_getElem?
  intro i
  rw [List.getElem?_set, keptFrom, keptFrom, List.getElem?_map, List.getElem?_map, List.getElem?_zipIdx]
  by_cases here : t = i
  · subst here
    have bound : t < entries.length := (List.getElem?_eq_some_iff.mp found).1
    rw [if_pos rfl, if_pos (by rwa [List.length_map, List.length_zipIdx]), found, Option.map_some, Option.map_some]
    simp only [mandatory, Nat.zero_add, Nat.le_refl, decide_true, Bool.and_true]
  · rw [if_neg here]
    cases entries[i]? with
    | none => rfl
    | some other =>
        have bound : decide (t + 1 ≤ i) = decide (t ≤ i) := decide_eq_decide.mpr (by omega)
        simp only [Option.map_some, Nat.zero_add, bound]

theorem keptFrom_optional {t : Nat} {entry : FitEntry} (found : entries[t]? = some entry)
    (optional : entry.mandatory = false) : keptFrom entries (t + 1) = keptFrom entries t := by
  apply List.ext_getElem?
  intro i
  rw [keptFrom, keptFrom, List.getElem?_map, List.getElem?_map, List.getElem?_zipIdx]
  cases listed : entries[i]? with
  | none => rfl
  | some other =>
      simp only [Option.map_some, Nat.zero_add, Option.some.injEq]
      by_cases here : t = i
      · subst here
        cases found.symm.trans listed
        rw [optional, Bool.false_and, Bool.false_and]
      · have bound : decide (t + 1 ≤ i) = decide (t ≤ i) := decide_eq_decide.mpr (by omega)
        rw [bound]

theorem coreFrom_cons {t : Nat} {entry : FitEntry} (found : entries[t]? = some entry) :
    coreFrom entries t = if entry.mandatory then entry :: coreFrom entries (t + 1) else coreFrom entries (t + 1) := by
  obtain ⟨bound, rfl⟩ := List.getElem?_eq_some_iff.mp found
  rw [coreFrom, coreFrom, List.drop_eq_getElem_cons bound, List.filter_cons]

/-- The walk keeps a suffix of the mandatory entries that fits, and the next older one would not. -/
theorem fitMandatory_from : ∀ index ≤ entries.length, ∃ t,
    fitMandatory F system entries budget index (keptFrom entries index) = keptFrom entries t ∧
      (coreFrom entries t = coreFrom entries index ∨ coreFits F system entries budget t) ∧
      (coreFrom entries t = coreFrom entries 0 ∨
        ∃ older entry, coreFrom entries older = entry :: coreFrom entries t ∧ ¬ coreFits F system entries budget older)
  | 0, _ => ⟨0, rfl, .inl rfl, .inl rfl⟩
  | index + 1, bound => by
      have found : entries[index]? = some entries[index] := List.getElem?_eq_getElem bound
      have tail := fitMandatory_from index (Nat.le_of_succ_le bound)
      have core := coreFrom_cons found
      rw [fitMandatory, found, Option.any_some]
      cases mandatory : entries[index].mandatory with
      | false =>
          rw [mandatory, if_neg Bool.false_ne_true] at core
          rw [Bool.not_false, if_pos rfl, keptFrom_optional found mandatory, ← core]
          exact tail
      | true =>
          rw [mandatory, if_pos rfl] at core
          have candidates : candidate system entries (fun other entry =>
              entry.mandatory && (kept (keptFrom entries (index + 1)) other || decide (other = index))) =
              system :: messagesOf (coreFrom entries index) := by
            apply candidate_core
            intro i entry listed
            rw [kept_keptFrom listed]
            cases entry.mandatory with
            | false => rfl
            | true =>
                simp only [Bool.true_and, ← Bool.decide_or]
                exact decide_eq_decide.mpr (by omega)
          rw [Bool.not_true, if_neg Bool.false_ne_true, candidates]
          split
          case isTrue fits =>
            rw [keptFrom_set found mandatory]
            obtain ⟨t, walked, fit, most⟩ := tail
            refine ⟨t, walked, .inr ?_, most⟩
            rcases fit with same | fit
            · rw [coreFits, same]
              exact fits
            · exact fit
          case isFalse beyond => exact ⟨index + 1, rfl, .inl rfl, .inr ⟨index, _, core, beyond⟩⟩

theorem coreFrom_suffix (t : Nat) : coreFrom entries t <:+ coreFrom entries 0 :=
  (List.drop_suffix t entries).filter FitEntry.mandatory

theorem messagesOf_sublist {fewer more : List FitEntry} (inside : fewer.Sublist more) :
    (messagesOf fewer).Sublist (messagesOf more) := inside.flatMap FitEntry.messages

/-- The newest `n` of a list. -/
def newest {α : Type} (n : Nat) (list : List α) : List α := list.drop (list.length - n)

theorem newest_sublist {α : Type} {list : List α} {m n : Nat} (less : n ≤ m) : (newest n list).Sublist (newest m list) :=
  List.drop_sublist_drop_left _ (Nat.sub_le_sub_left less _)

/-- A number of mandatory units is the greatest that fits beside the system head. -/
structure LongestCore (F : FloatFormat) (system : Message) (budget : Nat) (core : List FitEntry) (n : Nat) : Prop where
  bound : n ≤ core.length
  fits : n = 0 ∨ wireBytes F (system :: messagesOf (newest n core)) ≤ budget
  most : ∀ m ≤ core.length, wireBytes F (system :: messagesOf (newest m core)) ≤ budget → m ≤ n

theorem LongestCore.unique {core : List FitEntry} {n m : Nat} (one : LongestCore F system budget core n)
    (two : LongestCore F system budget core m) : n = m := by
  apply Nat.le_antisymm
  · rcases one.fits with rfl | fits
    · exact Nat.zero_le m
    · exact two.most n one.bound fits
  · rcases two.fits with rfl | fits
    · exact Nat.zero_le n
    · exact one.most m two.bound fits

theorem fitMandatory_longest : ∃ t, fitMandatory F system entries budget entries.length
      (List.replicate entries.length false) = keptFrom entries t ∧
    coreFrom entries t = newest (coreFrom entries t).length (coreFrom entries 0) ∧
      LongestCore F system budget (coreFrom entries 0) (coreFrom entries t).length := by
  obtain ⟨t, walked, fits, most⟩ := @fitMandatory_from F system entries budget entries.length (Nat.le_refl _)
  have suffix : coreFrom entries t <:+ coreFrom entries 0 := coreFrom_suffix t
  have whole := List.suffix_iff_eq_drop.mp suffix
  refine ⟨t, by rw [← keptFrom_length, walked], whole, suffix.length_le, ?_, ?_⟩
  · rw [newest, ← whole]
    refine fits.imp (fun same => ?_) id
    rw [same, coreFrom, List.drop_length]
    rfl
  · intro m bound fit
    rcases most with same | ⟨older, entry, next, beyond⟩
    · rwa [same]
    · by_contra longer
      have wider := List.suffix_iff_eq_drop.mp (@coreFrom_suffix entries older)
      rw [next, List.length_cons] at wider
      refine beyond (Nat.le_trans (wireBytes_mono (messagesOf_sublist ?_)) fit)
      rw [next, wider]
      exact newest_sublist (Nat.lt_of_not_le longer)

end Core

/-! ## The optional tails -/

section Tails

variable {F : FloatFormat} {system : Message} {entries : List FitEntry} {budget : Nat}

theorem admitOptional_le {keep : List Bool} (length : Nat) : admitOptional F system entries budget keep length ≤ length := by
  induction length with
  | zero => exact Nat.le_refl 0
  | succ length ih =>
      rw [admitOptional]
      split
      · exact Nat.le_refl _
      · exact Nat.le_succ_of_le ih

/-- The search goes from the longest prefix down to the first that fits. -/
theorem admitOptional_greatest {keep : List Bool} {fits : Nat → Prop}
    (sized : ∀ k, 0 < k → (wireBytes F (candidate system entries fun other _ =>
      kept keep other || ((optionalIndices entries).take k).contains other) ≤ budget ↔ fits k)) (length : Nat) :
    (admitOptional F system entries budget keep length = 0 ∨
        fits (admitOptional F system entries budget keep length)) ∧
      ∀ k, 0 < k → k ≤ length → fits k → k ≤ admitOptional F system entries budget keep length := by
  induction length with
  | zero => exact ⟨.inl rfl, fun k _ bound _ => bound⟩
  | succ length ih =>
      rw [admitOptional]
      split
      case isTrue fit => exact ⟨.inr ((sized _ (Nat.succ_pos _)).mp fit), fun k _ bound _ => bound⟩
      case isFalse beyond =>
        refine ⟨ih.1, ?_⟩
        intro k positive bound fit
        refine ih.2 k positive ?_ fit
        rcases Nat.lt_or_eq_of_le bound with less | rfl
        · exact Nat.le_of_lt_succ less
        · exact absurd ((sized _ positive).mpr fit) beyond

end Tails

/-! ## Requests -/

/-- The chronological shape of a request: history, repository, reminder, prompt. -/
structure RequestShape where
  history : List (List Message)
  repository : Option (List Message)
  reminder : Option (List Message)
  prompt : Option (List Message)

namespace RequestShape

def historyEntries (shape : RequestShape) : List FitEntry := shape.history.map fun messages => ⟨messages, .history, true⟩

def tails (shape : RequestShape) : List FitEntry :=
  (shape.repository.map fun messages => ⟨messages, .repository, false⟩).toList ++
    (shape.reminder.map fun messages => ⟨messages, .reminder, false⟩).toList

def promptEntries (shape : RequestShape) : List FitEntry :=
  (shape.prompt.map fun messages => ⟨messages, .prompt, true⟩).toList

def entries (shape : RequestShape) : List FitEntry := shape.historyEntries ++ shape.tails ++ shape.promptEntries

/-- The mandatory units. -/
def core (shape : RequestShape) : List FitEntry := shape.historyEntries ++ shape.promptEntries

def withoutTails (shape : RequestShape) : RequestShape := { shape with repository := none, reminder := none }

/-- The newest `n` mandatory units with the first `k` tails, in wire order. -/
def fitted (shape : RequestShape) (n k : Nat) : List FitEntry :=
  shape.historyEntries.drop (shape.core.length - n) ++ shape.tails.take k ++
    shape.promptEntries.drop (shape.promptEntries.length - n)

variable {shape : RequestShape} {F : FloatFormat} {system : Message} {budget n k : Nat}

theorem history_mandatory : ∀ entry ∈ shape.historyEntries, entry.mandatory = true := by
  intro entry member
  obtain ⟨_, _, rfl⟩ := List.mem_map.mp member
  rfl

theorem tails_optional : ∀ entry ∈ shape.tails, entry.mandatory = false := by
  intro entry member
  rcases List.mem_append.mp member with repository | reminder
  · obtain ⟨_, _, rfl⟩ := Option.map_eq_some_iff.mp (Option.mem_toList.mp repository)
    rfl
  · obtain ⟨_, _, rfl⟩ := Option.map_eq_some_iff.mp (Option.mem_toList.mp reminder)
    rfl

theorem prompt_mandatory : ∀ entry ∈ shape.promptEntries, entry.mandatory = true := by
  intro entry member
  obtain ⟨_, _, rfl⟩ := Option.map_eq_some_iff.mp (Option.mem_toList.mp member)
  rfl

theorem prompt_length : shape.promptEntries.length ≤ 1 := by
  rw [promptEntries]
  cases shape.prompt with
  | none => exact Nat.zero_le 1
  | some _ => exact Nat.le_refl 1

theorem core_length : shape.core.length = shape.historyEntries.length + shape.promptEntries.length := List.length_append

theorem optionalIndices_entries :
    optionalIndices shape.entries = List.range' shape.historyEntries.length shape.tails.length := by
  have none : ∀ {n : Nat} {entries : List FitEntry}, (∀ entry ∈ entries, entry.mandatory = true) →
      (entries.zipIdx n).filter (fun unit => !unit.1.mandatory) = [] := by
    intro n entries mandatory
    rw [List.filter_eq_nil_iff]
    intro unit member optional
    rw [mandatory _ (List.fst_mem_of_mem_zipIdx member)] at optional
    cases optional
  have all : (shape.tails.zipIdx (0 + shape.historyEntries.length)).filter (fun unit => !unit.1.mandatory) =
      shape.tails.zipIdx (0 + shape.historyEntries.length) := by
    rw [List.filter_eq_self]
    intro unit member
    rw [tails_optional _ (List.fst_mem_of_mem_zipIdx member)]
    rfl
  rw [optionalIndices, entries, List.zipIdx_append, List.zipIdx_append, List.filter_append, List.filter_append,
    none history_mandatory, none prompt_mandatory, all, List.nil_append, List.append_nil, List.zipIdx_map_snd,
    Nat.zero_add]

/-- The first `k` optional positions are those of the first `k` tails. -/
theorem admitted_iff {i : Nat} : ((optionalIndices shape.entries).take k).contains i = true ↔
    shape.historyEntries.length ≤ i ∧ i < shape.historyEntries.length + min k shape.tails.length := by
  rw [optionalIndices_entries, List.contains_iff_mem, List.mem_take_iff_getElem]
  simp only [List.getElem_range', List.length_range']
  constructor
  · rintro ⟨place, bound, rfl⟩
    omega
  · rintro ⟨least, less⟩
    exact ⟨i - shape.historyEntries.length, by omega, by omega⟩

/-- The positions that survive a walk down to `t` and the admission of `k` tails. -/
def survives (shape : RequestShape) (t k i : Nat) : Bool :=
  kept (keptFrom shape.entries t) i || ((optionalIndices shape.entries).take k).contains i

theorem survives_history {t i : Nat} {entry : FitEntry} (found : shape.historyEntries[i]? = some entry) :
    shape.survives t k i = decide (t ≤ i) := by
  have bound := (List.getElem?_eq_some_iff.mp found).1
  have listed : shape.entries[i]? = some entry := by
    rw [entries, List.getElem?_append_left (by rw [List.length_append]; omega), List.getElem?_append_left bound, found]
  have other : ((optionalIndices shape.entries).take k).contains i = false := by
    rw [Bool.eq_false_iff, Ne, admitted_iff]
    omega
  rw [survives, kept_keptFrom listed, history_mandatory entry (List.mem_of_getElem? found), other, Bool.true_and,
    Bool.or_false]

theorem survives_tail {t i : Nat} {entry : FitEntry} (found : shape.tails[i]? = some entry) :
    shape.survives t k (shape.historyEntries.length + i) =
      decide (shape.historyEntries.length + i < shape.historyEntries.length + k) := by
  have bound := (List.getElem?_eq_some_iff.mp found).1
  have listed : shape.entries[shape.historyEntries.length + i]? = some entry := by
    rw [entries, List.getElem?_append_left (by rw [List.length_append]; omega),
      List.getElem?_append_right (Nat.le_add_right _ _), Nat.add_sub_cancel_left, found]
  rw [survives, kept_keptFrom listed, tails_optional entry (List.mem_of_getElem? found), Bool.false_and, Bool.false_or,
    Bool.eq_iff_iff, admitted_iff, decide_eq_true_eq]
  omega

theorem survives_prompt {t i : Nat} {entry : FitEntry} (found : shape.promptEntries[i]? = some entry) :
    shape.survives t k ((shape.historyEntries ++ shape.tails).length + i) =
      decide (t ≤ (shape.historyEntries ++ shape.tails).length + i) := by
  have listed : shape.entries[(shape.historyEntries ++ shape.tails).length + i]? = some entry := by
    rw [entries, List.getElem?_append_right (Nat.le_add_right _ _), Nat.add_sub_cancel_left, found]
  have other : ((optionalIndices shape.entries).take k).contains
      ((shape.historyEntries ++ shape.tails).length + i) = false := by
    rw [Bool.eq_false_iff, Ne, admitted_iff, List.length_append]
    omega
  rw [survives, kept_keptFrom listed, prompt_mandatory entry (List.mem_of_getElem? found), other, Bool.true_and,
    Bool.or_false]

/-- The survivors of a fit, by the threshold of its walk and the number of its tails. -/
theorem selected_survivors (t k : Nat) : selectedFrom 0 shape.entries (fun i _ => shape.survives t k i) =
    shape.historyEntries.drop t ++ shape.tails.take k ++
      shape.promptEntries.drop (t - (shape.historyEntries ++ shape.tails).length) := by
  have history : selectedFrom 0 shape.historyEntries (fun i _ => shape.survives t k i) = shape.historyEntries.drop t := by
    rw [← Nat.sub_zero t, ← selectedFrom_ge, Nat.sub_zero]
    apply selectedFrom_congr
    intro i entry found
    rw [Nat.zero_add]
    exact survives_history found
  have tails : selectedFrom shape.historyEntries.length shape.tails (fun i _ => shape.survives t k i) =
      shape.tails.take k := by
    rw [← selectedFrom_lt]
    apply selectedFrom_congr
    intro i entry found
    exact survives_tail found
  have prompt : selectedFrom (shape.historyEntries ++ shape.tails).length shape.promptEntries
      (fun i _ => shape.survives t k i) =
        shape.promptEntries.drop (t - (shape.historyEntries ++ shape.tails).length) := by
    rw [← selectedFrom_ge]
    apply selectedFrom_congr
    intro i entry found
    exact survives_prompt found
  rw [entries, selectedFrom_append, selectedFrom_append, Nat.zero_add, Nat.zero_add, history, tails, prompt]

theorem coreFrom_entries (t : Nat) : coreFrom shape.entries t = shape.historyEntries.drop t ++
    shape.promptEntries.drop (t - (shape.historyEntries ++ shape.tails).length) := by
  have history : (shape.historyEntries.drop t).filter FitEntry.mandatory = shape.historyEntries.drop t :=
    List.filter_eq_self.mpr fun entry member => history_mandatory entry (List.mem_of_mem_drop member)
  have tails : (shape.tails.drop (t - shape.historyEntries.length)).filter FitEntry.mandatory = [] := by
    rw [List.filter_eq_nil_iff]
    intro entry member mandatory
    rw [tails_optional entry (List.mem_of_mem_drop member)] at mandatory
    cases mandatory
  have prompt : (shape.promptEntries.drop (t - (shape.historyEntries ++ shape.tails).length)).filter FitEntry.mandatory =
      shape.promptEntries.drop (t - (shape.historyEntries ++ shape.tails).length) :=
    List.filter_eq_self.mpr fun entry member => prompt_mandatory entry (List.mem_of_mem_drop member)
  rw [coreFrom, entries, List.drop_append, List.drop_append, List.filter_append, List.filter_append, history, tails,
    prompt, List.append_nil]

theorem coreFrom_zero : coreFrom shape.entries 0 = shape.core := by
  rw [coreFrom_entries, Nat.zero_sub, List.drop_zero, List.drop_zero, core]

/-- A threshold keeps what the number of its mandatory units says. -/
theorem fitted_threshold (t k : Nat) : shape.fitted (coreFrom shape.entries t).length k =
    shape.historyEntries.drop t ++ shape.tails.take k ++
      shape.promptEntries.drop (t - (shape.historyEntries ++ shape.tails).length) := by
  have single := shape.prompt_length
  have size : (coreFrom shape.entries t).length = shape.historyEntries.length - t +
      (shape.promptEntries.length - (t - (shape.historyEntries ++ shape.tails).length)) := by
    rw [coreFrom_entries, List.length_append, List.length_drop, List.length_drop]
  have total : (shape.historyEntries ++ shape.tails).length = shape.historyEntries.length + shape.tails.length :=
    List.length_append
  have dropped : ∀ {n m : Nat}, (shape.historyEntries.length ≤ n ↔ shape.historyEntries.length ≤ m) →
      (n < shape.historyEntries.length → n = m) → shape.historyEntries.drop n = shape.historyEntries.drop m := by
    intro n m past same
    by_cases less : n < shape.historyEntries.length
    · rw [same less]
    · rw [List.drop_eq_nil_of_le (Nat.le_of_not_lt less), List.drop_eq_nil_of_le (past.mp (Nat.le_of_not_lt less))]
  have ended : ∀ {n m : Nat}, (shape.promptEntries.length ≤ n ↔ shape.promptEntries.length ≤ m) →
      shape.promptEntries.drop n = shape.promptEntries.drop m := by
    intro n m past
    by_cases less : n < shape.promptEntries.length
    · rw [show n = m by omega]
    · rw [List.drop_eq_nil_of_le (Nat.le_of_not_lt less), List.drop_eq_nil_of_le (past.mp (Nat.le_of_not_lt less))]
  rw [fitted, core_length, size]
  congr 1
  · congr 1
    apply dropped
    · omega
    · omega
  · apply ended
    omega

/-- A number of tails is the greatest that fits beside the newest `n` mandatory units. -/
structure LongestTails (F : FloatFormat) (system : Message) (budget : Nat) (shape : RequestShape) (n k : Nat) : Prop where
  bound : k ≤ shape.tails.length
  fits : k = 0 ∨ wireBytes F (system :: messagesOf (shape.fitted n k)) ≤ budget
  most : ∀ j, 0 < j → j ≤ shape.tails.length → wireBytes F (system :: messagesOf (shape.fitted n j)) ≤ budget → j ≤ k

end RequestShape

/-- What a fit reports of its survivors. -/
def selectionOf (survivors : List FitEntry) : FitSelection where
  messages := messagesOf survivors
  historyKept := survivors.countP fun entry => entry.kind = .history
  promptKept := survivors.any fun entry => entry.kind = .prompt
  repositoryKept := survivors.any fun entry => entry.kind = .repository
  reminderKept := survivors.any fun entry => entry.kind = .reminder

section Exact

variable {F : FloatFormat} {system : Message} {budget : Nat}

open RequestShape

/-- A fit reports the longest mandatory suffix with the longest prefix of the tails beside it. -/
theorem fitRequest_longest (F : FloatFormat) (system : Message) (shape : RequestShape) (budget : Nat) :
    ∃ n k, LongestCore F system budget shape.core n ∧ LongestTails F system budget shape n k ∧
      fitRequest F system shape.entries budget = selectionOf (shape.fitted n k) := by
  obtain ⟨t, walked, _, longest⟩ := @fitMandatory_longest F system shape.entries budget
  rw [coreFrom_zero] at longest
  have sized : ∀ k, 0 < k → (wireBytes F (candidate system shape.entries fun other _ =>
      kept (keptFrom shape.entries t) other || ((optionalIndices shape.entries).take k).contains other) ≤ budget ↔
        wireBytes F (system :: messagesOf (shape.fitted (coreFrom shape.entries t).length k)) ≤ budget) := by
    intro k _
    have survivors := @selected_survivors shape t k
    unfold survives at survivors
    rw [candidate_selected, survivors, fitted_threshold]
  have bound : (optionalIndices shape.entries).length = shape.tails.length := by
    rw [optionalIndices_entries, List.length_range']
  obtain ⟨fits, most⟩ := admitOptional_greatest sized (optionalIndices shape.entries).length
  refine ⟨_, _, longest, ⟨bound ▸ admitOptional_le _, fits, fun j positive less fit => most j positive (bound ▸ less) fit⟩, ?_⟩
  have survivors := @selected_survivors shape t
    (admitOptional F system shape.entries budget (keptFrom shape.entries t) (optionalIndices shape.entries).length)
  rw [fitted_threshold, ← survivors]
  rw [fitRequest, walked, selectionOf, messagesOf, selectedFrom, List.flatMap_map, List.countP_map, List.any_map,
    List.any_map, List.any_map]
  rfl

theorem fitted_core {shape : RequestShape} {n : Nat} : shape.fitted n 0 = newest n shape.core := by
  have prompt : shape.core.length - n - shape.historyEntries.length = shape.promptEntries.length - n := by
    rw [core_length]
    omega
  rw [fitted, List.take_zero, List.append_nil, newest, core, List.drop_append, ← core, prompt]

/-- The two-phase fit is exact. -/
theorem fitRequest_exact (F : FloatFormat) (system : Message) (shape : RequestShape) (budget : Nat) :
    ∃ n k, LongestCore F system budget shape.core n ∧ LongestTails F system budget shape n k ∧
      fitRequest F system shape.entries budget = selectionOf (shape.fitted n k) ∧
      (0 < n ∨ 0 < k →
        wireBytes F (system :: (fitRequest F system shape.entries budget).messages) ≤ budget) ∧
      fitRequest F system shape.withoutTails.entries budget = selectionOf (newest n shape.core) := by
  obtain ⟨n, k, core, tails, selected⟩ := fitRequest_longest F system shape budget
  obtain ⟨m, j, core', tails', selected'⟩ := fitRequest_longest F system shape.withoutTails budget
  have same : m = n := core'.unique core
  have none : j = 0 := Nat.le_zero.mp tails'.bound
  refine ⟨n, k, core, tails, selected, ?_, ?_⟩
  · intro some
    rw [selected]
    rcases tails.fits with rfl | fits
    · rcases core.fits with rfl | fits
      · exact absurd some (by simp)
      · rw [fitted_core]
        exact fits
    · exact fits
  · rw [selected', same, none, fitted_core]
    rfl

end Exact

/-! ## Two budgets -/

section Nested

variable {F : FloatFormat} {system : Message} {shape : RequestShape} {small large : Nat}

open RequestShape

/-- Every unit that the first fit keeps, the second keeps; the kept history is a suffix. -/
structure FitSelection.Within (less more : FitSelection) : Prop where
  history : less.historyKept ≤ more.historyKept
  prompt : less.promptKept = true → more.promptKept = true
  repository : less.repositoryKept = true → more.repositoryKept = true
  reminder : less.reminderKept = true → more.reminderKept = true

/-- Tails that fit beside the core of the small budget also fit beside the core of the large one. -/
def TailsStay (F : FloatFormat) (system : Message) (shape : RequestShape) (small large : Nat) : Prop :=
  ∀ n m, LongestCore F system small shape.core n → LongestCore F system large shape.core m →
    ∀ j, 0 < j → j ≤ shape.tails.length → wireBytes F (system :: messagesOf (shape.fitted n j)) ≤ small →
      wireBytes F (system :: messagesOf (shape.fitted m j)) ≤ large

theorem longestCore_mono {core : List FitEntry} {n m : Nat} (grows : small ≤ large)
    (one : LongestCore F system small core n) (two : LongestCore F system large core m) : n ≤ m := by
  rcases one.fits with rfl | fits
  · exact Nat.zero_le m
  · exact two.most n one.bound (Nat.le_trans fits grows)

theorem historyKept_fitted (n k : Nat) : (selectionOf (shape.fitted n k)).historyKept =
    shape.historyEntries.length - (shape.core.length - n) := by
  have history : (shape.historyEntries.drop (shape.core.length - n)).countP (fun entry => entry.kind = .history) =
      shape.historyEntries.length - (shape.core.length - n) := by
    refine (List.countP_eq_length.mpr ?_).trans List.length_drop
    intro entry member
    obtain ⟨_, _, rfl⟩ := List.mem_map.mp (List.mem_of_mem_drop member)
    rfl
  have tails : (shape.tails.take k).countP (fun entry => entry.kind = .history) = 0 := by
    rw [List.countP_eq_zero]
    intro entry member
    rcases List.mem_append.mp (List.mem_of_mem_take member) with repository | reminder
    · obtain ⟨_, _, rfl⟩ := Option.map_eq_some_iff.mp (Option.mem_toList.mp repository)
      exact Bool.false_ne_true
    · obtain ⟨_, _, rfl⟩ := Option.map_eq_some_iff.mp (Option.mem_toList.mp reminder)
      exact Bool.false_ne_true
  have prompt : (shape.promptEntries.drop (shape.promptEntries.length - n)).countP (fun entry => entry.kind = .history) =
      0 := by
    rw [List.countP_eq_zero]
    intro entry member
    obtain ⟨_, _, rfl⟩ := Option.map_eq_some_iff.mp (Option.mem_toList.mp (List.mem_of_mem_drop member))
    exact Bool.false_ne_true
  show (shape.fitted n k).countP _ = _
  rw [fitted, List.countP_append, List.countP_append, history, tails, prompt]
  rfl

/-- A flag of the report, by the parts of the request. -/
theorem any_fitted (n k : Nat) (kind : FitKind) : (shape.fitted n k).any (fun entry => entry.kind = kind) =
    (((shape.historyEntries.drop (shape.core.length - n)).any (fun entry => entry.kind = kind) ||
      (shape.tails.take k).any fun entry => entry.kind = kind) ||
        (shape.promptEntries.drop (shape.promptEntries.length - n)).any fun entry => entry.kind = kind) := by
  rw [fitted, List.any_append, List.any_append]

theorem historyEntries_other {kind : FitKind} (other : kind ≠ .history) (d : Nat) :
    (shape.historyEntries.drop d).any (fun entry => entry.kind = kind) = false := by
  rw [List.any_eq_false]
  intro entry member same
  obtain ⟨_, _, rfl⟩ := List.mem_map.mp (List.mem_of_mem_drop member)
  exact other (of_decide_eq_true same).symm

theorem promptEntries_other {kind : FitKind} (other : kind ≠ .prompt) (d : Nat) :
    (shape.promptEntries.drop d).any (fun entry => entry.kind = kind) = false := by
  rw [List.any_eq_false]
  intro entry member same
  obtain ⟨_, _, rfl⟩ := Option.map_eq_some_iff.mp (Option.mem_toList.mp (List.mem_of_mem_drop member))
  exact other (of_decide_eq_true same).symm

theorem tails_prompt (k : Nat) : (shape.tails.take k).any (fun entry => entry.kind = .prompt) = false := by
  rw [List.any_eq_false]
  intro entry member
  rcases List.mem_append.mp (List.mem_of_mem_take member) with repository | reminder
  · obtain ⟨_, _, rfl⟩ := Option.map_eq_some_iff.mp (Option.mem_toList.mp repository)
    exact Bool.false_ne_true
  · obtain ⟨_, _, rfl⟩ := Option.map_eq_some_iff.mp (Option.mem_toList.mp reminder)
    exact Bool.false_ne_true

theorem promptKept_fitted (n k : Nat) : (selectionOf (shape.fitted n k)).promptKept = true ↔
    0 < n ∧ 0 < shape.promptEntries.length := by
  show (shape.fitted n k).any _ = true ↔ _
  rw [any_fitted, historyEntries_other (by decide), tails_prompt, Bool.false_or, Bool.false_or]
  unfold promptEntries
  cases shape.prompt with
  | none => simp
  | some messages =>
      cases n with
      | zero => simp
      | succ n => simp

theorem repositoryKept_fitted (n k : Nat) : (selectionOf (shape.fitted n k)).repositoryKept = true ↔
    0 < k ∧ shape.repository.isSome = true := by
  show (shape.fitted n k).any _ = true ↔ _
  rw [any_fitted, historyEntries_other (by decide), promptEntries_other (by decide), Bool.false_or, Bool.or_false]
  unfold tails
  match shape.repository, shape.reminder, k with
  | none, none, k => simp
  | none, some _, 0 => simp
  | none, some _, k + 1 => simp
  | some _, _, 0 => simp
  | some _, none, k + 1 => simp
  | some _, some _, k + 1 => simp

theorem reminderKept_fitted (n k : Nat) : (selectionOf (shape.fitted n k)).reminderKept = true ↔
    shape.repository.toList.length < k ∧ shape.reminder.isSome = true := by
  show (shape.fitted n k).any _ = true ↔ _
  rw [any_fitted, historyEntries_other (by decide), promptEntries_other (by decide), Bool.false_or, Bool.or_false]
  unfold tails
  match shape.repository, shape.reminder, k with
  | none, none, k => simp
  | none, some _, 0 => simp
  | none, some _, k + 1 => simp
  | some _, none, 0 => simp
  | some _, none, k + 1 => simp
  | some _, some _, 0 => simp
  | some _, some _, 1 => simp
  | some _, some _, k + 2 => simp

/-- One fit keeps what another keeps exactly if it admits at least as many tails. -/
theorem within_iff {n m k j : Nat} (less : n ≤ m) (bound : k ≤ shape.tails.length) :
    (selectionOf (shape.fitted n k)).Within (selectionOf (shape.fitted m j)) ↔ k ≤ j := by
  have length : shape.tails.length = shape.repository.toList.length + shape.reminder.toList.length := by
    rw [tails, List.length_append]
    cases shape.repository <;> cases shape.reminder <;> rfl
  constructor
  · intro within
    have repository := fun some => (repositoryKept_fitted m j).mp (within.repository ((repositoryKept_fitted n k).mpr some))
    have reminder := fun some => (reminderKept_fitted m j).mp (within.reminder ((reminderKept_fitted n k).mpr some))
    rw [length] at bound
    cases first : shape.repository with
    | none =>
        rw [first] at bound reminder
        cases second : shape.reminder with
        | none =>
            rw [second] at bound
            exact Nat.le_trans bound (Nat.zero_le j)
        | some _ =>
            rw [second] at bound reminder
            simp only [Option.toList_none, Option.toList_some, List.length_nil, List.length_singleton,
              Option.isSome_some, and_true] at bound reminder
            omega
    | some _ =>
        rw [first] at bound repository reminder
        cases second : shape.reminder with
        | none =>
            rw [second] at bound
            simp only [Option.toList_none, Option.toList_some, List.length_nil, List.length_singleton,
              Option.isSome_some, and_true] at bound repository
            omega
        | some _ =>
            rw [second] at bound reminder
            simp only [Option.toList_some, List.length_singleton, Option.isSome_some, and_true] at bound repository reminder
            omega
  · intro more
    constructor
    · rw [historyKept_fitted, historyKept_fitted]
      omega
    · rw [promptKept_fitted, promptKept_fitted]
      exact fun ⟨positive, prompted⟩ => ⟨Nat.lt_of_lt_of_le positive less, prompted⟩
    · rw [repositoryKept_fitted, repositoryKept_fitted]
      exact fun ⟨positive, held⟩ => ⟨Nat.lt_of_lt_of_le positive more, held⟩
    · rw [reminderKept_fitted, reminderKept_fitted]
      exact fun ⟨positive, held⟩ => ⟨Nat.lt_of_lt_of_le positive more, held⟩

end Nested

def noFloats : FloatFormat := ⟨fun _ => ""⟩

/-- A history unit that is one byte too long leaves room for the repository. -/
def tightShape : RequestShape := ⟨[[.user "hhhh"]], some [.user "r"], none, some [.user "p"]⟩

end LatteCode.Headless
