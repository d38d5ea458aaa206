import Mathlib
/- Folding a log into groups: some items open a group, every other item extends the newest one. -/

namespace Grouping

variable {ι γ κ : Type}

/-- What an item does: `opens` gives the group it starts, `extend` changes the newest group. -/
structure Rule (ι γ : Type) where
  opens : ι → Option γ
  extend : ι → γ → γ

def step (rule : Rule ι γ) (groups : List γ) (item : ι) : List γ :=
  match rule.opens item with
  | some group => groups ++ [group]
  | none => groups.modifyLast (rule.extend item)

/-- The groups after a log, from the groups before it. -/
def fold (rule : Rule ι γ) (groups : List γ) (items : List ι) : List γ := items.foldl (step rule) groups

variable {rule : Rule ι γ} {groups older newer : List γ} {item : ι} {items before after : List ι} {group : γ}

theorem step_opens (opened : rule.opens item = some group) : step rule groups item = groups ++ [group] := by
  rw [step, opened]

theorem step_extends (continued : rule.opens item = none) :
    step rule groups item = groups.modifyLast (rule.extend item) := by
  rw [step, continued]

@[simp] theorem fold_nil : fold rule groups [] = groups := rfl

@[simp] theorem fold_cons : fold rule groups (item :: items) = fold rule (step rule groups item) items := rfl

theorem fold_append : fold rule groups (before ++ after) = fold rule (fold rule groups before) after :=
  List.foldl_append

theorem modifyLast_nil (f : γ → γ) : ([] : List γ).modifyLast f = [] := rfl

@[simp] theorem length_modifyLast (f : γ → γ) (groups : List γ) :
    (groups.modifyLast f).length = groups.length := by
  induction groups using List.reverseRecOn with
  | nil => rfl
  | append_singleton groups last _ => rw [List.modifyLast_concat, List.length_append, List.length_append]; rfl

theorem modifyLast_same {f : γ → γ} (same : ∀ group, f group = group) : groups.modifyLast f = groups := by
  induction groups using List.reverseRecOn with
  | nil => rfl
  | append_singleton groups last _ => rw [List.modifyLast_concat, same]

/-- An item reads and changes the newest group only. -/
theorem step_local (inhabited : newer ≠ []) : step rule (older ++ newer) item = older ++ step rule newer item := by
  cases opened : rule.opens item with
  | some group => rw [step_opens opened, step_opens opened, List.append_assoc]
  | none => rw [step_extends opened, step_extends opened, List.modifyLast_append_of_right_ne_nil _ _ _ inhabited]

theorem step_ne_nil (inhabited : groups ≠ []) : step rule groups item ≠ [] := by
  cases opened : rule.opens item with
  | some group => rw [step_opens opened]; exact List.append_ne_nil_of_right_ne_nil _ (List.cons_ne_nil _ _)
  | none =>
      rw [step_extends opened]
      intro empty
      have lengths := length_modifyLast (rule.extend item) groups
      rw [empty] at lengths
      exact inhabited (List.length_eq_zero_iff.mp lengths.symm)

theorem fold_local (inhabited : newer ≠ []) : fold rule (older ++ newer) items = older ++ fold rule newer items := by
  induction items generalizing newer with
  | nil => rfl
  | cons item items ih => rw [fold_cons, fold_cons, step_local inhabited, ih (step_ne_nil inhabited)]

theorem fold_ne_nil (inhabited : groups ≠ []) : fold rule groups items ≠ [] := by
  induction items generalizing groups with
  | nil => exact inhabited
  | cons item items ih => exact ih (step_ne_nil inhabited)

theorem fold_opened_ne_nil (opened : rule.opens item = some group) : fold rule groups (item :: items) ≠ [] := by
  rw [fold_cons, step_opens opened]
  exact fold_ne_nil (List.append_ne_nil_of_right_ne_nil _ (List.cons_ne_nil _ _))

/-- From an opening item on, a log is folded as if it stood alone. -/
theorem fold_opened (opened : rule.opens item = some group) :
    fold rule groups (item :: items) = groups ++ fold rule [] (item :: items) := by
  rw [fold_cons, fold_cons, step_opens opened, step_opens opened, List.nil_append,
    fold_local (List.cons_ne_nil _ _)]

theorem length_step : (step rule groups item).length = groups.length + (if (rule.opens item).isSome then 1 else 0) := by
  cases opened : rule.opens item with
  | some group => rw [step_opens opened, List.length_append]; rfl
  | none => rw [step_extends opened, length_modifyLast]; rfl

/-- There is one group more for every opening item. -/
theorem length_fold : (fold rule groups items).length =
    groups.length + items.countP fun item => (rule.opens item).isSome := by
  induction items generalizing groups with
  | nil => rfl
  | cons item items ih =>
      rw [fold_cons, ih, length_step, List.countP_cons]
      omega

/-- Before the first opening item there is nothing to extend. -/
theorem fold_unopened (continued : ∀ item ∈ items, rule.opens item = none) : fold rule [] items = [] := by
  induction items with
  | nil => rfl
  | cons item items ih =>
      rw [fold_cons, step_extends (continued item List.mem_cons_self), modifyLast_nil]
      exact ih fun later listed => continued later (List.mem_cons_of_mem _ listed)

theorem fold_congr {other : Rule ι γ}
    (same : ∀ item ∈ items, ∀ groups, step rule groups item = step other groups item) :
    fold rule groups items = fold other groups items := by
  induction items generalizing groups with
  | nil => rfl
  | cons item items ih =>
      rw [fold_cons, fold_cons, same item List.mem_cons_self]
      exact ih fun later listed => same later (List.mem_cons_of_mem _ listed)

/-- A view of the groups that commutes with every item commutes with the fold. -/
theorem map_fold {δ : Type} {other : Rule ι δ} {view : γ → δ}
    (opens : ∀ item, other.opens item = (rule.opens item).map view)
    (extends_ : ∀ item group, view (rule.extend item group) = other.extend item (view group)) :
    (fold rule groups items).map view = fold other (groups.map view) items := by
  induction items generalizing groups with
  | nil => rfl
  | cons item items ih =>
      rw [fold_cons, fold_cons, ih]
      congr 1
      have opened := opens item
      cases here : rule.opens item with
      | some group =>
          rw [here] at opened
          rw [step_opens here, step_opens opened, List.map_append]
          rfl
      | none =>
          rw [here] at opened
          rw [step_extends here, step_extends opened]
          induction groups using List.reverseRecOn with
          | nil => rfl
          | append_singleton groups last _ =>
              rw [List.modifyLast_concat, List.map_append, List.map_append, List.map_singleton, List.map_singleton,
                List.modifyLast_concat, extends_]

/-- Items that neither open nor change a group can be left out. -/
theorem fold_filter {keep : ι → Bool}
    (idle : ∀ item, keep item = false → rule.opens item = none ∧ ∀ group, rule.extend item group = group) :
    fold rule groups (items.filter keep) = fold rule groups items := by
  induction items generalizing groups with
  | nil => rfl
  | cons item items ih =>
      rw [fold_cons]
      cases kept : keep item with
      | true => rw [List.filter_cons_of_pos kept, fold_cons, ih]
      | false =>
          obtain ⟨continued, same⟩ := idle item kept
          rw [List.filter_cons_of_neg (Bool.not_eq_true _ ▸ kept), ih, step_extends continued, modifyLast_same same]

/-- The log at the place where group `b` was opened. -/
theorem exists_opening {b : Nat} (past : groups.length ≤ b) (bound : b < (fold rule groups items).length) :
    ∃ before item after group, items = before ++ item :: after ∧ rule.opens item = some group ∧
      (fold rule groups before).length = b := by
  induction items generalizing groups with
  | nil => exact absurd bound (Nat.not_lt.mpr past)
  | cons item items ih =>
      have grown := @length_step _ _ rule groups item
      have deeper : (step rule groups item).length ≤ b → ∃ before opening after group,
          item :: items = before ++ opening :: after ∧ rule.opens opening = some group ∧
            (fold rule groups before).length = b := by
        intro past
        obtain ⟨before, opening, after, group, split, opened, counted⟩ := ih past bound
        exact ⟨item :: before, opening, after, group, by rw [split]; rfl, opened, counted⟩
      cases opened : rule.opens item with
      | none =>
          rw [opened] at grown
          exact deeper (Nat.le_trans (Nat.le_of_eq grown) past)
      | some group =>
          rw [opened] at grown
          rcases Nat.eq_or_lt_of_le past with here | further
          · exact ⟨[], item, items, group, rfl, opened, here⟩
          · exact deeper (Nat.le_trans (Nat.le_of_eq grown) further)

/-- Groups from `b` on are the fold of the log from the opening of group `b` on. -/
theorem drop_fold (opened : rule.opens item = some group) :
    (fold rule groups (before ++ item :: after)).drop (fold rule groups before).length =
      fold rule [] (item :: after) := by
  rw [fold_append, fold_opened opened, List.drop_left]

/-- A feature of a group that extending it keeps. -/
def Kept (rule : Rule ι γ) (feature : γ → κ) : Prop :=
  ∀ item group, feature (rule.extend item group) = feature group

theorem head_fold {feature : γ → κ} (kept : Kept rule feature) (first : γ) (rest : List γ) (items : List ι) :
    ((fold rule (first :: rest) items).head?.map feature) = some (feature first) := by
  induction items generalizing first rest with
  | nil => rfl
  | cons item items ih =>
      rw [fold_cons]
      cases opened : rule.opens item with
      | some group => rw [step_opens opened, List.cons_append, ih]
      | none =>
          rw [step_extends opened]
          cases rest with
          | nil =>
              rw [show [first].modifyLast (rule.extend item) = [rule.extend item first] from
                List.modifyLast_concat _ _ [], ih, kept]
          | cons second rest =>
              rw [show first :: second :: rest = [first] ++ (second :: rest) from rfl,
                List.modifyLast_append_of_right_ne_nil _ _ _ (List.cons_ne_nil _ _), List.singleton_append, ih]

/-- Every group of a fold carries the feature of the item that opened it. -/
theorem forall_fold {P : γ → Prop} (start : ∀ group ∈ groups, P group)
    (opens : ∀ item ∈ items, ∀ group, rule.opens item = some group → P group)
    (extends_ : ∀ item ∈ items, ∀ group, P group → P (rule.extend item group)) :
    ∀ group ∈ fold rule groups items, P group := by
  induction items generalizing groups with
  | nil => exact start
  | cons item items ih =>
      rw [fold_cons]
      apply ih
      · intro group listed
        cases opened : rule.opens item with
        | some fresh =>
            rw [step_opens opened, List.mem_append, List.mem_singleton] at listed
            rcases listed with old | rfl
            · exact start group old
            · exact opens item List.mem_cons_self group opened
        | none =>
            rw [step_extends opened] at listed
            induction groups using List.reverseRecOn with
            | nil => cases listed
            | append_singleton groups last _ =>
                rw [List.modifyLast_concat, List.mem_append, List.mem_singleton] at listed
                rcases listed with old | rfl
                · exact start group (List.mem_append_left _ old)
                · exact extends_ item List.mem_cons_self last
                    (start last (List.mem_append_right _ List.mem_cons_self))
      · exact fun later listed => opens later (List.mem_cons_of_mem _ listed)
      · exact fun later listed => extends_ later (List.mem_cons_of_mem _ listed)

end Grouping
