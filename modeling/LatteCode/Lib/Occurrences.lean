import Mathlib
/- Where a list occurs in another one; occurrences may overlap. -/

namespace Occurrences

variable {α : Type} {pattern text : List α} {i j : Nat}

def OccursAt (pattern text : List α) (i : Nat) : Prop := pattern <+: text.drop i

instance [DecidableEq α] : Decidable (OccursAt pattern text i) := inferInstanceAs (Decidable (pattern <+: text.drop i))

/-- The only occurrence. -/
def Once (pattern text : List α) (i : Nat) : Prop :=
  OccursAt pattern text i ∧ ∀ j, OccursAt pattern text j → j = i

def First (pattern text : List α) (i : Nat) : Prop :=
  OccursAt pattern text i ∧ ∀ j, OccursAt pattern text j → i ≤ j

/-- More than one occurrence, and no two of them apart. -/
def Entangled (pattern text : List α) : Prop :=
  (∃ i j, OccursAt pattern text i ∧ OccursAt pattern text j ∧ i ≠ j) ∧
    ∀ i j, OccursAt pattern text i → OccursAt pattern text j → j < i + pattern.length

/-- The text with `length` elements from a position on replaced. -/
def replacedAt (text : List α) (i length : Nat) (replacement : List α) : List α :=
  text.take i ++ replacement ++ text.drop (i + length)

theorem OccursAt.bound (inhabited : pattern ≠ []) (occurs : OccursAt pattern text i) :
    i + pattern.length ≤ text.length := by
  have fits := occurs.length_le
  have positive := List.length_pos_iff.mpr inhabited
  rw [List.length_drop] at fits
  omega

theorem occursAt_append {before : List α} :
    OccursAt pattern (before ++ text) (before.length + i) ↔ OccursAt pattern text i := by
  rw [OccursAt, List.drop_length_add_append]
  exact Iff.rfl

theorem occursAt_cons {x : α} : OccursAt pattern (x :: text) (i + 1) ↔ OccursAt pattern text i := Iff.rfl

theorem occursAt_prefix {after : List α} : OccursAt pattern (pattern ++ after) 0 := List.prefix_append pattern after

/-- A text parts at an occurrence. -/
theorem OccursAt.parts (occurs : OccursAt pattern text i) :
    text = text.take i ++ pattern ++ text.drop (i + pattern.length) := by
  obtain ⟨after, whole⟩ := occurs
  have rest : text.drop (i + pattern.length) = after := by
    rw [← List.drop_drop, ← whole, List.drop_left]
  rw [rest, List.append_assoc, whole, List.take_append_drop]

theorem Once.first (once : Once pattern text i) : First pattern text i :=
  ⟨once.1, fun j occurs => Nat.le_of_eq (once.2 j occurs).symm⟩

theorem First.unique (first : First pattern text i) (other : First pattern text j) : i = j :=
  Nat.le_antisymm (first.2 j other.1) (other.2 i first.1)

/-- A first occurrence with none at or behind its end is the only one, unless the occurrences are entangled. -/
theorem First.once_iff (first : First pattern text i)
    (last : ∀ j, OccursAt pattern text j → j < i + pattern.length) :
    Once pattern text i ↔ ¬ Entangled pattern text := by
  constructor
  · rintro once ⟨⟨j, k, here, there, different⟩, _⟩
    exact different ((once.2 j here).trans (once.2 k there).symm)
  · intro straight
    refine ⟨first.1, fun j occurs => ?_⟩
    by_contra different
    refine straight ⟨⟨j, i, occurs, first.1, different⟩, fun k l here there => ?_⟩
    have behind := first.2 k here
    have inside := last l there
    omega

/-- The first of entangled occurrences has none at or behind its end. -/
theorem Entangled.first (entangled : Entangled pattern text) :
    ∃ i, First pattern text i ∧ ∀ j, OccursAt pattern text j → j < i + pattern.length := by
  classical
  obtain ⟨⟨k, _, here, _, _⟩, close⟩ := entangled
  have found : ∃ i, OccursAt pattern text i := ⟨k, here⟩
  exact ⟨Nat.find found, ⟨Nat.find_spec found, fun j occurs => Nat.find_min' found occurs⟩,
    fun j occurs => close _ j (Nat.find_spec found) occurs⟩

end Occurrences
