import Mathlib
/- The longest suffix of a list within an allowance that contains no barred element; the newest element is free of charge. -/

namespace Suffix

variable {α : Type} (size : α → Nat) (barred : α → Bool)

/-- What the elements from a position on take together. -/
def suffixSize (list : List α) (c : Nat) : Nat := ((list.drop c).map size).sum

def Unbarred (list : List α) (c : Nat) : Prop := ∀ a ∈ list.drop c, barred a = false

/-- The suffix from `b` on is unbarred and within the allowance, or only the newest element; nothing longer is. -/
structure Longest (list : List α) (allowance b : Nat) : Prop where
  inside : b ≤ list.length
  unbarred : Unbarred barred list b
  newest : ∀ a, list.getLast? = some a → barred a = false → b < list.length
  allowed : b + 1 = list.length ∨ suffixSize size list b ≤ allowance
  longest : ∀ c < b, Unbarred barred list c → allowance < suffixSize size list c

variable {size barred} {list : List α} {allowance b c : Nat}

theorem suffixSize_eq {a : α} (found : list[c]? = some a) :
    suffixSize size list c = size a + suffixSize size list (c + 1) := by
  obtain ⟨bound, rfl⟩ := List.getElem?_eq_some_iff.mp found
  rw [suffixSize, suffixSize, List.drop_eq_getElem_cons bound, List.map_cons, List.sum_cons]

theorem suffixSize_length : suffixSize size list list.length = 0 := by
  rw [suffixSize, List.drop_length]
  rfl

/-- A longer suffix takes no less. -/
theorem suffixSize_antitone (order : b ≤ c) : suffixSize size list c ≤ suffixSize size list b :=
  ((List.drop_sublist_drop_left list order).map size).sum_le_sum fun _ _ => Nat.zero_le _

theorem unbarred_length : Unbarred barred list list.length := by
  rw [Unbarred, List.drop_length]
  exact List.forall_mem_nil _

theorem unbarred_iff {a : α} (found : list[c]? = some a) :
    Unbarred barred list c ↔ barred a = false ∧ Unbarred barred list (c + 1) := by
  obtain ⟨bound, rfl⟩ := List.getElem?_eq_some_iff.mp found
  rw [Unbarred, Unbarred, List.drop_eq_getElem_cons bound, List.forall_mem_cons]

theorem Unbarred.mono (unbarred : Unbarred barred list b) (order : b ≤ c) : Unbarred barred list c := fun a held =>
  unbarred a ((List.drop_sublist_drop_left list order).subset held)

/-- No suffix goes past a barred element. -/
theorem not_unbarred {a : α} (found : list[b]? = some a) (bars : barred a = true) (order : c ≤ b) :
    ¬ Unbarred barred list c := by
  intro unbarred
  have free := ((unbarred_iff found).mp (unbarred.mono order)).1
  rw [bars] at free
  cases free

theorem Longest.unique (one : Longest size barred list allowance b) (two : Longest size barred list allowance c) :
    b = c := by
  have least : ∀ {b c}, Longest size barred list allowance b → Longest size barred list allowance c → ¬ b < c := by
    intro b c one two less
    have beyond := two.longest b less one.unbarred
    rcases one.allowed with single | within
    · -- `b` is the newest element alone, so `c` leaves it out although it is not barred.
      have whole : c = list.length := by have := two.inside; omega
      obtain ⟨a, found⟩ : ∃ a, list[b]? = some a := ⟨_, List.getElem?_eq_getElem (by omega)⟩
      have newest : list.getLast? = some a := by
        rw [List.getLast?_eq_getElem?, ← single, Nat.add_sub_cancel, found]
      have kept := two.newest _ newest ((unbarred_iff found).mp one.unbarred).1
      omega
    · omega
  exact Nat.le_antisymm (Nat.le_of_not_lt (least two one)) (Nat.le_of_not_lt (least one two))

end Suffix
