import Mathlib
/- Texts that join fields with a separator, and the fields they are read back into. -/

namespace Delimited

def Clear (separator : Char) (field : String) : Prop := separator ∉ field.toList

instance (separator : Char) (field : String) : Decidable (Clear separator field) :=
  inferInstanceAs (Decidable (separator ∉ field.toList))

section Read

variable {separator : Char} {fields fields' : List String}

theorem splitOn_intercalate (clear : ∀ field ∈ fields, Clear separator field) (nonempty : fields ≠ []) :
    ((String.singleton separator).intercalate fields).toList.splitOn separator = fields.map String.toList := by
  rw [String.toList_intercalate, String.toList_singleton]
  apply List.splitOn_intercalate
  · intro text held
    obtain ⟨field, listed, rfl⟩ := List.mem_map.mp held
    exact clear field listed
  · exact fun empty => nonempty (List.map_eq_nil_iff.mp empty)

/-- Texts of clear fields tell the fields apart. -/
theorem intercalate_injective (clear : ∀ field ∈ fields, Clear separator field) (nonempty : fields ≠ [])
    (clear' : ∀ field ∈ fields', Clear separator field) (nonempty' : fields' ≠ [])
    (same : (String.singleton separator).intercalate fields = (String.singleton separator).intercalate fields') :
    fields = fields' := by
  have texts : fields.map String.toList = fields'.map String.toList := by
    rw [← splitOn_intercalate clear nonempty, same, splitOn_intercalate clear' nonempty']
  exact List.map_injective_iff.mpr (fun _ _ => String.toList_inj.mp) texts

end Read

/-- The text before the first separator is told from the text after it. -/
theorem append_separator_inj {separator : Char} {first second rest rest' : List Char} (clear : separator ∉ first)
    (clear' : separator ∉ second) (same : first ++ separator :: rest = second ++ separator :: rest') :
    first = second ∧ rest = rest' := by
  induction first generalizing second with
  | nil =>
      cases second with
      | nil => exact ⟨rfl, (List.cons.inj same).2⟩
      | cons c second => exact absurd ((List.cons.inj same).1 ▸ List.mem_cons_self) clear'
  | cons c first ih =>
      cases second with
      | nil => exact absurd ((List.cons.inj same).1 ▸ List.mem_cons_self) clear
      | cons d second =>
          obtain ⟨rfl, tails⟩ := List.cons.inj same
          obtain ⟨rfl, rfl⟩ := ih (fun held => clear (List.mem_cons_of_mem _ held))
            (fun held => clear' (List.mem_cons_of_mem _ held)) tails
          exact ⟨rfl, rfl⟩
section Numbers

/-- The decimal text of a number holds digits only. -/
theorem clear_toString {separator : Char} (other : separator.isDigit = false) (n : Nat) :
    Clear separator (toString n) := by
  intro held
  rw [Nat.toString_eq_repr, Nat.toList_repr] at held
  have digit := Nat.isDigit_of_mem_toDigits (by decide) (by decide) held
  rw [other] at digit
  cases digit

theorem toString_injective {m n : Nat} (same : toString m = toString n) : m = n := by
  have digits : Nat.toDigits 10 m = Nat.toDigits 10 n := by
    rw [← Nat.toList_repr, ← Nat.toString_eq_repr, same, Nat.toString_eq_repr, Nat.toList_repr]
  calc
    m = Nat.ofDigitChars 10 (Nat.toDigits 10 m) 0 := Nat.ofDigitChars_ten_toDigits.symm
    _ = Nat.ofDigitChars 10 (Nat.toDigits 10 n) 0 := by rw [digits]
    _ = n := Nat.ofDigitChars_ten_toDigits

end Numbers

end Delimited
