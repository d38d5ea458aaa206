import Mathlib
/- A scanner that replaces the tokens of a text, and why no token is left in what it writes. -/

namespace Rewriting

variable {α : Type}

/-- The token at the head of a text, as its replacement and its length. -/
abbrev Reader (α : Type) : Type := List α → Option (List α × Nat)

namespace Reader

/-- The scan of a text behind the elements of a token that is already replaced. -/
def rewriteFrom (read : Reader α) : Nat → List α → List α
  | _, [] => []
  | skip + 1, _ :: text => rewriteFrom read skip text
  | 0, c :: text =>
      match read (c :: text) with
      | some (replacement, length) => replacement ++ rewriteFrom read (length - 1) text
      | none => c :: rewriteFrom read 0 text

def rewrite (read : Reader α) (text : List α) : List α := read.rewriteFrom 0 text

/-- No token begins anywhere in the text. -/
def Free (read : Reader α) (text : List α) : Prop := ∀ before rest, text = before ++ rest → read rest = none

/-- Replacements begin with a mark, no token begins in one, and a token ends before a mark. -/
structure Marked (read : Reader α) (mark : α → Prop) : Prop where
  begins : ∀ text replacement length, read text = some (replacement, length) → ∃ x more, replacement = x :: more ∧ mark x
  quiet : ∀ text replacement length, read text = some (replacement, length) →
    ∀ before x more, replacement = before ++ x :: more → ∀ tail, read (x :: more ++ tail) = none
  cut : ∀ before x after, mark x → read (before ++ x :: after) ≠ none → ∀ other, read (before ++ other) ≠ none

variable {read : Reader α} {mark : α → Prop} {c : α} {text : List α}

theorem rewriteFrom_drop (skip : Nat) (text : List α) : read.rewriteFrom skip text = read.rewrite (text.drop skip) := by
  induction text generalizing skip with
  | nil => cases skip <;> rfl
  | cons c text ih =>
      cases skip with
      | zero => rfl
      | succ skip => exact ih skip

theorem rewrite_token {replacement : List α} {length : Nat} (found : read (c :: text) = some (replacement, length)) :
    read.rewrite (c :: text) = replacement ++ read.rewrite (text.drop (length - 1)) := by
  rw [rewrite, rewriteFrom, found]
  exact congrArg (replacement ++ ·) (rewriteFrom_drop (length - 1) text)

theorem rewrite_plain (plain : read (c :: text) = none) : read.rewrite (c :: text) = c :: read.rewrite text := by
  rw [rewrite, rewriteFrom, plain]
  rfl

theorem Free.tail (free : read.Free (c :: text)) : read.Free text := by
  intro before rest split
  exact free (c :: before) rest (by rw [split, List.cons_append])

theorem Free.rewrite (free : read.Free text) : read.rewrite text = text := by
  induction text with
  | nil => rfl
  | cons c text ih => rw [rewrite_plain (free [] _ rfl), ih free.tail]

/-- Up to the first replacement the text is written as it is. -/
theorem Marked.agree (marked : read.Marked mark) (text : List α) : read.rewrite text = text ∨
    ∃ before x after other, read.rewrite text = before ++ x :: after ∧ text = before ++ other ∧ mark x := by
  induction text with
  | nil => exact .inl rfl
  | cons c text ih =>
      cases found : read (c :: text) with
      | some token =>
          obtain ⟨replacement, length⟩ := token
          obtain ⟨x, more, rfl, marks⟩ := marked.begins _ _ _ found
          exact .inr ⟨[], x, _, c :: text, rewrite_token found, rfl, marks⟩
      | none =>
          rw [rewrite_plain found]
          rcases ih with same | ⟨before, x, after, other, written, split, marks⟩
          · exact .inl (congrArg (c :: ·) same)
          · exact .inr ⟨c :: before, x, after, other, congrArg (c :: ·) written, congrArg (c :: ·) split, marks⟩

/-- Where no token stood, none begins after the rewriting of what follows. -/
theorem Marked.plain (marked : read.Marked mark) (plain : read (c :: text) = none) :
    read (c :: read.rewrite text) = none := by
  rcases marked.agree text with same | ⟨before, x, after, other, written, split, marks⟩
  · rw [same, plain]
  · by_contra token
    rw [written] at token
    exact marked.cut (c :: before) x after marks token other (by rw [← plain, split, List.cons_append])

/-- The induction is on the length: a replaced token and the rest of the text are both shorter. -/
theorem Marked.free_rewrite (marked : read.Marked mark) (empty : read [] = none) :
    ∀ (n : Nat) (text : List α), text.length ≤ n → read.Free (read.rewrite text)
  | _, [], _ => by
      intro before rest split
      rw [(List.append_eq_nil_iff.mp split.symm).2]
      exact empty
  | 0, _ :: _, short => absurd short (Nat.not_succ_le_zero _)
  | n + 1, c :: text, short => by
      have short : text.length ≤ n := Nat.le_of_succ_le_succ short
      intro before rest split
      cases found : read (c :: text) with
      | none =>
          rw [rewrite_plain found] at split
          cases before with
          | nil =>
              rw [← (show _ = rest from split)]
              exact marked.plain found
          | cons first before =>
              obtain ⟨_, tail⟩ := List.cons.inj split
              exact free_rewrite marked empty n text short before rest tail
      | some token =>
          obtain ⟨replacement, length⟩ := token
          rw [rewrite_token found] at split
          have later : (text.drop (length - 1)).length ≤ n :=
            Nat.le_trans (by rw [List.length_drop]; exact Nat.sub_le _ _) short
          rcases List.append_eq_append_iff.mp split with ⟨inner, within, tail⟩ | ⟨inner, within, tail⟩
          · exact free_rewrite marked empty n _ later inner rest tail
          · cases inner with
            | nil => exact free_rewrite marked empty n _ later [] rest tail.symm
            | cons x more =>
                rw [tail]
                exact marked.quiet _ _ _ found before x more within _

theorem Marked.free (marked : read.Marked mark) (empty : read [] = none) (text : List α) :
    read.Free (read.rewrite text) := marked.free_rewrite empty text.length text (Nat.le_refl _)

theorem Marked.idempotent (marked : read.Marked mark) (empty : read [] = none) (text : List α) :
    read.rewrite (read.rewrite text) = read.rewrite text := (marked.free empty text).rewrite

end Reader

end Rewriting
