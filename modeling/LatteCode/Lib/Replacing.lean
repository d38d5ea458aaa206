import Mathlib
/- Replacing every occurrence of one text by another, over characters. -/

namespace Replacing
open String Slice Pattern Model

variable {pattern replacement : List Char}

/-- The characters after leftmost, non-overlapping replacement; `skip` characters belong to a match. -/
def replaceFrom (pattern replacement : List Char) : Nat → List Char → List Char
  | _, [] => []
  | skip + 1, _ :: rest => replaceFrom pattern replacement skip rest
  | 0, c :: rest =>
      if pattern <+: c :: rest then replacement ++ replaceFrom pattern replacement (pattern.length - 1) rest
      else c :: replaceFrom pattern replacement 0 rest

def replaced (pattern replacement text : List Char) : List Char := replaceFrom pattern replacement 0 text

theorem replaceFrom_skip (matched rest : List Char) :
    replaceFrom pattern replacement matched.length (matched ++ rest) = replaced pattern replacement rest := by
  induction matched with
  | nil => rfl
  | cons c matched ih => exact ih

theorem replaced_match (inhabited : pattern ≠ []) (rest : List Char) :
    replaced pattern replacement (pattern ++ rest) = replacement ++ replaced pattern replacement rest := by
  cases pattern with
  | nil => exact absurd rfl inhabited
  | cons c pattern =>
      have here : c :: pattern <+: c :: (pattern ++ rest) := List.prefix_append (c :: pattern) rest
      rw [replaced, List.cons_append, replaceFrom, if_pos here, List.length_cons, Nat.add_sub_cancel,
        replaceFrom_skip]

/-- No match starts inside these characters. -/
def Untouched (pattern copied rest : List Char) : Prop := ∀ i < copied.length, ¬ pattern <+: copied.drop i ++ rest

instance (pattern copied rest : List Char) : Decidable (Untouched pattern copied rest) :=
  inferInstanceAs (Decidable (∀ i < copied.length, ¬ pattern <+: copied.drop i ++ rest))

theorem replaced_copy {copied rest : List Char} (clear : Untouched pattern copied rest) :
    replaced pattern replacement (copied ++ rest) = copied ++ replaced pattern replacement rest := by
  induction copied with
  | nil => rfl
  | cons c copied ih =>
      have here : ¬ pattern <+: c :: (copied ++ rest) := clear 0 (Nat.succ_pos _)
      have later : replaceFrom pattern replacement 0 (copied ++ rest) =
          copied ++ replaced pattern replacement rest :=
        ih fun i inside => clear (i + 1) (Nat.succ_lt_succ inside)
      rw [replaced, List.cons_append, replaceFrom, if_neg here, later]
      rfl

section Search

variable {pattern replacement : String} {s : Slice}

/-- What a replacement has written after one more step of its search. -/
def write (replacement : String) (sofar : String) : SearchStep s → String
  | .matched _ _ => sofar ++ replacement.toSlice
  | .rejected start stop => sofar ++ s.slice! start stop

/-- The steps of a search from a position write the replaced rest of the text. -/
theorem foldl_write (inhabited : pattern ≠ "") {pos : s.Pos} {steps : List (SearchStep s)}
    (valid : IsValidSearchFrom pattern pos steps) (sofar : String) {before after : String}
    (here : pos.Splits before after) :
    (steps.foldl (write replacement) sofar).toList =
      sofar.toList ++ replaced pattern.toList replacement.toList after.toList := by
  have letters : pattern.toList ≠ [] := fun empty => inhabited (String.toList_eq_nil_iff.mp empty)
  induction valid generalizing sofar before after with
  | endPos =>
      rw [(Slice.splits_endPos_iff.mp here).2]
      simp [replaced, replaceFrom]
  | matched found _ ih =>
      obtain ⟨earlier, later, start, stop⟩ := ForwardStringSearcher.isLongestMatchAt_iff_splits.mp found
      rw [List.foldl_cons, ih _ stop, here.eq_right start, String.toList_append, replaced_match letters, write]
      simp [List.append_assoc]
  | mismatched further clear _ ih =>
      rename_i steps start stop _
      obtain ⟨earlier, later, whole⟩ : ∃ earlier later, stop.Splits earlier later := ⟨_, _, stop.splits⟩
      obtain ⟨copied, rfl, rfl⟩ := (here.le_iff_exists_eq_append whole).mp (Std.le_of_lt further)
      have slice : (s.slice! start stop).copy = copied := by
        obtain ⟨ordered, same⟩ := Slice.copy_slice_eq_iff_splits.mpr ⟨before, later, here, whole⟩
        rw [← @Slice.slice_eq_slice! s start stop ordered, same]
      rw [List.foldl_cons, ih _ whole, String.toList_append, replaced_copy, write]
      · simp [slice, List.append_assoc]
      · -- a match inside the rejected characters would start at a position the search has passed
        intro i bound starts
        obtain ⟨rest, matched⟩ := starts
        obtain ⟨passed, left, split, inhabited, isLeft⟩ : ∃ passed left, copied.toList = passed ++ left ∧ left ≠ [] ∧
            copied.toList.drop i = left :=
          ⟨_, _, (List.take_append_drop i _).symm, List.drop_eq_nil_iff.not.mpr (Nat.not_le.mpr bound), rfl⟩
        rw [isLeft] at matched
        have parts : copied = String.ofList passed ++ String.ofList left := by
          rw [← String.toList_inj, split, String.toList_append, String.toList_ofList, String.toList_ofList]
        subst parts
        rw [String.append_assoc] at here
        have inside := here.splits_rotateRight
        refine clear _ ((here.le_iff_exists_eq_append inside).mpr ⟨_, rfl, rfl⟩)
          ((inside.lt_iff_exists_eq_append whole).mpr ⟨String.ofList left, ?_, ?_, rfl⟩)
          (ForwardStringSearcher.matchesAt_iff_splits.mpr ⟨before ++ String.ofList passed, String.ofList rest, ?_⟩)
        · exact fun empty => inhabited (by rw [← @String.toList_ofList left, empty]; rfl)
        · rw [String.append_assoc]
        · have same : pattern ++ String.ofList rest = String.ofList left ++ later := by
            rw [← String.toList_inj, String.toList_append, String.toList_append, String.toList_ofList, matched,
              String.toList_ofList]
          rw [same]
          exact inside

/-- The library's replacement is the one over characters. -/
theorem toList_replace (inhabited : pattern ≠ "") (text : String) :
    (text.replace pattern replacement).toList = replaced pattern.toList replacement.toList text.toList := by
  have lawful := ForwardStringSearcher.lawfulToForwardSearcherModel inhabited
  have steps := @foldl_write pattern replacement text.toSlice inhabited _ _
    (lawful.isValidSearchFrom_toList text.toSlice) "" _ _ (Slice.splits_startPos _)
  rw [String.copy_toSlice, String.toList_empty, List.nil_append] at steps
  rw [String.replace, Slice.replace, ← Std.Iter.foldl_toList, ← steps]
  congr 2
  funext sofar step
  cases step <;> rfl

end Search

section Pieces

variable {pattern replacement : String} {pieces : List String}

/-- Matches are whole pieces: none starts inside another piece. -/
def Apart (pattern : String) : List String → Prop
  | [] => True
  | piece :: rest =>
      (piece = pattern ∨ Untouched pattern.toList piece.toList (String.join rest).toList) ∧ Apart pattern rest

instance decidableApart (pattern : String) : (pieces : List String) → Decidable (Apart pattern pieces)
  | [] => .isTrue trivial
  | piece :: rest =>
      have := decidableApart pattern rest
      inferInstanceAs (Decidable ((piece = pattern ∨ Untouched pattern.toList piece.toList (String.join rest).toList) ∧
        Apart pattern rest))

theorem replace_join (inhabited : pattern ≠ "") (apart : Apart pattern pieces) :
    (String.join pieces).replace pattern replacement =
      String.join (pieces.map fun piece => if piece = pattern then replacement else piece) := by
  have letters : pattern.toList ≠ [] := fun empty => inhabited (String.toList_eq_nil_iff.mp empty)
  rw [← String.toList_inj, toList_replace inhabited]
  induction pieces with
  | nil => rfl
  | cons piece rest ih =>
      rw [String.join_cons, String.toList_append, List.map_cons, String.join_cons, String.toList_append, ← ih apart.2]
      rcases apart.1 with rfl | clear
      · rw [if_pos rfl, replaced_match letters]
      · split
        case isTrue same => rw [same, replaced_match letters]
        case isFalse => rw [replaced_copy clear]

end Pieces

end Replacing
