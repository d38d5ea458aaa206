import LatteCode.Headless.Fit
import LatteCode.Headless.Summary
import LatteCode.Lib.Suffix
/- The suffix that a proactive compaction retains, and the durable floor that its card records. -/

namespace LatteCode.Headless
open Suffix

section Walk

variable {F : FloatFormat} {segments : List HistorySegment} {bytes n : Nat}

def HistorySegment.wire (F : FloatFormat) (segment : HistorySegment) : Nat := wireBytes F segment.messages

theorem HistorySegment.wire_pos (segment : HistorySegment) : 0 < segment.wire F := by
  rw [HistorySegment.wire, wireBytes, Json.encodedBytes]
  omega

/-- The longest suffix of the movable segments. -/
abbrev LongestMovable (F : FloatFormat) (segments : List HistorySegment) (n bytes b : Nat) : Prop :=
  Longest (HistorySegment.wire F) HistorySegment.fromSummary (segments.take n) bytes b

/-- Once the newest segment is kept, the walk holds the size of the suffix from its boundary on. -/
theorem retainWalk_kept (all : n ≤ segments.length) : ∀ index, index < n →
    Unbarred HistorySegment.fromSummary (segments.take n) index →
      (index + 1 = n ∨ suffixSize (HistorySegment.wire F) (segments.take n) index ≤ bytes) →
        LongestMovable F segments n bytes (retainWalk F bytes segments index index
          (suffixSize (HistorySegment.wire F) (segments.take n) index)) := by
  have length : (segments.take n).length = n := by rw [List.length_take, Nat.min_eq_left all]
  have newest : ∀ b < n, ∀ a, (segments.take n).getLast? = some a → a.fromSummary = false →
      b < (segments.take n).length := fun b less _ _ _ => length.symm ▸ less
  intro index
  induction index with
  | zero =>
      intro less unbarred allowed
      rw [retainWalk]
      exact ⟨Nat.zero_le _, unbarred, newest 0 less, length.symm ▸ allowed, nofun⟩
  | succ index ih =>
      intro less unbarred allowed
      have bound : index < segments.length := by omega
      have found : (segments.take n)[index]? = some segments[index] := by
        rw [List.getElem?_take_of_lt (by omega), List.getElem?_eq_getElem bound]
      have size := @suffixSize_eq _ (HistorySegment.wire F) _ _ _ found
      have ends : (∀ c < index + 1, Unbarred HistorySegment.fromSummary (segments.take n) c →
          bytes < suffixSize (HistorySegment.wire F) (segments.take n) c) →
            LongestMovable F segments n bytes (index + 1) := fun longest =>
        ⟨length.symm ▸ Nat.le_of_lt less, unbarred, newest _ less, length.symm ▸ allowed, longest⟩
      have positive : suffixSize (HistorySegment.wire F) (segments.take n) (index + 1) ≠ 0 := by
        have inside : index + 1 < segments.length := by omega
        have next : (segments.take n)[index + 1]? = some segments[index + 1] := by
          rw [List.getElem?_take_of_lt less, List.getElem?_eq_getElem]
        have own := @HistorySegment.wire_pos F segments[index + 1]
        rw [suffixSize_eq next]
        omega
      rw [retainWalk, List.getElem?_eq_getElem bound]
      simp only
      split
      case isTrue summary =>
        exact ends fun c early unbarred => absurd unbarred (not_unbarred found summary (Nat.le_of_lt_succ early))
      case isFalse verbatim =>
        split
        case isTrue beyond =>
          refine ends fun c early _ => ?_
          have longer := @suffixSize_antitone _ (HistorySegment.wire F) (segments.take n) _ _ (Nat.le_of_lt_succ early)
          change _ + segments[index].wire F > bytes at beyond
          omega
        case isFalse within =>
          have next := ih (by omega) ((unbarred_iff found).mpr ⟨Bool.of_not_eq_true verbatim, unbarred⟩) (.inr (by
            change ¬ (_ + segments[index].wire F > bytes) at within
            omega))
          rw [size, Nat.add_comm] at next
          exact next

theorem retainWalk_longest (all : n ≤ segments.length) :
    LongestMovable F segments n bytes (retainWalk F bytes segments n n 0) := by
  have length : (segments.take n).length = n := by rw [List.length_take, Nat.min_eq_left all]
  cases n with
  | zero =>
      rw [retainWalk]
      exact ⟨Nat.zero_le _, nofun, nofun, .inr (Nat.zero_le _), nofun⟩
  | succ m =>
      have found : (segments.take (m + 1))[m]? = some segments[m] := by
        rw [List.getElem?_take_of_lt (Nat.lt_succ_self m), List.getElem?_eq_getElem all]
      have whole := @unbarred_length _ HistorySegment.fromSummary (segments.take (m + 1))
      have empty := @suffixSize_length _ (HistorySegment.wire F) (segments.take (m + 1))
      rw [length] at whole empty
      rw [retainWalk, List.getElem?_eq_getElem all]
      simp only [if_true]
      split
      case isTrue summary =>
        refine ⟨Nat.le_of_eq length.symm, whole, ?_, .inr (empty ▸ Nat.zero_le _), ?_⟩
        · intro a last verbatim
          rw [List.getLast?_eq_getElem?, length, Nat.add_sub_cancel, found] at last
          cases last
          rw [summary] at verbatim
          cases verbatim
        · exact fun c early unbarred => absurd unbarred (not_unbarred found summary (Nat.le_of_lt_succ early))
      case isFalse verbatim =>
        have kept := @retainWalk_kept F segments bytes (m + 1) all m (Nat.lt_succ_self m)
          ((unbarred_iff found).mpr ⟨Bool.of_not_eq_true verbatim, whole⟩) (.inl rfl)
        rw [suffixSize_eq found, empty, Nat.add_zero] at kept
        exact kept

end Walk

section Floor

variable {segments : List HistorySegment} {b floor : Nat}

/-- The sequences of the cards that open the segments. -/
def openings (segments : List HistorySegment) : List Nat := segments.filterMap HistorySegment.firstSequence

/-- The durable sequences increase along the list. -/
def Increasing (segments : List HistorySegment) : Prop := (openings segments).Pairwise (· < ·)

theorem findSome_openings : segments.findSome? HistorySegment.firstSequence = (openings segments).head? := by
  rw [openings, List.head?_filterMap]

theorem isLeast_head {list : List Nat} (increasing : list.Pairwise (· < ·)) :
    list.head? = some floor ↔ IsLeast { sequence | sequence ∈ list } floor := by
  cases list with
  | nil => exact ⟨nofun, fun least => nomatch least.1⟩
  | cons first rest =>
      have least : IsLeast { sequence | sequence ∈ first :: rest } first := by
        refine ⟨List.mem_cons_self, fun sequence held => ?_⟩
        rcases List.mem_cons.mp held with rfl | later
        · exact Nat.le_refl _
        · exact Nat.le_of_lt ((List.pairwise_cons.mp increasing).1 sequence later)
      rw [List.head?_cons]
      constructor
      · rintro ⟨⟩
        exact least
      · exact fun other => congrArg some (least.unique other)

theorem Increasing.drop (increasing : Increasing segments) (b : Nat) : Increasing (segments.drop b) :=
  List.Pairwise.sublist ((List.drop_sublist b segments).filterMap _) increasing

theorem compactionSource_floor (increasing : Increasing (segments.drop b)) (policy : CompactionPolicy) :
    (compactionSource segments b policy).1 = some floor ↔
      IsLeast { sequence | sequence ∈ openings (segments.drop b) } floor := by
  rw [← isLeast_head increasing, ← findSome_openings]
  rfl

theorem compactionSource_none (policy : CompactionPolicy) :
    (compactionSource segments b policy).1 = none ↔ ∀ segment ∈ segments.drop b, segment.firstSequence = none := by
  rw [compactionSource, List.findSome?_eq_none_iff]

end Floor

/-! ## The retained suffix -/

/-- What a boundary leaves verbatim: the longest suffix of the movable segments within the allowance that goes past no
summary, and the floor of it. A summary that the list starts with has a later sequence than the segments behind it, so the
order is asked of the suffix alone. -/
structure RetainedSuffix (F : FloatFormat) (segments : List HistorySegment) (bytes tail : Nat) (policy : CompactionPolicy)
    (b : Nat) : Prop where
  positive : 0 < b
  verbatim : ∀ i segment, b ≤ i → segments[i]? = some segment → segment.fromSummary = true →
    segments.length - tail ≤ i
  longest : LongestMovable F segments (segments.length - tail) bytes b
  floor : Increasing (segments.drop b) → ∀ floor, (compactionSource segments b policy).1 = some floor ↔
    IsLeast { sequence | sequence ∈ openings (segments.drop b) } floor
  floorless : (compactionSource segments b policy).1 = none ↔ ∀ segment ∈ segments.drop b, segment.firstSequence = none

/-- The allowance in the arithmetic of a machine word. -/
def retainBytes (budget retainRatio : Nat) : Nat := min (budget * retainRatio) (2 ^ 64 - 1) / 100

theorem proactiveRetainBoundary_walk (F : FloatFormat) (segments : List HistorySegment) (budget retainRatio tail : Nat) :
    ∃ walk, LongestMovable F segments (segments.length - tail) (retainBytes budget retainRatio) walk ∧
      proactiveRetainBoundary F segments budget retainRatio tail = if 0 < walk then some walk else none :=
  ⟨_, retainWalk_longest (Nat.sub_le _ _), rfl⟩

/-- The boundary is where the longest such suffix starts, and there is none when nothing is left before it. -/
theorem proactiveRetainBoundary_longest (F : FloatFormat) (segments : List HistorySegment)
    (budget retainRatio tail : Nat) (policy : CompactionPolicy) :
    (∀ b, proactiveRetainBoundary F segments budget retainRatio tail = some b →
        RetainedSuffix F segments (retainBytes budget retainRatio) tail policy b) ∧
      (proactiveRetainBoundary F segments budget retainRatio tail = none ↔
        LongestMovable F segments (segments.length - tail) (retainBytes budget retainRatio) 0) := by
  obtain ⟨found, walked, same⟩ := proactiveRetainBoundary_walk F segments budget retainRatio tail
  rw [same]
  constructor
  · intro b chosen
    split at chosen
    case isFalse => cases chosen
    case isTrue positive =>
      cases chosen
      refine ⟨positive, ?_, walked, fun increasing floor => compactionSource_floor increasing policy,
        compactionSource_none policy⟩
      intro i segment order here summary
      by_contra movable
      have held : (segments.take (segments.length - tail))[i]? = some segment := by
        rw [List.getElem?_take_of_lt (Nat.lt_of_not_le movable), here]
      exact not_unbarred held summary order walked.unbarred
  · split
    case isTrue positive =>
      refine ⟨nofun, fun whole => ?_⟩
      rw [walked.unique whole] at positive
      exact absurd positive (Nat.lt_irrefl 0)
    case isFalse zero =>
      rw [Nat.eq_zero_of_not_pos zero] at walked
      exact ⟨fun _ => walked, fun _ => rfl⟩

/-! ## An allowance beyond the machine word -/

def wideSegment (sequence length : Nat) : HistorySegment :=
  .new (some sequence) none [.user (String.ofList (List.replicate length 'a'))] ""

def wideSegments (length : Nat) : List HistorySegment := [wideSegment 1 length, wideSegment 2 length]

theorem wireBytes_user (F : FloatFormat) (text : String) : wireBytes F [.user text] = 28 + textBytes text := by
  have order : "content" < "role" := by decide
  have names : textBytes "content" = 9 ∧ textBytes "role" = 6 ∧ textBytes "user" = 6 := by decide
  have fields : Fields.insert "content" (.string text) (.insert "role" (.string "user") .nil) =
      .cons "content" (.string text) (.cons "role" (.string "user") .nil) := by
    rw [Fields.insert, Fields.insert, if_pos order]
  have body : wireBytes F [.user text] =
      2 + (2 + Fields.encodedBytes F (.insert "content" (.string text) (.insert "role" (.string "user") .nil))) := by
    unfold wireBytes
    simp [Message.toJson, Json.ofMembers, Elements.ofList, Json.encodedBytes, Elements.encodedBytes, Fields.insertAll]
  rw [body, fields]
  simp only [Fields.encodedBytes, Json.encodedBytes, names]
  omega

theorem wideSegment_wire (F : FloatFormat) (sequence length : Nat) : (wideSegment sequence length).wire F = length + 30 := by
  have content : textBytes (String.ofList (List.replicate length 'a')) = 2 + length := by
    rw [textBytes, String.toList_ofList, List.map_replicate, List.sum_replicate]
    exact congrArg (2 + ·) (Nat.mul_one length)
  refine (wireBytes_user F _).trans ?_
  rw [content]
  omega

/-- Both segments are kept exactly if together they are within the allowance. -/
theorem wideSegments_longest {F : FloatFormat} {length bytes : Nat} :
    LongestMovable F (wideSegments length) 2 bytes (if 2 * (length + 30) ≤ bytes then 0 else 1) := by
  have sizes : suffixSize (HistorySegment.wire F) ((wideSegments length).take 2) 0 = 2 * (length + 30) := by
    rw [Nat.two_mul, ← wideSegment_wire F 2 length]
    exact congrArg₂ (· + ·) ((wideSegment_wire F 1 length).trans (wideSegment_wire F 2 length).symm) (Nat.add_zero _)
  have verbatim : ∀ c, Unbarred HistorySegment.fromSummary ((wideSegments length).take 2) c := by
    intro c segment held
    have listed : segment ∈ wideSegments length := List.mem_of_mem_take (List.mem_of_mem_drop held)
    rcases List.mem_cons.mp listed with rfl | listed
    · rfl
    · rw [List.mem_singleton.mp listed]
      rfl
  split
  case isTrue within => exact ⟨Nat.zero_le _, verbatim 0, fun _ _ _ => Nat.zero_lt_succ _, .inr (sizes ▸ within), nofun⟩
  case isFalse beyond =>
    refine ⟨Nat.le_succ _, verbatim 1, fun _ _ _ => Nat.lt_succ_self _, .inl rfl, fun c early _ => ?_⟩
    cases Nat.lt_one_iff.mp early
    rw [sizes]
    exact Nat.lt_of_not_le beyond

/-- Two segments of 10^17 bytes each are within a budget of 2^63 bytes, and one of them is left out. -/
theorem saturated_allowance_shorter : ¬ ∀ (F : FloatFormat) (segments : List HistorySegment)
    (budget retainRatio tail b : Nat), budget < 2 ^ 64 → retainRatio ≤ 100 → tail ≤ segments.length →
      Increasing segments → proactiveRetainBoundary F segments budget retainRatio tail = some b →
        LongestMovable F segments (segments.length - tail) (budget * retainRatio / 100) b := by
  intro claim
  obtain ⟨walk, longest, same⟩ := proactiveRetainBoundary_walk noFloats (wideSegments (10 ^ 17)) (2 ^ 63) 100 0
  have kept := @wideSegments_longest noFloats (10 ^ 17) (retainBytes (2 ^ 63) 100)
  rw [if_neg (by decide)] at kept
  rw [longest.unique kept] at same
  have whole := @wideSegments_longest noFloats (10 ^ 17) (2 ^ 63 * 100 / 100)
  rw [if_pos (by decide)] at whole
  have increasing : Increasing (wideSegments (10 ^ 17)) := by
    change [1, 2].Pairwise (· < ·)
    decide
  have shorter := claim noFloats (wideSegments (10 ^ 17)) (2 ^ 63) 100 0 1 (by decide) (by decide) (Nat.zero_le _) increasing
    same
  exact absurd (whole.unique shorter) (by decide)

end LatteCode.Headless
