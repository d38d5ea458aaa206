import LatteCode.Lib.Table
/- Numbered logs: streams of rows with consecutive numbers, alone and as tables of many streams. -/

namespace Numbered
open Keyed

variable {α ρ : Type}

/-- `after` is the stream `before` with `rows` appended, numbered from `last + 1`. -/
structure Extends (before after : Nat → Option ρ) (last : Nat) (rows : List ρ) : Prop where
  kept : ∀ n row, before n = some row → after n = some row
  added : ∀ i (bound : i < rows.length), after (last + 1 + i) = some rows[i]
  only : ∀ n row, after n = some row → before n = some row ∨
    ∃ i, ∃ bound : i < rows.length, n = last + 1 + i ∧ row = rows[i]

section Streams

variable {before middle after : Nat → Option ρ} {last : Nat} {rows : List ρ}

theorem Extends.nil : Extends before before last [] where
  kept _ _ found := found
  added _ bound := absurd bound (Nat.not_lt_zero _)
  only _ _ found := .inl found

theorem Extends.single {row : ρ} (fresh : before (last + 1) = none)
    (added : ∀ n, after n = if n = last + 1 then some row else before n) :
    Extends before after last [row] := by
  refine ⟨?_, ?_, ?_⟩
  · intro n old found
    rw [added, if_neg]
    · exact found
    · rintro rfl
      rw [fresh] at found
      cases found
  · intro i bound
    have first : i = 0 := by simpa using bound
    subst first
    rw [added, if_pos rfl]
    rfl
  · intro n new found
    rw [added] at found
    split at found
    case isTrue same =>
      cases found
      exact .inr ⟨0, Nat.one_pos, same, rfl⟩
    case isFalse => exact .inl found

theorem Extends.append {more : List ρ} (first : Extends before middle last rows)
    (second : Extends middle after (last + rows.length) more) : Extends before after last (rows ++ more) := by
  refine ⟨fun n row found => second.kept n row (first.kept n row found), ?_, ?_⟩
  · intro i bound
    by_cases early : i < rows.length
    · rw [List.getElem_append_left early]
      exact second.kept _ _ (first.added i early)
    · rw [List.getElem_append_right (Nat.le_of_not_lt early)]
      have later : i - rows.length < more.length := by
        rw [List.length_append] at bound
        omega
      have place : last + rows.length + 1 + (i - rows.length) = last + 1 + i := by omega
      rw [← place]
      exact second.added _ later
  · intro n row found
    rcases second.only n row found with old | ⟨i, bound, rfl, rfl⟩
    · rcases first.only n row old with old | ⟨i, bound, rfl, rfl⟩
      · exact .inl old
      · refine .inr ⟨i, ?_, rfl, ?_⟩
        · rw [List.length_append]
          omega
        · rw [List.getElem_append_left bound]
    · refine .inr ⟨rows.length + i, ?_, ?_, ?_⟩
      · rw [List.length_append]
        omega
      · omega
      · rw [List.getElem_append_right (Nat.le_add_right _ _)]
        simp only [Nat.add_sub_cancel_left]

/-- The numbers of a stream are exactly those past `base` up to `last`. -/
def Contiguous (log : Nat → Option ρ) (base last : Nat) : Prop :=
  ∀ n, (log n).isSome = true ↔ base < n ∧ n ≤ last

theorem Contiguous.empty {base : Nat} (none : ∀ n, before n = none) : Contiguous before base base := by
  intro n
  rw [none]
  constructor
  · intro impossible
    cases impossible
  · rintro ⟨above, below⟩
    omega

theorem Contiguous.append {base : Nat} (held : Contiguous before base last) (order : base ≤ last)
    (step : Extends before after last rows) : Contiguous after base (last + rows.length) := by
  intro n
  constructor
  · intro present
    obtain ⟨row, found⟩ := Option.isSome_iff_exists.mp present
    rcases step.only _ _ found with old | ⟨i, bound, rfl, _⟩
    · have inside := (held n).mp (Option.isSome_iff_exists.mpr ⟨row, old⟩)
      omega
    · omega
  · rintro ⟨above, below⟩
    by_cases early : n ≤ last
    · obtain ⟨row, found⟩ := Option.isSome_iff_exists.mp ((held n).mpr ⟨above, early⟩)
      exact Option.isSome_iff_exists.mpr ⟨row, step.kept _ _ found⟩
    · have bound : n - last - 1 < rows.length := by omega
      have place : last + 1 + (n - last - 1) = n := by omega
      have found := step.added _ bound
      rw [place] at found
      exact Option.isSome_iff_exists.mpr ⟨_, found⟩

/-- The values of a stream never decrease along it and stay below `top`. -/
structure Ordered (log : Nat → Option ρ) (value : ρ → Nat) (top : Nat) : Prop where
  below : ∀ n row, log n = some row → value row ≤ top
  ordered : ∀ m n first second, m ≤ n → log m = some first → log n = some second → value first ≤ value second

theorem Ordered.empty {value : ρ → Nat} {top : Nat} (none : ∀ n, before n = none) :
    Ordered before value top := by
  refine ⟨?_, ?_⟩
  · intro n row found
    rw [none] at found
    cases found
  · intro m n first second _ found
    rw [none] at found
    cases found

/-- Rows whose values climb from `top` to `top'` keep a stream ordered. -/
theorem Ordered.append {value : ρ → Nat} {base top top' : Nat} (held : Ordered before value top)
    (full : Contiguous before base last) (step : Extends before after last rows) (raise : top ≤ top')
    (above : ∀ row ∈ rows, top ≤ value row ∧ value row ≤ top')
    (climb : rows.Pairwise fun first second => value first ≤ value second) : Ordered after value top' := by
  have early : ∀ n row, before n = some row → n ≤ last := by
    intro n row found
    exact ((full n).mp (Option.isSome_iff_exists.mpr ⟨row, found⟩)).2
  refine ⟨?_, ?_⟩
  · intro n row found
    rcases step.only _ _ found with old | ⟨i, bound, _, rfl⟩
    · exact Nat.le_trans (held.below n row old) raise
    · exact (above _ (List.getElem_mem bound)).2
  · intro m n first second order one two
    rcases step.only _ _ one with oldOne | ⟨i, iBound, rfl, rfl⟩
    · rcases step.only _ _ two with oldTwo | ⟨j, jBound, _, rfl⟩
      · exact held.ordered m n first second order oldOne oldTwo
      · exact Nat.le_trans (held.below m first oldOne) (above _ (List.getElem_mem jBound)).1
    · rcases step.only _ _ two with oldTwo | ⟨j, jBound, rfl, rfl⟩
      · have := early n second oldTwo
        omega
      · by_cases same : i = j
        · subst same
          exact Nat.le_refl _
        · exact List.pairwise_iff_getElem.mp climb i j iBound jBound (by omega)

/-- No value of a climbing list exceeds the last one. -/
theorem climbing_le_last {value : ρ → Nat} (climb : rows.Pairwise fun first second => value first < value second) :
    ∀ row ∈ rows, value row ≤ (rows.getLast?.map value).getD 0 := by
  intro row member
  rcases List.eq_nil_or_concat rows with rfl | ⟨init, last, rfl⟩
  · cases member
  · rw [List.concat_eq_append] at climb member ⊢
    rw [List.getLast?_concat, Option.map_some, Option.getD_some]
    rcases List.mem_append.mp member with early | only
    · exact Nat.le_of_lt ((List.pairwise_append.mp climb).2.2 row early last List.mem_cons_self)
    · exact Nat.le_of_eq (congrArg value (List.mem_singleton.mp only))

/-- Chunks that climb, each inside its own step of a rising bound, climb as a whole. -/
theorem climbing_flatMap {chunk : Nat → List ρ} {value : ρ → Nat} {top : Nat → Nat} {n : Nat}
    (rising : ∀ i, i < n → top i ≤ top (i + 1))
    (inside : ∀ i, i < n → ∀ row ∈ chunk i, top i < value row ∧ value row ≤ top (i + 1))
    (climb : ∀ i, i < n → (chunk i).Pairwise fun first second => value first < value second) :
    (∀ row ∈ (List.range n).flatMap chunk, value row ≤ top n) ∧
      ((List.range n).flatMap chunk).Pairwise fun first second => value first < value second := by
  induction n with
  | zero => exact ⟨fun row impossible => absurd impossible List.not_mem_nil, List.Pairwise.nil⟩
  | succ n ih =>
      obtain ⟨below, ordered⟩ := ih (fun i less => rising i (Nat.lt_succ_of_lt less))
        (fun i less => inside i (Nat.lt_succ_of_lt less)) fun i less => climb i (Nat.lt_succ_of_lt less)
      have here := inside n (Nat.lt_succ_self n)
      rw [List.range_succ, List.flatMap_append, List.flatMap_singleton]
      refine ⟨?_, List.pairwise_append.mpr ⟨ordered, climb n (Nat.lt_succ_self n), ?_⟩⟩
      · intro row member
        rcases List.mem_append.mp member with early | late
        · exact Nat.le_trans (below row early) (rising n (Nat.lt_succ_self n))
        · exact (here row late).2
      · intro first early second late
        exact Nat.lt_of_le_of_lt (below first early) (here second late).1

end Streams

variable [DecidableEq α]

/-- One stream of a table of streams. -/
def stream (log : Table (α × Nat) ρ) (a : α) (n : Nat) : Option ρ := log.get? (a, n)

/-- `after` is `before` with `rows` appended to the stream `a`, and no other stream touched. -/
structure Appended (before after : Table (α × Nat) ρ) (a : α) (last : Nat) (rows : List ρ) : Prop where
  extended : Extends (stream before a) (stream after a) last rows
  other : ∀ b, b ≠ a → stream after b = stream before b

variable {before middle after : Table (α × Nat) ρ} {a : α} {last : Nat} {rows : List ρ}

theorem Appended.nil : Appended before before a last [] := ⟨.nil, fun _ _ => rfl⟩

theorem Appended.single {row : ρ} (fresh : before.get? (a, last + 1) = none) :
    Appended before (before.add (a, last + 1) row) a last [row] := by
  refine ⟨.single fresh ?_, ?_⟩
  · intro n
    simp only [stream, Table.get?_add_fresh before row fresh, Prod.mk.injEq, true_and]
  · intro b differs
    funext n
    rw [stream, Table.get?_add_fresh before row fresh, if_neg fun same => differs (congrArg Prod.fst same)]
    rfl

theorem Appended.append {more : List ρ} (first : Appended before middle a last rows)
    (second : Appended middle after a (last + rows.length) more) : Appended before after a last (rows ++ more) :=
  ⟨first.extended.append second.extended, fun b differs =>
    (second.other b differs).trans (first.other b differs)⟩

end Numbered
