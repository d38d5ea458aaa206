import Mathlib
/- A table that is listed page by page, newest key first, while its keys change between the pages. -/

namespace Paging

variable {α κ : Type} [LinearOrder κ]

/-- What a page behind this cursor may show; the first page has no cursor. -/
def Behind (cursor : Option κ) (key : κ) : Prop := ∀ c ∈ cursor, key < c

/-- What a later page is left to show. -/
def Waits (cursor : Option κ) (key : κ) : Prop := ∃ c ∈ cursor, key < c

instance {cursor : Option κ} {key : κ} : Decidable (Behind cursor key) := inferInstanceAs (Decidable (∀ c ∈ cursor, key < c))

instance {cursor : Option κ} {key : κ} : Decidable (Waits cursor key) := inferInstanceAs (Decidable (∃ c ∈ cursor, key < c))

/-- Tables that grow at their end are sorted from there, where the newest keys are. -/
def behind (rows : List (α × κ)) (cursor : Option κ) : List (α × κ) :=
  (rows.filter fun row => Behind cursor row.2).reverse.insertionSort fun a b => b.2 ≤ a.2

def page (limit : Nat) (rows : List (α × κ)) (cursor : Option κ) : List (α × κ) := (behind rows cursor).take limit

/-- The key of the last row of a page that is not the last one. -/
def next (limit : Nat) (rows : List (α × κ)) (cursor : Option κ) : Option κ :=
  if limit < (behind rows cursor).length then (page limit rows cursor).getLast?.map Prod.snd else none

/-- Rows of which each item and each key occurs once. -/
structure Distinct (rows : List (α × κ)) : Prop where
  items : (rows.map Prod.fst).Nodup
  keys : (rows.map Prod.snd).Nodup

section Pages

variable {limit : Nat} {rows : List (α × κ)} {cursor : Option κ} {row : α × κ}

theorem waits_behind {key : κ} (goes : cursor ≠ none) : Behind cursor key ↔ Waits cursor key := by
  cases cursor with
  | none => exact absurd rfl goes
  | some c => simp [Behind, Waits]

theorem behind_perm : (behind rows cursor).Perm (rows.filter fun row => Behind cursor row.2) :=
  (List.perm_insertionSort _ _).trans (List.reverse_perm _)

theorem mem_behind : row ∈ behind rows cursor ↔ row ∈ rows ∧ Behind cursor row.2 := by
  rw [behind_perm.mem_iff, List.mem_filter, decide_eq_true_eq]

theorem behind_falls (distinct : Distinct rows) : (behind rows cursor).Pairwise fun a b => b.2 < a.2 := by
  have sorted : (behind rows cursor).Pairwise fun a b => b.2 ≤ a.2 := List.pairwise_insertionSort _ _
  have apart : (behind rows cursor).Pairwise fun a b => a.2 ≠ b.2 := by
    apply List.pairwise_map.mp
    refine (behind_perm.map Prod.snd).nodup_iff.mpr (distinct.keys.sublist ?_)
    exact List.filter_sublist.map Prod.snd
  exact (sorted.and apart).imp fun both => lt_of_le_of_ne both.1 both.2.symm

/-- A page shows the rows behind its cursor, as far as the cursor of the next page. -/
theorem mem_page (distinct : Distinct rows) (positive : 0 < limit) :
    row ∈ page limit rows cursor ↔
      row ∈ rows ∧ Behind cursor row.2 ∧ ¬ Waits (next limit rows cursor) row.2 := by
  rw [← and_assoc, ← mem_behind, page, next]
  split
  case isFalse short =>
    rw [List.take_of_length_le (Nat.le_of_not_lt short)]
    simp [Waits]
  case isTrue long =>
    have falls : (behind rows cursor).Pairwise fun a b => b.2 < a.2 := behind_falls distinct
    rw [page]
    generalize behind rows cursor = found at falls long ⊢
    have split := List.take_append_drop limit found
    have inhabited : found.take limit ≠ [] := by
      intro empty
      have lengths := congrArg List.length empty
      rw [List.length_take, List.length_nil] at lengths
      omega
    obtain ⟨shown, last, ends⟩ := (List.eq_nil_or_concat (found.take limit)).resolve_left inhabited
    rw [List.concat_eq_append] at ends
    rw [← split, List.pairwise_append] at falls
    obtain ⟨inside, _, across⟩ := falls
    rw [ends] at inside across
    rw [ends, List.getLast?_concat]
    have member : row ∈ found ↔ row ∈ shown ++ [last] ∨ row ∈ found.drop limit := by
      rw [← ends, ← List.mem_append, split]
    rw [member]
    simp only [Waits, Option.map_some, Option.mem_some_iff, exists_eq_left']
    constructor
    · intro here
      refine ⟨.inl here, not_lt.mpr ?_⟩
      rcases List.mem_append.mp here with early | same
      · exact ((List.pairwise_append.mp inside).2.2 row early last List.mem_cons_self).le
      · rw [List.mem_singleton.mp same]
    · rintro ⟨here | later, ahead⟩
      · exact here
      · exact absurd (across last (List.mem_append_right _ List.mem_cons_self) row later) ahead

/-- The cursor of the next page lies behind that of this one. -/
theorem next_behind {c : κ} (more : next limit rows cursor = some c) : Behind cursor c := by
  unfold next at more
  split at more
  case isFalse => cases more
  case isTrue =>
    obtain ⟨row, last, rfl⟩ := Option.map_eq_some_iff.mp more
    exact (mem_behind.mp (List.mem_of_mem_take (List.mem_of_getLast? last))).2

theorem waits_next {key : κ} (waits : Waits (next limit rows cursor) key) : Behind cursor key := by
  obtain ⟨c, more, before⟩ := waits
  exact fun d here => before.trans (next_behind more d here)

theorem behind_nodup (distinct : Distinct rows) : (behind rows cursor).Nodup :=
  (behind_falls distinct).imp fun below same => absurd (same ▸ below : _ < _) (lt_irrefl _)

/-- The rows behind the cursor of the next page are those that this page does not show. -/
theorem behind_next {c : κ} (distinct : Distinct rows) (positive : 0 < limit) (more : next limit rows cursor = some c) :
    behind rows (some c) = (behind rows cursor).drop limit := by
  have rest : ∀ row, row ∈ behind rows (some c) ↔ row ∈ (behind rows cursor).drop limit := by
    intro row
    have parts : row ∈ behind rows cursor ↔ row ∈ page limit rows cursor ∨ row ∈ (behind rows cursor).drop limit := by
      rw [page, ← List.mem_append, List.take_append_drop]
    have once : row ∈ page limit rows cursor → row ∉ (behind rows cursor).drop limit := fun here later =>
      List.disjoint_take_drop (behind_nodup distinct) le_rfl here later
    have shown := @mem_page _ _ _ limit rows cursor row distinct positive
    have later : Waits (next limit rows cursor) row.2 → Behind cursor row.2 := waits_next
    rw [mem_behind] at parts
    rw [mem_behind, waits_behind (Option.some_ne_none c), ← more]
    tauto
  have falls : (behind rows cursor).Pairwise fun a b => b.2 < a.2 := behind_falls distinct
  refine List.Perm.eq_of_pairwise (fun a b _ _ above below => absurd (above.trans below) (lt_irrefl _))
    (behind_falls distinct) (falls.sublist (List.drop_sublist limit _)) ?_
  exact (List.perm_ext_iff_of_nodup (behind_nodup distinct) ((behind_nodup distinct).sublist (List.drop_sublist limit _))).mpr
    rest

/-- A listing of an unchanged table ends: what holds at the last page, and at a page if it does at the next one, holds at
every page. -/
theorem pages_induction {motive : Option κ → Prop} (distinct : Distinct rows) (positive : 0 < limit)
    (last : ∀ cursor, next limit rows cursor = none → motive cursor)
    (more : ∀ cursor c, next limit rows cursor = some c → motive (some c) → motive cursor) (cursor : Option κ) :
    motive cursor := by
  induction left : (behind rows cursor).length using Nat.strongRecOn generalizing cursor with
  | ind left ih =>
      cases further : next limit rows cursor with
      | none => exact last cursor further
      | some c =>
          refine more cursor c further (ih _ ?_ (some c) rfl)
          have long : limit < (behind rows cursor).length := by
            by_contra short
            rw [next, if_neg short] at further
            cases further
          rw [behind_next distinct positive further, List.length_drop]
          omega

theorem count_page [DecidableEq α] {item : α} {key : κ} (distinct : Distinct rows) (positive : 0 < limit)
    (stands : (item, key) ∈ rows) :
    ((page limit rows cursor).map Prod.fst).count item =
      if Behind cursor key ∧ ¬ Waits (next limit rows cursor) key then 1 else 0 := by
  have found : ((behind rows cursor).map Prod.fst).Nodup :=
    (behind_perm.map Prod.fst).nodup_iff.mpr (distinct.items.sublist (List.filter_sublist.map Prod.fst))
  have shown : ((page limit rows cursor).map Prod.fst).Nodup :=
    found.sublist ((List.take_sublist limit (behind rows cursor)).map Prod.fst)
  rw [shown.count]
  congr 1
  rw [eq_iff_iff, List.mem_map]
  constructor
  · rintro ⟨row, here, named⟩
    obtain ⟨stood, facts⟩ := (mem_page distinct positive).mp here
    have same : row = (item, key) := List.inj_on_of_nodup_map distinct.items stood stands named
    rw [same] at facts
    exact facts
  · intro facts
    exact ⟨(item, key), (mem_page distinct positive).mpr ⟨stands, facts⟩, rfl⟩

end Pages

/-! ## Pages of a sorted list -/

section Sorted

variable {key : α → κ} {items first rest : List α} {last : α}

/-- What lies past an item of a climbing list is what stands after it. -/
theorem filter_past (climbing : (first ++ last :: rest).Pairwise fun a b => key a < key b) :
    (first ++ last :: rest).filter (fun item => key last < key item) = rest := by
  obtain ⟨_, after, across⟩ := List.pairwise_append.mp climbing
  obtain ⟨above, _⟩ := List.pairwise_cons.mp after
  have skipped : first.filter (fun item => key last < key item) = [] := by
    refine List.filter_eq_nil_iff.mpr fun item member => ?_
    simpa using (across item member last List.mem_cons_self).le
  have kept : rest.filter (fun item => key last < key item) = rest :=
    List.filter_eq_self.mpr fun item member => decide_eq_true (above item member)
  rw [List.filter_append, skipped, List.nil_append, List.filter_cons_of_neg (by simp), kept]

/-- The items past the last one of a page are those past the page. -/
theorem filter_past_page {size : Nat} (climbing : items.Pairwise fun a b => key a < key b)
    (ends : (items.take size).getLast? = some last) :
    items.filter (fun item => key last < key item) = items.drop size := by
  obtain ⟨first, split⟩ := List.getLast?_eq_some_iff.mp ends
  have whole : items = first ++ last :: items.drop size := by
    conv_lhs => rw [← List.take_append_drop size items, split, List.append_assoc, List.singleton_append]
  rw [whole] at climbing
  conv_lhs => rw [whole]
  exact filter_past climbing

end Sorted

/-! ## Listings -/

section Listings

variable (limit : Nat) (tables : Nat → List (α × κ))

/-- The cursor of each page, when the page before it was taken from its own table. -/
def cursorOf : Nat → Option κ
  | 0 => none
  | n + 1 => next limit (tables n) (cursorOf n)

/-- What the first `n` pages show. -/
def listed (n : Nat) : List α :=
  (List.range n).flatMap fun k => (page limit (tables k) (cursorOf limit tables k)).map Prod.fst

variable (key : Nat → κ)

/-- Between a page and the next one the item comes to stand ahead of the cursor, without having been shown. -/
def Rises (k : Nat) : Prop :=
  Waits (cursorOf limit tables (k + 1)) (key k) ∧ ¬ Waits (cursorOf limit tables (k + 1)) (key (k + 1))

/-- Between a page and the next one the item comes to stand behind the cursor again. -/
def Falls (k : Nat) : Prop :=
  ¬ Waits (cursorOf limit tables (k + 1)) (key k) ∧ Waits (cursorOf limit tables (k + 1)) (key (k + 1))

instance {k : Nat} : Decidable (Rises limit tables key k) := inferInstanceAs (Decidable (_ ∧ _))

instance {k : Nat} : Decidable (Falls limit tables key k) := inferInstanceAs (Decidable (_ ∧ _))

variable {limit tables key}

theorem listed_succ (n : Nat) : listed limit tables (n + 1) =
    listed limit tables n ++ (page limit (tables n) (cursorOf limit tables n)).map Prod.fst := by
  simp [listed, List.range_succ]

variable [DecidableEq α] {item : α}

/-- An item that stands in every table is shown once, but for the times it rose and fell. -/
theorem count_listed {n : Nat} (positive : 0 < limit) (distinct : ∀ k ≤ n, Distinct (tables k))
    (stands : ∀ k ≤ n, (item, key k) ∈ tables k) (goes : ∀ k < n, cursorOf limit tables (k + 1) ≠ none) :
    (listed limit tables (n + 1)).count item + (List.range n).countP (Rises limit tables key ·) +
        (if Waits (cursorOf limit tables (n + 1)) (key n) then 1 else 0) =
      1 + (List.range n).countP (Falls limit tables key ·) := by
  induction n with
  | zero =>
      rw [listed_succ, List.count_append, count_page (distinct 0 le_rfl) positive (stands 0 le_rfl)]
      have here : Behind (cursorOf limit tables 0) (key 0) := fun c member => by cases member
      have later : next limit (tables 0) (cursorOf limit tables 0) = cursorOf limit tables 1 := rfl
      simp only [here, true_and, later, listed, List.range_zero, List.flatMap_nil, List.count_nil, List.countP_nil]
      split <;> simp_all
  | succ n ih =>
      have before := ih (fun k small => distinct k (Nat.le_succ_of_le small))
        (fun k small => stands k (Nat.le_succ_of_le small)) fun k small => goes k (Nat.lt_succ_of_lt small)
      rw [listed_succ, List.count_append, count_page (distinct (n + 1) le_rfl) positive (stands (n + 1) le_rfl)]
      have later : next limit (tables (n + 1)) (cursorOf limit tables (n + 1)) = cursorOf limit tables (n + 2) := rfl
      have waited : Waits (cursorOf limit tables (n + 2)) (key (n + 1)) →
          Waits (cursorOf limit tables (n + 1)) (key (n + 1)) :=
        fun waits => (waits_behind (goes n (Nat.lt_succ_self n))).mp (waits_next waits)
      have open_ : Behind (cursorOf limit tables (n + 1)) (key (n + 1)) ↔ Waits (cursorOf limit tables (n + 1)) (key (n + 1)) :=
        waits_behind (goes n (Nat.lt_succ_self n))
      simp only [later, open_, List.range_succ, List.countP_append, List.countP_singleton, Rises, Falls] at before ⊢
      by_cases waits : Waits (cursorOf limit tables (n + 1)) (key n) <;>
        by_cases shown : Waits (cursorOf limit tables (n + 1)) (key (n + 1)) <;>
        by_cases more : Waits (cursorOf limit tables (n + 2)) (key (n + 1)) <;>
        simp_all <;> omega

/-- An item that stands in every table is shown exactly once if it rises as often as it falls. -/
theorem listed_once_iff {n : Nat} (positive : 0 < limit) (distinct : ∀ k ≤ n, Distinct (tables k))
    (stands : ∀ k ≤ n, (item, key k) ∈ tables k) (goes : ∀ k < n, cursorOf limit tables (k + 1) ≠ none)
    (ends : cursorOf limit tables (n + 1) = none) :
    (listed limit tables (n + 1)).count item = 1 ↔
      (List.range n).countP (Rises limit tables key ·) = (List.range n).countP (Falls limit tables key ·) := by
  have counted := count_listed positive distinct stands goes
  have done : ¬ Waits (cursorOf limit tables (n + 1)) (key n) := by
    rintro ⟨c, member, _⟩
    rw [ends] at member
    cases member
  rw [if_neg done] at counted
  omega

end Listings

end Paging
