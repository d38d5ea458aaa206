import Mathlib
/- Keyed tables: the rows of a relation with a primary key, in insertion order. -/

namespace Keyed

/-- Rows in rowid order. The primary key is unique by construction. -/
structure Table (κ ρ : Type) where
  rows : List (κ × ρ)
  keys_nodup : (rows.map Prod.fst).Nodup

namespace Table

variable {κ ρ : Type} [DecidableEq κ]

def empty : Table κ ρ := ⟨[], List.nodup_nil⟩

/-- `SELECT … WHERE key = k`. -/
def get? (t : Table κ ρ) (k : κ) : Option ρ := t.rows.lookup k

/-- Some row with this key satisfies the rest of the `WHERE` clause. -/
def holds (t : Table κ ρ) (k : κ) (p : ρ → Bool) : Bool := (t.get? k).any p

/-- `EXISTS(SELECT 1 … WHERE p)`. -/
def anyRow (t : Table κ ρ) (p : κ → ρ → Bool) : Bool := t.rows.any fun row => p row.1 row.2

/-- `SELECT … WHERE p ORDER BY rowid`. -/
def select (t : Table κ ρ) (p : κ → ρ → Bool) : List (κ × ρ) :=
  t.rows.filter fun row => p row.1 row.2

/-- An `UPDATE` of every row; a `WHERE` clause is a test inside `f`. -/
def mapRows (t : Table κ ρ) (f : κ → ρ → ρ) : Table κ ρ :=
  ⟨t.rows.map fun row => (row.1, f row.1 row.2), by
    have same : (fun row : κ × ρ => (row.1, f row.1 row.2).1) = Prod.fst := rfl
    rw [List.map_map, Function.comp_def, same]
    exact t.keys_nodup⟩

/-- `UPDATE … WHERE key = k`. -/
def modify (t : Table κ ρ) (k : κ) (f : ρ → ρ) : Table κ ρ :=
  t.mapRows fun k' v => if k' = k then f v else v

/-- The rows of `after` whose key is not in `before`, oldest first. -/
def inserted (before after : Table κ ρ) : List (κ × ρ) :=
  after.rows.filter fun row => before.get? row.1 = none

/-- `DELETE … WHERE p`. -/
def deleteWhere (t : Table κ ρ) (p : κ → ρ → Bool) : Table κ ρ :=
  ⟨t.rows.filter fun row => !p row.1 row.2, t.keys_nodup.sublist (List.filter_sublist.map _)⟩

theorem get?_eq_none_iff (t : Table κ ρ) (k : κ) : t.get? k = none ↔ k ∉ t.rows.map Prod.fst := by
  rw [get?, List.lookup_eq_none_iff]
  constructor
  · intro absent member
    obtain ⟨row, hrow, same⟩ := List.mem_map.mp member
    exact bne_iff_ne.mp (absent row hrow) same.symm
  · intro absent row hrow
    exact bne_iff_ne.mpr fun same => absent (same ▸ List.mem_map_of_mem hrow)

/-- Appends a row whose key is new; a taken key leaves the table alone. -/
def add (t : Table κ ρ) (k : κ) (v : ρ) : Table κ ρ :=
  if fresh : t.get? k = none then
    ⟨t.rows ++ [(k, v)], by
      rw [List.map_append]
      refine List.nodup_append.mpr ⟨t.keys_nodup, by simp, ?_⟩
      rintro a hold b hnew rfl
      have taken : a = k := by simpa using hnew
      exact (get?_eq_none_iff t k).mp fresh (taken ▸ hold)⟩
  else t

/-- `INSERT … ON CONFLICT(key) DO UPDATE`. -/
def put (t : Table κ ρ) (k : κ) (v : ρ) : Table κ ρ :=
  if t.get? k = none then t.add k v else t.modify k fun _ => v

theorem get?_of_mem (t : Table κ ρ) {k : κ} {v : ρ} (member : (k, v) ∈ t.rows) :
    t.get? k = some v := by
  obtain ⟨rows, distinct⟩ := t
  change rows.lookup k = some v
  induction rows with
  | nil => cases member
  | cons row rows ih =>
      rw [List.map_cons, List.nodup_cons] at distinct
      rcases List.mem_cons.mp member with rfl | later
      · simp
      · have differs : k ≠ row.1 := fun same =>
          distinct.1 (same ▸ List.mem_map_of_mem (f := Prod.fst) later)
        rw [List.lookup_cons, beq_eq_false_iff_ne.mpr differs]
        exact ih distinct.2 later

theorem mem_of_get? (t : Table κ ρ) {k : κ} {v : ρ} (found : t.get? k = some v) :
    (k, v) ∈ t.rows := by
  unfold get? at found
  generalize t.rows = rows at found ⊢
  induction rows with
  | nil => cases found
  | cons row rows ih =>
      rw [List.lookup_cons] at found
      by_cases same : k = row.1
      · subst same
        simp only [beq_self_eq_true, Option.some.injEq] at found
        subst found
        exact List.mem_cons_self
      · rw [beq_eq_false_iff_ne.mpr same] at found
        exact List.mem_cons_of_mem _ (ih found)

/-- The stored rows are exactly what keyed lookup finds. -/
theorem mem_rows_iff (t : Table κ ρ) {k : κ} {v : ρ} : (k, v) ∈ t.rows ↔ t.get? k = some v :=
  ⟨t.get?_of_mem, t.mem_of_get?⟩

theorem mem_select (t : Table κ ρ) (p : κ → ρ → Bool) {k : κ} {v : ρ} :
    (k, v) ∈ t.select p ↔ t.get? k = some v ∧ p k v = true := by
  rw [select, List.mem_filter, mem_rows_iff]

theorem anyRow_iff (t : Table κ ρ) (p : κ → ρ → Bool) :
    t.anyRow p = true ↔ ∃ k v, t.get? k = some v ∧ p k v = true := by
  rw [anyRow, List.any_eq_true]
  constructor
  · rintro ⟨⟨k, v⟩, member, holds⟩
    exact ⟨k, v, t.mem_rows_iff.mp member, holds⟩
  · rintro ⟨k, v, found, holds⟩
    exact ⟨(k, v), t.mem_rows_iff.mpr found, holds⟩

@[simp] theorem get?_empty (k : κ) : (empty : Table κ ρ).get? k = none := rfl

@[simp] theorem get?_mapRows (t : Table κ ρ) (f : κ → ρ → ρ) (k : κ) :
    (t.mapRows f).get? k = (t.get? k).map (f k) := by
  obtain ⟨rows, distinct⟩ := t
  change (rows.map fun row => (row.1, f row.1 row.2)).lookup k = (rows.lookup k).map (f k)
  clear distinct
  induction rows with
  | nil => rfl
  | cons row rows ih =>
      rw [List.map_cons, List.lookup_cons, List.lookup_cons]
      by_cases same : k = row.1
      · subst same
        simp
      · simpa only [beq_eq_false_iff_ne.mpr same] using ih

@[simp] theorem get?_modify (t : Table κ ρ) (k k' : κ) (f : ρ → ρ) :
    (t.modify k f).get? k' = if k' = k then (t.get? k').map f else t.get? k' := by
  rw [modify, get?_mapRows]
  split
  · rfl
  · exact Option.map_id'

theorem rows_add_fresh (t : Table κ ρ) {k : κ} (v : ρ) (fresh : t.get? k = none) :
    (t.add k v).rows = t.rows ++ [(k, v)] := by
  rw [add, dif_pos fresh]

theorem get?_add_fresh (t : Table κ ρ) {k : κ} (v : ρ) (fresh : t.get? k = none) (k' : κ) :
    (t.add k v).get? k' = if k' = k then some v else t.get? k' := by
  rw [add, dif_pos fresh]
  change (t.rows ++ [(k, v)]).lookup k' = _
  rw [List.lookup_append]
  by_cases same : k' = k
  · subst same
    rw [show t.rows.lookup k' = none from fresh]
    simp
  · simp [List.lookup_cons, same, beq_eq_false_iff_ne.mpr same, get?]

@[simp] theorem get?_put (t : Table κ ρ) (k k' : κ) (v : ρ) :
    (t.put k v).get? k' = if k' = k then some v else t.get? k' := by
  rw [put]
  split
  case isTrue fresh => exact t.get?_add_fresh v fresh k'
  case isFalse held =>
    rw [get?_modify]
    split
    case isTrue same =>
      subst same
      obtain ⟨old, found⟩ := Option.ne_none_iff_exists'.mp held
      rw [found, Option.map_some]
    case isFalse => rfl

@[simp] theorem get?_deleteWhere (t : Table κ ρ) (p : κ → ρ → Bool) (k : κ) :
    (t.deleteWhere p).get? k = (t.get? k).filter fun v => !p k v := by
  apply Option.ext
  intro v
  rw [← mem_rows_iff, deleteWhere, List.mem_filter, mem_rows_iff, Option.filter_eq_some_iff]

theorem inserted_append {before after : Table κ ρ} {new : List (κ × ρ)}
    (same : after.rows = before.rows ++ new) : inserted before after = new := by
  have distinct := after.keys_nodup
  rw [same, List.map_append, List.nodup_append] at distinct
  obtain ⟨_, _, apart⟩ := distinct
  have old : before.rows.filter (fun row => before.get? row.1 = none) = [] := by
    rw [List.filter_eq_nil_iff]
    intro row member absent
    rw [decide_eq_true_eq, before.mem_rows_iff.mp member] at absent
    cases absent
  have fresh : new.filter (fun row => before.get? row.1 = none) = new := by
    rw [List.filter_eq_self]
    intro row member
    rw [decide_eq_true_eq, get?_eq_none_iff]
    intro held
    exact apart _ held _ (List.mem_map_of_mem member) rfl
  rw [inserted, same, List.filter_append, old, fresh, List.nil_append]

@[simp] theorem inserted_deleteWhere (t : Table κ ρ) (p : κ → ρ → Bool) : inserted t (t.deleteWhere p) = [] := by
  rw [inserted, List.filter_eq_nil_iff]
  intro row member absent
  rw [decide_eq_true_eq, t.mem_rows_iff.mp ((List.mem_filter.mp member).1)] at absent
  cases absent

/-- A primary key selects at most one row. -/
theorem select_key (t : Table κ ρ) {k : κ} {v : ρ} {p : ρ → Bool} (found : t.get? k = some v)
    (holds : p v = true) : t.select (fun key row => key = k && p row) = [(k, v)] := by
  have only : ∀ row ∈ t.select (fun key row => key = k && p row), row = (k, v) := by
    rintro ⟨key, row⟩ member
    obtain ⟨held, chosen⟩ := (t.mem_select _).mp member
    rw [Bool.and_eq_true, decide_eq_true_eq] at chosen
    obtain ⟨rfl, _⟩ := chosen
    rw [Option.some.inj (held.symm.trans found)]
  have present : (k, v) ∈ t.select (fun key row => key = k && p row) :=
    (t.mem_select _).mpr ⟨found, by rw [Bool.and_eq_true, decide_eq_true_eq]; exact ⟨rfl, holds⟩⟩
  have distinct : (t.select fun key row => key = k && p row).Nodup :=
    (List.Pairwise.of_map Prod.fst (fun _ _ differs same => differs (congrArg _ same)) t.keys_nodup).filter _
  generalize t.select (fun key row => key = k && p row) = selected at only present distinct
  cases selected with
  | nil => cases present
  | cons first rest =>
      rw [only first List.mem_cons_self] at distinct ⊢
      cases rest with
      | nil => rfl
      | cons second rest =>
          have twice := (List.nodup_cons.mp distinct).1
          rw [only second (List.mem_cons_of_mem _ List.mem_cons_self)] at twice
          exact absurd List.mem_cons_self twice

/-- `INSERT OR IGNORE`: a row whose primary key is taken is left out, and one that breaks a further constraint. -/
def addUnless (clash : Table κ ρ → κ → ρ → Bool) (t : Table κ ρ) (row : κ × ρ) : Table κ ρ :=
  if clash t row.1 row.2 then t else t.add row.1 row.2

/-- `INSERT OR IGNORE … SELECT`. -/
def insertOrIgnore (clash : Table κ ρ → κ → ρ → Bool) (rows : List (κ × ρ)) (t : Table κ ρ) : Table κ ρ :=
  rows.foldl (addUnless clash) t

section InsertOrIgnore

variable {clash : Table κ ρ → κ → ρ → Bool} {rows : List (κ × ρ)} {row : κ × ρ} {t : Table κ ρ} {k : κ} {v : ρ}

theorem addUnless_taken (taken : t.get? row.1 ≠ none) : addUnless clash t row = t := by
  rw [addUnless, add, dif_neg taken, ite_self]

theorem addUnless_kept (held : t.get? k = some v) : (addUnless clash t row).get? k = some v := by
  by_cases fresh : t.get? row.1 = none
  · rw [addUnless]
    split
    · exact held
    · rw [t.get?_add_fresh row.2 fresh, if_neg, held]
      rintro rfl
      rw [held] at fresh
      cases fresh
  · rw [addUnless_taken fresh, held]

theorem addUnless_new (held : (addUnless clash t row).get? k = some v) :
    t.get? k = some v ∨ (t.get? k = none ∧ (k, v) = row ∧ clash t k v = false) := by
  by_cases fresh : t.get? row.1 = none
  · rw [addUnless] at held
    split at held
    · exact .inl held
    case isFalse clear =>
      rw [t.get?_add_fresh row.2 fresh] at held
      split at held
      case isTrue same =>
        subst same
        cases held
        exact .inr ⟨fresh, rfl, Bool.eq_false_iff.mpr clear⟩
      case isFalse => exact .inl held
  · rw [addUnless_taken fresh] at held
    exact .inl held

/-- A free key stays free unless its own row comes. -/
theorem addUnless_free (free : t.get? k = none) (apart : row.1 ≠ k) : (addUnless clash t row).get? k = none := by
  rcases held : (addUnless clash t row).get? k with _ | other
  · rfl
  · rcases addUnless_new held with stored | ⟨_, rfl, _⟩
    · rw [free] at stored
      cases stored
    · exact absurd rfl apart

theorem insertOrIgnore_cons :
    t.insertOrIgnore clash (row :: rows) = (addUnless clash t row).insertOrIgnore clash rows := rfl

/-- What the table holds stays. -/
theorem insertOrIgnore_kept (held : t.get? k = some v) : (t.insertOrIgnore clash rows).get? k = some v := by
  induction rows generalizing t with
  | nil => exact held
  | cons row rows ih => exact ih (addUnless_kept held)

/-- What is new comes from the rows, under a key that was free, and clashed with nothing that was there. -/
theorem insertOrIgnore_new (held : (t.insertOrIgnore clash rows).get? k = some v) :
    t.get? k = some v ∨ (t.get? k = none ∧ (k, v) ∈ rows ∧ ∃ t' : Table κ ρ,
      (∀ k' v', t.get? k' = some v' → t'.get? k' = some v') ∧ clash t' k v = false) := by
  induction rows generalizing t with
  | nil => exact .inl held
  | cons row rows ih =>
      rcases ih held with stored | ⟨free, member, t', grown, clear⟩
      · rcases addUnless_new stored with old | ⟨fresh, rfl, clear⟩
        · exact .inl old
        · exact .inr ⟨fresh, List.mem_cons_self, t, fun _ _ => id, clear⟩
      · refine .inr ⟨?_, List.mem_cons_of_mem _ member, t', fun k' v' old => grown k' v' (addUnless_kept old), clear⟩
        rcases found : t.get? k with _ | old
        · rfl
        · exact (addUnless_kept found).symm.trans free

/-- A row under a free key is stored when nothing that is stored before it can clash with it. -/
theorem insertOrIgnore_stored (distinct : (rows.map Prod.fst).Nodup) (free : t.get? k = none) (member : (k, v) ∈ rows)
    (clear : ∀ t' : Table κ ρ, (∀ k' v', t'.get? k' = some v' →
      t.get? k' = some v' ∨ ((k', v') ∈ rows ∧ k' ≠ k)) → clash t' k v = false) :
    (t.insertOrIgnore clash rows).get? k = some v := by
  induction rows generalizing t with
  | nil => cases member
  | cons row rows ih =>
      rw [List.map_cons, List.nodup_cons] at distinct
      rcases List.mem_cons.mp member with rfl | later
      · have passes := clear t fun _ _ held => .inl held
        have stored : (addUnless clash t (k, v)).get? k = some v := by
          show (if clash t k v then t else t.add k v).get? k = some v
          rw [if_neg (Bool.eq_false_iff.mp passes), t.get?_add_fresh v free, if_pos rfl]
        rw [insertOrIgnore_cons]
        exact insertOrIgnore_kept stored
      · have apart : row.1 ≠ k := fun same => distinct.1 (same ▸ List.mem_map_of_mem (f := Prod.fst) later)
        refine ih distinct.2 (addUnless_free free apart) later ?_
        intro t' bounded
        refine clear t' fun k' v' held => ?_
        rcases bounded k' v' held with stored | ⟨listed, differs⟩
        · rcases addUnless_new stored with old | ⟨_, rfl, _⟩
          · exact .inl old
          · exact .inr ⟨List.mem_cons_self, apart⟩
        · exact .inr ⟨List.mem_cons_of_mem _ listed, differs⟩

end InsertOrIgnore

theorem holds_iff (t : Table κ ρ) (k : κ) (p : ρ → Bool) :
    t.holds k p = true ↔ ∃ v, t.get? k = some v ∧ p v = true := by
  rw [holds, Option.any_eq_true]

end Table

end Keyed
