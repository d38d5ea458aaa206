import LatteCode.Client.Listing
/- The catalog queries of a workspace: the list, the search and the lookup by title, page by page and at once. -/

namespace LatteCode.Client
open Keyed Outcome Paging Storage

structure SessionSummary where
  sessionId : SessionId
  title : String
  workspaceRoot : String
  parentSessionId : Option SessionId
  lifecycle : SessionLifecycle
  providerName : String
  model : String
  createdAtMs : Nat
  updatedAtMs : Nat

/-! ## Queries -/

section Queries

variable (E : Environment) (db : E.Db)

/-- `session_summary_row` of the typed columns. -/
def sessionSummary (sessionId : SessionId) (row : SessionRow) : SessionSummary where
  sessionId := sessionId
  title := row.title
  workspaceRoot := row.workspaceRoot
  parentSessionId := row.parentSessionId
  lifecycle := row.lifecycle
  providerName := row.binding.providerName
  model := row.binding.model
  createdAtMs := row.createdAtMs
  updatedAtMs := row.updatedAtMs

/-- The summaries of the rows that a `WHERE` clause selects, with the columns they are ordered by. -/
def catalogRows (selects : SessionId → SessionRow → Bool) : List (SessionSummary × SessionKey) :=
  (db.sessions.rows.zipIdx.filter fun row => selects row.1.1 row.1.2).map fun row =>
    (sessionSummary row.1.1 row.1.2, toLex (row.1.2.updatedAtMs, row.2 + 1))

/-- The whole selection, `ORDER BY updated_at_ms DESC,rowid DESC LIMIT`. -/
def catalogHead (selects : SessionId → SessionRow → Bool) (limit : Nat) : List SessionSummary :=
  ((behind (catalogRows E db selects) none).take limit).map Prod.fst

def catalogPage (selects : SessionId → SessionRow → Bool) (cursor : Option String) (limit : Nat) :
    Except StorageError (Paged SessionSummary) := do
  let keyset ← cursor.mapM decodeSessionCursor
  let fetch := min (limit + 1) 501
  let pageRows := (behind (catalogRows E db selects) keyset).take fetch
  let nextCursor := if pageRows.length > limit then (pageRows[limit - 1]?).map fun row => encodeSessionCursor row.2 else none
  .ok ⟨(pageRows.take limit).map Prod.fst, nextCursor⟩

def listSessionsForWorkspace (workspaceRoot : String) : Except StorageError (List SessionSnapshot) := do
  validateWorkspaceRoot workspaceRoot
  (behind (sessionKeys E db workspaceRoot) none).mapM fun row =>
    currentSessionSnapshot E db row.1 SESSION_PROJECTION_TRANSCRIPT_LIMIT

/-- SQL `lower`, which changes ASCII letters only. -/
def sqlLower (text : String) : String := text.map Char.toLower

/-- `instr(text, part) > 0`. -/
def holds (text part : String) : Bool := decide (part.toList <:+: text.toList)

/-- The search clause, for a query that is trimmed and in lower case. -/
def matchesQuery (workspaceRoot query : String) (sessionId : SessionId) (row : SessionRow) : Bool :=
  row.workspaceRoot = workspaceRoot &&
    (query = "" || holds (sqlLower row.title) query || holds (sqlLower sessionId.toString) query)

section Search

variable (toLowercase : String → String)

def searchSessions (workspaceRoot query : String) (limit : Nat) : Except StorageError (List SessionSummary) :=
  if limit = 0 then .ok []
  else do
    validateWorkspaceRoot workspaceRoot
    let query := toLowercase (trim query)
    .ok (catalogHead E db (matchesQuery workspaceRoot query) (min limit 500))

def searchSessionsPaged (workspaceRoot query : String) (cursor : Option String) (limit : Nat) :
    Except StorageError (Paged SessionSummary) :=
  if limit = 0 then .ok ⟨[], none⟩
  else do
    validateWorkspaceRoot workspaceRoot
    let query := toLowercase (trim query)
    catalogPage E db (matchesQuery workspaceRoot query) cursor (min limit 500)

end Search

def titled (workspaceRoot title : String) (_ : SessionId) (row : SessionRow) : Bool :=
  row.workspaceRoot = workspaceRoot && row.title = title

def findSessionsByExactTitleForWorkspace (workspaceRoot title : String) (limit : Nat) :
    Except StorageError (List SessionSummary) :=
  if title.isEmpty ∨ limit = 0 then .ok []
  else do
    validateWorkspaceRoot workspaceRoot
    .ok (catalogHead E db (titled workspaceRoot title) (min limit 500))

def findSessionsByExactTitleForWorkspacePaged (workspaceRoot title : String) (cursor : Option String) (limit : Nat) :
    Except StorageError (Paged SessionSummary) :=
  if title.isEmpty ∨ limit = 0 then .ok ⟨[], none⟩
  else do
    validateWorkspaceRoot workspaceRoot
    catalogPage E db (titled workspaceRoot title) cursor (min limit 500)

end Queries

/-! ## Pages that are followed -/

/-- The items of the pages from a cursor on, up to the first page without a next cursor. -/
inductive Followed {T : Type} (fetch : Option String → Except StorageError (Paged T)) : Option String → List T → Prop
  | last {cursor : Option String} {items : List T} (shown : fetch cursor = .ok ⟨items, none⟩) : Followed fetch cursor items
  | more {cursor : Option String} {next : String} {items rest : List T} (shown : fetch cursor = .ok ⟨items, some next⟩)
      (later : Followed fetch (some next) rest) : Followed fetch cursor (items ++ rest)

/-- Each of the rows once, those with the greatest keys first. -/
def Newest {α : Type} (rows : List (α × SessionKey)) (items : List α) : Prop :=
  ∃ sorted : List (α × SessionKey), sorted.Perm rows ∧ (sorted.Pairwise fun a b => b.2 < a.2) ∧ items = sorted.map Prod.fst

/-- Whether the numbers of a key are 64-bit integers, as those of the columns are. -/
def Storable (key : SessionKey) : Prop := key.1 < 2 ^ 63 ∧ key.2 < 2 ^ 63

def Stored {E : Environment} (db : E.Db) : Prop :=
  (∀ row ∈ db.sessions.rows, row.2.updatedAtMs < 2 ^ 63) ∧ db.sessions.rows.length < 2 ^ 63

section Followed

variable {T α : Type} {fetch : Option String → Except StorageError (Paged T)} {rows : List (α × SessionKey)} {limit : Nat}
  {read : α × SessionKey → Except StorageError T}

/-- The page behind a key that a cursor holds: the library's page, each row of which is read. -/
def Pages (fetch : Option String → Except StorageError (Paged T)) (limit : Nat) (rows : List (α × SessionKey))
    (read : α × SessionKey → Except StorageError T) : Prop :=
  ∀ cursor : Option SessionKey, (∀ key ∈ cursor, Storable key) →
    ∃ items, (page limit rows cursor).mapM read = .ok items ∧
      fetch (cursor.map encodeSessionCursor) = .ok ⟨items, (next limit rows cursor).map encodeSessionCursor⟩

theorem next_storable (stored : ∀ row ∈ rows, Storable row.2) {cursor : Option SessionKey} {key : SessionKey}
    (more : next limit rows cursor = some key) : Storable key := by
  unfold next at more
  split at more
  case isFalse => cases more
  case isTrue =>
    obtain ⟨row, last, rfl⟩ := Option.map_eq_some_iff.mp more
    exact stored row (mem_behind.mp (List.mem_of_mem_take (List.mem_of_getLast? last))).1

/-- The pages of an unchanged table are all that is behind the first cursor. -/
theorem Pages.followed (pages : Pages fetch limit rows read) (distinct : Distinct rows) (positive : 0 < limit)
    (stored : ∀ row ∈ rows, Storable row.2) (cursor : Option SessionKey) (fits : ∀ key ∈ cursor, Storable key) :
    ∃ all, Followed fetch (cursor.map encodeSessionCursor) all ∧ (behind rows cursor).mapM read = .ok all := by
  induction cursor using pages_induction distinct positive with
  | last cursor ends =>
      obtain ⟨items, taken, shown⟩ := pages cursor fits
      rw [ends, Option.map_none] at shown
      have whole : page limit rows cursor = behind rows cursor := by
        rw [page, List.take_of_length_le]
        by_contra long
        rw [next, if_pos (Nat.lt_of_not_le long), page] at ends
        have empty := List.getLast?_eq_none_iff.mp (Option.map_eq_none_iff.mp ends)
        have lengths := congrArg List.length empty
        rw [List.length_take, List.length_nil] at lengths
        omega
      exact ⟨items, .last shown, whole ▸ taken⟩
  | more cursor key further ih =>
      obtain ⟨items, taken, shown⟩ := pages cursor fits
      rw [further, Option.map_some] at shown
      obtain ⟨rest, later, others⟩ := ih fun other held => by
        cases held
        exact next_storable stored further
      refine ⟨items ++ rest, .more shown later, ?_⟩
      rw [behind_next distinct positive further] at others
      rw [← List.take_append_drop limit (behind rows cursor), List.mapM_append, bind_ok]
      exact ⟨items, taken, bind_ok.mpr ⟨rest, others, rfl⟩⟩

theorem Followed.unique {cursor : Option String} {one two : List T} (first : Followed fetch cursor one)
    (second : Followed fetch cursor two) : one = two := by
  induction first generalizing two with
  | last shown =>
      cases second with
      | last other =>
          rw [shown] at other
          cases other
          rfl
      | more other later =>
          rw [shown] at other
          cases other
  | more shown later ih =>
      cases second with
      | last other =>
          rw [shown] at other
          cases other
      | more other further =>
          rw [shown] at other
          cases other
          rw [ih further]

/-- The pages of a query come to an end and are these items together; each cursor that is handed out is accepted. -/
structure Complete (fetch : Option String → Except StorageError (Paged T)) (all : List T) : Prop where
  followed : ∀ items, Followed fetch none items ↔ items = all
  accepted : ∀ cursor value next, fetch cursor = .ok value → value.nextCursor = some next →
    ∃ key, decodeSessionCursor next = .ok key

theorem nothing_complete : Complete (fun _ => .ok (⟨[], none⟩ : Paged T)) [] := by
  refine ⟨fun items => ⟨fun other => other.unique (.last rfl), fun same => same ▸ .last rfl⟩, ?_⟩
  intro cursor value next shown further
  cases shown
  cases further

/-- The cursor of a page, whatever cursor the page was asked for. -/
def Hands (fetch : Option String → Except StorageError (Paged T)) (limit : Nat) (rows : List (α × SessionKey)) : Prop :=
  ∀ cursor value, fetch cursor = .ok value →
    ∃ keyset, value.nextCursor = (next limit rows keyset).map encodeSessionCursor

theorem Hands.accepted (hands : Hands fetch limit rows) (stored : ∀ row ∈ rows, Storable row.2) {cursor : Option String}
    {value : Paged T} {cursor' : String} (shown : fetch cursor = .ok value) (further : value.nextCursor = some cursor') :
    ∃ key, decodeSessionCursor cursor' = .ok key := by
  obtain ⟨keyset, given⟩ := hands cursor value shown
  rw [further] at given
  obtain ⟨key, more, rfl⟩ := Option.map_eq_some_iff.mp given.symm
  exact ⟨key, (decodeSessionCursor_encode key).trans (if_pos (next_storable stored more))⟩

theorem Pages.complete (pages : Pages fetch limit rows read) (hands : Hands fetch limit rows) (distinct : Distinct rows)
    (positive : 0 < limit) (stored : ∀ row ∈ rows, Storable row.2) :
    ∃ all, Complete fetch all ∧ (behind rows none).mapM read = .ok all := by
  obtain ⟨all, followed, taken⟩ := pages.followed distinct positive stored none nofun
  refine ⟨all, ⟨fun items => ⟨fun other => other.unique followed, fun same => same ▸ followed⟩, ?_⟩, taken⟩
  exact fun cursor value next shown further => hands.accepted stored shown further

end Followed

section Complete

variable {E : Environment} {db : E.Db} {workspaceRoot : String} {limit : Nat} {selects : SessionId → SessionRow → Bool}

theorem newest_behind {α : Type} {rows : List (α × SessionKey)} (distinct : Distinct rows) :
    Newest rows ((behind rows none).map Prod.fst) := by
  refine ⟨behind rows none, ?_, behind_falls distinct, rfl⟩
  have all : rows.filter (fun row => Behind none row.2) = rows :=
    List.filter_eq_self.mpr fun row _ => decide_eq_true (by simp [Behind])
  have same := @behind_perm _ _ _ rows none
  rwa [all] at same

theorem catalogRows_distinct (db : E.Db) (selects : SessionId → SessionRow → Bool) :
    Distinct (catalogRows E db selects) := by
  have places : (db.sessions.rows.zipIdx.map Prod.snd).Nodup := by
    rw [List.zipIdx_map_snd]
    exact List.nodup_range'
  have ids : (db.sessions.rows.zipIdx.map (Prod.fst ∘ Prod.fst)).Nodup := by
    rw [← List.map_map, List.zipIdx_map_fst]
    exact db.sessions.keys_nodup
  constructor
  · rw [catalogRows, List.map_map]
    apply List.Nodup.of_map SessionSummary.sessionId
    rw [List.map_map]
    exact ids.sublist (List.filter_sublist.map _)
  · rw [catalogRows, List.map_map]
    apply List.Nodup.of_map fun key : SessionKey => key.2 - 1
    rw [List.map_map]
    exact places.sublist (List.filter_sublist.map Prod.snd)

theorem place_storable (stored : Stored db) {row : (SessionId × SessionRow) × Nat} (held : row ∈ db.sessions.rows.zipIdx) :
    Storable (toLex (row.1.2.updatedAtMs, row.2 + 1)) := by
  have inside := List.snd_lt_of_mem_zipIdx held
  exact ⟨stored.1 row.1 (List.fst_mem_of_mem_zipIdx held), by
    change row.2 + 1 < _
    have := stored.2
    omega⟩

theorem catalogRows_storable (stored : Stored db) : ∀ row ∈ catalogRows E db selects, Storable row.2 := by
  intro row held
  obtain ⟨entry, kept, rfl⟩ := List.mem_map.mp held
  exact place_storable stored (List.mem_filter.mp kept).1

theorem sessionKeys_storable (stored : Stored db) : ∀ row ∈ sessionKeys E db workspaceRoot, Storable row.2 := by
  intro row held
  obtain ⟨entry, kept, rfl⟩ := List.mem_map.mp held
  exact place_storable stored (List.mem_filter.mp kept).1

/-- One row more than a page shows is fetched, which tells whether there is a next page. -/
theorem fetched_page {α : Type} {rows : List (α × SessionKey)} {cursor : Option SessionKey} :
    ((behind rows cursor).take (min (min limit 500 + 1) 501)).take (min limit 500) = page (min limit 500) rows cursor := by
  rw [List.take_take, Nat.min_eq_left (by omega)]
  rfl

theorem fetched_cursor {α : Type} {rows : List (α × SessionKey)} {cursor : Option SessionKey} (positive : 0 < limit) :
    (if ((behind rows cursor).take (min (min limit 500 + 1) 501)).length > min limit 500 then
      (((behind rows cursor).take (min (min limit 500 + 1) 501))[min limit 500 - 1]?).map fun row =>
        encodeSessionCursor row.2 else none) = (next (min limit 500) rows cursor).map encodeSessionCursor := by
  have bound : min (min limit 500 + 1) 501 = min limit 500 + 1 := by omega
  rw [bound, fetched_next (by omega)]

theorem catalogPage_pages (positive : 0 < limit) :
    Pages (fun cursor => catalogPage E db selects cursor (min limit 500)) (min limit 500) (catalogRows E db selects)
      fun row => .ok row.1 := by
  intro cursor fits
  refine ⟨(page (min limit 500) (catalogRows E db selects) cursor).map Prod.fst, List.mapM_pure, ?_⟩
  simp only [catalogPage, bind_ok]
  refine ⟨cursor, decodeSessionCursor_encoded fits, ?_⟩
  rw [fetched_page, fetched_cursor positive]

theorem catalogPage_hands (positive : 0 < limit) :
    Hands (fun cursor => catalogPage E db selects cursor (min limit 500)) (min limit 500) (catalogRows E db selects) := by
  intro cursor value shown
  simp only [catalogPage, bind_ok, Except.ok.injEq] at shown
  obtain ⟨keyset, _, rfl⟩ := shown
  exact ⟨keyset, fetched_cursor positive⟩

/-- The pages of a selection of summaries, against the head of the whole selection. -/
theorem catalogPage_complete (stored : Stored db) (positive : 0 < limit) :
    ∃ all, Complete (fun cursor => catalogPage E db selects cursor (min limit 500)) all ∧
      Newest (catalogRows E db selects) all ∧ ∀ n, catalogHead E db selects n = all.take n := by
  have distinct := @catalogRows_distinct E db selects
  obtain ⟨all, complete, taken⟩ := (catalogPage_pages positive).complete (catalogPage_hands positive) distinct (by omega)
    (catalogRows_storable stored)
  have same : (behind (catalogRows E db selects) none).map Prod.fst = all :=
    Except.ok.inj ((List.mapM_pure (m := Except StorageError)).symm.trans taken)
  subst same
  exact ⟨_, complete, newest_behind distinct, fun n => List.map_take⟩

theorem listSessions_pages (positive : 0 < limit) (valid : validateWorkspaceRoot workspaceRoot = .ok ()) :
    Pages (fun cursor => listSessionsForWorkspacePaged E db workspaceRoot cursor limit) (min limit 500)
      (sessionKeys E db workspaceRoot) fun row =>
        currentSessionSnapshot E db row.1 SESSION_PROJECTION_TRANSCRIPT_LIMIT := by
  intro cursor fits
  obtain ⟨items, taken⟩ := @snapshots_done E db (page (min limit 500) (sessionKeys E db workspaceRoot) cursor)
    SESSION_PROJECTION_TRANSCRIPT_LIMIT fun row held => sessionKeys_stand (mem_behind.mp (List.mem_of_mem_take held)).1
  refine ⟨items, taken, ?_⟩
  simp only [listSessionsForWorkspacePaged, bind_ok, if_neg (Nat.ne_of_gt positive)]
  refine ⟨(), valid, cursor, decodeSessionCursor_encoded fits, items, fetched_page ▸ taken, ?_⟩
  rw [fetched_cursor positive]

theorem listSessions_hands (positive : 0 < limit) :
    Hands (fun cursor => listSessionsForWorkspacePaged E db workspaceRoot cursor limit) (min limit 500)
      (sessionKeys E db workspaceRoot) := by
  intro cursor value shown
  simp only [listSessionsForWorkspacePaged, bind_ok, if_neg (Nat.ne_of_gt positive), Except.ok.injEq] at shown
  obtain ⟨_, _, keyset, _, items, _, rfl⟩ := shown
  exact ⟨keyset, fetched_cursor positive⟩

/-- A search that is not paged is the head of the selection; none of it when nothing is asked for. -/
theorem searchSessions_head (valid : validateWorkspaceRoot workspaceRoot = .ok ()) (toLowercase : String → String)
    (query : String) (n : Nat) : searchSessions E db toLowercase workspaceRoot query n =
      .ok (catalogHead E db (matchesQuery workspaceRoot (toLowercase (trim query))) (min n 500)) := by
  rw [searchSessions, valid]
  split
  case isTrue zero =>
    rw [zero]
    rfl
  case isFalse => rfl

theorem findSessionsByExactTitle_head {title : String} (valid : validateWorkspaceRoot workspaceRoot = .ok ())
    (some : ¬ title.isEmpty) (n : Nat) : findSessionsByExactTitleForWorkspace E db workspaceRoot title n =
      .ok (catalogHead E db (titled workspaceRoot title) (min n 500)) := by
  rw [findSessionsByExactTitleForWorkspace, valid]
  split
  case isTrue zero =>
    rw [zero.resolve_left some]
    rfl
  case isFalse => rfl

end Complete

theorem crowdRows_length (n : Nat) : (crowdRows n).length = n + 1 := by
  rw [crowdRows, List.length_cons, List.length_map, List.length_range]

theorem crowdRows_facts {n : Nat} : ∀ row ∈ crowdRows n, row.2.workspaceRoot = "/workspace" ∧ row.2.updatedAtMs ≤ 3 := by
  have first : firstRow.workspaceRoot = "/workspace" ∧ firstRow.updatedAtMs ≤ 3 := by decide +kernel
  have fork : forkRow.workspaceRoot = "/workspace" ∧ forkRow.updatedAtMs ≤ 3 := by decide +kernel
  intro row held
  rcases List.mem_cons.mp held with rfl | held
  · exact first
  · obtain ⟨i, _, rfl⟩ := List.mem_map.mp held
    exact fork

/-- Every session of the store matches the empty query. -/
theorem crowd_selected {n : Nat} (small : n ≤ 1000) :
    (catalogRows plain (crowdStore small) (matchesQuery "/workspace" "")).length = n + 1 := by
  have all : (crowdRows n).zipIdx.filter (fun row => matchesQuery "/workspace" "" row.1.1 row.1.2) =
      (crowdRows n).zipIdx := by
    refine List.filter_eq_self.mpr fun row held => ?_
    have root := (crowdRows_facts row.1 (List.fst_mem_of_mem_zipIdx held)).1
    simp [matchesQuery, root]
  rw [catalogRows, List.length_map]
  change ((crowdRows n).zipIdx.filter fun row => matchesQuery "/workspace" "" row.1.1 row.1.2).length = n + 1
  rw [all, List.length_zipIdx, crowdRows_length]

end LatteCode.Client
