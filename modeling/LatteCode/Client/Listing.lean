import LatteCode.Client.Observe
import LatteCode.Lib.Paging
/- The sessions of a workspace, listed page by page while other users of the store go on. -/

namespace LatteCode.Client
open Keyed Outcome Paging Runs Storage

/-! ## Cursors -/

def SESSION_CURSOR_PREFIX : String := "v1_"

/-- The key that a listing is ordered by: `updated_at_ms`, then `rowid`. -/
abbrev SessionKey : Type := Nat ×ₗ Nat

def encodeSessionCursor (key : SessionKey) : String :=
  .ofList (SESSION_CURSOR_PREFIX.toList ++ Nat.toDigits 16 key.1 ++ ':' :: Nat.toDigits 16 key.2)

def hexValue (c : Char) : Option Nat :=
  if '0' ≤ c ∧ c ≤ '9' then some (c.toNat - 48)
  else if 'a' ≤ c ∧ c ≤ 'f' then some (c.toNat - 87)
  else if 'A' ≤ c ∧ c ≤ 'F' then some (c.toNat - 55)
  else none

def hexSum (digits : List Nat) : Nat := digits.foldl (fun sum digit => sum * 16 + digit) 0

/-- `u64::from_str_radix(hex, 16)`, and `i64::try_from` of it. -/
def parseHex (hex : List Char) : Option Nat :=
  let digits := if hex.head? = some '+' then hex.tail else hex
  if digits = [] then none else ((digits.mapM hexValue).map hexSum).filter (· < 2 ^ 63)

def invalidSessionCursor : StorageError := .invalidData "invalid session cursor"

def decodeSessionCursor (cursor : String) : Except StorageError SessionKey := do
  let body ← require (SESSION_CURSOR_PREFIX.toList.isPrefixOf? cursor.toList) invalidSessionCursor
  let (updated, rest) := body.span (· ≠ ':')
  ensure (rest ≠ []) invalidSessionCursor
  let updated ← require (parseHex updated) invalidSessionCursor
  let rowid ← require (parseHex rest.tail) invalidSessionCursor
  .ok (toLex (updated, rowid))

/-! ## Pages -/

structure Paged (T : Type) where
  items : List T
  nextCursor : Option String

section Storage

variable (E : Environment) (db : E.Db)

/-- The sessions of a workspace with their keys; rows are never deleted, so that a row has its place as `rowid`. -/
def sessionKeys (workspaceRoot : String) : List (SessionId × SessionKey) :=
  (db.sessions.rows.zipIdx.filter fun row => row.1.2.workspaceRoot = workspaceRoot).map fun row =>
    (row.1.1, toLex (row.1.2.updatedAtMs, row.2 + 1))

def listSessionsForWorkspacePaged (workspaceRoot : String) (cursor : Option String) (limit : Nat) :
    Except StorageError (Paged SessionSnapshot) := do
  validateWorkspaceRoot workspaceRoot
  if limit = 0 then .ok ⟨[], none⟩
  else do
    let limit := min limit 500
    let keyset ← cursor.mapM decodeSessionCursor
    let fetch := min (limit + 1) 501
    let pageRows := (behind (sessionKeys E db workspaceRoot) keyset).take fetch
    let nextCursor := if pageRows.length > limit then (pageRows[limit - 1]?).map fun row => encodeSessionCursor row.2 else none
    let items ← (pageRows.take limit).mapM fun row =>
      currentSessionSnapshot E db row.1 SESSION_PROJECTION_TRANSCRIPT_LIMIT
    .ok ⟨items, nextCursor⟩

end Storage

def MAX_SESSION_PAGES : Nat := 64

section Fetches

variable {T : Type} (fetch : Nat → Option String → Except ClientError (Paged T))

/-- The loop of `fetch_all_sessions` with this many pages left; `fetch` answers by the number of the request. -/
def fetchPages : Nat → Nat → Option String → List T → Except ClientError (List T)
  | 0, _, _, _ => .error (.failed ("session listing exceeded " ++ toString MAX_SESSION_PAGES ++ " pages"))
  | left + 1, k, cursor, all => do
      let value ← fetch k cursor
      match value.nextCursor with
      | none => .ok (all ++ value.items)
      | some next => fetchPages left (k + 1) (some next) (all ++ value.items)

variable {fetch} in
theorem fetchPages_more {left k : Nat} {cursor : Option String} {all : List T} {value : Paged T} {next : String}
    (shown : fetch k cursor = .ok value) (more : value.nextCursor = some next) :
    fetchPages fetch (left + 1) k cursor all = fetchPages fetch left (k + 1) (some next) (all ++ value.items) := by
  simp only [fetchPages, shown, bind, Except.bind, more]

variable {fetch} in
theorem fetchPages_last {left k : Nat} {cursor : Option String} {all : List T} {value : Paged T}
    (shown : fetch k cursor = .ok value) (ends : value.nextCursor = none) :
    fetchPages fetch (left + 1) k cursor all = .ok (all ++ value.items) := by
  simp only [fetchPages, shown, bind, Except.bind, ends]

def fetchAllSessions : Except ClientError (List T) := fetchPages fetch MAX_SESSION_PAGES 0 none []

end Fetches

/-- The store as each page finds it, with the calls of all users before the first page, and between the pages. -/
def storeAt (E : Environment) (before : List Operation) (gaps : Nat → List Operation) : Nat → E.Db
  | 0 => runOf E before
  | k + 1 => run (step E) (storeAt E before gaps k) (gaps k)

theorem storeAt_succ {E : Environment} {before : List Operation} {gaps : Nat → List Operation} (k : Nat) :
    storeAt E before gaps (k + 1) = run (step E) (storeAt E before gaps k) (gaps k) := rfl

/-- `list_sessions` of a client; `refused` is its error for a page that the server refuses. -/
def listSessions (E : Environment) (stores : Nat → E.Db) (refused : StorageError → ClientError) (workspaceRoot : String)
    (limit : Nat) : Except ClientError (List SessionSnapshot) :=
  fetchAllSessions fun k cursor =>
    (listSessionsForWorkspacePaged E (stores k) workspaceRoot cursor limit).mapError refused

/-! ## What a listing shows -/

theorem hexValue_digit : ∀ d < 16, hexValue (Nat.digitChar d) = some d := by decide

theorem toDigits_hex (n : Nat) : ∃ digits, (Nat.toDigits 16 n).mapM hexValue = some digits ∧ hexSum digits = n := by
  induction n using Nat.strongRecOn with
  | ind n ih =>
      by_cases small : n < 16
      · rw [Nat.toDigits_of_lt_base small]
        refine ⟨[n], ?_, by simp [hexSum]⟩
        simp [hexValue_digit n small]
      · obtain ⟨digits, read, sum⟩ := ih (n / 16) (Nat.div_lt_self (by omega) (by decide))
        rw [Nat.toDigits_of_base_le (by decide) (Nat.le_of_not_lt small)]
        refine ⟨digits ++ [n % 16], ?_, ?_⟩
        · rw [List.mapM_append, read]
          simp [hexValue_digit (n % 16) (Nat.mod_lt n (by decide))]
        · rw [hexSum, List.foldl_append, ← hexSum, sum]
          simp only [List.foldl_cons, List.foldl_nil]
          omega

theorem toDigits_value {n : Nat} {c : Char} (member : c ∈ Nat.toDigits 16 n) : (hexValue c).isSome = true := by
  obtain ⟨digits, read, -⟩ := toDigits_hex n
  generalize Nat.toDigits 16 n = chars at member read
  induction chars generalizing digits with
  | nil => cases member
  | cons first rest ih =>
      simp only [List.mapM_cons, Option.bind_eq_bind, Option.bind_eq_some_iff] at read
      obtain ⟨value, here, values, later, _⟩ := read
      rcases List.mem_cons.mp member with rfl | behind
      · rw [here]
        rfl
      · exact ih values behind later

/-- A number is read back from its digits, unless it exceeds an `i64`. -/
theorem parseHex_toDigits (n : Nat) : parseHex (Nat.toDigits 16 n) = (some n).filter (· < 2 ^ 63) := by
  obtain ⟨digits, read, sum⟩ := toDigits_hex n
  have unsigned : (Nat.toDigits 16 n).head? ≠ some '+' := by
    intro signed
    have value := toDigits_value (List.mem_of_head? signed)
    exact absurd value (by decide)
  rw [parseHex, if_neg unsigned, if_neg Nat.toDigits_ne_nil, read, Option.map_some, sum]

theorem decodeSessionCursor_encode (key : SessionKey) : decodeSessionCursor (encodeSessionCursor key) =
    if key.1 < 2 ^ 63 ∧ key.2 < 2 ^ 63 then .ok key else .error invalidSessionCursor := by
  have spelled : ∀ c ∈ Nat.toDigits 16 key.1, decide (c ≠ ':') = true := by
    rintro c member
    rw [decide_eq_true_eq]
    rintro rfl
    exact absurd (toDigits_value member) (by decide)
  have body : SESSION_CURSOR_PREFIX.toList.isPrefixOf? (encodeSessionCursor key).toList =
      some (Nat.toDigits 16 key.1 ++ ':' :: Nat.toDigits 16 key.2) := by
    rw [encodeSessionCursor, String.toList_ofList, List.append_assoc]
    rfl
  have parts : (Nat.toDigits 16 key.1 ++ ':' :: Nat.toDigits 16 key.2).span (· ≠ ':') =
      (Nat.toDigits 16 key.1, ':' :: Nat.toDigits 16 key.2) := by
    rw [List.span_eq_takeWhile_dropWhile, List.takeWhile_append_of_pos spelled, List.dropWhile_append_of_pos spelled]
    simp
  simp only [decodeSessionCursor, body, require, bind, Except.bind, parts, ensure, List.tail_cons, parseHex_toDigits]
  simp only [ne_eq, reduceCtorEq, not_false_eq_true, if_true]
  by_cases early : key.1 < 2 ^ 63
  case neg => simp only [early, Option.filter, decide_false, Bool.false_eq_true, if_false, false_and]
  case pos =>
    by_cases low : key.2 < 2 ^ 63
    case neg => simp only [early, low, Option.filter, decide_true, decide_false, Bool.false_eq_true, if_true, if_false, and_false]
    case pos =>
      simp only [early, low, Option.filter, and_self, if_true, decide_true]
      rfl

section Pages

variable {E : Environment} {db : E.Db} {workspaceRoot : String} {limit : Nat} {cursor : Option SessionKey}

theorem decodeSessionCursor_encoded (fits : ∀ key ∈ cursor, key.1 < 2 ^ 63 ∧ key.2 < 2 ^ 63) :
    (cursor.map encodeSessionCursor).mapM decodeSessionCursor = .ok cursor := by
  cases cursor with
  | none => rfl
  | some key =>
      rw [Option.map_some, Option.mapM_some, decodeSessionCursor_encode, if_pos (fits key rfl)]
      rfl

theorem currentSessionSnapshot_session {sessionId : SessionId} {transcriptLimit : Nat} {snapshot : SessionSnapshot}
    (taken : currentSessionSnapshot E db sessionId transcriptLimit = .ok snapshot) : snapshot.sessionId = sessionId := by
  simp only [currentSessionSnapshot, bind_ok, Except.ok.injEq] at taken
  obtain ⟨projected, read, rfl⟩ := taken
  obtain ⟨_, _, named, _⟩ := sessionSnapshot_session read
  exact named

theorem snapshots_sessions {rows : List (SessionId × SessionKey)} {transcriptLimit : Nat} {items : List SessionSnapshot}
    (taken : (rows.mapM fun row => currentSessionSnapshot E db row.1 transcriptLimit) = .ok items) :
    items.map SessionSnapshot.sessionId = rows.map Prod.fst := by
  induction rows generalizing items with
  | nil =>
      rw [List.mapM_nil, pure_ok] at taken
      rw [← taken]
      rfl
  | cons row rest ih =>
      simp only [List.mapM_cons, bind_ok, pure_ok] at taken
      obtain ⟨first, here, others, later, rfl⟩ := taken
      rw [List.map_cons, List.map_cons, ih later, currentSessionSnapshot_session here]

/-- The rows that are fetched for a page, one more than it shows, tell its last key. -/
theorem fetched_next {α : Type} {rows : List (α × SessionKey)} (positive : 0 < limit) :
    (if ((behind rows cursor).take (limit + 1)).length > limit then
      (((behind rows cursor).take (limit + 1))[limit - 1]?).map fun row => encodeSessionCursor row.2 else none) =
      (next limit rows cursor).map encodeSessionCursor := by
  rw [next, page]
  generalize behind rows cursor = found
  rw [List.length_take, List.getElem?_take]
  by_cases long : limit < found.length
  case neg => rw [if_neg (by omega), if_neg long, Option.map_none]
  case pos =>
    obtain ⟨last, here⟩ : ∃ last, found[limit - 1]? = some last :=
      ⟨_, List.getElem?_eq_getElem (Nat.lt_of_le_of_lt (Nat.sub_le limit 1) long)⟩
    rw [if_pos (by omega), if_pos long, if_pos (by omega), List.getLast?_take, if_neg (Nat.ne_of_gt positive), here]
    rfl

/-- A page is one of the library's, of the sessions with their keys. -/
theorem listSessionsForWorkspacePaged_ok {value : Paged SessionSnapshot} (positive : 0 < limit)
    (taken : listSessionsForWorkspacePaged E db workspaceRoot (cursor.map encodeSessionCursor) limit = .ok value) :
    value.items.map SessionSnapshot.sessionId =
        (page (min limit 500) (sessionKeys E db workspaceRoot) cursor).map Prod.fst ∧
      value.nextCursor = (next (min limit 500) (sessionKeys E db workspaceRoot) cursor).map encodeSessionCursor := by
  simp only [listSessionsForWorkspacePaged, bind_ok] at taken
  obtain ⟨_, _, rest⟩ := taken
  rw [if_neg (Nat.ne_of_gt positive)] at rest
  simp only [bind_ok, Except.ok.injEq] at rest
  obtain ⟨keyset, decoded, items, taken, rfl⟩ := rest
  have same : keyset = cursor := by
    cases cursor with
    | none =>
        cases decoded
        rfl
    | some key =>
        simp only [Option.map_some, Option.mapM_some, decodeSessionCursor_encode] at decoded
        split at decoded <;> cases decoded
        rfl
  subst same
  have fits : min (min limit 500 + 1) 501 = min limit 500 + 1 := by omega
  rw [fits] at taken ⊢
  rw [List.take_take, Nat.min_eq_left (Nat.le_succ _)] at taken
  exact ⟨snapshots_sessions taken, fetched_next (by omega)⟩

theorem snapshots_done {rows : List (SessionId × SessionKey)} {transcriptLimit : Nat}
    (stand : ∀ row ∈ rows, (db.sessions.get? row.1).isSome = true) :
    ∃ items, (rows.mapM fun row => currentSessionSnapshot E db row.1 transcriptLimit) = .ok items := by
  induction rows with
  | nil => exact ⟨[], rfl⟩
  | cons row rest ih =>
      rw [List.forall_mem_cons] at stand
      obtain ⟨items, later⟩ := ih stand.2
      obtain ⟨session, found⟩ := Option.isSome_iff_exists.mp stand.1
      simp only [List.mapM_cons, bind_ok, pure_ok, currentSessionSnapshot, sessionSnapshot, require_ok, toI64s_ok,
        Except.ok.injEq]
      exact ⟨_, _, ⟨_, ⟨session, found, (), by decide, rfl⟩, rfl⟩, items, later, rfl⟩

theorem sessionKeys_stand {row : SessionId × SessionKey} (member : row ∈ sessionKeys E db workspaceRoot) :
    (db.sessions.get? row.1).isSome = true := by
  obtain ⟨entry, kept, rfl⟩ := List.mem_map.mp member
  have listed := List.fst_mem_of_mem_zipIdx (List.mem_filter.mp kept).1
  rw [db.sessions.get?_of_mem listed]
  rfl

theorem listSessionsForWorkspacePaged_done (valid : validateWorkspaceRoot workspaceRoot = .ok ()) (positive : 0 < limit)
    (fits : ∀ key ∈ cursor, key.1 < 2 ^ 63 ∧ key.2 < 2 ^ 63) :
    ∃ value, listSessionsForWorkspacePaged E db workspaceRoot (cursor.map encodeSessionCursor) limit = .ok value := by
  obtain ⟨items, taken⟩ := @snapshots_done E db
    (((behind (sessionKeys E db workspaceRoot) cursor).take (min (min limit 500 + 1) 501)).take (min limit 500))
    SESSION_PROJECTION_TRANSCRIPT_LIMIT fun row member => sessionKeys_stand
      (mem_behind.mp (List.mem_of_mem_take (List.mem_of_mem_take member))).1
  simp only [listSessionsForWorkspacePaged, bind_ok, if_neg (Nat.ne_of_gt positive), Except.ok.injEq]
  exact ⟨_, (), valid, cursor, decodeSessionCursor_encoded fits, items, taken, rfl⟩

end Pages

section Listings

variable {E : Environment} {stores : Nat → E.Db} {refused : StorageError → ClientError} {workspaceRoot : String}
  {limit : Nat}

/-- The sessions with their keys as each page finds them. -/
def keysAt (stores : Nat → E.Db) (workspaceRoot : String) (k : Nat) : List (SessionId × SessionKey) :=
  sessionKeys E (stores k) workspaceRoot

/-- The loop goes on where the pages before have ended, and stops at the first page without a cursor. -/
theorem fetchPages_listed {left k : Nat} {all result : List SessionSnapshot} (positive : 0 < limit)
    (earlier : all.map SessionSnapshot.sessionId = listed (min limit 500) (keysAt stores workspaceRoot) k)
    (goes : ∀ j < k, cursorOf (min limit 500) (keysAt stores workspaceRoot) (j + 1) ≠ none)
    (fetched : fetchPages (fun k cursor =>
        (listSessionsForWorkspacePaged E (stores k) workspaceRoot cursor limit).mapError refused) left k
      ((cursorOf (min limit 500) (keysAt stores workspaceRoot) k).map encodeSessionCursor) all = .ok result) :
    ∃ n, (∀ j < n, cursorOf (min limit 500) (keysAt stores workspaceRoot) (j + 1) ≠ none) ∧
      cursorOf (min limit 500) (keysAt stores workspaceRoot) (n + 1) = none ∧
      result.map SessionSnapshot.sessionId = listed (min limit 500) (keysAt stores workspaceRoot) (n + 1) := by
  induction left generalizing k all with
  | zero => cases fetched
  | succ left ih =>
      simp only [fetchPages, bind_ok, mapError_ok] at fetched
      obtain ⟨value, taken, rest⟩ := fetched
      obtain ⟨shown, later⟩ := listSessionsForWorkspacePaged_ok positive taken
      have further : value.nextCursor =
          (cursorOf (min limit 500) (keysAt stores workspaceRoot) (k + 1)).map encodeSessionCursor := later
      have grown : (all ++ value.items).map SessionSnapshot.sessionId =
          listed (min limit 500) (keysAt stores workspaceRoot) (k + 1) := by
        rw [List.map_append, earlier, shown, listed_succ]
        rfl
      rw [further] at rest
      cases next : cursorOf (min limit 500) (keysAt stores workspaceRoot) (k + 1) with
      | none =>
          rw [next] at rest
          cases rest
          exact ⟨k, goes, next, grown⟩
      | some key =>
          rw [next] at rest
          refine ih grown ?_ (by rw [next]; exact rest)
          intro j small
          rcases Nat.lt_succ_iff_lt_or_eq.mp small with earlier | rfl
          · exact goes j earlier
          · rw [next]
            exact Option.some_ne_none key

theorem sessionKeys_distinct (db : E.Db) : Distinct (sessionKeys E db workspaceRoot) := by
  have places : (db.sessions.rows.zipIdx.map Prod.snd).Nodup := by
    rw [List.zipIdx_map_snd]
    exact List.nodup_range'
  have ids : (db.sessions.rows.zipIdx.map (Prod.fst ∘ Prod.fst)).Nodup := by
    rw [← List.map_map, List.zipIdx_map_fst]
    exact db.sessions.keys_nodup
  constructor
  · rw [sessionKeys, List.map_map]
    exact ids.sublist (List.filter_sublist.map _)
  · rw [sessionKeys, List.map_map]
    apply List.Nodup.of_map fun key : SessionKey => key.2 - 1
    rw [List.map_map]
    exact places.sublist (List.filter_sublist.map Prod.snd)

end Listings

/-- One session, and no other call while it is listed. -/
def quietStores : Nat → plain.Db := storeAt plain (sampleRun []) fun _ => []

def forkSession (i : Nat) : SessionId := ⟨⟨BitVec.ofNat 128 (i + 2)⟩⟩

/-- A session and its forks, which are newer. -/
def crowd (n : Nat) : List Operation :=
  sampleRun [] ++ (List.range n).map fun i => .createFork sampleSession (forkSession i) [] (some "fork") 3

/-- After the first page a card is appended to the oldest session. -/
def crowdGaps : Nat → List Operation
  | 0 => [.commit (sampleRequest 0 1 1 (.appendTranscript "note" .assistant "text" none)) sampleLease 50]
  | _ + 1 => []

def firstRow : SessionRow := ((runOf plain (sampleRun [])).sessions.get? sampleSession).get (by decide +kernel)

def forkRow : SessionRow := forkedSession plain sampleSession firstRow [] (some "fork") 3

def crowdRows (n : Nat) : List (SessionId × SessionRow) :=
  (sampleSession, firstRow) :: (List.range n).map fun i => (forkSession i, forkRow)

theorem crowdRows_succ (n : Nat) : crowdRows (n + 1) = crowdRows n ++ [(forkSession n, forkRow)] := by
  simp [crowdRows, List.range_succ]

theorem forkSession_fresh {n : Nat} (small : n < 1000) : forkSession n ∉ (crowdRows n).map Prod.fst := by
  have number : ∀ i < 1000, (forkSession i).uuid.bits.toNat = i + 2 := by
    intro i small
    simp only [forkSession, BitVec.toNat_ofNat]
    omega
  simp only [crowdRows, List.map_cons, List.map_map, List.mem_cons, List.mem_map, List.mem_range, Function.comp_apply]
  rintro (same | ⟨i, earlier, same⟩)
  · have numbers := number n small
    rw [same] at numbers
    cases numbers
  · have numbers := number n small
    rw [← same, number i (earlier.trans small)] at numbers
    omega

theorem crowdRows_distinct {n : Nat} (small : n ≤ 1000) : ((crowdRows n).map Prod.fst).Nodup := by
  induction n with
  | zero => exact List.nodup_singleton sampleSession
  | succ n ih =>
      rw [crowdRows_succ, List.map_append, List.nodup_append_comm]
      exact List.nodup_cons.mpr ⟨forkSession_fresh small, ih (Nat.le_of_succ_le small)⟩

/-- The store with so many forks. -/
def crowdStore {n : Nat} (small : n ≤ 1000) : plain.Db :=
  { runOf plain (sampleRun []) with sessions := ⟨crowdRows n, crowdRows_distinct small⟩ }

theorem crowd_store {n : Nat} (small : n ≤ 1000) : runOf plain (crowd n) = crowdStore small := by
  induction n with
  | zero => rfl
  | succ n ih =>
      have before := ih (Nat.le_of_succ_le small)
      have split : crowd (n + 1) = crowd n ++ [.createFork sampleSession (forkSession n) [] (some "fork") 3] := by
        simp [crowd, List.range_succ]
      have source : (crowdStore (Nat.le_of_succ_le small)).sessions.get? sampleSession = some firstRow := rfl
      have fresh : (crowdStore (Nat.le_of_succ_le small)).sessions.get? (forkSession n) = none :=
        (Table.get?_eq_none_iff _ _).mpr (forkSession_fresh small)
      have added : (crowdStore (Nat.le_of_succ_le small)).sessions.add (forkSession n) forkRow =
          (crowdStore small).sessions := by
        have rows := Table.rows_add_fresh _ forkRow fresh
        rw [Table.mk.injEq, rows]
        exact (crowdRows_succ n).symm
      have forked : exec plain (crowdStore (Nat.le_of_succ_le small))
          (.createFork sampleSession (forkSession n) [] (some "fork") 3) = .ok (.done, crowdStore small) := by
        simp only [exec, createSessionFork, map_ok, bind_ok, require_ok, toI64s_ok, unique, ensure_ok, List.foldlM_nil,
          pure_ok, Except.ok.injEq]
        refine ⟨((), crowdStore small), ⟨firstRow, source, (), by decide +kernel, (), fresh, _, rfl, ?_⟩, rfl⟩
        exact congrArg (fun sessions => ((), { runOf plain (sampleRun []) with sessions })) added
      rw [runOf, split, run_append, ← runOf, before]
      change step plain _ _ = _
      rw [step, forked]

/-- The keys of the sessions, when the oldest one was written at this time. -/
def crowdKeys (written : Nat) : List (SessionId × SessionKey) :=
  (sampleSession, toLex (written, 1)) :: (List.range 200).map fun i => (forkSession i, toLex (3, i + 2))

def crowdStores : Nat → plain.Db := storeAt plain (crowd 200) crowdGaps

theorem crowd_first : crowdStores 0 = crowdStore (by decide : 200 ≤ 1000) := crowd_store _

theorem crowd_second : crowdStores 1 = step plain (crowdStore (by decide : 200 ≤ 1000))
    (.commit (sampleRequest 0 1 1 (.appendTranscript "note" .assistant "text" none)) sampleLease 50) := by
  have after : crowdStores 1 = run (step plain) (crowdStores 0) (crowdGaps 0) := storeAt_succ 0
  rw [after, crowd_first, crowdGaps, run, List.foldl_cons, List.foldl_nil]

theorem crowd_later (k : Nat) : crowdStores (k + 1) = crowdStores 1 := by
  induction k with
  | zero => rfl
  | succ k ih => exact ih

theorem crowd_keys : sessionKeys plain (crowdStores 0) "/workspace" = crowdKeys 1 ∧
    sessionKeys plain (crowdStores 1) "/workspace" = crowdKeys 50 := by
  rw [crowd_first, crowd_second]
  constructor
  · decide +kernel
  · decide +kernel

def crowdFetch (k : Nat) (cursor : Option String) : Except ClientError (Paged SessionSnapshot) :=
  (listSessionsForWorkspacePaged plain (crowdStores k) "/workspace" cursor 200).mapError fun _ => .failed "refused"

/-- The oldest session is on neither page. -/
theorem crowd_listed : ∃ all, listSessions plain crowdStores (fun _ => .failed "refused") "/workspace" 200 = .ok all ∧
    (all.map SessionSnapshot.sessionId).count sampleSession = 0 := by
  have valid : validateWorkspaceRoot "/workspace" = .ok () := by decide
  have cursor : next 200 (crowdKeys 1) none = some (toLex (3, 2)) := by decide +kernel
  have rest : page 200 (crowdKeys 50) (some (toLex (3, 2))) = [] ∧ next 200 (crowdKeys 50) (some (toLex (3, 2))) = none := by
    decide +kernel
  have absent : ((page 200 (crowdKeys 1) none).map Prod.fst).count sampleSession = 0 := by decide +kernel
  obtain ⟨first, shown⟩ := @listSessionsForWorkspacePaged_done plain (crowdStores 0) "/workspace" 200 none valid
    (by decide) (by simp)
  obtain ⟨second, further⟩ := @listSessionsForWorkspacePaged_done plain (crowdStores 1) "/workspace" 200
    (some (toLex (3, 2))) valid (by decide) (by simp; decide)
  obtain ⟨ids, more⟩ := listSessionsForWorkspacePaged_ok (by decide) shown
  obtain ⟨ids', ends⟩ := listSessionsForWorkspacePaged_ok (by decide) further
  have limit : min 200 500 = 200 := rfl
  rw [crowd_keys.1, limit] at ids more
  rw [crowd_keys.2, limit] at ids' ends
  rw [cursor] at more
  rw [rest.1] at ids'
  rw [rest.2] at ends
  refine ⟨first.items ++ second.items, ?_, ?_⟩
  · rw [Option.map_none] at shown ends
    rw [Option.map_some] at further more
    have one : crowdFetch 0 none = .ok first := mapError_ok.mpr shown
    have two : crowdFetch 1 (some (encodeSessionCursor (toLex (3, 2)))) = .ok second := mapError_ok.mpr further
    have pages : fetchPages crowdFetch 64 0 none [] = .ok ([] ++ first.items ++ second.items) :=
      (fetchPages_more one more).trans (fetchPages_last two ends)
    exact pages
  · rw [List.map_append, ids, ids', List.map_nil, List.append_nil]
    exact absent

end LatteCode.Client
