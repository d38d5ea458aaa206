import LatteCode.Lib.Paging
import LatteCode.Engine.Drain
import LatteCode.Headless.Window
/- The pages of a transcript that a session shows, from the outbox and from the conversation file. -/

namespace LatteCode.Engine
open Headless Keyed Lines Outcome Paging Relation Storage

/-! ## The pages -/

section Definitions

variable (E : Environment) (C : Codec) (store : Option ConversationStore) (workspaceRoot : String)
  (sessionId : SessionId)

/-- The newest summary card of the outbox with everything from its floor on, else the newest entries. -/
def sessionTranscriptProjection (db : E.Db) (fallbackLimit : Nat) : TranscriptPage :=
  let cards := (db.conversationOutbox.select fun key row => key.1 = sessionId && row.kind = .compactSummary).insertionSort
    fun a b => a.1.2 ≤ b.1.2
  match cards.reverse.head? with
  | none => sessionTranscriptTail E db sessionId fallbackLimit
  | some card =>
      let retainFloor := (retainFrom card.2.entry).elim card.1.2 fun retain =>
        min (if retain < 2 ^ 63 then retain else card.1.2) card.1.2
      let entries := ((db.conversationOutbox.select fun key _ => key.1 = sessionId && retainFloor ≤ key.2).insertionSort
        fun a b => a.1.2 ≤ b.1.2).map fun row => row.2.entry
      ⟨entries, entries.getLast?.map TranscriptEntry.sequence, false⟩

/-- The database, and the conversation file of the session; an error leaves what `sync` leaves. -/
abbrev Held : Type := E.Db × Bytes

/-- What waits in the outbox is written to the file and then taken out of the outbox. -/
def syncSessionConversation (held : Held E) : Except StorageError (Held E) :=
  match store with
  | none => .ok held
  | some store => do
      let metadata ← require (held.1.sessions.get? sessionId) (.sessionNotFound sessionId)
      ensure (metadata.workspaceRoot = workspaceRoot)
        (.invalidData "cannot write a Session conversation from a foreign workspace")
      let entries ← conversationOutboxEntries C held.1 sessionId
      let file ← (sync C store sessionId metadata.createdAtMs entries held.2).mapError (.invalidData ·.message)
      match entries.getLast? with
      | none => .ok (held.1, file)
      | some last => do
          let (_, db) ← acknowledgeConversationOutbox E held.1 sessionId last.sequence
          .ok (db, file)

/-- The entries of the file, after what waits for it was written. -/
def conversationEntries (store : ConversationStore) (held : Held E) :
    Except StorageError (List TranscriptEntry × Held E) := do
  let (db, file) ← syncSessionConversation E C (some store) workspaceRoot sessionId held
  let (file, entries) ← (read C store sessionId file).mapError (.invalidData ·.message)
  .ok (entries, db, file)

def forwardPage (entries : List TranscriptEntry) (after : Option Nat) (limit : Nat) : TranscriptPage :=
  let bounded := max 1 (min limit 500)
  let entries := entries.filter fun entry => after.getD 0 < entry.sequence
  let page := entries.take bounded
  ⟨page, page.getLast?.map TranscriptEntry.sequence, decide (bounded < entries.length)⟩

def tailPage (entries : List TranscriptEntry) (limit : Nat) : TranscriptPage :=
  let start := entries.length - max 1 (min limit 500)
  let page := entries.drop start
  ⟨page, page.getLast?.map TranscriptEntry.sequence, decide (0 < start)⟩

def conversationPage (held : Held E) (after : Option Nat) (limit : Nat) (tail : Bool) :
    Except StorageError (Option TranscriptPage × Held E) :=
  match store with
  | none => .ok (none, held)
  | some store => do
      let (entries, held) ← conversationEntries E C workspaceRoot sessionId store held
      .ok (some (if tail then tailPage entries limit else forwardPage entries after limit), held)

/-- The page of the file stands in for that of the outbox. -/
def sessionSnapshotV2 (held : Held E) (after : Option Nat) (limit : Nat) :
    Except StorageError (SessionSnapshot × Held E) := do
  let snapshot ← sessionSnapshot E held.1 sessionId after limit
  let (page, held) ← conversationPage E C store workspaceRoot sessionId held after limit false
  .ok ({ snapshot with transcript := page.getD snapshot.transcript }, held)

def sessionSnapshotTailV2 (held : Held E) (limit : Nat) : Except StorageError (SessionSnapshot × Held E) := do
  let snapshot ← currentSessionSnapshot E held.1 sessionId limit
  let (page, held) ← conversationPage E C store workspaceRoot sessionId held none limit true
  .ok ({ snapshot with transcript := page.getD snapshot.transcript }, held)

def sessionSnapshotProjectionV2 (held : Held E) (fallbackLimit : Nat) :
    Except StorageError (SessionSnapshot × Held E) := do
  let snapshot ← sessionSnapshot E held.1 sessionId none 1
  let transcript := sessionTranscriptProjection E sessionId held.1 fallbackLimit
  match store with
  | none => .ok ({ snapshot with transcript := transcript }, held)
  | some store => do
      let (entries, held) ← conversationEntries E C workspaceRoot sessionId store held
      .ok ({ snapshot with transcript := projectionWindow entries fallbackLimit }, held)

end Definitions

variable {E : Environment} {C : Codec} {store : ConversationStore} {workspaceRoot : String} {sessionId : SessionId}
  {entries : List TranscriptEntry}

/-! ## A transcript in the outbox -/

/-- The outbox holds all of these entries, under numbers that a column takes. -/
structure InOutbox (db : E.Db) (sessionId : SessionId) (entries : List TranscriptEntry) : Prop where
  session : ∃ row, db.sessions.get? sessionId = some row
  rows : (outboxOf db sessionId).Perm (entries.map (outboxRow sessionId))
  ranged : ∀ entry ∈ entries, entry.sequence < 2 ^ 63

section Outbox

variable {db : E.Db}

theorem sessionSnapshot_page (outbox : InOutbox db sessionId entries) (climbing : Climbing entries)
    {after : Option Nat} (fits : after.getD 0 < 2 ^ 63) (limit : Nat) :
    ∃ snapshot, sessionSnapshot E db sessionId after limit = .ok snapshot ∧
      snapshot.transcript = forwardPage entries after limit := by
  obtain ⟨row, found⟩ := outbox.session
  have ranged : toI64s [after.getD 0] = .ok () := toI64s_ok.mpr (by simpa using fits)
  have shown : outboxEntries E db sessionId (some (after.getD 0)) =
      entries.filter fun entry => after.getD 0 < entry.sequence := by
    rw [outboxEntries_of outbox.rows climbing]
    rfl
  rw [sessionSnapshot, found, ranged, shown]
  refine ⟨_, rfl, ?_⟩
  rw [forwardPage]
  generalize entries.filter (fun entry => after.getD 0 < entry.sequence) = later
  generalize max 1 (min limit 500) = bounded
  have short : (later.take (bounded + 1)).take bounded = later.take bounded := by
    rw [List.take_take, Nat.min_eq_left (Nat.le_succ bounded)]
  have more : (bounded < (later.take (bounded + 1)).length) = (bounded < later.length) := by
    rw [List.length_take]
    exact propext (by omega)
  simp only [short, gt_iff_lt, more]

theorem sessionSnapshot_found (session : ∃ row, db.sessions.get? sessionId = some row) {after : Option Nat}
    (fits : after.getD 0 < 2 ^ 63) (limit : Nat) : ∃ snapshot, sessionSnapshot E db sessionId after limit = .ok snapshot := by
  obtain ⟨row, found⟩ := session
  have ranged : toI64s [after.getD 0] = .ok () := toI64s_ok.mpr (by simpa using fits)
  rw [sessionSnapshot, found, ranged]
  exact ⟨_, rfl⟩

theorem sessionSnapshot_refused (session : ∃ row, db.sessions.get? sessionId = some row) {after : Option Nat}
    (large : 2 ^ 63 ≤ after.getD 0) (limit : Nat) :
    sessionSnapshot E db sessionId after limit = .error (.invalidData "integer exceeds sqlite range") := by
  obtain ⟨row, found⟩ := session
  have refused : toI64s [after.getD 0] = .error (.invalidData "integer exceeds sqlite range") := by
    rw [toI64s, ensure_error]
    exact ⟨fun each => absurd (each _ List.mem_cons_self) (Nat.not_lt.mpr large), rfl⟩
  rw [sessionSnapshot, found, refused]
  rfl

theorem sessionTranscriptTail_page (outbox : InOutbox db sessionId entries) (climbing : Climbing entries)
    (limit : Nat) : sessionTranscriptTail E db sessionId limit = tailPage entries limit := by
  have shown : outboxEntries E db sessionId none = entries := by
    rw [outboxEntries_of outbox.rows climbing]
    simp only [Option.all_none, List.filter_true]
  rw [sessionTranscriptTail, tailPage, shown]
  have same : max 1 (min limit SESSION_PROJECTION_TRANSCRIPT_LIMIT) = max 1 (min limit 500) := rfl
  rw [same]
  generalize max 1 (min limit 500) = bounded
  have newest : ((entries.reverse.take (bounded + 1)).take bounded).reverse = entries.drop (entries.length - bounded) := by
    rw [List.take_take, Nat.min_eq_left (Nat.le_succ bounded), List.take_reverse, List.reverse_reverse]
  have more : (bounded < (entries.reverse.take (bounded + 1)).length) = (0 < entries.length - bounded) := by
    rw [List.length_take, List.length_reverse]
    exact propext (by omega)
  simp only [newest, gt_iff_lt, more]

/-- The newest card of the outbox is the newest summary. -/
theorem newestSummary_outbox (entries : List TranscriptEntry) :
    (entries.filter fun entry => entry.kind = .compactSummary).getLast? =
      (newestSummary entries).map fun found => found.2.1 := by
  cases newest : newestSummary entries with
  | none =>
      have absent := newestSummary_none.mp newest
      have empty : entries.filter (fun entry => entry.kind = .compactSummary) = [] :=
        List.filter_eq_nil_iff.mpr fun entry member => by simpa using absent entry member
      rw [empty]
      rfl
  | some found =>
      obtain ⟨before, card, after⟩ := found
      obtain ⟨rfl, summary, quiet⟩ := newestSummary_split newest
      have later : after.filter (fun entry => entry.kind = .compactSummary) = [] :=
        List.filter_eq_nil_iff.mpr fun entry member => by simpa using quiet entry member
      rw [List.filter_append, List.filter_cons_of_pos (by simpa using summary), later, List.getLast?_concat]
      rfl

theorem sessionTranscriptProjection_window (outbox : InOutbox db sessionId entries) (climbing : Climbing entries)
    (fallbackLimit : Nat) :
    sessionTranscriptProjection E sessionId db fallbackLimit = projectionWindow entries fallbackLimit := by
  rw [sessionTranscriptProjection, outbox_sorted outbox.rows climbing fun _ row => row.kind = .compactSummary,
    List.head?_reverse, List.getLast?_map]
  have newest := newestSummary_outbox entries
  have kinds : (fun entry => decide ((outboxRow sessionId entry).2.kind = .compactSummary)) =
      fun entry => decide (entry.kind = .compactSummary) := rfl
  rw [kinds, newest]
  cases found : newestSummary entries with
  | none =>
      rw [projectionWindow, found]
      exact sessionTranscriptTail_page outbox climbing fallbackLimit
  | some split =>
      obtain ⟨before, card, later⟩ := split
      obtain ⟨whole, _, _⟩ := newestSummary_split found
      have member : card ∈ entries := whole ▸ List.mem_append_right _ List.mem_cons_self
      rw [projectionWindow, found]
      have floors : ((retainFrom card).elim card.sequence fun retain =>
          min (if retain < 2 ^ 63 then retain else card.sequence) card.sequence) =
          (retainFrom card).elim card.sequence fun floor => min floor card.sequence := by
        have below := outbox.ranged card member
        cases retainFrom card with
        | none => rfl
        | some retain =>
            change min (if retain < 2 ^ 63 then retain else card.sequence) card.sequence = min retain card.sequence
            split <;> omega
      have kept : ∀ floor, ((db.conversationOutbox.select fun key _ => key.1 = sessionId && floor ≤ key.2).insertionSort
          fun a b => a.1.2 ≤ b.1.2).map (fun row => row.2.entry) =
            entries.filter fun entry => floor ≤ entry.sequence := by
        intro floor
        rw [outbox_sorted outbox.rows climbing fun key _ => floor ≤ key.2, List.map_map]
        exact List.map_id _
      have number : (outboxRow sessionId card).1.2 = card.sequence := rfl
      have entry : (outboxRow sessionId card).2.entry = card := rfl
      simp only [Option.map_some, kept, number, entry, floors]
      rfl

end Outbox

/-! ## A transcript in the file -/

/-- These entries wait in the outbox, and the file holds each of them as it is read from there. -/
structure Waits (C : Codec) (db : E.Db) (sessionId : SessionId) (found : List ReadEntry)
    (waiting : List TranscriptEntry) : Prop where
  rows : (outboxOf db sessionId).Perm (waiting.map (outboxRow sessionId))
  climbing : Climbing waiting
  ranged : ∀ entry ∈ waiting, entry.sequence < 2 ^ 63
  known : ∃ again : TranscriptEntry → TranscriptEntry, ∀ entry ∈ waiting,
    C.entryFromStr (entryText C entry) = .ok (again entry) ∧ (again entry).sequence = entry.sequence ∧
      (existingIds found).lookup entry.sequence = some (again entry).entryId.uuid.toString

/-- The file holds all of these entries, and nothing else waits in the outbox of the session. -/
structure InFile (C : Codec) (store : ConversationStore) (workspaceRoot : String) (sessionId : SessionId)
    (held : Held E) (entries : List TranscriptEntry) : Prop where
  session : ∃ row, held.1.sessions.get? sessionId = some row ∧ row.workspaceRoot = workspaceRoot
  file : ∃ repaired found, repairAndRead C store sessionId held.2 = .ok (repaired, found) ∧
    found.map ReadEntry.entry = entries ∧ ∃ waiting, Waits C held.1 sessionId found waiting

section File

variable {held : Held E}

/-- A file that is read, beside an outbox without entries of the session. -/
theorem InFile.drained {db : E.Db} {file repaired : Bytes}
    (session : ∃ row, db.sessions.get? sessionId = some row ∧ row.workspaceRoot = workspaceRoot)
    (shown : read C store sessionId file = .ok (repaired, entries)) (nothing : outboxOf db sessionId = []) :
    InFile C store workspaceRoot sessionId (db, file) entries := by
  obtain ⟨found, accepted, same⟩ := read_ok.mp shown
  refine ⟨session, repaired, found, accepted, same.symm, [], ?_⟩
  exact ⟨.of_eq nothing, .nil, List.forall_mem_nil _, id, List.forall_mem_nil _⟩

/-- Reading the file again finds the same. -/
theorem repairAndRead_again {file repaired : Bytes} {found : List ReadEntry}
    (accepted : repairAndRead C store sessionId file = .ok (repaired, found)) :
    repairAndRead C store sessionId repaired = .ok (repaired, found) := by
  obtain ⟨fits, some, same, lines⟩ := repairAndRead_ok.mp accepted
  obtain ⟨whole, free, _⟩ := splitLines_spec (d := newline) file
  have split : splitLines newline repaired = ((splitLines newline file).1, []) := by
    rw [same, ← List.append_nil (joinLines newline _), splitLines_joinLines free, splitLines_free List.not_mem_nil,
      List.append_nil]
  refine repairAndRead_ok.mpr ⟨?_, ?_, ?_, ?_⟩
  · refine Nat.le_trans ?_ fits
    rw [same]
    conv_rhs => rw [← whole]
    exact (List.prefix_append _ _).length_le
  · rw [split]
    exact some
  · rw [split]
    exact same
  · rw [split]
    exact lines

/-- An acknowledgement of all that waits leaves nothing. -/
theorem acknowledge_all {db : E.Db} {through : Nat} (fits : through < 2 ^ 63)
    (below : ∀ row ∈ outboxOf db sessionId, row.1.2 ≤ through) :
    ∃ db', acknowledgeConversationOutbox E db sessionId through = .ok ((), db') ∧ db'.sessions = db.sessions ∧
      outboxOf db' sessionId = [] := by
  have ranged : toI64s [through] = .ok () := toI64s_ok.mpr (by simpa using fits)
  rw [acknowledgeConversationOutbox, ranged]
  refine ⟨_, rfl, rfl, ?_⟩
  rw [outboxOf, Table.select, Table.deleteWhere, List.filter_filter, List.filter_eq_nil_iff]
  intro row member kept
  simp only [Bool.and_eq_true, decide_eq_true_eq, Bool.not_and, Bool.or_eq_true, Bool.not_eq_true',
    decide_eq_false_iff_not] at kept
  have listed : row ∈ outboxOf db sessionId := List.mem_filter.mpr ⟨member, decide_eq_true kept.1⟩
  rcases kept.2 with other | above
  · exact other kept.1
  · exact above (below row listed)

/-- A drain of entries that the file holds takes them out of the outbox, and repairs the file. -/
theorem syncSessionConversation_held {row : SessionRow} {repaired : Bytes} {found : List ReadEntry}
    {waiting : List TranscriptEntry} (session : held.1.sessions.get? sessionId = some row)
    (root : row.workspaceRoot = workspaceRoot)
    (accepted : repairAndRead C store sessionId held.2 = .ok (repaired, found))
    (waits : Waits C held.1 sessionId found waiting) :
    ∃ db, syncSessionConversation E C (some store) workspaceRoot sessionId held = .ok (db, repaired) ∧
      db.sessions = held.1.sessions ∧ outboxOf db sessionId = [] := by
  obtain ⟨again, known⟩ := waits.known
  have entries : conversationOutboxEntries C held.1 sessionId = .ok (waiting.map again) := by
    rw [conversationOutboxEntries, outboxEntries_of waits.rows waits.climbing]
    simp only [Option.all_none, List.filter_true]
    exact mapM_map fun entry member => invalidJson_ok.mpr (known entry member).1
  have present : held.2 ≠ [] := by
    intro missing
    rw [missing] at accepted
    exact (repairAndRead_ok.mp accepted).2.1 rfl
  have synced : sync C store sessionId row.createdAtMs (waiting.map again) held.2 = .ok repaired := by
    refine sync_ok.mpr ⟨held.2, repaired, found, _, openFile_ok.mpr (.inl ⟨present, rfl⟩), accepted, append_held ?_⟩
    intro entry member
    obtain ⟨original, here, rfl⟩ := List.mem_map.mp member
    obtain ⟨_, number, listed⟩ := known original here
    rw [number]
    exact listed
  rw [syncSessionConversation, session]
  simp only [bind_ok, require_ok, ensure_ok, mapError_ok, Option.some.injEq, exists_eq_left', entries,
    Except.ok.injEq, synced, List.getLast?_map]
  cases last : waiting.getLast? with
  | none =>
      rw [List.getLast?_eq_none_iff] at last
      refine ⟨held.1, ⟨(), root, rfl⟩, rfl, ?_⟩
      have rows := waits.rows
      rw [last] at rows
      exact rows.eq_nil
  | some entry =>
      obtain ⟨first, split⟩ := List.getLast?_eq_some_iff.mp last
      have member : entry ∈ waiting := split ▸ List.mem_append_right _ List.mem_cons_self
      have number := (known entry member).2.1
      have below : ∀ row ∈ outboxOf held.1 sessionId, row.1.2 ≤ (again entry).sequence := by
        intro row listed
        obtain ⟨other, here, rfl⟩ := List.mem_map.mp (waits.rows.mem_iff.mp listed)
        have climbing := waits.climbing
        rw [split] at here climbing
        rw [number]
        rcases List.mem_append.mp here with earlier | same
        · exact Nat.le_of_lt ((List.pairwise_append.mp climbing).2.2 other earlier entry List.mem_cons_self)
        · rw [List.mem_singleton.mp same]
          exact Nat.le_refl _
      obtain ⟨db, acknowledged, sessions, drained⟩ :=
        acknowledge_all (number.symm ▸ waits.ranged entry member) below
      refine ⟨db, ⟨(), root, ?_⟩, sessions, drained⟩
      change (acknowledgeConversationOutbox E held.1 sessionId (again entry).sequence >>= _) = _
      rw [acknowledged]
      rfl

/-- Before each read the outbox is drained; the file holds what it held, and nothing waits any more. -/
theorem conversationEntries_held (inside : InFile C store workspaceRoot sessionId held entries) :
    ∃ held', conversationEntries E C workspaceRoot sessionId store held = .ok (entries, held') ∧
      InFile C store workspaceRoot sessionId held' entries := by
  obtain ⟨⟨row, session, root⟩, repaired, found, accepted, rfl, waiting, waits⟩ := inside
  obtain ⟨db, synced, sessions, drained⟩ := syncSessionConversation_held session root accepted waits
  have shown : read C store sessionId repaired = .ok (repaired, found.map ReadEntry.entry) :=
    read_ok.mpr ⟨found, repairAndRead_again accepted, rfl⟩
  refine ⟨(db, repaired), ?_, .drained ⟨row, sessions ▸ session, root⟩ shown drained⟩
  rw [conversationEntries, synced]
  exact bind_ok.mpr ⟨_, rfl, bind_ok.mpr ⟨_, mapError_ok.mpr shown, rfl⟩⟩

theorem conversationPage_held (inside : InFile C store workspaceRoot sessionId held entries) (after : Option Nat)
    (limit : Nat) (tail : Bool) :
    ∃ held', conversationPage E C (some store) workspaceRoot sessionId held after limit tail =
        .ok (some (if tail then tailPage entries limit else forwardPage entries after limit), held') ∧
      InFile C store workspaceRoot sessionId held' entries := by
  obtain ⟨held', shown, inside'⟩ := conversationEntries_held inside
  refine ⟨held', ?_, inside'⟩
  rw [conversationPage, shown]
  rfl

end File

/-! ## Pages that are followed -/

/-- The entries of the pages from a cursor on, each taken past the one before it, up to the first page without more. -/
inductive Followed {σ : Type} (shows : σ → Option Nat → TranscriptPage → σ → Prop) :
    σ → Option Nat → List TranscriptEntry → Prop
  | last {before after : σ} {cursor : Option Nat} {page : TranscriptPage} (shown : shows before cursor page after)
      (ends : page.hasMore = false) : Followed shows before cursor page.entries
  | more {before after : σ} {cursor : Option Nat} {page : TranscriptPage} {rest : List TranscriptEntry}
      (shown : shows before cursor page after) (further : page.hasMore = true)
      (later : Followed shows after page.nextAfter rest) : Followed shows before cursor (page.entries ++ rest)

section Followed

variable {σ : Type} {shows : σ → Option Nat → TranscriptPage → σ → Prop} {limit : Nat}

/-- The state and the cursor decide the page. -/
def Decided (shows : σ → Option Nat → TranscriptPage → σ → Prop) : Prop :=
  ∀ before cursor page page' after after', shows before cursor page after → shows before cursor page' after' →
    page = page' ∧ after = after'

theorem Followed.unique (once : Decided shows) {before : σ} {cursor : Option Nat} {one two : List TranscriptEntry}
    (first : Followed shows before cursor one)
    (second : Followed shows before cursor two) : one = two := by
  induction first generalizing two with
  | last shown ends =>
      cases second with
      | last other _ => rw [(once _ _ _ _ _ _ shown other).1]
      | more other further _ =>
          rw [(once _ _ _ _ _ _ shown other).1, further] at ends
          cases ends
  | more shown further later ih =>
      cases second with
      | last other ends =>
          rw [(once _ _ _ _ _ _ shown other).1, ends] at further
          cases further
      | more other _ later' =>
          obtain ⟨rfl, rfl⟩ := once _ _ _ _ _ _ shown other
          rw [ih later']

/-- A cursor that a page hands out. -/
def Handed (entries : List TranscriptEntry) (cursor : Option Nat) : Prop :=
  ∀ sequence ∈ cursor, ∃ entry ∈ entries, entry.sequence = sequence

/-- A page that is not the last one shows something, and what lies past it is the rest. -/
theorem forwardPage_next (climbing : Climbing entries) {cursor : Option Nat}
    (further : (forwardPage entries cursor limit).hasMore = true) :
    (forwardPage entries cursor limit).entries ≠ [] ∧
      Handed entries (forwardPage entries cursor limit).nextAfter ∧
      (entries.filter fun entry => cursor.getD 0 < entry.sequence) = (forwardPage entries cursor limit).entries ++
        entries.filter fun entry => (forwardPage entries cursor limit).nextAfter.getD 0 < entry.sequence := by
  have above : ∀ entry ∈ entries.filter (fun entry => cursor.getD 0 < entry.sequence),
      cursor.getD 0 < entry.sequence := fun entry member => of_decide_eq_true (List.mem_filter.mp member).2
  have inside : ∀ entry ∈ entries.filter (fun entry => cursor.getD 0 < entry.sequence), entry ∈ entries :=
    fun entry member => (List.mem_filter.mp member).1
  have sorted : Climbing (entries.filter fun entry => cursor.getD 0 < entry.sequence) := climbing.filter _
  have twice : ∀ bound, cursor.getD 0 ≤ bound →
      entries.filter (fun entry => bound < entry.sequence) =
        (entries.filter fun entry => cursor.getD 0 < entry.sequence).filter fun entry => bound < entry.sequence := by
    intro bound past
    rw [List.filter_filter]
    refine List.filter_congr fun entry _ => ?_
    by_cases here : bound < entry.sequence
    · simp [here, Nat.lt_of_le_of_lt past here]
    · simp [here]
  rw [forwardPage] at further ⊢
  generalize entries.filter (fun entry => cursor.getD 0 < entry.sequence) = later at *
  have positive : 0 < max 1 (min limit 500) := by omega
  generalize max 1 (min limit 500) = bounded at *
  have long : bounded < later.length := of_decide_eq_true further
  cases ends : (later.take bounded).getLast? with
  | none =>
      have lengths := congrArg List.length (List.getLast?_eq_none_iff.mp ends)
      rw [List.length_take, List.length_nil] at lengths
      omega
  | some last =>
      have member : last ∈ later := List.mem_of_mem_take (List.mem_of_getLast? ends)
      refine ⟨?_, ?_, ?_⟩
      · intro empty
        have empty : later.take bounded = [] := empty
        rw [empty] at ends
        cases ends
      · intro sequence handed
        cases handed
        exact ⟨last, inside last member, rfl⟩
      · change later = later.take bounded ++ entries.filter fun entry => last.sequence < entry.sequence
        rw [twice last.sequence (Nat.le_of_lt (above last member)), filter_past_page sorted ends,
          List.take_append_drop]

/-- Where each page is that of the transcript, following the pages shows every entry once and in order. -/
theorem followed_iff (limit : Nat) (Inv : σ → Prop) (climbing : Climbing entries) (positive : ∀ entry ∈ entries, 0 < entry.sequence)
    (pages : ∀ before cursor, Inv before → Handed entries cursor →
      ∃ after, shows before cursor (forwardPage entries cursor limit) after ∧ Inv after)
    (once : Decided shows) {start : σ} (inv : Inv start) (items : List TranscriptEntry) : Followed shows start none items ↔ items = entries := by
  have rest : ∀ (left : Nat) (before : σ) (cursor : Option Nat), Inv before → Handed entries cursor →
      (entries.filter fun entry => cursor.getD 0 < entry.sequence).length = left →
        Followed shows before cursor (entries.filter fun entry => cursor.getD 0 < entry.sequence) := by
    intro left
    induction left using Nat.strongRecOn with
    | ind left ih =>
        intro before cursor inv handed size
        obtain ⟨after, shown, inv'⟩ := pages before cursor inv handed
        cases further : (forwardPage entries cursor limit).hasMore with
        | false =>
            have whole : (forwardPage entries cursor limit).entries =
                entries.filter fun entry => cursor.getD 0 < entry.sequence :=
              List.take_of_length_le (Nat.le_of_not_lt (of_decide_eq_false further))
            rw [← whole]
            exact .last shown further
        | true =>
            obtain ⟨some, handed', split⟩ := forwardPage_next climbing further
            have lengths := congrArg List.length split
            rw [List.length_append] at lengths
            have shorter := List.length_pos_iff.mpr some
            rw [split]
            exact .more shown further (ih _ (by omega) after _ inv' handed' rfl)
  have all : Followed shows start none entries := by
    have everything : entries.filter (fun entry => (none : Option Nat).getD 0 < entry.sequence) = entries :=
      List.filter_eq_self.mpr fun entry member => decide_eq_true (positive entry member)
    have reached := rest _ start none inv (fun _ impossible => nomatch impossible) rfl
    rw [everything] at reached
    exact reached
  exact ⟨fun other => other.unique once all, fun same => same ▸ all⟩

end Followed

/-! ## The two back ends -/

section Agreement

variable (E C store workspaceRoot sessionId)

/-- The forward page of the outbox, which a query leaves as it is. -/
def OutboxPage (db : E.Db) (limit : Nat) (_ : Unit) (cursor : Option Nat) (page : TranscriptPage) (_ : Unit) : Prop :=
  ∃ snapshot, sessionSnapshot E db sessionId cursor limit = .ok snapshot ∧ snapshot.transcript = page

def FilePage (limit : Nat) (held : Held E) (cursor : Option Nat) (page : TranscriptPage) (held' : Held E) : Prop :=
  conversationPage E C (some store) workspaceRoot sessionId held cursor limit false = .ok (some page, held')

/-- The transcript of an answer. -/
def transcriptOf (answer : Except StorageError (SessionSnapshot × Held E)) : Except StorageError TranscriptPage :=
  answer.map fun answered => answered.1.transcript

/-- An outbox and a file show the same pages of a transcript, for every cursor that a column takes; the outbox refuses
the others, and so does the engine over either. -/
structure BackEndsAgree (db : E.Db) (held : Held E) (entries : List TranscriptEntry) : Prop where
  forward : ∀ after limit, after.getD 0 < 2 ^ 63 →
    ∃ page held', OutboxPage E sessionId db limit () after page () ∧
      FilePage E C store workspaceRoot sessionId limit held after page held'
  refused : ∀ after limit, 2 ^ 63 ≤ after.getD 0 →
    sessionSnapshot E db sessionId after limit = .error (.invalidData "integer exceeds sqlite range") ∧
      ∃ held', FilePage E C store workspaceRoot sessionId limit held after ⟨[], none, false⟩ held'
  tail : ∀ after limit, ∃ held', conversationPage E C (some store) workspaceRoot sessionId held after limit true =
    .ok (some (sessionTranscriptTail E db sessionId limit), held')
  projection : ∀ fallbackLimit, ∃ shown held',
    conversationEntries E C workspaceRoot sessionId store held = .ok (shown, held') ∧
      projectionWindow shown fallbackLimit = sessionTranscriptProjection E sessionId db fallbackLimit
  outboxFollowed : ∀ limit items, Followed (OutboxPage E sessionId db limit) () none items ↔ items = entries
  fileFollowed : ∀ limit items,
    Followed (FilePage E C store workspaceRoot sessionId limit) held none items ↔ items = entries
  snapshots : ∀ after limit, transcriptOf E (sessionSnapshotV2 E C none workspaceRoot sessionId (db, []) after limit) =
    transcriptOf E (sessionSnapshotV2 E C (some store) workspaceRoot sessionId held after limit)

end Agreement

section Agree

variable {db : E.Db} {held : Held E}

theorem forwardPage_past (ranged : ∀ entry ∈ entries, entry.sequence < 2 ^ 63) {after : Option Nat}
    (large : 2 ^ 63 ≤ after.getD 0) (limit : Nat) : forwardPage entries after limit = ⟨[], none, false⟩ := by
  have nothing : entries.filter (fun entry => after.getD 0 < entry.sequence) = [] := by
    refine List.filter_eq_nil_iff.mpr fun entry member past => ?_
    have below := ranged entry member
    have past := of_decide_eq_true past
    omega
  rw [forwardPage, nothing]
  simp

end Agree

/-! ## A transcript of one entry -/

def pagedSession : SessionRow :=
  ⟨1, 1, .ready, sampleBinding, none, 1, 1, "first", "/workspace", none, none⟩

def fileDatabase : plain.Db :=
  { Database.empty plain.Digest with sessions := ⟨[(sampleSession, pagedSession)], List.nodup_singleton _⟩ }

def outboxDatabase : plain.Db :=
  { fileDatabase with
    conversationOutbox := ⟨[outboxRow sampleSession (sampleEntry 1 "first")], List.nodup_singleton _⟩ }

def pagedEntries : List TranscriptEntry := [sampleEntry 1 "first"]

theorem pagedEntries_climbing : Climbing pagedEntries := List.pairwise_singleton _ _

theorem pagedEntries_positive : ∀ entry ∈ pagedEntries, 0 < entry.sequence := by
  intro entry member
  rw [List.mem_singleton.mp member]
  exact Nat.zero_lt_one

theorem outboxDatabase_holds : InOutbox outboxDatabase sampleSession pagedEntries := by
  refine ⟨⟨pagedSession, rfl⟩, .of_eq rfl, ?_⟩
  intro entry member
  rw [List.mem_singleton.mp member]
  change 1 < 2 ^ 63
  omega

theorem firstFile_holds : InFile tornCodec sampleStore "/workspace" sampleSession (fileDatabase, firstFile)
    pagedEntries := by
  have shown : read tornCodec sampleStore sampleSession firstFile = .ok (firstFile, pagedEntries) := by
    decide +kernel
  exact InFile.drained ⟨pagedSession, rfl, rfl⟩ shown rfl

end LatteCode.Engine
