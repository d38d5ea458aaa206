import LatteCode.Storage.Outbox
import LatteCode.Engine.Torn
/- Drains of the outbox into the conversation file, by any number of processes at once. -/

namespace LatteCode.Engine
open Keyed Lines Outcome Runs Storage

/-! ## The outbox that a drain reads -/

def Fields.inOrder : List (String × Json) → Fields
  | [] => .nil
  | (key, value) :: rest => .cons key value (Fields.inOrder rest)

/-- The derived `Serialize`: the fields in their order, without an absent payload. -/
def entryJson (entry : TranscriptEntry) : Json := .object (Fields.inOrder ([
  ("entry_id", .string entry.entryId.uuid.toString),
  ("sequence", .ofNat entry.sequence),
  ("turn_id", .ofText (entry.turnId.map TurnId.toString)),
  ("kind", .string (transcriptKindName entry.kind)),
  ("text", .string entry.text)] ++
  (entry.payload.map fun value => ("payload", value)).toList ++ [
  ("source_key", .string entry.sourceKey),
  ("created_at_ms", .ofNat entry.createdAtMs)]))

def entryText (C : Codec) (entry : TranscriptEntry) : Bytes := (entryJson entry).toVec C.floats

def conversationOutboxEntries {E : Environment} (C : Codec) (db : E.Db) (sessionId : SessionId) :
    Except StorageError (List TranscriptEntry) :=
  (outboxEntries E db sessionId none).mapM fun entry => invalidJson (C.entryFromStr (entryText C entry))

/-! ## Processes -/

/-- How far one run of `sync_session_conversation` is. -/
inductive Drain where
  | idle
  | read (createdAtMs : Nat) (entries : List TranscriptEntry)
  | synced (through : Option Nat)
  | done
  | failed (error : StorageError)
deriving DecidableEq

/-- The database, the conversation file of one session, and the drains of it. -/
structure World (E : Environment) where
  db : E.Db
  file : Bytes
  drains : Nat → Drain

inductive Act where
  | call (op : Operation)
  | readOutbox (drain : Nat)
  | sync (drain : Nat)
  | acknowledge (drain : Nat)

section Steps

variable (E : Environment) (C : Codec) (store : ConversationStore) (sessionId : SessionId)

def World.start : World E := ⟨Database.empty E.Digest, [], fun _ => .idle⟩

def World.set (w : World E) (drain : Nat) (phase : Drain) : World E :=
  { w with drains := fun other => if other = drain then phase else w.drains other }

/-- A drain of an unknown session ends before it reads the outbox. -/
def World.readOutbox (w : World E) (drain : Nat) : World E :=
  match w.drains drain, w.db.sessions.get? sessionId with
  | .idle, some session =>
      match conversationOutboxEntries C w.db sessionId with
      | .ok entries => w.set E drain (.read session.createdAtMs entries)
      | .error error => w.set E drain (.failed error)
  | _, _ => w

/-- `sync` holds the lock of the file. -/
def World.sync (w : World E) (drain : Nat) : World E :=
  match w.drains drain with
  | .read createdAtMs entries =>
      match Engine.sync C store sessionId createdAtMs entries w.file with
      | .ok file => { w.set E drain (.synced (entries.getLast?.map TranscriptEntry.sequence)) with file := file }
      | .error failed => { w.set E drain (.failed (.invalidData failed.message)) with file := failed.file }
  | _ => w

def World.acknowledge (w : World E) (drain : Nat) : World E :=
  match w.drains drain with
  | .synced none => w.set E drain .done
  | .synced (some through) =>
      match exec E w.db (.acknowledgeOutbox sessionId through) with
      | .ok (_, db) => { w.set E drain .done with db := db }
      | .error error => w.set E drain (.failed error)
  | _ => w

/-- Only a drain takes entries out of the outbox. -/
def World.step (w : World E) : Act → World E
  | .call op => if Storage.drains sessionId op then w else { w with db := Storage.step E w.db op }
  | .readOutbox drain => w.readOutbox E C sessionId drain
  | .sync drain => w.sync E C store sessionId drain
  | .acknowledge drain => w.acknowledge E sessionId drain

/-- The world after the first `k` acts. -/
abbrev worldAt (acts : List Act) (k : Nat) : World E :=
  stateAt (World.step E C store sessionId) (World.start E) acts k

/-- The entries that the first `k` acts commit, in the order of their commits. -/
def committedAt (acts : List Act) (k : Nat) : List TranscriptEntry :=
  (List.range k).flatMap fun j => appendedEntries (worldAt E C store sessionId acts j).db
    (worldAt E C store sessionId acts (j + 1)).db sessionId

end Steps

/-! ## A sync that catches up -/

section CatchUp

variable {C : Codec} {store : ConversationStore} {sessionId : SessionId} {f : BitVec 64 → BitVec 64}
  {createdAtMs : Nat}

/-- The parser accepts the header of a new file. -/
structure HeaderReads (C : Codec) (store : ConversationStore) (sessionId : SessionId) (createdAtMs : Nat) : Prop where
  line : C.fromSlice (headerLine C store sessionId createdAtMs) = .ok (sessionRecord store sessionId createdAtMs)
  fits : (headerLine C store sessionId createdAtMs).length ≤ MAX_RECORD_BYTES

abbrev Climbing (entries : List TranscriptEntry) : Prop :=
  entries.Pairwise fun first second => first.sequence < second.sequence

def recordedFile (C : Codec) (store : ConversationStore) (sessionId : SessionId) (createdAtMs : Nat)
    (entries : List TranscriptEntry) : Bytes :=
  joinLines newline (headerLine C store sessionId createdAtMs :: entries.map (recordLine C))

theorem recordedFile_append (entries more : List TranscriptEntry) :
    recordedFile C store sessionId createdAtMs (entries ++ more) =
      recordedFile C store sessionId createdAtMs entries ++ joinLines newline (more.map (recordLine C)) := by
  rw [recordedFile, List.map_append, ← List.cons_append, joinLines_append, recordedFile]

theorem recordedFile_ne_nil (entries : List TranscriptEntry) :
    recordedFile C store sessionId createdAtMs entries ≠ [] := by
  rw [recordedFile, joinLines_cons]
  exact fun none => List.cons_ne_nil _ _ (List.append_eq_nil_iff.mp none).2

theorem checkHeader_reads (header : HeaderReads C store sessionId createdAtMs) :
    checkHeader C store sessionId (headerLine C store sessionId createdAtMs) = .ok () := by
  rw [checkHeader, header.line]
  refine bind_ok.mpr ⟨_, rfl, ensure_ok.mpr ⟨?_, ?_, ?_, ?_⟩⟩
  · rw [textMember, sessionRecord, Json.get?_ofMembers]
    rfl
  · rw [numberMember, sessionRecord, Json.get?_ofMembers]
    rfl
  · rw [textMember, sessionRecord, Json.get?_ofMembers]
    rfl
  · rw [textMember, sessionRecord, Json.get?_ofMembers]
    rfl

theorem repair_recorded (floats : C.floats.OneLine) (header : HeaderReads C store sessionId createdAtMs)
    {entries : List TranscriptEntry} (records : ∀ entry ∈ entries, C.Records f entry) (climbing : Climbing entries)
    (positive : ∀ entry ∈ entries, 0 < entry.sequence)
    (fits : (recordedFile C store sessionId createdAtMs entries).length ≤ MAX_FILE_BYTES) :
    repairAndRead C store sessionId (recordedFile C store sessionId createdAtMs entries) =
      .ok (recordedFile C store sessionId createdAtMs entries,
        entries.map fun entry => ⟨entry.entryId.uuid.toString, readBack f entry⟩) := by
  have apart : ∀ line ∈ headerLine C store sessionId createdAtMs :: entries.map (recordLine C), newline ∉ line := by
    rw [List.forall_mem_cons]
    refine ⟨headerLine_line floats createdAtMs, ?_⟩
    intro line member
    obtain ⟨entry, _, rfl⟩ := List.mem_map.mp member
    exact recordLine_line floats entry
  have split : splitLines newline (recordedFile C store sessionId createdAtMs entries) =
      (headerLine C store sessionId createdAtMs :: entries.map (recordLine C), []) := by
    have joined := splitLines_joinLines apart []
    rw [List.append_nil, splitLines_free List.not_mem_nil, List.append_nil] at joined
    exact joined
  refine repairAndRead_ok.mpr ⟨fits, ?_, ?_, ?_⟩
  · rw [split]
    exact List.cons_ne_nil _ _
  · rw [split]
    rfl
  · rw [split]
    rw [List.filter_cons, if_pos (decide_eq_true (headerLine_ne_nil createdAtMs)), filter_recordLines, readLines]
    exact bind_ok.mpr ⟨(), checkHeader_reads header, readEntries_records records climbing positive⟩

theorem append_fresh {existing : Existing} {entries : List TranscriptEntry} {written : Nat × Bytes}
    (fresh : ∀ entry ∈ entries, existing.lookup entry.sequence = none) (climbing : Climbing entries)
    (later : ∀ entry ∈ entries, written.1 < entry.sequence)
    (fits : ∀ entry ∈ entries, (recordLine C entry).length ≤ MAX_RECORD_BYTES) :
    ∃ last, entries.foldlM (appendEntry C existing) written =
      .ok (last, written.2 ++ joinLines newline (entries.map (recordLine C))) := by
  induction entries generalizing written with
  | nil => exact ⟨written.1, congrArg Except.ok (Prod.ext rfl (List.append_nil _).symm)⟩
  | cons entry entries ih =>
      rw [List.forall_mem_cons] at fresh later fits
      obtain ⟨above, climbing⟩ := List.pairwise_cons.mp climbing
      have one := appendEntry_ok.mpr (.wrote fresh.1 later.1 fits.1)
      obtain ⟨last, rest⟩ := @ih (entry.sequence, written.2 ++ (recordLine C entry ++ [newline])) fresh.2 climbing
        above fits.2
      refine ⟨last, ?_⟩
      rw [List.foldlM_cons, bind_ok]
      refine ⟨_, one, ?_⟩
      rw [rest, List.map_cons, joinLines_cons]
      simp only [List.append_assoc, List.cons_append, List.nil_append]

/-- What the file holds, and what a drain read, are both the beginning of one list: the sync leaves the longer. -/
theorem append_catches_up {kept acked waiting all : List TranscriptEntry} (records : ∀ entry ∈ all, C.Records f entry)
    (climbing : Climbing all) (positive : ∀ entry ∈ all, 0 < entry.sequence) (held : kept <+: all)
    (seen : acked ++ waiting <+: all) (before : acked <+: kept) (file : Bytes) :
    ∃ last new, waiting.foldlM (appendEntry C (kept.map fun entry => (entry.sequence, entry.entryId.uuid.toString)))
        (((kept.getLast?).map TranscriptEntry.sequence).getD 0, file) =
          .ok (last, file ++ joinLines newline (new.map (recordLine C))) ∧
      kept ++ new <+: all ∧ acked ++ waiting <+: kept ++ new := by
  have known : ∀ entry ∈ kept, (kept.map fun entry => (entry.sequence, entry.entryId.uuid.toString)).lookup
      entry.sequence = some entry.entryId.uuid.toString := fun entry member =>
    lookup_climbing (climbing.sublist held.sublist) member
  rcases List.prefix_or_prefix_of_prefix held seen with short | long
  · obtain ⟨first, rfl⟩ := before
    obtain ⟨new, rfl⟩ := (List.prefix_append_right_inj acked).mp short
    rw [← List.append_assoc] at seen
    have both := climbing.sublist seen.sublist
    have above : ∀ entry ∈ new, ∀ old ∈ acked ++ first, old.sequence < entry.sequence := fun entry member old there =>
      (List.pairwise_append.mp both).2.2 old there entry member
    have fresh : ∀ entry ∈ new, ((acked ++ first).map fun entry =>
        (entry.sequence, entry.entryId.uuid.toString)).lookup entry.sequence = none := by
      intro entry member
      rw [List.lookup_eq_none_iff]
      intro pair present
      obtain ⟨old, there, rfl⟩ := List.mem_map.mp present
      exact bne_iff_ne.mpr (Nat.ne_of_gt (above entry member old there))
    have later : ∀ entry ∈ new, (((acked ++ first).getLast?).map TranscriptEntry.sequence).getD 0 < entry.sequence := by
      intro entry member
      cases last : (acked ++ first).getLast? with
      | none => exact positive entry (seen.subset (List.mem_append_right _ member))
      | some old => exact above entry member old (List.mem_of_getLast? last)
    obtain ⟨last, appended⟩ := @append_fresh C _ new
      ((((acked ++ first).getLast?).map TranscriptEntry.sequence).getD 0, file) fresh
      (List.pairwise_append.mp both).2.1 later
      fun entry member => (records entry (seen.subset (List.mem_append_right _ member))).fits
    refine ⟨last, new, ?_, seen, ?_⟩
    · rw [List.foldlM_append]
      exact bind_ok.mpr ⟨_, append_held fun entry member => known entry (List.mem_append_right _ member), appended⟩
    · simp only [List.append_assoc, List.prefix_refl]
  · refine ⟨((kept.getLast?).map TranscriptEntry.sequence).getD 0, [], ?_, ?_, ?_⟩
    · change _ = Except.ok (_, file ++ [])
      rw [List.append_nil]
      exact append_held fun entry member => known entry (long.subset (List.mem_append_right _ member))
    · rw [List.append_nil]
      exact held
    · rw [List.append_nil]
      exact long

/-- What the file of a session holds, once it is there. -/
def FileHolds (C : Codec) (store : ConversationStore) (sessionId : SessionId) (file : Bytes)
    (kept : List TranscriptEntry) : Prop :=
  (file = [] ∧ kept = []) ∨ ∃ createdAtMs, HeaderReads C store sessionId createdAtMs ∧
    file = recordedFile C store sessionId createdAtMs kept

/-- A sync of what a drain read succeeds, and the file then holds at least that. -/
theorem sync_catches_up (floats : C.floats.OneLine) {kept acked waiting all : List TranscriptEntry} {file : Bytes}
    (records : ∀ entry ∈ all, C.Records f entry) (climbing : Climbing all)
    (positive : ∀ entry ∈ all, 0 < entry.sequence) (held : kept <+: all) (seen : acked ++ waiting <+: all)
    (before : acked <+: kept) (some : acked ++ waiting ≠ []) (header : HeaderReads C store sessionId createdAtMs)
    (holds : FileHolds C store sessionId file kept) (fits : file.length ≤ MAX_FILE_BYTES) :
    ∃ file' new, sync C store sessionId createdAtMs waiting file = .ok file' ∧ kept ++ new <+: all ∧
      acked ++ waiting <+: kept ++ new ∧ FileHolds C store sessionId file' (kept ++ new) := by
  have opens : ∃ created, HeaderReads C store sessionId created ∧
      openFile C store sessionId createdAtMs waiting file = .ok (recordedFile C store sessionId created kept) ∧
      (recordedFile C store sessionId created kept).length ≤ MAX_FILE_BYTES := by
    rcases holds with ⟨rfl, rfl⟩ | ⟨created, opened, rfl⟩
    · have all : waiting ≠ [] := by
        rw [List.prefix_nil.mp before] at some
        exact some
      have only : recordedFile C store sessionId createdAtMs [] = headerLine C store sessionId createdAtMs ++ [newline] := by
        rw [recordedFile, List.map_nil, joinLines_cons]
        rfl
      refine ⟨createdAtMs, header, ?_, ?_⟩
      · rw [only]
        exact openFile_ok.mpr (.inr ⟨rfl, all, header.fits, rfl⟩)
      · rw [only, List.length_append, List.length_singleton]
        have bound := header.fits
        simp only [MAX_RECORD_BYTES, MAX_FILE_BYTES] at bound ⊢
        omega
    · exact ⟨created, opened, openFile_ok.mpr (.inl ⟨recordedFile_ne_nil kept, rfl⟩), fits⟩
  obtain ⟨created, reads, opened, small⟩ := opens
  obtain ⟨last, new, appended, within, covers⟩ := append_catches_up records climbing positive held seen before
    (recordedFile C store sessionId created kept)
  have repaired := repair_recorded (f := f) floats reads (fun entry member => records entry (held.subset member))
    (climbing.sublist held.sublist) (fun entry member => positive entry (held.subset member)) small
  have ids : existingIds (kept.map fun entry => (⟨entry.entryId.uuid.toString, readBack f entry⟩ : ReadEntry)) =
      kept.map fun entry => (entry.sequence, entry.entryId.uuid.toString) := by
    rw [existingIds, List.map_map]
    rfl
  have lastRead : lastSequence (kept.map fun entry => (⟨entry.entryId.uuid.toString, readBack f entry⟩ : ReadEntry)) =
      ((kept.getLast?).map TranscriptEntry.sequence).getD 0 := by
    rw [lastSequence, List.getLast?_map, Option.map_map]
    rfl
  refine ⟨recordedFile C store sessionId created kept ++ joinLines newline (new.map (recordLine C)), new,
    sync_ok.mpr ⟨_, _, _, last, opened, repaired, ?_⟩, within, covers, .inr ⟨created, reads, ?_⟩⟩
  · rw [ids, lastRead]
    exact appended
  · exact (recordedFile_append kept new).symm

end CatchUp

/-! ## Runs -/

section Runs

variable {E : Environment} {C : Codec} {store : ConversationStore} {sessionId : SessionId}
  {f : BitVec 64 → BitVec 64} {acts : List Act} {k : Nat}

/-- The parsers read back every text that an entry is written to, on its way through the outbox and the file. -/
structure Codec.Carries (C : Codec) (f : BitVec 64 → BitVec 64) (entry : TranscriptEntry) : Prop where
  outbox : C.entryFromStr (entryText C entry) = .ok (readBack f entry)
  records : C.Records f (readBack f entry)

/-- The outbox read that started a drain, and what had been committed before it. -/
def Began (E : Environment) (C : Codec) (store : ConversationStore) (sessionId : SessionId) (acts : List Act)
    (k drain : Nat) (seen : List TranscriptEntry) : Prop :=
  ∃ i, i < k ∧ acts[i]? = some (.readOutbox drain) ∧
    (worldAt E C store sessionId acts i).drains drain = .idle ∧
    (worldAt E C store sessionId acts (i + 1)).drains drain ≠ .idle ∧
    seen = committedAt E C store sessionId acts i

theorem Began.later {drain : Nat} {seen : List TranscriptEntry} (began : Began E C store sessionId acts k drain seen) :
    Began E C store sessionId acts (k + 1) drain seen := by
  obtain ⟨i, before, facts⟩ := began
  exact ⟨i, Nat.lt_succ_of_lt before, facts⟩

/-- What a drain knows, when the file holds `kept`. -/
inductive Phase (f : BitVec 64 → BitVec 64) (opens : Nat → Prop) (began : List TranscriptEntry → Prop)
    (kept : List TranscriptEntry) : Drain → Prop
  | idle : Phase f opens began kept .idle
  | read {createdAtMs : Nat} {acked waiting : List TranscriptEntry} (start : began (acked ++ waiting))
      (header : opens createdAtMs) (some : acked ++ waiting ≠ []) (before : acked <+: kept)
      (ranged : ∀ entry ∈ waiting, entry.sequence < 2 ^ 63) :
      Phase f opens began kept (.read createdAtMs (waiting.map (readBack f)))
  | synced {acked waiting : List TranscriptEntry} (start : began (acked ++ waiting))
      (covered : acked ++ waiting <+: kept) (ranged : ∀ entry ∈ waiting, entry.sequence < 2 ^ 63) :
      Phase f opens began kept (.synced (waiting.getLast?.map TranscriptEntry.sequence))
  | done {seen : List TranscriptEntry} (start : began seen) (covered : seen <+: kept) :
      Phase f opens began kept .done

theorem Phase.later {opens : Nat → Prop} {began began' : List TranscriptEntry → Prop}
    {kept kept' : List TranscriptEntry} {drain : Drain} (phase : Phase f opens began kept drain)
    (starts : ∀ seen, began seen → began' seen) (grown : kept <+: kept') : Phase f opens began' kept' drain := by
  cases phase with
  | idle => exact .idle
  | read start header some before ranged => exact .read (starts _ start) header some (before.trans grown) ranged
  | synced start covered ranged => exact .synced (starts _ start) (covered.trans grown) ranged
  | done start covered => exact .done (starts _ start) (covered.trans grown)

/-- The committed entries are split once by what was acknowledged, and once, later, by what the file holds. -/
structure Drained (E : Environment) (C : Codec) (store : ConversationStore) (sessionId : SessionId)
    (f : BitVec 64 → BitVec 64) (acts : List Act) (k : Nat) (w : World E) (all kept : List TranscriptEntry) :
    Prop where
  reached : Reachable E w.db
  held : kept <+: all
  climbing : Climbing all
  sequences : ∀ entry ∈ all, 0 < entry.sequence ∧ entry.sequence ≤ lastSeqOf w.db sessionId
  born : w.db.sessions.get? sessionId ≠ none → all ≠ []
  file : FileHolds C store sessionId w.file (kept.map (readBack f))
  outbox : ∃ acked waiting, all = acked ++ waiting ∧ acked <+: kept ∧
    outboxOf w.db sessionId = waiting.map (outboxRow sessionId)
  phases : ∀ drain, Phase f (HeaderReads C store sessionId) (Began E C store sessionId acts k drain) kept
    (w.drains drain)

/-- A drain moves, and nothing else but the file and the outbox. -/
theorem Drained.phased {w : World E} {all kept kept' : List TranscriptEntry} {drain : Nat} {phase : Drain}
    (inv : Drained E C store sessionId f acts k w all kept) (grown : kept <+: kept')
    (taken : Phase f (HeaderReads C store sessionId) (Began E C store sessionId acts (k + 1) drain) kept' phase)
    (other : Nat) : Phase f (HeaderReads C store sessionId) (Began E C store sessionId acts (k + 1) other) kept'
      ((w.set E drain phase).drains other) := by
  change Phase _ _ _ _ (if other = drain then phase else w.drains other)
  split
  case isTrue here =>
    subst here
    exact taken
  case isFalse => exact (inv.phases other).later (fun _ => Began.later) grown

theorem appendedEntries_self (db : E.Db) : appendedEntries db db sessionId = [] := by
  have grown : OutboxGrown db db sessionId [] := .same rfl
  exact grown.entries

/-- A call of any process other than the acknowledgement. -/
theorem Drained.called {w : World E} {all kept : List TranscriptEntry} {op : Operation}
    (inv : Drained E C store sessionId f acts k w all kept) (keeps : Storage.drains sessionId op = false)
    (first : w.db.sessions.get? sessionId = none → (Storage.step E w.db op).sessions.get? sessionId ≠ none →
      all ++ appendedEntries w.db (Storage.step E w.db op) sessionId ≠ []) :
    Drained E C store sessionId f acts (k + 1) { w with db := Storage.step E w.db op }
      (all ++ appendedEntries w.db (Storage.step E w.db op) sessionId) kept := by
  obtain ⟨rising, inside, climbing⟩ := (step_session inv.reached op sessionId).sequences
  obtain ⟨acked, waiting, rfl, before, rows⟩ := inv.outbox
  refine ⟨inv.reached.step op, inv.held.trans (List.prefix_append _ _), ?_, ?_, ?_, inv.file, ?_, ?_⟩
  · refine List.pairwise_append.mpr ⟨inv.climbing, climbing, ?_⟩
    intro old early new late
    exact Nat.lt_of_le_of_lt (inv.sequences old early).2 (inside new late).1
  · intro entry member
    rcases List.mem_append.mp member with early | late
    · exact ⟨(inv.sequences entry early).1, Nat.le_trans (inv.sequences entry early).2 rising⟩
    · exact ⟨Nat.lt_of_le_of_lt (Nat.zero_le _) (inside entry late).1, (inside entry late).2⟩
  · intro present empty
    by_cases absent : w.db.sessions.get? sessionId = none
    · exact first absent present empty
    · exact inv.born absent (List.append_eq_nil_iff.mp empty).1
  · refine ⟨acked, _, List.append_assoc _ _ _, before, ?_⟩
    rw [step_outboxOf inv.reached keeps, rows, List.map_append]
  · exact fun drain => (inv.phases drain).later (fun _ => Began.later) (List.prefix_refl _)

theorem Drained.waits {w : World E} {all kept : List TranscriptEntry}
    (inv : Drained E C store sessionId f acts k w all kept) : Drained E C store sessionId f acts (k + 1) w all kept :=
  ⟨inv.reached, inv.held, inv.climbing, inv.sequences, inv.born, inv.file, inv.outbox,
    fun drain => (inv.phases drain).later (fun _ => Began.later) (List.prefix_refl _)⟩

/-- A drain reads what waits in the outbox. -/
theorem Drained.reads {w : World E} {all kept : List TranscriptEntry} {drain : Nat} {session : SessionRow}
    (inv : Drained E C store sessionId f acts k w all kept) (carries : ∀ entry ∈ all, C.Carries f entry)
    (found : w.db.sessions.get? sessionId = some session)
    (header : HeaderReads C store sessionId session.createdAtMs) :
    ∃ entries, conversationOutboxEntries C w.db sessionId = .ok entries ∧
      (Began E C store sessionId acts (k + 1) drain all →
        Drained E C store sessionId f acts (k + 1) (w.set E drain (.read session.createdAtMs entries)) all kept) := by
  obtain ⟨acked, waiting, split, before, rows⟩ := inv.outbox
  have climbing := inv.climbing
  rw [split] at climbing carries
  have ranged : ∀ entry ∈ waiting, entry.sequence < 2 ^ 63 := by
    intro entry member
    have row : outboxRow sessionId entry ∈ outboxOf w.db sessionId := rows ▸ List.mem_map_of_mem member
    exact inv.reached.outboxRanged _ (List.mem_filter.mp row).1
  refine ⟨waiting.map (readBack f), ?_, ?_⟩
  · rw [conversationOutboxEntries, outboxEntries_of (.of_eq rows) (List.pairwise_append.mp climbing).2.1]
    simp only [Option.all_none, List.filter_true]
    refine mapM_map ?_
    intro entry member
    rw [(carries entry (List.mem_append_right _ member)).outbox]
    rfl
  · intro began
    have some : all ≠ [] := inv.born (by rw [found]; exact Option.some_ne_none _)
    rw [split] at some began
    exact ⟨inv.reached, inv.held, inv.climbing, inv.sequences, inv.born, inv.file, inv.outbox,
      inv.phased (List.prefix_refl _) (.read began header some before ranged)⟩

/-- A sync leaves the file with all that the drain read. -/
theorem Drained.syncs (floats : C.floats.OneLine) {w : World E} {all kept entries : List TranscriptEntry}
    {drain createdAtMs : Nat} (inv : Drained E C store sessionId f acts k w all kept)
    (carries : ∀ entry ∈ all, C.Carries f entry) (reading : w.drains drain = .read createdAtMs entries)
    (fits : w.file.length ≤ MAX_FILE_BYTES) (known : ∀ seen, Began E C store sessionId acts k drain seen → seen <+: all) :
    ∃ file kept', Engine.sync C store sessionId createdAtMs entries w.file = .ok file ∧
      Drained E C store sessionId f acts (k + 1)
        { w.set E drain (.synced (entries.getLast?.map TranscriptEntry.sequence)) with file := file } all kept' := by
  have phase := inv.phases drain
  rw [reading] at phase
  cases phase with
  | @read _ acked waiting start header some before ranged =>
      have seen := known _ start
      have records : ∀ entry ∈ all.map (readBack f), C.Records f entry := by
        intro entry member
        obtain ⟨origin, present, rfl⟩ := List.mem_map.mp member
        exact (carries origin present).records
      have positive : ∀ entry ∈ all.map (readBack f), 0 < entry.sequence := by
        intro entry member
        obtain ⟨origin, present, rfl⟩ := List.mem_map.mp member
        exact (inv.sequences origin present).1
      have climbing : Climbing (all.map (readBack f)) := List.pairwise_map.mpr inv.climbing
      have seen' : acked.map (readBack f) ++ waiting.map (readBack f) <+: all.map (readBack f) := by
        rw [← List.map_append]
        exact seen.map _
      have some' : acked.map (readBack f) ++ waiting.map (readBack f) ≠ [] := by
        rw [← List.map_append]
        exact fun empty => some (List.map_eq_nil_iff.mp empty)
      obtain ⟨file, new, synced, within, covers, holds⟩ := sync_catches_up floats records climbing positive
        (inv.held.map _) seen' (before.map _) some' header inv.file fits
      obtain ⟨kept', held, same⟩ := List.prefix_map_iff.mp within
      rw [same] at covers holds
      have longer : ∀ part, part <+: all → (part.map (readBack f)).length ≤ (kept'.map (readBack f)).length →
          part <+: kept' := by
        intro part inside shorter
        rw [List.length_map, List.length_map] at shorter
        exact List.prefix_of_prefix_length_le inside held shorter
      have grown : kept <+: kept' := by
        refine longer kept inv.held ?_
        rw [← same, List.length_append]
        exact Nat.le_add_right _ _
      have covered : acked ++ waiting <+: kept' := by
        refine longer _ seen ?_
        rw [List.map_append]
        exact covers.length_le
      have last : (waiting.map (readBack f)).getLast?.map TranscriptEntry.sequence =
          waiting.getLast?.map TranscriptEntry.sequence := by
        rw [List.getLast?_map, Option.map_map]
        rfl
      refine ⟨file, kept', synced, inv.reached, held, inv.climbing, inv.sequences, inv.born, holds, ?_, ?_⟩
      · obtain ⟨first, rest, split, acknowledged, rows⟩ := inv.outbox
        exact ⟨first, rest, split, acknowledged.trans grown, rows⟩
      · rw [last]
        exact inv.phased grown (.synced start.later covered ranged)

/-- What remains of the outbox after an acknowledgement through the last entry of `seen`. -/
theorem acknowledged_rest {seen acked waiting : List TranscriptEntry} (climbing : Climbing (acked ++ waiting))
    (inside : seen <+: acked ++ waiting) {last : TranscriptEntry} (ends : seen.getLast? = some last) :
    ∃ acked' waiting', acked ++ waiting = acked' ++ waiting' ∧ (acked' = acked ∨ acked' = seen) ∧
      (waiting.map (outboxRow sessionId)).filter (fun row => last.sequence < row.1.2) =
        waiting'.map (outboxRow sessionId) := by
  have later : ∀ {part rest : List TranscriptEntry}, acked ++ waiting = part ++ rest → last ∈ part →
      ∀ entry ∈ rest, last.sequence < entry.sequence := by
    intro part rest split member entry inRest
    rw [split] at climbing
    exact (List.pairwise_append.mp climbing).2.2 last member entry inRest
  have within : ∀ entry ∈ seen, entry.sequence ≤ last.sequence := by
    have bound := @Numbered.climbing_le_last _ seen TranscriptEntry.sequence (climbing.sublist inside.sublist)
    rw [ends] at bound
    exact bound
  rcases List.prefix_or_prefix_of_prefix inside (List.prefix_append acked waiting) with short | long
  · refine ⟨acked, waiting, rfl, .inl rfl, ?_⟩
    rw [List.filter_eq_self]
    intro row member
    obtain ⟨entry, waits, rfl⟩ := List.mem_map.mp member
    exact decide_eq_true (later rfl (short.subset (List.mem_of_getLast? ends)) entry waits)
  · obtain ⟨first, rfl⟩ := long
    obtain ⟨rest, rfl⟩ := (List.prefix_append_right_inj acked).mp inside
    refine ⟨acked ++ first, rest, (List.append_assoc _ _ _).symm, .inr rfl, ?_⟩
    rw [List.map_append, List.filter_append]
    have gone : (first.map (outboxRow sessionId)).filter (fun row => last.sequence < row.1.2) = [] := by
      rw [List.filter_eq_nil_iff]
      intro row member
      obtain ⟨entry, read, rfl⟩ := List.mem_map.mp member
      exact fun above => Nat.not_lt.mpr (within entry (List.mem_append_right _ read)) (of_decide_eq_true above)
    have stays : (rest.map (outboxRow sessionId)).filter (fun row => last.sequence < row.1.2) =
        rest.map (outboxRow sessionId) := by
      rw [List.filter_eq_self]
      intro row member
      obtain ⟨entry, waits, rfl⟩ := List.mem_map.mp member
      exact decide_eq_true (later (List.append_assoc _ _ _).symm (List.mem_of_getLast? ends) entry waits)
    rw [gone, stays, List.nil_append]

theorem acknowledge_synced {w : World E} {db : E.Db} {drain through : Nat}
    (syncing : w.drains drain = .synced (some through))
    (done : exec E w.db (.acknowledgeOutbox sessionId through) = .ok (.done, db)) :
    w.acknowledge E sessionId drain = { w.set E drain .done with db := db } := by
  simp only [World.acknowledge, syncing, done]

/-- An acknowledgement takes only what the file holds. -/
theorem Drained.acknowledges {w : World E} {all kept : List TranscriptEntry} {drain : Nat} {through : Option Nat}
    (inv : Drained E C store sessionId f acts k w all kept) (syncing : w.drains drain = .synced through) :
    Drained E C store sessionId f acts (k + 1) (w.acknowledge E sessionId drain) all kept ∧
      appendedEntries w.db (w.acknowledge E sessionId drain).db sessionId = [] := by
  have phase := inv.phases drain
  rw [syncing] at phase
  cases phase with
  | @synced acked waiting start covered ranged =>
      have finished := inv.phased (List.prefix_refl kept) (.done start.later covered)
      cases ends : waiting.getLast? with
      | none =>
          rw [ends] at syncing
          have next : w.acknowledge E sessionId drain = w.set E drain .done := by
            simp only [World.acknowledge, syncing, Option.map_none]
          rw [next]
          exact ⟨⟨inv.reached, inv.held, inv.climbing, inv.sequences, inv.born, inv.file, inv.outbox, finished⟩,
            appendedEntries_self w.db⟩
      | some last =>
          rw [ends, Option.map_some] at syncing
          have reply := @acknowledge_outboxOf E w.db sessionId _ (ranged last (List.mem_of_getLast? ends))
          obtain ⟨db', done, frame, quiet, rows⟩ := reply
          have stepped : Storage.step E w.db (.acknowledgeOutbox sessionId last.sequence) = db' := by
            rw [Storage.step, done]
          have sessions : db'.sessions = w.db.sessions := by rw [frame]
          obtain ⟨first, rest, split, before, held⟩ := inv.outbox
          have inside := covered.trans inv.held
          rw [split] at inside
          have seenLast : (acked ++ waiting).getLast? = some last := by
            rw [List.getLast?_append, ends, Option.some_or]
          have remains := @acknowledged_rest sessionId _ _ _ (split ▸ inv.climbing) inside last seenLast
          obtain ⟨first', rest', split', which, left⟩ := remains
          rw [acknowledge_synced syncing done]
          refine ⟨⟨stepped ▸ inv.reached.step _, inv.held, inv.climbing, ?_, ?_, inv.file, ?_, finished⟩, quiet⟩
          · change ∀ entry ∈ all, _ ∧ _ ≤ lastSeqOf db' sessionId
            rw [lastSeqOf, sessions]
            exact inv.sequences
          · change db'.sessions.get? sessionId ≠ none → _
            rw [sessions]
            exact inv.born
          · refine ⟨first', rest', split.trans split', ?_, ?_⟩
            · rcases which with rfl | rfl
              · exact before
              · exact covered
            · exact rows.trans ((congrArg _ held).trans left)

theorem committedAt_succ (k : Nat) : committedAt E C store sessionId acts (k + 1) =
    committedAt E C store sessionId acts k ++ appendedEntries (worldAt E C store sessionId acts k).db
      (worldAt E C store sessionId acts (k + 1)).db sessionId := by
  rw [committedAt, List.range_succ, List.flatMap_append, List.flatMap_singleton, committedAt]

theorem committedAt_grows {i j : Nat} (order : i ≤ j) :
    committedAt E C store sessionId acts i <+: committedAt E C store sessionId acts j := by
  induction order with
  | refl => exact List.prefix_refl _
  | step _ ih =>
      rw [committedAt_succ]
      exact ih.trans (List.prefix_append _ _)

/-- What the runs of drains rely on: the limits of the file and of a record, and what the parsers read back. -/
structure Drainable (E : Environment) (C : Codec) (store : ConversationStore) (sessionId : SessionId)
    (f : BitVec 64 → BitVec 64) (acts : List Act) : Prop where
  floats : C.floats.OneLine
  headers : ∀ k, k ≤ acts.length → ∀ session, (worldAt E C store sessionId acts k).db.sessions.get? sessionId =
    some session → HeaderReads C store sessionId session.createdAtMs
  carries : ∀ entry ∈ committedAt E C store sessionId acts acts.length, C.Carries f entry
  fits : ∀ k, k ≤ acts.length → (worldAt E C store sessionId acts k).file.length ≤ MAX_FILE_BYTES
  first : ∀ k, k < acts.length → (worldAt E C store sessionId acts k).db.sessions.get? sessionId = none →
    (worldAt E C store sessionId acts (k + 1)).db.sessions.get? sessionId ≠ none →
      committedAt E C store sessionId acts (k + 1) ≠ []

theorem Drained.step (given : Drainable E C store sessionId f acts) (bound : k < acts.length)
    {kept : List TranscriptEntry} (inv : Drained E C store sessionId f acts k (worldAt E C store sessionId acts k)
      (committedAt E C store sessionId acts k) kept) :
    ∃ kept, Drained E C store sessionId f acts (k + 1) (worldAt E C store sessionId acts (k + 1))
      (committedAt E C store sessionId acts (k + 1)) kept := by
  have next : worldAt E C store sessionId acts (k + 1) =
      World.step E C store sessionId (worldAt E C store sessionId acts k) acts[k] := stateAt_succ bound
  have grown : committedAt E C store sessionId acts (k + 1) = _ := committedAt_succ k
  have carries : ∀ entry ∈ committedAt E C store sessionId acts k, C.Carries f entry := fun entry member =>
    given.carries entry ((committedAt_grows (Nat.le_of_lt bound)).subset member)
  have waits : World.step E C store sessionId (worldAt E C store sessionId acts k) acts[k] =
      worldAt E C store sessionId acts k → ∃ kept, Drained E C store sessionId f acts (k + 1)
        (worldAt E C store sessionId acts (k + 1)) (committedAt E C store sessionId acts (k + 1)) kept := by
    intro same
    rw [grown, next, same, appendedEntries_self, List.append_nil]
    exact ⟨kept, inv.waits⟩
  cases act : acts[k] with
  | call op =>
      rw [act] at next waits
      by_cases draining : Storage.drains sessionId op = true
      · exact waits (if_pos draining)
      · have called : World.step E C store sessionId (worldAt E C store sessionId acts k) (.call op) =
            { worldAt E C store sessionId acts k with
              db := Storage.step E (worldAt E C store sessionId acts k).db op } := if_neg draining
        have born := given.first k bound
        rw [called] at next
        rw [grown, next] at born
        rw [grown, next]
        exact ⟨kept, inv.called (Bool.eq_false_of_not_eq_true draining) born⟩
  | readOutbox drain =>
      rw [act] at next waits
      cases phase : (worldAt E C store sessionId acts k).drains drain with
      | idle =>
          cases found : (worldAt E C store sessionId acts k).db.sessions.get? sessionId with
          | none => exact waits (by simp only [World.step, World.readOutbox, phase, found])
          | some session =>
              obtain ⟨entries, reading, moves⟩ := inv.reads carries found
                (given.headers k (Nat.le_of_lt bound) session found)
              simp only [World.step, World.readOutbox, phase, found, reading] at next
              have began : Began E C store sessionId acts (k + 1) drain (committedAt E C store sessionId acts k) := by
                refine ⟨k, Nat.lt_succ_self k, ?_, phase, ?_, rfl⟩
                · rw [List.getElem?_eq_getElem bound, act]
                · rw [next]
                  change (if drain = drain then _ else _) ≠ Drain.idle
                  rw [if_pos rfl]
                  exact Drain.noConfusion
              rw [grown, next]
              change ∃ kept, Drained E C store sessionId f acts (k + 1) _ (_ ++ appendedEntries _ _ _) kept
              rw [World.set, appendedEntries_self, List.append_nil]
              exact ⟨kept, moves began⟩
      | read _ _ | synced _ | done | failed _ => exact waits (by simp only [World.step, World.readOutbox, phase])
  | sync drain =>
      rw [act] at next waits
      cases phase : (worldAt E C store sessionId acts k).drains drain with
      | read createdAtMs entries =>
          have known : ∀ seen, Began E C store sessionId acts k drain seen →
              seen <+: committedAt E C store sessionId acts k := by
            rintro seen ⟨i, before, _, _, _, rfl⟩
            exact committedAt_grows (Nat.le_of_lt before)
          obtain ⟨file, kept', synced, after⟩ := inv.syncs given.floats carries phase
            (given.fits k (Nat.le_of_lt bound)) known
          simp only [World.step, World.sync, phase, synced] at next
          rw [grown, next]
          change ∃ kept, Drained E C store sessionId f acts (k + 1) _ (_ ++ appendedEntries _ _ _) kept
          rw [World.set, appendedEntries_self, List.append_nil]
          exact ⟨kept', after⟩
      | idle | synced _ | done | failed _ => exact waits (by simp only [World.step, World.sync, phase])
  | acknowledge drain =>
      rw [act] at next waits
      cases phase : (worldAt E C store sessionId acts k).drains drain with
      | synced through =>
          obtain ⟨after, quiet⟩ := inv.acknowledges phase
          change worldAt E C store sessionId acts (k + 1) =
            (worldAt E C store sessionId acts k).acknowledge E sessionId drain at next
          rw [grown, next, quiet, List.append_nil]
          exact ⟨kept, after⟩
      | idle | read _ _ | done | failed _ => exact waits (by simp only [World.step, World.acknowledge, phase])

theorem run_drained (given : Drainable E C store sessionId f acts) : ∀ k, k ≤ acts.length → ∃ kept,
    Drained E C store sessionId f acts k (worldAt E C store sessionId acts k)
      (committedAt E C store sessionId acts k) kept := by
  intro k
  induction k with
  | zero =>
      intro _
      exact ⟨[], .refl, List.prefix_refl _, .nil, List.forall_mem_nil _, fun present => (present rfl).elim,
        .inl ⟨rfl, rfl⟩, ⟨[], [], rfl, List.prefix_refl _, rfl⟩, fun _ => .idle⟩
  | succ k ih =>
      intro bound
      obtain ⟨_, inv⟩ := ih (Nat.le_of_succ_le bound)
      exact inv.step given bound

/-- What the outbox, the file and the drains show after `k` acts. -/
structure DrainShown (E : Environment) (C : Codec) (store : ConversationStore) (sessionId : SessionId)
    (f : BitVec 64 → BitVec 64) (acts : List Act) (k : Nat) (kept : List TranscriptEntry) : Prop where
  sound : ∀ drain error, (worldAt E C store sessionId acts k).drains drain ≠ .failed error
  somewhere : ∀ entry ∈ committedAt E C store sessionId acts k, entry ∈ kept ∨ ∃ row,
    (worldAt E C store sessionId acts k).db.conversationOutbox.get? (sessionId, entry.sequence) = some row ∧
      row.entry = entry
  once : Climbing kept
  file : ((worldAt E C store sessionId acts k).file = [] ∧ kept = []) ∨
    read C store sessionId (worldAt E C store sessionId acts k).file =
      .ok ((worldAt E C store sessionId acts k).file, kept.map fun entry => readBack f (readBack f entry))
  committed : kept <+: committedAt E C store sessionId acts k
  complete : ∀ drain, (worldAt E C store sessionId acts k).drains drain = .done →
    ∃ seen, Began E C store sessionId acts k drain seen ∧ seen <+: kept

end Runs

/-! ## A float that the parser reads as its neighbour -/

def driftText (bits : BitVec 64) : String :=
  if bits = 0x403f3eca06faea82 then "31.245270191439438"
  else if bits = 0x403f3eca06faea83 then "31.24527019143944" else "0.0"

/-- The parser divides the 17 digits, rounded to 53 bits, by their power of ten. -/
def drift (bits : BitVec 64) : BitVec 64 := if bits = 0x403f3eca06faea82 then 0x403f3eca06faea83 else bits

def driftPayload : Json := .ofMembers [("degrees", .number (.float 0x403f3eca06faea82))]

def driftOps : List Operation := sampleRun [(1, 1, .appendTranscript "note" .assistant "text" (some driftPayload))]

/-- What these calls commit. -/
def driftEntries : List TranscriptEntry := [
  ⟨⟨⟨1⟩⟩, 1, some sampleTurn, .user, "prompt", none, "session:create:user", 1⟩,
  ⟨⟨⟨3⟩⟩, 3, some sampleTurn, .assistant, "text", some driftPayload, "note", 2⟩]

def driftCodec : Codec := knownCodec ⟨driftText⟩ drift
  (sessionRecord sampleStore sampleSession 1 :: driftEntries.map fun entry => entryRecord (readBack drift entry))
  (driftEntries.map fun entry => ((entryJson entry).toVec ⟨driftText⟩, readBack drift entry))

/-- The calls, and then one whole drain. -/
def driftActs : List Act := driftOps.map .call ++ [.readOutbox 0, .sync 0, .acknowledge 0]

/-- An entry with an absent payload for a `null` one. -/
def withoutNull (entry : TranscriptEntry) : TranscriptEntry := { entry with payload := entry.payload.filter (· ≠ .null) }

/-- What the run does, evaluated once. -/
theorem drift_run :
    ((worldAt plain driftCodec sampleStore sampleSession driftActs 6).drains 0 = .done ∧
      (worldAt plain driftCodec sampleStore sampleSession driftActs 3).drains 0 = .idle ∧
      (worldAt plain driftCodec sampleStore sampleSession driftActs (3 + 1)).drains 0 ≠ .idle ∧
      committedAt plain driftCodec sampleStore sampleSession driftActs 3 = driftEntries ∧
      committedAt plain driftCodec sampleStore sampleSession driftActs 6 = driftEntries ∧
      (read driftCodec sampleStore sampleSession
        (worldAt plain driftCodec sampleStore sampleSession driftActs 6).file).toOption.map Prod.snd ≠
          some (driftEntries.map withoutNull)) ∧
    (∀ k : Fin 7, ((worldAt plain driftCodec sampleStore sampleSession driftActs k).db.sessions.get?
      sampleSession).all (·.createdAtMs = 1) = true) ∧
    (∀ k : Fin 7, (worldAt plain driftCodec sampleStore sampleSession driftActs k).file.length ≤ MAX_FILE_BYTES) ∧
    ∀ k : Fin 6, (worldAt plain driftCodec sampleStore sampleSession driftActs k).db.sessions.get? sampleSession = none →
      (worldAt plain driftCodec sampleStore sampleSession driftActs (k + 1)).db.sessions.get? sampleSession ≠ none →
        committedAt plain driftCodec sampleStore sampleSession driftActs (k + 1) ≠ [] := by decide +kernel

theorem drift_lines : ∀ entry ∈ driftEntries,
    driftCodec.entryFromStr (entryText driftCodec entry) = .ok (readBack drift entry) ∧
      driftCodec.fromSlice (recordLine driftCodec (readBack drift entry)) =
        .ok ((entryRecord (readBack drift entry)).mapFloats drift) ∧
      (driftCodec.parseStr entry.entryId.uuid.toString = .ok entry.entryId.uuid ∧ entry.turnId = some sampleTurn) ∧
      (recordLine driftCodec (readBack drift entry)).length ≤ MAX_RECORD_BYTES := by decide +kernel

theorem drift_drainable : Drainable plain driftCodec sampleStore sampleSession drift driftActs := by
  have header : HeaderReads driftCodec sampleStore sampleSession 1 := by
    constructor <;> decide +kernel
  obtain ⟨⟨_, _, _, _, committed, _⟩, created, sizes, born⟩ := drift_run
  have turn : driftCodec.parseStr sampleTurn.toString = .ok sampleTurn.uuid := by decide +kernel
  refine ⟨?_, ?_, ?_, ?_, ?_⟩
  · intro bits
    change '\n' ∉ (driftText bits).toList
    rw [driftText]
    split
    · decide
    · split <;> decide
  · intro k bound session found
    have at1 := created ⟨k, Nat.lt_succ_of_le bound⟩
    simp only at at1
    rw [found] at at1
    rw [of_decide_eq_true at1]
    exact header
  · intro entry member
    change entry ∈ committedAt plain driftCodec sampleStore sampleSession driftActs 6 at member
    rw [committed] at member
    obtain ⟨text, line, ⟨id, own⟩, small⟩ := drift_lines entry member
    refine ⟨text, line, id, ?_, small⟩
    intro turnId mine
    rw [show (readBack drift entry).turnId = entry.turnId from rfl, own] at mine
    cases mine
    exact turn
  · exact fun k bound => sizes ⟨k, Nat.lt_succ_of_le bound⟩
  · exact fun k bound => born ⟨k, bound⟩

end LatteCode.Engine
