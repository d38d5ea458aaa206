import LatteCode.Lib.Lines
import LatteCode.Core.Text
import LatteCode.Storage.Session
/- The append-only conversation file of a session. -/

namespace LatteCode.Engine
open Lines Outcome

abbrev Bytes := List UInt8

def newline : UInt8 := 10
def MAX_FILE_BYTES : Nat := 64 * 1024 * 1024
def MAX_RECORD_BYTES : Nat := 2 * 1024 * 1024

def transcriptKindName : TranscriptKind → String
  | .user => "user"
  | .assistant => "assistant"
  | .toolCall => "tool_call"
  | .toolResult => "tool_result"
  | .permission => "permission"
  | .input => "input"
  | .failure => "failure"
  | .completion => "completion"
  | .system => "system"
  | .compactSummary => "compact_summary"
  | .toolResultElision => "tool_result_elision"

def transcriptKinds : List TranscriptKind :=
  [.user, .assistant, .toolCall, .toolResult, .permission, .input, .failure, .completion, .system, .compactSummary,
    .toolResultElision]

/-- `serde_json` and `uuid`: how bytes and texts are read, and the text of a float. -/
structure Codec where
  floats : FloatFormat
  fromSlice : Bytes → Except String Json
  entryFromStr : Bytes → Except String TranscriptEntry
  unknownKind : Json → String
  parseStr : String → Except String Uuid

/-- The store of one workspace; its key is a safe file name. -/
structure ConversationStore where
  workspaceKey : String
  valid : workspaceKey ≠ "" ∧ workspaceKey.toList.all fun c => c.isAlphanum || c = '-'

def ConversationStore.open_ (workspaceKey : String) : Except String ConversationStore :=
  if valid : workspaceKey ≠ "" ∧ workspaceKey.toList.all fun c => c.isAlphanum || c = '-' then
    .ok ⟨workspaceKey, valid⟩
  else .error "invalid conversation workspace key"

/-- An error of an operation on the file, and the file as it leaves it. -/
structure Failed where
  message : String
  file : Bytes
deriving DecidableEq

section Records

variable (C : Codec) (store : ConversationStore) (sessionId : SessionId)

def sessionRecord (createdAtMs : Nat) : Json := .ofMembers [
  ("record", .string "session"),
  ("format_version", .ofNat 1),
  ("session_id", .string sessionId.toString),
  ("workspace_id", .string store.workspaceKey),
  ("created_at_ms", .ofNat createdAtMs)]

def entryRecord (entry : TranscriptEntry) : Json := .ofMembers [
  ("record", .string "entry"),
  ("format_version", .ofNat 1),
  ("entry_id", .string entry.entryId.uuid.toString),
  ("seq", .ofNat entry.sequence),
  ("turn_id", .ofText (entry.turnId.map TurnId.toString)),
  ("created_at_ms", .ofNat entry.createdAtMs),
  ("kind", .string (transcriptKindName entry.kind)),
  ("content", .string entry.text),
  ("payload", .ofOption entry.payload),
  ("source_key", .string entry.sourceKey)]

def writeRecord (file : Bytes) (record : Json) : Except Failed Bytes := do
  let bytes := record.toVec C.floats
  ensure (bytes.length ≤ MAX_RECORD_BYTES) ⟨"conversation record exceeds the line limit", file⟩
  .ok (file ++ (bytes ++ [newline]))

def jsonError {α : Type} (parsed : Except String α) : Except String α :=
  parsed.mapError ("invalid conversation JSONL: " ++ ·)

def textMember (record : Json) (key : String) : Option String := (record.get? key).bind Json.asStr
def numberMember (record : Json) (key : String) : Option Nat := (record.get? key).bind Json.asU64

/-- `turn_id`, or the `run_id` of older binaries; `null` counts as absent in both. -/
def readTurnId (record : Json) : Except String (Option TurnId) :=
  match (((record.get? "turn_id").filter (· ≠ .null)).or (record.get? "run_id")).filter (· ≠ .null) with
  | none => .ok none
  | some value => do
      let text ← require value.asStr "invalid conversation turn id"
      let uuid ← (C.parseStr text).mapError ("invalid conversation turn id: " ++ ·)
      .ok (some ⟨uuid⟩)

def readKind (value : Json) : Except String TranscriptKind :=
  require (transcriptKinds.find? fun kind => value = .string (transcriptKindName kind)) (C.unknownKind value)

/-- An entry, and its id as the file spells it. -/
structure ReadEntry where
  idText : String
  entry : TranscriptEntry

def readEntry (previous : Nat) (line : Bytes) : Except String ReadEntry := do
  ensure (line.length ≤ MAX_RECORD_BYTES) "conversation record exceeds the line limit"
  let record ← jsonError (C.fromSlice line)
  ensure (textMember record "record" = some "entry" ∧ numberMember record "format_version" = some 1)
    "invalid conversation record type"
  let sequence ← require (numberMember record "seq") "conversation record has no sequence"
  let idText ← require (textMember record "entry_id") "conversation record has no entry id"
  -- the map holds nothing at a sequence above all it holds
  ensure (previous < sequence) "conversation records are not a strictly increasing sequence"
  let entryId ← (C.parseStr idText).mapError ("invalid conversation entry id: " ++ ·)
  let turnId ← readTurnId C record
  let kindValue ← require (record.get? "kind") "conversation record has no kind"
  let kind ← jsonError (readKind C kindValue)
  let text ← require (textMember record "content") "conversation record has no content"
  let sourceKey ← require (textMember record "source_key") "conversation record has no source key"
  let createdAtMs ← require (numberMember record "created_at_ms") "conversation record has no creation time"
  .ok ⟨idText, ⟨⟨entryId⟩, sequence, turnId, kind, text, (record.get? "payload").filter (· ≠ .null), sourceKey,
    createdAtMs⟩⟩

def readEntries : Nat → List Bytes → Except String (List ReadEntry)
  | _, [] => .ok []
  | previous, line :: lines => do
      let read ← readEntry C previous line
      let rest ← readEntries read.entry.sequence lines
      .ok (read :: rest)

def checkHeader (line : Bytes) : Except String Unit := do
  let header ← jsonError (C.fromSlice line)
  ensure (textMember header "record" = some "session" ∧ numberMember header "format_version" = some 1 ∧
    textMember header "session_id" = some sessionId.toString ∧
    textMember header "workspace_id" = some store.workspaceKey) "conversation header identity mismatch"

def readLines : List Bytes → Except String (List ReadEntry)
  | [] => .error "conversation header is missing"
  | header :: lines => do
      checkHeader C store sessionId header
      readEntries C 0 lines

/-- The file without its torn tail, and the entries it holds. -/
def repairAndRead (file : Bytes) : Except Failed (Bytes × List ReadEntry) := do
  ensure (file.length ≤ MAX_FILE_BYTES) ⟨"conversation file exceeds the bounded repair limit", file⟩
  let lines := (splitLines newline file).1
  ensure (lines ≠ []) ⟨"conversation header is torn", file⟩
  -- `set_len` after the last newline; nothing is cut from a file that ends with one
  let repaired := joinLines newline lines
  let read ← (readLines C store sessionId (lines.filter (· ≠ []))).mapError (⟨·, repaired⟩)
  .ok (repaired, read)

/-- What the file holds already, by sequence. -/
abbrev Existing := List (Nat × String)

def existingIds (read : List ReadEntry) : Existing := read.map fun found => (found.entry.sequence, found.idText)

def lastSequence (read : List ReadEntry) : Nat := ((read.getLast?).map fun found => found.entry.sequence).getD 0

/-- One entry of the outbox: skipped if the file holds it, else appended. -/
def appendEntry (existing : Existing) (written : Nat × Bytes) (entry : TranscriptEntry) :
    Except Failed (Nat × Bytes) :=
  match existing.lookup entry.sequence with
  | some existingId => do
      ensure (existingId = entry.entryId.uuid.toString)
        ⟨"conversation sequence " ++ toString entry.sequence ++ " has a different entry id", written.2⟩
      .ok written
  | none => do
      ensure (written.1 < entry.sequence) ⟨"conversation sequence is not increasing: previous " ++
        toString written.1 ++ ", found " ++ toString entry.sequence, written.2⟩
      let file ← writeRecord C written.2 (entryRecord entry)
      .ok (entry.sequence, file)

/-- A missing file is created with its header, unless there is nothing to put into it. -/
def openFile (createdAtMs : Nat) (entries : List TranscriptEntry) (file : Bytes) : Except Failed Bytes :=
  if file = [] then do
    ensure (entries ≠ [])
      ⟨"conversation file is missing and the durable outbox has no recovery records", file⟩
    writeRecord C file (sessionRecord store sessionId createdAtMs)
  else .ok file

def sync (createdAtMs : Nat) (entries : List TranscriptEntry) (file : Bytes) : Except Failed Bytes := do
  let file ← openFile C store sessionId createdAtMs entries file
  let (file, read) ← repairAndRead C store sessionId file
  let (_, file) ← entries.foldlM (appendEntry C (existingIds read)) (lastSequence read, file)
  .ok file

/-- The file as the read leaves it, and its entries. -/
def read (file : Bytes) : Except Failed (Bytes × List TranscriptEntry) := do
  let (file, read) ← repairAndRead C store sessionId file
  .ok (file, read.map ReadEntry.entry)

end Records

/-! ## What the operations do -/

section Specs

variable {C : Codec} {store : ConversationStore} {sessionId : SessionId}

/-- A record as it stands in the file. -/
def recordLine (C : Codec) (entry : TranscriptEntry) : Bytes := (entryRecord entry).toVec C.floats

def headerLine (C : Codec) (store : ConversationStore) (sessionId : SessionId) (createdAtMs : Nat) : Bytes :=
  (sessionRecord store sessionId createdAtMs).toVec C.floats

theorem toVec_ofMembers (members : List (String × Json)) : (Json.ofMembers members).toVec C.floats ≠ [] := by
  rw [Json.ofMembers, Json.toVec, Json.chars, List.flatMap_cons]
  intro empty
  exact String.utf8EncodeChar_ne_nil (List.append_eq_nil_iff.mp empty).1

theorem recordLine_ne_nil (entry : TranscriptEntry) : recordLine C entry ≠ [] := toVec_ofMembers _

theorem headerLine_ne_nil (createdAtMs : Nat) : headerLine C store sessionId createdAtMs ≠ [] := toVec_ofMembers _

theorem recordLine_line (floats : C.floats.OneLine) (entry : TranscriptEntry) : newline ∉ recordLine C entry :=
  Json.toVec_line floats _

theorem headerLine_line (floats : C.floats.OneLine) (createdAtMs : Nat) :
    newline ∉ headerLine C store sessionId createdAtMs := Json.toVec_line floats _

theorem writeRecord_ok {file file' : Bytes} {record : Json} : writeRecord C file record = .ok file' ↔
    (record.toVec C.floats).length ≤ MAX_RECORD_BYTES ∧ file' = file ++ (record.toVec C.floats ++ [newline]) := by
  simp only [writeRecord, bind_ok, ensure_ok, Except.ok.injEq]
  constructor
  · rintro ⟨_, fits, rfl⟩
    exact ⟨fits, rfl⟩
  · rintro ⟨fits, rfl⟩
    exact ⟨(), fits, rfl⟩

/-- The outbox entry is there under its id, or it is written after all that is there. -/
inductive EntryAppended (C : Codec) (existing : Existing) (written : Nat × Bytes) (entry : TranscriptEntry) :
    Nat × Bytes → Prop
  | held (found : existing.lookup entry.sequence = some entry.entryId.uuid.toString) :
      EntryAppended C existing written entry written
  | wrote (fresh : existing.lookup entry.sequence = none) (later : written.1 < entry.sequence)
      (fits : (recordLine C entry).length ≤ MAX_RECORD_BYTES) :
      EntryAppended C existing written entry
        (entry.sequence, written.2 ++ (recordLine C entry ++ [newline]))

theorem appendEntry_ok {existing : Existing} {written written' : Nat × Bytes} {entry : TranscriptEntry} :
    appendEntry C existing written entry = .ok written' ↔ EntryAppended C existing written entry written' := by
  constructor
  · intro appended
    rw [appendEntry] at appended
    cases found : existing.lookup entry.sequence with
    | some id =>
        rw [found] at appended
        simp only [bind_ok, ensure_ok, Except.ok.injEq] at appended
        obtain ⟨_, rfl, rfl⟩ := appended
        exact .held found
    | none =>
        rw [found] at appended
        simp only [bind_ok, ensure_ok, writeRecord_ok, Except.ok.injEq] at appended
        obtain ⟨_, later, _, ⟨fits, rfl⟩, rfl⟩ := appended
        exact .wrote found later fits
  · intro appended
    cases appended with
    | held found =>
        rw [appendEntry, found]
        exact bind_ok.mpr ⟨(), ensure_ok.mpr rfl, rfl⟩
    | wrote fresh later fits =>
        rw [appendEntry, fresh]
        simp only [bind_ok, ensure_ok, writeRecord_ok, Except.ok.injEq]
        exact ⟨(), later, _, ⟨fits, rfl⟩, rfl⟩

theorem openFile_ok {createdAtMs : Nat} {entries : List TranscriptEntry} {file file' : Bytes} :
    openFile C store sessionId createdAtMs entries file = .ok file' ↔
      (file ≠ [] ∧ file' = file) ∨ (file = [] ∧ entries ≠ [] ∧
        (headerLine C store sessionId createdAtMs).length ≤ MAX_RECORD_BYTES ∧
        file' = headerLine C store sessionId createdAtMs ++ [newline]) := by
  rw [openFile]
  split
  case isTrue missing =>
    simp only [bind_ok, ensure_ok, writeRecord_ok, missing, List.nil_append, ne_eq, not_true_eq_false, false_and,
      true_and, false_or]
    constructor
    · rintro ⟨_, some, fits, rfl⟩
      exact ⟨some, fits, rfl⟩
    · rintro ⟨some, fits, rfl⟩
      exact ⟨(), some, fits, rfl⟩
  case isFalse present =>
    rw [Except.ok.injEq]
    constructor
    · intro same
      exact .inl ⟨present, same.symm⟩
    · rintro (⟨_, rfl⟩ | ⟨missing, _⟩)
      · rfl
      · exact absurd missing present

/-- The lines of a file were read, and a tail after its last line was cut. -/
theorem repairAndRead_ok {file repaired : Bytes} {read : List ReadEntry} :
    repairAndRead C store sessionId file = .ok (repaired, read) ↔
      file.length ≤ MAX_FILE_BYTES ∧ (splitLines newline file).1 ≠ [] ∧
        repaired = joinLines newline (splitLines newline file).1 ∧
        readLines C store sessionId ((splitLines newline file).1.filter (· ≠ [])) = .ok read := by
  simp only [repairAndRead, bind_ok, ensure_ok, mapError_ok, Except.ok.injEq, Prod.mk.injEq]
  constructor
  · rintro ⟨_, fits, _, whole, _, lines, rfl, rfl⟩
    exact ⟨fits, whole, rfl, lines⟩
  · rintro ⟨fits, whole, rfl, lines⟩
    exact ⟨(), fits, (), whole, _, lines, rfl, rfl⟩

theorem sync_ok {createdAtMs : Nat} {entries : List TranscriptEntry} {file file' : Bytes} :
    sync C store sessionId createdAtMs entries file = .ok file' ↔
      ∃ opened repaired read last, openFile C store sessionId createdAtMs entries file = .ok opened ∧
        repairAndRead C store sessionId opened = .ok (repaired, read) ∧
        entries.foldlM (appendEntry C (existingIds read)) (lastSequence read, repaired) = .ok (last, file') := by
  simp only [sync, bind_ok, Except.ok.injEq, Prod.exists]
  constructor
  · rintro ⟨opened, created, repaired, read, held, last, _, appended, rfl⟩
    exact ⟨opened, repaired, read, last, created, held, appended⟩
  · rintro ⟨opened, repaired, read, last, created, held, appended⟩
    exact ⟨opened, created, repaired, read, held, last, file', appended, rfl⟩

theorem read_ok {file file' : Bytes} {entries : List TranscriptEntry} :
    read C store sessionId file = .ok (file', entries) ↔
      ∃ found, repairAndRead C store sessionId file = .ok (file', found) ∧ entries = found.map ReadEntry.entry := by
  simp only [read, bind_ok, Except.ok.injEq, Prod.exists, Prod.mk.injEq]
  constructor
  · rintro ⟨_, found, held, rfl, rfl⟩
    exact ⟨found, held, rfl⟩
  · rintro ⟨found, held, rfl⟩
    exact ⟨_, found, held, rfl, rfl⟩

/-- Entries are read one after the other. -/
theorem readEntries_append {previous : Nat} {lines more : List Bytes} {found : List ReadEntry} :
    readEntries C previous (lines ++ more) = .ok found ↔ ∃ first rest, found = first ++ rest ∧
      readEntries C previous lines = .ok first ∧
      readEntries C (((first.getLast?).map fun found => found.entry.sequence).getD previous) more = .ok rest := by
  induction lines generalizing previous found with
  | nil =>
      constructor
      · intro rest
        exact ⟨[], found, rfl, rfl, rest⟩
      · rintro ⟨first, rest, rfl, nothing, others⟩
        cases nothing
        exact others
  | cons line lines ih =>
      rw [List.cons_append]
      simp only [readEntries, bind_ok, ih, Except.ok.injEq]
      constructor
      · rintro ⟨head, here, _, ⟨first, rest, rfl, lines, others⟩, rfl⟩
        refine ⟨head :: first, rest, rfl, ⟨head, here, first, lines, rfl⟩, ?_⟩
        cases first with
        | nil => exact others
        | cons next first =>
            rw [List.getLast?_cons_cons]
            rw [List.getLast?_cons] at others ⊢
            exact others
      · rintro ⟨_, rest, rfl, ⟨head, here, first, lines, rfl⟩, others⟩
        refine ⟨head, here, first ++ rest, ⟨first, rest, rfl, lines, ?_⟩, rfl⟩
        cases first with
        | nil => exact others
        | cons next first =>
            rw [List.getLast?_cons_cons] at others
            rw [List.getLast?_cons] at others ⊢
            exact others

/-- The parser reads a text that was written as the value it was written for, up to its floats. -/
def Codec.ReadsBack (C : Codec) (f : BitVec 64 → BitVec 64) (value : Json) : Prop :=
  ∀ read, C.fromSlice (value.toVec C.floats) = .ok read → read = value.mapFloats f

theorem Codec.ReadsBack.of_read {f : BitVec 64 → BitVec 64} {value : Json}
    (parsed : C.fromSlice (value.toVec C.floats) = .ok (value.mapFloats f)) : C.ReadsBack f value := by
  intro read same
  rw [parsed, Except.ok.injEq] at same
  exact same.symm

section ReadBack

variable {f : BitVec 64 → BitVec 64} (entry : TranscriptEntry)

theorem textMember_readBack (members : List (String × Json)) (key : String) :
    textMember ((Json.ofMembers members).mapFloats f) key = (members.reverse.lookup key).bind Json.asStr := by
  rw [textMember, Json.get?_readBack]
  cases members.reverse.lookup key with
  | none => rfl
  | some value => exact Json.asStr_mapFloats value

theorem numberMember_readBack (members : List (String × Json)) (key : String) :
    numberMember ((Json.ofMembers members).mapFloats f) key = (members.reverse.lookup key).bind Json.asU64 := by
  rw [numberMember, Json.get?_readBack]
  cases members.reverse.lookup key with
  | none => rfl
  | some value => exact Json.asU64_mapFloats value

/-- A record in the file names the entry it was written for. -/
theorem readEntry_recordLine (back : C.ReadsBack f (entryRecord entry)) {previous : Nat} {found : ReadEntry}
    (done : readEntry C previous (recordLine C entry) = .ok found) :
    (found.entry.sequence, found.idText) = (entry.sequence, entry.entryId.uuid.toString) := by
  simp only [readEntry, jsonError, bind_ok, ensure_ok, require_ok, mapError_ok, Except.ok.injEq] at done
  obtain ⟨_, _, record, parsed, _, _, sequence, number, idText, text, _, _, _, _, _, _, _, _, _, _, _, _, _, _, _, _,
    rfl⟩ := done
  rw [back record parsed] at number text
  rw [entryRecord, numberMember_readBack] at number
  rw [entryRecord, textMember_readBack] at text
  rw [← Option.some.inj number, ← Option.some.inj text]

theorem readEntries_recordLines {entries : List TranscriptEntry}
    (back : ∀ entry ∈ entries, C.ReadsBack f (entryRecord entry)) {previous : Nat} {found : List ReadEntry}
    (done : readEntries C previous (entries.map (recordLine C)) = .ok found) :
    existingIds found = entries.map fun entry => (entry.sequence, entry.entryId.uuid.toString) := by
  induction entries generalizing previous found with
  | nil =>
      cases done
      rfl
  | cons entry entries ih =>
      rw [List.forall_mem_cons] at back
      rw [List.map_cons] at done
      simp only [readEntries, bind_ok, Except.ok.injEq] at done
      obtain ⟨head, here, rest, others, rfl⟩ := done
      rw [List.map_cons, ← ih back.2 others, ← readEntry_recordLine entry back.1 here]
      rfl

end ReadBack

/-- An entry after the parser read its payload back; `null` counts as absent. -/
def readBack (f : BitVec 64 → BitVec 64) (entry : TranscriptEntry) : TranscriptEntry :=
  { entry with payload := (entry.payload.map (Json.mapFloats f)).filter (· ≠ .null) }

/-- The parsers accept the record of an entry. -/
structure Codec.Records (C : Codec) (f : BitVec 64 → BitVec 64) (entry : TranscriptEntry) : Prop where
  line : C.fromSlice (recordLine C entry) = .ok ((entryRecord entry).mapFloats f)
  entryId : C.parseStr entry.entryId.uuid.toString = .ok entry.entryId.uuid
  turnId : ∀ turnId ∈ entry.turnId, C.parseStr turnId.toString = .ok turnId.uuid
  fits : (recordLine C entry).length ≤ MAX_RECORD_BYTES

section Accepted

variable {f : BitVec 64 → BitVec 64} {entry : TranscriptEntry}

theorem readKind_name (kind : TranscriptKind) : readKind C (.string (transcriptKindName kind)) = .ok kind := by
  cases kind <;> rfl

theorem readTurnId_record (records : C.Records f entry) :
    readTurnId C ((entryRecord entry).mapFloats f) = .ok entry.turnId := by
  rw [readTurnId, entryRecord, Json.get?_readBack, Json.get?_readBack]
  cases turn : entry.turnId with
  | none => rfl
  | some turnId =>
      have parsed := records.turnId turnId turn
      change (require (some turnId.toString) _ >>= fun text => (C.parseStr text).mapError _ >>= _) = _
      change ((C.parseStr turnId.toString).mapError _ >>= _) = _
      rw [parsed]
      rfl

theorem readEntry_record (records : C.Records f entry) {previous : Nat} (later : previous < entry.sequence) :
    readEntry C previous (recordLine C entry) = .ok ⟨entry.entryId.uuid.toString, readBack f entry⟩ := by
  have payload : ((entryRecord entry).mapFloats f).get? "payload" =
      some ((Json.ofOption entry.payload).mapFloats f) := Json.get?_readBack _ _
  have kind : ((entryRecord entry).mapFloats f).get? "kind" = some (.string (transcriptKindName entry.kind)) := by
    rw [entryRecord, Json.get?_readBack]
    rfl
  simp only [readEntry, jsonError, bind_ok, ensure_ok, require_ok, mapError_ok, Except.ok.injEq]
  refine ⟨(), records.fits, _, records.line, (), ⟨?_, ?_⟩, entry.sequence, ?_, entry.entryId.uuid.toString, ?_, (),
    later, entry.entryId.uuid, records.entryId, entry.turnId, readTurnId_record records, _, kind, entry.kind,
    readKind_name entry.kind, entry.text, ?_, entry.sourceKey, ?_, entry.createdAtMs, ?_, ?_⟩
  · exact textMember_readBack _ _
  · exact numberMember_readBack _ _
  · exact numberMember_readBack _ _
  · exact textMember_readBack _ _
  · exact textMember_readBack _ _
  · exact textMember_readBack _ _
  · exact numberMember_readBack _ _
  · rw [payload, readBack]
    cases entry.payload with
    | none => simp [Json.ofOption]
    | some value => rfl

theorem readEntries_records {entries : List TranscriptEntry} (records : ∀ entry ∈ entries, C.Records f entry)
    (climbing : entries.Pairwise fun first second => first.sequence < second.sequence) {previous : Nat}
    (later : ∀ entry ∈ entries, previous < entry.sequence) :
    readEntries C previous (entries.map (recordLine C)) =
      .ok (entries.map fun entry => ⟨entry.entryId.uuid.toString, readBack f entry⟩) := by
  induction entries generalizing previous with
  | nil => rfl
  | cons entry entries ih =>
      rw [List.forall_mem_cons] at records later
      rw [List.pairwise_cons] at climbing
      rw [List.map_cons, List.map_cons, readEntries, readEntry_record records.1 later.1]
      exact bind_ok.mpr ⟨_, rfl, bind_ok.mpr ⟨_, ih records.2 climbing.2 climbing.1, rfl⟩⟩

end Accepted

/-- The last sequence is the one of the last id. -/
theorem lastSequence_eq (found : List ReadEntry) :
    lastSequence found = ((existingIds found).getLast?.map Prod.fst).getD 0 := by
  rw [lastSequence, existingIds, List.getLast?_map, Option.map_map]
  rfl

/-- The lines after the header and some entries are read on from them. -/
theorem readLines_append {lines more : List Bytes} (some : lines ≠ []) {found : List ReadEntry} :
    readLines C store sessionId (lines ++ more) = .ok found ↔ ∃ first rest, found = first ++ rest ∧
      readLines C store sessionId lines = .ok first ∧ readEntries C (lastSequence first) more = .ok rest := by
  cases lines with
  | nil => exact absurd rfl some
  | cons header lines =>
      rw [List.cons_append]
      simp only [readLines, bind_ok, readEntries_append]
      constructor
      · rintro ⟨_, checked, first, rest, rfl, lines, others⟩
        exact ⟨first, rest, rfl, ⟨(), checked, lines⟩, others⟩
      · rintro ⟨first, rest, rfl, ⟨_, checked, lines⟩, others⟩
        exact ⟨(), checked, first, rest, rfl, lines, others⟩

end Specs

/-! ## A codec of known texts -/

def hexValue (c : Char) : Nat := if c.isDigit then c.toNat - 48 else c.toNat - 87

/-- The hyphenated form of `Uuid::parse_str`. -/
def parseHyphenated (text : String) : Except String Uuid :=
  let digits := text.toList.filter (· ≠ '-')
  let id : Uuid := ⟨BitVec.ofNat 128 (digits.foldl (fun value c => 16 * value + hexValue c) 0)⟩
  if id.toString = text then .ok id else .error "invalid character"

/-- A parser that knows the texts of some values. -/
def knownCodec (floats : FloatFormat) (readFloat : BitVec 64 → BitVec 64) (known : List Json)
    (entries : List (Bytes × TranscriptEntry)) : Codec where
  floats := floats
  fromSlice bytes := (require (known.find? fun value => value.toVec floats = bytes) "expected value").map
    (Json.mapFloats readFloat)
  entryFromStr bytes := require (entries.lookup bytes) "expected value"
  unknownKind _ := "unknown variant"
  parseStr := parseHyphenated

def sampleStore : ConversationStore := ⟨"workspace-abc", by decide⟩

def sampleEntry (sequence : Nat) (text : String) : TranscriptEntry :=
  ⟨⟨⟨BitVec.ofNat 128 sequence⟩⟩, sequence, none, .user, text, none, "test:" ++ toString sequence, sequence⟩

def sampleCodec (entries : List TranscriptEntry) : Codec :=
  knownCodec ⟨fun _ => "0.5"⟩ id (sessionRecord sampleStore ⟨⟨1⟩⟩ 1 :: entries.map entryRecord) []

theorem sampleCodec_line (entries : List TranscriptEntry) : (sampleCodec entries).floats.OneLine := by
  intro bits
  change '\n' ∉ "0.5".toList
  decide

end LatteCode.Engine
