import LatteCode.Lib.Lines
import LatteCode.Headless.Batch
import LatteCode.Headless.Response
/- Streamed responses: the chunk loop, and what it reads whatever the chunks are. -/

namespace LatteCode.Headless
open Lines Outcome

def MAX_SSE_BODY_BYTES : Nat := 4 * 1024 * 1024
def MAX_SSE_EVENT_BYTES : Nat := 256 * 1024
def MAX_SSE_TOOL_CALLS : Nat := 128

structure WireUsage where
  promptTokens : Option Nat
  completionTokens : Option Nat
  totalTokens : Option Nat
  cachedTokens : Option Nat

structure StreamToolCall where
  index : Nat
  id : Option String
  name : Option String
  arguments : Option String

structure StreamChoice where
  content : Option String
  toolCalls : List StreamToolCall
  finishReason : Option String

structure StreamWire where
  choices : List StreamChoice
  usage : Option WireUsage

structure StreamToolAssembly where
  id : Option String
  name : Option String
  arguments : String

structure StreamAssembly where
  content : String
  tools : List StreamToolAssembly
  finishReason : Option String
  usage : Option WireUsage

def StreamAssembly.empty : StreamAssembly := ⟨"", [], none, none⟩

/-- `serde_json::from_str` at the two types that the stream is read at. -/
structure WireDecoder where
  streamWire : String → Except String StreamWire
  value : String → Except String Json

/-! ## One event -/

section Events

variable (W : WireDecoder)

/-- A field of a call that a later delta may repeat but not change. -/
def mergeOnce (held delta : Option String) (changed : String) : Except ProviderError (Option String) :=
  match delta with
  | none => .ok held
  | some value => do
      ensure (held.all fun old => old = value) (.malformed changed)
      .ok (some value)

def mergeToolCall (tools : List StreamToolAssembly) (delta : StreamToolCall) :
    Except ProviderError (List StreamToolAssembly) := do
  ensure (delta.index < MAX_SSE_TOOL_CALLS) (.malformed "too many stream tool calls")
  let tools := tools ++ List.replicate (delta.index + 1 - tools.length) ⟨none, none, ""⟩
  let target := tools.getD delta.index ⟨none, none, ""⟩
  let id ← mergeOnce target.id delta.id "stream tool id changed"
  let name ← mergeOnce target.name delta.name "stream tool name changed"
  let text := target.arguments ++ delta.arguments.getD ""
  ensure (delta.arguments.isNone ∨ text.utf8ByteSize ≤ MAX_SSE_EVENT_BYTES)
    (.malformed "stream tool arguments exceed limit")
  .ok (tools.set delta.index ⟨id, name, text⟩)

/-- Whether the event is the final marker, and what the response is so far. -/
def consumeSseEvent (data : String) (assembly : StreamAssembly) : Except ProviderError (Bool × StreamAssembly) :=
  if data = "[DONE]" then .ok (true, assembly)
  else do
    let wire ← (W.streamWire data).mapError fun error => .malformed ("invalid SSE JSON: " ++ error)
    let assembly := { assembly with usage := wire.usage <|> assembly.usage }
    match wire.choices with
    | [] => .ok (false, assembly)
    | choice :: _ => do
        let content := assembly.content ++ choice.content.getD ""
        ensure (choice.content.getD "" = "" ∨ content.utf8ByteSize ≤ MAX_SSE_BODY_BYTES)
          (.malformed "stream assistant content exceeds limit")
        let tools ← choice.toolCalls.foldlM mergeToolCall assembly.tools
        .ok (false, { assembly with
          content := content
          tools := tools
          finishReason := choice.finishReason <|> assembly.finishReason })

/-! ## The response of a finished stream -/

def assembledCall (tool : StreamToolAssembly) : Except ProviderError ToolCall := do
  let id ← require tool.id (.malformed "stream tool call missing id")
  let name ← require tool.name (.malformed "stream tool call missing name")
  let input ← (W.value tool.arguments).mapError .malformed
  .ok ⟨id, name, input⟩

def validateToolCalls (calls : List ToolCall) : Except ProviderError Unit :=
  ensure ((∀ call ∈ calls, validToolCallId call.id = true) ∧ (calls.map ToolCall.id).Nodup)
    (.malformed "tool call ids must match [A-Za-z0-9_-]\x7b1,256\x7d and be unique")

def usageFromWire (usage : Option WireUsage) : ProviderUsage :=
  match usage with
  | none => ⟨none, none, none, none⟩
  | some usage => ⟨usage.promptTokens, usage.completionTokens, usage.totalTokens, usage.cachedTokens⟩

def assembledResponse (assembly : StreamAssembly) : Except ProviderError ProviderResponse := do
  let calls ← assembly.tools.mapM (assembledCall W)
  validateToolCalls calls
  .ok {
    message := if assembly.content.isEmpty then none else some assembly.content
    toolCalls := calls
    inputRequest := none
    usage := usageFromWire assembly.usage
    finishReason := assembly.finishReason.map finishReason
    providerState := none }

end Events

/-! ## Lines -/

def LF : UInt8 := 0x0a
def CR : UInt8 := 0x0d

def stripCr (line : List UInt8) : List UInt8 := if line.getLast? = some CR then line.dropLast else line

/-- `b"data"`. -/
def dataField : List UInt8 := [0x64, 0x61, 0x74, 0x61]

/-- The value of a `data` field; comments, other fields and lines without a colon have none. -/
def dataValue (line : List UInt8) : Option (List UInt8) :=
  let field := line.takeWhile (· ≠ 0x3a)
  let value := (line.dropWhile (· ≠ 0x3a)).drop 1
  if line.contains 0x3a ∧ field = dataField then
    some (if value.head? = some 0x20 then value.drop 1 else value)
  else none

/-- `std::str::from_utf8` of a value within the limit. -/
def sseData (value : List UInt8) : Except ProviderError String := do
  ensure (value.length ≤ MAX_SSE_EVENT_BYTES) (.malformed "SSE event exceeds limit")
  require (String.fromUTF8? ⟨value.toArray⟩) (.malformed "SSE data is not UTF-8")

def joinData (lines : List String) : String := "\n".intercalate lines

section Loop

variable {A : Type} (consume : String → A → Except ProviderError (Bool × A))

structure SseLines (A : Type) where
  dataLines : List String
  assembly : A
  done : Bool

/-- The body of the line loop. -/
def acceptLine (state : SseLines A) (line : List UInt8) : Except ProviderError (SseLines A) :=
  let line := stripCr line
  if line.isEmpty then
    if state.dataLines.isEmpty then .ok state
    else do
      let (done, assembly) ← consume (joinData state.dataLines) state.assembly
      .ok ⟨[], assembly, done || state.done⟩
  else
    match dataValue line with
    | none => .ok state
    | some value => do
        let text ← sseData value
        .ok { state with dataLines := state.dataLines ++ [text] }

structure SseState (A : Type) where
  buffer : List UInt8
  total : Nat
  lines : SseLines A

/-- One chunk: its complete lines up to a final marker, after which nothing reads the buffer. -/
def acceptChunk (state : SseState A) (next : Except ProviderError (List UInt8)) : Except ProviderError (SseState A) := do
  let chunk ← next
  let total := state.total + chunk.length
  ensure (total ≤ MAX_SSE_BODY_BYTES) (.malformed "SSE body exceeds limit")
  let split := splitLines LF (state.buffer ++ chunk)
  let lines ← foldUntil (acceptLine consume) SseLines.done state.lines split.1
  .ok ⟨split.2, total, lines⟩

/-- After the last chunk: the event that no blank line has ended, and the final marker. -/
def finishStream (state : SseLines A) : Except ProviderError A := do
  let (done, assembly) ← if !state.dataLines.isEmpty && !state.done then
      consume (joinData state.dataLines) state.assembly
    else .ok (state.done, state.assembly)
  ensure done (.malformed "SSE stream ended without [DONE]")
  .ok assembly

/-- The chunk loop. A chunk is an error when the transport fails or the request is cancelled. -/
def readStream (assembly : A) (chunks : List (Except ProviderError (List UInt8))) : Except ProviderError A := do
  let state ← foldUntil (acceptChunk consume) (·.lines.done) ⟨[], 0, [], assembly, false⟩ chunks
  finishStream consume state.lines

end Loop

def parseOpenaiSse (W : WireDecoder) (chunks : List (Except ProviderError (List UInt8))) :
    Except ProviderError ProviderResponse := do
  let assembly ← readStream (consumeSseEvent W) .empty chunks
  assembledResponse W assembly

/-! ## The stream as a whole -/

/-- The lines of a stream without their ends; what follows the last LF is no line. -/
def sseLines (stream : List UInt8) : List (List UInt8) := (splitLines LF stream).1.map stripCr

/-- The events that a blank line ends. -/
def terminatedEvents (stream : List UInt8) : List (List (List UInt8)) := (splitLines [] (sseLines stream)).1

/-- All events: the end of the stream ends the last one. -/
def sseEvents (stream : List UInt8) : List (List (List UInt8)) := pieces [] (sseLines stream)

/-- The data lines of an event. -/
def eventTexts (event : List (List UInt8)) : Except ProviderError (List String) :=
  (event.filterMap dataValue).mapM sseData

section Reference

variable {A : Type} (consume : String → A → Except ProviderError (Bool × A))

/-- An event without data lines is no event. -/
def endEvent (texts : List String) (assembly : A) : Except ProviderError (Bool × A) :=
  if texts.isEmpty then .ok (false, assembly) else consume (joinData texts) assembly

def consumeEvent (state : Bool × A) (event : List (List UInt8)) : Except ProviderError (Bool × A) := do
  let texts ← eventTexts event
  endEvent consume texts state.2

def marked (state : Bool × A) : Except ProviderError A := do
  ensure state.1 (.malformed "SSE stream ended without [DONE]")
  .ok state.2

/-- The events up to the first final marker. -/
def readEvents (assembly : A) (events : List (List (List UInt8))) : Except ProviderError A := do
  let state ← foldUntil (consumeEvent consume) Prod.fst (false, assembly) events
  marked state

end Reference

def sseReference (W : WireDecoder) (events : List (List (List UInt8))) : Except ProviderError ProviderResponse := do
  let assembly ← readEvents (consumeSseEvent W) .empty events
  assembledResponse W assembly

/-- A decoder of streams without JSON. -/
def noJson : WireDecoder where
  streamWire _ := .error "expected value at line 1 column 1"
  value _ := .error "expected value at line 1 column 1"

/-- `data: [DONE]` and a line end. -/
def markerLine : List UInt8 := [0x64, 0x61, 0x74, 0x61, 0x3a, 0x20, 0x5b, 0x44, 0x4f, 0x4e, 0x45, 0x5d, 0x0a]

/-- The marker is taken although no blank line follows it. -/
theorem unterminated_marker : markerLine.length ≤ MAX_SSE_BODY_BYTES ∧ parseOpenaiSse noJson [.ok markerLine] =
      .ok ⟨none, [], none, ⟨none, none, none, none⟩, none, none⟩ ∧
    sseReference noJson (terminatedEvents markerLine) = .error (.malformed "SSE stream ended without [DONE]") := by
  decide +kernel

/-! ## The loop reads the events -/

section Framing

variable {A : Type} {consume consume' : String → A → Except ProviderError (Bool × A)}

theorem eventTexts_append (first more : List (List UInt8)) : eventTexts (first ++ more) =
    eventTexts first >>= fun texts => eventTexts more >>= fun later => .ok (texts ++ later) := by
  rw [eventTexts, List.filterMap_append, List.mapM_append]
  rfl

theorem readEvents_cons (assembly : A) (event : List (List UInt8)) (events : List (List (List UInt8))) :
    readEvents consume assembly (event :: events) = consumeEvent consume (false, assembly) event >>= fun state =>
      if state.1 then .ok state.2 else readEvents consume state.2 events := by
  rw [readEvents, foldUntil, if_neg Bool.false_ne_true]
  cases consumeEvent consume (false, assembly) event with
  | error e => rfl
  | ok state =>
      obtain ⟨done, assembly⟩ := state
      cases done with
      | false => rfl
      | true =>
          change (foldUntil (consumeEvent consume) Prod.fst (true, assembly) events >>= marked) = .ok assembly
          rw [foldUntil_stopped rfl]
          rfl

theorem acceptLine_blank (texts : List String) (assembly : A) {line : List UInt8} (blank : stripCr line = []) :
    acceptLine consume ⟨texts, assembly, false⟩ line =
      endEvent consume texts assembly >>= fun state => .ok ⟨[], state.2, state.1⟩ := by
  simp only [acceptLine, blank, endEvent, List.isEmpty_nil, if_true]
  cases texts with
  | nil => rfl
  | cons text texts =>
      simp only [List.isEmpty_cons, Bool.false_eq_true, if_false, Bool.or_false]

theorem acceptLine_written (texts : List String) (assembly : A) {line : List UInt8} (written : stripCr line ≠ []) :
    acceptLine consume ⟨texts, assembly, false⟩ line =
      eventTexts [stripCr line] >>= fun later => .ok ⟨texts ++ later, assembly, false⟩ := by
  have full : (stripCr line).isEmpty = false := by rwa [List.isEmpty_eq_false_iff]
  simp only [acceptLine, full, Bool.false_eq_true, if_false, eventTexts, List.filterMap_cons, List.filterMap_nil]
  cases dataValue (stripCr line) with
  | none =>
      change _ = Except.ok (SseLines.mk (texts ++ []) assembly false)
      rw [List.append_nil]
  | some value =>
      simp only [List.mapM_cons, List.mapM_nil]
      cases sseData value with
      | error e => rfl
      | ok text => rfl

theorem finishStream_open (texts : List String) (assembly : A) :
    finishStream consume ⟨texts, assembly, false⟩ = endEvent consume texts assembly >>= marked := by
  rw [finishStream, endEvent]
  cases texts with
  | nil => rfl
  | cons text texts => rfl

/-- From the data lines of the event in hand on, the line loop reads what is left of the events. -/
theorem acceptLines_events (consume : String → A → Except ProviderError (Bool × A)) (lines seen : List (List UInt8)) (texts : List String) (assembly : A) (open_ : [] ∉ seen)
    (held : eventTexts seen = .ok texts) :
    (foldUntil (acceptLine consume) SseLines.done ⟨texts, assembly, false⟩ lines >>= finishStream consume) =
      readEvents consume assembly (pieces [] (seen ++ lines.map stripCr)) := by
  induction lines generalizing seen texts assembly with
  | nil =>
      rw [List.map_nil, List.append_nil, pieces_free open_, readEvents_cons, consumeEvent, held]
      change finishStream consume ⟨texts, assembly, false⟩ = endEvent consume texts assembly >>= _
      rw [finishStream_open]
      congr 1
      funext state
      obtain ⟨done, assembly⟩ := state
      cases done <;> rfl
  | cons line rest ih =>
      rw [foldUntil, if_neg Bool.false_ne_true, List.map_cons]
      by_cases blank : stripCr line = []
      · rw [blank, pieces_line open_, readEvents_cons, consumeEvent, held, acceptLine_blank texts assembly blank]
        change _ = endEvent consume texts assembly >>= _
        cases endEvent consume texts assembly with
        | error e => rfl
        | ok state =>
            obtain ⟨done, assembly⟩ := state
            cases done with
            | false => exact ih [] [] assembly List.not_mem_nil rfl
            | true =>
                change (foldUntil (acceptLine consume) SseLines.done ⟨[], assembly, true⟩ rest >>= _) = .ok assembly
                rw [foldUntil_stopped rfl]
                rfl
      · have still : [] ∉ seen ++ [stripCr line] := by
          rw [List.mem_append, List.mem_singleton, not_or]
          exact ⟨open_, fun same => blank same.symm⟩
        have joined : seen ++ stripCr line :: rest.map stripCr = seen ++ [stripCr line] ++ rest.map stripCr := by
          rw [List.append_assoc]
          rfl
        have more := eventTexts_append seen [stripCr line]
        rw [held] at more
        rw [joined, acceptLine_written texts assembly blank]
        cases read : eventTexts [stripCr line] with
        | error e =>
            rw [read] at more
            obtain ⟨later, others, first⟩ := pieces_append still (rest.map stripCr)
            rw [first, readEvents_cons, consumeEvent, eventTexts_append, more]
            rfl
        | ok later =>
            rw [read] at more
            exact ih _ _ assembly still more

/-- While the body stays within its limit, a chunk is its lines. -/
theorem acceptChunk_lines {state : SseState A} {chunk : List UInt8}
    (within : state.total + chunk.length ≤ MAX_SSE_BODY_BYTES) : acceptChunk consume state (.ok chunk) =
      (feed LF (acceptLine consume) SseLines.done (state.buffer, state.lines) chunk).map fun held =>
        ⟨held.1, state.total + chunk.length, held.2⟩ := by
  have passed : ensure (state.total + chunk.length ≤ MAX_SSE_BODY_BYTES)
      (ProviderError.malformed "SSE body exceeds limit") = .ok () := if_pos within
  change (ensure (state.total + chunk.length ≤ MAX_SSE_BODY_BYTES) _ >>= fun _ => _) = _
  rw [passed, feed]
  change (foldUntil (acceptLine consume) SseLines.done state.lines (splitLines LF (state.buffer ++ chunk)).1 >>= _) = _
  cases foldUntil (acceptLine consume) SseLines.done state.lines (splitLines LF (state.buffer ++ chunk)).1 <;> rfl

theorem acceptChunks_lines (consume : String → A → Except ProviderError (Bool × A)) (chunks : List (List UInt8))
    (state : SseState A)
    (small : state.total + chunks.flatten.length ≤ MAX_SSE_BODY_BYTES) :
    (foldUntil (acceptChunk consume) (·.lines.done) state (chunks.map .ok)).map SseState.lines =
      (foldUntil (feed LF (acceptLine consume) SseLines.done) (·.2.done) (state.buffer, state.lines) chunks).map
        Prod.snd := by
  induction chunks generalizing state with
  | nil => rfl
  | cons chunk chunks ih =>
      rw [List.flatten_cons, List.length_append, ← Nat.add_assoc] at small
      rw [List.map_cons, foldUntil, foldUntil]
      by_cases stopped : state.lines.done = true
      · rw [if_pos stopped, if_pos stopped]
        rfl
      · rw [if_neg stopped, if_neg stopped, acceptChunk_lines (Nat.le_trans (Nat.le_add_right _ _) small)]
        cases feed LF (acceptLine consume) SseLines.done (state.buffer, state.lines) chunk with
        | error e => rfl
        | ok held => exact ih ⟨held.1, state.total + chunk.length, held.2⟩ small

/-- The loop reads the events of the whole, however it is cut. -/
theorem readStream_events (assembly : A) (chunks : List (List UInt8))
    (small : chunks.flatten.length ≤ MAX_SSE_BODY_BYTES) : readStream consume assembly (chunks.map .ok) =
      readEvents consume assembly (sseEvents chunks.flatten) := by
  have read := acceptChunks_lines consume chunks ⟨[], 0, [], assembly, false⟩ (by rwa [Nat.zero_add])
  rw [foldUntil_feed List.not_mem_nil, List.nil_append] at read
  have events := acceptLines_events consume (splitLines LF chunks.flatten).1 [] [] assembly
    List.not_mem_nil rfl
  rw [List.nil_append] at events
  rw [sseEvents, sseLines, ← events, ← read, readStream]
  cases foldUntil (acceptChunk consume) (·.lines.done) ⟨[], 0, [], assembly, false⟩ (chunks.map .ok) <;> rfl

/-! ## What is consumed -/

/-- A data line that is read is within the limit. -/
theorem sseData_within {value : List UInt8} {text : String} (read : sseData value = .ok text) :
    text.utf8ByteSize ≤ MAX_SSE_EVENT_BYTES := by
  simp only [sseData, bind_ok, ensure_ok, require_ok] at read
  obtain ⟨_, small, decoded⟩ := read
  rw [String.fromUTF8?] at decoded
  split at decoded
  case isTrue valid =>
    cases decoded
    exact small
  case isFalse => cases decoded

theorem eventTexts_within {event : List (List UInt8)} {texts : List String} (read : eventTexts event = .ok texts) :
    ∀ text ∈ texts, text.utf8ByteSize ≤ MAX_SSE_EVENT_BYTES := by
  intro text member
  obtain ⟨_, _, decoded⟩ := mapM_mem read text member
  exact sseData_within decoded

/-- Two consumers that agree on data joined from lines within the limit read the same. -/
theorem readEvents_congr (agree : ∀ texts assembly, (∀ text ∈ texts, text.utf8ByteSize ≤ MAX_SSE_EVENT_BYTES) →
      consume (joinData texts) assembly = consume' (joinData texts) assembly)
    (assembly : A) (events : List (List (List UInt8))) :
    readEvents consume assembly events = readEvents consume' assembly events := by
  induction events generalizing assembly with
  | nil => rfl
  | cons event events ih =>
      have same : consumeEvent consume (false, assembly) event = consumeEvent consume' (false, assembly) event := by
        rw [consumeEvent, consumeEvent]
        cases read : eventTexts event with
        | error e => rfl
        | ok texts =>
            change endEvent consume texts assembly = endEvent consume' texts assembly
            rw [endEvent, endEvent, agree texts assembly (eventTexts_within read)]
      rw [readEvents_cons, readEvents_cons, same]
      congr 1
      funext state
      rw [ih]

end Framing

/-- The data of an event whose lines all pass is within the limit as well. -/
def JoinsWithin (event : List (List UInt8)) : Prop :=
  ∀ texts, eventTexts event = .ok texts → (joinData texts).utf8ByteSize ≤ MAX_SSE_EVENT_BYTES

/-- Two ways to cut a stream give one result; it is that of the events of the stream; and no data with a line over
the limit is consumed: what is done with it makes no difference. -/
theorem sse_framed (W : WireDecoder) (chunks chunks' : List (List UInt8)) (same : chunks.flatten = chunks'.flatten)
    (small : chunks.flatten.length ≤ MAX_SSE_BODY_BYTES) :
    parseOpenaiSse W (chunks.map .ok) = parseOpenaiSse W (chunks'.map .ok) ∧
    ((∀ event ∈ sseEvents chunks.flatten, JoinsWithin event) →
      parseOpenaiSse W (chunks.map .ok) = sseReference W (sseEvents chunks.flatten)) ∧
    ∀ (A : Type) (consume consume' : String → A → Except ProviderError (Bool × A)) (assembly : A),
      (∀ texts assembly, (∀ text ∈ texts, text.utf8ByteSize ≤ MAX_SSE_EVENT_BYTES) →
        consume (joinData texts) assembly = consume' (joinData texts) assembly) →
      readStream consume assembly (chunks.map .ok) = readStream consume' assembly (chunks.map .ok) := by
  have framed : ∀ pieces : List (List UInt8), pieces.flatten.length ≤ MAX_SSE_BODY_BYTES →
      parseOpenaiSse W (pieces.map .ok) = sseReference W (sseEvents pieces.flatten) := by
    intro pieces within
    rw [parseOpenaiSse, sseReference, readStream_events _ pieces within]
  refine ⟨?_, fun _ => framed chunks small, ?_⟩
  · rw [framed chunks small, framed chunks' (same ▸ small), same]
  · intro A consume consume' assembly agree
    rw [readStream_events _ chunks small, readStream_events _ chunks small]
    exact readEvents_congr agree assembly _

/-- A marker event with CRLF ends, cut inside the marker and inside a line end. -/
def cutMarker : List (List UInt8) :=
  [[0x64, 0x61, 0x74, 0x61, 0x3a, 0x20, 0x5b, 0x44], [0x4f, 0x4e, 0x45, 0x5d, 0x0d], [0x0a, 0x0d, 0x0a]]

theorem sse_framed_cut :
    parseOpenaiSse noJson (cutMarker.map .ok) = parseOpenaiSse noJson ([cutMarker.flatten].map .ok) ∧
    parseOpenaiSse noJson (cutMarker.map .ok) = sseReference noJson (sseEvents cutMarker.flatten) := by
  have events : sseEvents cutMarker.flatten = [[markerLine.dropLast], []] := by decide +kernel
  have marker : eventTexts [markerLine.dropLast] = .ok ["[DONE]"] := by decide +kernel
  have within : ∀ event ∈ sseEvents cutMarker.flatten, JoinsWithin event := by
    rw [events]
    intro event member texts read
    simp only [List.mem_cons, List.not_mem_nil, or_false] at member
    rcases member with rfl | rfl
    · cases marker.symm.trans read
      decide
    · cases read
      decide
  obtain ⟨cut, whole, _⟩ := sse_framed noJson cutMarker [cutMarker.flatten] (by decide) (by decide)
  exact ⟨cut, whole within⟩

end LatteCode.Headless
