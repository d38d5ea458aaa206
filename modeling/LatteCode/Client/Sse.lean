import LatteCode.Lib.Lines
import LatteCode.Core.Text
import LatteCode.Core.Session
/- The event stream of a workspace: the body that the server writes, and what the client reads of it. -/

namespace LatteCode.Client.Sse
open Lines

def LF : UInt8 := 0x0a

/-! ## The server -/

inductive ServerEvent where
  | sessionChanged (sessionId : String) (revision : Nat)
  | progress (sessionId turnId : String) (progress : Json)
  | resyncRequired

/-- The tag and the fields that serde writes, in their order. -/
def ServerEvent.members : ServerEvent → List (String × Json)
  | .sessionChanged sessionId revision =>
      [("type", .string "session_changed"), ("session_id", .string sessionId), ("revision", .ofNat revision)]
  | .progress sessionId turnId value =>
      [("type", .string "progress"), ("session_id", .string sessionId), ("turn_id", .string turnId), ("progress", value)]
  | .resyncRequired => [("type", .string "resync_required")]

def writtenFields : List (String × Json) → Fields
  | [] => .nil
  | (key, value) :: rest => .cons key value (writtenFields rest)

/-- `serde_json::to_string`. -/
def ServerEvent.text (F : FloatFormat) (event : ServerEvent) : List Char :=
  Json.chars F (.object (writtenFields event.members))

def ServerEvent.eventType : ServerEvent → String
  | .sessionChanged .. => "session_changed"
  | .progress .. => "progress"
  | .resyncRequired => "resync_required"

/-- `Event::default().event(..).data(..)`, with a line for each line of the data. -/
def frameLines (eventType : String) (data : List Char) : List (List Char) :=
  ("event: ".toList ++ eventType.toList) :: ((pieces '\n' data).map ("data: ".toList ++ ·) ++ [[]])

/-- What goes into the body of a response: an event of the channel, the notice that the receiver has lagged, or a comment
that keeps the connection alive. -/
inductive Item where
  | event (event : ServerEvent)
  | lagged
  | comment (text : List Char) (blank : Bool) (line : '\n' ∉ text)

/-- `workspace_events`. -/
def Item.lines (F : FloatFormat) : Item → List (List Char)
  | .event sent => frameLines sent.eventType (sent.text F)
  | .lagged => frameLines "resync_required" "\x7b\x7d".toList
  | .comment text blank _ => (':' :: text) :: if blank then [[]] else []

def body (F : FloatFormat) (items : List Item) : List UInt8 :=
  (joinLines '\n' (items.flatMap (Item.lines F))).flatMap String.utf8EncodeChar

/-! ## The client -/

inductive StreamEvent where
  | sessionChanged (sessionId : String) (revision : Nat)
  | progress (sessionId turnId : String) (progress : Json)
  | resyncRequired

section Client

-- `serde_json::from_str`
variable (fromStr : String → Except String Json)

def parseSseFrame (eventType : Option String) (data : String) : Option StreamEvent := do
  let value ← (fromStr data).toOption
  if eventType = some "session_changed" then
    let sessionId ← (value.get? "session_id").bind Json.asStr
    let revision ← (value.get? "revision").bind Json.asU64
    some (.sessionChanged sessionId revision)
  else if eventType = some "progress" then
    let sessionId ← (value.get? "session_id").bind Json.asStr
    let turnId ← (value.get? "turn_id").bind Json.asStr
    let progress ← value.get? "progress"
    some (.progress sessionId turnId progress)
  else if eventType = some "resync_required" then some .resyncRequired
  else none

structure SseDecoder where
  eventType : Option String
  data : String

def SseDecoder.default : SseDecoder := ⟨none, ""⟩

/-- `str::trim_start`. -/
def trimStart (text : List Char) : List Char := text.dropWhile isWhitespace

/-- A blank line ends a frame; comments and unknown fields are ignored. -/
def SseDecoder.line (decoder : SseDecoder) (line : List Char) : Option StreamEvent × SseDecoder :=
  if line = [] then (parseSseFrame fromStr decoder.eventType decoder.data, .default)
  else
    match line.dropPrefix? "event:".toList with
    | some rest => (none, { decoder with eventType := some (trim (String.ofList rest)) })
    | none =>
        match line.dropPrefix? "data:".toList with
        | some rest =>
            let data := if decoder.data.isEmpty then decoder.data else decoder.data ++ "\n"
            (none, { decoder with data := data ++ String.ofList (trimStart rest) })
        | none => (none, decoder)

/-- `trim_end_matches('\r')`. -/
def trimEndCr (line : List Char) : List Char := (line.reverse.dropWhile (· = '\r')).reverse

/-- One complete line of the buffer. -/
def readLine (decoder : SseDecoder) (bytes : List UInt8) : Except String (Option StreamEvent × SseDecoder) :=
  match String.fromUTF8? ⟨bytes.toArray⟩ with
  | none => .error "invalid UTF-8 in SSE"
  | some line => .ok (decoder.line fromStr (trimEndCr line.toList))

structure EventStream where
  /-- The chunks that are still to come; then the stream ends, fails or falls silent. -/
  stream : List (List UInt8)
  buf : List UInt8
  decoder : SseDecoder
  done : Bool

/-- `drain_lines`: the complete lines up to one that ends an event; what follows stays in the buffer. -/
def drainLines (buf : List UInt8) (decoder : SseDecoder) :
    Except String (Option StreamEvent × List UInt8 × SseDecoder) :=
  match readFirst (readLine fromStr) decoder (splitLines LF buf).1 with
  | .error error => .error error
  | .ok (event, decoder, rest) => .ok (event, joinLines LF rest ++ (splitLines LF buf).2, decoder)

/-- The loop of `next_event`. -/
def awaitEvent : List (List UInt8) → List UInt8 → SseDecoder → Option StreamEvent × EventStream
  | stream, buf, decoder =>
      match drainLines fromStr buf decoder with
      | .error _ => (none, ⟨stream, buf, decoder, true⟩)
      | .ok (some event, buf, decoder) => (some event, ⟨stream, buf, decoder, false⟩)
      | .ok (none, buf, decoder) =>
          match stream with
          | chunk :: stream => awaitEvent stream (buf ++ chunk) decoder
          | [] =>
              match drainLines fromStr buf decoder with
              | .error _ => (none, ⟨[], buf, decoder, true⟩)
              | .ok (event, buf, decoder) => (event, ⟨[], buf, decoder, true⟩)

def nextEvent (events : EventStream) : Option StreamEvent × EventStream :=
  if events.done then (none, events) else awaitEvent fromStr events.stream events.buf events.decoder

/-- The stream of a response as it is opened. -/
def opened (chunks : List (List UInt8)) : EventStream := ⟨chunks, [], .default, false⟩

/-- One call after the other returns these events, and then that there are no more. -/
def Yields : EventStream → List StreamEvent → Prop
  | events, [] => (nextEvent fromStr events).1 = none
  | events, event :: rest => (nextEvent fromStr events).1 = some event ∧ Yields (nextEvent fromStr events).2 rest

end Client

/-- The client's view of an item. -/
def Item.received : Item → Option StreamEvent
  | .event (.sessionChanged sessionId revision) => some (.sessionChanged sessionId revision)
  | .event (.progress sessionId turnId value) => some (.progress sessionId turnId value)
  | .event .resyncRequired => some .resyncRequired
  | .lagged => some .resyncRequired
  | .comment .. => none

/-! ## However the body is cut -/

section Chunks

variable {fromStr : String → Except String Json}

/-- The lines that are complete once every chunk has come. -/
def EventStream.lines (events : EventStream) : List (List UInt8) :=
  (splitLines LF (events.buf ++ events.stream.flatten)).1

theorem drainLines_tail (tail : List UInt8) (free : LF ∉ tail) (decoder : SseDecoder) :
    drainLines fromStr tail decoder = .ok (none, tail, decoder) := by
  rw [drainLines, splitLines_free free]
  rfl

/-- A wait for an event reads the lines of the whole body up to the one that ends it. -/
theorem awaitEvent_lines (stream : List (List UInt8)) (buf : List UInt8) (decoder : SseDecoder) :
    match readFirst (readLine fromStr) decoder (splitLines LF (buf ++ stream.flatten)).1 with
    | .error _ => (awaitEvent fromStr stream buf decoder).1 = none
    | .ok (none, _, _) => (awaitEvent fromStr stream buf decoder).1 = none
    | .ok (some event, decoder', rest) => ∃ events, awaitEvent fromStr stream buf decoder = (some event, events) ∧
        events.done = false ∧ events.decoder = decoder' ∧ events.lines = rest := by
  induction stream generalizing buf decoder with
  | nil =>
      have free := (splitLines_spec (d := LF) buf).2.2
      rw [List.flatten_nil, List.append_nil, awaitEvent, drainLines]
      cases read : readFirst (readLine fromStr) decoder (splitLines LF buf).1 with
      | error error => rfl
      | ok found =>
          obtain ⟨event, decoder', rest⟩ := found
          cases event with
          | none =>
              obtain rfl := readFirst_none_rest read
              -- what is left is no line, so that the last drain finds nothing
              have again := @drainLines_tail fromStr (splitLines LF buf).2 free decoder'
              simp only [joinLines, List.flatMap_nil, List.nil_append, again]
          | some event =>
              refine ⟨_, rfl, rfl, rfl, ?_⟩
              have lines : ∀ line ∈ rest, LF ∉ line := fun line member =>
                (splitLines_spec buf).2.1 line ((readFirst_rest read).subset member)
              show (splitLines LF (joinLines LF rest ++ (splitLines LF buf).2 ++ List.flatten [])).1 = rest
              rw [List.flatten_nil, List.append_nil, splitLines_joinLines lines, splitLines_free free, List.append_nil]
  | cons chunk stream ih =>
      rw [List.flatten_cons, splitLines_append, readFirst_append, awaitEvent, drainLines]
      cases read : readFirst (readLine fromStr) decoder (splitLines LF buf).1 with
      | error error => rfl
      | ok found =>
          obtain ⟨event, decoder', rest⟩ := found
          cases event with
          | none =>
              obtain rfl := readFirst_none_rest read
              have later := ih ((splitLines LF buf).2 ++ chunk) decoder'
              rw [List.append_assoc] at later
              exact later
          | some event =>
              refine ⟨_, rfl, rfl, rfl, ?_⟩
              have lines : ∀ line ∈ rest, LF ∉ line := fun line member =>
                (splitLines_spec buf).2.1 line ((readFirst_rest read).subset member)
              show (splitLines LF (joinLines LF rest ++ (splitLines LF buf).2 ++ List.flatten (chunk :: stream))).1 = _
              rw [List.append_assoc, splitLines_joinLines lines, List.flatten_cons]

end Chunks

/-! ## The lines of one item -/

theorem fromUTF8?_encoded (chars : List Char) :
    String.fromUTF8? ⟨(chars.flatMap String.utf8EncodeChar).toArray⟩ = some (String.ofList chars) := by
  have bytes : (⟨(chars.flatMap String.utf8EncodeChar).toArray⟩ : ByteArray) = (String.ofList chars).toByteArray := by
    apply ByteArray.ext
    rw [String.toByteArray_ofList, List.utf8Encode, List.data_toByteArray]
  rw [String.fromUTF8?, bytes]
  split
  case isTrue => rfl
  case isFalse invalid => exact absurd (String.ofList chars).isValidUTF8 invalid

def encodeLine (line : List Char) : List UInt8 := line.flatMap String.utf8EncodeChar

theorem encodeLine_free {line : List Char} (free : '\n' ∉ line) : LF ∉ encodeLine line := by
  intro member
  obtain ⟨c, held, byte⟩ := List.mem_flatMap.mp member
  refine utf8_line ?_ byte
  rintro rfl
  exact free held

theorem encode_joinLines (lines : List (List Char)) :
    (joinLines '\n' lines).flatMap String.utf8EncodeChar = joinLines LF (lines.map encodeLine) := by
  induction lines with
  | nil => rfl
  | cons line lines ih =>
      rw [joinLines_cons, List.flatMap_append, List.flatMap_cons, ih, List.map_cons, joinLines_cons]
      rfl

theorem trimEndCr_kept (line : List Char) {last : Char} (other : last ≠ '\r') :
    trimEndCr (line ++ [last]) = line ++ [last] := by
  have stop : decide (last = '\r') = false := decide_eq_false other
  rw [trimEndCr, List.reverse_append, List.reverse_singleton, List.singleton_append, List.dropWhile_cons, stop]
  simp

theorem trimEndCr_cons {first : Char} (other : first ≠ '\r') (line : List Char) :
    ∃ rest, trimEndCr (first :: line) = first :: rest := by
  have stop : decide (first = '\r') = false := decide_eq_false other
  rw [trimEndCr, List.reverse_cons, List.dropWhile_append]
  split
  case isTrue =>
    rw [List.dropWhile_cons, stop]
    exact ⟨[], rfl⟩
  case isFalse =>
    rw [List.reverse_append]
    exact ⟨_, rfl⟩

section Frames

variable {fromStr : String → Except String Json} {F : FloatFormat}

theorem readLine_encoded (decoder : SseDecoder) (line : List Char) :
    readLine fromStr decoder (encodeLine line) = .ok (decoder.line fromStr (trimEndCr line)) := by
  rw [readLine, encodeLine, fromUTF8?_encoded]
  simp only [String.toList_ofList]

/-- A line that yields nothing only moves the decoder. -/
theorem readFirst_quiet {decoder moved : SseDecoder} {line : List Char} (more : List (List UInt8))
    (quiet : decoder.line fromStr (trimEndCr line) = (none, moved)) :
    readFirst (readLine fromStr) decoder (encodeLine line :: more) = readFirst (readLine fromStr) moved more := by
  rw [readFirst, readLine_encoded, quiet]

/-- A comment is ignored, and so is the blank line that axum writes behind it. -/
theorem readFirst_comment (empty : (fromStr "").toOption = none) (text : List Char) (blank : Bool) (line : '\n' ∉ text)
    (more : List (List UInt8)) : readFirst (readLine fromStr) .default
      (((Item.comment text blank line).lines F).map encodeLine ++ more) = readFirst (readLine fromStr) .default more := by
  have comment : SseDecoder.default.line fromStr (trimEndCr (':' :: text)) = (none, .default) := by
    obtain ⟨rest, trimmed⟩ := trimEndCr_cons (show (':' : Char) ≠ '\r' by decide) text
    rw [trimmed]
    rfl
  rw [Item.lines, List.map_cons, List.cons_append, readFirst_quiet _ comment]
  cases blank with
  | false => rfl
  | true =>
      have gap : SseDecoder.default.line fromStr (trimEndCr []) = (none, .default) := by
        show (parseSseFrame fromStr none "", SseDecoder.default) = _
        rw [parseSseFrame, empty]
        rfl
      exact readFirst_quiet more gap

/-- The types that the server writes. -/
def written : List String := ["session_changed", "progress", "resync_required"]

theorem line_event {eventType : String} (known : eventType ∈ written) :
    SseDecoder.default.line fromStr (trimEndCr ("event: ".toList ++ eventType.toList)) = (none, ⟨some eventType, ""⟩) := by
  simp only [written, List.mem_cons, List.not_mem_nil, or_false] at known
  rcases known with rfl | rfl | rfl <;> rfl

/-- The text of an object stands between its braces. -/
def Braced (data : List Char) : Prop := ∃ inner, data = '\x7b' :: (inner ++ ['\x7d'])

theorem line_data {data : List Char} (braced : Braced data) (eventType : Option String) :
    SseDecoder.line fromStr ⟨eventType, ""⟩ (trimEndCr ("data: ".toList ++ data)) =
      (none, ⟨eventType, String.ofList data⟩) := by
  obtain ⟨inner, rfl⟩ := braced
  have whole : "data: ".toList ++ '\x7b' :: (inner ++ ['\x7d']) = ("data: ".toList ++ '\x7b' :: inner) ++ ['\x7d'] := by
    rw [List.append_assoc, List.cons_append]
  rw [whole, trimEndCr_kept _ (by decide)]
  have text : trimStart (' ' :: '\x7b' :: inner ++ ['\x7d']) = '\x7b' :: (inner ++ ['\x7d']) := rfl
  show (none, SseDecoder.mk eventType ("" ++ String.ofList (trimStart (' ' :: '\x7b' :: inner ++ ['\x7d'])))) = _
  rw [text, String.empty_append]

/-- A frame is read into its event, and leaves the decoder as it was. -/
theorem readFirst_frame {eventType : String} {data : List Char} {event : StreamEvent} (known : eventType ∈ written)
    (braced : Braced data) (line : '\n' ∉ data)
    (parsed : parseSseFrame fromStr (some eventType) (String.ofList data) = some event) (more : List (List UInt8)) :
    readFirst (readLine fromStr) .default ((frameLines eventType data).map encodeLine ++ more) =
      .ok (some event, .default, more) := by
  have ended : SseDecoder.line fromStr ⟨some eventType, String.ofList data⟩ (trimEndCr []) = (some event, .default) := by
    show (parseSseFrame fromStr (some eventType) (String.ofList data), SseDecoder.default) = _
    rw [parsed]
  rw [frameLines, pieces_free line, List.map_cons, List.cons_append, readFirst_quiet _ (line_event known)]
  rw [List.map_singleton, List.singleton_append, List.map_cons, List.cons_append, readFirst_quiet _ (line_data braced _)]
  rw [List.map_singleton, List.singleton_append, readFirst, readLine_encoded, ended]

theorem event_braced (event : ServerEvent) : Braced (event.text F) := ⟨_, rfl⟩

theorem event_written (event : ServerEvent) : event.eventType ∈ written := by
  cases event with
  | sessionChanged _ _ => exact List.mem_cons_self
  | progress _ _ _ => exact List.mem_cons_of_mem _ List.mem_cons_self
  | resyncRequired => exact List.mem_cons_of_mem _ (List.mem_cons_of_mem _ List.mem_cons_self)

/-- The client finds the fields that the server writes, under their names. -/
theorem parseSseFrame_event {event : ServerEvent}
    (readBack : fromStr (String.ofList (event.text F)) = .ok (.ofMembers event.members)) :
    parseSseFrame fromStr (some event.eventType) (String.ofList (event.text F)) = (Item.event event).received := by
  rw [parseSseFrame, readBack]
  cases event with
  | sessionChanged sessionId revision =>
      have id : (Json.ofMembers (ServerEvent.sessionChanged sessionId revision).members).get? "session_id" =
          some (.string sessionId) := by rw [Json.get?_ofMembers]; rfl
      have revised : (Json.ofMembers (ServerEvent.sessionChanged sessionId revision).members).get? "revision" =
          some (.ofNat revision) := by rw [Json.get?_ofMembers]; rfl
      simp only [Except.toOption, Option.bind_eq_bind, Option.bind_some, id, revised]
      rfl
  | progress sessionId turnId value =>
      have id : (Json.ofMembers (ServerEvent.progress sessionId turnId value).members).get? "session_id" =
          some (.string sessionId) := by rw [Json.get?_ofMembers]; rfl
      have turn : (Json.ofMembers (ServerEvent.progress sessionId turnId value).members).get? "turn_id" =
          some (.string turnId) := by rw [Json.get?_ofMembers]; rfl
      have report : (Json.ofMembers (ServerEvent.progress sessionId turnId value).members).get? "progress" = some value := by
        rw [Json.get?_ofMembers]; rfl
      simp only [Except.toOption, Option.bind_eq_bind, Option.bind_some, id, turn, report]
      rfl
  | resyncRequired => rfl

end Frames

/-! ## The round trip -/

section RoundTrip

variable {fromStr : String → Except String Json} {F : FloatFormat}

/-- What the client's JSON parser makes of the texts of a body: nothing of no text, and of what was written the same. -/
structure ReadsBack (fromStr : String → Except String Json) (F : FloatFormat) (items : List Item) : Prop where
  empty : (fromStr "").toOption = none
  notice : fromStr (String.ofList "\x7b\x7d".toList) = .ok (.ofMembers [])
  events : ∀ event, .event event ∈ items →
    fromStr (String.ofList (event.text F)) = .ok (.ofMembers event.members)

theorem lines_free (floats : F.OneLine) (item : Item) : ∀ line ∈ item.lines F, '\n' ∉ line := by
  have frame : ∀ eventType ∈ written, ∀ data : List Char, '\n' ∉ data → ∀ line ∈ frameLines eventType data, '\n' ∉ line := by
    intro eventType known data free line member
    rw [frameLines, pieces_free free] at member
    simp only [List.map_singleton, List.singleton_append, List.mem_cons, List.not_mem_nil, or_false] at member
    rcases member with rfl | rfl | rfl
    · simp only [written, List.mem_cons, List.not_mem_nil, or_false] at known
      rcases known with rfl | rfl | rfl <;> decide
    · rw [List.mem_append, not_or]
      exact ⟨by decide, free⟩
    · exact List.not_mem_nil
  cases item with
  | event event => exact frame _ (event_written event) _ (Json.line floats _)
  | lagged => exact frame "resync_required" (by decide) _ (by decide)
  | comment text blank line =>
      intro other member
      rw [Item.lines, List.mem_cons] at member
      rcases member with rfl | member
      · rw [List.mem_cons, not_or]
        exact ⟨by decide, line⟩
      · cases blank with
        | false => cases member
        | true =>
            rw [List.mem_singleton.mp member]
            exact List.not_mem_nil

theorem ReadsBack.tail {item : Item} {items : List Item} (reads : ReadsBack fromStr F (item :: items)) :
    ReadsBack fromStr F items :=
  ⟨reads.empty, reads.notice, fun event member => reads.events event (List.mem_cons_of_mem _ member)⟩

/-- The stream stands before the lines of these items. -/
structure Before (fromStr : String → Except String Json) (F : FloatFormat) (events : EventStream) (items : List Item) :
    Prop where
  opened : events.done = false
  lines : readFirst (readLine fromStr) events.decoder events.lines =
    readFirst (readLine fromStr) .default ((items.flatMap (Item.lines F)).map encodeLine)

/-- The next call returns the event of the frame that stands first, and leaves the stream before the items behind it. -/
theorem nextEvent_frame {events : EventStream} {item : Item} {items : List Item} {event : StreamEvent}
    (before : Before fromStr F events (item :: items))
    (frame : ∀ more, readFirst (readLine fromStr) .default ((item.lines F).map encodeLine ++ more) =
      .ok (some event, .default, more)) :
    (nextEvent fromStr events).1 = some event ∧ Before fromStr F (nextEvent fromStr events).2 items := by
  have awaited := @awaitEvent_lines fromStr events.stream events.buf events.decoder
  have read := before.lines
  rw [List.flatMap_cons, List.map_append, frame, EventStream.lines] at read
  rw [read] at awaited
  obtain ⟨after, found, running, decoder, lines⟩ := awaited
  have called : nextEvent fromStr events = (some event, after) := by
    rw [nextEvent, before.opened, ← found]
    rfl
  rw [called]
  exact ⟨rfl, running, by rw [decoder, lines]⟩

theorem yields_items {items : List Item} (floats : F.OneLine) (reads : ReadsBack fromStr F items) {events : EventStream}
    (before : Before fromStr F events items) : Yields fromStr events (items.filterMap Item.received) := by
  induction items generalizing events with
  | nil =>
      have awaited := @awaitEvent_lines fromStr events.stream events.buf events.decoder
      have read := before.lines
      rw [EventStream.lines] at read
      rw [read] at awaited
      show (nextEvent fromStr events).1 = none
      rw [nextEvent, before.opened]
      exact awaited
  | cons item items ih =>
      have later : ∀ after, Before fromStr F after items → Yields fromStr after (items.filterMap Item.received) :=
        fun _ => ih reads.tail
      cases item with
      | event sent =>
          obtain ⟨event, yielded⟩ : ∃ event, (Item.event sent).received = some event := by
            cases sent <;> exact ⟨_, rfl⟩
          have parsed := parseSseFrame_event (reads.events sent List.mem_cons_self)
          obtain ⟨next, after⟩ := nextEvent_frame before
            (readFirst_frame (event_written sent) (event_braced sent) (Json.line floats _) (parsed.trans yielded))
          rw [List.filterMap_cons_some yielded]
          exact ⟨next, later _ after⟩
      | lagged =>
          have parsed : parseSseFrame fromStr (some "resync_required") (String.ofList "\x7b\x7d".toList) =
              some .resyncRequired := by
            rw [parseSseFrame, reads.notice]
            rfl
          obtain ⟨next, after⟩ := nextEvent_frame before
            (readFirst_frame (by decide) ⟨[], rfl⟩ (by decide) parsed)
          exact ⟨next, later _ after⟩
      | comment text blank line =>
          have skipped : Before fromStr F events items := by
            refine ⟨before.opened, before.lines.trans ?_⟩
            rw [List.flatMap_cons, List.map_append, readFirst_comment reads.empty]
          exact later _ skipped

def sampleFloats : FloatFormat := ⟨fun _ => "0.5"⟩

def sampleEvents : List ServerEvent := [.sessionChanged "s1" 3, .progress "s1" "t1" (.string "ü\n"), .resyncRequired]

def sampleItems : List Item :=
  .comment [] true List.not_mem_nil :: .lagged :: sampleEvents.map .event

/-- A parser of the texts that the sample holds. -/
def sampleFromStr (text : String) : Except String Json :=
  match sampleEvents.find? fun event => String.ofList (event.text sampleFloats) = text with
  | some event => .ok (.ofMembers event.members)
  | none => if text = "\x7b\x7d" then .ok (.ofMembers []) else .error "EOF while parsing a value"

end RoundTrip

end LatteCode.Client.Sse
