import LatteCode.Headless.Sse
/- The inline response of a provider, and the streams that it may come in instead. -/

namespace LatteCode.Headless.Streaming
open Lines Outcome

/-! ## The inline response -/

structure WireFunction where
  name : String
  arguments : String

structure WireCall where
  id : String
  function : WireFunction

structure WireMessage where
  content : Option String
  toolCalls : List WireCall
  inputRequest : Option InputRequest

structure Choice where
  message : WireMessage
  finishReason : Option String

structure Wire where
  choices : List Choice
  usage : Option WireUsage
  providerState : Option Json

section Inline

variable (W : WireDecoder)

def decodeToolCall (call : WireCall) : Except ProviderError ToolCall := do
  let input ← (W.value call.function.arguments).mapError .malformed
  .ok ⟨call.id, call.function.name, input⟩

def decodeToolCalls (values : List WireCall) : Except ProviderError (List ToolCall) := do
  let calls ← values.mapM (decodeToolCall W)
  validateToolCalls calls
  .ok calls

def decodeWire (wire : Wire) (compatibilityInputRequest : Bool) : Except ProviderError ProviderResponse := do
  ensure (wire.providerState = none) (.capability "openai-chat does not support provider state")
  let choice ← require wire.choices.head? (.malformed "missing choices")
  ensure (choice.message.inputRequest = none ∨ compatibilityInputRequest = true)
    (.malformed "nonstandard message.input_request requires compatibility_input_request")
  let toolCalls ← decodeToolCalls W choice.message.toolCalls
  .ok {
    message := choice.message.content
    toolCalls := toolCalls
    inputRequest := choice.message.inputRequest
    usage := usageFromWire wire.usage
    finishReason := choice.finishReason.map finishReason
    providerState := none }

end Inline

/-! ## Its fragments -/

def concat (texts : List String) : String := texts.foldr (· ++ ·) ""

/-- The choices that the stream reads. -/
def firstChoices (events : List StreamWire) : List StreamChoice := events.filterMap (·.choices.head?)

/-- Deltas into which the calls are cut: every one belongs to a call and agrees with what it names, and every call is named
in some of them. -/
structure Cut (calls : List WireCall) (deltas : List StreamToolCall) : Prop where
  placed : ∀ delta ∈ deltas, delta.index < calls.length
  ids : ∀ i call, calls[i]? = some call → (∀ delta ∈ deltas, delta.index = i → delta.id.all (· = call.id)) ∧
    ∃ delta ∈ deltas, delta.index = i ∧ delta.id.isSome
  names : ∀ i call, calls[i]? = some call → (∀ delta ∈ deltas, delta.index = i → delta.name.all (· = call.function.name)) ∧
    ∃ delta ∈ deltas, delta.index = i ∧ delta.name.isSome
  arguments : ∀ i call, calls[i]? = some call →
    concat ((deltas.filter (·.index = i)).map (·.arguments.getD "")) = call.function.arguments

/-- Events into which a response is cut. -/
structure Fragments (choice : Choice) (usage : Option WireUsage) (events : List StreamWire) : Prop where
  content : concat ((firstChoices events).map (·.content.getD "")) = choice.message.content.getD ""
  calls : Cut choice.message.toolCalls ((firstChoices events).flatMap (·.toolCalls))
  finishReason : ((firstChoices events).filterMap (·.finishReason)).getLast? = choice.finishReason
  usage : (events.filterMap (·.usage)).getLast? = usage

/-- The limits of a stream. -/
structure Within (message : WireMessage) : Prop where
  content : (message.content.getD "").utf8ByteSize ≤ MAX_SSE_BODY_BYTES
  calls : message.toolCalls.length ≤ MAX_SSE_TOOL_CALLS
  arguments : ∀ call ∈ message.toolCalls, call.function.arguments.utf8ByteSize ≤ MAX_SSE_EVENT_BYTES

/-- The data of the events of a stream. -/
def dataOf (stream : List UInt8) : Except ProviderError (List String) := do
  let texts ← (sseEvents stream).mapM eventTexts
  .ok ((texts.filter fun lines => !lines.isEmpty).map joinData)

/-! ## One call -/

/-- A value that is named once or more often, and always the same. -/
structure Settling (held : Option String) (target : String) (later : List (Option String)) : Prop where
  agrees : held.all (· = target)
  repeats : ∀ value ∈ later, value.all (· = target)
  named : held.isSome ∨ ∃ value ∈ later, value.isSome

theorem Settling.settled {held : Option String} {target : String} (settling : Settling held target []) :
    held = some target := by
  cases held with
  | none =>
      rcases settling.named with held | ⟨_, member, _⟩
      · cases held
      · cases member
  | some value => exact congrArg some (of_decide_eq_true settling.agrees)

theorem Settling.merge {held value : Option String} {target : String} {later : List (Option String)} (changed : String)
    (settling : Settling held target (value :: later)) :
    ∃ next, mergeOnce held value changed = .ok next ∧ Settling next target later := by
  have rest : ∀ other ∈ later, other.all (· = target) :=
    fun other member => settling.repeats other (List.mem_cons_of_mem _ member)
  cases value with
  | none =>
      refine ⟨held, rfl, settling.agrees, rest, settling.named.imp id ?_⟩
      rintro ⟨other, member, named⟩
      rcases List.mem_cons.mp member with rfl | member
      · cases named
      · exact ⟨other, member, named⟩
  | some name =>
      have same : name = target := of_decide_eq_true (settling.repeats _ List.mem_cons_self)
      subst same
      refine ⟨some name, ?_, decide_eq_true rfl, rest, .inl rfl⟩
      have kept : held.all (fun old => decide (old = name)) = true := settling.agrees
      rw [mergeOnce, ensure, if_pos kept]
      rfl

/-! ## The calls -/

def blank : StreamToolAssembly := ⟨none, none, ""⟩

/-- The deltas of the call at an index. -/
def ofIndex (i : Nat) (deltas : List StreamToolCall) : List StreamToolCall := deltas.filter (·.index = i)

/-- The assembled calls, and what the deltas that are still to come add to them, are the calls of the response. -/
structure Ready (calls : List WireCall) (tools : List StreamToolAssembly) (deltas : List StreamToolCall) : Prop where
  placed : ∀ delta ∈ deltas, delta.index < calls.length
  grown : tools.length ≤ calls.length
  ids : ∀ i call, calls[i]? = some call →
    Settling (tools.getD i blank).id call.id ((ofIndex i deltas).map StreamToolCall.id)
  names : ∀ i call, calls[i]? = some call →
    Settling (tools.getD i blank).name call.function.name ((ofIndex i deltas).map StreamToolCall.name)
  arguments : ∀ i call, calls[i]? = some call →
    (tools.getD i blank).arguments ++ concat ((ofIndex i deltas).map (·.arguments.getD "")) = call.function.arguments

theorem Cut.ready {calls : List WireCall} {deltas : List StreamToolCall} (cut : Cut calls deltas) :
    Ready calls [] deltas := by
  have settling : ∀ (i : Nat) (target : String) (field : StreamToolCall → Option String),
      (∀ delta ∈ deltas, delta.index = i → (field delta).all (· = target)) ∧
        (∃ delta ∈ deltas, delta.index = i ∧ (field delta).isSome) →
      Settling none target ((ofIndex i deltas).map field) := by
    rintro i target field ⟨agree, delta, member, place, named⟩
    refine ⟨rfl, ?_, .inr ⟨field delta, ?_, named⟩⟩
    · intro value listed
      obtain ⟨other, found, rfl⟩ := List.mem_map.mp listed
      obtain ⟨found, here⟩ := List.mem_filter.mp found
      exact agree other found (of_decide_eq_true here)
    · exact List.mem_map_of_mem (List.mem_filter.mpr ⟨member, decide_eq_true place⟩)
  refine ⟨cut.placed, Nat.zero_le _, fun i call found => settling i _ _ (cut.ids i call found),
    fun i call found => settling i _ _ (cut.names i call found), fun i call found => ?_⟩
  exact (String.empty_append).trans (cut.arguments i call found)

/-- A call whose deltas have all come. -/
def whole (call : WireCall) : StreamToolAssembly := ⟨some call.id, some call.function.name, call.function.arguments⟩

theorem Ready.done {calls : List WireCall} {tools : List StreamToolAssembly} (ready : Ready calls tools []) :
    tools = calls.map whole := by
  have each : ∀ i call, calls[i]? = some call → tools.getD i blank = whole call := by
    intro i call found
    have id := (ready.ids i call found).settled
    have name := (ready.names i call found).settled
    have arguments : (tools.getD i blank).arguments ++ "" = _ := ready.arguments i call found
    rw [String.append_empty] at arguments
    cases held : tools.getD i blank
    rw [held] at id name arguments
    cases id
    cases name
    cases arguments
    rfl
  have long : ∀ i, i < calls.length → i < tools.length := by
    intro i bound
    by_contra short
    have found := each i calls[i] (List.getElem?_eq_getElem bound)
    rw [List.getD_eq_getElem?_getD, List.getElem?_eq_none (Nat.le_of_not_lt short)] at found
    cases found
  have same : tools.length = calls.length := by
    refine Nat.le_antisymm ready.grown ?_
    rcases Nat.eq_zero_or_pos calls.length with none | some
    · omega
    · have last := long (calls.length - 1) (by omega)
      omega
  refine List.ext_getElem (by rw [same, List.length_map]) fun i bound bound' => ?_
  rw [List.getElem_map]
  rw [List.length_map] at bound'
  have found := each i calls[i] (List.getElem?_eq_getElem bound')
  rwa [List.getD_eq_getElem?_getD, List.getElem?_eq_getElem bound] at found

theorem getD_grown (tools : List StreamToolAssembly) (n i : Nat) :
    (tools ++ List.replicate n blank).getD i blank = tools.getD i blank := by
  rw [List.getD_eq_getElem?_getD, List.getD_eq_getElem?_getD, List.getElem?_append]
  split
  · rfl
  case isFalse beyond =>
    rw [List.getElem?_eq_none (Nat.le_of_not_lt beyond), List.getElem?_replicate]
    split <;> rfl

theorem ofIndex_cons (i : Nat) (delta : StreamToolCall) (deltas : List StreamToolCall) :
    ofIndex i (delta :: deltas) = if delta.index = i then delta :: ofIndex i deltas else ofIndex i deltas := by
  rw [ofIndex, List.filter_cons]
  split <;> split <;> simp_all [ofIndex]

theorem concat_cons (text : String) (texts : List String) : concat (text :: texts) = text ++ concat texts := rfl

/-- A delta is taken into its call, and leaves the others as they are. -/
theorem Ready.merge {calls : List WireCall} {tools : List StreamToolAssembly} {delta : StreamToolCall}
    {deltas : List StreamToolCall} (few : calls.length ≤ MAX_SSE_TOOL_CALLS)
    (short : ∀ call ∈ calls, call.function.arguments.utf8ByteSize ≤ MAX_SSE_EVENT_BYTES)
    (ready : Ready calls tools (delta :: deltas)) :
    ∃ next, mergeToolCall tools delta = .ok next ∧ Ready calls next deltas := by
  have bound := ready.placed delta List.mem_cons_self
  have found : calls[delta.index]? = some calls[delta.index] := List.getElem?_eq_getElem bound
  have ids := ready.ids _ _ found
  have names := ready.names _ _ found
  have arguments := ready.arguments _ _ found
  rw [ofIndex_cons, if_pos rfl] at ids names arguments
  obtain ⟨id, idMerged, idSettling⟩ := ids.merge "stream tool id changed"
  obtain ⟨name, nameMerged, nameSettling⟩ := names.merge "stream tool name changed"
  rw [List.map_cons, concat_cons, ← String.append_assoc] at arguments
  have size : ((tools.getD delta.index blank).arguments ++ delta.arguments.getD "").utf8ByteSize ≤ MAX_SSE_EVENT_BYTES := by
    have total := congrArg String.utf8ByteSize arguments
    rw [String.utf8ByteSize_append] at total
    have limit := short _ (List.getElem_mem bound)
    omega
  refine ⟨(tools ++ List.replicate (delta.index + 1 - tools.length) blank).set delta.index
    ⟨id, name, (tools.getD delta.index blank).arguments ++ delta.arguments.getD ""⟩, ?_, ?_⟩
  · have kept := getD_grown tools (delta.index + 1 - tools.length) delta.index
    rw [blank] at kept idMerged nameMerged size
    simp only [mergeToolCall, bind_ok, ensure_ok, kept]
    exact ⟨(), Nat.lt_of_lt_of_le bound few, id, idMerged, name, nameMerged, (), .inr size, rfl⟩
  · have long : delta.index < (tools ++ List.replicate (delta.index + 1 - tools.length) blank).length := by
      rw [List.length_append, List.length_replicate]
      omega
    have others : ∀ i tool, i ≠ delta.index →
        ((tools ++ List.replicate (delta.index + 1 - tools.length) blank).set delta.index tool).getD i blank =
          tools.getD i blank := by
      intro i tool other
      rw [List.getD_eq_getElem?_getD, List.getElem?_set_ne other.symm, ← List.getD_eq_getElem?_getD, getD_grown]
    have own : ∀ tool,
        ((tools ++ List.replicate (delta.index + 1 - tools.length) blank).set delta.index tool).getD delta.index blank =
          tool := by
      intro tool
      rw [List.getD_eq_getElem?_getD, List.getElem?_set_self long]
      rfl
    have later : ∀ i, delta.index ≠ i → ofIndex i (delta :: deltas) = ofIndex i deltas := by
      intro i other
      rw [ofIndex_cons, if_neg other]
    have grown := ready.grown
    refine ⟨fun other member => ready.placed other (List.mem_cons_of_mem _ member), ?_, ?_, ?_, ?_⟩
    · rw [List.length_set, List.length_append, List.length_replicate]
      omega
    · intro i call here
      by_cases same : i = delta.index
      · subst same
        cases found.symm.trans here
        rw [own]
        exact idSettling
      · rw [others i _ same, ← later i (Ne.symm same)]
        exact ready.ids i call here
    · intro i call here
      by_cases same : i = delta.index
      · subst same
        cases found.symm.trans here
        rw [own]
        exact nameSettling
      · rw [others i _ same, ← later i (Ne.symm same)]
        exact ready.names i call here
    · intro i call here
      by_cases same : i = delta.index
      · subst same
        cases found.symm.trans here
        rw [own]
        exact arguments
      · rw [others i _ same, ← later i (Ne.symm same)]
        exact ready.arguments i call here

/-- The deltas of one event. -/
theorem Ready.merges {calls : List WireCall} (few : calls.length ≤ MAX_SSE_TOOL_CALLS)
    (short : ∀ call ∈ calls, call.function.arguments.utf8ByteSize ≤ MAX_SSE_EVENT_BYTES) {rest : List StreamToolCall} :
    ∀ {deltas : List StreamToolCall} {tools : List StreamToolAssembly}, Ready calls tools (deltas ++ rest) →
      ∃ next, deltas.foldlM mergeToolCall tools = .ok next ∧ Ready calls next rest
  | [], tools, ready => ⟨tools, rfl, ready⟩
  | delta :: deltas, tools, ready => by
      obtain ⟨next, merged, later⟩ := ready.merge few short
      obtain ⟨final, folded, ready⟩ := later.merges few short
      refine ⟨final, ?_, ready⟩
      rw [List.foldlM_cons, merged]
      exact folded

/-! ## The events -/

section Events

variable {W : WireDecoder} {choice : Choice} {usage : Option WireUsage}

/-- What is assembled, and what the events that are still to come add to it, is the response. -/
structure Building (choice : Choice) (usage : Option WireUsage) (assembly : StreamAssembly) (events : List StreamWire) :
    Prop where
  content : assembly.content ++ concat ((firstChoices events).map (·.content.getD "")) = choice.message.content.getD ""
  calls : Ready choice.message.toolCalls assembly.tools ((firstChoices events).flatMap (·.toolCalls))
  finishReason : ((firstChoices events).filterMap (·.finishReason)).getLast?.or assembly.finishReason = choice.finishReason
  usage : (events.filterMap (·.usage)).getLast?.or assembly.usage = usage

theorem Fragments.building {events : List StreamWire} (fragments : Fragments choice usage events) :
    Building choice usage .empty events where
  content := String.empty_append.trans fragments.content
  calls := fragments.calls.ready
  finishReason := (Option.or_none).trans fragments.finishReason
  usage := (Option.or_none).trans fragments.usage

/-- The last value that is named, of one that may be first. -/
theorem getLast?_first {α β : Type} (f : α → Option β) (a : α) (rest : List α) (held : Option β) :
    ((a :: rest).filterMap f).getLast?.or held = (rest.filterMap f).getLast?.or (f a <|> held) := by
  rw [List.filterMap_cons]
  cases f a with
  | none => rfl
  | some b =>
      rw [List.getLast?_cons]
      cases (rest.filterMap f).getLast? <;> rfl

theorem Building.consume {assembly : StreamAssembly} {event : StreamWire} {events : List StreamWire} {data : String}
    (within : Within choice.message) (read : W.streamWire data = .ok event) (inside : data ≠ "[DONE]")
    (building : Building choice usage assembly (event :: events)) :
    ∃ next, consumeSseEvent W data assembly = .ok (false, next) ∧ Building choice usage next events := by
  have used := building.usage
  rw [getLast?_first] at used
  rw [consumeSseEvent, if_neg inside, read]
  cases choices : event.choices with
  | nil =>
      have same : firstChoices (event :: events) = firstChoices events := by
        rw [firstChoices, List.filterMap_cons, choices]
        rfl
      refine ⟨{ assembly with usage := event.usage <|> assembly.usage }, ?_, ?_⟩
      · simp only [Except.mapError, bind, Except.bind, choices]
      · have content := building.content
        have calls := building.calls
        have finish := building.finishReason
        rw [same] at content calls finish
        exact ⟨content, calls, finish, used⟩
  | cons first others =>
      have split : firstChoices (event :: events) = first :: firstChoices events := by
        rw [firstChoices, List.filterMap_cons, choices]
        rfl
      have content := building.content
      have calls := building.calls
      have finish := building.finishReason
      rw [split] at content calls finish
      rw [List.map_cons, concat_cons, ← String.append_assoc] at content
      rw [List.flatMap_cons] at calls
      rw [getLast?_first] at finish
      have size : (assembly.content ++ first.content.getD "").utf8ByteSize ≤ MAX_SSE_BODY_BYTES := by
        have total := congrArg String.utf8ByteSize content
        rw [String.utf8ByteSize_append] at total
        have limit := within.content
        omega
      obtain ⟨tools, merged, ready⟩ := calls.merges within.calls within.arguments
      refine ⟨⟨assembly.content ++ first.content.getD "", tools, first.finishReason <|> assembly.finishReason,
        event.usage <|> assembly.usage⟩, ?_, ⟨content, ready, finish, used⟩⟩
      have passed : ensure (first.content.getD "" = "" ∨
          (assembly.content ++ first.content.getD "").utf8ByteSize ≤ MAX_SSE_BODY_BYTES)
          (ProviderError.malformed "stream assistant content exceeds limit") = .ok () := if_pos (.inr size)
      simp only [Except.mapError, choices, passed, merged, bind, Except.bind]

/-- The data of the events up to the marker, one after the other. -/
def readDatas {A : Type} (consume : String → A → Except ProviderError (Bool × A)) :
    A → List String → Except ProviderError A
  | _, [] => .error (.malformed "SSE stream ended without [DONE]")
  | assembly, data :: rest => consume data assembly >>= fun state =>
      if state.1 then .ok state.2 else readDatas consume state.2 rest

theorem readEvents_datas {A : Type} {consume : String → A → Except ProviderError (Bool × A)} :
    ∀ {events : List (List (List UInt8))} {texts : List (List String)} (assembly : A),
      events.mapM eventTexts = .ok texts → readEvents consume assembly events =
        readDatas consume assembly ((texts.filter fun lines => !lines.isEmpty).map joinData)
  | [], _, assembly, read => by
      cases read
      rfl
  | event :: events, texts, assembly, read => by
      rw [List.mapM_cons] at read
      obtain ⟨lines, first, read⟩ := bind_ok.mp read
      obtain ⟨rest, later, ⟨⟩⟩ := bind_ok.mp read
      rw [readEvents_cons, consumeEvent, first]
      show (endEvent consume lines assembly >>= _) = _
      cases lines with
      | nil => exact @readEvents_datas A consume events rest assembly later
      | cons line lines =>
          show (consume (joinData (line :: lines)) assembly >>= _) = consume (joinData (line :: lines)) assembly >>= _
          congr 1
          funext state
          rw [readEvents_datas state.2 later]

theorem Building.datas (within : Within choice.message) (marker : (W.streamWire "[DONE]").toOption = none) :
    ∀ {datas : List String} {events : List StreamWire} {assembly : StreamAssembly}, datas.mapM W.streamWire = .ok events →
      Building choice usage assembly events → ∃ final,
        readDatas (consumeSseEvent W) assembly (datas ++ ["[DONE]"]) = .ok final ∧ Building choice usage final []
  | [], _, assembly, read, building => by
      cases read
      exact ⟨assembly, rfl, building⟩
  | data :: datas, _, assembly, read, building => by
      rw [List.mapM_cons] at read
      obtain ⟨event, first, read⟩ := bind_ok.mp read
      obtain ⟨events, later, ⟨⟩⟩ := bind_ok.mp read
      have inside : data ≠ "[DONE]" := by
        rintro rfl
        rw [first] at marker
        cases marker
      obtain ⟨next, consumed, building⟩ := building.consume within first inside
      obtain ⟨final, done, building⟩ := building.datas within marker later
      refine ⟨final, ?_, building⟩
      rw [List.cons_append, readDatas, consumed]
      exact done

end Events

/-! ## The response -/

/-- A message without text is none. -/
def ProviderResponse.withoutEmpty (response : ProviderResponse) : ProviderResponse :=
  { response with message := response.message.filter fun text => !text.isEmpty }

/-- The calls of a stream are decoded as those of an inline response are. -/
theorem assembledCalls {W : WireDecoder} (calls : List WireCall) :
    (calls.map whole).mapM (assembledCall W) = calls.mapM (decodeToolCall W) := by
  induction calls with
  | nil => rfl
  | cons call calls ih =>
      rw [List.map_cons, List.mapM_cons, List.mapM_cons, ih]
      rfl

theorem Building.response {W : WireDecoder} {wire : Wire} {choice : Choice} {compatibility : Bool}
    {response : ProviderResponse} {assembly : StreamAssembly} (first : wire.choices.head? = some choice)
    (decoded : decodeWire W wire compatibility = .ok response) (unasked : response.inputRequest = none)
    (building : Building choice wire.usage assembly []) :
    assembledResponse W assembly = .ok (ProviderResponse.withoutEmpty response) := by
  simp only [decodeWire, bind_ok, ensure_ok, require_ok, first, Option.some.injEq, decodeToolCalls] at decoded
  obtain ⟨_, _, _, rfl, _, _, calls, ⟨calls', mapped, _, valid, ⟨⟩⟩, ⟨⟩⟩ := decoded
  have content : assembly.content ++ "" = _ := building.content
  rw [String.append_empty] at content
  have finish : assembly.finishReason = choice.finishReason := building.finishReason
  have used : assembly.usage = wire.usage := building.usage
  rw [assembledResponse, building.calls.done, assembledCalls, mapped]
  show (validateToolCalls calls >>= _) = _
  rw [valid, content, finish, used]
  have message : (if ((choice.message.content.getD "").isEmpty) = true then none else some (choice.message.content.getD "")) =
      choice.message.content.filter fun text => !text.isEmpty := by
    cases choice.message.content with
    | none => rfl
    | some text =>
        rw [Option.getD_some, Option.filter_some]
        cases text.isEmpty <;> rfl
  have none_ : choice.message.inputRequest = none := unasked
  rw [ProviderResponse.withoutEmpty, ← message, none_]
  rfl

/-- However an accepted response is cut into events, and the events into chunks, the stream is read as that response. -/
theorem stream_agrees {W : WireDecoder} (marker : (W.streamWire "[DONE]").toOption = none) {wire : Wire}
    {compatibility : Bool} {response : ProviderResponse} (decoded : decodeWire W wire compatibility = .ok response)
    (unasked : response.inputRequest = none) {choice : Choice} (first : wire.choices.head? = some choice)
    (within : Within choice.message) {events : List StreamWire} (fragments : Fragments choice wire.usage events)
    {datas : List String} (written : datas.mapM W.streamWire = .ok events) {chunks : List (List UInt8)}
    (small : chunks.flatten.length ≤ MAX_SSE_BODY_BYTES) (carried : dataOf chunks.flatten = .ok (datas ++ ["[DONE]"])) :
    parseOpenaiSse W (chunks.map .ok) = .ok (ProviderResponse.withoutEmpty response) := by
  obtain ⟨texts, read, joined⟩ := bind_ok.mp carried
  obtain ⟨final, done, building⟩ := fragments.building.datas within marker written
  rw [parseOpenaiSse, readStream_events _ chunks small, readEvents_datas _ read, Except.ok.inj joined, done]
  exact building.response first decoded unasked

/-! ## Two calls whose deltas cross -/

def sampleCalls : List WireCall := [⟨"a", "read_file", "\x7b\x7d"⟩, ⟨"b", "list_files", "[]"⟩]

def sampleChoice : Choice := ⟨⟨some "hi", sampleCalls, none⟩, some "tool_calls"⟩

def sampleWire : Wire := ⟨[sampleChoice], some ⟨none, none, some 7, none⟩, none⟩

def firstData : String :=
  "\x7b\"choices\":[\x7b\"delta\":\x7b\"content\":\"h\",\"tool_calls\":[\x7b\"index\":1,\"id\":\"b\"," ++
    "\"function\":\x7b\"name\":\"list_files\",\"arguments\":\"[\"\x7d\x7d]\x7d\x7d]\x7d"

def secondData : String :=
  "\x7b\"choices\":[\x7b\"delta\":\x7b\"content\":\"i\",\"tool_calls\":[\x7b\"index\":0,\"id\":\"a\"," ++
    "\"function\":\x7b\"name\":\"read_file\",\"arguments\":\"\x7b\x7d\"\x7d\x7d,\x7b\"index\":1," ++
    "\"function\":\x7b\"arguments\":\"]\"\x7d\x7d]\x7d,\"finish_reason\":\"tool_calls\"\x7d]\x7d"

def lastData : String := "\x7b\"choices\":[],\"usage\":\x7b\"total_tokens\":7\x7d\x7d"

def sampleDatas : List String := [firstData, secondData, lastData]

def firstEvent : StreamWire := ⟨[⟨some "h", [⟨1, some "b", some "list_files", some "["⟩], none⟩], none⟩

def secondEvent : StreamWire :=
  ⟨[⟨some "i", [⟨0, some "a", some "read_file", some "\x7b\x7d"⟩, ⟨1, none, none, some "]"⟩], some "tool_calls"⟩], none⟩

def sampleEvents : List StreamWire := [firstEvent, secondEvent, ⟨[], some ⟨none, none, some 7, none⟩⟩]

def sampleDecoder : WireDecoder where
  streamWire data :=
    if data = firstData then .ok firstEvent
    else if data = secondData then .ok secondEvent
    else if data = lastData then .ok ⟨[], some ⟨none, none, some 7, none⟩⟩
    else .error "expected value at line 1 column 2"
  value text :=
    if text = "\x7b\x7d" then .ok (.object .nil)
    else if text = "[]" then .ok (.array .nil)
    else .error "expected value at line 1 column 1"

def sampleBody : List UInt8 :=
  (sampleDatas ++ ["[DONE]"]).flatMap fun data => ("data: " ++ data ++ "\n\n").toUTF8.data.toList

theorem sample_cut : Cut sampleCalls ((firstChoices sampleEvents).flatMap (·.toolCalls)) where
  placed := by decide
  ids i call found := by
    match i, found with
    | 0, found => cases found; decide
    | 1, found => cases found; decide
    | _ + 2, found => cases found
  names i call found := by
    match i, found with
    | 0, found => cases found; decide
    | 1, found => cases found; decide
    | _ + 2, found => cases found
  arguments i call found := by
    match i, found with
    | 0, found => cases found; decide
    | 1, found => cases found; decide
    | _ + 2, found => cases found

theorem sample_read : sampleDatas.mapM sampleDecoder.streamWire = .ok sampleEvents := by
  have second : secondData ≠ firstData := by decide +kernel
  have last : lastData ≠ firstData ∧ lastData ≠ secondData := by decide +kernel
  simp only [sampleDatas, List.mapM_cons, List.mapM_nil, sampleDecoder, if_true, if_neg second, if_neg last.1,
    if_neg last.2]
  rfl

theorem stream_agrees_bytes : parseOpenaiSse sampleDecoder ((sampleBody.map ([·])).map .ok) =
    .ok ⟨some "hi", [⟨"a", "read_file", .object .nil⟩, ⟨"b", "list_files", .array .nil⟩], none,
      ⟨none, none, some 7, none⟩, some .toolCalls, none⟩ := by
  have bytes : (sampleBody.map ([·])).flatten = sampleBody := by rw [← List.flatMap_def, List.flatMap_singleton']
  have fragments : Fragments sampleChoice sampleWire.usage sampleEvents :=
    ⟨by decide, sample_cut, by decide, rfl⟩
  have within : Within sampleChoice.message := ⟨by decide, by decide, by decide⟩
  have decoded : decodeWire sampleDecoder sampleWire false =
      .ok ⟨some "hi", [⟨"a", "read_file", .object .nil⟩, ⟨"b", "list_files", .array .nil⟩], none,
        ⟨none, none, some 7, none⟩, some .toolCalls, none⟩ := by decide +kernel
  have small : sampleBody.length ≤ MAX_SSE_BODY_BYTES := by decide +kernel
  have carried : dataOf sampleBody = .ok (sampleDatas ++ ["[DONE]"]) := by decide +kernel
  exact stream_agrees rfl decoded rfl rfl within fragments sample_read (by rw [bytes]; exact small) (by rw [bytes]; exact carried)

end LatteCode.Headless.Streaming
