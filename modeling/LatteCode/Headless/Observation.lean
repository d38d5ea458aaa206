import LatteCode.Headless.Batch
/- What the stored cards of a batch show again: redacted payloads, the window, and the lookups in it. -/

namespace LatteCode.Headless
open Storage

/-- The call as its card keeps it. -/
def ToolCall.redacted (E : Redactor) (call : ToolCall) : ToolCall :=
  ⟨E.redactSessionText call.id, E.redactSessionText call.name, E.redactSessionValue call.input⟩

/-- Member names that the runner writes into payloads and reads back. -/
def providerNames : List String :=
  ["tool_calls", "id", "name", "input", "tool_call_id", "provider_content", "output", "truncated", "error"]

/-- What the secret patterns do to names and to provider ids. -/
structure KeepsIds (E : Redactor) : Prop where
  names : ∀ name ∈ providerNames, E.redactSessionText name = name
  idempotent : ∀ id, validToolCallId id = true → E.redactSessionText (E.redactSessionText id) = E.redactSessionText id
  rewritten : ∀ id, validToolCallId id = true → validToolCallId (E.redactSessionText id) = true →
    E.redactSessionText id = id
  effectIds : ∀ turnId roundSequence ordinal call, validToolCallId call.id = true →
    E.redactSessionText (descriptorOf turnId roundSequence ordinal call).effectId =
      (descriptorOf turnId roundSequence ordinal call).effectId → E.redactSessionText call.id = call.id

section Payloads

variable {E : Redactor}

theorem KeepsIds.public (keeps : KeepsIds E) {name : String} (listed : name ∈ providerNames) :
    E.Public name := by
  have plainNames : ∀ name ∈ providerNames, secretKey name = false := by decide +kernel
  exact ⟨keeps.names name listed, plainNames name listed⟩

theorem ToolCall.fromValue_redacted (keeps : KeepsIds E) (call : ToolCall) :
    ToolCall.fromValue (E.redactSessionValue call.toJson) = some (call.redacted E) := by
  have members : ∀ key, (E.redactSessionValue call.toJson).get? key = ([("id", Json.string call.id),
      ("name", .string call.name), ("input", call.input)].reverse.lookup key).map E.redactSessionValue := by
    apply E.get?_redact_ofMembers
    intro member listed
    simp only [List.mem_cons, List.not_mem_nil, or_false] at listed
    rcases listed with rfl | rfl | rfl
    · exact keeps.public (show "id" ∈ providerNames by decide)
    · exact keeps.public (show "name" ∈ providerNames by decide)
    · exact keeps.public (show "input" ∈ providerNames by decide)
  obtain ⟨fields, shape⟩ : ∃ fields, E.redactSessionValue call.toJson = .object fields := ⟨_, rfl⟩
  rw [shape] at members ⊢
  have id := members "id"
  have name := members "name"
  have input := members "input"
  rw [Json.get?] at id name input
  rw [ToolCall.fromValue, id, name, input]
  rfl

/-- The calls a round card declares are the provider's, each redacted. -/
theorem toolCallsFromValue_redacted (keeps : KeepsIds E) (calls : List ToolCall) :
    toolCallsFromValue (E.redactSessionValue (toolCallsValue calls)) = some (calls.map (ToolCall.redacted E)) := by
  rw [toolCallsValue, Redactor.redactSessionValue, toolCallsFromValue, Json.asArray, E.redactElements_toList,
    Elements.toList_ofList, Option.bind_some]
  induction calls with
  | nil => rfl
  | cons call calls ih =>
      rw [List.map_cons, List.map_cons, List.mapM_cons, ToolCall.fromValue_redacted keeps, ih]
      rfl

theorem roundCard_calls (keeps : KeepsIds E) (turnId : TurnId) (message : Option String) (calls : List ToolCall)
    (firstId : String) : ((roundCard E turnId message calls firstId).payload.bind (Json.get? "tool_calls")).bind
      toolCallsFromValue = some (calls.map (ToolCall.redacted E)) := by
  have member : (E.redactSessionValue (.ofMembers [("tool_calls", toolCallsValue calls)])).get? "tool_calls" =
      ([("tool_calls", toolCallsValue calls)].reverse.lookup "tool_calls").map E.redactSessionValue := by
    apply E.get?_redact_ofMembers
    intro member listed
    rw [List.mem_singleton.mp listed]
    exact keeps.public (show "tool_calls" ∈ providerNames by decide)
  rw [roundCard, Option.bind_some, member]
  exact toolCallsFromValue_redacted keeps calls

section Observation

/-- Whether the observation of an execution carries a result for the provider. -/
def providesContent : Execution → Bool
  | .finished .. => true
  | .failed _ => true
  | .certified _ => false
  | .uncertain => false

/-- Members of these names, in key order. -/
def Shown (fields : Fields) : Prop := fields.Ordered ∧ ∀ key, fields.get? key ≠ none → key ∈ providerNames

theorem Shown.insert {fields : Fields} {key : String} (shown : Shown fields) (listed : key ∈ providerNames)
    (value : Json) : Shown (fields.insert key value) := by
  refine ⟨shown.1.insert key value, ?_⟩
  intro other held
  rw [Fields.get?_insert] at held
  by_cases same : other = key
  · exact same ▸ listed
  · rw [if_neg same] at held
    exact shown.2 other held

theorem Shown.insertAll {members : List (String × Json)} (listed : ∀ member ∈ members, member.1 ∈ providerNames)
    {fields : Fields} (shown : Shown fields) : Shown (fields.insertAll members) := by
  induction members generalizing fields with
  | nil => exact shown
  | cons member members ih =>
      have later := fun other held => listed other (List.mem_cons_of_mem member held)
      exact ih later (shown.insert (listed member List.mem_cons_self) member.2)

theorem shown_nil : Shown .nil := ⟨trivial, fun _ held => absurd rfl held⟩

theorem Shown.get?_redacted (keeps : KeepsIds E) {fields : Fields} (shown : Shown fields) (key : String) :
    (E.redactSessionValue (.object fields)).get? key = (fields.get? key).map E.redactSessionValue :=
  E.get?_redactSessionValue shown.1 (fun other held => keeps.public (shown.2 other held)) key

theorem Shown.redacted (keeps : KeepsIds E) {fields : Fields} (shown : Shown fields) :
    Shown (Fields.insertAll (E.redactMembers fields) .nil) := by
  refine ⟨Fields.Ordered.insertAll _ shown_nil.1, ?_⟩
  intro key held
  have here : (Fields.insertAll (E.redactMembers fields) .nil).get? key =
      (fields.get? key).map E.redactSessionValue := shown.get?_redacted keeps key
  apply shown.2 key
  intro absent
  rw [here, absent] at held
  exact held rfl

theorem toolPayload_shown (descriptor : SessionEffectDescriptor) {members : List (String × Json)}
    (listed : ∀ member ∈ members, member.1 ∈ providerNames) :
    ∃ fields, toolPayload descriptor members = .object fields ∧ Shown fields := by
  refine ⟨_, rfl, Shown.insertAll ?_ shown_nil⟩
  intro member held
  rw [List.mem_append, List.mem_cons, List.mem_singleton] at held
  rcases held with (rfl | rfl) | other
  · exact show "tool_call_id" ∈ providerNames by decide
  · exact show "name" ∈ providerNames by decide
  · exact listed member other

theorem errorListed (error : String) : ∀ member ∈ [("error", Json.string error)], member.1 ∈ providerNames := by
  intro member held
  rw [List.mem_singleton.mp held]
  exact show "error" ∈ providerNames by decide

/-- The call id and the content that a stored result shows. -/
def shownResult (payload : Json) : Option String × Option String :=
  ((payload.get? "tool_call_id").bind Json.asStr, (payload.get? "provider_content").bind Json.asStr)

theorem shownResult_delivered (keeps : KeepsIds E) {fields : Fields} (shown : Shown fields)
    (content toolCallId name : String) :
    shownResult (E.redactSessionValue (withProviderContent content toolCallId name (.object fields))) =
      (some (E.redactSessionText toolCallId), some (E.redactSessionText content)) := by
  have delivered := ((shown.insert (show "provider_content" ∈ providerNames by decide) (.string content)).insert
    (show "tool_call_id" ∈ providerNames by decide) (.string toolCallId)).insert
    (show "name" ∈ providerNames by decide) (.string name)
  rw [shownResult, withProviderContent, delivered.get?_redacted keeps, delivered.get?_redacted keeps]
  simp only [Fields.get?_insert, String.reduceEq, if_false, if_true]
  rfl

theorem shownResult_ofMembers (keeps : KeepsIds E) {members : List (String × Json)}
    (listed : ∀ member ∈ members, member.1 ∈ providerNames) :
    shownResult (E.redactSessionValue (.ofMembers members)) =
      (((members.reverse.lookup "tool_call_id").map E.redactSessionValue).bind Json.asStr,
        ((members.reverse.lookup "provider_content").map E.redactSessionValue).bind Json.asStr) := by
  have names : ∀ member ∈ members, E.Public member.1 := fun member held => keeps.public (listed member held)
  rw [shownResult, E.get?_redact_ofMembers names, E.get?_redact_ofMembers names]

variable (host : Host) (descriptor : SessionEffectDescriptor)

/-- A stored observation shows the presented id, and the result unless the failure was certified. -/
theorem observation_shown (keeps : KeepsIds E) {execution : Execution} {suffix result : String} {payload : Json}
    (observed : observation E host descriptor execution = some (suffix, result, payload)) :
    shownResult (E.redactSessionValue payload) =
      (some (E.redactSessionText (E.redactSessionText descriptor.toolCallId)),
        if providesContent execution then some (E.redactSessionText result) else none) := by
  cases execution with
  | finished output truncated =>
      cases observed
      have listed : ∀ member ∈ ("output", output) :: (truncated.map fun flag => ("truncated", Json.bool flag)).toList,
          member.1 ∈ providerNames := by
        intro member held
        rw [List.mem_cons] at held
        rcases held with rfl | flag
        · exact show "output" ∈ providerNames by decide
        · obtain ⟨_, _, rfl⟩ := Option.map_eq_some_iff.mp (Option.mem_toList.mp flag)
          exact show "truncated" ∈ providerNames by decide
      obtain ⟨fields, shape, shown⟩ := toolPayload_shown descriptor listed
      rw [shape]
      exact shownResult_delivered keeps (shown.redacted keeps) _ _ _
  | failed error =>
      cases observed
      obtain ⟨fields, shape, shown⟩ := toolPayload_shown descriptor (errorListed error)
      rw [shape]
      exact shownResult_delivered keeps shown _ _ _
  | certified error =>
      cases observed
      rw [shownResult_ofMembers keeps]
      · rfl
      · intro member held
        simp only [List.mem_cons, List.not_mem_nil, or_false] at held
        rcases held with rfl | rfl | rfl
        · exact show "tool_call_id" ∈ providerNames by decide
        · exact show "name" ∈ providerNames by decide
        · exact show "error" ∈ providerNames by decide
  | uncertain => cases observed

end Observation

end Payloads

section Windows

variable {before cards : List TranscriptEntry} {opening : TranscriptEntry}

theorem window_tail {entries : List TranscriptEntry} (absent : newestSummary entries = none) :
    (projectionWindow entries 500).entries = entries.drop (entries.length - 500) := by
  rw [projectionWindow, absent]
  dsimp only
  rw [show max 1 (min 500 500) = 500 from by simp]

theorem window_summary {entries older newer : List TranscriptEntry} {card : TranscriptEntry}
    (found : newestSummary entries = some (older, card, newer)) :
    ∃ floor, floor ≤ card.sequence ∧
      (projectionWindow entries 500).entries = entries.filter fun entry => floor ≤ entry.sequence := by
  refine ⟨(retainFrom card).elim card.sequence fun floor => min floor card.sequence, ?_, ?_⟩
  · cases retainFrom card with
    | none => exact Nat.le_refl _
    | some floor => exact Nat.min_le_right ..
  · rw [projectionWindow, found]

theorem newestSummary_older (quiet : ∀ entry ∈ opening :: cards, entry.kind ≠ .compactSummary)
    {older newer : List TranscriptEntry} {card : TranscriptEntry}
    (found : newestSummary (before ++ opening :: cards) = some (older, card, newer)) :
    card ∈ before ∧ card.kind = .compactSummary := by
  obtain ⟨split, summary, _⟩ := newestSummary_split found
  have held : card ∈ before ++ opening :: cards := split ▸ List.mem_append_right older List.mem_cons_self
  rcases List.mem_append.mp held with old | recent
  · exact ⟨old, summary⟩
  · exact absurd summary (quiet card recent)

/-- From a card on, the window is complete when a summary stands before it or fewer than 500 cards follow. -/
theorem window_from (quiet : ∀ entry ∈ opening :: cards, entry.kind ≠ .compactSummary)
    (climbing : Climbing (before ++ opening :: cards))
    (near : (∃ entry ∈ before, entry.kind = .compactSummary) ∨ cards.length < 500) :
    ∃ older, (projectionWindow (before ++ opening :: cards) 500).entries = older ++ opening :: cards ∧
      ∀ entry ∈ older, entry ∈ before := by
  cases found : newestSummary (before ++ opening :: cards) with
  | none =>
      rcases near with ⟨entry, old, summary⟩ | few
      · exact absurd summary (newestSummary_none.mp found entry (List.mem_append_left _ old))
      · refine ⟨before.drop ((before ++ opening :: cards).length - 500), ?_, fun _ => List.mem_of_mem_drop⟩
        have reach : (before ++ opening :: cards).length - 500 - before.length = 0 := by
          simp only [List.length_append, List.length_cons]
          omega
        rw [window_tail found, List.drop_append, reach, List.drop_zero]
  | some split =>
      obtain ⟨older, card, newer⟩ := split
      obtain ⟨floor, low, window⟩ := window_summary found
      refine ⟨before.filter fun entry => floor ≤ entry.sequence, ?_, fun _ listed => (List.mem_filter.mp listed).1⟩
      rw [window, List.filter_append]
      congr 1
      rw [List.filter_eq_self]
      intro entry recent
      have later := (List.pairwise_append.mp climbing).2.2 card (newestSummary_older quiet found).1 entry recent
      exact decide_eq_true (Nat.le_trans low (Nat.le_of_lt later))

/-- Otherwise the card itself has left the window. -/
theorem window_past (quiet : ∀ entry ∈ opening :: cards, entry.kind ≠ .compactSummary)
    (far : ¬ ((∃ entry ∈ before, entry.kind = .compactSummary) ∨ cards.length < 500)) :
    ∀ entry ∈ (projectionWindow (before ++ opening :: cards) 500).entries, entry ∈ cards := by
  rw [not_or, not_exists] at far
  intro entry shown
  cases found : newestSummary (before ++ opening :: cards) with
  | none =>
      obtain ⟨extra, reach⟩ : ∃ extra, (before ++ opening :: cards).length - 500 =
          (before ++ [opening]).length + extra := by
        refine ⟨cards.length - 500, ?_⟩
        have many := far.2
        simp only [List.length_append, List.length_cons, List.length_nil]
        omega
      have split : before ++ opening :: cards = (before ++ [opening]) ++ cards := by
        rw [List.append_assoc, List.singleton_append]
      rw [window_tail found, reach, split, List.drop_append,
        List.drop_of_length_le (Nat.le_add_right _ extra), List.nil_append] at shown
      exact List.mem_of_mem_drop shown
  | some split => exact absurd (newestSummary_older quiet found) (far.1 split.2.1)

end Windows

section Lookups

variable {entries older newer : List TranscriptEntry} {entry : TranscriptEntry} {toolCallId : String}

/-- The calls an assistant card holds for the continuation. -/
def roundCalls (entry : TranscriptEntry) : Option (List ToolCall) :=
  (entry.payload.bind (Json.get? "tool_calls")).bind toolCallsFromValue

theorem toolRoundForCall_quiet (quiet : ∀ entry ∈ entries, entry.kind ≠ .assistant) :
    toolRoundForCall entries toolCallId = none := by
  have empty : (entries.reverse.filter fun entry => entry.kind = .assistant) = [] := by
    rw [List.filter_eq_nil_iff]
    intro entry listed
    simpa using quiet entry (List.mem_reverse.mp listed)
  rw [toolRoundForCall, empty]
  rfl

/-- The newest assistant card answers when it has the call. -/
theorem toolRoundForCall_newest (assistant : entry.kind = .assistant)
    (quiet : ∀ later ∈ newer, later.kind ≠ .assistant) {calls : List ToolCall} {ordinal : Nat}
    (held : roundCalls entry = some calls)
    (found : calls.findIdx? (fun call => call.id = toolCallId) = some ordinal) :
    toolRoundForCall (older ++ entry :: newer) toolCallId = some (entry.sequence, calls, ordinal) := by
  have newest : ((older ++ entry :: newer).reverse.filter fun entry => entry.kind = .assistant) =
      entry :: older.reverse.filter fun entry => entry.kind = .assistant := by
    rw [List.reverse_append, List.reverse_cons, List.append_assoc, List.filter_append]
    have empty : (newer.reverse.filter fun entry => entry.kind = .assistant) = [] := by
      rw [List.filter_eq_nil_iff]
      intro later listed
      simpa using quiet later (List.mem_reverse.mp listed)
    rw [empty, List.nil_append, List.singleton_append, List.filter_cons, if_pos (by simpa using assistant)]
  rw [roundCalls] at held
  rw [toolRoundForCall, newest, List.findSome?_cons, held, Option.bind_some, found]
  rfl

/-- The newest result decides for its own id. -/
theorem effectProviderResult_newest (result : entry.kind = .toolResult) (named : resultCallId entry = some toolCallId) :
    effectProviderResult (entries ++ [entry]) toolCallId =
      (entry.payload.bind (Json.get? "provider_content")).bind Json.asStr := by
  rw [effectProviderResult, List.reverse_append, List.reverse_singleton, List.singleton_append, List.find?_cons,
    show (entry.kind = .toolResult && decide (resultCallId entry = some toolCallId)) = true by simp [result, named]]
  rfl

theorem effectProviderResult_absent
    (absent : ∀ entry ∈ entries, entry.kind = .toolResult → resultCallId entry ≠ some toolCallId) :
    effectProviderResult entries toolCallId = none := by
  have missing : (entries.reverse.find? fun entry =>
      entry.kind = .toolResult && decide (resultCallId entry = some toolCallId)) = none := by
    rw [List.find?_eq_none]
    intro entry listed both
    rw [Bool.and_eq_true, decide_eq_true_iff, decide_eq_true_iff] at both
    exact absent entry (List.mem_reverse.mp listed) both.1 both.2
  rw [effectProviderResult, missing]
  rfl

end Lookups

end LatteCode.Headless
