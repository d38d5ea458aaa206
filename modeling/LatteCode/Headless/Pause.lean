import LatteCode.Headless.Observation
/- A permission pause of a tool batch: when what is handed over is what the provider asked for. -/

namespace LatteCode.Headless
open Outcome Storage

/-- Every commit of the turn extends the transcript, unless the engine refuses its source key. -/
def Conversation.journal (turn : LinkedTurn) (accepts : String → Bool) : Journal Conversation where
  commit conversation sourceKey card :=
    if accepts sourceKey then .ok (conversation.append turn card) else .error .leaseLost
  window := Conversation.window
  sequence := Conversation.lastSeq

section Conditions

variable (E : Redactor) (host : Host) (turn : LinkedTurn) (accepts : String → Bool)

/-- The execution is certain and its observation is accepted. -/
def Observed (descriptor : SessionEffectDescriptor) (ordinal : Nat) : Prop :=
  ∃ found, observation E host descriptor (host.execute ordinal descriptor.call) = some found ∧
    accepts (effectKey turn.turnId (E.redactSessionText descriptor.effectId) found.1) = true

/-- What carries the batch past an allowed call. -/
structure AllowedCarriesOn (roundSequence ordinal : Nat) (call : ToolCall) : Prop where
  prepared : accepts (prepareKey turn.turnId call ordinal) = true
  started : accepts (startKey turn.turnId call ordinal) = true
  observed : Observed E host turn accepts (descriptorOf turn.turnId roundSequence ordinal call) ordinal
  delivered : providesContent (host.execute ordinal call) = true
  kept : E.redactSessionText call.id = call.id

/-- The cards between the assistant card and the preparation of the next call. -/
def cardsOf (before : List ToolCall) : Nat :=
  (before.mapIdx fun ordinal call => match host.policy ordinal call with
    | .allow => 3
    | .ask => 4).sum

/-- What carries the batch past an asked call, once it is approved. -/
structure AskedCarriesOn (transcript : List TranscriptEntry) (before : List ToolCall) (roundSequence : Nat)
    (call : ToolCall) : Prop where
  prepared : accepts (prepareKey turn.turnId call before.length) = true
  allowed : accepts (permissionKey turn.turnId
    (descriptorOf turn.turnId roundSequence before.length call).effectId) = true
  started : accepts (effectKey turn.turnId
    (descriptorOf turn.turnId roundSequence before.length call).effectId "start") = true
  observed : Observed E host turn accepts (descriptorOf turn.turnId roundSequence before.length call) before.length
  rebuilt : host.rebuilds before.length = true
  kept : E.redactSessionText (descriptorOf turn.turnId roundSequence before.length call).effectId =
    (descriptorOf turn.turnId roundSequence before.length call).effectId
  inWindow : (∃ entry ∈ transcript, entry.kind = .compactSummary) ∨ cardsOf host before + 2 < 500

/-- The call between `before` and `after` does not end the batch, and a pause at it changes nothing after it. -/
def CarriesOn (transcript : List TranscriptEntry) (roundSequence : Nat) (before : List ToolCall) (call : ToolCall)
    (after : List ToolCall) : Prop :=
  match host.policy before.length call with
  | .allow => AllowedCarriesOn E host turn accepts roundSequence before.length call
  | .ask => AskedCarriesOn E host turn accepts transcript before roundSequence call ∧
      ∀ later ∈ after, later.redacted E = later

end Conditions

section Playing

variable {E : Redactor} {host : Host} {turn : LinkedTurn} {accepts : String → Bool}
  {transcript : Conversation} {message : Option String} {calls : List ToolCall} {firstId : String}
  {conversation : Conversation} {size : Nat}

/-- Redacted result ids are redacted already. -/
def SettledIds (E : Redactor) (entry : TranscriptEntry) : Prop :=
  entry.kind = .toolResult → ∀ id, resultCallId entry = some id → E.redactSessionText id = id

/-- The transcript with the card of the round and `size` cards of its batch. -/
def Played (E : Redactor) (turn : LinkedTurn) (transcript : Conversation) (message : Option String)
    (calls : List ToolCall) (firstId : String) (size : Nat) (conversation : Conversation) : Prop :=
  ∃ cards, conversation.entries = transcript.entries ++
      turn.entry (transcript.lastSeq + 1) (roundCard E turn.turnId message calls firstId) :: cards ∧
    cards.length = size ∧ ∀ entry ∈ cards, entry.kind ≠ .assistant ∧ entry.kind ≠ .compactSummary ∧ SettledIds E entry

theorem Played.append (played : Played E turn transcript message calls firstId size conversation) {card : Card}
    (assistant : card.kind ≠ .assistant) (summary : card.kind ≠ .compactSummary)
    (settled : SettledIds E (turn.entry (conversation.lastSeq + 1) card)) :
    Played E turn transcript message calls firstId (size + 1) (conversation.append turn card) := by
  obtain ⟨cards, entries, count, kinds⟩ := played
  refine ⟨cards ++ [turn.entry (conversation.lastSeq + 1) card], ?_, ?_, ?_⟩
  · rw [Conversation.entries_append, entries, List.append_assoc, List.cons_append]
  · rw [List.length_append, count, List.length_singleton]
  · intro entry held
    rw [List.mem_append, List.mem_singleton] at held
    rcases held with old | rfl
    · exact kinds entry old
    · exact ⟨assistant, summary, settled⟩

/-- A card that is no result says nothing about results. -/
theorem settledIds_other {sequence : Nat} {card : Card} (other : card.kind ≠ .toolResult) :
    SettledIds E (turn.entry sequence card) := fun result => absurd result other

variable {descriptor : SessionEffectDescriptor} {ordinal : Nat}

theorem observedCard_settled (keeps : KeepsIds E) (settles : E.redactSessionText
      (E.redactSessionText descriptor.toolCallId) = E.redactSessionText descriptor.toolCallId)
    {execution : Execution} {found : String × String × Json}
    (observed : observation E host descriptor execution = some found) (turn : LinkedTurn) (sequence : Nat)
    (sourceKey : String) :
    resultCallId (turn.entry sequence (observedCard E found.2.1 found.2.2 sourceKey)) =
      some (E.redactSessionText descriptor.toolCallId) ∧
    SettledIds E (turn.entry sequence (observedCard E found.2.1 found.2.2 sourceKey)) := by
  have shown := congrArg Prod.fst (observation_shown host descriptor keeps observed)
  have named : resultCallId (turn.entry sequence (observedCard E found.2.1 found.2.2 sourceKey)) =
      some (E.redactSessionText descriptor.toolCallId) := shown.trans
        (congrArg some settles)
  refine ⟨named, fun _ id held => ?_⟩
  rw [named] at held
  exact Option.some.inj held ▸ settles

theorem commit_ok {sourceKey : String} (accepted : accepts sourceKey = true) (state : Conversation) (card : Card) :
    commitCard (Conversation.journal turn accepts) state sourceKey card = .ok (state.append turn card) :=
  congrArg (Except.mapError _) (if_pos accepted)

theorem commit_error {sourceKey : String} (refused : ¬ accepts sourceKey = true) (state : Conversation) (card : Card) :
    commitCard (Conversation.journal turn accepts) state sourceKey card = .error (.refused sourceKey .leaseLost) :=
  congrArg (Except.mapError _) (if_neg refused)

theorem executeAndObserve_ok (observed : Observed E host turn accepts descriptor ordinal)
    (state : Conversation) :
    ∃ found sourceKey, observation E host descriptor (host.execute ordinal descriptor.call) = some found ∧
      executeAndObserve E host (Conversation.journal turn accepts) turn.turnId state descriptor ordinal =
        .ok (found.2.1, state.append turn (observedCard E found.2.1 found.2.2 sourceKey)) := by
  obtain ⟨found, held, accepted⟩ := observed
  refine ⟨found, effectKey turn.turnId (E.redactSessionText descriptor.effectId) found.1, held, ?_⟩
  simp only [executeAndObserve, held, require, bind, Except.bind, commit_ok accepted]

theorem executeAndObserve_error (lost : ¬ Observed E host turn accepts descriptor ordinal) (state : Conversation) :
    ∃ reason, executeAndObserve E host (Conversation.journal turn accepts) turn.turnId state descriptor ordinal =
      .error reason := by
  cases held : observation E host descriptor (host.execute ordinal descriptor.call) with
  | none =>
      refine ⟨.uncertain, ?_⟩
      rw [executeAndObserve, held]
      rfl
  | some found =>
      have refused := fun accepted => lost ⟨found, held, accepted⟩
      refine ⟨.refused (effectKey turn.turnId (E.redactSessionText descriptor.effectId) found.1) .leaseLost, ?_⟩
      simp only [executeAndObserve, held, require, bind, Except.bind, commit_error refused]

/-- The result that the straight path reads back right after an observation. -/
theorem delivered_result (keeps : KeepsIds E) (settles : E.redactSessionText
      (E.redactSessionText descriptor.toolCallId) = E.redactSessionText descriptor.toolCallId)
    (stored : ∀ entry ∈ transcript.entries, SettledIds E entry)
    (played : Played E turn transcript message calls firstId size conversation)
    {execution : Execution} {found : String × String × Json}
    (observed : observation E host descriptor execution = some found) (sourceKey : String) :
    effectProviderResult (conversation.append turn (observedCard E found.2.1 found.2.2 sourceKey)).window
        descriptor.toolCallId =
      if E.redactSessionText descriptor.toolCallId = descriptor.toolCallId ∧ providesContent execution = true then
        some (E.redactSessionText found.2.1)
      else none := by
  obtain ⟨cards, entries, _, kinds⟩ := played
  obtain ⟨named, settled⟩ := observedCard_settled keeps settles observed turn (conversation.lastSeq + 1) sourceKey
  have climbing := (conversation.append turn (observedCard E found.2.1 found.2.2 sourceKey)).climbing
  rw [Conversation.entries_append] at climbing
  obtain ⟨older, window, seen⟩ := window_from (by
    intro entry held
    rw [List.mem_singleton.mp held]
    exact fun same => nomatch same) climbing (.inr (by decide))
  rw [Conversation.window, Conversation.entries_append, window]
  have quiet : ∀ entry ∈ older, SettledIds E entry := by
    intro entry held
    have listed := seen entry held
    rw [entries, List.mem_append, List.mem_cons] at listed
    rcases listed with old | rfl | recent
    · exact stored entry old
    · exact settledIds_other fun same => nomatch same
    · exact (kinds entry recent).2.2
  split
  case isTrue both =>
    rw [effectProviderResult_newest rfl (named.trans (congrArg some both.1))]
    exact (congrArg Prod.snd (observation_shown host descriptor keeps observed)).trans (if_pos both.2)
  case isFalse missing =>
    by_cases kept : E.redactSessionText descriptor.toolCallId = descriptor.toolCallId
    · rw [effectProviderResult_newest rfl (named.trans (congrArg some kept))]
      exact (congrArg Prod.snd (observation_shown host descriptor keeps observed)).trans
        (if_neg fun provided => missing ⟨kept, provided⟩)
    · apply effectProviderResult_absent
      intro entry held result same
      apply kept
      rw [List.mem_append, List.mem_singleton] at held
      rcases held with old | rfl
      · exact quiet entry old result _ same
      · exact settled result _ same

variable {roundSequence : Nat} {call : ToolCall} {rest hand : List ToolCall}

/-- A card that is neither message nor result only counts. -/
theorem Played.append_plain (played : Played E turn transcript message calls firstId size conversation) {card : Card}
    (kind : card.kind = .toolCall ∨ card.kind = .system) :
    Played E turn transcript message calls firstId (size + 1) (conversation.append turn card) := by
  apply played.append
  · rcases kind with kind | kind <;> rw [kind] <;> decide
  · rcases kind with kind | kind <;> rw [kind] <;> decide
  · apply settledIds_other
    rcases kind with kind | kind <;> rw [kind] <;> decide

theorem Played.append_result (keeps : KeepsIds E)
    (played : Played E turn transcript message calls firstId size conversation)
    (settles : E.redactSessionText (E.redactSessionText descriptor.toolCallId) =
      E.redactSessionText descriptor.toolCallId) {execution : Execution} {found : String × String × Json}
    (observed : observation E host descriptor execution = some found) (sourceKey : String) :
    Played E turn transcript message calls firstId (size + 1)
      (conversation.append turn (observedCard E found.2.1 found.2.2 sourceKey)) := by
  apply played.append
  · exact fun same => nomatch same
  · exact fun same => nomatch same
  · exact (observedCard_settled keeps settles observed turn _ sourceKey).2

/-- The transcript of an allowed call once it has started. -/
def begun (E : Redactor) (host : Host) (turn : LinkedTurn) (conversation : Conversation) (roundSequence ordinal : Nat)
    (call : ToolCall) : Conversation :=
  let descriptor := descriptorOf turn.turnId roundSequence ordinal call
  (conversation.append turn (preparedCard E host descriptor (prepareKey turn.turnId call ordinal))).append turn
    (startedCard E descriptor.effectId (startKey turn.turnId call ordinal))

theorem Played.begun (played : Played E turn transcript message calls firstId size conversation) (host : Host)
    (roundSequence ordinal : Nat) (call : ToolCall) :
    Played E turn transcript message calls firstId (size + 2)
      (begun E host turn conversation roundSequence ordinal call) :=
  (played.append_plain (.inl rfl)).append_plain (.inr rfl)

/-- An allowed call, after its preparation and its start. -/
theorem handOver_allowed (policy : host.policy ordinal call = .allow)
    (prepared : accepts (prepareKey turn.turnId call ordinal) = true)
    (started : accepts (startKey turn.turnId call ordinal) = true) :
    handOver E host (Conversation.journal turn accepts) turn.turnId
        ⟨conversation, roundSequence, ordinal, hand⟩ call rest = (do
      let (result, observed) ← executeAndObserve E host (Conversation.journal turn accepts) turn.turnId
        (begun E host turn conversation roundSequence ordinal call)
        (descriptorOf turn.turnId roundSequence ordinal call) ordinal
      let content ← require (effectProviderResult observed.window call.id) .missingResult
      .ok (⟨descriptorOf turn.turnId roundSequence ordinal call, some result, some content⟩,
        ⟨observed, roundSequence, ordinal + 1, rest⟩)) := by
  simp only [handOver, commit_ok prepared, policy, runAllowed, bind, Except.bind, commit_ok started]
  rfl

theorem handOver_allowed_ok (keeps : KeepsIds E) (valid : validToolCallId call.id = true)
    (stored : ∀ entry ∈ transcript.entries, SettledIds E entry)
    (played : Played E turn transcript message calls firstId size conversation)
    (policy : host.policy ordinal call = .allow)
    (carries : AllowedCarriesOn E host turn accepts roundSequence ordinal call) :
    ∃ result content state, handOver E host (Conversation.journal turn accepts) turn.turnId
        ⟨conversation, roundSequence, ordinal, hand⟩ call rest =
          .ok (⟨descriptorOf turn.turnId roundSequence ordinal call, result, content⟩,
            ⟨state, roundSequence, ordinal + 1, rest⟩) ∧
      Played E turn transcript message calls firstId (size + 3) state := by
  obtain ⟨found, sourceKey, held, run⟩ := executeAndObserve_ok carries.observed
    (begun E host turn conversation roundSequence ordinal call)
  have result : effectProviderResult ((begun E host turn conversation roundSequence ordinal call).append turn
      (observedCard E found.2.1 found.2.2 sourceKey)).window call.id = _ :=
    delivered_result keeps (keeps.idempotent _ valid) stored (played.begun host roundSequence ordinal call) held sourceKey
  rw [if_pos ⟨carries.kept, carries.delivered⟩] at result
  refine ⟨some found.2.1, some (E.redactSessionText found.2.1), _, ?_,
    (played.begun host roundSequence ordinal call).append_result keeps (keeps.idempotent _ valid) held sourceKey⟩
  rw [handOver_allowed policy carries.prepared carries.started, run]
  simp only [bind, Except.bind, result, require]

theorem handOver_allowed_error (keeps : KeepsIds E) (valid : validToolCallId call.id = true)
    (stored : ∀ entry ∈ transcript.entries, SettledIds E entry)
    (played : Played E turn transcript message calls firstId size conversation)
    (policy : host.policy ordinal call = .allow)
    (ends : ¬ AllowedCarriesOn E host turn accepts roundSequence ordinal call) :
    ∃ reason, handOver E host (Conversation.journal turn accepts) turn.turnId
        ⟨conversation, roundSequence, ordinal, hand⟩ call rest = .error reason := by
  by_cases prepared : accepts (prepareKey turn.turnId call ordinal) = true
  case neg =>
    refine ⟨.refused (prepareKey turn.turnId call ordinal) .leaseLost, ?_⟩
    simp only [handOver, commit_error prepared, bind, Except.bind]
  by_cases started : accepts (startKey turn.turnId call ordinal) = true
  case neg =>
    refine ⟨.refused (startKey turn.turnId call ordinal) .leaseLost, ?_⟩
    simp only [handOver, commit_ok prepared, policy, runAllowed, bind, Except.bind, commit_error started]
  rw [handOver_allowed policy prepared started]
  by_cases observed : Observed E host turn accepts (descriptorOf turn.turnId roundSequence ordinal call) ordinal
  case neg =>
    obtain ⟨reason, lost⟩ := executeAndObserve_error observed (begun E host turn conversation roundSequence ordinal call)
    refine ⟨reason, ?_⟩
    rw [lost]
    rfl
  obtain ⟨found, sourceKey, held, run⟩ := executeAndObserve_ok observed
    (begun E host turn conversation roundSequence ordinal call)
  have result : effectProviderResult ((begun E host turn conversation roundSequence ordinal call).append turn
      (observedCard E found.2.1 found.2.2 sourceKey)).window call.id = _ :=
    delivered_result keeps (keeps.idempotent _ valid) stored (played.begun host roundSequence ordinal call) held sourceKey
  rw [if_neg fun both => ends ⟨prepared, started, observed, both.2, both.1⟩] at result
  refine ⟨.missingResult, ?_⟩
  rw [run]
  simp only [bind, Except.bind, result, require]

variable {before after : List ToolCall}

theorem findIdx?_place {toolCallId : String} (split : calls = before ++ call :: after)
    (earlier : ∀ other ∈ before, E.redactSessionText other.id ≠ toolCallId)
    (here : E.redactSessionText call.id = toolCallId) :
    (calls.map (ToolCall.redacted E)).findIdx? (fun other => other.id = toolCallId) = some before.length := by
  have missed : (before.map (ToolCall.redacted E)).findIdx? (fun other => other.id = toolCallId) = none := by
    rw [List.findIdx?_eq_none_iff]
    intro other held
    obtain ⟨original, listed, rfl⟩ := List.mem_map.mp held
    rw [decide_eq_false_iff_not]
    exact earlier original listed
  have hit : decide ((call.redacted E).id = toolCallId) = true := decide_eq_true here
  rw [split, List.map_append, List.findIdx?_append, missed, List.map_cons, List.findIdx?_cons, hit]
  simp

/-- Redaction tells the id of a call that it leaves alone from the ids before it. -/
theorem findIdx?_redacted (keeps : KeepsIds E) (split : calls = before ++ call :: after)
    (valid : ∀ call ∈ calls, validToolCallId call.id = true) (distinct : (calls.map ToolCall.id).Nodup)
    (kept : E.redactSessionText call.id = call.id) :
    (calls.map (ToolCall.redacted E)).findIdx? (fun other => other.id = E.redactSessionText call.id) =
      some before.length := by
  refine findIdx?_place split ?_ rfl
  intro other held same
  have listed : other ∈ calls := split ▸ List.mem_append_left _ held
  have here : call ∈ calls := split ▸ List.mem_append_right _ List.mem_cons_self
  rw [kept] at same
  have fixed := keeps.rewritten other.id (valid other listed) (same ▸ valid call here)
  rw [split, List.map_append, List.nodup_append] at distinct
  exact distinct.2.2 other.id (List.mem_map_of_mem held) call.id (List.mem_map_of_mem List.mem_cons_self)
    (fixed.symm.trans same)

theorem round_quiet (opening : TranscriptEntry) (assistant : opening.kind = .assistant) {cards : List TranscriptEntry}
    (kinds : ∀ entry ∈ cards, entry.kind ≠ .compactSummary) :
    ∀ entry ∈ opening :: cards, entry.kind ≠ .compactSummary := by
  intro entry held
  rw [List.mem_cons] at held
  rcases held with rfl | recent
  · rw [assistant]
    decide
  · exact kinds entry recent

/-- At an approval the continuation finds the round as long as its card is in the window. -/
theorem toolRoundForCall_played (keeps : KeepsIds E)
    (played : Played E turn transcript message calls firstId size conversation)
    {toolCallId : String} {ordinal : Nat}
    (found : (calls.map (ToolCall.redacted E)).findIdx? (fun other => other.id = toolCallId) = some ordinal)
    (near : (∃ entry ∈ transcript.entries, entry.kind = .compactSummary) ∨ size < 500) :
    toolRoundForCall conversation.window toolCallId =
      some (transcript.lastSeq + 1, calls.map (ToolCall.redacted E), ordinal) := by
  obtain ⟨cards, entries, count, kinds⟩ := played
  have quiet := round_quiet (turn.entry (transcript.lastSeq + 1) (roundCard E turn.turnId message calls firstId)) rfl
    fun entry held => (kinds entry held).2.1
  obtain ⟨older, window, _⟩ := window_from quiet (entries ▸ conversation.climbing) (count ▸ near)
  rw [Conversation.window, entries, window]
  exact toolRoundForCall_newest rfl (fun later held => (kinds later held).1)
    (roundCard_calls keeps turn.turnId message calls firstId) found

theorem toolRoundForCall_past (played : Played E turn transcript message calls firstId size conversation)
    (far : ¬ ((∃ entry ∈ transcript.entries, entry.kind = .compactSummary) ∨ size < 500)) (toolCallId : String) :
    toolRoundForCall conversation.window toolCallId = none := by
  obtain ⟨cards, entries, count, kinds⟩ := played
  have quiet := round_quiet (turn.entry (transcript.lastSeq + 1) (roundCard E turn.turnId message calls firstId)) rfl
    fun entry held => (kinds entry held).2.1
  apply toolRoundForCall_quiet
  intro entry shown
  rw [Conversation.window, entries] at shown
  exact (kinds entry (window_past quiet (count ▸ far) entry shown)).1

/-- The transcript at the moment an asked call is approved. -/
def approved (E : Redactor) (host : Host) (turn : LinkedTurn) (conversation : Conversation)
    (roundSequence ordinal : Nat) (call : ToolCall) : Conversation :=
  let descriptor := descriptorOf turn.turnId roundSequence ordinal call
  (conversation.append turn (preparedCard E host descriptor (prepareKey turn.turnId call ordinal))).append turn
    (allowedCard (permissionKey turn.turnId descriptor.effectId))

theorem Played.approved (played : Played E turn transcript message calls firstId size conversation) (host : Host)
    (roundSequence ordinal : Nat) (call : ToolCall) :
    Played E turn transcript message calls firstId (size + 2)
      (approved E host turn conversation roundSequence ordinal call) :=
  (played.append_plain (.inl rfl)).append_plain (.inr rfl)

/-- The transcript once the approved call has started. -/
def restarted (E : Redactor) (host : Host) (turn : LinkedTurn) (conversation : Conversation)
    (roundSequence ordinal : Nat) (call : ToolCall) : Conversation :=
  let effectId := (descriptorOf turn.turnId roundSequence ordinal call).effectId
  (approved E host turn conversation roundSequence ordinal call).append turn
    (startedCard E effectId (effectKey turn.turnId effectId "start"))

theorem Played.restarted (played : Played E turn transcript message calls firstId size conversation) (host : Host)
    (roundSequence ordinal : Nat) (call : ToolCall) :
    Played E turn transcript message calls firstId (size + 3)
      (restarted E host turn conversation roundSequence ordinal call) :=
  (played.approved host roundSequence ordinal call).append_plain (.inr rfl)

/-- An asked call with all its commits accepted and its request found. -/
theorem handOver_asked (policy : host.policy ordinal call = .ask)
    (prepared : accepts (prepareKey turn.turnId call ordinal) = true)
    (kept : E.redactSessionText (descriptorOf turn.turnId roundSequence ordinal call).effectId =
      (descriptorOf turn.turnId roundSequence ordinal call).effectId)
    (allowed : accepts (permissionKey turn.turnId
      (descriptorOf turn.turnId roundSequence ordinal call).effectId) = true)
    (started : accepts (effectKey turn.turnId
      (descriptorOf turn.turnId roundSequence ordinal call).effectId "start") = true) :
    handOver E host (Conversation.journal turn accepts) turn.turnId
        ⟨conversation, roundSequence, ordinal, hand⟩ call rest = (do
      let (roundSequence', calls, place) ← require (toolRoundForCall
        (approved E host turn conversation roundSequence ordinal call).window (E.redactSessionText call.id))
        .noContinuation
      let (result, observed) ← executeAndObserve E host (Conversation.journal turn accepts) turn.turnId
        (restarted E host turn conversation roundSequence ordinal call)
        (descriptorOf turn.turnId roundSequence ordinal call) ordinal
      ensure (host.rebuilds ordinal = true) .notRebuilt
      .ok (⟨descriptorOf turn.turnId roundSequence ordinal call, some result, none⟩,
        ⟨observed, roundSequence', place + 1, calls.drop (place + 1)⟩)) := by
  simp only [handOver, commit_ok prepared, policy, resolvePermission, kept, ensure, if_true, commit_ok allowed,
    commit_ok started, bind, Except.bind]
  rfl

theorem handOver_asked_ok (keeps : KeepsIds E) (split : calls = before ++ call :: after)
    (valid : ∀ call ∈ calls, validToolCallId call.id = true) (distinct : (calls.map ToolCall.id).Nodup)
    (played : Played E turn transcript message calls firstId (cardsOf host before) conversation)
    (policy : host.policy before.length call = .ask)
    (carries : AskedCarriesOn E host turn accepts transcript.entries before roundSequence call) :
    ∃ result content state, handOver E host (Conversation.journal turn accepts) turn.turnId
        ⟨conversation, roundSequence, before.length, hand⟩ call rest =
          .ok (⟨descriptorOf turn.turnId roundSequence before.length call, result, content⟩,
            ⟨state, transcript.lastSeq + 1, before.length + 1, after.map (ToolCall.redacted E)⟩) ∧
      Played E turn transcript message calls firstId (cardsOf host before + 4) state := by
  have validCall := valid call (split ▸ List.mem_append_right _ List.mem_cons_self)
  have keptCall := keeps.effectIds _ _ _ call validCall carries.kept
  have resolved := played.approved host roundSequence before.length call
  have round := toolRoundForCall_played keeps resolved
    (findIdx?_redacted keeps split valid distinct keptCall) carries.inWindow
  have left : (calls.map (ToolCall.redacted E)).drop (before.length + 1) = after.map (ToolCall.redacted E) := by
    rw [split, ← List.map_drop, List.drop_append]
    simp
  obtain ⟨found, sourceKey, held, run⟩ := executeAndObserve_ok carries.observed
    (restarted E host turn conversation roundSequence before.length call)
  refine ⟨some found.2.1, none, _, ?_,
    (played.restarted host roundSequence before.length call).append_result keeps
      (keeps.idempotent _ validCall) held sourceKey⟩
  rw [handOver_asked policy carries.prepared carries.kept carries.allowed carries.started, round, run]
  simp only [require, ensure, if_pos carries.rebuilt, bind, Except.bind, left]

theorem handOver_asked_error (keeps : KeepsIds E) (split : calls = before ++ call :: after)
    (valid : ∀ call ∈ calls, validToolCallId call.id = true) (distinct : (calls.map ToolCall.id).Nodup)
    (played : Played E turn transcript message calls firstId (cardsOf host before) conversation)
    (policy : host.policy before.length call = .ask)
    (ends : ¬ AskedCarriesOn E host turn accepts transcript.entries before roundSequence call) :
    ∃ reason, handOver E host (Conversation.journal turn accepts) turn.turnId
        ⟨conversation, roundSequence, before.length, hand⟩ call rest = .error reason := by
  by_cases prepared : accepts (prepareKey turn.turnId call before.length) = true
  case neg =>
    refine ⟨.refused (prepareKey turn.turnId call before.length) .leaseLost, ?_⟩
    simp only [handOver, commit_error prepared, bind, Except.bind]
  by_cases kept : E.redactSessionText (descriptorOf turn.turnId roundSequence before.length call).effectId =
      (descriptorOf turn.turnId roundSequence before.length call).effectId
  case neg =>
    refine ⟨.unknownRequest, ?_⟩
    simp only [handOver, commit_ok prepared, policy, resolvePermission, ensure, if_neg kept, bind, Except.bind]
  by_cases allowed : accepts (permissionKey turn.turnId
      (descriptorOf turn.turnId roundSequence before.length call).effectId) = true
  case neg =>
    refine ⟨.refused (permissionKey turn.turnId
      (descriptorOf turn.turnId roundSequence before.length call).effectId) .leaseLost, ?_⟩
    simp only [handOver, commit_ok prepared, policy, resolvePermission, kept, ensure, if_true, commit_error allowed,
      bind, Except.bind]
  by_cases started : accepts (effectKey turn.turnId
      (descriptorOf turn.turnId roundSequence before.length call).effectId "start") = true
  case neg =>
    refine ⟨.refused (effectKey turn.turnId
      (descriptorOf turn.turnId roundSequence before.length call).effectId "start") .leaseLost, ?_⟩
    simp only [handOver, commit_ok prepared, policy, resolvePermission, kept, ensure, if_true, commit_ok allowed,
      commit_error started, bind, Except.bind]
  rw [handOver_asked policy prepared kept allowed started]
  have resolved := played.approved host roundSequence before.length call
  by_cases near : (∃ entry ∈ transcript.entries, entry.kind = .compactSummary) ∨ cardsOf host before + 2 < 500
  case neg =>
    refine ⟨.noContinuation, ?_⟩
    rw [toolRoundForCall_past resolved near]
    rfl
  have validCall := valid call (split ▸ List.mem_append_right _ List.mem_cons_self)
  have keptCall := keeps.effectIds _ _ _ call validCall kept
  rw [toolRoundForCall_played keeps resolved (findIdx?_redacted keeps split valid distinct keptCall) near]
  by_cases observed : Observed E host turn accepts (descriptorOf turn.turnId roundSequence before.length call)
      before.length
  case neg =>
    obtain ⟨reason, lost⟩ := executeAndObserve_error observed
      (restarted E host turn conversation roundSequence before.length call)
    refine ⟨reason, ?_⟩
    rw [lost]
    rfl
  obtain ⟨found, sourceKey, held, run⟩ := executeAndObserve_ok observed
    (restarted E host turn conversation roundSequence before.length call)
  have broken : ¬ host.rebuilds before.length = true := fun rebuilt =>
    ends ⟨prepared, allowed, started, observed, rebuilt, kept, near⟩
  refine ⟨.notRebuilt, ?_⟩
  rw [run]
  simp only [require, ensure, if_neg broken, bind, Except.bind]

theorem cardsOf_allowed (policy : host.policy before.length call = .allow) :
    cardsOf host (before ++ [call]) = cardsOf host before + 3 := by
  rw [cardsOf, List.mapIdx_concat, List.sum_append, policy]
  rfl

theorem cardsOf_asked (policy : host.policy before.length call = .ask) :
    cardsOf host (before ++ [call]) = cardsOf host before + 4 := by
  rw [cardsOf, List.mapIdx_concat, List.sum_append, policy]
  rfl

end Playing

section Transparency

/-- With every pause approved, exactly these calls are handed over, in order, and the batch is over. -/
def HandsOver {State : Type} (E : Redactor) (host : Host) (J : Journal State) (turnId : TurnId) (batch : Batch State)
    (calls : List ToolCall) : Prop :=
  ∃ fuel, (driveBatch E host J turnId fuel batch).2.over = true ∧
    (driveBatch E host J turnId fuel batch).1.map (fun handed => handed.descriptor.call) = calls

variable {State : Type} {E : Redactor} {host : Host} {J : Journal State} {turnId : TurnId} {state : State}
  {roundSequence ordinal : Nat}

theorem handsOver_nil : HandsOver E host J turnId ⟨state, roundSequence, ordinal, []⟩ [] := ⟨1, rfl, rfl⟩

/-- Whatever becomes of it, the descriptor handed over is made for the call at the head. -/
theorem handOver_descriptor {batch next : Batch State} {call : ToolCall} {rest : List ToolCall} {handed : Handed}
    (goes : handOver E host J turnId batch call rest = .ok (handed, next)) :
    handed.descriptor = descriptorOf turnId batch.roundSequence batch.ordinal call := by
  simp only [handOver, bind_ok] at goes
  obtain ⟨prepared, _, goes⟩ := goes
  cases policy : host.policy batch.ordinal call with
  | allow =>
      simp only [policy, runAllowed, bind_ok] at goes
      obtain ⟨_, _, _, _, _, _, written⟩ := goes
      cases written
      rfl
  | ask =>
      simp only [policy, resolvePermission, bind_ok] at goes
      obtain ⟨_, _, _, _, _, _, _, _, _, _, _, _, written⟩ := goes
      cases written
      rfl

section Head

variable {head call : ToolCall} {hand rest : List ToolCall}

theorem driveBatch_error {reason : Stop} (stuck : handOver E host J turnId
      ⟨state, roundSequence, ordinal, head :: hand⟩ head hand = .error reason) (fuel : Nat) :
    driveBatch E host J turnId (fuel + 1) ⟨state, roundSequence, ordinal, head :: hand⟩ =
      ([⟨descriptorOf turnId roundSequence ordinal head, none, none⟩], .stopped reason) := by
  simp only [driveBatch, stuck]

theorem driveBatch_ok {handed : Handed} {next : Batch State} (goes : handOver E host J turnId
      ⟨state, roundSequence, ordinal, head :: hand⟩ head hand = .ok (handed, next)) (fuel : Nat) :
    driveBatch E host J turnId (fuel + 1) ⟨state, roundSequence, ordinal, head :: hand⟩ =
      (handed :: (driveBatch E host J turnId fuel next).1, (driveBatch E host J turnId fuel next).2) := by
  simp only [driveBatch, goes]

/-- A batch that ends at its head hands over that call only. -/
theorem handsOver_error {reason : Stop} (stuck : handOver E host J turnId
      ⟨state, roundSequence, ordinal, head :: hand⟩ head hand = .error reason) :
    HandsOver E host J turnId ⟨state, roundSequence, ordinal, head :: hand⟩ (call :: rest) ↔
      head = call ∧ rest = [] := by
  constructor
  · rintro ⟨fuel, beyond, same⟩
    cases fuel with
    | zero => cases beyond
    | succ fuel =>
        rw [driveBatch_error stuck, List.map_singleton, descriptorOf_call, List.cons.injEq] at same
        exact ⟨same.1, same.2.symm⟩
  · rintro ⟨rfl, rfl⟩
    refine ⟨1, ?_, ?_⟩
    · rw [driveBatch_error stuck]
      rfl
    · rw [driveBatch_error stuck]
      rfl

/-- A batch that goes on hands over its head and what the next one does. -/
theorem handsOver_ok {handed : Handed} {next : Batch State}
    (goes : handOver E host J turnId ⟨state, roundSequence, ordinal, head :: hand⟩ head hand = .ok (handed, next)) :
    HandsOver E host J turnId ⟨state, roundSequence, ordinal, head :: hand⟩ (call :: rest) ↔
      head = call ∧ HandsOver E host J turnId next rest := by
  have made : handed.descriptor.call = head := congrArg SessionEffectDescriptor.call (handOver_descriptor goes)
  constructor
  · rintro ⟨fuel, beyond, same⟩
    cases fuel with
    | zero => cases beyond
    | succ fuel =>
        rw [driveBatch_ok goes, List.map_cons, made, List.cons.injEq] at same
        rw [driveBatch_ok goes] at beyond
        exact ⟨same.1, fuel, beyond, same.2⟩
  · rintro ⟨rfl, fuel, beyond, same⟩
    refine ⟨fuel + 1, ?_, ?_⟩
    · rw [driveBatch_ok goes]
      exact beyond
    · rw [driveBatch_ok goes, List.map_cons, made, same]

theorem handsOver_head
    (beyond : HandsOver E host J turnId ⟨state, roundSequence, ordinal, head :: hand⟩ (call :: rest)) : head = call := by
  cases goes : handOver E host J turnId ⟨state, roundSequence, ordinal, head :: hand⟩ head hand with
  | error reason => exact ((handsOver_error goes).mp beyond).1
  | ok outcome => exact ((handsOver_ok goes).mp beyond).1

end Head

/-- Every place in a list, from the first on. -/
theorem forall_split_cons {α : Type} {P : List α → α → List α → Prop} {first : α} {rest : List α} :
    (∀ mid x after, first :: rest = mid ++ x :: after → P mid x after) ↔
      P [] first rest ∧ ∀ mid x after, rest = mid ++ x :: after → P (first :: mid) x after := by
  constructor
  · intro every
    exact ⟨every [] first rest rfl, fun mid x after split => every (first :: mid) x after (congrArg _ split)⟩
  · rintro ⟨here, later⟩ mid x after split
    cases mid with
    | nil =>
        cases split
        exact here
    | cons y mid =>
        rw [List.cons_append, List.cons.injEq] at split
        exact split.1 ▸ later mid x after split.2

theorem map_redacted {calls : List ToolCall} :
    calls.map (ToolCall.redacted E) = calls ↔ ∀ call ∈ calls, call.redacted E = call := by
  have whole : calls.map id = calls := List.map_id calls
  constructor
  · intro same
    exact List.map_inj_left.mp (same.trans whole.symm)
  · intro every
    exact (List.map_congr_left every).trans whole

variable {turn : LinkedTurn} {accepts : String → Bool} {transcript : Conversation} {message : Option String}
  {calls : List ToolCall} {firstId : String}

theorem handsOver_iff (accepts : String → Bool) (keeps : KeepsIds E) (valid : ∀ call ∈ calls, validToolCallId call.id = true)
    (distinct : (calls.map ToolCall.id).Nodup) (stored : ∀ entry ∈ transcript.entries, SettledIds E entry)
    (rest : List ToolCall) : ∀ (before hand : List ToolCall) (conversation : Conversation), calls = before ++ rest →
      Played E turn transcript message calls firstId (cardsOf host before) conversation →
      (hand = rest ∨ hand = rest.map (ToolCall.redacted E)) →
      (HandsOver E host (Conversation.journal turn accepts) turn.turnId
          ⟨conversation, transcript.lastSeq + 1, before.length, hand⟩ rest ↔
        hand = rest ∧ ∀ mid call after, rest = mid ++ call :: after → after ≠ [] →
          CarriesOn E host turn accepts transcript.entries (transcript.lastSeq + 1) (before ++ mid) call after) := by
  induction rest with
  | nil =>
      intro before hand conversation _ _ hands
      have empty : hand = [] := by
        rcases hands with rfl | rfl <;> rfl
      subst empty
      constructor
      · intro _
        refine ⟨rfl, fun mid call after split => ?_⟩
        cases mid <;> cases split
      · exact fun _ => handsOver_nil
  | cons call rest ih =>
      intro before hand conversation split played hands
      obtain ⟨head, hand, rfl, tail⟩ : ∃ head tail, hand = head :: tail ∧
          (tail = rest ∨ tail = rest.map (ToolCall.redacted E)) := by
        rcases hands with rfl | rfl
        · exact ⟨call, rest, rfl, .inl rfl⟩
        · exact ⟨call.redacted E, rest.map (ToolCall.redacted E), rfl, .inr rfl⟩
      by_cases same : head = call
      case neg =>
        exact ⟨fun beyond => absurd (handsOver_head beyond) same, fun both => absurd (List.cons.inj both.1).1 same⟩
      subst same
      have validCall := valid head (split ▸ List.mem_append_right _ List.mem_cons_self)
      have longer : calls = (before ++ [head]) ++ rest := by rw [split, List.append_assoc, List.singleton_append]
      have deeper : ∀ hand state,
          Played E turn transcript message calls firstId (cardsOf host (before ++ [head])) state →
          (hand = rest ∨ hand = rest.map (ToolCall.redacted E)) →
          (HandsOver E host (Conversation.journal turn accepts) turn.turnId
              ⟨state, transcript.lastSeq + 1, before.length + 1, hand⟩ rest ↔
            hand = rest ∧ ∀ mid call after, rest = mid ++ call :: after → after ≠ [] →
              CarriesOn E host turn accepts transcript.entries (transcript.lastSeq + 1) (before ++ head :: mid) call
                after) := by
        intro hand state playedNext tail
        have next := ih (before ++ [head]) hand state longer playedNext tail
        simp only [List.append_assoc, List.singleton_append, List.length_append, List.length_singleton] at next
        exact next
      have ended : (∃ reason, handOver E host (Conversation.journal turn accepts) turn.turnId
            ⟨conversation, transcript.lastSeq + 1, before.length, head :: hand⟩ head hand = .error reason) →
          ¬ CarriesOn E host turn accepts transcript.entries (transcript.lastSeq + 1) before head rest →
          (HandsOver E host (Conversation.journal turn accepts) turn.turnId
              ⟨conversation, transcript.lastSeq + 1, before.length, head :: hand⟩ (head :: rest) ↔
            head :: hand = head :: rest ∧ ∀ mid call after, head :: rest = mid ++ call :: after → after ≠ [] →
              CarriesOn E host turn accepts transcript.entries (transcript.lastSeq + 1) (before ++ mid) call after) := by
        rintro ⟨reason, handed⟩ stuck
        rw [handsOver_error handed, forall_split_cons, List.append_nil]
        constructor
        · rintro ⟨_, rfl⟩
          refine ⟨?_, fun more => absurd rfl more, fun mid call after split => ?_⟩
          · rcases tail with rfl | rfl <;> rfl
          · cases mid <;> cases split
        · rintro ⟨_, here, _⟩
          exact ⟨rfl, Classical.byContradiction fun more => stuck (here more)⟩
      cases policy : host.policy before.length head with
      | allow =>
          have chosen : CarriesOn E host turn accepts transcript.entries (transcript.lastSeq + 1) before head rest ↔
              AllowedCarriesOn E host turn accepts (transcript.lastSeq + 1) before.length head := by
            rw [CarriesOn, policy]
          by_cases carries : AllowedCarriesOn E host turn accepts (transcript.lastSeq + 1) before.length head
          case neg =>
            exact ended (handOver_allowed_error keeps validCall stored played policy carries)
              fun here => carries (chosen.mp here)
          obtain ⟨_, _, state, handed, playedNext⟩ := handOver_allowed_ok keeps validCall stored played policy carries
          have next := deeper hand state (cardsOf_allowed policy ▸ playedNext) tail
          rw [handsOver_ok handed, forall_split_cons, List.append_nil]
          constructor
          · rintro ⟨_, beyond⟩
            obtain ⟨same, later⟩ := next.mp beyond
            exact ⟨congrArg _ same, fun _ => chosen.mpr carries, later⟩
          · rintro ⟨same, _, later⟩
            exact ⟨rfl, next.mpr ⟨(List.cons.inj same).2, later⟩⟩
      | ask =>
          have chosen : CarriesOn E host turn accepts transcript.entries (transcript.lastSeq + 1) before head rest ↔
              AskedCarriesOn E host turn accepts transcript.entries before (transcript.lastSeq + 1) head ∧
                ∀ later ∈ rest, later.redacted E = later := by
            rw [CarriesOn, policy]
          by_cases carries : AskedCarriesOn E host turn accepts transcript.entries before (transcript.lastSeq + 1) head
          case neg =>
            exact ended (handOver_asked_error keeps split valid distinct played policy carries)
              fun here => carries (chosen.mp here).1
          obtain ⟨_, _, state, handed, playedNext⟩ := handOver_asked_ok keeps split valid distinct played policy carries
          have next := deeper (rest.map (ToolCall.redacted E)) state (cardsOf_asked policy ▸ playedNext) (.inr rfl)
          rw [handsOver_ok handed, forall_split_cons, List.append_nil]
          constructor
          · rintro ⟨_, beyond⟩
            obtain ⟨fixed, later⟩ := next.mp beyond
            have same : hand = rest := by
              rcases tail with rfl | rfl
              · rfl
              · exact fixed
            exact ⟨congrArg _ same, fun _ => chosen.mpr ⟨carries, map_redacted.mp fixed⟩, later⟩
          · rintro ⟨_, here, later⟩
            refine ⟨rfl, next.mpr ⟨?_, later⟩⟩
            by_cases more : rest = []
            · rw [more, List.map_nil]
            · exact map_redacted.mpr (chosen.mp (here more)).2

/-- The card of the round is the first card after the transcript, and nothing of the batch has run. -/
theorem openRound_ok (host : Host) {first : ToolCall} {later : List ToolCall} {batch : Batch Conversation}
    (opened : openRound E (Conversation.journal turn accepts) turn.turnId transcript message first later = .ok batch) :
    ∃ state, batch = ⟨state, transcript.lastSeq + 1, 0, first :: later⟩ ∧
      Played E turn transcript message (first :: later) first.id (cardsOf host []) state := by
  simp only [openRound, bind_ok, commitCard, mapError_ok, Conversation.journal] at opened
  obtain ⟨state, committed, same⟩ := opened
  split at committed
  case isTrue =>
    cases committed
    cases same
    exact ⟨_, rfl, [], rfl, rfl, fun _ held => absurd held List.not_mem_nil⟩
  case isFalse => cases committed

end Transparency

section Samples

/-- Without secret patterns a provider id passes redaction. -/
theorem plain_id {id : String} (valid : validToolCallId id = true) : plain.redactSessionText id = id := by
  have size : id.utf8ByteSize ≤ 256 := by
    simp only [validToolCallId, Bool.and_eq_true, decide_eq_true_eq] at valid
    exact valid.1.2
  have kept : sanitize .text 0 id.toList = id.toList := by
    apply sanitize_visible (validToolCallId_legible valid).visible
    rw [String.utf8Len_toList, Nat.zero_add]
    exact Nat.le_trans size (by decide)
  show String.ofList (sanitize .text 0 id.toList) = id
  rw [kept, String.ofList_toList]

theorem plain_keepsIds : KeepsIds plain.toRedactor where
  names := by decide +kernel
  idempotent _ valid := congrArg _ (plain_id valid)
  rewritten _ valid _ := plain_id valid
  effectIds _ _ _ _ valid _ := plain_id valid

def sampleLinked : LinkedTurn where
  sessionId := sampleSession
  turnId := sampleTurn
  entryIdAt sequence := ⟨⟨BitVec.ofNat 128 sequence⟩⟩
  committedAt := id

def emptyConversation : Conversation where
  entries := []
  lastSeq := 0
  climbing := .nil
  bounded := fun _ held => nomatch held

theorem emptyConversation_settled (E : Redactor) : ∀ entry ∈ emptyConversation.entries, SettledIds E entry :=
  fun _ held => (List.not_mem_nil held).elim

/-- The first call of a batch asks, the others run. -/
def sampleHost : Host where
  policy ordinal _ := if ordinal = 0 then .ask else .allow
  execute _ _ := .finished .null none
  rebuilds _ := true
  operationDigest _ := sampleDigest
  permissionSummary call := call.name
  render _ := "null"

def sampleJournal : Journal Conversation := Conversation.journal sampleLinked fun _ => true

/-- A command; the sample host asks about it when it comes first. -/
def makeCall : ToolCall := ⟨"call_1", "process", .ofMembers [("program", .string "make")]⟩

/-- A request with a password member. -/
def loginCall : ToolCall := ⟨"call_2", "write_file", .ofMembers [("password", .string "hunter2")]⟩

/-- A command that redaction leaves alone. -/
def listCall : ToolCall := ⟨"call_2", "process", .ofMembers [("program", .string "ls")]⟩

theorem accepted_pair {first second : ToolCall} {knownTools : List String}
    (valid : validToolCallId first.id = true ∧ validToolCallId second.id = true)
    (known : first.name ∈ knownTools ∧ second.name ∈ knownTools) (distinct : first.id ≠ second.id)
    (objects : (∃ fields, first.input = .object fields) ∧ ∃ fields, second.input = .object fields) :
    acceptedCalls knownTools [first, second] := by
  refine ⟨?_, by simpa using distinct⟩
  intro call held
  simp only [List.mem_cons, List.not_mem_nil, or_false] at held
  rcases held with rfl | rfl
  · exact ⟨valid.1, known.1, objects.1⟩
  · exact ⟨valid.2, known.2, objects.2⟩

theorem login_accepted : acceptedCalls ["process", "write_file"] [makeCall, loginCall] :=
  accepted_pair (by decide +kernel) (by decide) (by decide) ⟨⟨_, rfl⟩, _, rfl⟩

end Samples

end LatteCode.Headless
