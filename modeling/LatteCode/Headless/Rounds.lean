import LatteCode.Headless.Ledger
/- The tool rounds of a turn: when no id of an earlier response is in the way of a later one. -/

namespace LatteCode.Headless
open Delimited Outcome Storage Ledger

section Ids

variable (E : Redactor)

/-- An id as a batch commits it: the provider's, or what redaction makes of it. -/
def Presented (id : String) : Prop :=
  ∃ original, validToolCallId original = true ∧ (id = original ∨ id = E.redactSessionText original)

/-- What the secret patterns leave of an id and of an effect id: no colon, and the place of the effect. -/
structure KeepsAddresses : Prop where
  clear : ∀ id, validToolCallId id = true → Clear ':' (E.redactSessionText id)
  effectId : ∀ turnId roundSequence ordinal id, roundSequence < 2 ^ 64 → ordinal < 2 ^ 64 → Presented E id →
    ∃ shown, Clear ':' shown ∧ E.redactSessionText (effectIdOf turnId roundSequence ordinal id) =
      effectIdOf turnId roundSequence ordinal shown

variable {E}

theorem Presented.clear (addresses : KeepsAddresses E) {id : String} (presented : Presented E id) : Clear ':' id := by
  obtain ⟨original, valid, rfl | rfl⟩ := presented
  · exact toolCallId_clear valid
  · exact addresses.clear _ valid

theorem Presented.settles (keeps : KeepsIds E) {id : String} (presented : Presented E id) :
    E.redactSessionText (E.redactSessionText id) = E.redactSessionText id := by
  obtain ⟨original, valid, rfl | rfl⟩ := presented
  · exact keeps.idempotent _ valid
  · exact congrArg _ (keeps.idempotent _ valid)

/-- An effect id that passes redaction holds a call id that does. -/
theorem Presented.kept (keeps : KeepsIds E) {turnId : TurnId} {roundSequence ordinal : Nat} {call : ToolCall}
    (presented : Presented E call.id) (effect : E.redactSessionText (descriptorOf turnId roundSequence ordinal
      call).effectId = (descriptorOf turnId roundSequence ordinal call).effectId) :
    E.redactSessionText call.id = call.id := by
  obtain ⟨original, valid, same | same⟩ := presented
  · exact keeps.effectIds turnId roundSequence ordinal call (same ▸ valid) effect
  · rw [same]
    exact keeps.idempotent original valid

end Ids

section Spending

/-- The keys that earlier responses with these ids can have spent, and the calls of this one before a position. -/
def Spent (past : List (List String)) (roundSequence : Nat) (ids : List String) (position : Nat) : TurnKey → Prop
  | .round id => (∃ earlier ∈ past, earlier[0]? = some id.val) ∨ ids[0]? = some id.val
  | .called ordinal id _ =>
      (∃ earlier ∈ past, earlier[ordinal]? = some id.val) ∨ (ordinal < position ∧ ids[ordinal]? = some id.val)
  | .effect sequence ordinal _ _ | .allowed sequence ordinal _ =>
      sequence < roundSequence ∨ (sequence = roundSequence ∧ ordinal < position)

/-- The keys of one call at its place. -/
def At (roundSequence ordinal : Nat) (id : String) : TurnKey → Prop
  | .round _ => False
  | .called place name _ => place = ordinal ∧ name.val = id
  | .effect sequence place _ _ | .allowed sequence place _ => sequence = roundSequence ∧ place = ordinal

/-- No earlier response has this id at this place. -/
def Apart (past : List (List String)) (ids : List String) : Prop :=
  ∀ earlier ∈ past, ∀ (ordinal : Nat) (id : String), ids[ordinal]? = some id → earlier[ordinal]? ≠ some id

variable {past : List (List String)} {roundSequence position : Nat} {ids : List String} {id : String}

theorem Spent.unspent (apart : Apart past ids) (here : ids[position]? = some id) {key : TurnKey}
    (named : At roundSequence position id key) : ¬ Spent past roundSequence ids position key := by
  cases key with
  | round => exact named.elim
  | called ordinal name =>
      obtain ⟨rfl, rfl⟩ := named
      rintro (⟨earlier, held, same⟩ | ⟨before, _⟩)
      · exact apart earlier held ordinal name.val here same
      · exact Nat.lt_irrefl _ before
  | effect | allowed =>
      obtain ⟨rfl, rfl⟩ := named
      rintro (before | ⟨_, before⟩)
      · exact Nat.lt_irrefl _ before
      · exact Nat.lt_irrefl _ before

theorem Spent.next (here : ids[position]? = some id) {key : TurnKey}
    (held : At roundSequence position id key ∨ Spent past roundSequence ids position key) :
    Spent past roundSequence ids (position + 1) key := by
  cases key with
  | round =>
      rcases held with named | spent
      · exact named.elim
      · exact spent
  | called ordinal name =>
      rcases held with ⟨rfl, rfl⟩ | old | ⟨before, same⟩
      · exact .inr ⟨Nat.lt_succ_self _, here⟩
      · exact .inl old
      · exact .inr ⟨Nat.lt_succ_of_lt before, same⟩
  | effect | allowed =>
      rcases held with ⟨rfl, rfl⟩ | old | ⟨same, before⟩
      · exact .inr ⟨rfl, Nat.lt_succ_self _⟩
      · exact .inl old
      · exact .inr ⟨same, Nat.lt_succ_of_lt before⟩

/-- The round card of a response spends its own key. -/
theorem Spent.opened {first : Field} (head : ids[0]? = some first.val) {key : TurnKey}
    (held : key = .round first ∨ Spent past roundSequence [] 0 key) : Spent past roundSequence ids 0 key := by
  rcases held with rfl | spent
  · exact .inr head
  · cases key with
    | round =>
        rcases spent with old | none
        · exact .inl old
        · cases none
    | called =>
        rcases spent with old | ⟨none, _⟩
        · exact .inl old
        · cases none
    | effect | allowed => exact spent

theorem Spent.closed {later : Nat} (order : roundSequence < later) {key : TurnKey}
    (spent : Spent past roundSequence ids position key) : Spent (past ++ [ids]) later [] 0 key := by
  cases key with
  | round =>
      left
      rcases spent with ⟨earlier, held, same⟩ | same
      · exact ⟨earlier, List.mem_append_left _ held, same⟩
      · exact ⟨ids, List.mem_append_right _ List.mem_cons_self, same⟩
  | called =>
      left
      rcases spent with ⟨earlier, held, same⟩ | ⟨_, same⟩
      · exact ⟨earlier, List.mem_append_left _ held, same⟩
      · exact ⟨ids, List.mem_append_right _ List.mem_cons_self, same⟩
  | effect | allowed =>
      rcases spent with before | ⟨rfl, _⟩
      · exact .inl (Nat.lt_trans before order)
      · exact .inl order

theorem Spent.later {sequence : Nat} (order : roundSequence ≤ sequence) {key : TurnKey}
    (spent : Spent past roundSequence [] 0 key) : Spent past sequence [] 0 key := by
  cases key with
  | round | called => exact spent
  | effect | allowed =>
      rcases spent with before | ⟨_, none⟩
      · exact .inl (Nat.lt_of_lt_of_le before order)
      · cases none

end Spending

section Calls

/-- Neither a spent key nor a result that should be there ends the batch. -/
def Harmless (unprovided : Prop) : Stop → Prop
  | .refused _ error => error ≠ .sessionCommandReplayMismatch
  | .missingResult => unprovided
  | _ => True

/-- The stored result of this call cannot be read back under its id: the id is secret-like, or nothing is provided. -/
def Unprovided (E : Redactor) (host : Host) (ordinal : Nat) (call : ToolCall) : Prop :=
  E.redactSessionText call.id ≠ call.id ∨ providesContent (host.execute ordinal call) = false

/-- The content pushed for a call is the result observed for its own effect. -/
def Handed.Own (E : Redactor) (host : Host) (ordinal : Nat) (handed : Handed) : Prop :=
  ∀ content, handed.content = some content → ∃ found,
    observation E host handed.descriptor (host.execute ordinal handed.descriptor.call) = some found ∧
      content = E.redactSessionText found.2.1

/-- Inside a call: what the ledger holds besides the keys spent before it is of this call. -/
structure Within (turn : LinkedTurn) (past : List (List String)) (roundSequence : Nat) (ids : List String)
    (position : Nat) (id : String) (ledger : Ledger) (done : TurnKey → Prop) : Prop where
  spends : SpendsOnly turn ledger fun key => done key ∨ Spent past roundSequence ids position key
  here : ids[position]? = some id
  named : ∀ key, done key → At roundSequence position id key

variable {E : Redactor} {host : Host} {checks : Checks} {turn : LinkedTurn} {past : List (List String)}
  {roundSequence position : Nat} {ids : List String} {id : String} {ledger : Ledger} {done : TurnKey → Prop}
  {key : TurnKey} {sourceKey : String}

theorem Within.commit (within : Within turn past roundSequence ids position id ledger done) (apart : Apart past ids)
    (checks : Checks) (named : At roundSequence position id key) (new : ¬ done key)
    (text : sourceKey = key.text turn.turnId) (card : Card) :
    (∃ error, commitCard (journal checks turn) ledger sourceKey card = .error (.refused sourceKey error) ∧
        error ≠ .sessionCommandReplayMismatch) ∨
      (commitCard (journal checks turn) ledger sourceKey card = .ok (ledger.record turn sourceKey card) ∧
        Within turn past roundSequence ids position id (ledger.record turn sourceKey card)
          fun other => other = key ∨ done other) := by
  have unspent : ¬ (done key ∨ Spent past roundSequence ids position key) := by
    rintro (spent | spent)
    · exact new spent
    · exact Spent.unspent apart within.here named spent
  rcases commitCard_cases checks turn card (within.spends.fresh unspent text) with refused | ⟨recorded, _⟩
  · exact .inl refused
  · refine .inr ⟨recorded, ?_, within.here, ?_⟩
    · exact (within.spends.record text card).imp fun other spent => or_assoc.mpr spent
    · rintro other (rfl | held)
      · exact named
      · exact within.named other held

theorem Within.leave (within : Within turn past roundSequence ids position id ledger done) :
    SpendsOnly turn ledger (Spent past roundSequence ids (position + 1)) :=
  within.spends.imp fun key spent => Spent.next within.here (spent.imp_left (within.named key))

theorem observation_stage {descriptor : SessionEffectDescriptor} {execution : Execution}
    {found : String × String × Json} (observed : observation E host descriptor execution = some found) :
    ∃ stage : Field, stage.val = found.1 ∧ stage ≠ Field.start := by
  cases execution with
  | finished output truncated =>
      cases observed
      exact ⟨Field.observe, rfl, fun same => absurd (congrArg Subtype.val same) (by decide)⟩
  | failed error =>
      cases observed
      exact ⟨Field.observe, rfl, fun same => absurd (congrArg Subtype.val same) (by decide)⟩
  | certified error =>
      cases observed
      exact ⟨Field.observeFailed, rfl, fun same => absurd (congrArg Subtype.val same) (by decide)⟩
  | uncertain => cases observed

theorem Within.executeAndObserve (within : Within turn past roundSequence ids position id ledger done)
    (apart : Apart past ids) (checks : Checks) (host : Host) {descriptor : SessionEffectDescriptor} {shown : Field}
    (address : E.redactSessionText descriptor.effectId = effectIdOf turn.turnId roundSequence position shown.val)
    (new : ∀ stage, stage ≠ Field.start → ¬ done (.effect roundSequence position shown stage)) :
    (∃ reason, executeAndObserve E host (journal checks turn) turn.turnId ledger descriptor position =
        .error reason ∧ Harmless False reason) ∨
      ∃ found sourceKey, observation E host descriptor (host.execute position descriptor.call) = some found ∧
        executeAndObserve E host (journal checks turn) turn.turnId ledger descriptor position =
          .ok (found.2.1, ledger.record turn sourceKey (observedCard E found.2.1 found.2.2 sourceKey)) ∧
        SpendsOnly turn (ledger.record turn sourceKey (observedCard E found.2.1 found.2.2 sourceKey))
          (Spent past roundSequence ids (position + 1)) := by
  cases observed : observation E host descriptor (host.execute position descriptor.call) with
  | none =>
      refine .inl ⟨.uncertain, ?_, trivial⟩
      simp only [Headless.executeAndObserve, observed, require, bind, Except.bind]
  | some found =>
      obtain ⟨stage, suffix, other⟩ := observation_stage observed
      have text : effectKey turn.turnId (E.redactSessionText descriptor.effectId) found.1 =
          (TurnKey.effect roundSequence position shown stage).text turn.turnId := by
        rw [address, ← suffix]
        exact effectKey_text turn.turnId roundSequence position shown stage
      have named : At roundSequence position id (.effect roundSequence position shown stage) := ⟨rfl, rfl⟩
      rcases within.commit apart checks named (new stage other) text
        (observedCard E found.2.1 found.2.2 (effectKey turn.turnId (E.redactSessionText descriptor.effectId) found.1))
        with ⟨error, refused, harmless⟩ | ⟨recorded, left⟩
      · refine .inl ⟨.refused (effectKey turn.turnId (E.redactSessionText descriptor.effectId) found.1) error, ?_,
          harmless⟩
        simp only [Headless.executeAndObserve, observed, require, bind, Except.bind, refused]
      · refine .inr ⟨found, _, rfl, ?_, left.leave⟩
        simp only [Headless.executeAndObserve, observed, require, bind, Except.bind, recorded]

end Calls

section Batches

variable {E : Redactor} {host : Host} {checks : Checks} {turn : LinkedTurn} {past : List (List String)}
  {transcript : Conversation} {message : Option String} {calls : List ToolCall} {firstId : String}
  {ids : List String} {position : Nat} {ledger : Ledger} {call : ToolCall} {hand rest : List ToolCall}

/-- The batch of a round, before the call at `position`. -/
structure Standing (E : Redactor) (turn : LinkedTurn) (past : List (List String)) (transcript : Conversation)
    (message : Option String) (calls : List ToolCall) (firstId : String) (ids : List String) (position : Nat)
    (ledger : Ledger) : Prop where
  played : ∃ size, Played E turn transcript message calls firstId size ledger.conversation
  spends : SpendsOnly turn ledger (Spent past (transcript.lastSeq + 1) ids position)

/-- How a call leaves the batch: with a harmless reason, or with the batch standing before the next call. -/
def GoesOn (E : Redactor) (host : Host) (turn : LinkedTurn) (past : List (List String))
    (transcript : Conversation) (message : Option String) (calls : List ToolCall) (firstId : String)
    (ids : List String) (position : Nat) (call : ToolCall) (left : List ToolCall)
    (outcome : Except Stop (Handed × Batch Ledger)) : Prop :=
  (∃ reason, outcome = .error reason ∧ Harmless (Unprovided E host position call) reason) ∨
    ∃ handed state, outcome = .ok (handed, ⟨state, transcript.lastSeq + 1, position + 1, left⟩) ∧
      handed.Own E host position ∧ E.redactSessionText call.id = call.id ∧
      Standing E turn past transcript message calls firstId ids (position + 1) state

theorem Standing.enter (standing : Standing E turn past transcript message calls firstId ids position ledger)
    {id : String} (here : ids[position]? = some id) :
    Within turn past (transcript.lastSeq + 1) ids position id ledger fun _ => False where
  spends := standing.spends.imp fun _ spent => .inr spent
  here := here
  named := fun _ none => none.elim

/-- The keys of an allowed call that has started. -/
def startedKeys (ordinal : Nat) (id : Field) (key : TurnKey) : Prop :=
  key = .called ordinal id .start ∨ key = .called ordinal id .prepare ∨ False

theorem handOver_allowed_begun (standing : Standing E turn past transcript message calls firstId ids position ledger)
    (apart : Apart past ids) (here : ids[position]? = some call.id) (clear : Clear ':' call.id)
    (policy : host.policy position call = .allow) :
    (∃ reason, handOver E host (journal checks turn) turn.turnId
        ⟨ledger, transcript.lastSeq + 1, position, hand⟩ call rest = .error reason ∧ Harmless False reason) ∨
      ∃ started : Ledger,
        started.conversation = begun E host turn ledger.conversation (transcript.lastSeq + 1) position call ∧
        Within turn past (transcript.lastSeq + 1) ids position call.id started (startedKeys position ⟨call.id, clear⟩) ∧
        handOver E host (journal checks turn) turn.turnId
            ⟨ledger, transcript.lastSeq + 1, position, hand⟩ call rest = (do
          let (result, observed) ← executeAndObserve E host (journal checks turn) turn.turnId started
            (descriptorOf turn.turnId (transcript.lastSeq + 1) position call) position
          let content ← require (effectProviderResult observed.conversation.window call.id) .missingResult
          .ok (⟨descriptorOf turn.turnId (transcript.lastSeq + 1) position call, some result, some content⟩,
            ⟨observed, transcript.lastSeq + 1, position + 1, rest⟩)) := by
  have atCall : ∀ stage, At (transcript.lastSeq + 1) position call.id (.called position ⟨call.id, clear⟩ stage) :=
    fun _ => ⟨rfl, rfl⟩
  rcases (standing.enter here).commit apart checks (atCall .prepare) (fun none => none)
    (prepareKey_text turn.turnId position call clear)
    (preparedCard E host (descriptorOf turn.turnId (transcript.lastSeq + 1) position call)
      (prepareKey turn.turnId call position)) with ⟨error, refused, harmless⟩ | ⟨prepared, within⟩
  · refine .inl ⟨.refused (prepareKey turn.turnId call position) error, ?_, harmless⟩
    simp only [handOver, bind, Except.bind, refused]
  have unstarted : ¬ (TurnKey.called position ⟨call.id, clear⟩ .start = .called position ⟨call.id, clear⟩ .prepare ∨
      False) := by
    rintro (same | none)
    · injection same with _ _ stage
      exact absurd (congrArg Subtype.val stage) (by decide)
    · exact none
  rcases within.commit apart checks (atCall .start) unstarted (startKey_text turn.turnId position call clear)
    (startedCard E (descriptorOf turn.turnId (transcript.lastSeq + 1) position call).effectId
      (startKey turn.turnId call position)) with ⟨error, refused, harmless⟩ | ⟨started, within⟩
  · refine .inl ⟨.refused (startKey turn.turnId call position) error, ?_, harmless⟩
    simp only [handOver, bind, Except.bind, prepared, policy, runAllowed, refused]
  · refine .inr ⟨_, rfl, within, ?_⟩
    simp only [handOver, bind, Except.bind, prepared, policy, runAllowed, started]
    rfl

theorem handOver_allowed_goesOn (keeps : KeepsIds E) (addresses : KeepsAddresses E)
    (stored : ∀ entry ∈ transcript.entries, SettledIds E entry) (apart : Apart past ids)
    (standing : Standing E turn past transcript message calls firstId ids position ledger)
    (here : ids[position]? = some call.id) (presented : Presented E call.id) (few : position < 2 ^ 64)
    (range : transcript.lastSeq + 1 < 2 ^ 64) (policy : host.policy position call = .allow) :
    GoesOn E host turn past transcript message calls firstId ids position call rest
      (handOver E host (journal checks turn) turn.turnId ⟨ledger, transcript.lastSeq + 1, position, hand⟩ call rest) := by
  obtain ⟨size, played⟩ := standing.played
  obtain ⟨shown, clearShown, address⟩ := addresses.effectId turn.turnId (transcript.lastSeq + 1) position call.id range
    few presented
  rcases handOver_allowed_begun standing apart here (presented.clear addresses) policy with
    ⟨reason, ends, harmless⟩ | ⟨started, transcribed, within, goes⟩
  · refine .inl ⟨reason, ends, ?_⟩
    cases reason with
    | missingResult => exact harmless.elim
    | _ => exact harmless
  have unobserved : ∀ stage, stage ≠ Field.start → ¬ startedKeys position ⟨call.id, presented.clear addresses⟩
      (.effect (transcript.lastSeq + 1) position ⟨shown, clearShown⟩ stage) := by
    rintro stage _ (same | same | none)
    · cases same
    · cases same
    · exact none
  have addressed : E.redactSessionText (descriptorOf turn.turnId (transcript.lastSeq + 1) position call).effectId =
      effectIdOf turn.turnId (transcript.lastSeq + 1) position (⟨shown, clearShown⟩ : Field).val := address
  have begun := transcribed ▸ played.begun host (transcript.lastSeq + 1) position call
  rcases within.executeAndObserve apart checks host addressed unobserved with
    ⟨reason, lost, harmless⟩ | ⟨found, sourceKey, observed, executed, spends⟩
  · refine .inl ⟨reason, ?_, ?_⟩
    · rw [goes, lost]
      rfl
    · cases reason with
      | missingResult => exact harmless.elim
      | _ => exact harmless
  have settles : E.redactSessionText (E.redactSessionText
      (descriptorOf turn.turnId (transcript.lastSeq + 1) position call).toolCallId) = E.redactSessionText
      (descriptorOf turn.turnId (transcript.lastSeq + 1) position call).toolCallId := presented.settles keeps
  have delivered : effectProviderResult ((started.conversation.append turn
      (observedCard E found.2.1 found.2.2 sourceKey)).window) call.id =
      if E.redactSessionText call.id = call.id ∧ providesContent (host.execute position call) = true then
        some (E.redactSessionText found.2.1)
      else none :=
    delivered_result keeps settles stored begun observed sourceKey
  rw [goes, executed]
  by_cases both : E.redactSessionText call.id = call.id ∧ providesContent (host.execute position call) = true
  case neg =>
    refine .inl ⟨.missingResult, ?_, ?_⟩
    · rw [if_neg both] at delivered
      simp only [bind, Except.bind, Ledger.record]
      rw [delivered]
      rfl
    · exact (not_and_or.mp both).imp_right (Bool.not_eq_true _).mp
  rw [if_pos both] at delivered
  refine .inr ⟨⟨descriptorOf turn.turnId (transcript.lastSeq + 1) position call, some found.2.1,
    some (E.redactSessionText found.2.1)⟩, _, ?_, ?_, both.1, ⟨_, begun.append_result keeps settles observed sourceKey⟩, spends⟩
  · simp only [bind, Except.bind, Ledger.record]
    rw [delivered]
    rfl
  · intro content same
    exact ⟨found, observed, (Option.some.inj same).symm⟩

/-- The keys of an approved call that has started. -/
def resumedKeys (roundSequence ordinal : Nat) (id : Field) (key : TurnKey) : Prop :=
  key = .effect roundSequence ordinal id .start ∨ key = .allowed roundSequence ordinal id ∨
    key = .called ordinal id .prepare ∨ False

theorem handOver_asked_resumed (standing : Standing E turn past transcript message calls firstId ids position ledger)
    (apart : Apart past ids) (here : ids[position]? = some call.id) (clear : Clear ':' call.id)
    (policy : host.policy position call = .ask) :
    (∃ reason, handOver E host (journal checks turn) turn.turnId
        ⟨ledger, transcript.lastSeq + 1, position, hand⟩ call rest = .error reason ∧ Harmless False reason) ∨
      ∃ resolved started : Ledger,
        resolved.conversation = approved E host turn ledger.conversation (transcript.lastSeq + 1) position call ∧
        started.conversation = restarted E host turn ledger.conversation (transcript.lastSeq + 1) position call ∧
        Within turn past (transcript.lastSeq + 1) ids position call.id started
          (resumedKeys (transcript.lastSeq + 1) position ⟨call.id, clear⟩) ∧
        E.redactSessionText (descriptorOf turn.turnId (transcript.lastSeq + 1) position call).effectId =
          (descriptorOf turn.turnId (transcript.lastSeq + 1) position call).effectId ∧
        handOver E host (journal checks turn) turn.turnId
            ⟨ledger, transcript.lastSeq + 1, position, hand⟩ call rest = (do
          let (roundSequence, calls, place) ← require (toolRoundForCall resolved.conversation.window
            (E.redactSessionText call.id)) .noContinuation
          let (result, observed) ← executeAndObserve E host (journal checks turn) turn.turnId started
            (descriptorOf turn.turnId (transcript.lastSeq + 1) position call) position
          ensure (host.rebuilds position = true) .notRebuilt
          .ok (⟨descriptorOf turn.turnId (transcript.lastSeq + 1) position call, some result, none⟩,
            ⟨observed, roundSequence, place + 1, calls.drop (place + 1)⟩)) := by
  have allowText : permissionKey turn.turnId (descriptorOf turn.turnId (transcript.lastSeq + 1) position call).effectId =
      (TurnKey.allowed (transcript.lastSeq + 1) position ⟨call.id, clear⟩).text turn.turnId :=
    permissionKey_text turn.turnId (transcript.lastSeq + 1) position ⟨call.id, clear⟩
  have startText : effectKey turn.turnId (descriptorOf turn.turnId (transcript.lastSeq + 1) position call).effectId
      "start" = (TurnKey.effect (transcript.lastSeq + 1) position ⟨call.id, clear⟩ .start).text turn.turnId :=
    effectKey_text turn.turnId (transcript.lastSeq + 1) position ⟨call.id, clear⟩ .start
  have atPrepare : At (transcript.lastSeq + 1) position call.id (.called position ⟨call.id, clear⟩ .prepare) := ⟨rfl, rfl⟩
  have atAllowed : At (transcript.lastSeq + 1) position call.id
    (.allowed (transcript.lastSeq + 1) position ⟨call.id, clear⟩) := ⟨rfl, rfl⟩
  have atStart : At (transcript.lastSeq + 1) position call.id
    (.effect (transcript.lastSeq + 1) position ⟨call.id, clear⟩ .start) := ⟨rfl, rfl⟩
  rcases (standing.enter here).commit apart checks atPrepare (fun none => none)
    (prepareKey_text turn.turnId position call clear)
    (preparedCard E host (descriptorOf turn.turnId (transcript.lastSeq + 1) position call)
      (prepareKey turn.turnId call position)) with ⟨error, refused, harmless⟩ | ⟨prepared, within⟩
  · refine .inl ⟨.refused (prepareKey turn.turnId call position) error, ?_, harmless⟩
    simp only [handOver, bind, Except.bind, refused]
  by_cases kept : E.redactSessionText (descriptorOf turn.turnId (transcript.lastSeq + 1) position call).effectId =
      (descriptorOf turn.turnId (transcript.lastSeq + 1) position call).effectId
  case neg =>
    refine .inl ⟨.unknownRequest, ?_, trivial⟩
    simp only [handOver, prepared, policy, resolvePermission, ensure, if_neg kept, bind, Except.bind]
  have unresolved : ¬ (TurnKey.allowed (transcript.lastSeq + 1) position ⟨call.id, clear⟩ =
      .called position ⟨call.id, clear⟩ .prepare ∨ False) := by
    rintro (same | none)
    · cases same
    · exact none
  rcases within.commit apart checks atAllowed unresolved allowText (allowedCard (permissionKey turn.turnId
    (descriptorOf turn.turnId (transcript.lastSeq + 1) position call).effectId))
    with ⟨error, refused, harmless⟩ | ⟨resolved, within⟩
  · refine .inl ⟨.refused (permissionKey turn.turnId
      (descriptorOf turn.turnId (transcript.lastSeq + 1) position call).effectId) error, ?_, harmless⟩
    simp only [handOver, prepared, policy, resolvePermission, ensure, kept, if_true, bind, Except.bind, refused]
  have unstarted : ¬ (TurnKey.effect (transcript.lastSeq + 1) position ⟨call.id, clear⟩ .start =
      .allowed (transcript.lastSeq + 1) position ⟨call.id, clear⟩ ∨
      TurnKey.effect (transcript.lastSeq + 1) position ⟨call.id, clear⟩ .start =
        .called position ⟨call.id, clear⟩ .prepare ∨ False) := by
    rintro (same | same | none)
    · cases same
    · cases same
    · exact none
  rcases within.commit apart checks atStart unstarted startText (startedCard E
    (descriptorOf turn.turnId (transcript.lastSeq + 1) position call).effectId (effectKey turn.turnId
      (descriptorOf turn.turnId (transcript.lastSeq + 1) position call).effectId "start"))
    with ⟨error, refused, harmless⟩ | ⟨started, within⟩
  · refine .inl ⟨.refused (effectKey turn.turnId
      (descriptorOf turn.turnId (transcript.lastSeq + 1) position call).effectId "start") error, ?_, harmless⟩
    simp only [handOver, prepared, policy, resolvePermission, ensure, kept, if_true, bind, Except.bind, resolved, refused]
  · refine .inr ⟨(ledger.record turn (prepareKey turn.turnId call position) (preparedCard E host
      (descriptorOf turn.turnId (transcript.lastSeq + 1) position call) (prepareKey turn.turnId call position))).record
      turn (permissionKey turn.turnId (descriptorOf turn.turnId (transcript.lastSeq + 1) position call).effectId)
      (allowedCard (permissionKey turn.turnId
        (descriptorOf turn.turnId (transcript.lastSeq + 1) position call).effectId)), _, rfl, rfl, within, kept, ?_⟩
    simp only [handOver, prepared, policy, resolvePermission, ensure, kept, if_true, bind, Except.bind, resolved, started]
    rfl

theorem handOver_asked_goesOn (keeps : KeepsIds E) (addresses : KeepsAddresses E) (apart : Apart past ids)
    (standing : Standing E turn past transcript message calls firstId ids position ledger)
    (here : ids[position]? = some call.id) (presented : Presented E call.id)
    (policy : host.policy position call = .ask)
    (place : E.redactSessionText call.id = call.id → (calls.map (ToolCall.redacted E)).findIdx?
      (fun other => other.id = E.redactSessionText call.id) = some position) :
    GoesOn E host turn past transcript message calls firstId ids position call
      ((calls.map (ToolCall.redacted E)).drop (position + 1))
      (handOver E host (journal checks turn) turn.turnId ⟨ledger, transcript.lastSeq + 1, position, hand⟩ call rest) := by
  obtain ⟨size, played⟩ := standing.played
  rcases handOver_asked_resumed standing apart here (presented.clear addresses) policy with
    ⟨reason, ends, harmless⟩ | ⟨resolved, started, approvedHere, restartedHere, within, kept, goes⟩
  · refine .inl ⟨reason, ends, ?_⟩
    cases reason with
    | missingResult => exact harmless.elim
    | _ => exact harmless
  have keptCall := presented.kept keeps kept
  have approved := approvedHere ▸ played.approved host (transcript.lastSeq + 1) position call
  have restarted := restartedHere ▸ played.restarted host (transcript.lastSeq + 1) position call
  rw [goes]
  by_cases near : (∃ entry ∈ transcript.entries, entry.kind = .compactSummary) ∨ size + 2 < 500
  case neg =>
    refine .inl ⟨.noContinuation, ?_, trivial⟩
    rw [toolRoundForCall_past approved near]
    rfl
  rw [toolRoundForCall_played keeps approved (place keptCall) near]
  have unobserved : ∀ stage, stage ≠ Field.start → ¬ resumedKeys (transcript.lastSeq + 1) position
      ⟨call.id, presented.clear addresses⟩
      (.effect (transcript.lastSeq + 1) position ⟨call.id, presented.clear addresses⟩ stage) := by
    rintro stage other (same | same | same | none)
    · injection same with _ _ _ stage
      exact other stage
    · cases same
    · cases same
    · exact none
  have addressed : E.redactSessionText (descriptorOf turn.turnId (transcript.lastSeq + 1) position call).effectId =
      effectIdOf turn.turnId (transcript.lastSeq + 1) position
        (⟨call.id, presented.clear addresses⟩ : Field).val := kept
  have settles : E.redactSessionText (E.redactSessionText
      (descriptorOf turn.turnId (transcript.lastSeq + 1) position call).toolCallId) = E.redactSessionText
      (descriptorOf turn.turnId (transcript.lastSeq + 1) position call).toolCallId := presented.settles keeps
  rcases within.executeAndObserve apart checks host addressed unobserved with
    ⟨reason, lost, harmless⟩ | ⟨found, sourceKey, observed, executed, spends⟩
  · refine .inl ⟨reason, ?_, ?_⟩
    · rw [lost]
      rfl
    · cases reason with
      | missingResult => exact harmless.elim
      | _ => exact harmless
  rw [executed]
  by_cases rebuilt : host.rebuilds position = true
  case neg =>
    refine .inl ⟨.notRebuilt, ?_, trivial⟩
    simp only [require, ensure, if_neg rebuilt, bind, Except.bind]
  refine .inr ⟨⟨descriptorOf turn.turnId (transcript.lastSeq + 1) position call, some found.2.1, none⟩, _, ?_, ?_,
    keptCall, ⟨_, restarted.append_result keeps settles observed sourceKey⟩, spends⟩
  · simp only [require, ensure, if_pos rebuilt, bind, Except.bind]
  · intro content none
    cases none

/-- Every call handed over from a position on has its id there, and no content but its own result. -/
def OwnFrom (E : Redactor) (host : Host) (ids : List String) (position : Nat) (handed : List Handed) : Prop :=
  ∀ (n : Nat) (call : Handed), handed[n]? = some call →
    ids[position + n]? = some call.descriptor.toolCallId ∧ call.Own E host (position + n)

theorem OwnFrom.cons {first : Handed} {later : List Handed} (here : ids[position]? = some first.descriptor.toolCallId)
    (own : first.Own E host position) (rest : OwnFrom E host ids (position + 1) later) :
    OwnFrom E host ids position (first :: later) := by
  intro n call held
  cases n with
  | zero =>
      cases held
      exact ⟨here, own⟩
  | succ n =>
      rw [List.getElem?_cons_succ] at held
      rw [show position + (n + 1) = position + 1 + n by omega]
      exact rest n call held

theorem ownFrom_nil : OwnFrom E host ids position [] := fun _ _ held => nomatch held

/-- A batch ends standing past its last call, or for a harmless reason. -/
inductive EndsWell (E : Redactor) (turn : LinkedTurn) (past : List (List String)) (transcript : Conversation)
    (message : Option String) (calls : List ToolCall) (firstId : String) (ids : List String) (unprovided : Prop) :
    Progress Ledger → Prop where
  | finished {state : Ledger} (standing : Standing E turn past transcript message calls firstId ids calls.length state) :
      EndsWell E turn past transcript message calls firstId ids unprovided (.finished state)
  | stopped {reason : Stop} (harmless : Harmless unprovided reason) :
      EndsWell E turn past transcript message calls firstId ids unprovided (.stopped reason)

theorem Harmless.imp {weaker stronger : Prop} (implies : weaker → stronger) {reason : Stop}
    (harmless : Harmless weaker reason) : Harmless stronger reason := by
  cases reason with
  | missingResult => exact implies harmless
  | _ => exact harmless

section Hands

variable {head : ToolCall} {left : List ToolCall}

/-- What is left to be taken up, and the hand it is taken from: the response, or once paused the round card. -/
def HandOf (E : Redactor) (host : Host) (position : Nat) (rest left hand : List ToolCall) : Prop :=
  (left = takenUp E host position rest ∧ hand = rest) ∨
    (left = rest.map (ToolCall.redacted E) ∧ hand = rest.map (ToolCall.redacted E))

theorem HandOf.nil (taking : HandOf E host position [] left hand) : left = [] ∧ hand = [] := by
  rcases taking with ⟨rfl, rfl⟩ | ⟨rfl, rfl⟩ <;> exact ⟨rfl, rfl⟩

theorem HandOf.cons (taking : HandOf E host position (call :: rest) left hand) :
    ∃ head later tail, left = head :: later ∧ hand = head :: tail ∧ (head = call ∨ head = call.redacted E) ∧
      (host.policy position head = .ask → later = rest.map (ToolCall.redacted E)) ∧
      (host.policy position head = .allow → HandOf E host (position + 1) rest later tail) := by
  rcases taking with ⟨rfl, rfl⟩ | ⟨rfl, rfl⟩
  · refine ⟨call, _, rest, rfl, rfl, .inl rfl, ?_, ?_⟩
    · intro policy
      rw [policy]
    · intro policy
      exact .inl ⟨by rw [policy], rfl⟩
  · exact ⟨call.redacted E, rest.map (ToolCall.redacted E), _, rfl, rfl, .inr rfl, fun _ => rfl, fun _ => .inr ⟨rfl, rfl⟩⟩

end Hands

variable {taken : List ToolCall}

/-- From any call of a batch on, no key of an earlier response is in the way. -/
theorem driveBatch_standing (host : Host) (checks : Checks) (keeps : KeepsIds E) (addresses : KeepsAddresses E)
    (stored : ∀ entry ∈ transcript.entries, SettledIds E entry) (apart : Apart past (taken.map ToolCall.id))
    (distinct : (taken.map ToolCall.id).Nodup) (valid : ∀ call ∈ calls, validToolCallId call.id = true)
    (few : calls.length < 2 ^ 64) (range : transcript.lastSeq + 1 < 2 ^ 64) (rest : List ToolCall) :
    ∀ (before done left hand : List ToolCall) (ledger : Ledger), calls = before ++ rest → taken = done ++ left →
      done.map ToolCall.id = before.map (fun call => E.redactSessionText call.id) →
      HandOf E host before.length rest left hand →
      Standing E turn past transcript message calls firstId (taken.map ToolCall.id) before.length ledger →
      OwnFrom E host (taken.map ToolCall.id) before.length (driveBatch E host (journal checks turn) turn.turnId
        (rest.length + 1) ⟨ledger, transcript.lastSeq + 1, before.length, hand⟩).1 ∧
      EndsWell E turn past transcript message calls firstId (taken.map ToolCall.id)
        (∃ (ordinal : Nat) (call : ToolCall), taken[ordinal]? = some call ∧ Unprovided E host ordinal call)
        (driveBatch E host (journal checks turn) turn.turnId (rest.length + 1)
          ⟨ledger, transcript.lastSeq + 1, before.length, hand⟩).2 := by
  induction rest with
  | nil =>
      intro before done left hand ledger split _ _ taking standing
      obtain ⟨rfl, rfl⟩ := taking.nil
      rw [List.append_nil] at split
      exact ⟨ownFrom_nil, .finished (split ▸ standing)⟩
  | cons call rest ih =>
      intro before done left hand ledger split listed renamed taking standing
      obtain ⟨head, later, tail, rfl, rfl, made, asked, allowed⟩ := taking.cons
      have validCall := valid call (split ▸ List.mem_append_right _ List.mem_cons_self)
      have presented : Presented E head.id := by
        rcases made with rfl | rfl
        · exact ⟨_, validCall, .inl rfl⟩
        · exact ⟨_, validCall, .inr rfl⟩
      have shown : E.redactSessionText head.id = E.redactSessionText call.id := by
        rcases made with rfl | rfl
        · rfl
        · exact keeps.idempotent _ validCall
      have size : done.length = before.length := by
        have counts := congrArg List.length renamed
        rwa [List.length_map, List.length_map] at counts
      have inTaken : taken[before.length]? = some head := by
        rw [listed, List.getElem?_append_right (Nat.le_of_eq size), size, Nat.sub_self, List.getElem?_cons_zero]
      have here : (taken.map ToolCall.id)[before.length]? = some head.id := by
        rw [List.getElem?_map, inTaken]
        rfl
      have short : before.length < 2 ^ 64 := by
        rw [split, List.length_append] at few
        omega
      have next : calls = (before ++ [call]) ++ rest := by
        rw [split, List.append_assoc, List.singleton_append]
      obtain ⟨tail', taking', goesOn⟩ : ∃ tail', HandOf E host (before.length + 1) rest later tail' ∧
          GoesOn E host turn past transcript message calls firstId (taken.map ToolCall.id) before.length head tail'
            (handOver E host (journal checks turn) turn.turnId
              ⟨ledger, transcript.lastSeq + 1, before.length, head :: tail⟩ head tail) := by
        cases policy : host.policy before.length head with
        | allow =>
            exact ⟨tail, allowed policy,
              handOver_allowed_goesOn keeps addresses stored apart standing here presented short range policy⟩
        | ask =>
            have left : (calls.map (ToolCall.redacted E)).drop (before.length + 1) = rest.map (ToolCall.redacted E) := by
              rw [next, ← List.map_drop]
              congr 1
              rw [List.drop_append, List.length_append, List.length_singleton, Nat.sub_self, List.drop_of_length_le]
              · rfl
              · rw [List.length_append, List.length_singleton]
            refine ⟨rest.map (ToolCall.redacted E), .inr ⟨asked policy, rfl⟩, ?_⟩
            rw [← left]
            refine handOver_asked_goesOn keeps addresses apart standing here presented policy ?_
            -- The place of the call: the ids before it are in hand under their redacted form.
            intro kept
            refine findIdx?_place split ?_ shown.symm
            intro other held same
            rw [listed, List.map_append, renamed, List.map_cons, List.nodup_append] at distinct
            exact distinct.2.2 _ (List.mem_map_of_mem held) head.id List.mem_cons_self (same.trans kept)
      rcases goesOn with ⟨reason, ends, harmless⟩ | ⟨handed, state, goes, own, kept, standing'⟩
      · rw [List.length_cons, driveBatch_error ends]
        refine ⟨OwnFrom.cons here (fun _ none => nomatch none) ownFrom_nil, .stopped (harmless.imp ?_)⟩
        exact fun unprovided => ⟨before.length, head, inTaken, unprovided⟩
      · have made' : handed.descriptor.toolCallId = head.id :=
          congrArg SessionEffectDescriptor.toolCallId (handOver_descriptor goes)
        have counted : (before ++ [call]).length = before.length + 1 := by
          rw [List.length_append, List.length_singleton]
        have rest' := ih (before ++ [call]) (done ++ [head]) later tail' state next
          (by rw [listed, List.append_assoc, List.singleton_append])
          (by rw [List.map_append, List.map_append, renamed, List.map_singleton, List.map_singleton, ← kept, shown])
          (counted ▸ taking') (counted ▸ standing')
        rw [counted] at rest'
        rw [List.length_cons, driveBatch_ok goes]
        exact ⟨OwnFrom.cons (made' ▸ here) own rest'.1, rest'.2⟩

theorem driveBatch_response (host : Host) (checks : Checks) (keeps : KeepsIds E) (addresses : KeepsAddresses E)
    (stored : ∀ entry ∈ transcript.entries, SettledIds E entry)
    (apart : Apart past ((takenUp E host 0 calls).map ToolCall.id))
    (distinct : ((takenUp E host 0 calls).map ToolCall.id).Nodup)
    (valid : ∀ call ∈ calls, validToolCallId call.id = true) (few : calls.length < 2 ^ 64)
    (range : transcript.lastSeq + 1 < 2 ^ 64) (standing : Standing E turn past transcript message calls firstId
      ((takenUp E host 0 calls).map ToolCall.id) 0 ledger) :
    OwnFrom E host ((takenUp E host 0 calls).map ToolCall.id) 0 (driveBatch E host (journal checks turn) turn.turnId
        (calls.length + 1) ⟨ledger, transcript.lastSeq + 1, 0, calls⟩).1 ∧
      EndsWell E turn past transcript message calls firstId ((takenUp E host 0 calls).map ToolCall.id)
        (∃ (ordinal : Nat) (call : ToolCall), (takenUp E host 0 calls)[ordinal]? = some call ∧
          Unprovided E host ordinal call)
        (driveBatch E host (journal checks turn) turn.turnId (calls.length + 1)
          ⟨ledger, transcript.lastSeq + 1, 0, calls⟩).2 := by
  have whole : calls = [] ++ calls := rfl
  have fresh : takenUp E host 0 calls = [] ++ takenUp E host 0 calls := rfl
  have renamed : ([] : List ToolCall).map ToolCall.id =
    ([] : List ToolCall).map fun call => E.redactSessionText call.id := rfl
  exact driveBatch_standing host checks keeps addresses stored apart distinct valid few range calls [] [] _ calls ledger
    whole fresh renamed (.inl ⟨rfl, rfl⟩) standing

end Batches

section Rounds

variable {E : Redactor} {checks : Checks} {turn : LinkedTurn} {past : List (List String)} {ledger ready : Ledger}
  {round : Round} {knownTools : List String}

/-- The session between two rounds of the turn. -/
structure Between (E : Redactor) (turn : LinkedTurn) (past : List (List String)) (ledger : Ledger) : Prop where
  stored : ∀ entry ∈ ledger.conversation.entries, SettledIds E entry
  spends : SpendsOnly turn ledger (Spent past (ledger.conversation.lastSeq + 1) [] 0)

/-- What the runner lets through, and what it commits between two rounds: no result, and no key of a call. -/
structure Admissible (turn : LinkedTurn) (knownTools : List String) (round : Round) : Prop where
  accepted : acceptedCalls knownTools round.calls
  few : round.calls.length < 2 ^ 64
  foreign : ∀ commit ∈ round.between, Foreign turn commit.1
  other : ∀ commit ∈ round.between, commit.2.kind ≠ .toolResult

theorem Between.record (between : Between E turn past ledger) {sourceKey : String} (foreign : Foreign turn sourceKey)
    {card : Card} (other : card.kind ≠ .toolResult) : Between E turn past (ledger.record turn sourceKey card) where
  stored := by
    intro entry held
    rw [Ledger.record, Conversation.entries_append, List.mem_append, List.mem_singleton] at held
    rcases held with old | rfl
    · exact between.stored entry old
    · exact settledIds_other other
  spends := (between.spends.record_foreign foreign card).imp fun _ spent => spent.later (Nat.le_succ _)

theorem Between.recordAll (commits : List (String × Card)) : ∀ {ledger : Ledger}, Between E turn past ledger →
    (∀ commit ∈ commits, Foreign turn commit.1) → (∀ commit ∈ commits, commit.2.kind ≠ .toolResult) →
    Between E turn past (ledger.recordAll turn commits) := by
  induction commits with
  | nil => exact fun between _ _ => between
  | cons commit commits ih =>
      intro ledger between foreign other
      have next := between.record (foreign commit List.mem_cons_self) (other commit List.mem_cons_self)
      exact ih next (fun later held => foreign later (List.mem_cons_of_mem _ held))
        (fun later held => other later (List.mem_cons_of_mem _ held))

theorem Played.beyond {transcript : Conversation} {message : Option String} {calls : List ToolCall} {firstId : String}
    {size : Nat} {conversation : Conversation}
    (played : Played E turn transcript message calls firstId size conversation) :
    transcript.lastSeq + 1 ≤ conversation.lastSeq := by
  obtain ⟨cards, entries, _, _⟩ := played
  apply conversation.bounded (turn.entry (transcript.lastSeq + 1) (roundCard E turn.turnId message calls firstId))
  rw [entries]
  exact List.mem_append_right _ List.mem_cons_self

theorem Played.stored {transcript : Conversation} {message : Option String} {calls : List ToolCall} {firstId : String}
    {size : Nat} {conversation : Conversation}
    (played : Played E turn transcript message calls firstId size conversation)
    (stored : ∀ entry ∈ transcript.entries, SettledIds E entry) : ∀ entry ∈ conversation.entries, SettledIds E entry := by
  obtain ⟨cards, entries, _, kinds⟩ := played
  intro entry held
  rw [entries, List.mem_append, List.mem_cons] at held
  rcases held with old | rfl | recent
  · exact stored entry old
  · exact settledIds_other fun same => nomatch same
  · exact (kinds entry recent).2.2

theorem Standing.finished {transcript : Conversation} {message : Option String} {calls : List ToolCall}
    {firstId : String} {ids : List String} {position : Nat}
    (standing : Standing E turn past transcript message calls firstId ids position ledger)
    (stored : ∀ entry ∈ transcript.entries, SettledIds E entry) : Between E turn (past ++ [ids]) ledger := by
  obtain ⟨size, played⟩ := standing.played
  exact ⟨played.stored stored, standing.spends.imp fun _ spent => spent.closed (Nat.lt_succ_of_le played.beyond)⟩

/-- Some call of the round has no result under its id. -/
def Round.Lacks (E : Redactor) (round : Round) : Prop :=
  ∃ (ordinal : Nat) (call : ToolCall), (round.taken E)[ordinal]? = some call ∧ Unprovided E round.host ordinal call

/-- A round ends with the session ready for the next, or for a harmless reason. -/
inductive RoundEnds (E : Redactor) (turn : LinkedTurn) (past : List (List String)) (round : Round) :
    Progress Ledger → Prop where
  | finished {state : Ledger} (between : Between E turn (past ++ [round.ids E]) state) :
      RoundEnds E turn past round (.finished state)
  | stopped {reason : Stop} (harmless : Harmless (round.Lacks E) reason) : RoundEnds E turn past round (.stopped reason)

theorem EndsWell.ofRound {transcript : Conversation} {message : Option String} {calls : List ToolCall} {firstId : String}
    {progress : Progress Ledger} (stored : ∀ entry ∈ transcript.entries, SettledIds E entry)
    (ends : EndsWell E turn past transcript message calls firstId (round.ids E) (round.Lacks E) progress) :
    RoundEnds E turn past round progress := by
  cases ends with
  | finished standing => exact .finished (standing.finished stored)
  | stopped harmless => exact .stopped harmless

theorem openRound_cases (checks : Checks) (between : Between E turn past ledger) (message : Option String)
    {first : ToolCall} (later : List ToolCall) {ids : List String} (head : ids[0]? = some first.id)
    (apart : Apart past ids) (valid : validToolCallId first.id = true) :
    (∃ error, openRound E (journal checks turn) turn.turnId ledger message first later =
        .error (.refused (roundKey turn.turnId first.id) error) ∧ error ≠ .sessionCommandReplayMismatch) ∨
      ∃ opened, openRound E (journal checks turn) turn.turnId ledger message first later =
          .ok ⟨opened, ledger.conversation.lastSeq + 1, 0, first :: later⟩ ∧
        Standing E turn past ledger.conversation message (first :: later) first.id ids 0 opened ∧
        ledger.conversation.lastSeq + 1 < 2 ^ 64 := by
  have clear := toolCallId_clear valid
  have unopened : ¬ Spent past (ledger.conversation.lastSeq + 1) [] 0 (.round ⟨first.id, clear⟩) := by
    rintro (⟨earlier, held, same⟩ | none)
    · exact apart earlier held 0 first.id head same
    · cases none
  have text := roundKey_text turn.turnId ⟨first.id, clear⟩
  rcases commitCard_cases checks turn (roundCard E turn.turnId message (first :: later) first.id)
    (between.spends.fresh unopened text) with ⟨error, refused, harmless⟩ | ⟨opened, range⟩
  · refine .inl ⟨error, ?_, harmless⟩
    simp only [openRound, refused, bind, Except.bind]
  · refine .inr ⟨ledger.record turn (roundKey turn.turnId first.id)
      (roundCard E turn.turnId message (first :: later) first.id), ?_, ⟨⟨0, [], rfl, rfl, fun _ none => absurd none List.not_mem_nil⟩,
        (between.spends.record text _).imp fun _ spent => Spent.opened head spent⟩, range⟩
    simp only [openRound, opened, bind, Except.bind]
    rfl

/-- A round of the turn, from the session between two rounds to the next. -/
theorem playRound_between (checks : Checks) (keeps : KeepsIds E) (addresses : KeepsAddresses E) (between : Between E turn past ledger)
    (admissible : Admissible turn knownTools round) (apart : Apart past (round.ids E)) (distinct : (round.ids E).Nodup) :
    OwnFrom E round.host (round.ids E) 0 (playRound E checks turn ledger round).1 ∧
      RoundEnds E turn past round (playRound E checks turn ledger round).2 := by
  have ready := Between.recordAll round.between between admissible.foreign admissible.other
  have valid : ∀ call ∈ round.calls, validToolCallId call.id = true :=
    fun call held => (admissible.accepted.1 call held).1
  have head : (round.ids E)[0]? = some round.first.id := rfl
  unfold playRound
  generalize ledger.recordAll turn round.between = transcript at ready
  rcases openRound_cases checks ready round.message round.later head apart (valid round.first List.mem_cons_self) with
    ⟨error, refused, harmless⟩ | ⟨opened, opens, standing, range⟩
  · rw [refused]
    exact ⟨ownFrom_nil, .stopped harmless⟩
  · rw [round.ids_eq E] at apart distinct standing
    obtain ⟨own, ends⟩ := driveBatch_response round.host checks keeps addresses ready.stored apart distinct valid
      admissible.few range standing
    rw [← round.ids_eq E] at own ends
    rw [opens]
    exact ⟨own, EndsWell.ofRound ready.stored ends⟩

/-- As the batches take them up, no id stands twice in a response, and none at one place of two responses. -/
def IdsApart (E : Redactor) (rounds : List Round) : Prop :=
  (∀ round ∈ rounds, (round.ids E).Nodup) ∧ rounds.Pairwise fun earlier later =>
    ∀ (ordinal : Nat) (id : String), (later.ids E)[ordinal]? = some id → (earlier.ids E)[ordinal]? ≠ some id

/-- The rounds of a turn come to an end, and not because a source key is spent; every content pushed is the result
observed for that very call, and a result is missing only where none is stored under the id. -/
structure Unhindered (E : Redactor) (rounds : List Round) (outcome : List (List Handed) × Progress Ledger) : Prop where
  ended : outcome.2.over = true
  unmet : ∀ sourceKey, outcome.2 ≠ .stopped (.refused sourceKey .sessionCommandReplayMismatch)
  own : ∀ (n : Nat) (round : Round) (handed : List Handed), rounds[n]? = some round → outcome.1[n]? = some handed →
    OwnFrom E round.host (round.ids E) 0 handed
  missing : outcome.2 = .stopped .missingResult → ∃ round ∈ rounds, round.Lacks E

theorem Unhindered.single {rounds : List Round} {handed : List Handed} {reason : Stop}
    (own : OwnFrom E round.host (round.ids E) 0 handed) (harmless : Harmless (round.Lacks E) reason) :
    Unhindered E (round :: rounds) ([handed], .stopped reason) where
  ended := rfl
  unmet := by
    rintro sourceKey same
    cases same
    exact harmless rfl
  own := by
    intro n other list held listed
    cases n with
    | zero =>
        cases held
        cases listed
        exact own
    | succ n => cases listed
  missing := by
    intro same
    cases same
    exact ⟨round, List.mem_cons_self, harmless⟩

theorem Unhindered.cons {rounds : List Round} {handed : List Handed} {outcome : List (List Handed) × Progress Ledger}
    (own : OwnFrom E round.host (round.ids E) 0 handed) (later : Unhindered E rounds outcome) :
    Unhindered E (round :: rounds) (handed :: outcome.1, outcome.2) where
  ended := later.ended
  unmet := later.unmet
  own := by
    intro n other list held listed
    cases n with
    | zero =>
        cases held
        cases listed
        exact own
    | succ n => exact later.own n other list held listed
  missing := fun same => (later.missing same).imp fun _ held => ⟨List.mem_cons_of_mem round held.1, held.2⟩

theorem unhindered_nil : Unhindered E [] ([], .finished ledger) where
  ended := rfl
  unmet := fun _ same => nomatch same
  own := fun _ _ _ held => nomatch held
  missing := fun same => nomatch same

theorem playRounds_between (checks : Checks) (keeps : KeepsIds E) (addresses : KeepsAddresses E) (rounds : List Round) :
    ∀ {past : List (List String)} {ledger : Ledger}, Between E turn past ledger →
      (∀ round ∈ rounds, Admissible turn knownTools round) → (∀ round ∈ rounds, Apart past (round.ids E)) →
      IdsApart E rounds → Unhindered E rounds (playRounds E checks turn ledger rounds) := by
  induction rounds with
  | nil => exact fun _ _ _ _ => unhindered_nil
  | cons round rounds ih =>
      intro past ledger between admissible apart distinct
      have order := List.pairwise_cons.mp distinct.2
      obtain ⟨own, ends⟩ := playRound_between checks keeps addresses between
        (admissible round List.mem_cons_self) (apart round List.mem_cons_self) (distinct.1 round List.mem_cons_self)
      unfold playRounds
      generalize playRound E checks turn ledger round = outcome at own ends
      obtain ⟨handed, progress⟩ := outcome
      cases ends with
      | stopped harmless => exact .single own harmless
      | finished between' =>
          refine .cons own (ih between' (fun later held => admissible later (List.mem_cons_of_mem _ held)) ?_
            ⟨fun later held => distinct.1 later (List.mem_cons_of_mem _ held), order.2⟩)
          intro later held earlier listed ordinal id here
          rw [List.mem_append, List.mem_singleton] at listed
          rcases listed with old | rfl
          · exact apart later (List.mem_cons_of_mem _ held) earlier old ordinal id here
          · exact order.1 later held ordinal id here

/-- Responses that repeat no id at its place go through the turn as if every id were new. -/
theorem rounds_unhindered (checks : Checks) (keeps : KeepsIds E) (addresses : KeepsAddresses E) {rounds : List Round}
    (stored : ∀ entry ∈ ledger.conversation.entries, SettledIds E entry)
    (unspent : SpendsOnly turn ledger fun _ => False)
    (admissible : ∀ round ∈ rounds, Admissible turn knownTools round) (apart : IdsApart E rounds) :
    Unhindered E rounds (playRounds E checks turn ledger rounds) :=
  have between : Between E turn [] ledger := ⟨stored, unspent.imp fun _ none => none.elim⟩
  playRounds_between checks keeps addresses rounds between admissible (fun _ _ _ none => nomatch none) apart

end Rounds

section Samples

theorem TurnId.legible (turnId : TurnId) : Legible turnId.toString.toList :=
  TurnId.forall_mem (by decide) (by decide) turnId

theorem digit_legible {c : Char} (digit : c.isDigit = true) : 0x2d ≤ c.val.toNat ∧ c.val.toNat ≤ 0x7a := by
  simp only [Char.isDigit, Bool.and_eq_true, decide_eq_true_eq, UInt32.le_iff_toNat_le] at digit
  exact ⟨Nat.le_trans (by decide) digit.1, Nat.le_trans digit.2 (by decide)⟩

theorem numberText_legible (n : Nat) : Legible (toString n).toList := by
  intro c held
  rw [Nat.toString_eq_repr, Nat.toList_repr] at held
  exact digit_legible (Nat.isDigit_of_mem_toDigits (by decide) (by decide) held)

theorem number_legible {n : Nat} (range : n < 2 ^ 64) : Legible (toString n).toList ∧ (toString n).toList.length ≤ 20 := by
  refine ⟨numberText_legible n, ?_⟩
  rw [Nat.toString_eq_repr, Nat.toList_repr, Nat.length_toDigits_le_iff (by decide) (by decide)]
  exact Nat.lt_of_lt_of_le range (by decide)

theorem utf8Len_le (text : List Char) : String.utf8Len text ≤ 4 * text.length := by
  induction text with
  | nil => exact Nat.le_refl _
  | cons c rest ih =>
      have size := c.utf8Size_le_four
      rw [String.utf8Len_cons, List.length_cons]
      omega

theorem plain_legible {text : String} (legible : Legible text.toList)
    (fits : String.utf8Len text.toList ≤ SESSION_TEXT_CAP_BYTES) : plain.redactSessionText text = text := by
  have kept : sanitize .text 0 text.toList = text.toList := by
    apply sanitize_visible legible.visible
    rwa [Nat.zero_add]
  show String.ofList (sanitize .text 0 text.toList) = text
  rw [kept, String.ofList_toList]

theorem plain_keepsAddresses : KeepsAddresses plain.toRedactor where
  clear := by
    intro id valid
    have same : plain.redactSessionText id = id := plain_id valid
    exact same.symm ▸ toolCallId_clear valid
  effectId := by
    intro turnId roundSequence ordinal id range few presented
    obtain ⟨original, valid, named⟩ := presented
    have same : id = original := named.elim (fun same => same) fun same => same.trans (plain_id valid)
    subst same
    refine ⟨id, toolCallId_clear valid, plain_legible ?_ ?_⟩
    all_goals
      have turn := TurnId.legible turnId
      have turnLength := TurnId.length_toString turnId
      have round := number_legible range
      have place := number_legible few
      have name := validToolCallId_legible valid
      unfold effectIdOf
      generalize turnId.toString = turnText at turn turnLength
      generalize toString roundSequence = roundText at round
      generalize toString ordinal = placeText at place
      simp only [String.toList_append]
    · have prefixed : Legible "session-effect".toList := by decide +kernel
      have colon : Legible ":".toList := by decide +kernel
      exact (((((((prefixed.append colon).append turn).append colon).append round.1).append colon).append place.1).append
        colon).append name
    · simp only [String.utf8Len_append]
      have bytes : String.utf8Len id.toList ≤ 256 := by
        simp only [validToolCallId, Bool.and_eq_true, decide_eq_true_eq] at valid
        rw [String.utf8Len_toList]
        exact valid.1.2
      have turnBytes := utf8Len_le turnText.toList
      have roundBytes := utf8Len_le roundText.toList
      have placeBytes := utf8Len_le placeText.toList
      have named : String.utf8Len "session-effect".toList = 14 := by decide +kernel
      have colon : String.utf8Len ":".toList = 1 := by decide +kernel
      rw [named, colon]
      have cap : SESSION_TEXT_CAP_BYTES = 65536 := rfl
      omega

/-- Nothing but the source keys is checked. -/
def noChecks : Checks where
  refuses _ _ _ := none
  unrelated _ _ _ same := nomatch same

/-- A response of one call, which runs without a question. -/
def sampleRound (call : ToolCall) : Round where
  between := []
  host := { sampleHost with policy := fun _ _ => .allow }
  message := none
  first := call
  later := []

def emptyLedger : Ledger := ⟨emptyConversation, []⟩

theorem sampleRound_admissible {call : ToolCall} (accepted : acceptedCalls ["process"] [call]) :
    Admissible sampleLinked ["process"] (sampleRound call) where
  accepted := accepted
  few := show 1 < 2 ^ 64 by decide
  foreign := fun _ none => nomatch none
  other := fun _ none => nomatch none

theorem accepted_single {call : ToolCall} {knownTools : List String} (valid : validToolCallId call.id = true)
    (known : call.name ∈ knownTools) (object : ∃ fields, call.input = .object fields) :
    acceptedCalls knownTools [call] := by
  refine ⟨?_, List.nodup_singleton _⟩
  intro other held
  rw [List.mem_singleton.mp held]
  exact ⟨valid, known, object⟩

theorem makeCall_accepted : acceptedCalls ["process"] [makeCall] :=
  accepted_single (by decide +kernel) (by decide) ⟨_, rfl⟩

theorem listCall_accepted : acceptedCalls ["process"] [listCall] :=
  accepted_single (by decide +kernel) (by decide) ⟨_, rfl⟩

/-- The commit that ended the rounds. -/
def refusal {State : Type} : Progress State → Option (String × StorageError)
  | .stopped (.refused sourceKey error) => some (sourceKey, error)
  | _ => none

theorem refusal_some {State : Type} {progress : Progress State} {sourceKey : String} {error : StorageError}
    (held : refusal progress = some (sourceKey, error)) : progress = .stopped (.refused sourceKey error) := by
  cases progress with
  | running => cases held
  | finished => cases held
  | stopped reason =>
      cases reason with
      | refused =>
          cases held
          rfl
      | _ => cases held

/-- Two responses with the same single id: the card of the second is refused. -/
theorem repeated_id_refused : ¬ ∀ (E : Redactor) (checks : Checks) (turn : LinkedTurn) (ledger : Ledger)
    (knownTools : List String) (rounds : List Round), KeepsIds E → KeepsAddresses E →
    (∀ entry ∈ ledger.conversation.entries, SettledIds E entry) → (SpendsOnly turn ledger fun _ => False) →
    (∀ round ∈ rounds, Admissible turn knownTools round) →
      Unhindered E rounds (playRounds E checks turn ledger rounds) := by
  intro claim
  have admissible : ∀ round ∈ [sampleRound makeCall, sampleRound makeCall], Admissible sampleLinked ["process"] round := by
    intro round held
    simp only [List.mem_cons, List.not_mem_nil, or_false, or_self] at held
    exact held ▸ sampleRound_admissible makeCall_accepted
  have unhindered := claim plain.toRedactor noChecks sampleLinked emptyLedger ["process"]
    [sampleRound makeCall, sampleRound makeCall] plain_keepsIds plain_keepsAddresses
    (emptyConversation_settled plain.toRedactor) (fun _ none => absurd none List.not_mem_nil) admissible
  have refused : refusal (playRounds plain.toRedactor noChecks sampleLinked emptyLedger
      [sampleRound makeCall, sampleRound makeCall]).2 =
        some (roundKey sampleTurn "call_1", .sessionCommandReplayMismatch) := by decide +kernel
  exact unhindered.unmet _ (refusal_some refused)

theorem rounds_unhindered_distinct : Unhindered plain.toRedactor [sampleRound makeCall, sampleRound listCall]
    (playRounds plain.toRedactor noChecks sampleLinked emptyLedger [sampleRound makeCall, sampleRound listCall]) := by
  have admissible : ∀ round ∈ [sampleRound makeCall, sampleRound listCall],
      Admissible sampleLinked ["process"] round := by
    intro round held
    simp only [List.mem_cons, List.not_mem_nil, or_false] at held
    rcases held with rfl | rfl
    · exact sampleRound_admissible makeCall_accepted
    · exact sampleRound_admissible listCall_accepted
  refine rounds_unhindered noChecks plain_keepsIds plain_keepsAddresses (emptyConversation_settled plain.toRedactor)
    (fun _ none => absurd none List.not_mem_nil) admissible ⟨?_, ?_⟩
  · intro round held
    simp only [List.mem_cons, List.not_mem_nil, or_false] at held
    rcases held with rfl | rfl <;> exact List.nodup_singleton _
  · rw [List.pairwise_pair]
    intro ordinal id here same
    have ids : (sampleRound listCall).ids plain.toRedactor = ["call_2"] := rfl
    have ids' : (sampleRound makeCall).ids plain.toRedactor = ["call_1"] := rfl
    rw [ids] at here
    rw [ids'] at same
    cases ordinal with
    | zero =>
        cases here
        exact absurd same (by decide)
    | succ => cases here

end Samples

end LatteCode.Headless
