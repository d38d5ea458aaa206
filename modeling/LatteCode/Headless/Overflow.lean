import LatteCode.Headless.Compactions
import LatteCode.Headless.RoundBound
import LatteCode.Headless.Summary
/- Requests that the provider rejects as over its window: the forced compaction, and how often a turn recovers by it. -/

namespace LatteCode.Headless
open Runs Storage

/-! ## The request that a compaction goes on with -/

namespace Planner

variable (P : Planner) (entries : List TranscriptEntry) (turnId : TurnId) (tails : VolatileTurnContext)

/-- The tails that the fit between two requests keeps. -/
def midTurnTails (budget : Nat) : VolatileTurnContext :=
  let fit := P.midTurnFit budget (scanHistorySegments entries) tails
  tails.filtered fit.repositoryKept fit.reminderKept

/-- Behind a summary only the segments from the boundary on are sent; without one the request stays. -/
def summarizedRequest (fitting : List HistorySegment) (boundary : Nat) (tails : VolatileTurnContext)
    (current : List Message) : CompactionCard → List Message
  | .summary _ _ summary => assembleMidTurnRequest P.system (some summary) (fitting.drop boundary) turnId tails
  | .elision _ | .failure => current

/-- `maybe_compact_mid_turn`: the card it appends with the request it goes on with, or nothing. -/
def compactMidTurn (current : List Message) (forced : Bool) :
    Except SessionRuntimeError (Option (CompactionCard × List Message)) :=
  match P.policy.budget with
  | .error error => .error error
  | .ok budget =>
      let segments := scanHistorySegments entries
      let fit := P.midTurnFit budget segments tails
      let fitted := P.midTurnTails entries tails budget
      match P.midTurnBoundary budget segments tails forced with
      | none => .ok none
      | some boundary =>
          match P.midTurnElision budget segments boundary (decide (0 < segments.length - fit.historyKept))
            forced fitted turnId current with
          | (some card, elided) => .ok (some (card, assembleMidTurnRequest P.system none elided turnId fitted))
          | (none, fitting) =>
              .ok ((P.midTurnSummarize fitting boundary forced fitted turnId current).map fun card =>
                (card, P.summarizedRequest turnId fitting boundary fitted current card))

/-- The cards are those of the model that leaves the requests out. -/
theorem compactMidTurn_card (current : List Message) (forced : Bool) :
    (P.compactMidTurn entries turnId tails current forced).map (Option.map Prod.fst) =
      P.maybeCompactMidTurn entries turnId current forced tails := by
  unfold compactMidTurn maybeCompactMidTurn midTurnTails
  cases P.policy.budget with
  | error error => rfl
  | ok budget =>
      simp only
      cases P.midTurnBoundary budget (scanHistorySegments entries) tails forced with
      | none => rfl
      | some boundary =>
          simp only
          generalize P.midTurnElision _ _ _ _ _ _ _ _ = tier
          obtain ⟨_ | card, fitting⟩ := tier
          · simp only
            generalize P.midTurnSummarize _ _ _ _ _ _ = summarized
            cases summarized with
            | none => rfl
            | some card => rfl
          · rfl

/-- What the summary tier reads. -/
def midTurnFitting (boundary : Nat) : List HistorySegment :=
  if P.policy.compaction.strategy = .elideToolResultsThenSummarize then
    (elidePrefix P.fromStr (scanHistorySegments entries) boundary).1
  else scanHistorySegments entries

/-- A request that a forced compaction can put in the place of the rejected one: skeletons in the shrink prefix, or a
summary in front of what is retained. -/
inductive Rebuild : List Message → Prop
  | elided {budget boundary : Nat} (allowed : P.policy.budget = .ok budget)
      (chosen : P.midTurnBoundary budget (scanHistorySegments entries) tails true = some boundary)
      (strategy : P.policy.compaction.strategy = .elideToolResultsThenSummarize)
      (results : (elidePrefix P.fromStr (scanHistorySegments entries) boundary).2 ≠ []) :
      Rebuild (assembleMidTurnRequest P.system none (elidePrefix P.fromStr (scanHistorySegments entries) boundary).1
        turnId (P.midTurnTails entries tails budget))
  | summarized {budget boundary floor : Nat} {summary : String} (allowed : P.policy.budget = .ok budget)
      (chosen : P.midTurnBoundary budget (scanHistorySegments entries) tails true = some boundary)
      (retained : (compactionSource (P.midTurnFitting entries boundary) boundary P.policy.compaction).1 = some floor)
      (trusted : P.breakerTripped = false)
      (summarized : P.summarize (compactionSource (P.midTurnFitting entries boundary) boundary
        P.policy.compaction).2 = some summary) :
      Rebuild (assembleMidTurnRequest P.system (some summary) ((P.midTurnFitting entries boundary).drop boundary)
        turnId (P.midTurnTails entries tails budget))

theorem shrinks_forced_iff {messages current : List Message} : P.shrinks true messages current = true ↔
    P.wire messages < P.wire current ∧ P.fits messages = true := by
  rw [shrinks, Bool.and_eq_true]
  simp

theorem fits_iff {messages : List Message} : P.fits messages = true ↔
    ∃ budget, P.policy.budget = .ok budget ∧ P.wire messages ≤ budget := by
  unfold fits enforceBudget wire
  cases P.policy.budget with
  | error error => simp
  | ok budget =>
      by_cases beyond : wireBytes P.floats messages > budget
      · simp [beyond]
      · simp [beyond, Nat.le_of_not_lt beyond]

variable {P entries turnId tails}

/-- With recovery forced, the elision tier is taken exactly if there are results and their skeletons shrink. -/
theorem midTurnElision_forced {budget boundary : Nat} {segments : List HistorySegment} {reactive : Bool}
    {current : List Message} {card : CompactionCard} {fitting : List HistorySegment}
    (made : P.midTurnElision budget segments boundary reactive true tails turnId current = (some card, fitting)) :
    P.policy.compaction.strategy = .elideToolResultsThenSummarize ∧ (elidePrefix P.fromStr segments boundary).2 ≠ [] ∧
      fitting = (elidePrefix P.fromStr segments boundary).1 ∧
      P.shrinks true (assembleMidTurnRequest P.system none fitting turnId tails) current = true := by
  unfold midTurnElision at made
  split at made
  case isTrue => cases made
  case isFalse strategy =>
    simp only at made
    split at made
    case isTrue shrunk =>
      cases made
      exact ⟨Decidable.not_not.mp strategy, shrunk.1, rfl, shrunk.2.2⟩
    case isFalse => cases made

theorem midTurnElision_refused {budget boundary : Nat} {segments : List HistorySegment} {reactive : Bool}
    {current : List Message} {fitting : List HistorySegment}
    (refused : P.midTurnElision budget segments boundary reactive true tails turnId current = (none, fitting)) :
    fitting = (if P.policy.compaction.strategy = .elideToolResultsThenSummarize then
        (elidePrefix P.fromStr segments boundary).1 else segments) ∧
      (P.policy.compaction.strategy = .elideToolResultsThenSummarize →
        (elidePrefix P.fromStr segments boundary).2 ≠ [] →
          P.shrinks true (assembleMidTurnRequest P.system none (elidePrefix P.fromStr segments boundary).1 turnId tails)
            current = false) := by
  unfold midTurnElision at refused
  split at refused
  case isTrue other =>
    cases refused
    exact ⟨(if_neg other).symm, fun strategy => absurd strategy other⟩
  case isFalse strategy =>
    have strategy := Decidable.not_not.mp strategy
    simp only at refused
    split at refused
    case isTrue => cases refused
    case isFalse longer =>
      cases refused
      refine ⟨(if_pos strategy).symm, fun _ results => Bool.of_not_eq_true fun shrunk => longer ?_⟩
      exact ⟨results, rfl, shrunk⟩

/-- The summary tier of a recovery: a summary behind a retained suffix, if that shrinks. -/
theorem midTurnSummarize_forced {boundary : Nat} {fitting : List HistorySegment} {current : List Message}
    {card : CompactionCard} (made : P.midTurnSummarize fitting boundary true tails turnId current = some card) :
    ∃ floor summary, (compactionSource fitting boundary P.policy.compaction).1 = some floor ∧
      P.breakerTripped = false ∧ P.summarize (compactionSource fitting boundary P.policy.compaction).2 = some summary ∧
      card = .summary (throughSequence fitting boundary) (some floor) summary ∧
      P.shrinks true (assembleMidTurnRequest P.system (some summary) (fitting.drop boundary) turnId tails) current =
        true := by
  unfold midTurnSummarize at made
  generalize source : compactionSource fitting boundary P.policy.compaction = found at made ⊢
  obtain ⟨_ | floor, text⟩ := found
  · cases made
  · simp only [true_and, if_true] at made
    split at made
    case isTrue => cases made
    case isFalse trusted =>
      split at made
      case h_1 => cases made
      case h_2 summary summarized =>
        split at made
        case isTrue shrunk =>
          cases made
          exact ⟨floor, summary, rfl, Bool.of_not_eq_true trusted, summarized, rfl, shrunk⟩
        case isFalse => cases made

theorem midTurnSummarize_refused {boundary floor : Nat} {summary : String} {fitting : List HistorySegment}
    {current : List Message} (refused : P.midTurnSummarize fitting boundary true tails turnId current = none)
    (retained : (compactionSource fitting boundary P.policy.compaction).1 = some floor)
    (trusted : P.breakerTripped = false)
    (summarized : P.summarize (compactionSource fitting boundary P.policy.compaction).2 = some summary) :
    P.shrinks true (assembleMidTurnRequest P.system (some summary) (fitting.drop boundary) turnId tails) current =
      false := by
  unfold midTurnSummarize at refused
  generalize compactionSource fitting boundary P.policy.compaction = found at refused retained summarized
  obtain ⟨_ | _, text⟩ := found
  · cases retained
  · simp only [trusted, summarized, Bool.false_eq_true, and_false, if_false, if_true] at refused
    split at refused
    · cases refused
    case isFalse longer => exact Bool.of_not_eq_true longer

/-- What a forced compaction goes on with is a rebuilt request, shorter than the rejected one and within the budget. -/
theorem compactMidTurn_rebuild {current messages : List Message} {card : CompactionCard}
    (compacted : P.compactMidTurn entries turnId tails current true = .ok (some (card, messages))) :
    P.Rebuild entries turnId tails messages ∧ P.shrinks true messages current = true := by
  unfold compactMidTurn at compacted
  split at compacted
  case h_1 => cases compacted
  case h_2 budget allowed =>
    simp only at compacted
    split at compacted
    case h_1 => cases compacted
    case h_2 boundary chosen =>
      split at compacted
      case h_1 made =>
        cases compacted
        obtain ⟨strategy, results, rfl, shrunk⟩ := midTurnElision_forced made
        exact ⟨.elided allowed chosen strategy results, shrunk⟩
      case h_2 fitting refused =>
        obtain ⟨found, made, same⟩ := Option.map_eq_some_iff.mp (Except.ok.inj compacted)
        obtain ⟨floor, summary, retained, trusted, summarized, rfl, shrunk⟩ := midTurnSummarize_forced made
        obtain ⟨rfl, _⟩ := midTurnElision_refused refused
        cases same
        exact ⟨.summarized allowed chosen retained trusted summarized, shrunk⟩

/-- A forced compaction that leaves no card has no shorter request within the budget. -/
theorem compactMidTurn_none {current messages : List Message}
    (compacted : P.compactMidTurn entries turnId tails current true = .ok none)
    (rebuild : P.Rebuild entries turnId tails messages) : P.shrinks true messages current = false := by
  have walked : ∀ {budget boundary : Nat}, P.policy.budget = .ok budget →
      P.midTurnBoundary budget (scanHistorySegments entries) tails true = some boundary →
      ∃ reactive fitting, P.midTurnElision budget (scanHistorySegments entries) boundary reactive true
        (P.midTurnTails entries tails budget) turnId current = (none, fitting) ∧
        P.midTurnSummarize fitting boundary true (P.midTurnTails entries tails budget) turnId current = none := by
    intro budget boundary allowed chosen
    unfold compactMidTurn at compacted
    simp only [allowed, chosen] at compacted
    split at compacted
    case h_1 => cases compacted
    case h_2 fitting refused =>
      exact ⟨_, fitting, refused, Option.map_eq_none_iff.mp (Except.ok.inj compacted)⟩
  cases rebuild with
  | elided allowed chosen strategy results =>
      obtain ⟨reactive, fitting, refused, _⟩ := walked allowed chosen
      exact (midTurnElision_refused refused).2 strategy results
  | summarized allowed chosen retained trusted summarized =>
      obtain ⟨reactive, fitting, refused, unsummarized⟩ := walked allowed chosen
      obtain ⟨rfl, _⟩ := midTurnElision_refused refused
      exact midTurnSummarize_refused unsummarized retained trusted summarized

end Planner

/-! ## One turn -/

def elisionAuditText (sequences : List Nat) : String :=
  toString sequences.length ++ " older tool result(s) elided into deterministic skeletons to free request budget"

namespace CompactionCard

/-- The append that asks for the card, after so many tool rounds. -/
def appendIn (turnId : TurnId) (round : Nat) : CompactionCard → CompactionAppend
  | elision _ => ⟨turnId, .tier .elided, .round round⟩
  | summary .. => ⟨turnId, .tier .summarized, .round round⟩
  | failure => ⟨turnId, .failed, .roundFailed⟩

def update (turnId : TurnId) (round : Nat) (card : CompactionCard) : CommitSessionTurnUpdate :=
  match card with
  | elision sequences => .appendTranscript (card.appendIn turnId round).sourceKey .toolResultElision
      (elisionAuditText sequences) (some (elisionPayload sequences))
  | summary through floor text => .appendTranscript (card.appendIn turnId round).sourceKey .compactSummary text
      (some (summaryPayload through floor))
  | failure => .appendTranscript (card.appendIn turnId round).sourceKey .system
      "context compaction failed; continuing without a summary" none

end CompactionCard

/-- The snapshot that the loop holds: its revision, and the transcript that it shows. -/
structure LoopSnapshot where
  revision : Nat
  entries : List TranscriptEntry

inductive ToolBatchOutcome where
  | completed (snapshot : LoopSnapshot) (messages : List Message)
  /-- The turn waits for a permission, or it left the running lifecycle. -/
  | parked (waiting : Bool)

inductive RoundFlow where
  | continued (snapshot : LoopSnapshot) (messages : List Message)
  | recovered (snapshot : LoopSnapshot) (messages : List Message)
  /-- The turn waits for a permission or an input, or it is over. -/
  | done (waiting : Bool)

/-- One answer of the provider, with what the step meets around it. -/
structure Answer where
  /-- The profile, the summarizer and the breaker at this step. -/
  planner : Planner
  knownTools : List String
  /-- The persisted counter, read before the request. -/
  round : Nat
  output : Except ProviderError ProviderResponse
  /-- What the batch comes to, if the answer opens one. -/
  batch : ToolBatchOutcome
  /-- How the store takes the card of a compaction: its snapshot shows these entries. -/
  stored : Except StorageError (List TranscriptEntry)

/-- The variables of the loop in `run_provider_turn`. -/
structure TurnLoop where
  snapshot : LoopSnapshot
  messages : List Message
  volatile : VolatileTurnContext
  overflowRetried : Bool

/-- The updates that a step asks for, as far as the first of its answer, and where it goes. -/
structure StepReport where
  commits : List CommitSessionTurnUpdate
  flow : Except SessionRuntimeError RoundFlow

def OVERFLOWED : String :=
  "provider rejected the request as over its context window and no older history could be shrunk"

namespace Answer

variable (answer : Answer) (turnId : TurnId)

/-- `maybe_compact_mid_turn` with its commit, which raises the revision. -/
def maybeCompact (round : Nat) (forced : Bool) (snapshot : LoopSnapshot) (messages : List Message)
    (volatile : VolatileTurnContext) :
    List CommitSessionTurnUpdate × Except SessionRuntimeError (LoopSnapshot × List Message) :=
  match answer.planner.compactMidTurn snapshot.entries turnId volatile messages forced with
  | .error error => ([], .error error)
  | .ok none => ([], .ok (snapshot, messages))
  | .ok (some (card, rebuilt)) => ([card.update turnId round],
      match answer.stored with
      | .ok entries => .ok (⟨snapshot.revision + 1, entries⟩, rebuilt)
      | .error error => .error (.storage error))

def failRetryable (message : String) : CommitSessionTurnUpdate :=
  failUpdate answer.planner.toRedactor turnId .retryable message

/-- One recovery: a revision that did not move means that nothing could be shrunk. -/
def recoverOverflow (loop : TurnLoop) : StepReport :=
  let (commits, rebased) := answer.maybeCompact turnId answer.round true loop.snapshot loop.messages loop.volatile
  match rebased with
  | .error error => ⟨commits, .error error⟩
  | .ok (snapshot, messages) =>
      if snapshot.revision = loop.snapshot.revision then
        ⟨commits ++ [answer.failRetryable turnId OVERFLOWED], .ok (.done false)⟩
      else ⟨commits, .ok (.recovered snapshot messages)⟩

/-- The text of the final gate, which only fails with a history error. -/
def gateText : SessionRuntimeError → String
  | .history message => "session history: " ++ message
  | _ => ""

def contextOf (loop : TurnLoop) : StepContext where
  turnId := turnId
  maxToolRounds := answer.planner.policy.maxToolRounds
  round := answer.round
  overflowRetried := loop.overflowRetried
  knownTools := answer.knownTools

def runProviderStep (loop : TurnLoop) : StepReport :=
  match enforceBudget answer.planner.floats loop.messages answer.planner.policy with
  | .error error => ⟨[answer.failRetryable turnId (gateText error)], .ok (.done false)⟩
  | .ok () =>
      let decision := decideStep (answer.contextOf turnId loop) answer.output
      let commits := (decision.update answer.planner.toRedactor turnId).toList
      match decision with
      | .shrink => answer.recoverOverflow turnId loop
      | .openRound .. =>
          match answer.batch with
          | .completed snapshot messages => ⟨commits, .ok (.continued snapshot messages)⟩
          | .parked waiting => ⟨commits, .ok (.done waiting)⟩
      | .requestInput _ => ⟨commits, .ok (.done true)⟩
      | _ => ⟨commits, .ok (.done false)⟩

end Answer

inductive TurnLife where
  | waiting
  | running (loop : TurnLoop)
  | ended

/-- A turn, and how often it has recovered from an overflow. -/
structure RecoveringTurn where
  life : TurnLife
  recoveries : Nat

def RecoveringTurn.start : RecoveringTurn := ⟨.waiting, 0⟩

inductive TurnEvent where
  /-- `run_provider_turn` is called: for the new turn, after an approval, after an answer. -/
  | enter (snapshot : LoopSnapshot) (messages : List Message) (volatile : VolatileTurnContext)
  | answer (answer : Answer)
  /-- The lease is lost, or the process ends. -/
  | lost

namespace RecoveringTurn

variable (turnId : TurnId)

/-- One iteration of the loop; the batch has raised the counter by the time of the compaction after it. -/
def iterate (turn : RecoveringTurn) (loop : TurnLoop) (answer : Answer) : RecoveringTurn :=
  match (answer.runProviderStep turnId loop).flow with
  | .error _ => { turn with life := .ended }
  | .ok (.done waiting) => { turn with life := if waiting then .waiting else .ended }
  | .ok (.continued snapshot messages) =>
      match (answer.maybeCompact turnId (answer.round + 1) false snapshot messages loop.volatile).2 with
      | .error _ => { turn with life := .ended }
      | .ok (snapshot, messages) =>
          { turn with life := .running { loop with snapshot := snapshot, messages := messages } }
  | .ok (.recovered snapshot messages) => {
      life := .running { loop with snapshot := snapshot, messages := messages, overflowRetried := true }
      recoveries := turn.recoveries + 1 }

def step (turn : RecoveringTurn) (event : TurnEvent) : RecoveringTurn :=
  match turn.life, event with
  | .waiting, .enter snapshot messages volatile =>
      { turn with life := .running ⟨snapshot, messages, volatile, false⟩ }
  | .running loop, .answer answer => turn.iterate turnId loop answer
  | .running _, .lost => { turn with life := .ended }
  | _, _ => turn

end RecoveringTurn

/-- The turn before the `k`th event. -/
abbrev turnAt (turnId : TurnId) (events : List TurnEvent) (k : Nat) : RecoveringTurn :=
  stateAt (RecoveringTurn.step turnId) .start events k

/-- What the loop makes of the requests that the provider rejects as over its window. -/
structure RecoversOnce (turnId : TurnId) (events : List TurnEvent) : Prop where
  once : ∀ k, k ≤ events.length → (turnAt turnId events k).recoveries ≤ 1
  shrinks : ∀ k (bound : k < events.length) (loop : TurnLoop) (answer : Answer) (snapshot : LoopSnapshot)
    (messages : List Message), (turnAt turnId events k).life = .running loop → events[k] = .answer answer →
      (answer.runProviderStep turnId loop).flow = .ok (.recovered snapshot messages) →
        answer.planner.wire messages < answer.planner.wire loop.messages ∧
          ∃ budget, answer.planner.policy.budget = .ok budget ∧ answer.planner.wire messages ≤ budget
  fails : ∀ k (bound : k < events.length) (loop : TurnLoop) (answer : Answer) (requestId : String),
    (turnAt turnId events k).life = .running loop → events[k] = .answer answer →
      answer.output = .error (.contextOverflow requestId) →
        (∀ messages, answer.planner.Rebuild loop.snapshot.entries turnId loop.volatile messages →
          ¬ (answer.planner.wire messages < answer.planner.wire loop.messages ∧ answer.planner.fits messages = true)) →
            ∃ message, answer.runProviderStep turnId loop =
              ⟨[answer.failRetryable turnId message], .ok (.done false)⟩

/-- The provider rejects the request of a loop that has not recovered yet, and a shorter one within the budget can be
built from the transcript. -/
structure Recoverable (turnId : TurnId) (loop : TurnLoop) (answer : Answer) : Prop where
  fresh : loop.overflowRetried = false
  sent : answer.planner.fits loop.messages = true
  rejected : ∃ requestId, answer.output = .error (.contextOverflow requestId)
  shorter : ∃ messages, answer.planner.Rebuild loop.snapshot.entries turnId loop.volatile messages ∧
    answer.planner.wire messages < answer.planner.wire loop.messages ∧ answer.planner.fits messages = true
  stored : ∃ entries, answer.stored = .ok entries

/-- A turn that has recovered meets no such request again. -/
def Unrepeated (turnId : TurnId) (turn : RecoveringTurn) (event : TurnEvent) : Prop :=
  turn.recoveries = 0 ∨ ∀ loop answer, turn.life = .running loop → event = .answer answer →
    ¬ Recoverable turnId loop answer

/-! ## One step -/

theorem decideStep_shrink {context : StepContext} {output : Except ProviderError ProviderResponse} :
    decideStep context output = .shrink ↔
      context.overflowRetried = false ∧ ∃ requestId, output = .error (.contextOverflow requestId) := by
  constructor
  · intro shrink
    cases output with
    | ok response =>
        simp only [decideStep, decideResponse] at shrink
        split at shrink
        · cases shrink
        split at shrink
        · split at shrink <;> cases shrink
        split at shrink
        · split at shrink
          · cases shrink
          · split at shrink <;> cases shrink
        · split at shrink <;> cases shrink
    | error error =>
        cases error with
        | contextOverflow requestId =>
            simp only [decideStep] at shrink
            split at shrink
            · cases shrink
            case isFalse fresh => exact ⟨Bool.of_not_eq_true fresh, requestId, rfl⟩
        | cancelled | capability | http | timeout | transport | malformed => cases shrink
  · rintro ⟨fresh, requestId, rfl⟩
    simp only [decideStep, fresh, Bool.false_eq_true, if_false]

namespace Answer

variable {answer : Answer} {turnId : TurnId} {loop : TurnLoop}

theorem recoverOverflow_none (compacted : answer.planner.compactMidTurn loop.snapshot.entries turnId loop.volatile
    loop.messages true = .ok none) : answer.recoverOverflow turnId loop =
      ⟨[answer.failRetryable turnId OVERFLOWED], .ok (.done false)⟩ := by
  unfold recoverOverflow maybeCompact
  simp only [compacted, if_true]
  rfl

theorem recoverOverflow_stored {card : CompactionCard} {messages : List Message} {entries : List TranscriptEntry}
    (compacted : answer.planner.compactMidTurn loop.snapshot.entries turnId loop.volatile loop.messages true =
      .ok (some (card, messages))) (stored : answer.stored = .ok entries) : answer.recoverOverflow turnId loop =
        ⟨[card.update turnId answer.round], .ok (.recovered ⟨loop.snapshot.revision + 1, entries⟩ messages)⟩ := by
  unfold recoverOverflow maybeCompact
  simp only [compacted, stored]
  exact if_neg (Nat.succ_ne_self _)

/-- A recovery is taken with a rebuilt request that shrinks, whose card was stored. -/
theorem recoverOverflow_recovered {snapshot : LoopSnapshot} {messages : List Message}
    (recovered : (answer.recoverOverflow turnId loop).flow = .ok (.recovered snapshot messages)) :
    (∃ card, answer.planner.compactMidTurn loop.snapshot.entries turnId loop.volatile loop.messages true =
      .ok (some (card, messages))) ∧ ∃ entries, answer.stored = .ok entries := by
  cases compacted : answer.planner.compactMidTurn loop.snapshot.entries turnId loop.volatile loop.messages true with
  | error error =>
      unfold recoverOverflow maybeCompact at recovered
      simp only [compacted] at recovered
      cases recovered
  | ok found =>
      cases found with
      | none =>
          rw [recoverOverflow_none compacted] at recovered
          cases recovered
      | some pair =>
          obtain ⟨card, rebuilt⟩ := pair
          cases stored : answer.stored with
          | error error =>
              unfold recoverOverflow maybeCompact at recovered
              simp only [compacted, stored] at recovered
              cases recovered
          | ok entries =>
              rw [recoverOverflow_stored compacted stored] at recovered
              cases recovered
              exact ⟨⟨card, rfl⟩, entries, rfl⟩

/-- A rejected request whose gate was passed goes to the recovery, once for a loop. -/
theorem runProviderStep_rejected {requestId : String} (fresh : loop.overflowRetried = false)
    (sent : answer.planner.fits loop.messages = true) (rejected : answer.output = .error (.contextOverflow requestId)) :
    answer.runProviderStep turnId loop = answer.recoverOverflow turnId loop := by
  have shrink : decideStep (answer.contextOf turnId loop) answer.output = .shrink :=
    decideStep_shrink.mpr ⟨fresh, requestId, rejected⟩
  unfold runProviderStep
  unfold Planner.fits at sent
  split at sent
  case h_1 passed => simp only [passed, shrink]
  case h_2 => cases sent

theorem runProviderStep_recovered {snapshot : LoopSnapshot} {messages : List Message}
    (recovered : (answer.runProviderStep turnId loop).flow = .ok (.recovered snapshot messages)) :
    loop.overflowRetried = false ∧ answer.planner.fits loop.messages = true ∧
      (∃ requestId, answer.output = .error (.contextOverflow requestId)) ∧
      (answer.recoverOverflow turnId loop).flow = .ok (.recovered snapshot messages) := by
  unfold runProviderStep at recovered
  split at recovered
  case h_1 => cases recovered
  case h_2 passed =>
    simp only at recovered
    have sent : answer.planner.fits loop.messages = true := by rw [Planner.fits, passed]
    split at recovered
    case h_1 shrink =>
      obtain ⟨fresh, rejected⟩ := decideStep_shrink.mp shrink
      exact ⟨fresh, sent, rejected, recovered⟩
    case h_2 =>
      split at recovered
      · cases recovered
      · cases recovered
    case h_3 => cases recovered
    case h_4 => cases recovered

/-- A compaction only fails without a budget. -/
theorem compactMidTurn_ok {P : Planner} {entries : List TranscriptEntry} {tails : VolatileTurnContext}
    {current sent : List Message} {forced : Bool} (fits : P.fits sent = true) :
    ∃ found, P.compactMidTurn entries turnId tails current forced = .ok found := by
  obtain ⟨budget, allowed, _⟩ := P.fits_iff.mp fits
  unfold Planner.compactMidTurn
  simp only [allowed]
  split
  · exact ⟨_, rfl⟩
  · split
    · exact ⟨_, rfl⟩
    · exact ⟨_, rfl⟩

theorem recovered_iff :
    (∃ snapshot messages, (answer.runProviderStep turnId loop).flow = .ok (.recovered snapshot messages)) ↔
      Recoverable turnId loop answer := by
  constructor
  · rintro ⟨snapshot, messages, recovered⟩
    obtain ⟨fresh, sent, rejected, recovered⟩ := runProviderStep_recovered recovered
    obtain ⟨⟨card, compacted⟩, stored⟩ := recoverOverflow_recovered recovered
    obtain ⟨rebuild, shrunk⟩ := Planner.compactMidTurn_rebuild compacted
    exact ⟨fresh, sent, rejected, ⟨messages, rebuild, answer.planner.shrinks_forced_iff.mp shrunk⟩, stored⟩
  · rintro ⟨fresh, sent, ⟨requestId, rejected⟩, ⟨messages, rebuild, shorter⟩, entries, stored⟩
    obtain ⟨found, compacted⟩ := @compactMidTurn_ok turnId answer.planner loop.snapshot.entries loop.volatile
      loop.messages loop.messages true sent
    cases found with
    | none =>
        have refused := Planner.compactMidTurn_none compacted rebuild
        rw [answer.planner.shrinks_forced_iff.mpr shorter] at refused
        cases refused
    | some pair =>
        obtain ⟨card, rebuilt⟩ := pair
        rw [runProviderStep_rejected fresh sent rejected, recoverOverflow_stored compacted stored]
        exact ⟨_, _, rfl⟩

/-- A recovery goes on with fewer bytes than were rejected, within the budget. -/
theorem recovered_shrinks {snapshot : LoopSnapshot} {messages : List Message}
    (recovered : (answer.runProviderStep turnId loop).flow = .ok (.recovered snapshot messages)) :
    answer.planner.wire messages < answer.planner.wire loop.messages ∧
      ∃ budget, answer.planner.policy.budget = .ok budget ∧ answer.planner.wire messages ≤ budget := by
  obtain ⟨_, _, _, taken⟩ := runProviderStep_recovered recovered
  obtain ⟨⟨card, compacted⟩, _⟩ := recoverOverflow_recovered taken
  obtain ⟨fewer, fits⟩ := answer.planner.shrinks_forced_iff.mp (Planner.compactMidTurn_rebuild compacted).2
  exact ⟨fewer, answer.planner.fits_iff.mp fits⟩

/-- With nothing to shrink, the failure of the turn is all that a rejected request leaves. -/
theorem rejected_fails {requestId : String} (rejected : answer.output = .error (.contextOverflow requestId))
    (longer : ∀ messages, answer.planner.Rebuild loop.snapshot.entries turnId loop.volatile messages →
      ¬ (answer.planner.wire messages < answer.planner.wire loop.messages ∧ answer.planner.fits messages = true)) :
    ∃ message, answer.runProviderStep turnId loop =
      ⟨[answer.failRetryable turnId message], .ok (.done false)⟩ := by
  cases gate : enforceBudget answer.planner.floats loop.messages answer.planner.policy with
  | error error =>
      refine ⟨gateText error, ?_⟩
      unfold runProviderStep
      simp only [gate]
  | ok passed =>
      have sent : answer.planner.fits loop.messages = true := by rw [Planner.fits, gate]
      cases retried : loop.overflowRetried with
      | true =>
          have spent : decideStep (answer.contextOf turnId loop) answer.output =
              .fail .retryable ("provider: " ++ (ProviderError.contextOverflow requestId).toString) := by
            rw [rejected, decideStep, contextOf, retried]
            rfl
          refine ⟨"provider: " ++ (ProviderError.contextOverflow requestId).toString, ?_⟩
          unfold runProviderStep
          simp only [gate, spent]
          rfl
      | false =>
          refine ⟨OVERFLOWED, ?_⟩
          rw [runProviderStep_rejected retried sent rejected]
          obtain ⟨found, compacted⟩ := @compactMidTurn_ok turnId answer.planner loop.snapshot.entries loop.volatile
            loop.messages loop.messages true sent
          cases found with
          | none => exact recoverOverflow_none compacted
          | some pair =>
              obtain ⟨card, messages⟩ := pair
              obtain ⟨rebuild, shrunk⟩ := Planner.compactMidTurn_rebuild compacted
              exact absurd (answer.planner.shrinks_forced_iff.mp shrunk) (longer messages rebuild)

end Answer

/-! ## Runs -/

namespace RecoveringTurn

variable {turnId : TurnId} {turn : RecoveringTurn}

theorem iterate_recoveries (loop : TurnLoop) (answer : Answer) :
    (Recoverable turnId loop answer ∧ (turn.iterate turnId loop answer).recoveries = turn.recoveries + 1) ∨
      (¬ Recoverable turnId loop answer ∧ (turn.iterate turnId loop answer).recoveries = turn.recoveries) := by
  have taken := @Answer.recovered_iff answer turnId loop
  unfold iterate
  generalize answer.runProviderStep turnId loop = report at taken
  cases flow : report.flow with
  | error error =>
      refine .inr ⟨fun recoverable => ?_, rfl⟩
      obtain ⟨_, _, recovered⟩ := taken.mpr recoverable
      rw [flow] at recovered
      cases recovered
  | ok next =>
      cases next with
      | recovered snapshot messages => exact .inl ⟨taken.mp ⟨snapshot, messages, flow⟩, rfl⟩
      | continued snapshot messages =>
          refine .inr ⟨fun recoverable => ?_, ?_⟩
          · obtain ⟨_, _, recovered⟩ := taken.mpr recoverable
            rw [flow] at recovered
            cases recovered
          · simp only
            split
            · rfl
            · rfl
      | done waiting =>
          refine .inr ⟨fun recoverable => ?_, rfl⟩
          obtain ⟨_, _, recovered⟩ := taken.mpr recoverable
          rw [flow] at recovered
          cases recovered

/-- A step keeps the bound exactly if a turn that has recovered does not recover again. -/
theorem step_once (turn : RecoveringTurn) (event : TurnEvent) : (turn.step turnId event).recoveries ≤ 1 ↔
    turn.recoveries ≤ 1 ∧ Unrepeated turnId turn event := by
  have quiet : (∀ loop answer, turn.life = .running loop → event ≠ .answer answer) →
      (turn.recoveries ≤ 1 ↔ turn.recoveries ≤ 1 ∧ Unrepeated turnId turn event) := fun silent =>
    (and_iff_left (.inr fun loop answer running answers => absurd answers (silent loop answer running))).symm
  unfold step
  split
  case h_1 waiting => exact quiet fun loop answer running => absurd (waiting.symm.trans running) nofun
  case h_2 loop answer running =>
    have unrepeated : Unrepeated turnId turn (.answer answer) ↔
        turn.recoveries = 0 ∨ ¬ Recoverable turnId loop answer := by
      refine or_congr_right ⟨fun refused => refused loop answer running rfl, fun refused => ?_⟩
      rintro other given shown ⟨⟩
      cases running.symm.trans shown
      exact refused
    rw [unrepeated]
    rcases @iterate_recoveries turnId turn loop answer with ⟨recoverable, counted⟩ | ⟨unrecoverable, counted⟩
    · rw [counted]
      constructor
      · intro once
        exact ⟨by omega, .inl (by omega)⟩
      · rintro ⟨_, none | refused⟩
        · omega
        · exact absurd recoverable refused
    · rw [counted]
      exact (and_iff_left (.inr unrecoverable)).symm
  case h_3 => exact quiet fun loop answer running => nofun
  case h_4 other entering answering losing =>
    exact quiet fun loop answer running answers => answering loop answer running answers

end RecoveringTurn

/-- A turn recovers once exactly if no loop that is entered after its recovery meets such a request again. -/
theorem recovers_once_iff (turnId : TurnId) (events : List TurnEvent) : RecoversOnce turnId events ↔
    ∀ k (bound : k < events.length), Unrepeated turnId (turnAt turnId events k) events[k] := by
  have throughout := @invariant_iff _ _ (RecoveringTurn.step turnId) .start events (fun turn => turn.recoveries ≤ 1)
    (Unrepeated turnId) (Nat.zero_le 1) RecoveringTurn.step_once
  constructor
  · intro rule
    exact throughout.mp rule.once
  · intro unrepeated
    refine ⟨throughout.mpr unrepeated, ?_, ?_⟩
    · intro k bound loop answer snapshot messages _ _ recovered
      exact Answer.recovered_shrinks recovered
    · intro k bound loop answer requestId _ _ rejected longer
      exact Answer.rejected_fails rejected longer

/-! ## Two recoveries in one turn -/

def fileValue : Json := .ofMembers [("content", .string (String.ofList (List.replicate 60 'b')))]

def fileText : String := "\x7b\"content\":\"" ++ String.ofList (List.replicate 60 'b') ++ "\"\x7d"

/-- Skeletons in the shrink prefix; of 1000 bytes, 500 are retained. -/
def elidingPlanner : Planner :=
  { samplePlanner with
    fromStr := fun text => if text = fileText then .ok fileValue else .error "expected value"
    policy := { samplePlanner.policy with
      maxRequestBytes := 1000
      maxInputBytes := 2000
      compaction := ⟨.elideToolResultsThenSummarize, 100, 50, 1000⟩ } }

def callCard (sequence : Nat) (id name : String) : TranscriptEntry :=
  sampleEntry sequence .assistant "" (some (.ofMembers [("tool_calls", toolCallsValue [⟨id, name, .object .nil⟩])]))

def resultCard (sequence : Nat) (id name : String) : TranscriptEntry :=
  sampleEntry sequence .toolResult fileText (some (.ofMembers [("provider_content", .string fileText),
    ("tool_call_id", .string id), ("name", .string name)]))

/-- Two turns that read a file each. -/
def olderTurns : List TranscriptEntry :=
  [sampleEntry 1 .user "read a" none, callCard 2 "c1" "read_file", sampleEntry 3 .toolCall "read_file" none,
    sampleEntry 4 .system "tool started" none, resultCard 5 "c1" "read_file", sampleEntry 6 .assistant "done" none,
    sampleEntry 7 .user "read b" none, callCard 8 "c2" "read_file", sampleEntry 9 .toolCall "read_file" none,
    sampleEntry 10 .system "tool started" none, resultCard 11 "c2" "read_file", sampleEntry 12 .assistant "done" none]

def openedTurn : List TranscriptEntry :=
  olderTurns ++ [{ sampleEntry 13 .user "list c" none with turnId := some sampleTurn }]

/-- The first recovery elides the older file. -/
def elidedOnce : List TranscriptEntry :=
  openedTurn ++ [sampleEntry 14 .toolResultElision (elisionAuditText [5]) (some (elisionPayload [5]))]

/-- After it the turn asks for a command, which is approved and runs. -/
def approvedTurn : List TranscriptEntry :=
  elidedOnce ++ [callCard 15 "c3" "process", sampleEntry 16 .toolCall "process" none,
    sampleEntry 17 .system "permission allowed" none, sampleEntry 18 .system "tool started" none,
    resultCard 19 "c3" "process"]

/-- The second recovery elides both files. -/
def elidedTwice : List TranscriptEntry :=
  approvedTurn ++ [sampleEntry 20 .toolResultElision (elisionAuditText [5, 11]) (some (elisionPayload [5, 11]))]

/-- The request that an approval rebuilds from the transcript. -/
def rebuiltRequest (entries : List TranscriptEntry) : List Message :=
  assembleMidTurnRequest elidingPlanner.system none (scanHistorySegments entries) sampleTurn ⟨none, none⟩

def rejectedAnswer (round : Nat) (entries : List TranscriptEntry) : Answer where
  planner := elidingPlanner
  knownTools := ["read_file", "process"]
  round := round
  output := .error (.contextOverflow " (request 1)")
  batch := .parked false
  stored := .ok entries

/-- A command that waits for its permission. -/
def commandAnswer : Answer :=
  { rejectedAnswer 0 [] with
    output := .ok ⟨none, [⟨"c3", "process", .object .nil⟩], none, ⟨none, none, none, none⟩, some .toolCalls, none⟩
    batch := .parked true }

def overflowTwice : List TurnEvent :=
  [.enter ⟨13, openedTurn⟩ (rebuiltRequest openedTurn) ⟨none, none⟩, .answer (rejectedAnswer 0 elidedOnce),
    .answer commandAnswer, .enter ⟨19, approvedTurn⟩ (rebuiltRequest approvedTurn) ⟨none, none⟩,
    .answer (rejectedAnswer 1 elidedTwice)]

/-- The approval starts the loop anew, and with it the count of recoveries. -/
theorem overflowTwice_recovers : ¬ ∀ turnId events, RecoversOnce turnId events := by
  intro claim
  have twice : (turnAt sampleTurn overflowTwice 5).recoveries = 2 := by decide +kernel
  have once := (claim sampleTurn overflowTwice).once 5 (by decide)
  rw [twice] at once
  exact absurd once (by decide)

end LatteCode.Headless
