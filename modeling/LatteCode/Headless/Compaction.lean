import LatteCode.Headless.Request
/- Context compaction: elision, the retained suffix, and the three places that choose a boundary. -/

namespace LatteCode.Headless

section Elision

variable (fromStr : String → Except String Json)

def toolMessage (id : String) : Message → Option (Option String × String)
  | .tool toolCallId name content => if toolCallId = id then some (name, content) else none
  | _ => none

/-- The recorded results of a segment with their original contents. -/
def elisionTargets (segment : HistorySegment) : List (Nat × String × String) :=
  segment.toolResults.filterMap fun result =>
    (segment.messages.findSome? (toolMessage result.2)).map fun found => (result.1, result.2, found.2)

def skeletonOf (name : Option String) (original : String) : String :=
  elidedToolSkeleton name original ((fromStr original).toOption.getD (.object .nil))

/-- Replaces every answer of one call by its skeleton, in the messages and in the text. -/
def elideTarget (segment : HistorySegment) (target : Nat × String × String) : HistorySegment :=
  let id := target.2.1
  let original := target.2.2
  let name := ((segment.messages.filterMap (toolMessage id)).getLast?).bind Prod.fst
  { segment with
    messages := segment.messages.map fun message =>
      match message with
      | .tool toolCallId name content =>
          if toolCallId = id then .tool toolCallId name (skeletonOf fromStr name original)
          else .tool toolCallId name content
      | other => other
    text := segment.text.replace ("[tool]\n" ++ original ++ "\n")
      ("[tool]\n" ++ skeletonOf fromStr name original ++ "\n") }

def elideSegment (segment : HistorySegment) : HistorySegment :=
  (elisionTargets segment).foldl (elideTarget fromStr) segment

/-- Skeletonizes the tool results below the boundary and lists their sequences. -/
def elidePrefix (segments : List HistorySegment) (boundary : Nat) : List HistorySegment × List Nat :=
  ((segments.take boundary).map (elideSegment fromStr) ++ segments.drop boundary,
    (segments.take boundary).flatMap fun segment => (elisionTargets segment).map Prod.fst)

end Elision

section Boundary

variable (F : FloatFormat)

/-- The newest-first walk: whole segments up to the allowance, the newest always. -/
def retainWalk (retainBytes : Nat) (segments : List HistorySegment) : Nat → Nat → Nat → Nat
  | 0, boundary, _ => boundary
  | index + 1, boundary, accumulated =>
      match segments[index]? with
      | none => boundary
      | some segment =>
          if segment.fromSummary then index + 1
          else if accumulated = 0 then retainWalk retainBytes segments index index (wireBytes F segment.messages)
          else if accumulated + wireBytes F segment.messages > retainBytes then boundary
          else retainWalk retainBytes segments index index (accumulated + wireBytes F segment.messages)

/-- Chooses the oldest index of the retained suffix; `none` when nothing older is left to summarize. -/
def proactiveRetainBoundary (segments : List HistorySegment) (budget retainRatio immobileTail : Nat) :
    Option Nat :=
  let retainBytes := min (budget * retainRatio) (2 ^ 64 - 1) / 100
  let movableEnd := segments.length - immobileTail
  let boundary := retainWalk F retainBytes segments movableEnd movableEnd 0
  if 0 < boundary then some boundary else none

end Boundary

/-- The longest prefix of at most `bound` bytes that ends at a character. -/
def truncateUtf8 (bound : Nat) : List Char → List Char
  | [] => []
  | c :: rest => if c.utf8Size ≤ bound then c :: truncateUtf8 (bound - c.utf8Size) rest else []

/-- The texts of the superseded segments, newest first, within the byte bound. -/
def summaryParts : Nat → List HistorySegment → List String
  | _, [] => []
  | bound, segment :: older =>
      if bound = 0 then []
      else
        let text := String.ofList (truncateUtf8 bound segment.text.toList)
        text :: summaryParts (bound - text.utf8ByteSize) older

/-- The first sequence of the retained suffix, and the text the summary is made from. -/
def compactionSource (segments : List HistorySegment) (boundary : Nat) (policy : CompactionPolicy) :
    Option Nat × String :=
  ((segments.drop boundary).findSome? HistorySegment.firstSequence,
    String.join (summaryParts policy.maxSummarySourceBytes (segments.take boundary).reverse))

def throughSequence (segments : List HistorySegment) (boundary : Nat) : Nat :=
  ((segments.take boundary).filterMap HistorySegment.maxSequence).foldl max 0

/-- The durable record one compaction leaves. -/
inductive CompactionCard where
  | elision (sequences : List Nat)
  | summary (through : Nat) (retainFrom : Option Nat) (text : String)
  | failure
deriving DecidableEq

/-- The payload of a summary card; without a retained suffix the floor is `null`. -/
def summaryPayload (through : Nat) (retainFrom : Option Nat) : Json :=
  .ofMembers [("superseded_through_sequence", .ofNat through),
    ("retain_from_sequence", .ofOption (retainFrom.map .ofNat))]

def elisionPayload (sequences : List Nat) : Json :=
  .ofMembers [("tool_result_sequences", .array (.ofList (sequences.map .ofNat)))]

/-- What a compaction site works with: profile, stable head, collaborators. -/
structure Planner extends Redactor where
  floats : FloatFormat
  fromStr : String → Except String Json
  policy : ContextPolicy
  system : Message
  /-- `summarize_history`: the redacted summary, or nothing when the request failed. -/
  summarize : String → Option String
  breakerTripped : Bool

namespace Planner

variable (P : Planner)

def wire (messages : List Message) : Nat := wireBytes P.floats messages

def fits (messages : List Message) : Bool :=
  match enforceBudget P.floats messages P.policy with
  | .ok () => true
  | .error _ => false

/-- The prompt of a turn that has no card yet. -/
def prospectivePromptSegment (prompt : String) : HistorySegment :=
  .new none none [.user (P.redactSessionText prompt)] ("[user]\n" ++ P.redactSessionText prompt ++ "\n")

def promptMessage (prompt : String) : Message := .user (P.redactSessionText prompt)

/-- The fit of a turn that is about to open: history, tails, prompt. -/
def preTurnFit (budget : Nat) (history : List HistorySegment) (tails : VolatileTurnContext) (prompt : String) :
    FitSelection :=
  fitRequest P.floats P.system
    (history.map FitEntry.history ++ tails.fitEntries ++ [.prompt (P.prospectivePromptSegment prompt)]) budget

/-- The boundary of `prepare_history`: where the fit discards, else the proactive one. -/
def preTurnBoundary (budget : Nat) (history : List HistorySegment) (tails : VolatileTurnContext)
    (prompt : String) : Option Nat :=
  let fit := P.preTurnFit budget history tails prompt
  let discardAt := history.length - fit.historyKept
  let fitted := tails.filtered fit.repositoryKept fit.reminderKept
  let plain := assembleRequest P.system none (history.drop discardAt) fitted (some (P.promptMessage prompt))
  if P.policy.compaction.strategy = .off ∨ P.breakerTripped then none
  else if 0 < discardAt then some discardAt
  else if P.policy.proactiveCompactionDue (P.wire plain) then
    proactiveRetainBoundary P.floats history budget P.policy.compaction.retainRatio 0
  else none

/-- Whether skeletons alone cure the pressure before a turn. -/
def preTurnCured (budget : Nat) (elided : List HistorySegment) (reactive : Bool) (tails : VolatileTurnContext)
    (prompt : String) : Bool :=
  if reactive then
    let fit := P.preTurnFit budget elided tails prompt
    fit.promptKept && fit.historyKept = elided.length
  else !P.policy.proactiveCompactionDue
    (P.wire (assembleRequest P.system none elided tails (some (P.promptMessage prompt))))

/-- The elision card before a turn, when it cures, and the segments the summary tier reads. -/
def preTurnElision (budget : Nat) (history : List HistorySegment) (boundary : Nat) (reactive : Bool)
    (tails : VolatileTurnContext) (prompt : String) : Option CompactionCard × List HistorySegment :=
  if P.policy.compaction.strategy ≠ .elideToolResultsThenSummarize then (none, history)
  else
    let (elided, sequences) := elidePrefix P.fromStr history boundary
    if sequences = [] then (none, history)
    else if P.preTurnCured budget elided reactive tails prompt &&
        P.fits (assembleRequest P.system none elided tails (some (P.promptMessage prompt))) then
      (some (.elision sequences), elided)
    else (none, elided)

/-- The prompt is folded in when the card will supersede it by position. -/
def foldPrompt (source prompt : String) : String :=
  String.ofList (truncateUtf8 P.policy.compaction.maxSummarySourceBytes
    (source ++ "\n[user]\n" ++ P.redactSessionText prompt ++ "\n").toList)

def preTurnSummary (fitting : List HistorySegment) (boundary : Nat) (tails : VolatileTurnContext)
    (prompt : String) : CompactionCard :=
  let (retained, source) := compactionSource fitting boundary P.policy.compaction
  match P.summarize (if retained.isNone then P.foldPrompt source prompt else source) with
  | none => .failure
  | some summary =>
      if P.fits (assembleRequest P.system (some summary) (fitting.drop boundary) tails
          (some (P.promptMessage prompt))) then
        .summary (throughSequence fitting boundary) retained summary
      else .failure

/-- `prepare_history`, for the card it asks to append. -/
def prepareHistory (entries : List TranscriptEntry) (tails : VolatileTurnContext) (prompt : String) :
    Except SessionRuntimeError (Option CompactionCard) :=
  match P.policy.budget with
  | .error error => .error error
  | .ok budget =>
      let history := scanHistorySegments entries
      let fit := P.preTurnFit budget history tails prompt
      let fitted := tails.filtered fit.repositoryKept fit.reminderKept
      if fit.promptKept then
        match P.preTurnBoundary budget history tails prompt with
        | none => .ok none
        | some boundary =>
            match P.preTurnElision budget history boundary
              (decide (0 < history.length - fit.historyKept)) fitted prompt with
            | (some card, _) => .ok (some card)
            | (none, fitting) => .ok (some (P.preTurnSummary fitting boundary fitted prompt))
      else .error (.history "newest complete user segment exceeds the exact request budget")

/-- The fit between two provider requests of one turn. -/
def midTurnFit (budget : Nat) (segments : List HistorySegment) (tails : VolatileTurnContext) : FitSelection :=
  fitRequest P.floats P.system (segments.map FitEntry.history ++ tails.fitEntries) budget

/-- The boundary of `maybe_compact_mid_turn`, once compaction is due. -/
def midTurnBoundary (budget : Nat) (segments : List HistorySegment) (tails : VolatileTurnContext)
    (forced : Bool) : Option Nat :=
  let fit := P.midTurnFit budget segments tails
  let discarded := segments.length - fit.historyKept
  if P.policy.compaction.strategy = .off ∨ (¬ forced ∧ P.breakerTripped) ∨ segments = [] then none
  else if 0 < discarded then some discarded
  else if forced ∨ P.policy.proactiveCompactionDue (P.wire fit.messages) then
    proactiveRetainBoundary P.floats segments budget P.policy.compaction.retainRatio 0
  else none

/-- Whether skeletons alone cure the pressure inside a turn. -/
def midTurnCured (budget : Nat) (elided : List HistorySegment) (reactive forced : Bool)
    (tails : VolatileTurnContext) (turnId : TurnId) : Bool :=
  if forced then true
  else if reactive then (P.midTurnFit budget elided tails).historyKept = elided.length
  else !P.policy.proactiveCompactionDue (P.wire (assembleMidTurnRequest P.system none elided turnId tails))

/-- A forced recovery must also send fewer bytes than the rejected request. -/
def shrinks (forced : Bool) (messages current : List Message) : Bool :=
  (!forced || decide (P.wire messages < P.wire current)) && P.fits messages

def midTurnElision (budget : Nat) (segments : List HistorySegment) (boundary : Nat) (reactive forced : Bool)
    (tails : VolatileTurnContext) (turnId : TurnId) (current : List Message) :
    Option CompactionCard × List HistorySegment :=
  if P.policy.compaction.strategy ≠ .elideToolResultsThenSummarize then (none, segments)
  else
    let (elided, sequences) := elidePrefix P.fromStr segments boundary
    if sequences ≠ [] ∧ P.midTurnCured budget elided reactive forced tails turnId ∧
        P.shrinks forced (assembleMidTurnRequest P.system none elided turnId tails) current then
      (some (.elision sequences), elided)
    else (none, elided)

/-- The summary tier inside a turn; a forced failure leaves no card. -/
def midTurnSummarize (segments : List HistorySegment) (boundary : Nat) (forced : Bool)
    (tails : VolatileTurnContext) (turnId : TurnId) (current : List Message) : Option CompactionCard :=
  let (retained, source) := compactionSource segments boundary P.policy.compaction
  match retained with
  | none => none
  | some floor =>
      if forced ∧ P.breakerTripped then none
      else
        let degraded := if forced then none else some CompactionCard.failure
        match P.summarize source with
        | none => degraded
        | some summary =>
            if P.shrinks forced (assembleMidTurnRequest P.system (some summary) (segments.drop boundary)
                turnId tails) current then
              some (.summary (throughSequence segments boundary) (some floor) summary)
            else degraded

/-- `maybe_compact_mid_turn`, for the card it appends. -/
def maybeCompactMidTurn (entries : List TranscriptEntry) (turnId : TurnId) (current : List Message)
    (forced : Bool) (tails : VolatileTurnContext) : Except SessionRuntimeError (Option CompactionCard) :=
  match P.policy.budget with
  | .error error => .error error
  | .ok budget =>
      let segments := scanHistorySegments entries
      let fit := P.midTurnFit budget segments tails
      let fitted := tails.filtered fit.repositoryKept fit.reminderKept
      match P.midTurnBoundary budget segments tails forced with
      | none => .ok none
      | some boundary =>
          match P.midTurnElision budget segments boundary (decide (0 < segments.length - fit.historyKept))
            forced fitted turnId current with
          | (some card, _) => .ok (some card)
          | (none, fitting) => .ok (P.midTurnSummarize fitting boundary forced fitted turnId current)

/-- The boundary of a manual compaction, when its prefix holds more than the newest summary. -/
def manualBoundary (budget : Nat) (segments : List HistorySegment) : Option Nat :=
  if P.policy.compaction.strategy = .off ∨ segments = [] ∨ P.breakerTripped then none
  else (proactiveRetainBoundary P.floats segments budget P.policy.compaction.retainRatio 0).filter fun boundary =>
    !(segments.take boundary).all HistorySegment.fromSummary

def manualElision (segments : List HistorySegment) (boundary : Nat) (tails : VolatileTurnContext) :
    Option CompactionCard × List HistorySegment :=
  if P.policy.compaction.strategy ≠ .elideToolResultsThenSummarize then (none, segments)
  else
    let (elided, sequences) := elidePrefix P.fromStr segments boundary
    if sequences ≠ [] ∧ P.fits (assembleRequest P.system none elided tails none) then
      (some (.elision sequences), elided)
    else (none, elided)

def manualSummary (segments : List HistorySegment) (boundary : Nat) (tails : VolatileTurnContext) :
    Except SessionRuntimeError CompactionCard :=
  let (retained, source) := compactionSource segments boundary P.policy.compaction
  match P.summarize source with
  | none => .error (.history "manual compaction summary request failed")
  | some summary =>
      if P.fits (assembleRequest P.system (some summary) (segments.drop boundary) tails none) then
        .ok (.summary (throughSequence segments boundary) retained summary)
      else .error (.history "manual compaction summary exceeds the exact request budget")

/-- `compact_session` on a ready session with a latest turn, for the card it appends. -/
def compactSession (entries : List TranscriptEntry) (tails : VolatileTurnContext) :
    Except SessionRuntimeError (Option CompactionCard) :=
  match P.policy.budget with
  | .error error => .error error
  | .ok budget =>
      let segments := scanHistorySegments entries
      match P.manualBoundary budget segments with
      | none => .ok none
      | some boundary =>
          match P.manualElision segments boundary tails with
          | (some card, _) => .ok (some card)
          | (none, fitting) => (P.manualSummary fitting boundary tails).map some

end Planner

end LatteCode.Headless
