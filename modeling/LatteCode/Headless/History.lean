import LatteCode.Lib.Grouping
import LatteCode.Headless.Provider
/- Provider history: the user segments that `scan_history_segments` reads off a transcript. -/

namespace LatteCode.Headless
open Grouping

/-- One user segment of the provider history. -/
structure HistorySegment where
  messages : List Message
  text : String
  firstSequence : Option Nat
  maxSequence : Option Nat
  fromSummary : Bool
  turnId : Option TurnId
  toolResults : List (Nat × String)
deriving DecidableEq

namespace HistorySegment

def new (firstSequence : Option Nat) (turnId : Option TurnId) (messages : List Message) (text : String) :
    HistorySegment where
  messages := messages
  text := text
  firstSequence := firstSequence
  maxSequence := firstSequence
  fromSummary := false
  turnId := turnId
  toolResults := []

def summarySegment (sequence : Nat) (turnId : Option TurnId) (message : Message) (text : String) :
    HistorySegment where
  messages := [message]
  text := text
  firstSequence := some sequence
  maxSequence := some sequence
  fromSummary := true
  turnId := turnId
  toolResults := []

def pushMessage (self : HistorySegment) (message : Message) : HistorySegment :=
  { self with messages := self.messages ++ [message] }

def pushToolResult (self : HistorySegment) (sequence : Nat) (toolCallId : String) : HistorySegment :=
  { self with toolResults := self.toolResults ++ [(sequence, toolCallId)] }

/-- `Option`'s order: `None` is below every sequence. -/
def laterSequence (held : Option Nat) (sequence : Nat) : Option Nat :=
  some (held.elim sequence (max sequence))

def pushText (self : HistorySegment) (text : String) (sequence : Nat) : HistorySegment :=
  { self with text := self.text ++ text, maxSequence := laterSequence self.maxSequence sequence }

end HistorySegment

open HistorySegment

/-- Whether some assistant message of the segment declared the call: only then is an answer legal. -/
def declaredToolCall (segment : List Message) (toolCallId : String) : Bool :=
  segment.any fun message =>
    match message with
    | .assistant _ calls => calls.any fun call => call.id = toolCallId
    | _ => false

def assistantCalls : Message → Option (List ToolCall)
  | .assistant _ calls => some calls
  | _ => none

def answeredCall : Message → Option String
  | .tool toolCallId _ _ => some toolCallId
  | _ => none

def deniedContent : String := "permission denied by user; tool was not executed"

/-- Bounded non-execution results for every call of the newest batch that nothing answered. -/
def appendDeniedToolResults (segment : List Message) : List Message :=
  let calls := (segment.reverse.findSome? assistantCalls).getD []
  let observed := segment.filterMap answeredCall
  segment ++ (calls.filter fun call => !observed.contains call.id).map fun call =>
    .tool call.id (some call.name) deniedContent

/-- The deterministic replacement of one elided tool result. -/
def elidedToolSkeleton (name : Option String) (original : String) (payload : Json) : String :=
  "[elided tool result: tool=" ++ name.getD "unknown" ++ ", original_bytes=" ++
    toString original.utf8ByteSize ++ ", status=" ++
    (if (payload.get? "error").isSome then "error" else "ok") ++
    (if ((payload.get? "truncated").bind Json.asBool).getD false then ", truncated" else "") ++ "]"

/-- The `tool_result_sequences` of one elision card; a malformed list contributes nothing. -/
def elisionCardSequences (entry : TranscriptEntry) : List Nat :=
  (((entry.payload.bind (Json.get? "tool_result_sequences")).bind Json.asArray).getD []).filterMap Json.asU64

/-- Elision is boundary-independent: the union over every card of the transcript. -/
def elidedSequences (entries : List TranscriptEntry) : List Nat :=
  (entries.filter fun entry => entry.kind = .toolResultElision).flatMap elisionCardSequences

def userSegment (entry : TranscriptEntry) : HistorySegment :=
  .new (some entry.sequence) entry.turnId [.user entry.text] ("[user]\n" ++ entry.text ++ "\n")

def pushAssistant (entry : TranscriptEntry) (segment : HistorySegment) : HistorySegment :=
  (segment.pushMessage (.assistant (some entry.text) (declaredCalls entry.payload))).pushText
    ("[assistant]\n" ++ entry.text ++ "\n") entry.sequence

/-- The id, original content and payload of a tool result a provider may see. -/
def providerResult (entry : TranscriptEntry) : Option (String × String × Json) :=
  entry.payload.bind fun payload =>
    ((payload.get? "tool_call_id").bind Json.asStr).bind fun toolCallId =>
      ((payload.get? "provider_content").bind Json.asStr).map fun original => (toolCallId, original, payload)

def pushResult (elided : List Nat) (entry : TranscriptEntry) (segment : HistorySegment) : HistorySegment :=
  match providerResult entry with
  | none => segment
  | some (toolCallId, original, payload) =>
      if declaredToolCall segment.messages toolCallId then
        let name := (payload.get? "name").bind Json.asStr
        let content := if elided.contains entry.sequence then elidedToolSkeleton name original payload
          else original
        ((segment.pushMessage (.tool toolCallId name content)).pushToolResult entry.sequence toolCallId).pushText
          ("[tool]\n" ++ content ++ "\n") entry.sequence
      else segment

def abortedByDenial (entry : TranscriptEntry) : Bool :=
  (entry.payload.bind (Json.get? "provider_tool_round_aborted")).bind Json.asStr = some "permission_denied"

/-- What a card other than a prompt does to the newest segment. -/
def extendSegment (elided : List Nat) (entry : TranscriptEntry) (segment : HistorySegment) : HistorySegment :=
  match entry.kind with
  | .assistant => pushAssistant entry segment
  | .toolResult => pushResult elided entry segment
  | .failure =>
      if abortedByDenial entry then { segment with messages := appendDeniedToolResults segment.messages }
      else segment
  | _ => segment

/-- Folds one durable card into the segments; without a segment there is nothing to extend. -/
def applyEntry (elided : List Nat) (segments : List HistorySegment) (entry : TranscriptEntry) :
    List HistorySegment :=
  match entry.kind with
  | .user => segments ++ [userSegment entry]
  | _ => segments.modifyLast (extendSegment elided entry)

/-- The newest `CompactSummary` card with what stands before and after it. -/
def newestSummary : List TranscriptEntry →
    Option (List TranscriptEntry × TranscriptEntry × List TranscriptEntry)
  | [] => none
  | entry :: rest =>
      match newestSummary rest with
      | some (before, card, after) => some (entry :: before, card, after)
      | none => if entry.kind = .compactSummary then some ([], entry, rest) else none

def retainFrom (card : TranscriptEntry) : Option Nat :=
  (card.payload.bind (Json.get? "retain_from_sequence")).bind Json.asU64

def summaryOf (card : TranscriptEntry) : HistorySegment :=
  .summarySegment card.sequence card.turnId (.user card.text) ("[compacted summary]\n" ++ card.text ++ "\n")

/-- An entry older than the newest card that replays after the summary. -/
def retains (card entry : TranscriptEntry) : Bool :=
  entry.kind ≠ .compactSummary && entry.kind ≠ .toolResultElision &&
    (retainFrom card).any fun floor => floor ≤ entry.sequence

def scanHistorySegments (entries : List TranscriptEntry) : List HistorySegment :=
  let elided := elidedSequences entries
  match newestSummary entries with
  | none => entries.foldl (applyEntry elided) []
  | some (before, card, after) =>
      let retained := (before.filter (retains card)).foldl (applyEntry elided) []
      (after.filter fun entry => entry.kind ≠ .toolResultElision).foldl (applyEntry elided)
        (summaryOf card :: retained)

/-- Prompts open segments; the other cards extend them. -/
def historyRule (elided : List Nat) : Rule TranscriptEntry HistorySegment where
  opens entry := if entry.kind = .user then some (userSegment entry) else none
  extend := extendSegment elided

theorem applyEntry_eq_step (elided : List Nat) : applyEntry elided = step (historyRule elided) := by
  funext segments entry
  unfold applyEntry
  split
  case h_1 prompt => exact (@step_opens _ _ (historyRule elided) _ _ _ (if_pos prompt)).symm
  case h_2 other => exact (@step_extends _ _ (historyRule elided) _ _ (if_neg other)).symm

theorem foldl_applyEntry (elided : List Nat) (segments : List HistorySegment) (entries : List TranscriptEntry) :
    entries.foldl (applyEntry elided) segments = fold (historyRule elided) segments entries := by
  rw [applyEntry_eq_step]
  rfl

theorem newestSummary_none : ∀ {entries : List TranscriptEntry},
    newestSummary entries = none ↔ ∀ entry ∈ entries, entry.kind ≠ .compactSummary
  | [] => by simp [newestSummary]
  | entry :: rest => by
      rw [newestSummary, List.forall_mem_cons, ← @newestSummary_none rest]
      cases newestSummary rest with
      | some found => simp
      | none => simp

theorem newestSummary_split : ∀ {entries before after : List TranscriptEntry} {card : TranscriptEntry},
    newestSummary entries = some (before, card, after) →
      entries = before ++ card :: after ∧ card.kind = .compactSummary ∧
        ∀ entry ∈ after, entry.kind ≠ .compactSummary
  | [], _, _, _ => fun found => nomatch found
  | entry :: rest, before, after, card => by
      intro found
      rw [newestSummary] at found
      cases deeper : newestSummary rest with
      | some split =>
          obtain ⟨inner, newest, later⟩ := split
          rw [deeper] at found
          cases found
          obtain ⟨split, summary, quiet⟩ := newestSummary_split deeper
          exact ⟨by rw [split]; rfl, summary, quiet⟩
      | none =>
          simp only [deeper] at found
          split at found
          case isTrue summary =>
            cases found
            exact ⟨rfl, summary, newestSummary_none.mp deeper⟩
          case isFalse => cases found

/-- A summary card at the end is the newest one. -/
theorem newestSummary_of_split {before after : List TranscriptEntry} {card : TranscriptEntry}
    (summary : card.kind = .compactSummary) (quiet : ∀ entry ∈ after, entry.kind ≠ .compactSummary) :
    newestSummary (before ++ card :: after) = some (before, card, after) := by
  induction before with
  | nil => rw [List.nil_append, newestSummary, newestSummary_none.mpr quiet, if_pos summary]
  | cons entry before ih => rw [List.cons_append, newestSummary, ih]

/-- Cards of the two compaction kinds take no part in a segment. -/
def inSegments (entry : TranscriptEntry) : Bool := entry.kind ≠ .compactSummary && entry.kind ≠ .toolResultElision

theorem inSegments_user {entry : TranscriptEntry} (prompt : entry.kind = .user) : inSegments entry = true := by
  simp [inSegments, prompt]

/-- Transcripts stand in strictly increasing sequence. -/
def Climbing (entries : List TranscriptEntry) : Prop :=
  entries.Pairwise fun earlier later => earlier.sequence < later.sequence

section Openings

variable {elided : List Nat} {segments : List HistorySegment} {entries before after : List TranscriptEntry}
  {entry opening : TranscriptEntry}

theorem opens_user (prompt : entry.kind = .user) : (historyRule elided).opens entry = some (userSegment entry) :=
  if_pos prompt

theorem opens_other (other : entry.kind ≠ .user) : (historyRule elided).opens entry = none := if_neg other

theorem opens_some {group : HistorySegment} (opened : (historyRule elided).opens entry = some group) :
    entry.kind = .user ∧ group = userSegment entry := by
  unfold historyRule at opened
  dsimp only at opened
  split at opened
  case isTrue prompt => exact ⟨prompt, (Option.some.inj opened).symm⟩
  case isFalse => cases opened

/-- A compaction card leaves every segment as it is. -/
theorem fold_inSegments (segments : List HistorySegment) (entries : List TranscriptEntry) :
    fold (historyRule elided) segments (entries.filter inSegments) = fold (historyRule elided) segments entries := by
  apply fold_filter
  intro entry quiet
  have kinds : entry.kind = .compactSummary ∨ entry.kind = .toolResultElision := by
    by_cases summary : entry.kind = .compactSummary
    · exact .inl summary
    · exact .inr (by simpa [inSegments, summary] using quiet)
  rcases kinds with kind | kind
  · exact ⟨opens_other (by rw [kind]; decide), fun group => by simp only [historyRule, extendSegment, kind]⟩
  · exact ⟨opens_other (by rw [kind]; decide), fun group => by simp only [historyRule, extendSegment, kind]⟩

theorem pushResult_first (elided : List Nat) (entry : TranscriptEntry) (segment : HistorySegment) :
    (pushResult elided entry segment).firstSequence = segment.firstSequence := by
  unfold pushResult
  split
  · rfl
  · split <;> rfl

theorem extend_first (elided : List Nat) : Kept (historyRule elided) HistorySegment.firstSequence := by
  intro entry segment
  show (extendSegment elided entry segment).firstSequence = segment.firstSequence
  unfold extendSegment
  split
  · rfl
  · exact pushResult_first elided entry segment
  · split <;> rfl
  · rfl

end Openings

end LatteCode.Headless
