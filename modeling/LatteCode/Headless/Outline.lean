import LatteCode.Headless.Compaction
/- Segments before any result is elided: what a card contributes, and how an elision set shows it. -/

namespace LatteCode.Headless
open Grouping

/-- A tool result that a segment records, as its card holds it. -/
structure ToolAnswer where
  sequence : Nat
  toolCallId : String
  name : Option String
  original : String
  payload : Json
deriving DecidableEq

namespace ToolAnswer

def skeleton (answer : ToolAnswer) : String := elidedToolSkeleton answer.name answer.original answer.payload

/-- The content a result shows under an elision set. -/
def content (elided : List Nat) (answer : ToolAnswer) : String :=
  if elided.contains answer.sequence then answer.skeleton else answer.original

end ToolAnswer

def toolLine (content : String) : String := "[tool]\n" ++ content ++ "\n"

/-- One contribution to a segment. -/
inductive HistoryItem where
  | prompt (text : String)
  | summary (text : String)
  | reply (text : String) (calls : List ToolCall)
  | denied (toolCallId name : String)
  | result (answer : ToolAnswer)
deriving DecidableEq

namespace HistoryItem

def message (elided : List Nat) : HistoryItem → Message
  | prompt text => .user text
  | summary text => .user text
  | reply text calls => .assistant (some text) calls
  | denied toolCallId name => .tool toolCallId (some name) deniedContent
  | result answer => .tool answer.toolCallId answer.name (answer.content elided)

/-- A denied answer has no share in the text. -/
def line (elided : List Nat) : HistoryItem → String
  | prompt text => "[user]\n" ++ text ++ "\n"
  | summary text => "[compacted summary]\n" ++ text ++ "\n"
  | reply text _ => "[assistant]\n" ++ text ++ "\n"
  | denied _ _ => ""
  | result answer => toolLine (answer.content elided)

def recorded : HistoryItem → Option (Nat × String)
  | result answer => some (answer.sequence, answer.toolCallId)
  | _ => none

end HistoryItem

/-- One segment, with the results as the cards hold them. -/
structure Outline where
  items : List HistoryItem
  firstSequence : Option Nat
  maxSequence : Option Nat
  fromSummary : Bool
  turnId : Option TurnId
deriving DecidableEq

namespace Outline

def messages (elided : List Nat) (outline : Outline) : List Message := outline.items.map (HistoryItem.message elided)

def toolResults (outline : Outline) : List (Nat × String) := outline.items.filterMap HistoryItem.recorded

/-- The segment that an elision set shows. -/
def render (elided : List Nat) (outline : Outline) : HistorySegment where
  messages := outline.messages elided
  text := String.join (outline.items.map (HistoryItem.line elided))
  firstSequence := outline.firstSequence
  maxSequence := outline.maxSequence
  fromSummary := outline.fromSummary
  turnId := outline.turnId
  toolResults := outline.toolResults

def push (outline : Outline) (item : HistoryItem) (sequence : Nat) : Outline :=
  { outline with
    items := outline.items ++ [item]
    maxSequence := HistorySegment.laterSequence outline.maxSequence sequence }

end Outline

def userOutline (entry : TranscriptEntry) : Outline where
  items := [.prompt entry.text]
  firstSequence := some entry.sequence
  maxSequence := some entry.sequence
  fromSummary := false
  turnId := entry.turnId

def summaryOutline (card : TranscriptEntry) : Outline where
  items := [.summary card.text]
  firstSequence := some card.sequence
  maxSequence := some card.sequence
  fromSummary := true
  turnId := card.turnId

def outlineResult (entry : TranscriptEntry) (outline : Outline) : Outline :=
  match providerResult entry with
  | none => outline
  | some (toolCallId, original, payload) =>
      if declaredToolCall (outline.messages []) toolCallId then
        outline.push (.result ⟨entry.sequence, toolCallId, (payload.get? "name").bind Json.asStr, original, payload⟩)
          entry.sequence
      else outline

/-- The calls of a denied batch that nothing answered. -/
def unansweredCalls (segment : List Message) : List ToolCall :=
  ((segment.reverse.findSome? assistantCalls).getD []).filter fun call =>
    !(segment.filterMap answeredCall).contains call.id

theorem appendDenied_eq (segment : List Message) : appendDeniedToolResults segment =
    segment ++ (unansweredCalls segment).map fun call => .tool call.id (some call.name) deniedContent := rfl

def deniedItem (call : ToolCall) : HistoryItem := .denied call.id call.name

def extendOutline (entry : TranscriptEntry) (outline : Outline) : Outline :=
  match entry.kind with
  | .assistant => outline.push (.reply entry.text (declaredCalls entry.payload)) entry.sequence
  | .toolResult => outlineResult entry outline
  | .failure =>
      if abortedByDenial entry then
        { outline with items := outline.items ++ (unansweredCalls (outline.messages [])).map deniedItem }
      else outline
  | _ => outline

def outlineRule : Rule TranscriptEntry Outline where
  opens entry := if entry.kind = .user then some (userOutline entry) else none
  extend := extendOutline

/-- The segments of a transcript before any result is elided. -/
def outlineOf (entries : List TranscriptEntry) : List Outline :=
  match newestSummary entries with
  | none => fold outlineRule [] entries
  | some (before, card, after) =>
      fold outlineRule (summaryOutline card :: fold outlineRule [] (before.filter (retains card)))
        (after.filter fun entry => entry.kind ≠ .toolResultElision)

section Rendering

variable {elided : List Nat} {outline : Outline} {entry : TranscriptEntry} {entries : List TranscriptEntry}

/-- Who is called and who is answered does not depend on what is elided. -/
theorem declared_messages (toolCallId : String) :
    declaredToolCall (outline.messages elided) toolCallId = declaredToolCall (outline.messages []) toolCallId := by
  unfold declaredToolCall Outline.messages
  rw [List.any_map, List.any_map]
  congr 1
  funext item
  cases item <;> rfl

theorem unanswered_messages : unansweredCalls (outline.messages elided) = unansweredCalls (outline.messages []) := by
  have calls : (outline.messages elided).reverse.findSome? assistantCalls =
      (outline.messages []).reverse.findSome? assistantCalls := by
    rw [Outline.messages, Outline.messages, ← List.map_reverse, ← List.map_reverse, List.findSome?_map,
      List.findSome?_map]
    congr 1
    funext item
    cases item <;> rfl
  have answers : (outline.messages elided).filterMap answeredCall = (outline.messages []).filterMap answeredCall := by
    rw [Outline.messages, Outline.messages, List.filterMap_map, List.filterMap_map]
    congr 1
    funext item
    cases item <;> rfl
  rw [unansweredCalls, unansweredCalls, calls, answers]

theorem join_concat (lines : List String) (line : String) : String.join (lines ++ [line]) = String.join lines ++ line := by
  rw [String.join_append, String.join_cons, String.join_nil, String.append_empty]

theorem render_push (item : HistoryItem) (sequence : Nat) : (outline.push item sequence).render elided =
    { outline.render elided with
      messages := (outline.render elided).messages ++ [item.message elided]
      text := (outline.render elided).text ++ item.line elided
      maxSequence := HistorySegment.laterSequence outline.maxSequence sequence
      toolResults := (outline.render elided).toolResults ++ item.recorded.toList } := by
  simp only [Outline.push, Outline.render, Outline.messages, Outline.toolResults, List.map_append, List.map_singleton,
    List.filterMap_append, join_concat]
  cases item <;> rfl

theorem render_result : (outlineResult entry outline).render elided = pushResult elided entry (outline.render elided) := by
  unfold outlineResult pushResult
  cases providerResult entry with
  | none => rfl
  | some found =>
      obtain ⟨toolCallId, original, payload⟩ := found
      dsimp only
      have same : declaredToolCall (outline.render elided).messages toolCallId =
          declaredToolCall (outline.messages []) toolCallId := declared_messages toolCallId
      rw [same]
      split
      case isFalse => rfl
      case isTrue => rw [render_push]; rfl

/-- The answers of a denied batch carry no text and are not recorded. -/
theorem render_denied (calls : List ToolCall) :
    Outline.render elided { outline with items := outline.items ++ calls.map deniedItem } =
      { outline.render elided with
        messages := (outline.render elided).messages ++
          calls.map fun call => .tool call.id (some call.name) deniedContent } := by
  have said : (calls.map deniedItem).map (HistoryItem.message elided) =
      calls.map fun call => .tool call.id (some call.name) deniedContent := by
    rw [List.map_map]
    rfl
  have silent : ∀ calls : List ToolCall, String.join ((calls.map deniedItem).map (HistoryItem.line elided)) = "" := by
    intro calls
    induction calls with
    | nil => rfl
    | cons call calls ih =>
        rw [List.map_cons, List.map_cons, String.join_cons, ih]
        rfl
  have unrecorded : (calls.map deniedItem).filterMap HistoryItem.recorded = [] := by
    rw [List.filterMap_map]
    exact List.filterMap_eq_nil_iff.mpr fun _ _ => rfl
  simp only [Outline.render, Outline.messages, Outline.toolResults, List.map_append, List.filterMap_append, said,
    unrecorded, List.append_nil, String.join_append, silent, String.append_empty]

theorem render_extend : (extendOutline entry outline).render elided = extendSegment elided entry (outline.render elided) := by
  unfold extendOutline extendSegment
  cases entry.kind with
  | assistant =>
      dsimp only
      rw [render_push]
      simp only [HistoryItem.recorded, Option.toList_none, List.append_nil]
      rfl
  | toolResult => exact render_result
  | failure =>
      dsimp only
      split
      case isFalse => rfl
      case isTrue =>
        have same : unansweredCalls (outline.render elided).messages = unansweredCalls (outline.messages []) :=
          unanswered_messages
        rw [render_denied, appendDenied_eq, same]
  | user | toolCall | permission | input | completion | system | compactSummary | toolResultElision => rfl

theorem render_single (item : HistoryItem) (outline : Outline) (only : outline.items = [item]) :
    outline.render elided =
      { outline.render elided with
        messages := [item.message elided]
        text := item.line elided
        toolResults := item.recorded.toList } := by
  simp only [Outline.render, Outline.messages, Outline.toolResults, only, List.map_cons, List.map_nil,
    String.join_cons, String.join_nil, String.append_empty]
  cases item <;> rfl

theorem render_user : (userOutline entry).render elided = userSegment entry := by
  rw [render_single (.prompt entry.text) _ rfl]
  rfl

theorem render_summary : (summaryOutline entry).render elided = summaryOf entry := by
  rw [render_single (.summary entry.text) _ rfl]
  rfl

theorem map_fold_outline (outlines : List Outline) (entries : List TranscriptEntry) :
    (fold outlineRule outlines entries).map (Outline.render elided) =
      fold (historyRule elided) (outlines.map (Outline.render elided)) entries := by
  apply map_fold
  · intro entry
    unfold historyRule outlineRule
    dsimp only
    split
    case isTrue => rw [Option.map_some, render_user]
    case isFalse => rfl
  · exact fun entry outline => render_extend

/-- A scan shows the outlines under the elision set of its transcript. -/
theorem scan_outline : scanHistorySegments entries = (outlineOf entries).map (Outline.render (elidedSequences entries)) := by
  unfold scanHistorySegments outlineOf
  dsimp only
  cases newestSummary entries with
  | none => rw [map_fold_outline, foldl_applyEntry]; rfl
  | some found =>
      obtain ⟨before, card, after⟩ := found
      dsimp only
      rw [map_fold_outline, List.map_cons, map_fold_outline, render_summary, foldl_applyEntry, foldl_applyEntry]
      rfl

end Rendering

section Elided

variable {T : List TranscriptEntry} {card : TranscriptEntry}

theorem newestSummary_concat (other : card.kind ≠ .compactSummary) : newestSummary (T ++ [card]) =
    (newestSummary T).map fun found => (found.1, found.2.1, found.2.2 ++ [card]) := by
  induction T with
  | nil => rw [List.nil_append, newestSummary, newestSummary, if_neg other]; rfl
  | cons entry T ih =>
      rw [List.cons_append, newestSummary, newestSummary, ih]
      cases newestSummary T with
      | some found => rfl
      | none =>
          dsimp only [Option.map_none]
          split <;> rfl

/-- An elision card contributes to no segment. -/
theorem outlineOf_elision (elision : card.kind = .toolResultElision) : outlineOf (T ++ [card]) = outlineOf T := by
  have other : card.kind ≠ .compactSummary := by rw [elision]; decide
  unfold outlineOf
  rw [newestSummary_concat other]
  cases newestSummary T with
  | none =>
      dsimp only [Option.map_none]
      have continued : outlineRule.opens card = none := if_neg (by rw [elision]; decide)
      rw [fold_append, fold_cons, step_extends continued, modifyLast_same, fold_nil]
      intro outline
      simp only [outlineRule, extendOutline, elision]
  | some found =>
      dsimp only [Option.map_some]
      have dropped : [card].filter (fun entry => entry.kind ≠ .toolResultElision) = [] := by
        rw [List.filter_cons_of_neg (by simp [elision]), List.filter_nil]
      rw [List.filter_append, dropped, List.append_nil]

theorem elidedSequences_elision (elision : card.kind = .toolResultElision) :
    elidedSequences (T ++ [card]) = elidedSequences T ++ elisionCardSequences card := by
  unfold elidedSequences
  have listed : [card].filter (fun entry => entry.kind = .toolResultElision) = [card] := by
    rw [List.filter_cons_of_pos (by simp [elision]), List.filter_nil]
  rw [List.filter_append, listed, List.flatMap_append, List.flatMap_singleton]

end Elided

end LatteCode.Headless
