import LatteCode.Headless.Outline
import LatteCode.Headless.Window
import LatteCode.Lib.Replacing
import LatteCode.Lib.Delimited
/- Elision done twice, and elision replayed from its card. -/

namespace LatteCode.Headless
open Grouping Storage

variable {fromStr : String → Except String Json}

/-- The card of one elision: it lists what `elide_prefix` listed on the transcript before it. -/
structure RecordsElision (fromStr : String → Except String Json) (T : List TranscriptEntry) (boundary : Nat)
    (card : TranscriptEntry) : Prop where
  kind : card.kind = .toolResultElision
  sequences : elisionCardSequences card = (elidePrefix fromStr (scanHistorySegments T) boundary).2

section Again

variable {segment : HistorySegment} {segments : List HistorySegment} {T : List TranscriptEntry} {boundary : Nat}

/-- Every recorded result has its message. -/
def Answered (segment : HistorySegment) : Prop :=
  ∀ result ∈ segment.toolResults, (segment.messages.findSome? (toolMessage result.2)).isSome = true

theorem targets_nil (answered : Answered segment) : elisionTargets segment = [] ↔ segment.toolResults = [] := by
  rw [elisionTargets, List.filterMap_eq_nil_iff, List.eq_nil_iff_forall_not_mem]
  refine forall_congr' fun result => ⟨fun absent recorded => ?_, fun absent recorded => absurd recorded absent⟩
  have found := answered result recorded
  rw [Option.map_eq_none_iff.mp (absent recorded)] at found
  cases found

/-- What becomes of a message when the answers of one call are elided. -/
def elideMessage (fromStr : String → Except String Json) (id original : String) : Message → Message
  | .tool toolCallId name content =>
      if toolCallId = id then .tool toolCallId name (skeletonOf fromStr name original) else .tool toolCallId name content
  | other => other

theorem elideTarget_messages (target : Nat × String × String) :
    (elideTarget fromStr segment target).messages =
      segment.messages.map (elideMessage fromStr target.2.1 target.2.2) := by
  refine List.map_congr_left fun message _ => ?_
  cases message <;> rfl

theorem toolMessage_elide (id other original : String) (message : Message) :
    (toolMessage id (elideMessage fromStr other original message)).map Prod.fst = (toolMessage id message).map Prod.fst := by
  cases message with
  | tool toolCallId name content =>
      rw [elideMessage]
      by_cases here : toolCallId = other
      · rw [if_pos here, toolMessage, toolMessage]
        split <;> rfl
      · rw [if_neg here]
  | system | user | assistant => rfl

theorem elideTarget_answered {target : Nat × String × String} (answered : Answered segment) :
    Answered (elideTarget fromStr segment target) := by
  intro result recorded
  have found := answered result recorded
  rw [List.findSome?_isSome_iff] at found ⊢
  obtain ⟨message, listed, answers⟩ := found
  rw [elideTarget_messages]
  refine ⟨_, List.mem_map.mpr ⟨message, listed, rfl⟩, ?_⟩
  rw [← Option.isSome_map, toolMessage_elide, Option.isSome_map]
  exact answers

theorem elideSegment_kept : (elideSegment fromStr segment).toolResults = segment.toolResults ∧
    (Answered segment → Answered (elideSegment fromStr segment)) := by
  unfold elideSegment
  generalize elisionTargets segment = targets
  induction targets generalizing segment with
  | nil => exact ⟨rfl, id⟩
  | cons target targets ih =>
      obtain ⟨results, answered⟩ := @ih (elideTarget fromStr segment target)
      exact ⟨results, fun before => answered (elideTarget_answered before)⟩

theorem render_answered (elided : List Nat) (outline : Outline) : Answered (outline.render elided) := by
  intro result recorded
  obtain ⟨item, listed, held⟩ := List.mem_filterMap.mp recorded
  rw [List.findSome?_isSome_iff]
  refine ⟨_, List.mem_map.mpr ⟨item, listed, rfl⟩, ?_⟩
  cases item with
  | prompt | summary | reply | denied => cases held
  | result answer =>
      cases held
      rw [HistoryItem.message, toolMessage, if_pos rfl]
      rfl

theorem scan_answered : ∀ segment ∈ scanHistorySegments T, Answered segment := by
  rw [scan_outline]
  intro segment listed
  obtain ⟨outline, _, rfl⟩ := List.mem_map.mp listed
  exact render_answered _ _

theorem elideSegment_idle (idle : elisionTargets segment = []) : elideSegment fromStr segment = segment := by
  rw [elideSegment, idle, List.foldl_nil]

/-- Elision reports nothing exactly when the prefix records no result. -/
theorem elidePrefix_idle (answered : ∀ segment ∈ segments, Answered segment) :
    elidePrefix fromStr segments boundary = (segments, []) ↔
      ∀ results ∈ (segments.map HistorySegment.toolResults).take boundary, results = [] := by
  rw [← List.map_take, List.forall_mem_map, elidePrefix, Prod.mk.injEq, List.flatMap_eq_nil_iff]
  constructor
  · rintro ⟨-, silent⟩ segment early
    exact (targets_nil (answered segment (List.mem_of_mem_take early))).mp
      (List.map_eq_nil_iff.mp (silent segment early))
  · intro empty
    have idle : ∀ segment ∈ segments.take boundary, elisionTargets segment = [] := fun segment early =>
      (targets_nil (answered segment (List.mem_of_mem_take early))).mpr (empty segment early)
    refine ⟨?_, fun segment early => List.map_eq_nil_iff.mpr (idle segment early)⟩
    rw [List.map_congr_left fun segment early => elideSegment_idle (idle segment early), List.map_id',
      List.take_append_drop]

theorem elidePrefix_results : (elidePrefix fromStr segments boundary).1.map HistorySegment.toolResults =
    segments.map HistorySegment.toolResults := by
  have kept : ∀ segment : HistorySegment, (HistorySegment.toolResults ∘ elideSegment fromStr) segment =
      segment.toolResults := fun segment => elideSegment_kept.1
  rw [elidePrefix, List.map_append, List.map_map, funext kept, ← List.map_append, List.take_append_drop]

theorem elidePrefix_answered (answered : ∀ segment ∈ segments, Answered segment) :
    ∀ segment ∈ (elidePrefix fromStr segments boundary).1, Answered segment := by
  intro segment listed
  rcases List.mem_append.mp listed with early | late
  · obtain ⟨earlier, held, rfl⟩ := List.mem_map.mp early
    exact elideSegment_kept.2 (answered earlier (List.mem_of_mem_take held))
  · exact answered segment (List.mem_of_mem_drop late)

theorem scan_elision_results {card : TranscriptEntry} (elision : card.kind = .toolResultElision) :
    (scanHistorySegments (T ++ [card])).map HistorySegment.toolResults =
      (scanHistorySegments T).map HistorySegment.toolResults := by
  rw [scan_outline, scan_outline, outlineOf_elision elision, List.map_map, List.map_map]
  rfl

end Again

section Replay

variable {segment : HistorySegment} {outline : Outline} {elided : List Nat} {results : List (Nat × String)}

/-- The content of the first answer to a call. -/
def firstAnswer (messages : List Message) (id : String) : String :=
  ((messages.findSome? (toolMessage id)).map Prod.snd).getD ""

def lastName (messages : List Message) (id : String) : Option String :=
  (messages.filterMap fun message => (toolMessage id message).map Prod.fst).getLast?.join

theorem targets_answered (answered : Answered segment) : elisionTargets segment =
    segment.toolResults.map fun result => (result.1, result.2, firstAnswer segment.messages result.2) := by
  rw [elisionTargets, List.filterMap_eq_map_iff_forall_eq_some]
  intro result recorded
  obtain ⟨found, first⟩ := Option.isSome_iff_exists.mp (answered result recorded)
  rw [first, firstAnswer, first]
  rfl

/-- Every answer of the listed calls becomes the skeleton of the first content. -/
def elideAnswers (fromStr : String → Except String Json) (ids : List String) (first : String → String) :
    Message → Message
  | .tool toolCallId name content =>
      if toolCallId ∈ ids then .tool toolCallId name (skeletonOf fromStr name (first toolCallId))
      else .tool toolCallId name content
  | other => other

theorem elideAnswers_cons (id : String) (ids : List String) (first : String → String) (message : Message) :
    elideAnswers fromStr ids first (elideMessage fromStr id (first id) message) =
      elideAnswers fromStr (id :: ids) first message := by
  cases message with
  | tool toolCallId name content =>
      rw [elideMessage, elideAnswers]
      by_cases here : toolCallId = id
      · subst here
        rw [if_pos rfl, if_pos List.mem_cons_self, elideAnswers]
        split <;> rfl
      · have same : toolCallId ∈ id :: ids ↔ toolCallId ∈ ids := by rw [List.mem_cons, or_iff_right here]
        rw [if_neg here, elideAnswers, if_congr same rfl rfl]
  | system | user | assistant => rfl

theorem lastName_elide (id other original : String) (messages : List Message) :
    lastName (messages.map (elideMessage fromStr other original)) id = lastName messages id := by
  rw [lastName, lastName, List.filterMap_map]
  congr 3
  funext message
  exact toolMessage_elide id other original message

/-- The text after the line of every listed answer is replaced in turn. -/
def elideLines (fromStr : String → Except String Json) (messages : List Message) (first : String → String)
    (text : String) (results : List (Nat × String)) : String :=
  results.foldl (fun text result => text.replace (toolLine (first result.2))
    (toolLine (skeletonOf fromStr (lastName messages result.2) (first result.2)))) text

theorem elideTarget_text (target : Nat × String × String) : (elideTarget fromStr segment target).text =
    segment.text.replace (toolLine target.2.2)
      (toolLine (skeletonOf fromStr (lastName segment.messages target.2.1) target.2.2)) := by
  have name : ((segment.messages.filterMap (toolMessage target.2.1)).getLast?).bind Prod.fst =
      lastName segment.messages target.2.1 := by
    rw [lastName, ← List.map_filterMap, List.getLast?_map]
    cases (segment.messages.filterMap (toolMessage target.2.1)).getLast? <;> rfl
  rw [← name]
  rfl

theorem foldl_elideTarget (first : String → String) :
    let after := (results.map fun result => (result.1, result.2, first result.2)).foldl (elideTarget fromStr) segment
    after.messages = segment.messages.map (elideAnswers fromStr (results.map Prod.snd) first) ∧
      after.text = elideLines fromStr segment.messages first segment.text results := by
  induction results generalizing segment with
  | nil =>
      refine ⟨(List.map_id'' (fun message => ?_) _).symm, rfl⟩
      cases message <;> rfl
  | cons result results ih =>
      obtain ⟨messages, text⟩ := @ih (elideTarget fromStr segment (result.1, result.2, first result.2))
      rw [List.map_cons, List.foldl_cons]
      refine ⟨messages.trans ?_, text.trans ?_⟩
      · rw [elideTarget_messages, List.map_map]
        exact List.map_congr_left fun message _ => elideAnswers_cons _ _ _ _
      · rw [elideTarget_text, elideTarget_messages, elideLines, elideLines, List.foldl_cons]
        simp only [lastName_elide]

/-- What the skeleton of a result tells besides the tool: size, failure, truncation. -/
def skeletonFacts (original : String) (payload : Json) : Nat × Bool × Bool :=
  (original.utf8ByteSize, (payload.get? "error").isSome,
    ((payload.get? "truncated").bind Json.asBool).getD false)

def skeletonMark : String := "[elided tool result: tool="

def skeletonOpening (tool : String) : String := skeletonMark ++ tool ++ ", original_bytes="

def skeletonEnding (failed short : Bool) : String :=
  ", status=" ++ (if failed then "error" else "ok") ++ (if short then ", truncated" else "") ++ "]"

/-- The skeleton as it reads for a tool. -/
def skeletonText (tool : String) (facts : Nat × Bool × Bool) : String :=
  skeletonOpening tool ++ (toString facts.1 ++ skeletonEnding facts.2.1 facts.2.2)

theorem skeleton_facts (name : Option String) (original : String) (payload : Json) :
    elidedToolSkeleton name original payload = skeletonText (name.getD "unknown") (skeletonFacts original payload) := by
  unfold elidedToolSkeleton skeletonText skeletonFacts skeletonOpening skeletonMark skeletonEnding
  simp only [String.append_assoc]

theorem skeletonEnding_separated (failed short : Bool) : ∃ rest, (skeletonEnding failed short).toList = ',' :: rest := by
  cases failed <;> cases short <;> exact ⟨_, rfl⟩

theorem skeletonEnding_inj : ∀ failed short failed' short' : Bool,
    (skeletonEnding failed short).toList = (skeletonEnding failed' short').toList → failed = failed' ∧ short = short' := by
  decide

/-- For one tool, skeletons tell their facts apart. -/
theorem skeletonText_inj {tool : String} {facts facts' : Nat × Bool × Bool} :
    skeletonText tool facts = skeletonText tool facts' ↔ facts = facts' := by
  refine ⟨fun same => ?_, fun same => by rw [same]⟩
  obtain ⟨size, failed, short⟩ := facts
  obtain ⟨size', failed', short'⟩ := facts'
  have tails : toString size ++ skeletonEnding failed short = toString size' ++ skeletonEnding failed' short' :=
    String.append_right_inj _ |>.mp same
  obtain ⟨rest, separated⟩ := skeletonEnding_separated failed short
  obtain ⟨rest', separated'⟩ := skeletonEnding_separated failed' short'
  have chars := congrArg String.toList tails
  rw [String.toList_append, String.toList_append, separated, separated'] at chars
  obtain ⟨digits, rfl⟩ := Delimited.append_separator_inj (Delimited.clear_toString (by decide) size)
    (Delimited.clear_toString (by decide) size') chars
  obtain ⟨rfl, rfl⟩ := skeletonEnding_inj _ _ _ _ (separated.trans separated'.symm)
  rw [Delimited.toString_injective (String.toList_inj.mp digits)]

theorem skeletonText_not_denied (tool : String) (facts : Nat × Bool × Bool) :
    skeletonText tool facts ≠ deniedContent := by
  intro same
  have starts : skeletonMark.toList <+: (skeletonText tool facts).toList := by
    rw [skeletonText, skeletonOpening, String.append_assoc, String.append_assoc, String.toList_append]
    exact List.prefix_append _ _
  rw [same] at starts
  exact absurd starts (by decide)

/-- The body that elision in flight reads the flags from. -/
def parsedBody (fromStr : String → Except String Json) (original : String) : Json :=
  (fromStr original).toOption.getD (.object .nil)

theorem skeletonOf_facts (name : Option String) (original : String) : skeletonOf fromStr name original =
    skeletonText (name.getD "unknown") (skeletonFacts original (parsedBody fromStr original)) :=
  skeleton_facts name original (parsedBody fromStr original)

end Replay

namespace Outline

def ids (outline : Outline) : List String := outline.toolResults.map Prod.snd

/-- The content that the first answer to a call shows. -/
def first (elided : List Nat) (outline : Outline) (id : String) : String := firstAnswer (outline.messages elided) id

/-- What the card of a result tells is what the first content under its id tells; no denied call
shares an id with a result. -/
structure Faithful (fromStr : String → Except String Json) (elided : List Nat) (outline : Outline) : Prop where
  undenied : ∀ id name, .denied id name ∈ outline.items → id ∉ outline.ids
  facts : ∀ answer, .result answer ∈ outline.items →
    skeletonFacts (outline.first elided answer.toolCallId)
      (parsedBody fromStr (outline.first elided answer.toolCallId)) = skeletonFacts answer.original answer.payload

variable {elided elided' : List Nat} {outline : Outline} {answer : ToolAnswer}

theorem mem_ids (held : .result answer ∈ outline.items) : answer.toolCallId ∈ outline.ids :=
  List.mem_map.mpr ⟨(answer.sequence, answer.toolCallId), List.mem_filterMap.mpr ⟨_, held, rfl⟩, rfl⟩

theorem elideSegment_render : (elideSegment fromStr (outline.render elided)).messages =
      (outline.messages elided).map (elideAnswers fromStr outline.ids (outline.first elided)) ∧
    (elideSegment fromStr (outline.render elided)).text =
      elideLines fromStr (outline.messages elided) (outline.first elided) (outline.render elided).text
        outline.toolResults := by
  rw [elideSegment, targets_answered (render_answered elided outline)]
  exact foldl_elideTarget (outline.first elided)

/-- With all results elided, the two ways to the messages agree exactly on faithful segments. -/
theorem messages_faithful (shortened : ∀ answer, .result answer ∈ outline.items → elided'.contains answer.sequence = true) :
    (elideSegment fromStr (outline.render elided)).messages = (outline.render elided').messages ↔
      outline.Faithful fromStr elided := by
  have items : (elideSegment fromStr (outline.render elided)).messages = (outline.render elided').messages ↔
      ∀ item ∈ outline.items, elideAnswers fromStr outline.ids (outline.first elided) (item.message elided) =
        item.message elided' := by
    rw [elideSegment_render.1, messages, List.map_map]
    exact List.map_inj_left
  have denied : ∀ id name, elideAnswers fromStr outline.ids (outline.first elided)
      ((HistoryItem.denied id name).message elided) = (HistoryItem.denied id name).message elided' ↔
        id ∉ outline.ids := by
    intro id name
    rw [HistoryItem.message, elideAnswers, HistoryItem.message]
    split
    case isTrue recorded =>
      refine iff_of_false (fun same => ?_) (not_not_intro recorded)
      rw [skeletonOf_facts] at same
      exact skeletonText_not_denied _ _ (Message.tool.inj same).2.2
    case isFalse unrecorded => exact iff_of_true rfl unrecorded
  have result : ∀ answer, .result answer ∈ outline.items → (elideAnswers fromStr outline.ids (outline.first elided)
      ((HistoryItem.result answer).message elided) = (HistoryItem.result answer).message elided' ↔
        skeletonFacts (outline.first elided answer.toolCallId)
          (parsedBody fromStr (outline.first elided answer.toolCallId)) =
            skeletonFacts answer.original answer.payload) := by
    intro answer held
    rw [HistoryItem.message, elideAnswers, if_pos (mem_ids held), HistoryItem.message, ToolAnswer.content,
      if_pos (shortened answer held), ToolAnswer.skeleton, skeletonOf_facts, skeleton_facts, Message.tool.injEq,
      skeletonText_inj]
    exact ⟨fun same => same.2.2, fun same => ⟨rfl, rfl, same⟩⟩
  rw [items]
  constructor
  · intro same
    exact ⟨fun id name held => (denied id name).mp (same _ held), fun answer held => (result answer held).mp (same _ held)⟩
  · intro faithful item held
    cases item with
    | prompt | summary | reply => rfl
    | denied id name => exact (denied id name).mpr (faithful.undenied id name held)
    | result answer => exact (result answer held).mpr (faithful.facts answer held)

/-- The line of an item while the results that `short` names already stand as skeletons. -/
def mixedLine (elided : List Nat) (short : ToolAnswer → Bool) : HistoryItem → String
  | .result answer => toolLine (if short answer then answer.skeleton else answer.content elided)
  | item => item.line elided

/-- The line of a result can be told from everything else in the text: results under one id and
results of one content agree, and no line is found across or inside other lines. -/
structure LinesApart (elided : List Nat) (outline : Outline) : Prop where
  repeated : ∀ answer, .result answer ∈ outline.items →
    answer.content elided = outline.first elided answer.toolCallId
  labelled : ∀ answer other, .result answer ∈ outline.items → .result other ∈ outline.items →
    answer.content elided = other.content elided → answer.name.getD "unknown" = other.name.getD "unknown"
  settled : ∀ answer other, .result answer ∈ outline.items → .result other ∈ outline.items →
    answer.skeleton = other.content elided → other.skeleton = other.content elided
  apart : ∀ short answer, .result answer ∈ outline.items →
    Replacing.Apart (toolLine (answer.content elided)) (outline.items.map (mixedLine elided short))

section Text

variable {other : ToolAnswer}

theorem toolLine_inj {content content' : String} : toolLine content = toolLine content' ↔ content = content' := by
  rw [toolLine, toolLine, String.append_left_inj, String.append_right_inj]

theorem toolLine_ne_empty (content : String) : toolLine content ≠ "" := by
  intro empty
  rw [toolLine, String.append_eq_empty_iff] at empty
  exact absurd empty.2 (by decide)

/-- Texts that open differently differ. -/
theorem append_ne_append {opening opening' : String} {count : Nat} (long : count ≤ opening.toList.length)
    (long' : count ≤ opening'.toList.length) (differ : opening.toList.take count ≠ opening'.toList.take count)
    (rest rest' : String) : opening ++ rest ≠ opening' ++ rest' := by
  intro same
  apply differ
  have heads : (opening ++ rest).toList.take count = (opening' ++ rest').toList.take count := by rw [same]
  rwa [String.toList_append, String.toList_append, List.take_append_of_le_length long,
    List.take_append_of_le_length long'] at heads

theorem line_ne_toolLine {item : HistoryItem} (other : ∀ answer, item ≠ .result answer) (content : String) :
    item.line elided ≠ toolLine content := by
  rw [toolLine, String.append_assoc]
  cases item with
  | prompt text =>
      change "[user]\n" ++ text ++ "\n" ≠ _
      rw [String.append_assoc]
      exact @append_ne_append "[user]\n" "[tool]\n" 2 (by decide) (by decide) (by decide) _ _
  | summary text =>
      change "[compacted summary]\n" ++ text ++ "\n" ≠ _
      rw [String.append_assoc]
      exact @append_ne_append "[compacted summary]\n" "[tool]\n" 2 (by decide) (by decide) (by decide) _ _
  | reply text calls =>
      change "[assistant]\n" ++ text ++ "\n" ≠ _
      rw [String.append_assoc]
      exact @append_ne_append "[assistant]\n" "[tool]\n" 2 (by decide) (by decide) (by decide) _ _
  | denied id name =>
      rw [← String.append_assoc]
      exact (toolLine_ne_empty content).symm
  | result answer => exact absurd rfl (other answer)

theorem mixedLine_other {item : HistoryItem} (other : ∀ answer, item ≠ .result answer) (short : ToolAnswer → Bool) :
    mixedLine elided short item = item.line elided := by
  cases item with
  | prompt | summary | reply | denied => rfl
  | result answer => exact absurd rfl (other answer)

/-- On such a segment the skeleton is read off the content that is shown. -/
theorem skeleton_shown (faithful : outline.Faithful fromStr elided) (apart : outline.LinesApart elided)
    (held : .result answer ∈ outline.items) : answer.skeleton =
      skeletonText (answer.name.getD "unknown")
        (skeletonFacts (answer.content elided) (parsedBody fromStr (answer.content elided))) := by
  rw [ToolAnswer.skeleton, skeleton_facts, ← faithful.facts answer held, ← apart.repeated answer held]

theorem skeleton_congr (faithful : outline.Faithful fromStr elided) (apart : outline.LinesApart elided)
    (held : .result answer ∈ outline.items) (held' : .result other ∈ outline.items)
    (same : answer.content elided = other.content elided) : answer.skeleton = other.skeleton := by
  rw [skeleton_shown faithful apart held, skeleton_shown faithful apart held', same,
    apart.labelled answer other held held' same]

/-- The name that the text's skeleton takes is the result's own. -/
theorem lastName_shown (faithful : outline.Faithful fromStr elided) (apart : outline.LinesApart elided)
    (held : .result answer ∈ outline.items) :
    (lastName (outline.messages elided) answer.toolCallId).getD "unknown" = answer.name.getD "unknown" := by
  obtain ⟨names, isNames⟩ : ∃ names, (outline.messages elided).filterMap
      (fun message => (toolMessage answer.toolCallId message).map Prod.fst) = names := ⟨_, rfl⟩
  have here : answer.name ∈ names := by
    rw [← isNames, List.mem_filterMap]
    refine ⟨_, List.mem_map.mpr ⟨_, held, rfl⟩, ?_⟩
    rw [HistoryItem.message, toolMessage, if_pos rfl]
    rfl
  have agree : ∀ name ∈ names, name.getD "unknown" = answer.name.getD "unknown" := by
    intro name listed
    rw [← isNames, List.mem_filterMap] at listed
    obtain ⟨message, said, named⟩ := listed
    obtain ⟨item, among, rfl⟩ := List.mem_map.mp said
    cases item with
    | prompt | summary | reply => cases named
    | denied id tool =>
        rw [HistoryItem.message, toolMessage] at named
        split at named
        case isTrue same => exact absurd (same ▸ mem_ids held) (faithful.undenied id tool among)
        case isFalse => cases named
    | result other =>
        rw [HistoryItem.message, toolMessage] at named
        split at named
        case isFalse => cases named
        case isTrue same =>
          cases named
          refine apart.labelled other answer among held ?_
          rw [apart.repeated other among, apart.repeated answer held, same]
  rw [lastName, isNames, List.getLast?_eq_some_getLast (List.ne_nil_of_mem here)]
  exact agree _ (List.getLast_mem _)

/-- One result, when the line of a content is replaced. -/
theorem mixed_step (faithful : outline.Faithful fromStr elided) (apart : outline.LinesApart elided)
    (held : .result answer ∈ outline.items) (among : .result other ∈ outline.items) (seen : List String) :
    (if mixedLine elided (fun other => decide (other.content elided ∈ seen)) (.result other) =
        toolLine (answer.content elided) then toolLine answer.skeleton
      else mixedLine elided (fun other => decide (other.content elided ∈ seen)) (.result other)) =
      mixedLine elided (fun other => decide (other.content elided ∈ seen ++ [answer.content elided]))
        (.result other) := by
  simp only [mixedLine, toolLine_inj, decide_eq_true_eq, List.mem_append, List.mem_singleton]
  by_cases same : other.content elided = answer.content elided
  · have skeletons := skeleton_congr faithful apart among held same
    rw [if_pos (Or.inr same), skeletons]
    by_cases early : other.content elided ∈ seen
    · rw [if_pos early, ite_self]
    · simp only [if_neg early, if_pos same]
  · by_cases early : other.content elided ∈ seen
    · -- a skeleton that reads like the replaced content is its own skeleton
      simp only [if_pos early, if_pos (Or.inl early)]
      split
      case isTrue shown => rw [apart.settled other answer among held shown, shown]
      case isFalse => rfl
    · simp only [if_neg early, if_neg same, if_neg (not_or.mpr ⟨early, same⟩)]

/-- Replacing the line of one content turns exactly the results of that content into skeletons. -/
theorem replace_mixed (faithful : outline.Faithful fromStr elided) (apart : outline.LinesApart elided)
    (held : .result answer ∈ outline.items) (seen : List String) :
    (String.join (outline.items.map (mixedLine elided fun other => decide (other.content elided ∈ seen)))).replace
        (toolLine (answer.content elided)) (toolLine answer.skeleton) =
      String.join (outline.items.map
        (mixedLine elided fun other => decide (other.content elided ∈ seen ++ [answer.content elided]))) := by
  rw [Replacing.replace_join (toolLine_ne_empty _) (apart.apart _ answer held), List.map_map]
  congr 1
  refine List.map_congr_left fun item among => ?_
  rw [Function.comp_apply]
  by_cases isResult : ∃ other, item = .result other
  · obtain ⟨other, rfl⟩ := isResult
    exact mixed_step faithful apart held among seen
  · have plain : ∀ answer, item ≠ .result answer := fun answer same => isResult ⟨answer, same⟩
    rw [mixedLine_other plain, mixedLine_other plain, if_neg (line_ne_toolLine plain _)]

theorem elideLines_mixed (faithful : outline.Faithful fromStr elided) (apart : outline.LinesApart elided)
    {results : List (Nat × String)} (recorded : ∀ result ∈ results, result ∈ outline.toolResults) (seen : List String) :
    elideLines fromStr (outline.messages elided) (outline.first elided)
        (String.join (outline.items.map (mixedLine elided fun other => decide (other.content elided ∈ seen)))) results =
      String.join (outline.items.map (mixedLine elided fun other =>
        decide (other.content elided ∈ seen ++ results.map fun result => outline.first elided result.2))) := by
  induction results generalizing seen with
  | nil => rw [List.map_nil, List.append_nil]; rfl
  | cons result results ih =>
      obtain ⟨item, held, isResult⟩ := List.mem_filterMap.mp (recorded result List.mem_cons_self)
      cases item with
      | prompt | summary | reply | denied => cases isResult
      | result answer =>
          cases isResult
          have line : skeletonOf fromStr (lastName (outline.messages elided) answer.toolCallId)
              (outline.first elided answer.toolCallId) = answer.skeleton := by
            rw [skeletonOf_facts, lastName_shown faithful apart held, ← apart.repeated answer held,
              ← skeleton_shown faithful apart held]
          have later := ih (fun result listed => recorded result (List.mem_cons_of_mem _ listed))
            (seen ++ [answer.content elided])
          rw [← replace_mixed faithful apart held, List.append_assoc] at later
          rw [elideLines, List.foldl_cons, line, ← apart.repeated answer held, List.map_cons,
            ← apart.repeated answer held]
          exact later

/-- The text replaced in turn is the text the card gives. -/
theorem text_faithful (faithful : outline.Faithful fromStr elided) (apart : outline.LinesApart elided)
    (shortened : ∀ answer, .result answer ∈ outline.items → elided'.contains answer.sequence = true) :
    (elideSegment fromStr (outline.render elided)).text = (outline.render elided').text := by
  have before : (outline.render elided).text = String.join (outline.items.map
      (mixedLine elided fun other => decide (other.content elided ∈ []))) := by
    refine congrArg String.join (List.map_congr_left fun item _ => ?_)
    cases item <;> rfl
  rw [elideSegment_render.2, before, elideLines_mixed faithful apart (fun _ recorded => recorded)]
  refine congrArg String.join (List.map_congr_left fun item held => ?_)
  cases item with
  | prompt | summary | reply | denied => rfl
  | result answer =>
      have listed : answer.content elided ∈ ([] : List String) ++ outline.toolResults.map fun result =>
          outline.first elided result.2 := by
        rw [apart.repeated answer held]
        exact List.mem_map.mpr ⟨(answer.sequence, answer.toolCallId), List.mem_filterMap.mpr ⟨_, held, rfl⟩, rfl⟩
      have shown : answer.content elided' = answer.skeleton := if_pos (shortened answer held)
      exact congrArg toolLine ((if_pos (decide_eq_true listed)).trans shown.symm)

end Text

end Outline

section Card

variable {T : List TranscriptEntry} {boundary : Nat} {card : TranscriptEntry} {elided : List Nat}

/-- The results that some outlines record, in order. -/
def recordedSequences (outlines : List Outline) : List Nat :=
  outlines.flatMap fun outline => outline.toolResults.map Prod.fst

theorem recordedSequences_append (older newer : List Outline) :
    recordedSequences (older ++ newer) = recordedSequences older ++ recordedSequences newer := List.flatMap_append

theorem extend_recorded (entry : TranscriptEntry) (outline : Outline) :
    ((extendOutline entry outline).toolResults.map Prod.fst).Sublist
      (outline.toolResults.map Prod.fst ++ [entry.sequence]) := by
  have kept : (outline.toolResults.map Prod.fst).Sublist (outline.toolResults.map Prod.fst ++ [entry.sequence]) :=
    List.sublist_append_left _ _
  have pushed : ∀ item : HistoryItem, item.recorded = none →
      (outline.push item entry.sequence).toolResults = outline.toolResults := by
    intro item silent
    rw [Outline.toolResults, Outline.push, List.filterMap_append, List.filterMap_cons_none silent]
    exact List.append_nil _
  unfold extendOutline
  cases entry.kind with
  | assistant => dsimp only; rwa [pushed _ rfl]
  | toolResult =>
      dsimp only [outlineResult]
      cases providerResult entry with
      | none => exact kept
      | some found =>
          dsimp only
          split
          case isFalse => exact kept
          case isTrue =>
            rw [Outline.toolResults, Outline.push, List.filterMap_append, List.map_append]
            exact List.Sublist.refl _
  | failure =>
      dsimp only
      split
      case isFalse => exact kept
      case isTrue =>
        have silent : ∀ calls : List ToolCall, (calls.map deniedItem).filterMap HistoryItem.recorded = [] := fun calls => by
          rw [List.filterMap_map]
          exact List.filterMap_eq_nil_iff.mpr fun _ _ => rfl
        rw [Outline.toolResults, List.filterMap_append, silent, List.append_nil]
        exact kept
  | user | toolCall | permission | input | completion | system | compactSummary | toolResultElision => exact kept

/-- Results are recorded in the order of their cards, each once. -/
theorem fold_recorded (outlines : List Outline) (entries : List TranscriptEntry) :
    (recordedSequences (fold outlineRule outlines entries)).Sublist
      (recordedSequences outlines ++ entries.map TranscriptEntry.sequence) := by
  induction entries generalizing outlines with
  | nil => rw [fold_nil, List.map_nil, List.append_nil]
  | cons entry entries ih =>
      have stepped : (recordedSequences (step outlineRule outlines entry)).Sublist
          (recordedSequences outlines ++ [entry.sequence]) := by
        cases opened : outlineRule.opens entry with
        | some outline =>
            have fresh : outline = userOutline entry := by
              dsimp only [outlineRule] at opened
              split at opened
              case isTrue => exact (Option.some.inj opened).symm
              case isFalse => cases opened
            rw [step_opens opened, recordedSequences_append, fresh]
            exact (List.Sublist.refl _).append (List.nil_sublist _)
        | none =>
            rw [step_extends opened]
            induction outlines using List.reverseRecOn with
            | nil => exact List.nil_sublist _
            | append_singleton outlines last _ =>
                rw [List.modifyLast_concat, recordedSequences_append, recordedSequences_append, List.append_assoc]
                refine (List.Sublist.refl _).append ?_
                have single : ∀ outline, recordedSequences [outline] = outline.toolResults.map Prod.fst := fun outline =>
                  List.flatMap_singleton _ _
                rw [single, single]
                exact extend_recorded entry last
      rw [fold_cons, List.map_cons, List.append_cons]
      exact (ih _).trans (stepped.append (List.Sublist.refl _))

theorem outlineOf_recorded : (recordedSequences (outlineOf T)).Sublist (T.map TranscriptEntry.sequence) := by
  unfold outlineOf
  cases newest : newestSummary T with
  | none => exact fold_recorded [] T
  | some found =>
      obtain ⟨before, summary, after⟩ := found
      have early : (recordedSequences (fold outlineRule [] (before.filter (retains summary)))).Sublist
          (before.map TranscriptEntry.sequence) :=
        (fold_recorded [] _).trans (List.filter_sublist.map _)
      rw [(newestSummary_split newest).1, List.map_append, List.map_cons]
      refine (fold_recorded _ _).trans (List.Sublist.append ?_ ?_)
      · exact early
      · exact (List.filter_sublist.map _).trans (List.sublist_cons_self _ _)

/-- A transcript in sequence records every result once. -/
theorem outlineOf_nodup (climbing : Climbing T) : (recordedSequences (outlineOf T)).Nodup := by
  refine outlineOf_recorded.nodup ?_
  rw [List.Nodup, List.pairwise_map]
  exact climbing.imp fun less => Nat.ne_of_lt less

theorem mem_recorded {outlines : List Outline} {outline : Outline} {answer : ToolAnswer} (listed : outline ∈ outlines)
    (held : .result answer ∈ outline.items) : answer.sequence ∈ recordedSequences outlines :=
  List.mem_flatMap.mpr ⟨outline, listed, List.mem_map.mpr
    ⟨(answer.sequence, answer.toolCallId), List.mem_filterMap.mpr ⟨_, held, rfl⟩, rfl⟩⟩

/-- What elision lists is what the outlines below the boundary record. -/
theorem elidePrefix_recorded : (elidePrefix fromStr (scanHistorySegments T) boundary).2 =
    recordedSequences ((outlineOf T).take boundary) := by
  rw [elidePrefix, scan_outline, ← List.map_take, List.flatMap_map, recordedSequences]
  refine List.flatMap_congr fun outline _ => ?_
  rw [targets_answered (render_answered _ outline), List.map_map]
  rfl

/-- The segments in flight and the segments scanned later, outline by outline. -/
theorem elision_outlines (climbing : Climbing T) (appended : RecordsElision fromStr T boundary card) :
    ∃ elided', (∀ outline ∈ (outlineOf T).take boundary, ∀ answer, .result answer ∈ outline.items →
        elided'.contains answer.sequence = true) ∧
      scanHistorySegments (T ++ [card]) = ((outlineOf T).take boundary).map (Outline.render elided') ++
        ((outlineOf T).drop boundary).map (Outline.render (elidedSequences T)) := by
  have listed : elidedSequences (T ++ [card]) =
      elidedSequences T ++ recordedSequences ((outlineOf T).take boundary) := by
    rw [elidedSequences_elision appended.kind, appended.sequences, elidePrefix_recorded]
  refine ⟨elidedSequences (T ++ [card]), ?_, ?_⟩
  · intro outline early answer held
    rw [listed, List.contains_iff_mem, List.mem_append]
    exact .inr (mem_recorded early held)
  · -- the card lists nothing of the segments it leaves alone
    have untouched : ∀ outline ∈ (outlineOf T).drop boundary,
        outline.render (elidedSequences (T ++ [card])) = outline.render (elidedSequences T) := by
      intro outline late
      have apart := outlineOf_nodup climbing
      rw [← List.take_append_drop boundary (outlineOf T), recordedSequences_append, List.nodup_append] at apart
      have same : ∀ answer, .result answer ∈ outline.items →
          (elidedSequences (T ++ [card])).contains answer.sequence = (elidedSequences T).contains answer.sequence := by
        intro answer held
        rw [Bool.eq_iff_iff, List.contains_iff_mem, List.contains_iff_mem, listed, List.mem_append]
        refine ⟨fun either => either.resolve_right fun early => ?_, .inl⟩
        exact apart.2.2 _ early _ (mem_recorded late held) rfl
      have items : ∀ item ∈ outline.items, item.message (elidedSequences (T ++ [card])) = item.message (elidedSequences T) ∧
          item.line (elidedSequences (T ++ [card])) = item.line (elidedSequences T) := by
        intro item held
        cases item with
        | prompt | summary | reply | denied => exact ⟨rfl, rfl⟩
        | result answer =>
            have shown : answer.content (elidedSequences (T ++ [card])) = answer.content (elidedSequences T) := by
              rw [ToolAnswer.content, ToolAnswer.content, same answer held]
            exact ⟨congrArg (Message.tool _ _) shown, congrArg toolLine shown⟩
      simp only [Outline.render, Outline.messages, List.map_congr_left fun item held => (items item held).1,
        List.map_congr_left fun item held => (items item held).2]
    rw [scan_outline, outlineOf_elision appended.kind, ← List.map_congr_left untouched, ← List.map_append,
      List.take_append_drop]

theorem elidePrefix_outlines : (elidePrefix fromStr (scanHistorySegments T) boundary).1 =
    ((outlineOf T).take boundary).map (fun outline => elideSegment fromStr (outline.render (elidedSequences T))) ++
      ((outlineOf T).drop boundary).map (Outline.render (elidedSequences T)) := by
  rw [elidePrefix, scan_outline, ← List.map_take, ← List.map_drop, List.map_map]
  rfl

/-- The request sent in flight and every later one show the same messages exactly when the elided
segments are faithful; with lines that stand apart they also give the summary the same text. -/
theorem elision_card_reproduces (climbing : Climbing T) (appended : RecordsElision fromStr T boundary card) :
    let inFlight := (elidePrefix fromStr (scanHistorySegments T) boundary).1
    let later := scanHistorySegments (T ++ [card])
    (inFlight.map HistorySegment.messages = later.map HistorySegment.messages ↔
        ∀ outline ∈ (outlineOf T).take boundary, outline.Faithful fromStr (elidedSequences T)) ∧
      ((∀ outline ∈ (outlineOf T).take boundary, outline.Faithful fromStr (elidedSequences T) ∧
          outline.LinesApart (elidedSequences T)) →
        inFlight.map HistorySegment.messages = later.map HistorySegment.messages ∧
          inFlight.map HistorySegment.text = later.map HistorySegment.text) := by
  intro inFlight later
  obtain ⟨elided', shortened, scanned⟩ := elision_outlines climbing appended
  have flying : inFlight = _ := elidePrefix_outlines
  have messages : inFlight.map HistorySegment.messages = later.map HistorySegment.messages ↔
      ∀ outline ∈ (outlineOf T).take boundary, outline.Faithful fromStr (elidedSequences T) := by
    rw [flying, show later = _ from scanned, List.map_append, List.map_append, List.append_cancel_right_eq, List.map_map,
      List.map_map, List.map_inj_left]
    exact forall_congr' fun outline => forall_congr' fun early => Outline.messages_faithful (shortened outline early)
  refine ⟨messages, fun kept => ⟨messages.mpr fun outline early => (kept outline early).1, ?_⟩⟩
  rw [flying, show later = _ from scanned, List.map_append, List.map_append, List.map_map, List.map_map,
    List.map_map]
  refine congrArg (· ++ _) (List.map_congr_left fun outline early => ?_)
  exact Outline.text_faithful (kept outline early).1 (kept outline early).2 (shortened outline early)

end Card

section Listing

def listing : Json := .ofMembers [("entries", .array (.ofList [.string "a"]))]

def listingText : String := "\x7b\"entries\":[\"a\"]\x7d"

def listingParser (text : String) : Except String Json := if text = listingText then .ok listing else .error "expected value"

/-- A turn that listed a directory; a truncated listing says so in the payload only. -/
def listingTurn (truncated : Bool) : List TranscriptEntry :=
  [sampleEntry 1 .user "what is here?" none,
    sampleEntry 2 .assistant ""
      (some (.ofMembers [("tool_calls", toolCallsValue [⟨"c1", "list_directory", .object .nil⟩])])),
    sampleEntry 3 .toolResult listingText
      (some (.ofMembers [("tool_call_id", .string "c1"), ("name", .string "list_directory"), ("output", listing),
        ("truncated", .bool truncated), ("provider_content", .string listingText)]))]

def listingCard (sequences : List Nat) : TranscriptEntry :=
  sampleEntry 4 .toolResultElision "" (some (elisionPayload sequences))

theorem listing_recorded (truncated : Bool) :
    RecordsElision listingParser (listingTurn truncated) 1 (listingCard [3]) := by
  cases truncated <;> exact ⟨rfl, by decide +kernel⟩

theorem listing_climbing (truncated : Bool) : Climbing (listingTurn truncated) := by
  unfold Climbing
  cases truncated <;> decide +kernel

def listingAnswer (truncated : Bool) : ToolAnswer :=
  ⟨3, "c1", some "list_directory", listingText, .ofMembers [("tool_call_id", .string "c1"),
    ("name", .string "list_directory"), ("output", listing), ("truncated", .bool truncated),
    ("provider_content", .string listingText)]⟩

def listingOutline (truncated : Bool) : Outline where
  items := [.prompt "what is here?", .reply "" [⟨"c1", "list_directory", .object .nil⟩],
    .result (listingAnswer truncated)]
  firstSequence := some 1
  maxSequence := some 3
  fromSummary := false
  turnId := none

/-- A skeleton tells the size, the failure and the truncation of what it replaces. -/
example : skeletonText "list_files" (16, false, true) =
    "[elided tool result: tool=list_files, original_bytes=16, status=ok, truncated]" := by decide +kernel

theorem listing_outline : outlineOf (listingTurn false) = [listingOutline false] := by decide +kernel

theorem listing_result {answer : ToolAnswer} (held : .result answer ∈ (listingOutline false).items) :
    answer = listingAnswer false := by
  simpa [listingOutline] using held

theorem listing_faithful : (listingOutline false).Faithful listingParser [] where
  undenied id name held := by simp [listingOutline] at held
  facts answer held := by
    rw [listing_result held]
    decide +kernel

theorem listing_apart : (listingOutline false).LinesApart [] where
  repeated answer held := by
    rw [listing_result held]
    decide +kernel
  labelled answer other held held' _ := by rw [listing_result held, listing_result held']
  settled answer other held held' same := by
    rw [listing_result held, listing_result held'] at *
    exact absurd same (by decide +kernel)
  apart short answer held := by
    rw [listing_result held]
    have lines : (listingOutline false).items.map (Outline.mixedLine [] short) =
        ["[user]\nwhat is here?\n", "[assistant]\n\n", toolLine (if short (listingAnswer false) then
          (listingAnswer false).skeleton else (listingAnswer false).content [])] := rfl
    rw [lines]
    cases short (listingAnswer false) with
    | true => decide +kernel
    | false => decide +kernel

theorem elision_card_reproduces_listing :
    (elidePrefix listingParser (scanHistorySegments (listingTurn false)) 1).1.map HistorySegment.messages =
        (scanHistorySegments (listingTurn false ++ [listingCard [3]])).map HistorySegment.messages ∧
      (elidePrefix listingParser (scanHistorySegments (listingTurn false)) 1).1.map HistorySegment.text =
        (scanHistorySegments (listingTurn false ++ [listingCard [3]])).map HistorySegment.text := by
  refine (elision_card_reproduces (listing_climbing false) (listing_recorded false)).2 ?_
  rw [listing_outline]
  intro outline early
  rw [List.mem_singleton.mp early]
  exact ⟨listing_faithful, listing_apart⟩

/-- A truncated listing: in flight it reads as complete, from the card as truncated. -/
theorem listing_not_reproduced : RecordsElision listingParser (listingTurn true) 1 (listingCard [3]) ∧
    (elidePrefix listingParser (scanHistorySegments (listingTurn true)) 1).2 ≠ [] ∧
    (elidePrefix listingParser (scanHistorySegments (listingTurn true)) 1).1.map HistorySegment.messages ≠
      (scanHistorySegments (listingTurn true ++ [listingCard [3]])).map HistorySegment.messages :=
  ⟨listing_recorded true, by decide +kernel, by decide +kernel⟩

end Listing

end LatteCode.Headless
