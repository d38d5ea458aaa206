import LatteCode.Headless.Elision
import LatteCode.Core.Text
/- What the text that a summary is made from carries: prior summaries and the new prompt. -/

namespace LatteCode.Headless

section Truncation

variable {bound : Nat} {text part : List Char}

theorem truncate_starts : truncateUtf8 bound text <+: text := by
  induction text generalizing bound with
  | nil => exact List.nil_prefix
  | cons c text ih =>
      rw [truncateUtf8]
      split
      · exact List.prefix_cons_iff.mpr (.inr ⟨_, rfl, ih⟩)
      · exact List.nil_prefix

theorem truncate_bytes : charBytes (truncateUtf8 bound text) ≤ bound := by
  induction text generalizing bound with
  | nil => exact Nat.zero_le _
  | cons c text ih =>
      rw [truncateUtf8]
      split
      case isTrue fits =>
        have rest := @ih (bound - c.utf8Size)
        rw [charBytes_cons]
        omega
      case isFalse => exact Nat.zero_le _

theorem charBytes_starts {part text : List Char} (starts : part <+: text) : charBytes part ≤ charBytes text := by
  obtain ⟨rest, rfl⟩ := starts
  rw [charBytes_append]
  omega

/-- A cut keeps exactly the prefixes that fit. -/
theorem prefix_truncate (starts : part <+: text) : part <+: truncateUtf8 bound text ↔ charBytes part ≤ bound := by
  refine ⟨fun kept => Nat.le_trans (charBytes_starts kept) truncate_bytes, fun fits => ?_⟩
  induction text generalizing bound part with
  | nil => rw [List.prefix_nil.mp starts]; exact List.nil_prefix
  | cons c text ih =>
      rcases List.prefix_cons_iff.mp starts with rfl | ⟨rest, rfl, inner⟩
      · exact List.nil_prefix
      · rw [charBytes_cons] at fits
        rw [truncateUtf8, if_pos (by omega), List.cons_prefix_cons]
        exact ⟨rfl, ih inner (by omega)⟩

theorem truncate_fits (fits : charBytes text ≤ bound) : truncateUtf8 bound text = text := by
  have whole := (prefix_truncate (List.prefix_refl text)).mpr fits
  exact truncate_starts.eq_of_length_le whole.length_le

/-- A text that does not fit is cut less than one character short of the bound. -/
theorem truncate_full (beyond : bound < charBytes text) : bound ≤ charBytes (truncateUtf8 bound text) + 3 := by
  induction text generalizing bound with
  | nil => exact absurd beyond (Nat.not_lt_zero _)
  | cons c text ih =>
      have width := c.utf8Size_le_four
      rw [charBytes_cons] at beyond
      rw [truncateUtf8]
      split
      case isTrue fits =>
        have rest := @ih (bound - c.utf8Size) (by omega)
        rw [charBytes_cons]
        omega
      case isFalse => omega

def cutText (bound : Nat) (text : String) : String := String.ofList (truncateUtf8 bound text.toList)

theorem cutText_bytes (bound : Nat) (text : String) :
    (cutText bound text).utf8ByteSize = charBytes (truncateUtf8 bound text.toList) := by
  rw [← charBytes_toList, cutText, String.toList_ofList]

theorem cutText_whole {bound : Nat} {text : String} : cutText bound text = text ↔ text.utf8ByteSize ≤ bound := by
  constructor
  · intro whole
    rw [← whole, cutText_bytes]
    exact truncate_bytes
  · intro fits
    rw [cutText, truncate_fits (by rwa [charBytes_toList]), String.ofList_toList]

end Truncation

/-- The bytes that the texts of some segments take. -/
def sourceBytes (segments : List HistorySegment) : Nat := (segments.map fun segment => segment.text.utf8ByteSize).sum

section Parts

variable {bound : Nat} {segment : HistorySegment} {segments newer older : List HistorySegment}

theorem sourceBytes_cons : sourceBytes (segment :: segments) = segment.text.utf8ByteSize + sourceBytes segments := by
  rw [sourceBytes, List.map_cons, List.sum_cons, sourceBytes]

theorem sourceBytes_reverse : sourceBytes segments.reverse = sourceBytes segments := by
  rw [sourceBytes, List.map_reverse, List.sum_reverse, sourceBytes]

theorem summaryParts_cons (more : bound ≠ 0) : summaryParts bound (segment :: older) =
    cutText bound segment.text :: summaryParts (bound - (cutText bound segment.text).utf8ByteSize) older := by
  rw [summaryParts, if_neg more]
  rfl

/-- The share of a segment is its whole text exactly when it fits behind all newer ones. -/
theorem part_whole (wide : 4 ≤ segment.text.utf8ByteSize) :
    (summaryParts bound (newer ++ segment :: older))[newer.length]? = some segment.text ↔
      sourceBytes newer + segment.text.utf8ByteSize ≤ bound := by
  induction newer generalizing bound with
  | nil =>
      rw [List.nil_append]
      by_cases none_ : bound = 0
      · subst none_
        rw [summaryParts]
        exact iff_of_false (fun found => nomatch found) (by omega)
      · rw [summaryParts_cons none_, List.length_nil, List.getElem?_cons_zero, Option.some.injEq, cutText_whole, sourceBytes]
        simp
  | cons newest newer ih =>
      rw [List.cons_append, sourceBytes_cons]
      by_cases none_ : bound = 0
      · subst none_
        rw [summaryParts]
        exact iff_of_false (fun found => nomatch found) (by omega)
      · rw [summaryParts_cons none_, List.length_cons, List.getElem?_cons_succ, ih]
        by_cases fits : newest.text.utf8ByteSize ≤ bound
        · rw [cutText_whole.mpr fits]
          omega
        · -- what a cut leaves over is too little for the segment
          have full := @truncate_full bound newest.text.toList (by rw [charBytes_toList]; omega)
          rw [cutText_bytes]
          omega

theorem parts_bytes : (String.join (summaryParts bound segments)).utf8ByteSize ≤ bound ∧
    (sourceBytes segments ≤ bound → (String.join (summaryParts bound segments)).utf8ByteSize = sourceBytes segments) ∧
    (bound < sourceBytes segments → bound ≤ (String.join (summaryParts bound segments)).utf8ByteSize + 3) := by
  induction segments generalizing bound with
  | nil =>
      refine ⟨Nat.zero_le _, fun _ => rfl, fun beyond => ?_⟩
      rw [sourceBytes] at beyond
      exact absurd beyond (Nat.not_lt_zero _)
  | cons newest segments ih =>
      rw [sourceBytes_cons]
      by_cases none_ : bound = 0
      · subst none_
        rw [summaryParts]
        refine ⟨Nat.zero_le _, fun fits => ?_, fun _ => Nat.zero_le _⟩
        rw [Nat.le_zero.mp fits]
        rfl
      · rw [summaryParts_cons none_, String.join_cons, String.utf8ByteSize_append]
        obtain ⟨below, whole, full⟩ := @ih (bound - (cutText bound newest.text).utf8ByteSize)
        have cut := @truncate_bytes bound newest.text.toList
        rw [← cutText_bytes] at cut
        by_cases fits : newest.text.utf8ByteSize ≤ bound
        · have same := congrArg String.utf8ByteSize (cutText_whole.mpr fits)
          refine ⟨by omega, fun _ => ?_, fun _ => ?_⟩
          · have rest := whole (by omega)
            omega
          · have rest := full (by omega)
            omega
        · have near := @truncate_full bound newest.text.toList (by rw [charBytes_toList]; omega)
          rw [← cutText_bytes] at near
          exact ⟨by omega, by omega, by omega⟩

end Parts

namespace Planner

variable (P : Planner)

/-- The text a pre-turn summary is made from. -/
def summarySource (segments : List HistorySegment) (boundary : Nat) (prompt : String) : String :=
  let (retained, source) := compactionSource segments boundary P.policy.compaction
  if retained.isNone then P.foldPrompt source prompt else source

/-- The limit on the bytes of a summary source. -/
def sourceLimit : Nat := P.policy.compaction.maxSummarySourceBytes

/-- What stands before and with the folded prompt. -/
def promptFrame (prompt : String) : String := "\n[user]\n" ++ P.redactSessionText prompt

/-- No retained segment has a sequence: the card will supersede the prompt as well. -/
def Superseding (segments : List HistorySegment) (boundary : Nat) : Prop :=
  (compactionSource segments boundary P.policy.compaction).1 = none

/-- The shares of prior summaries and of the superseded prompt are whole. -/
structure Carries (segments : List HistorySegment) (boundary : Nat) (prompt : String) : Prop where
  summaries : ∀ older segment newer, segments.take boundary = older ++ segment :: newer →
    segment.fromSummary = true →
      (summaryParts P.sourceLimit (segments.take boundary).reverse)[newer.length]? = some segment.text
  prompt : P.Superseding segments boundary →
    ((compactionSource segments boundary P.policy.compaction).2 ++ P.promptFrame prompt).toList <+:
      (P.summarySource segments boundary prompt).toList

/-- Prior summaries and the superseded prompt fit without anything else. -/
def FitAlone (segments : List HistorySegment) (boundary : Nat) (prompt : String) : Prop :=
  sourceBytes ((segments.take boundary).filter HistorySegment.fromSummary) +
    (if (compactionSource segments boundary P.policy.compaction).1.isNone then
      (P.redactSessionText prompt).utf8ByteSize else 0) ≤ P.sourceLimit

/-- They fit together with every superseded segment that is newer. -/
structure Roomy (segments : List HistorySegment) (boundary : Nat) (prompt : String) : Prop where
  summaries : ∀ older segment newer, segments.take boundary = older ++ segment :: newer →
    segment.fromSummary = true → sourceBytes newer + segment.text.utf8ByteSize ≤ P.sourceLimit
  prompt : P.Superseding segments boundary →
    sourceBytes (segments.take boundary) + (P.promptFrame prompt).utf8ByteSize ≤ P.sourceLimit

/-- What a summarizer can read in the source. -/
structure Contains (segments : List HistorySegment) (boundary : Nat) (prompt : String) : Prop where
  summaries : ∀ segment ∈ segments.take boundary, segment.fromSummary = true →
    segment.text.toList <:+: (P.summarySource segments boundary prompt).toList
  prompt : P.Superseding segments boundary →
    (P.redactSessionText prompt).toList <:+: (P.summarySource segments boundary prompt).toList

variable {P} {segments : List HistorySegment} {boundary : Nat} {prompt : String}

theorem compactionSource_text : (compactionSource segments boundary P.policy.compaction).2 =
    String.join (summaryParts P.sourceLimit (segments.take boundary).reverse) := rfl

theorem compactionSource_bytes :
    (compactionSource segments boundary P.policy.compaction).2.utf8ByteSize ≤ P.sourceLimit := by
  rw [compactionSource_text]
  exact parts_bytes.1

theorem foldPrompt_cut (source : String) : P.foldPrompt source prompt =
    cutText P.sourceLimit (source ++ P.promptFrame prompt ++ "\n") := by
  have framed : source ++ "\n[user]\n" ++ P.redactSessionText prompt ++ "\n" =
      source ++ P.promptFrame prompt ++ "\n" := by
    rw [promptFrame, ← String.append_assoc]
  rw [foldPrompt, framed]
  rfl

theorem summarySource_folded (superseding : P.Superseding segments boundary) :
    P.summarySource segments boundary prompt =
      cutText P.sourceLimit ((compactionSource segments boundary P.policy.compaction).2 ++ P.promptFrame prompt ++ "\n") := by
  rw [← foldPrompt_cut, summarySource]
  exact if_pos (Option.isNone_iff_eq_none.mpr superseding)

theorem summarySource_plain (retaining : ¬ P.Superseding segments boundary) :
    P.summarySource segments boundary prompt = (compactionSource segments boundary P.policy.compaction).2 := by
  rw [summarySource]
  exact if_neg fun absent => retaining (Option.isNone_iff_eq_none.mp absent)

theorem summarySource_bytes : (P.summarySource segments boundary prompt).utf8ByteSize ≤ P.sourceLimit := by
  by_cases superseding : P.Superseding segments boundary
  · rw [summarySource_folded superseding, cutText_bytes]
    exact truncate_bytes
  · rw [summarySource_plain superseding]
    exact compactionSource_bytes

/-- Folding the prompt in cuts nothing of what the segments gave. -/
theorem compactionSource_kept : (compactionSource segments boundary P.policy.compaction).2.toList <+:
    (P.summarySource segments boundary prompt).toList := by
  by_cases superseding : P.Superseding segments boundary
  · rw [summarySource_folded superseding, cutText, String.toList_ofList, String.append_assoc, String.toList_append,
      prefix_truncate (List.prefix_append _ _), charBytes_toList]
    exact compactionSource_bytes
  · simp only [summarySource_plain superseding, List.prefix_refl]

theorem prompt_whole (superseding : P.Superseding segments boundary) :
    ((compactionSource segments boundary P.policy.compaction).2 ++ P.promptFrame prompt).toList <+:
        (P.summarySource segments boundary prompt).toList ↔
      sourceBytes (segments.take boundary) + (P.promptFrame prompt).utf8ByteSize ≤ P.sourceLimit := by
  have frame : 8 ≤ (P.promptFrame prompt).utf8ByteSize := by
    rw [promptFrame, String.utf8ByteSize_append]
    exact Nat.le_add_right 8 _
  obtain ⟨below, whole, full⟩ := @parts_bytes P.sourceLimit (segments.take boundary).reverse
  rw [← compactionSource_text, sourceBytes_reverse] at *
  have starts : ((compactionSource segments boundary P.policy.compaction).2 ++ P.promptFrame prompt).toList <+:
      ((compactionSource segments boundary P.policy.compaction).2 ++ P.promptFrame prompt ++ "\n").toList := by
    rw [@String.toList_append _ "\n"]
    exact List.prefix_append _ _
  rw [summarySource_folded superseding, cutText, String.toList_ofList, prefix_truncate starts, charBytes_toList,
    String.utf8ByteSize_append]
  by_cases fits : sourceBytes (segments.take boundary) ≤ P.sourceLimit
  · rw [whole fits]
  · have near := full (by omega)
    omega

theorem carries_iff_roomy
    (wide : ∀ segment ∈ segments.take boundary, segment.fromSummary = true → 4 ≤ segment.text.utf8ByteSize) :
    P.Carries segments boundary prompt ↔ P.Roomy segments boundary prompt := by
  have share : ∀ older segment newer, segments.take boundary = older ++ segment :: newer →
      segment.fromSummary = true →
        ((summaryParts P.sourceLimit (segments.take boundary).reverse)[newer.length]? = some segment.text ↔
          sourceBytes newer + segment.text.utf8ByteSize ≤ P.sourceLimit) := by
    intro older segment newer split summary
    have listed : segment ∈ segments.take boundary := by
      rw [split]
      exact List.mem_append_right _ List.mem_cons_self
    have fits := @part_whole P.sourceLimit segment newer.reverse older.reverse (wide segment listed summary)
    rw [List.length_reverse, sourceBytes_reverse] at fits
    rw [split, List.reverse_append, List.reverse_cons, List.append_assoc, List.singleton_append]
    exact fits
  constructor
  · intro carries
    exact ⟨fun older segment newer split summary => (share older segment newer split summary).mp
      (carries.summaries older segment newer split summary),
      fun superseding => (prompt_whole superseding).mp (carries.prompt superseding)⟩
  · intro roomy
    exact ⟨fun older segment newer split summary => (share older segment newer split summary).mpr
      (roomy.summaries older segment newer split summary),
      fun superseding => (prompt_whole superseding).mpr (roomy.prompt superseding)⟩

theorem infix_join {texts : List String} {text : String} (listed : text ∈ texts) :
    text.toList <:+: (String.join texts).toList := by
  obtain ⟨before, after, rfl⟩ := List.append_of_mem listed
  rw [String.join_append, String.join_cons, String.toList_append, String.toList_append, ← List.append_assoc]
  exact ⟨_, _, rfl⟩

theorem Carries.contains (carries : P.Carries segments boundary prompt) : P.Contains segments boundary prompt where
  summaries := by
    intro segment listed summary
    obtain ⟨older, newer, split⟩ := List.append_of_mem listed
    have share := carries.summaries older segment newer split summary
    have within := infix_join (List.mem_of_getElem? share)
    exact within.trans compactionSource_kept.isInfix
  prompt := by
    intro superseding
    have frame := carries.prompt superseding
    rw [promptFrame, ← String.append_assoc, String.toList_append] at frame
    exact (List.suffix_append _ _).isInfix.trans frame.isInfix

end Planner

/-- A segment made from a summary opens with the summary's heading. -/
def Headed (segment : HistorySegment) : Prop :=
  segment.fromSummary = true → ∃ rest, segment.text = "[compacted summary]\n" ++ rest

theorem Headed.wide {segment : HistorySegment} (headed : Headed segment) (summary : segment.fromSummary = true) :
    4 ≤ segment.text.utf8ByteSize := by
  obtain ⟨rest, text⟩ := headed summary
  rw [text, String.utf8ByteSize_append]
  exact Nat.le_trans (show 4 ≤ "[compacted summary]\n".utf8ByteSize by decide) (Nat.le_add_right _ _)

section Heading

variable {fromStr : String → Except String Json} {T : List TranscriptEntry} {segments : List HistorySegment}
  {boundary : Nat}

/-- The item that a summary's outline opens with. -/
def OpensWithSummary (outline : Outline) : Prop :=
  outline.fromSummary = true → ∃ text items, outline.items = .summary text :: items

theorem extend_opensWithSummary {entry : TranscriptEntry} {outline : Outline} (opens : OpensWithSummary outline) :
    OpensWithSummary (extendOutline entry outline) := by
  have pushed : ∀ items, OpensWithSummary { outline with items := outline.items ++ items } := by
    intro items summary
    obtain ⟨text, rest, shape⟩ := opens summary
    exact ⟨text, rest ++ items, by rw [shape]; rfl⟩
  unfold extendOutline
  cases entry.kind with
  | assistant => exact pushed [_]
  | toolResult =>
      dsimp only [outlineResult]
      cases providerResult entry with
      | none => exact opens
      | some found =>
          dsimp only
          split
          · exact pushed [_]
          · exact opens
  | failure =>
      dsimp only
      split
      · exact pushed _
      · exact opens
  | user | toolCall | permission | input | completion | system | compactSummary | toolResultElision => exact opens

theorem fold_opensWithSummary {outlines : List Outline} {entries : List TranscriptEntry}
    (start : ∀ outline ∈ outlines, OpensWithSummary outline) :
    ∀ outline ∈ Grouping.fold outlineRule outlines entries, OpensWithSummary outline := by
  apply Grouping.forall_fold start
  · intro entry _ outline opened
    dsimp only [outlineRule] at opened
    split at opened
    case isTrue =>
      rw [← Option.some.inj opened]
      exact fun summary => nomatch summary
    case isFalse => cases opened
  · exact fun entry _ outline opens => extend_opensWithSummary opens

theorem outlineOf_opensWithSummary : ∀ outline ∈ outlineOf T, OpensWithSummary outline := by
  unfold outlineOf
  cases newestSummary T with
  | none => exact fold_opensWithSummary fun _ listed => absurd listed List.not_mem_nil
  | some found =>
      refine fold_opensWithSummary fun outline listed => ?_
      rcases List.mem_cons.mp listed with rfl | retained
      · exact fun _ => ⟨_, [], rfl⟩
      · exact fold_opensWithSummary (fun _ listed => absurd listed List.not_mem_nil) outline retained

theorem scan_headed : ∀ segment ∈ scanHistorySegments T, Headed segment := by
  rw [scan_outline]
  intro segment listed summary
  obtain ⟨outline, held, rfl⟩ := List.mem_map.mp listed
  obtain ⟨text, items, shape⟩ := outlineOf_opensWithSummary outline held summary
  refine ⟨text ++ "\n" ++ String.join (items.map (HistoryItem.line (elidedSequences T))), ?_⟩
  rw [Outline.render, shape, List.map_cons, String.join_cons, ← String.append_assoc, ← String.append_assoc]
  rfl

/-- No line of a tool result starts inside the heading. -/
theorem heading_untouched (content : String) (rest : List Char) :
    Replacing.Untouched (toolLine content).toList "[compacted summary]\n".toList rest := by
  intro i inside starts
  obtain ⟨tail, whole⟩ := starts
  rw [toolLine, String.append_assoc, String.toList_append, List.append_assoc] at whole
  have only : ∀ i < "[compacted summary]\n".toList.length,
      ("[compacted summary]\n".toList.drop i).head? = some '[' → i = 0 := by decide
  cases shape : "[compacted summary]\n".toList.drop i with
  | nil => exact absurd (List.drop_eq_nil_iff.mp shape) (Nat.not_le.mpr inside)
  | cons first others =>
      rw [shape] at whole
      have start := only i inside (by rw [shape, ← (List.cons.inj whole).1]; rfl)
      subst start
      rw [← shape] at whole
      exact absurd (List.cons.inj (List.cons.inj whole).2).1 (by decide)

theorem elideLines_headed (messages : List Message) (first : String → String) (results : List (Nat × String))
    (rest : String) : ∃ rest', elideLines fromStr messages first ("[compacted summary]\n" ++ rest) results =
      "[compacted summary]\n" ++ rest' := by
  induction results generalizing rest with
  | nil => exact ⟨rest, rfl⟩
  | cons result results ih =>
      rw [elideLines, List.foldl_cons]
      obtain ⟨line, isLine⟩ : ∃ line, toolLine (skeletonOf fromStr (lastName messages result.2) (first result.2)) =
          line := ⟨_, rfl⟩
      have replaced : ("[compacted summary]\n" ++ rest).replace (toolLine (first result.2)) line =
          "[compacted summary]\n" ++ rest.replace (toolLine (first result.2)) line := by
        rw [← String.toList_inj, Replacing.toList_replace (Outline.toolLine_ne_empty _), String.toList_append,
          Replacing.replaced_copy (heading_untouched _ _), String.toList_append,
          Replacing.toList_replace (Outline.toolLine_ne_empty _)]
      rw [isLine, replaced]
      exact ih _

theorem elideSegment_fromSummary {segment : HistorySegment} :
    (elideSegment fromStr segment).fromSummary = segment.fromSummary := by
  rw [elideSegment]
  generalize elisionTargets segment = targets
  induction targets generalizing segment with
  | nil => rfl
  | cons target targets ih => exact ih

theorem elideSegment_headed {segment : HistorySegment} (answered : Answered segment) (headed : Headed segment) :
    Headed (elideSegment fromStr segment) := by
  intro summary
  obtain ⟨rest, text⟩ := headed (elideSegment_fromSummary.symm.trans summary)
  rw [elideSegment, targets_answered answered, (foldl_elideTarget _).2, text]
  exact elideLines_headed _ _ _ _

/-- The segments that the planner hands to the summary tier, elided or not. -/
theorem prepared_headed : ∀ segment ∈ (elidePrefix fromStr (scanHistorySegments T) boundary).1, Headed segment := by
  intro segment listed
  rcases List.mem_append.mp listed with early | late
  · obtain ⟨earlier, held, rfl⟩ := List.mem_map.mp early
    have scanned := List.mem_of_mem_take held
    exact elideSegment_headed (scan_answered earlier scanned) (scan_headed earlier scanned)
  · exact scan_headed segment (List.mem_of_mem_drop late)

end Heading

/-- The summary source keeps to its limit always, and carries what fits alone exactly when it also
fits behind everything newer; what it carries can be read in it. -/
theorem summary_source_carries (P : Planner) {segments : List HistorySegment} {boundary : Nat} {prompt : String}
    (headed : ∀ segment ∈ segments, Headed segment) :
    (P.summarySource segments boundary prompt).utf8ByteSize ≤ P.sourceLimit ∧
      ((P.FitAlone segments boundary prompt → P.Carries segments boundary prompt) ↔
        (P.FitAlone segments boundary prompt → P.Roomy segments boundary prompt)) ∧
      (P.Carries segments boundary prompt → P.Contains segments boundary prompt) := by
  have exact_ : P.Carries segments boundary prompt ↔ P.Roomy segments boundary prompt :=
    Planner.carries_iff_roomy fun segment listed => (headed segment (List.mem_of_mem_take listed)).wide
  exact ⟨Planner.summarySource_bytes, by rw [exact_], Planner.Carries.contains⟩

def boundedPlanner (limit : Nat) : Planner :=
  { samplePlanner with policy := { samplePlanner.policy with compaction := ⟨.summarizeOnDiscard, 90, 1, limit⟩ } }

/-- A summary and the question that followed it. -/
def summarizedSegments : List HistorySegment :=
  [.summarySegment 4 none (.user "use port 8080") "[compacted summary]\nuse port 8080\n",
    .new (some 5) none [.user "please look at the code"] "[user]\nplease look at the code\n"]

theorem summarizedSegments_headed : ∀ segment ∈ summarizedSegments, Headed segment := by
  intro segment listed summary
  rcases List.mem_cons.mp listed with rfl | later
  · exact ⟨"use port 8080\n", by decide⟩
  · rw [List.mem_singleton.mp later] at summary
    cases summary

theorem summarizedSegments_roomy : (boundedPlanner 96).Roomy summarizedSegments 2 "go" where
  summaries := by
    intro older segment newer split _
    have total : sourceBytes (summarizedSegments.take 2) ≤ 65 := by decide +kernel
    have limit : (boundedPlanner 96).sourceLimit = 96 := rfl
    rw [split, sourceBytes, List.map_append, List.map_cons, List.sum_append, List.sum_cons] at total
    rw [sourceBytes, limit]
    omega
  prompt := by
    intro _
    decide +kernel

theorem summary_source_carries_roomy : (boundedPlanner 96).Contains summarizedSegments 2 "go" := by
  obtain ⟨_, carries, contains⟩ := @summary_source_carries (boundedPlanner 96) summarizedSegments 2 "go"
    summarizedSegments_headed
  exact contains (carries.mpr (fun _ => summarizedSegments_roomy) (by unfold Planner.FitAlone; decide +kernel))

/-- Under a limit that the summary and the prompt alone would keep, the newer question takes their room. -/
theorem summary_source_crowded : (boundedPlanner 48).FitAlone summarizedSegments 2 "go" ∧
    (boundedPlanner 48).Superseding summarizedSegments 2 ∧
    ¬ "[compacted summary]\nuse port 8080\n".toList <:+:
      ((boundedPlanner 48).summarySource summarizedSegments 2 "go").toList ∧
    ¬ "go".toList <:+: ((boundedPlanner 48).summarySource summarizedSegments 2 "go").toList := by
  unfold Planner.FitAlone Planner.Superseding
  decide +kernel

end LatteCode.Headless
