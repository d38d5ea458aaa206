import LatteCode.Headless.Compaction
/- A summary card replays the segments that it retained, and nothing older. -/

namespace LatteCode.Headless
open Grouping Outcome

section Openings

variable {entries before after prompts : List TranscriptEntry} {card opening entry : TranscriptEntry}
  {elided : List Nat} {b : Nat}

/-- What stands after a retained entry is retained, the compaction cards apart. -/
theorem retains_after (kept : retains card opening = true)
    (later : ∀ entry ∈ after, opening.sequence < entry.sequence) :
    after.filter (retains card) = after.filter inSegments := by
  apply List.filter_congr
  intro entry listed
  unfold retains at kept ⊢
  rw [Bool.and_eq_true] at kept
  obtain ⟨_, floor⟩ := kept
  rw [Option.any_eq_true] at floor
  obtain ⟨from_, found, below⟩ := floor
  have above : from_ ≤ entry.sequence :=
    Nat.le_of_lt (Nat.lt_of_le_of_lt (of_decide_eq_true below) (later entry listed))
  rw [found, Option.any_some, decide_eq_true above, Bool.and_true]
  rfl

theorem inSegments_of_notElision : (after.filter fun entry => entry.kind ≠ .toolResultElision).filter inSegments =
    after.filter inSegments := by
  rw [List.filter_filter]
  apply List.filter_congr
  intro entry _
  unfold inSegments
  cases entry.kind <;> rfl

theorem not_inSegments_summary (summary : card.kind = .compactSummary) : inSegments card = false := by
  simp [inSegments, summary]

/-- The split of a filtered list, in the list itself. -/
theorem filter_split {p : TranscriptEntry → Bool} {first rest : List TranscriptEntry}
    (split : entries.filter p = first ++ opening :: rest) :
    ∃ before after, entries = before ++ opening :: after ∧ p opening = true ∧ after.filter p = rest := by
  obtain ⟨left, right, whole, _, tail⟩ := List.filter_eq_append_iff.mp split
  obtain ⟨skipped, after, whole', _, kept, rest⟩ := List.filter_eq_cons_iff.mp tail
  exact ⟨left ++ skipped, after, by rw [whole, whole', List.append_assoc], kept, rest⟩

/-- Two logs with the same prompts and answers fold to the same segments. -/
theorem fold_congr_inSegments {first second : List TranscriptEntry} (same : first.filter inSegments = second.filter inSegments) :
    fold (historyRule elided) [] first = fold (historyRule elided) [] second := by
  rw [← fold_inSegments [] first, same, fold_inSegments]

/-- The segments from `b` on are what the log says from the prompt that opened segment `b`. -/
theorem scan_opening (climbing : Climbing entries) (past : 0 < b ∨ newestSummary entries = none)
    (bound : b < (scanHistorySegments entries).length) :
    ∃ before opening after, entries = before ++ opening :: after ∧ opening.kind = .user ∧
      (scanHistorySegments entries).drop b =
        fold (historyRule (elidedSequences entries)) [] (opening :: after) := by
  cases newest : newestSummary entries with
  | none =>
      have scanned : scanHistorySegments entries =
          fold (historyRule (elidedSequences entries)) [] entries := by
        rw [scanHistorySegments, newest]
        exact foldl_applyEntry _ _ _
      rw [scanned] at bound ⊢
      generalize elidedSequences entries = elided at bound ⊢
      obtain ⟨before, opening, after, segment, split, opened, counted⟩ :=
        exists_opening (Nat.zero_le b) bound
      refine ⟨before, opening, after, split, (opens_some opened).1, ?_⟩
      rw [split, ← counted, drop_fold opened]
  | some found =>
      obtain ⟨older, card, newer⟩ := found
      obtain ⟨whole, summary, _⟩ := newestSummary_split newest
      have positive : 0 < b := past.resolve_right (by rw [newest]; exact Option.some_ne_none _)
      have scanned : scanHistorySegments entries =
          fold (historyRule (elidedSequences entries))
            (summaryOf card :: fold (historyRule (elidedSequences entries)) [] (older.filter (retains card)))
            (newer.filter fun entry => entry.kind ≠ .toolResultElision) := by
        rw [scanHistorySegments, newest]
        simp only [foldl_applyEntry]
      rw [scanned] at bound ⊢
      generalize elidedSequences entries = elided at bound ⊢
      by_cases early : b - 1 < (fold (historyRule elided) [] (older.filter (retains card))).length
      · -- the opening prompt replays from before the card
        obtain ⟨first, opening, rest, segment, split, opened, counted⟩ :=
          exists_opening (Nat.zero_le (b - 1)) early
        obtain ⟨before, after, inside, kept, tail⟩ := filter_split split
        refine ⟨before, opening, after ++ card :: newer, ?_, (opens_some opened).1, ?_⟩
        · rw [whole, inside, List.append_assoc]
          rfl
        have later : ∀ entry ∈ after, opening.sequence < entry.sequence := by
          rw [whole, inside, Climbing, List.pairwise_append] at climbing
          have inner := (List.pairwise_append.mp climbing.1).2.1
          exact (List.pairwise_cons.mp inner).1
        rw [split, fold_append, fold_opened opened, ← List.cons_append,
          fold_local (fold_opened_ne_nil opened), ← fold_append]
        have places : (summaryOf card :: fold (historyRule elided) [] first).length = b := by
          rw [List.length_cons, counted]
          omega
        rw [← places, List.drop_left]
        apply fold_congr_inSegments
        rw [← tail, retains_after kept later, List.cons_append, List.filter_cons, List.filter_cons,
          List.filter_append, List.filter_append, List.filter_filter, List.filter_cons,
          not_inSegments_summary summary, inSegments_of_notElision]
        simp only [Bool.and_self, Bool.false_eq_true, if_false]
      · have past : (summaryOf card :: fold (historyRule elided) [] (older.filter (retains card))).length ≤ b := by
          rw [List.length_cons]
          omega
        obtain ⟨first, opening, rest, segment, split, opened, counted⟩ := exists_opening past bound
        obtain ⟨before, after, inside, _, tail⟩ := filter_split split
        refine ⟨older ++ card :: before, opening, after, ?_, (opens_some opened).1, ?_⟩
        · rw [whole, inside, List.append_assoc]
          rfl
        rw [split, ← counted, drop_fold opened]
        apply fold_congr_inSegments
        rw [← tail, List.filter_cons, List.filter_cons, inSegments_of_notElision]

theorem fold_prompts (prompted : ∀ entry ∈ prompts, entry.kind = .user) (segments : List HistorySegment) :
    fold (historyRule elided) segments prompts = segments ++ prompts.map userSegment := by
  induction prompts generalizing segments with
  | nil => rw [fold_nil, List.map_nil, List.append_nil]
  | cons entry prompts ih =>
      rw [fold_cons, step_opens (opens_user (prompted entry List.mem_cons_self)),
        ih fun later listed => prompted later (List.mem_cons_of_mem _ listed), List.map_cons, List.append_assoc]
      rfl

theorem first_of_fold (prompt : opening.kind = .user) :
    (fold (historyRule elided) [] (opening :: after)).findSome? HistorySegment.firstSequence =
      some opening.sequence := by
  have heads := head_fold (extend_first elided) (userSegment opening) [] after
  rw [fold_cons, step_opens (opens_user prompt), List.nil_append]
  cases folded : fold (historyRule elided) [userSegment opening] after with
  | nil =>
      rw [folded] at heads
      cases heads
  | cons segment rest =>
      rw [folded, List.head?_cons, Option.map_some, Option.some_inj] at heads
      rw [List.findSome?_cons, heads]
      rfl

theorem elidedSequences_append (quiet : ∀ entry ∈ after, entry.kind ≠ .toolResultElision) :
    elidedSequences (entries ++ after) = elidedSequences entries := by
  have none_ : after.filter (fun entry => entry.kind = .toolResultElision) = [] := by
    rw [List.filter_eq_nil_iff]
    intro entry listed
    simpa using quiet entry listed
  rw [elidedSequences, List.filter_append, none_, List.append_nil, elidedSequences]

end Openings

section Replay

variable {T prompts : List TranscriptEntry} {card : TranscriptEntry} {b floor : Nat}

/-- The entries that the new card retains, from the prompt its floor names. -/
theorem filter_retains {before after : List TranscriptEntry} {opening : TranscriptEntry}
    (climbing : Climbing (before ++ opening :: after ++ prompts ++ [card])) (prompt : opening.kind = .user)
    (prompted : ∀ entry ∈ prompts, entry.kind = .user) (retained : retainFrom card = some opening.sequence) :
    (before ++ opening :: after ++ prompts).filter (retains card) =
      (opening :: after).filter inSegments ++ prompts := by
  have climbs := (List.pairwise_append.mp climbing).1
  obtain ⟨inner, _, across⟩ := List.pairwise_append.mp climbs
  obtain ⟨_, tail, below⟩ := List.pairwise_append.mp inner
  have older : before.filter (retains card) = [] := by
    rw [List.filter_eq_nil_iff]
    intro entry listed replayed
    have less := below entry listed opening List.mem_cons_self
    simp only [retains, retained, Option.any_some, Bool.and_eq_true, decide_eq_true_eq] at replayed
    omega
  have kept : retains card opening = true := by
    simp [retains, retained, prompt]
  have newer : prompts.filter (retains card) = prompts := by
    rw [List.filter_eq_self]
    intro entry listed
    have above := across opening (List.mem_append_right _ List.mem_cons_self) entry listed
    simp [retains, retained, prompted entry listed, Nat.le_of_lt above]
  rw [List.filter_append, List.filter_append, older, List.nil_append, newer, List.filter_cons_of_pos kept,
    retains_after kept (List.pairwise_cons.mp tail).1, List.filter_cons_of_pos (inSegments_user prompt)]

/-- Appending a card with the first sequence of segment `b` replays exactly the segments from `b` on. -/
theorem scan_summary (climbing : Climbing (T ++ prompts ++ [card]))
    (prompted : ∀ entry ∈ prompts, entry.kind = .user) (summary : card.kind = .compactSummary)
    (retained : retainFrom card = some floor) (past : 0 < b)
    (first : ((scanHistorySegments T).drop b).findSome? HistorySegment.firstSequence = some floor) :
    scanHistorySegments (T ++ prompts ++ [card]) =
      summaryOf card :: (scanHistorySegments T).drop b ++ prompts.map userSegment := by
  have bound : b < (scanHistorySegments T).length := by
    rw [← Nat.not_le]
    intro short
    rw [List.drop_eq_nil_of_le short] at first
    cases first
  obtain ⟨before, opening, after, split, prompt, dropped⟩ :=
    scan_opening (List.pairwise_append.mp (List.pairwise_append.mp climbing).1).1 (.inl past) bound
  have opened : opening.sequence = floor := by
    rw [dropped, first_of_fold prompt] at first
    exact Option.some.inj first
  have quiet : ∀ entry ∈ prompts ++ [card], entry.kind ≠ .toolResultElision := by
    intro entry listed
    rw [List.mem_append, List.mem_singleton] at listed
    rcases listed with asked | rfl
    · rw [prompted entry asked]
      decide
    · rw [summary]
      decide
  have newest : newestSummary (T ++ prompts ++ [card]) = some (T ++ prompts, card, []) :=
    newestSummary_of_split summary fun _ listed => nomatch listed
  have elided : elidedSequences (T ++ prompts ++ [card]) = elidedSequences T := by
    rw [List.append_assoc]
    exact elidedSequences_append quiet
  have replayed : (T ++ prompts).filter (retains card) = (opening :: after).filter inSegments ++ prompts := by
    rw [split] at climbing ⊢
    exact filter_retains climbing prompt prompted (by rw [retained, opened])
  rw [scanHistorySegments, newest, elided]
  simp only [List.filter_nil, List.foldl_nil, foldl_applyEntry]
  rw [replayed, fold_append, fold_inSegments, ← dropped, fold_prompts prompted]
  rfl

end Replay

section Sites

variable {P : Planner} {T : List TranscriptEntry} {tails : VolatileTurnContext} {prompt : String}
  {segments : List HistorySegment} {b budget : Nat}

theorem drop_elidePrefix (fromStr : String → Except String Json) (segments : List HistorySegment) (b : Nat) :
    (elidePrefix fromStr segments b).1.drop b = segments.drop b := by
  rw [elidePrefix]
  rcases Nat.le_total b segments.length with inside | outside
  · have places : ((segments.take b).map (elideSegment fromStr)).length = b := by
      rw [List.length_map, List.length_take, Nat.min_eq_left inside]
    exact List.drop_left' places
  · rw [List.drop_eq_nil_of_le outside, List.append_nil, List.drop_eq_nil_of_le]
    rw [List.length_map, List.length_take]
    exact Nat.min_le_left _ _

theorem proactiveRetainBoundary_pos {F : FloatFormat} {ratio tail : Nat}
    (chosen : proactiveRetainBoundary F segments budget ratio tail = some b) : 0 < b := by
  rw [proactiveRetainBoundary] at chosen
  split at chosen
  case isTrue positive =>
    cases chosen
    exact positive
  case isFalse => cases chosen

theorem preTurnBoundary_pos (chosen : P.preTurnBoundary budget segments tails prompt = some b) : 0 < b := by
  unfold Planner.preTurnBoundary at chosen
  dsimp only at chosen
  split at chosen
  · cases chosen
  · split at chosen
    case isTrue discarded =>
      cases chosen
      exact discarded
    case isFalse =>
      split at chosen
      · exact proactiveRetainBoundary_pos chosen
      · cases chosen

theorem midTurnBoundary_pos {forced : Bool} (chosen : P.midTurnBoundary budget segments tails forced = some b) :
    0 < b := by
  unfold Planner.midTurnBoundary at chosen
  dsimp only at chosen
  split at chosen
  · cases chosen
  · split at chosen
    case isTrue discarded =>
      cases chosen
      exact discarded
    case isFalse =>
      split at chosen
      · exact proactiveRetainBoundary_pos chosen
      · cases chosen

theorem manualBoundary_pos (chosen : P.manualBoundary budget segments = some b) : 0 < b := by
  unfold Planner.manualBoundary at chosen
  split at chosen
  · cases chosen
  · exact proactiveRetainBoundary_pos (Option.filter_eq_some_iff.mp chosen).1

/-- A boundary that one of the three sites chose, with the card it asks to append. -/
inductive ChosenBoundary (P : Planner) (T : List TranscriptEntry) : Nat → CompactionCard → Prop
  | preTurn {budget b : Nat} {tails : VolatileTurnContext} {prompt : String} {card : CompactionCard}
      (budgeted : P.policy.budget = .ok budget)
      (chosen : P.preTurnBoundary budget (scanHistorySegments T) tails prompt = some b)
      (made : P.prepareHistory T tails prompt = .ok (some card)) : ChosenBoundary P T b card
  | midTurn {budget b : Nat} {tails : VolatileTurnContext} {turnId : TurnId} {current : List Message}
      {forced : Bool} {card : CompactionCard} (budgeted : P.policy.budget = .ok budget)
      (chosen : P.midTurnBoundary budget (scanHistorySegments T) tails forced = some b)
      (made : P.maybeCompactMidTurn T turnId current forced tails = .ok (some card)) : ChosenBoundary P T b card
  | manual {budget b : Nat} {tails : VolatileTurnContext} {card : CompactionCard}
      (budgeted : P.policy.budget = .ok budget)
      (chosen : P.manualBoundary budget (scanHistorySegments T) = some b)
      (made : P.compactSession T tails = .ok (some card)) : ChosenBoundary P T b card

variable {through floor : Nat} {summary : String} {fitting : List HistorySegment}

/-- An elision tier asks for an elision card or none, and never touches the segments that stay. -/
structure ElisionTier (segments : List HistorySegment) (b : Nat)
    (tier : Option CompactionCard × List HistorySegment) : Prop where
  card : ∀ card, tier.1 = some card → ∃ sequences, card = .elision sequences
  stay : tier.2.drop b = segments.drop b

theorem ElisionTier.unchanged : ElisionTier segments b (none, segments) := ⟨fun _ asked => (nomatch asked), rfl⟩

theorem ElisionTier.view (fromStr : String → Except String Json) :
    ElisionTier segments b (none, (elidePrefix fromStr segments b).1) :=
  ⟨fun _ asked => (nomatch asked), drop_elidePrefix fromStr segments b⟩

theorem ElisionTier.cured (fromStr : String → Except String Json) (sequences : List Nat) :
    ElisionTier segments b (some (.elision sequences), (elidePrefix fromStr segments b).1) :=
  ⟨fun _ asked => ⟨sequences, (Option.some.inj asked).symm⟩, drop_elidePrefix fromStr segments b⟩

theorem preTurnElision_tier (reactive : Bool) :
    ElisionTier segments b (P.preTurnElision budget segments b reactive tails prompt) := by
  unfold Planner.preTurnElision
  split
  · exact .unchanged
  · dsimp only
    split
    · exact .unchanged
    · split
      · exact .cured _ _
      · exact .view _

theorem midTurnElision_tier (reactive forced : Bool) (turnId : TurnId) (current : List Message) :
    ElisionTier segments b (P.midTurnElision budget segments b reactive forced tails turnId current) := by
  unfold Planner.midTurnElision
  split
  · exact .unchanged
  · dsimp only
    split
    · exact .cured _ _
    · exact .view _

theorem manualElision_tier : ElisionTier segments b (P.manualElision segments b tails) := by
  unfold Planner.manualElision
  split
  · exact .unchanged
  · dsimp only
    split
    · exact .cured _ _
    · exact .view _

theorem preTurnSummary_floor
    (made : P.preTurnSummary fitting b tails prompt = .summary through (some floor) summary) :
    (fitting.drop b).findSome? HistorySegment.firstSequence = some floor := by
  unfold Planner.preTurnSummary at made
  dsimp only [compactionSource] at made
  split at made
  · cases made
  · split at made
    · exact (CompactionCard.summary.inj made).2.1
    · cases made

theorem midTurnSummarize_floor {forced : Bool} {turnId : TurnId} {current : List Message}
    (made : P.midTurnSummarize fitting b forced tails turnId current =
      some (.summary through (some floor) summary)) :
    (fitting.drop b).findSome? HistorySegment.firstSequence = some floor := by
  unfold Planner.midTurnSummarize at made
  dsimp only [compactionSource] at made
  have failed : (if forced = true then none else some CompactionCard.failure) ≠
      some (.summary through (some floor) summary) := by split <;> exact fun same => nomatch same
  split at made
  · cases made
  · split at made
    · cases made
    · split at made
      · exact absurd made failed
      · split at made
        · rename_i found _ _ _ _ _
          rw [found, (CompactionCard.summary.inj (Option.some.inj made)).2.1]
        · exact absurd made failed

theorem manualSummary_floor
    (made : P.manualSummary fitting b tails = .ok (.summary through (some floor) summary)) :
    (fitting.drop b).findSome? HistorySegment.firstSequence = some floor := by
  unfold Planner.manualSummary at made
  dsimp only [compactionSource] at made
  split at made
  · cases made
  · split at made
    · exact (CompactionCard.summary.inj (Except.ok.inj made)).2.1
    · cases made

/-- Whatever site asks for a summary card, its floor is the first sequence of the retained suffix. -/
theorem ChosenBoundary.floor_first (chosen : ChosenBoundary P T b (.summary through (some floor) summary)) :
    0 < b ∧ ((scanHistorySegments T).drop b).findSome? HistorySegment.firstSequence = some floor := by
  cases chosen with
  | @preTurn budget _ tails prompt _ budgeted chosen made =>
      refine ⟨preTurnBoundary_pos chosen, ?_⟩
      unfold Planner.prepareHistory at made
      simp only [budgeted, chosen] at made
      split at made
      case isFalse => cases made
      have tier := @preTurnElision_tier P
        (tails.filtered (P.preTurnFit budget (scanHistorySegments T) tails prompt).repositoryKept
          (P.preTurnFit budget (scanHistorySegments T) tails prompt).reminderKept) prompt
        (scanHistorySegments T) b budget (decide (0 < (scanHistorySegments T).length -
          (P.preTurnFit budget (scanHistorySegments T) tails prompt).historyKept))
      split at made
      case h_1 asked =>
        cases made
        obtain ⟨sequences, other⟩ := tier.card _ (congrArg Prod.fst asked)
        cases other
      case h_2 view =>
        rw [← tier.stay, view]
        exact preTurnSummary_floor (Option.some.inj (Except.ok.inj made))
  | @midTurn budget _ tails turnId current forced _ budgeted chosen made =>
      refine ⟨midTurnBoundary_pos chosen, ?_⟩
      unfold Planner.maybeCompactMidTurn at made
      simp only [budgeted, chosen] at made
      have tier := @midTurnElision_tier P
        (tails.filtered (P.midTurnFit budget (scanHistorySegments T) tails).repositoryKept
          (P.midTurnFit budget (scanHistorySegments T) tails).reminderKept)
        (scanHistorySegments T) b budget (decide (0 < (scanHistorySegments T).length -
          (P.midTurnFit budget (scanHistorySegments T) tails).historyKept)) forced turnId current
      split at made
      case h_1 asked =>
        cases made
        obtain ⟨sequences, other⟩ := tier.card _ (congrArg Prod.fst asked)
        cases other
      case h_2 view =>
        rw [← tier.stay, view]
        exact midTurnSummarize_floor (Except.ok.inj made)
  | @manual budget _ tails _ budgeted chosen made =>
      refine ⟨manualBoundary_pos chosen, ?_⟩
      unfold Planner.compactSession at made
      simp only [budgeted, chosen] at made
      have tier := @manualElision_tier P tails (scanHistorySegments T) b
      split at made
      case h_1 asked =>
        cases made
        obtain ⟨sequences, other⟩ := tier.card _ (congrArg Prod.fst asked)
        cases other
      case h_2 view =>
        rw [← tier.stay, view]
        obtain ⟨card, summarized, same⟩ := map_ok.mp made
        cases same
        exact manualSummary_floor summarized

theorem retainFrom_summaryPayload {card : TranscriptEntry}
    (payload : card.payload = some (summaryPayload through (some floor))) : retainFrom card = some floor := by
  rw [retainFrom, payload, Option.bind_some, summaryPayload, Json.get?_ofMembers]
  rfl

/-- Two public members whose keys and values redaction keeps. -/
theorem redact_pair (E : Redactor) {low high : String} {x y : Json} (order : low < high)
    (publicLow : secretKey low = false) (publicHigh : secretKey high = false)
    (lowText : E.redactSessionText low = low) (highText : E.redactSessionText high = high)
    (xKept : E.redactSessionValue x = x) (yKept : E.redactSessionValue y = y) :
    E.redactSessionValue (.ofMembers [(high, y), (low, x)]) = .ofMembers [(high, y), (low, x)] := by
  have back : ¬ high < low := fun less => String.lt_irrefl _ (String.lt_trans order less)
  have differs : high ≠ low := fun same => String.lt_irrefl _ (same ▸ order)
  have shape : Json.ofMembers [(high, y), (low, x)] = .object (.cons low x (.cons high y .nil)) := by
    simp only [Json.ofMembers, Fields.insertAll, List.foldl_cons, List.foldl_nil, Fields.insert]
    rw [if_pos order]
  rw [shape]
  simp only [Redactor.redactSessionValue, Redactor.redactMembers, publicLow, publicHigh, lowText, highText,
    Bool.false_eq_true, if_false, xKept, yKept, Fields.insertAll, List.foldl_cons, List.foldl_nil, Fields.insert,
    if_neg back, if_neg differs]

/-- The payload survives storage when the secret patterns leave its two keys alone. -/
theorem redact_summaryPayload (E : Redactor)
    (throughText : E.redactSessionText "superseded_through_sequence" = "superseded_through_sequence")
    (floorText : E.redactSessionText "retain_from_sequence" = "retain_from_sequence") :
    E.redactSessionValue (summaryPayload through (some floor)) = summaryPayload through (some floor) := by
  apply redact_pair E _ _ _ floorText throughText
  · rw [Option.map_some, Json.ofOption, Option.getD_some, Json.ofNat, Redactor.redactSessionValue]
  · rw [Json.ofNat, Redactor.redactSessionValue]
  · decide +kernel
  · decide +kernel
  · decide +kernel

/-- The summary card of every compaction site reproduces the window it was built from: the summary, the
segments from the boundary on as they were, and the prompts that were already appended. -/
theorem summary_reproduces_window (chosen : ChosenBoundary P T b (.summary through (some floor) summary))
    {prompts : List TranscriptEntry} {card : TranscriptEntry} (prompted : ∀ entry ∈ prompts, entry.kind = .user)
    (climbing : Climbing (T ++ prompts ++ [card])) (kind : card.kind = .compactSummary)
    (payload : card.payload = some (summaryPayload through (some floor))) :
    scanHistorySegments (T ++ prompts ++ [card]) =
        summaryOf card :: (scanHistorySegments T).drop b ++ prompts.map userSegment ∧
      (summaryOf card).messages = [.user card.text] :=
  ⟨scan_summary climbing prompted kind (retainFrom_summaryPayload payload) chosen.floor_first.1
    chosen.floor_first.2, rfl⟩

end Sites

/-- An entry of a transcript whose other columns no projection reads. -/
def sampleEntry (sequence : Nat) (kind : TranscriptKind) (text : String) (payload : Option Json) :
    TranscriptEntry where
  entryId := ⟨⟨0⟩⟩
  sequence := sequence
  turnId := none
  kind := kind
  text := text
  payload := payload
  sourceKey := ""
  createdAtMs := 0

/-- A tight profile: everything but the newest segment is over the retain allowance. -/
def samplePlanner : Planner where
  namedAssignment text := text
  bearer text := text
  openaiKey text := text
  floats := ⟨fun _ => "0.5"⟩
  fromStr _ := .error "not JSON"
  policy := {
    maxRequestBytes := 300
    maxInputBytes := 400
    reservedOutputBytes := 1
    contextCapBytes := 1
    maxToolRounds := none
    providerTimeoutMs := 1
    compaction := ⟨.summarizeOnDiscard, 90, 1, 1000⟩
    bytesPerToken := 4 }
  system := .system "head"
  summarize _ := some "so far"
  breakerTripped := false

def sampleHistory : List TranscriptEntry :=
  [sampleEntry 1 .user "first" none, sampleEntry 2 .assistant "done" none, sampleEntry 3 .user "second" none]

/-- A manual compaction of two turns keeps the second one behind the summary. -/
theorem summary_reproduces_window_manual :
    scanHistorySegments (sampleHistory ++ [] ++
        [sampleEntry 4 .compactSummary "so far" (some (summaryPayload 2 (some 3)))]) =
      summaryOf (sampleEntry 4 .compactSummary "so far" (some (summaryPayload 2 (some 3)))) ::
        (scanHistorySegments sampleHistory).drop 1 ++ [].map userSegment ∧
    (summaryOf (sampleEntry 4 .compactSummary "so far" (some (summaryPayload 2 (some 3))))).messages =
      [.user "so far"] :=
  @summary_reproduces_window samplePlanner sampleHistory 1 2 3 "so far"
    (@ChosenBoundary.manual samplePlanner sampleHistory 300 1 ⟨none, none⟩ _ (by decide +kernel)
      (by decide +kernel) (by decide +kernel)) _ _
    (fun _ listed => nomatch listed) (by unfold Climbing; decide) rfl rfl

end LatteCode.Headless
