import LatteCode.Headless.Summary
import LatteCode.Storage.System
/- The projection window of a transcript, and when the history read through it is the whole one. -/

namespace LatteCode.Headless
open Grouping Storage

def lastSequence (entries : List TranscriptEntry) : Option Nat := entries.getLast?.map TranscriptEntry.sequence

/-- The newest summary card with everything from its floor on, else the newest entries. -/
def projectionWindow (entries : List TranscriptEntry) (fallbackLimit : Nat) : TranscriptPage :=
  match newestSummary entries with
  | none =>
      let start := entries.length - max 1 (min fallbackLimit 500)
      ⟨entries.drop start, lastSequence (entries.drop start), decide (0 < start)⟩
  | some (_, card, _) =>
      let retainFloor := (retainFrom card).elim card.sequence fun floor => min floor card.sequence
      let kept := entries.filter fun entry => retainFloor ≤ entry.sequence
      ⟨kept, lastSequence kept, false⟩

/-- An elision card names results that are older than itself. -/
def LooksBack (entries : List TranscriptEntry) : Prop :=
  ∀ card ∈ entries, card.kind = .toolResultElision → ∀ sequence ∈ elisionCardSequences card,
    sequence < card.sequence

section Payloads

/-- The payload of an elision card, as appended and however often redacted since. -/
def ListsBelow (bound : Nat) (payload : Option Json) : Prop :=
  ∃ key value, payload = some (.object (.cons key value .nil)) ∧
    ((∃ sequences : List Nat, value = .array (.ofList (sequences.map .ofNat)) ∧
      ∀ sequence ∈ sequences, sequence < bound) ∨ ∃ text, value = .string text)

theorem filterMap_asU64 (sequences : List Nat) : (sequences.map Json.ofNat).filterMap Json.asU64 = sequences := by
  induction sequences with
  | nil => rfl
  | cons sequence sequences ih =>
      rw [List.map_cons, List.filterMap_cons, ih]
      rfl

theorem redactElements_numbers (E : Redactor) (sequences : List Nat) :
    E.redactElements (.ofList (sequences.map .ofNat)) = .ofList (sequences.map .ofNat) := by
  induction sequences with
  | nil => rfl
  | cons sequence sequences ih =>
      rw [List.map_cons, Elements.ofList, Redactor.redactElements, ih, Json.ofNat, Redactor.redactSessionValue]

theorem ListsBelow.redacted (E : Redactor) {bound : Nat} {payload : Option Json}
    (lists : ListsBelow bound payload) : ListsBelow bound (payload.map E.redactSessionValue) := by
  obtain ⟨key, value, rfl, shape⟩ := lists
  have members : E.redactSessionValue (.object (.cons key value .nil)) = .object (.cons (E.redactSessionText key)
      (if secretKey key then .string "[REDACTED]" else E.redactSessionValue value) .nil) := rfl
  refine ⟨_, _, congrArg some members, ?_⟩
  split
  case isTrue => exact .inr ⟨_, rfl⟩
  case isFalse =>
    rcases shape with ⟨sequences, rfl, below⟩ | ⟨text, rfl⟩
    · refine .inl ⟨sequences, ?_, below⟩
      rw [Redactor.redactSessionValue, redactElements_numbers]
    · exact .inr ⟨_, by rw [Redactor.redactSessionValue]⟩

theorem ListsBelow.sequences {entry : TranscriptEntry} {bound : Nat} (lists : ListsBelow bound entry.payload) :
    ∀ sequence ∈ elisionCardSequences entry, sequence < bound := by
  obtain ⟨key, value, payload, shape⟩ := lists
  intro sequence listed
  rw [elisionCardSequences, payload, Option.bind_some] at listed
  generalize "tool_result_sequences" = name at listed
  rw [Json.get?, Fields.get?, Fields.get?] at listed
  split at listed
  case isFalse => cases listed
  case isTrue =>
    rcases shape with ⟨sequences, rfl, below⟩ | ⟨text, rfl⟩
    · rw [Option.bind_some, Json.asArray, Elements.toList_ofList, Option.getD_some, filterMap_asU64] at listed
      exact below sequence listed
    · cases listed

theorem elisionPayload_lists {sequences : List Nat} {bound : Nat} (below : ∀ sequence ∈ sequences, sequence < bound) :
    ListsBelow bound (some (elisionPayload sequences)) :=
  ⟨_, _, rfl, .inl ⟨sequences, rfl, below⟩⟩

end Payloads

section Results

variable {loaded : List TranscriptEntry} {segments : List HistorySegment}

/-- Every recorded result of these segments is an entry of the log. -/
def ResultsOf (loaded : List TranscriptEntry) (segment : HistorySegment) : Prop :=
  ∀ result ∈ segment.toolResults, ∃ entry ∈ loaded, entry.sequence = result.1

theorem extendSegment_results {entry : TranscriptEntry} {segment : HistorySegment} (elided : List Nat)
    (listed : entry ∈ loaded) (results : ResultsOf loaded segment) :
    ResultsOf loaded (extendSegment elided entry segment) := by
  unfold extendSegment
  split
  · exact results
  · unfold pushResult
    split
    · exact results
    · split
      case isFalse => exact results
      case isTrue =>
        intro result recorded
        have recorded : result ∈ segment.toolResults ++ [(entry.sequence, _)] := recorded
        rw [List.mem_append, List.mem_singleton] at recorded
        rcases recorded with old | rfl
        · exact results result old
        · exact ⟨entry, listed, rfl⟩
  · split <;> exact results
  · exact results

theorem fold_results (elided : List Nat) {entries : List TranscriptEntry} (inside : ∀ entry ∈ entries, entry ∈ loaded)
    (start : ∀ segment ∈ segments, ResultsOf loaded segment) :
    ∀ segment ∈ fold (historyRule elided) segments entries, ResultsOf loaded segment := by
  apply forall_fold start
  · intro entry _ segment opened
    rw [(opens_some opened).2]
    exact fun _ recorded => nomatch recorded
  · intro entry listed segment results
    exact extendSegment_results elided (inside entry listed) results

theorem scan_results : ∀ segment ∈ scanHistorySegments loaded, ResultsOf loaded segment := by
  unfold scanHistorySegments
  dsimp only
  cases newest : newestSummary loaded with
  | none =>
      dsimp only
      rw [foldl_applyEntry]
      exact fold_results _ (fun _ listed => listed) fun _ listed => absurd listed List.not_mem_nil
  | some found =>
      obtain ⟨before, card, after⟩ := found
      obtain ⟨whole, -, -⟩ := newestSummary_split newest
      dsimp only
      rw [foldl_applyEntry, foldl_applyEntry]
      apply fold_results
      · intro entry listed
        rw [whole, List.mem_append]
        exact .inr (List.mem_cons_of_mem _ (List.mem_filter.mp listed).1)
      · intro segment listed
        rcases List.mem_cons.mp listed with rfl | retained
        · exact fun _ recorded => nomatch recorded
        · refine fold_results _ ?_ (fun _ listed => absurd listed List.not_mem_nil) segment retained
          intro entry listed
          rw [whole, List.mem_append]
          exact .inl (List.mem_filter.mp listed).1

/-- What elision lists are results of the log it was planned on. -/
theorem elidePrefix_sequences (fromStr : String → Except String Json) (boundary : Nat) :
    ∀ sequence ∈ (elidePrefix fromStr (scanHistorySegments loaded) boundary).2,
      ∃ entry ∈ loaded, entry.sequence = sequence := by
  intro sequence listed
  simp only [elidePrefix, List.mem_flatMap, List.mem_map, elisionTargets, List.mem_filterMap] at listed
  obtain ⟨segment, early, target, ⟨result, recorded, found⟩, rfl⟩ := listed
  obtain ⟨content, _, rfl⟩ := Option.map_eq_some_iff.mp found
  exact scan_results segment (List.mem_of_mem_take early) result recorded

end Results

/-- Transcripts that the session operations produce: cards of any kind in sequence, elision cards
for what `elide_prefix` listed on some load of the log, and forks. -/
inductive Produced (E : Environment) : List TranscriptEntry → Prop
  | empty : Produced E []
  | card {T : List TranscriptEntry} {entry : TranscriptEntry} (before : Produced E T)
      (later : ∀ earlier ∈ T, earlier.sequence < entry.sequence) (kind : entry.kind ≠ .toolResultElision) :
      Produced E (T ++ [entry])
  | elision {T loaded : List TranscriptEntry} {entry : TranscriptEntry} {boundary : Nat} (before : Produced E T)
      (later : ∀ earlier ∈ T, earlier.sequence < entry.sequence) (kind : entry.kind = .toolResultElision)
      (load : ∀ entry ∈ loaded, entry ∈ T)
      (payload : entry.payload = some (E.redactSessionValue (elisionPayload
        (elidePrefix E.fromStr (scanHistorySegments loaded) boundary).2))) :
      Produced E (T ++ [entry])
  | fork {T : List TranscriptEntry} {source target : SessionId} (before : Produced E T) :
      Produced E (T.map (forkEntry E source target))

theorem climbing_concat {T : List TranscriptEntry} {entry : TranscriptEntry} (climbing : Climbing T)
    (later : ∀ earlier ∈ T, earlier.sequence < entry.sequence) : Climbing (T ++ [entry]) := by
  refine List.pairwise_append.mpr ⟨climbing, List.pairwise_singleton _ _, ?_⟩
  intro earlier listed final single
  rw [List.mem_singleton.mp single]
  exact later earlier listed

theorem Produced.lists {E : Environment} {T : List TranscriptEntry} (produced : Produced E T) :
    Climbing T ∧ ∀ card ∈ T, card.kind = .toolResultElision → ListsBelow card.sequence card.payload := by
  induction produced with
  | empty => exact ⟨.nil, fun _ listed => nomatch listed⟩
  | card before later kind ih =>
      refine ⟨climbing_concat ih.1 later, ?_⟩
      intro card listed elision
      rw [List.mem_append, List.mem_singleton] at listed
      rcases listed with old | rfl
      · exact ih.2 card old elision
      · exact absurd elision kind
  | @elision _ loaded _ boundary before later kind load payload ih =>
      refine ⟨climbing_concat ih.1 later, ?_⟩
      intro card listed elision
      rw [List.mem_append, List.mem_singleton] at listed
      rcases listed with old | rfl
      · exact ih.2 card old elision
      · have below : ∀ sequence ∈ (elidePrefix E.fromStr (scanHistorySegments loaded) boundary).2,
            sequence < card.sequence := by
          intro sequence named
          obtain ⟨entry, loadedHere, rfl⟩ := elidePrefix_sequences _ _ sequence named
          exact later entry (load entry loadedHere)
        have lists := (elisionPayload_lists below).redacted E.toRedactor
        rw [payload]
        exact lists
  | fork before ih =>
      refine ⟨List.pairwise_map.mpr ih.1, ?_⟩
      intro card listed elision
      obtain ⟨original, there, rfl⟩ := List.mem_map.mp listed
      exact (ih.2 original there elision).redacted E.toRedactor

theorem Produced.climbing {E : Environment} {T : List TranscriptEntry} (produced : Produced E T) : Climbing T :=
  produced.lists.1

theorem Produced.looksBack {E : Environment} {T : List TranscriptEntry} (produced : Produced E T) : LooksBack T :=
  fun card listed elision => (produced.lists.2 card listed elision).sequences

section Agreement

variable {E : Environment} {T : List TranscriptEntry} {limit floor : Nat}

/-- Entries of an upper part of the log are elided by cards of that part alone. -/
theorem elided_agree (looksBack : LooksBack T) {entry : TranscriptEntry} (above : floor ≤ entry.sequence)
    {part : List TranscriptEntry} (inside : ∀ card ∈ part, card ∈ T)
    (upper : ∀ card ∈ T, floor ≤ card.sequence → card ∈ part) :
    (elidedSequences part).contains entry.sequence = (elidedSequences T).contains entry.sequence := by
  rw [Bool.eq_iff_iff, List.contains_iff_mem, List.contains_iff_mem]
  simp only [elidedSequences, List.mem_flatMap, List.mem_filter, decide_eq_true_eq]
  constructor
  · rintro ⟨card, ⟨listed, kind⟩, named⟩
    exact ⟨card, ⟨inside card listed, kind⟩, named⟩
  · rintro ⟨card, ⟨listed, kind⟩, named⟩
    have less := looksBack card listed kind entry.sequence named
    exact ⟨card, ⟨upper card listed (Nat.le_trans above (Nat.le_of_lt less)), kind⟩, named⟩

theorem extendSegment_congr {first second : List Nat} {entry : TranscriptEntry}
    (same : first.contains entry.sequence = second.contains entry.sequence) :
    extendSegment first entry = extendSegment second entry := by
  funext segment
  unfold extendSegment pushResult
  rw [same]

/-- The fold asks the elision set about the folded entries only. -/
theorem fold_elided {first second : List Nat} {entries : List TranscriptEntry} {segments : List HistorySegment}
    (same : ∀ entry ∈ entries, first.contains entry.sequence = second.contains entry.sequence) :
    fold (historyRule first) segments entries = fold (historyRule second) segments entries := by
  apply fold_congr
  intro entry listed groups
  unfold Grouping.step historyRule
  dsimp only
  rw [extendSegment_congr (same entry listed)]

theorem fold_unprompted {elided : List Nat} {entries : List TranscriptEntry}
    (unprompted : ∀ entry ∈ entries, entry.kind ≠ .user) : fold (historyRule elided) [] entries = [] :=
  fold_unopened fun entry listed => opens_other (unprompted entry listed)

/-- With a summary, the window shows what the transcript shows. -/
theorem window_summarized (climbing : Climbing T) (looksBack : LooksBack T)
    (summarized : (newestSummary T).isSome = true) :
    scanHistorySegments (projectionWindow T limit).entries = scanHistorySegments T := by
  obtain ⟨⟨before, card, after⟩, newest⟩ := Option.isSome_iff_exists.mp summarized
  obtain ⟨whole, summary, quiet⟩ := newestSummary_split newest
  obtain ⟨_, tail, below⟩ := List.pairwise_append.mp (whole ▸ climbing)
  -- the floor of the window keeps the card, what follows it and what it retains
  obtain ⟨floor, isFloor⟩ : ∃ floor, (retainFrom card).elim card.sequence
      (fun floor => min floor card.sequence) = floor := ⟨_, rfl⟩
  have low : floor ≤ card.sequence := by
    rw [← isFloor]
    cases retainFrom card with
    | none => exact Nat.le_refl _
    | some given => exact Nat.min_le_right _ _
  have retainedAbove : ∀ entry, retains card entry = true → floor ≤ entry.sequence := by
    intro entry replayed
    rw [retains, Bool.and_eq_true] at replayed
    obtain ⟨given, found, least⟩ := Option.any_eq_true _ _ |>.mp replayed.2
    rw [← isFloor, found]
    exact Nat.le_trans (Nat.min_le_left _ _) (of_decide_eq_true least)
  have newer : ∀ entry ∈ after, floor ≤ entry.sequence := fun entry listed =>
    Nat.le_trans low (Nat.le_of_lt ((List.pairwise_cons.mp tail).1 entry listed))
  have window : (projectionWindow T limit).entries =
      before.filter (fun entry => floor ≤ entry.sequence) ++ card :: after := by
    rw [projectionWindow, newest]
    dsimp only
    have stays : (card :: after).filter (fun entry => floor ≤ entry.sequence) = card :: after := by
      rw [List.filter_eq_self]
      intro entry listed
      rcases List.mem_cons.mp listed with rfl | later
      · exact decide_eq_true low
      · exact decide_eq_true (newer entry later)
    rw [isFloor, whole, List.filter_append, stays]
  have agree : ∀ entry : TranscriptEntry, floor ≤ entry.sequence → (elidedSequences (projectionWindow T limit).entries).contains
      entry.sequence = (elidedSequences T).contains entry.sequence := by
    intro entry above
    apply elided_agree looksBack above
    · intro other listed
      rw [window, List.mem_append] at listed
      rw [whole, List.mem_append]
      exact listed.imp (fun early => (List.mem_filter.mp early).1) fun late => late
    · intro other listed high
      rw [whole, List.mem_append] at listed
      rw [window, List.mem_append]
      exact listed.imp (fun early => List.mem_filter.mpr ⟨early, decide_eq_true high⟩) fun late => late
  have retained : (before.filter fun entry => floor ≤ entry.sequence).filter (retains card) =
      before.filter (retains card) := by
    rw [List.filter_filter]
    apply List.filter_congr
    intro entry _
    cases replayed : retains card entry with
    | true => rw [Bool.true_and, decide_eq_true (retainedAbove entry replayed)]
    | false => rw [Bool.false_and]
  have newestHere : newestSummary (projectionWindow T limit).entries =
      some (before.filter (fun entry => floor ≤ entry.sequence), card, after) := by
    rw [window]
    exact newestSummary_of_split summary quiet
  rw [scanHistorySegments, scanHistorySegments, newestHere, newest]
  dsimp only
  rw [foldl_applyEntry, foldl_applyEntry, foldl_applyEntry, foldl_applyEntry, retained,
    fold_elided (fun entry listed => agree entry (retainedAbove entry (List.mem_filter.mp listed).2)),
    fold_elided (fun entry listed => agree entry (newer entry (List.mem_filter.mp listed).1))]

/-- Without one, it shows the newest entries alone. -/
theorem window_unsummarized (climbing : Climbing T) (looksBack : LooksBack T) (never : newestSummary T = none)
    {dropped kept : List TranscriptEntry} (split : T = dropped ++ kept) :
    scanHistorySegments kept = fold (historyRule (elidedSequences T)) [] kept ∧
      scanHistorySegments T = fold (historyRule (elidedSequences T))
        (fold (historyRule (elidedSequences T)) [] dropped) kept := by
  have quiet := newestSummary_none.mp never
  have neverKept : newestSummary kept = none := by
    rw [newestSummary_none]
    intro entry listed
    exact quiet entry (split ▸ List.mem_append_right _ listed)
  refine ⟨?_, ?_⟩
  · rw [scanHistorySegments, neverKept]
    dsimp only
    rw [foldl_applyEntry]
    cases kept with
    | nil => rfl
    | cons oldest kept =>
        obtain ⟨_, tail, below⟩ := List.pairwise_append.mp (split ▸ climbing)
        have above : ∀ entry ∈ oldest :: kept, oldest.sequence ≤ entry.sequence := by
          intro entry listed
          rcases List.mem_cons.mp listed with rfl | later
          · exact Nat.le_refl _
          · exact Nat.le_of_lt ((List.pairwise_cons.mp tail).1 entry later)
        refine fold_elided fun entry listed => elided_agree looksBack (above entry listed) ?_ ?_
        · intro card inside
          exact split ▸ List.mem_append_right _ inside
        · intro card inside high
          rw [split, List.mem_append] at inside
          refine inside.resolve_left fun early => ?_
          have less := below card early oldest List.mem_cons_self
          omega
  · rw [scanHistorySegments, never]
    dsimp only
    rw [foldl_applyEntry, ← fold_append, ← split]

/-- What the claimed readers of a window rely on: the planner's segments, the usage figures that
`context_usage` reports, and the messages of the open turn in a rebuilt request. -/
structure WindowComplete (T : List TranscriptEntry) : Prop where
  segments : scanHistorySegments (projectionWindow T 500).entries = scanHistorySegments T
  usage : ∀ (F : FloatFormat) (policy : ContextPolicy) (system : Message) (tails : VolatileTurnContext),
    contextUsage F policy system tails (scanHistorySegments (projectionWindow T 500).entries) =
      contextUsage F policy system tails (scanHistorySegments T)
  rebuilt : ∀ (system : Message) (turnId : TurnId) (tails : VolatileTurnContext),
    ∀ segment ∈ scanHistorySegments T, segment.turnId = some turnId → ∀ message ∈ segment.messages,
      message ∈ assembleMidTurnRequest system none (scanHistorySegments (projectionWindow T 500).entries)
        turnId tails

theorem WindowComplete.of_segments (same : scanHistorySegments (projectionWindow T 500).entries = scanHistorySegments T) :
    WindowComplete T := by
  refine ⟨same, fun _ _ _ _ => by rw [same], ?_⟩
  intro system turnId tails segment listed _ message said
  rw [same]
  exact mem_assembleMidTurnRequest listed said

theorem projectionWindow_unsummarized (never : newestSummary T = none) :
    (projectionWindow T 500).entries = T.drop (T.length - 500) := by
  have limit : max 1 (min 500 500) = 500 := by decide
  rw [projectionWindow, never, limit]

/-- A prompt that the fallback page cuts off is a segment that its reader misses. -/
theorem WindowComplete.prompts_kept (produced : Produced E T) (never : newestSummary T = none)
    (read : WindowComplete T) : ∀ entry ∈ T.take (T.length - 500), entry.kind ≠ .user := by
  intro entry listed prompt
  obtain ⟨shown, whole⟩ := window_unsummarized produced.climbing produced.looksBack never
    (List.take_append_drop (T.length - 500) T).symm
  have lengths := congrArg List.length read.segments
  rw [projectionWindow_unsummarized never, shown, whole, length_fold, length_fold, length_fold] at lengths
  have counted : 0 < (T.take (T.length - 500)).countP fun entry =>
      ((historyRule (elidedSequences T)).opens entry).isSome :=
    List.countP_pos_iff.mpr ⟨entry, listed, by rw [opens_user prompt]; rfl⟩
  rw [List.length_nil] at lengths
  omega

/-- The window stands in for the whole history exactly when there is a summary or no prompt is cut off. -/
theorem projection_window_complete (produced : Produced E T) :
    WindowComplete T ↔ (newestSummary T).isSome = true ∨
      ∀ entry ∈ T.take (T.length - 500), entry.kind ≠ .user := by
  cases never : newestSummary T with
  | some found =>
      refine iff_of_true (.of_segments ?_) (.inl rfl)
      exact window_summarized produced.climbing produced.looksBack (by rw [never]; rfl)
  | none =>
      constructor
      · exact fun read => .inr (read.prompts_kept produced never)
      · rintro (summarized | unprompted)
        · cases summarized
        · obtain ⟨shown, whole⟩ := window_unsummarized produced.climbing produced.looksBack never
            (List.take_append_drop (T.length - 500) T).symm
          apply WindowComplete.of_segments
          rw [projectionWindow_unsummarized never, shown, whole, fold_unprompted unprompted]

end Agreement

theorem sampleHistory_produced (E : Environment) : Produced E sampleHistory :=
  .card (.card (.card .empty (by decide) (by decide)) (by decide) (by decide)) (by decide) (by decide)

theorem projection_window_complete_short : WindowComplete sampleHistory :=
  (projection_window_complete (sampleHistory_produced plain)).mpr (.inr (by decide))

/-- One prompt and 500 answers. -/
def longTurn : List TranscriptEntry :=
  sampleEntry 1 .user "prompt" none ::
    (List.range 500).map fun index => sampleEntry (index + 2) .assistant "step" none

theorem longTurn_produced (E : Environment) : Produced E longTurn := by
  have answers : ∀ count, Produced E (sampleEntry 1 .user "prompt" none ::
      (List.range count).map fun index => sampleEntry (index + 2) .assistant "step" none) := by
    intro count
    induction count with
    | zero => exact .card .empty (fun _ listed => absurd listed List.not_mem_nil) (by decide)
    | succ count ih =>
        rw [List.range_succ, List.map_append, ← List.cons_append]
        have kind : (sampleEntry (count + 2) .assistant "step" none).kind ≠ .toolResultElision :=
          fun same => nomatch same
        refine .card ih ?_ kind
        intro earlier listed
        rcases List.mem_cons.mp listed with rfl | answer
        · exact Nat.succ_lt_succ (Nat.succ_pos _)
        · obtain ⟨index, below, rfl⟩ := List.mem_map.mp answer
          exact Nat.add_lt_add_right (List.mem_range.mp below) 2
  exact answers 500

theorem longTurn_unsummarized : newestSummary longTurn = none := by
  rw [newestSummary_none]
  intro entry listed
  rcases List.mem_cons.mp listed with rfl | answer
  · exact fun same => nomatch same
  · obtain ⟨index, _, rfl⟩ := List.mem_map.mp answer
    exact fun same => nomatch same

/-- The window of a long turn has lost the prompt, and with it every segment. -/
theorem longTurn_window_incomplete : Produced plain longTurn ∧ ¬ WindowComplete longTurn := by
  refine ⟨longTurn_produced plain, fun complete => ?_⟩
  refine complete.prompts_kept (longTurn_produced plain) longTurn_unsummarized
    (sampleEntry 1 .user "prompt" none) ?_ rfl
  have counted : longTurn.length - 500 = 1 := by
    rw [longTurn, List.length_cons, List.length_map, List.length_range]
  rw [counted]
  exact List.mem_cons_self

end LatteCode.Headless
