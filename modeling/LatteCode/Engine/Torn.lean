import LatteCode.Lib.Run
import LatteCode.Engine.Conversation
/- A crash of `sync` leaves a prefix of what it writes; running it again completes the file. -/

namespace LatteCode.Engine
open Lines Outcome Runs

variable {C : Codec} {store : ConversationStore} {sessionId : SessionId}

/-! ## The loop over the outbox -/

/-- What a loop over the outbox appended, and why it skipped the rest. -/
structure Appended (C : Codec) (existing : Existing) (written : Nat × Bytes) (entries : List TranscriptEntry)
    (written' : Nat × Bytes) (new : List TranscriptEntry) : Prop where
  file : written'.2 = written.2 ++ joinLines newline (new.map (recordLine C))
  last : written'.1 = ((new.getLast?).map TranscriptEntry.sequence).getD written.1
  later : written.1 ≤ written'.1 ∧ ∀ entry ∈ new, written.1 < entry.sequence ∧ entry.sequence ≤ written'.1
  climbing : new.Pairwise fun first second => first.sequence < second.sequence
  known : ∀ entry ∈ new, entry ∈ entries
  fresh : ∀ entry ∈ new, existing.lookup entry.sequence = none
  covered : ∀ entry ∈ entries, existing.lookup entry.sequence = some entry.entryId.uuid.toString ∨ entry ∈ new

theorem append_new {existing : Existing} {entries : List TranscriptEntry} {written written' : Nat × Bytes}
    (done : entries.foldlM (appendEntry C existing) written = .ok written') :
    ∃ new, Appended C existing written entries written' new := by
  induction entries generalizing written with
  | nil =>
      rw [List.foldlM_nil, pure_ok] at done
      subst done
      refine ⟨[], (List.append_nil _).symm, rfl, ⟨Nat.le_refl _, ?_⟩, .nil, ?_, ?_, ?_⟩
      all_goals exact List.forall_mem_nil _
  | cons entry entries ih =>
      rw [List.foldlM_cons, bind_ok] at done
      obtain ⟨middle, one, rest⟩ := done
      obtain ⟨new, after⟩ := ih rest
      cases appendEntry_ok.mp one with
      | held found =>
          refine ⟨new, after.file, after.last, after.later, after.climbing, ?_, after.fresh, ?_⟩
          · exact fun other member => List.mem_cons_of_mem _ (after.known other member)
          · intro other member
            rcases List.mem_cons.mp member with rfl | member
            · exact .inl found
            · exact after.covered other member
      | wrote fresh later fits =>
          refine ⟨entry :: new, ?_, ?_, ⟨Nat.le_trans (Nat.le_of_lt later) after.later.1, ?_⟩,
            List.pairwise_cons.mpr ⟨fun other member => (after.later.2 other member).1, after.climbing⟩, ?_, ?_, ?_⟩
          · rw [after.file, List.map_cons, joinLines_cons]
            simp only [List.append_assoc, List.cons_append, List.nil_append]
          · rw [after.last, List.getLast?_cons]
            cases new.getLast? <;> rfl
          · intro other member
            rcases List.mem_cons.mp member with rfl | member
            · exact ⟨later, after.later.1⟩
            · exact ⟨Nat.lt_trans later (after.later.2 other member).1, (after.later.2 other member).2⟩
          · intro other member
            rcases List.mem_cons.mp member with rfl | member
            · exact List.mem_cons_self
            · exact List.mem_cons_of_mem _ (after.known other member)
          · intro other member
            rcases List.mem_cons.mp member with rfl | member
            · exact fresh
            · exact after.fresh other member
          · intro other member
            rcases List.mem_cons.mp member with rfl | member
            · exact .inr List.mem_cons_self
            · exact (after.covered other member).imp id (List.mem_cons_of_mem _)

/-- Where a prefix of the written file was cut: after some of the outbox, and within the next record. -/
theorem append_cut (floats : C.floats.OneLine) {existing : Existing} {entries : List TranscriptEntry}
    {written written' : Nat × Bytes} {left : Bytes}
    (done : entries.foldlM (appendEntry C existing) written = .ok written')
    (begun : written.2 <+: left) (within : left <+: written'.2) :
    ∃ first rest middle tail, entries = first ++ rest ∧
      first.foldlM (appendEntry C existing) written = .ok middle ∧
      rest.foldlM (appendEntry C existing) middle = .ok written' ∧ left = middle.2 ++ tail ∧ newline ∉ tail := by
  induction entries generalizing written with
  | nil =>
      rw [List.foldlM_nil, pure_ok] at done
      subst done
      obtain ⟨tail, rfl⟩ := begun
      obtain ⟨rest, same⟩ := within
      rw [List.append_assoc, List.append_right_eq_self, List.append_eq_nil_iff] at same
      rw [same.1]
      exact ⟨[], [], written, [], rfl, rfl, rfl, rfl, List.not_mem_nil⟩
  | cons entry entries ih =>
      have whole := done
      rw [List.foldlM_cons, bind_ok] at done
      obtain ⟨middle, one, rest⟩ := done
      have onward : middle.2 <+: left → ∃ first rest' middle' tail, entry :: entries = first ++ rest' ∧
          first.foldlM (appendEntry C existing) written = .ok middle' ∧
          rest'.foldlM (appendEntry C existing) middle' = .ok written' ∧ left = middle'.2 ++ tail ∧
          newline ∉ tail := by
        intro reached
        obtain ⟨first, rest', middle', tail, rfl, before, after, cut, free⟩ := ih rest reached
        refine ⟨entry :: first, rest', middle', tail, rfl, ?_, after, cut, free⟩
        rw [List.foldlM_cons, bind_ok]
        exact ⟨middle, one, before⟩
      cases appendEntry_ok.mp one with
      | held found => exact onward begun
      | wrote fresh later fits =>
          obtain ⟨new, after⟩ := append_new rest
          obtain ⟨tail, rfl⟩ := begun
          have within' : tail <+: (recordLine C entry ++ [newline]) ++ joinLines newline (new.map (recordLine C)) := by
            rw [after.file, List.append_assoc, List.prefix_append_right_inj] at within
            exact within
          rcases List.prefix_or_prefix_of_prefix within' (List.prefix_append _ _) with short | long
          · rcases List.prefix_concat_iff.mp short with rfl | inside
            · exact onward (List.prefix_refl _)
            · refine ⟨[], entry :: entries, written, tail, rfl, rfl, whole, rfl, ?_⟩
              exact fun here => recordLine_line floats entry (inside.subset here)
          · exact onward ((List.prefix_append_right_inj _).mpr long)

theorem append_held {existing : Existing} {entries : List TranscriptEntry} {written : Nat × Bytes}
    (held : ∀ entry ∈ entries, existing.lookup entry.sequence = some entry.entryId.uuid.toString) :
    entries.foldlM (appendEntry C existing) written = .ok written := by
  induction entries with
  | nil => rfl
  | cons entry entries ih =>
      rw [List.forall_mem_cons] at held
      rw [List.foldlM_cons, bind_ok]
      exact ⟨written, appendEntry_ok.mpr (.held held.1), ih held.2⟩

/-- What was read below the sequences still to come changes nothing for them. -/
theorem append_more {existing more : Existing} {entries : List TranscriptEntry} {written written' : Nat × Bytes}
    (done : entries.foldlM (appendEntry C existing) written = .ok written')
    (below : ∀ pair ∈ more, pair.1 ≤ written.1) :
    entries.foldlM (appendEntry C (existing ++ more)) written = .ok written' := by
  induction entries generalizing written with
  | nil => exact done
  | cons entry entries ih =>
      rw [List.foldlM_cons, bind_ok] at done ⊢
      obtain ⟨middle, one, rest⟩ := done
      refine ⟨middle, ?_, ?_⟩
      · rw [appendEntry_ok] at one ⊢
        cases one with
        | held found => exact .held (by rw [List.lookup_append, found, Option.some_or])
        | wrote fresh later fits =>
            refine .wrote ?_ later fits
            rw [List.lookup_append, fresh, Option.none_or, List.lookup_eq_none_iff]
            intro pair member
            have low := below pair member
            exact bne_iff_ne.mpr (by omega)
      · refine ih rest ?_
        intro pair member
        cases appendEntry_ok.mp one with
        | held found => exact below pair member
        | wrote fresh later fits => exact Nat.le_trans (below pair member) (Nat.le_of_lt later)

/-- The ids of entries with climbing sequences are found by them. -/
theorem lookup_climbing {entries : List TranscriptEntry} (climbing : entries.Pairwise fun first second =>
    first.sequence < second.sequence) {entry : TranscriptEntry} (member : entry ∈ entries) :
    (entries.map fun entry => (entry.sequence, entry.entryId.uuid.toString)).lookup entry.sequence =
      some entry.entryId.uuid.toString := by
  induction entries with
  | nil => cases member
  | cons head rest ih =>
      rw [List.pairwise_cons] at climbing
      rw [List.map_cons, List.lookup_cons]
      rcases List.mem_cons.mp member with rfl | member
      · rw [beq_self_eq_true]
      · rw [beq_eq_false_iff_ne.mpr (Nat.ne_of_gt (climbing.1 entry member))]
        exact ih climbing.2 member

/-! ## The file -/

/-- A file of complete lines. -/
def Whole (file : Bytes) (lines : List Bytes) : Prop :=
  lines ≠ [] ∧ (∀ line ∈ lines, newline ∉ line) ∧ file = joinLines newline lines

theorem Whole.split {file tail : Bytes} {lines : List Bytes} (whole : Whole file lines) (free : newline ∉ tail) :
    splitLines newline (file ++ tail) = (lines, tail) := by
  obtain ⟨_, apart, rfl⟩ := whole
  rw [splitLines_joinLines apart, splitLines_free free, List.append_nil]

theorem Whole.more (floats : C.floats.OneLine) {file : Bytes} {lines : List Bytes} (whole : Whole file lines)
    (new : List TranscriptEntry) :
    Whole (file ++ joinLines newline (new.map (recordLine C))) (lines ++ new.map (recordLine C)) := by
  obtain ⟨some, apart, rfl⟩ := whole
  refine ⟨fun none => some (List.append_eq_nil_iff.mp none).1, ?_, (joinLines_append _ _).symm⟩
  intro line member
  rcases List.mem_append.mp member with old | added
  · exact apart line old
  · obtain ⟨entry, _, rfl⟩ := List.mem_map.mp added
    exact recordLine_line floats entry

/-- What `sync` does to a file of complete lines, after the header of a missing one. -/
theorem sync_whole (floats : C.floats.OneLine) {createdAtMs : Nat} {entries : List TranscriptEntry}
    {file file' : Bytes} (done : sync C store sessionId createdAtMs entries file = .ok file') :
    ∃ opened, openFile C store sessionId createdAtMs entries file = .ok opened ∧
      ∃ repaired lines read last new, repairAndRead C store sessionId opened = .ok (repaired, read) ∧
        Whole repaired lines ∧ readLines C store sessionId (lines.filter (· ≠ [])) = .ok read ∧
        entries.foldlM (appendEntry C (existingIds read)) (lastSequence read, repaired) = .ok (last, file') ∧
        Appended C (existingIds read) (lastSequence read, repaired) entries (last, file') new ∧
        Whole file' (lines ++ new.map (recordLine C)) := by
  obtain ⟨opened, repaired, read, last, created, held, folded⟩ := sync_ok.mp done
  obtain ⟨_, some, same, lines⟩ := repairAndRead_ok.mp held
  obtain ⟨new, appended⟩ := append_new folded
  have whole : Whole repaired (splitLines newline opened).1 := ⟨some, (splitLines_spec opened).2.1, same⟩
  refine ⟨opened, created, repaired, _, read, last, new, held, whole, lines, folded, appended, ?_⟩
  have file : file' = repaired ++ joinLines newline (new.map (recordLine C)) := appended.file
  rw [file]
  exact whole.more floats new

/-- Calls of `sync` completed one after the other, from a missing file on. -/
def syncs (C : Codec) (store : ConversationStore) (sessionId : SessionId)
    (calls : List (Nat × List TranscriptEntry)) : Except Failed Bytes :=
  tryRun (fun file call => sync C store sessionId call.1 call.2 file) [] calls

/-- A missing file, or one of complete lines. -/
def Settled (file : Bytes) : Prop := file = [] ∨ ∃ lines, Whole file lines

theorem syncs_settled (floats : C.floats.OneLine) {calls : List (Nat × List TranscriptEntry)} {file : Bytes}
    (done : syncs C store sessionId calls = .ok file) : Settled file := by
  have start : Settled [] := .inl rfl
  refine tryRun_invariant start ?_ done
  intro before after call _ step
  obtain ⟨_, _, _, _, _, _, _, _, _, _, _, _, whole⟩ := sync_whole floats step
  exact .inr ⟨_, whole⟩

/-- After the header is there, the crashed file goes on from what the sync found. -/
theorem opened_prefix (floats : C.floats.OneLine) {createdAtMs : Nat} {entries : List TranscriptEntry}
    {file opened repaired left file' : Bytes} {read : List ReadEntry} (settled : Settled file)
    (created : openFile C store sessionId createdAtMs entries file = .ok opened)
    (held : repairAndRead C store sessionId opened = .ok (repaired, read))
    (begun : file <+: left) (after : repaired <+: file') (within : left <+: file') (header : newline ∈ left) :
    repaired <+: left := by
  have cut := (repairAndRead_ok.mp held).2.2.1
  rcases openFile_ok.mp created with ⟨present, rfl⟩ | ⟨rfl, _, _, rfl⟩
  · rcases settled with missing | ⟨lines, whole⟩
    · exact absurd missing present
    · have split := whole.split List.not_mem_nil
      rw [List.append_nil] at split
      rw [split, ← whole.2.2] at cut
      rw [cut]
      exact begun
  · have line : newline ∉ headerLine C store sessionId createdAtMs := headerLine_line floats createdAtMs
    have split := splitLines_line (d := newline) line []
    rw [split, splitLines_free List.not_mem_nil] at cut
    have same : repaired = headerLine C store sessionId createdAtMs ++ [newline] := by
      rw [cut, joinLines_cons]
      rfl
    rw [same] at after ⊢
    rcases List.prefix_or_prefix_of_prefix within after with short | long
    · rcases List.prefix_concat_iff.mp short with rfl | inside
      · exact List.prefix_refl _
      · exact absurd (inside.subset header) line
    · exact long

theorem filter_recordLines (entries : List TranscriptEntry) :
    (entries.map (recordLine C)).filter (· ≠ []) = entries.map (recordLine C) := by
  rw [List.filter_eq_self]
  intro line member
  obtain ⟨entry, _, rfl⟩ := List.mem_map.mp member
  exact decide_eq_true (recordLine_ne_nil entry)

/-- Lines that can be read with more lines after them can be read without these. -/
theorem readLines_before {lines : List Bytes} {read found : List ReadEntry} {new more : List TranscriptEntry}
    (first : readLines C store sessionId (lines.filter (· ≠ [])) = .ok read)
    (all : readLines C store sessionId ((lines ++ new.map (recordLine C) ++ more.map (recordLine C)).filter (· ≠ [])) =
      .ok found) :
    ∃ added, readEntries C (lastSequence read) (new.map (recordLine C)) = .ok added ∧
      readLines C store sessionId ((lines ++ new.map (recordLine C)).filter (· ≠ [])) = .ok (read ++ added) := by
  have some : lines.filter (· ≠ []) ≠ [] := by
    intro none
    rw [none] at first
    cases first
  have both : (lines ++ new.map (recordLine C)).filter (· ≠ []) ≠ [] := by
    rw [List.filter_append]
    exact fun none => some (List.append_eq_nil_iff.mp none).1
  rw [List.filter_append, filter_recordLines more] at all
  obtain ⟨front, _, _, before, _⟩ := (readLines_append both).mp all
  have whole := before
  rw [List.filter_append, filter_recordLines] at before
  obtain ⟨again, added, rfl, old, fresh⟩ := (readLines_append some).mp before
  rw [first, Except.ok.injEq] at old
  subst old
  exact ⟨added, fresh, whole⟩

/-- A crash that leaves the header line whole, or nothing, is made good by the next sync: it leaves the file
that the uninterrupted one leaves. -/
theorem sync_recovers (floats : C.floats.OneLine) {f : BitVec 64 → BitVec 64}
    {earlier : List (Nat × List TranscriptEntry)} {createdAtMs : Nat} {entries shown : List TranscriptEntry}
    {file file' left : Bytes} (before : syncs C store sessionId earlier = .ok file)
    (done : sync C store sessionId createdAtMs entries file = .ok file')
    (reads : read C store sessionId file' = .ok (file', shown))
    (back : ∀ entry ∈ entries, C.ReadsBack f (entryRecord entry))
    (begun : file <+: left) (within : left <+: file') (header : left = [] ∨ newline ∈ left) :
    ∃ again, sync C store sessionId createdAtMs entries left = .ok again ∧
      read C store sessionId again = .ok (again, shown) := by
  refine ⟨file', ?_, reads⟩
  rcases header with rfl | header
  · rw [← List.prefix_nil.mp begun]
    exact done
  obtain ⟨opened, created, repaired, lines, known, last, _, held, whole, old, folded, appended, _⟩ :=
    sync_whole floats done
  have after : repaired <+: file' := ⟨_, appended.file.symm⟩
  have reached := opened_prefix floats (syncs_settled floats before) created held begun after within header
  obtain ⟨first, rest, middle, tail, rfl, one, two, cut, free⟩ := append_cut floats folded reached within
  obtain ⟨new, done₁⟩ := append_new one
  obtain ⟨more, done₂⟩ := append_new two
  have middleWhole : Whole middle.2 (lines ++ new.map (recordLine C)) := by
    rw [done₁.file]
    exact whole.more floats new
  have fileWhole := middleWhole.more floats more
  rw [← done₂.file] at fileWhole
  -- what the whole file shows, the crashed one shows up to the cut
  obtain ⟨found, shownFile, _⟩ := read_ok.mp reads
  obtain ⟨fits, _, _, all⟩ := repairAndRead_ok.mp shownFile
  have splitFile := fileWhole.split List.not_mem_nil
  rw [List.append_nil] at splitFile
  rw [splitFile] at all
  obtain ⟨added, fresh, both⟩ := readLines_before old all
  have splitLeft := middleWhole.split free
  rw [← cut] at splitLeft
  have repair : repairAndRead C store sessionId left = .ok (middle.2, known ++ added) := by
    refine repairAndRead_ok.mpr ⟨Nat.le_trans within.length_le fits, ?_, ?_, ?_⟩
    · rw [splitLeft]
      exact middleWhole.1
    · rw [splitLeft]
      exact middleWhole.2.2
    · rw [splitLeft]
      exact both
  have ids := readEntries_recordLines
    (fun entry member => back entry (List.mem_append_left _ (done₁.known entry member))) fresh
  have existing : existingIds (known ++ added) =
      existingIds known ++ new.map fun entry => (entry.sequence, entry.entryId.uuid.toString) := by
    rw [← ids, existingIds, List.map_append]
    rfl
  have lastRead : lastSequence (known ++ added) = middle.1 := by
    rw [lastSequence_eq, existing, List.getLast?_append, List.getLast?_map, done₁.last]
    cases new.getLast? with
    | none => rw [Option.map_none, Option.none_or, lastSequence_eq]; rfl
    | some entry => rfl
  refine sync_ok.mpr ⟨left, middle.2, known ++ added, last, ?_, repair, ?_⟩
  · exact openFile_ok.mpr (.inl ⟨List.ne_nil_of_mem header, rfl⟩)
  · rw [existing, lastRead, List.foldlM_append, bind_ok]
    refine ⟨middle, append_held ?_, append_more two ?_⟩
    · intro entry member
      rw [List.lookup_append]
      rcases done₁.covered entry member with found | found
      · rw [found, Option.some_or]
      · rw [done₁.fresh entry found, Option.none_or]
        exact lookup_climbing done₁.climbing found
    · intro pair member
      obtain ⟨entry, written, rfl⟩ := List.mem_map.mp member
      exact (done₁.later.2 entry written).2

/-! ## A crash in the second record, and one in the header -/

def tornCodec : Codec := sampleCodec [sampleEntry 1 "first", sampleEntry 2 "second"]

def tornSync (entries : List TranscriptEntry) (file : Bytes) : Except Failed Bytes :=
  sync tornCodec sampleStore ⟨⟨1⟩⟩ 1 entries file

def firstFile : Bytes := (tornSync [sampleEntry 1 "first"] []).toOption.getD []
def secondFile : Bytes := (tornSync [sampleEntry 2 "second"] firstFile).toOption.getD []

/-- The two syncs and what they leave, evaluated once. -/
theorem tornSync_files :
    (tornSync [sampleEntry 1 "first"] [] = .ok firstFile ∧ tornSync [sampleEntry 2 "second"] firstFile = .ok secondFile) ∧
    (read tornCodec sampleStore ⟨⟨1⟩⟩ firstFile = .ok (firstFile, [sampleEntry 1 "first"]) ∧
      read tornCodec sampleStore ⟨⟨1⟩⟩ secondFile =
        .ok (secondFile, [sampleEntry 1 "first", sampleEntry 2 "second"])) ∧
    (firstFile <+: secondFile.take (firstFile.length + 20) ∧ newline ∈ secondFile.take (firstFile.length + 20)) ∧
    tornSync [sampleEntry 1 "first"] (firstFile.take 1) =
      .error ⟨"conversation header is torn", firstFile.take 1⟩ := by decide +kernel

theorem sync_recovers_second : ∃ again, tornSync [sampleEntry 2 "second"] (secondFile.take (firstFile.length + 20)) =
    .ok again ∧ read tornCodec sampleStore ⟨⟨1⟩⟩ again = .ok (again, [sampleEntry 1 "first", sampleEntry 2 "second"]) := by
  obtain ⟨⟨first, done⟩, ⟨_, reads⟩, ⟨begun, header⟩, _⟩ := tornSync_files
  have before : syncs tornCodec sampleStore ⟨⟨1⟩⟩ [(1, [sampleEntry 1 "first"])] = .ok firstFile := by
    unfold tornSync at first
    rw [syncs, tryRun, List.foldlM_cons]
    exact bind_ok.mpr ⟨firstFile, first, rfl⟩
  have back : ∀ entry ∈ [sampleEntry 2 "second"], tornCodec.ReadsBack id (entryRecord entry) := by
    intro entry member
    rw [List.mem_singleton.mp member]
    exact .of_read (by decide +kernel)
  exact sync_recovers (sampleCodec_line _) before done reads back begun (List.take_prefix _ _) (.inr header)

/-- A crash within the header line leaves a file that no sync repairs. -/
theorem torn_header : ¬ ∀ (earlier : List (Nat × List TranscriptEntry)) (entries shown : List TranscriptEntry)
    (file file' left : Bytes), syncs tornCodec sampleStore ⟨⟨1⟩⟩ earlier = .ok file →
      tornSync entries file = .ok file' → read tornCodec sampleStore ⟨⟨1⟩⟩ file' = .ok (file', shown) →
        file <+: left → left <+: file' → ∃ again, tornSync entries left = .ok again ∧
          read tornCodec sampleStore ⟨⟨1⟩⟩ again = .ok (again, shown) := by
  intro claim
  obtain ⟨⟨done, _⟩, ⟨reads, _⟩, _, stuck⟩ := tornSync_files
  obtain ⟨again, synced, _⟩ := claim [] [sampleEntry 1 "first"] [sampleEntry 1 "first"] [] firstFile
    (firstFile.take 1) rfl done reads List.nil_prefix (List.take_prefix _ _)
  rw [stuck] at synced
  cases synced

end LatteCode.Engine
