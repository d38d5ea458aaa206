import LatteCode.Engine.Torn
/- What a sync leaves in the file, and when the next read takes it. -/

namespace LatteCode

mutual
/-- How many containers stand within each other. -/
def Json.nesting : Json → Nat
  | .array elements => elements.nesting + 1
  | .object fields => fields.nesting + 1
  | _ => 0
def Elements.nesting : Elements → Nat
  | .nil => 0
  | .cons head tail => max head.nesting tail.nesting
def Fields.nesting : Fields → Nat
  | .nil => 0
  | .cons _ value rest => max value.nesting rest.nesting
end

end LatteCode

namespace LatteCode.Engine
open Lines Outcome

/-- What `serde_json` reads; it writes any depth. -/
def MAX_NESTING : Nat := 127

variable {C : Codec} {store : ConversationStore} {sessionId : SessionId} {f : BitVec 64 → BitVec 64}

/-- `serde_json` reads back the records that it wrote, up to its depth, and `uuid` the ids. -/
structure Codec.Parses (C : Codec) (f : BitVec 64 → BitVec 64) (entry : TranscriptEntry) : Prop where
  line : (entryRecord entry).nesting ≤ MAX_NESTING →
    C.fromSlice (recordLine C entry) = .ok ((entryRecord entry).mapFloats f)
  deep : MAX_NESTING < (entryRecord entry).nesting → ∃ message, C.fromSlice (recordLine C entry) = .error message
  entryId : C.parseStr entry.entryId.uuid.toString = .ok entry.entryId.uuid
  turnId : ∀ turnId ∈ entry.turnId, C.parseStr turnId.toString = .ok turnId.uuid

/-! ## The entries that a sync writes -/

/-- The entries that are new to the file, up to the first one that is refused. -/
def appendable (C : Codec) (existing : Existing) : Nat → List TranscriptEntry → List TranscriptEntry
  | _, [] => []
  | last, entry :: entries =>
      match existing.lookup entry.sequence with
      | some existingId =>
          if existingId = entry.entryId.uuid.toString then appendable C existing last entries else []
      | none =>
          if last < entry.sequence ∧ (recordLine C entry).length ≤ MAX_RECORD_BYTES then
            entry :: appendable C existing entry.sequence entries
          else []

/-- The file of a sync that went through, or of one that stopped. -/
def leaves : Except Failed Bytes → Bytes
  | .ok file => file
  | .error failed => failed.file

theorem appendEntry_error {existing : Existing} {written : Nat × Bytes} {entry : TranscriptEntry} {failed : Failed}
    (refused : appendEntry C existing written entry = .error failed) : failed.file = written.2 ∧
      ∀ entries, appendable C existing written.1 (entry :: entries) = [] := by
  rw [appendEntry] at refused
  cases found : existing.lookup entry.sequence with
  | some id =>
      rw [found] at refused
      simp only [bind_error, ensure_error, reduceCtorEq, and_false, exists_false, or_false] at refused
      obtain ⟨other, rfl⟩ := refused
      refine ⟨rfl, fun entries => ?_⟩
      simp only [appendable, found, if_neg other]
  | none =>
      rw [found] at refused
      simp only [writeRecord, bind_error, ensure_error, reduceCtorEq, and_false, exists_false, or_false, ensure_ok]
        at refused
      rcases refused with ⟨late, rfl⟩ | ⟨_, _, large, rfl⟩
      · refine ⟨rfl, fun entries => ?_⟩
        simp only [appendable, found, if_neg fun both : _ ∧ _ => late both.1]
      · refine ⟨rfl, fun entries => ?_⟩
        simp only [appendable, found]
        exact if_neg fun both => large both.2

/-- The loop writes the appendable entries, whether it comes to its end or not. -/
theorem append_leaves {existing : Existing} {entries : List TranscriptEntry} (written : Nat × Bytes) :
    leaves ((entries.foldlM (appendEntry C existing) written).map Prod.snd) =
      written.2 ++ joinLines newline ((appendable C existing written.1 entries).map (recordLine C)) := by
  induction entries generalizing written with
  | nil => exact (List.append_nil _).symm
  | cons entry entries ih =>
      rw [List.foldlM_cons]
      cases one : appendEntry C existing written entry with
      | error failed =>
          obtain ⟨same, none⟩ := appendEntry_error one
          rw [none]
          exact same.trans (List.append_nil _).symm
      | ok middle =>
          refine (ih middle).trans ?_
          cases appendEntry_ok.mp one with
          | held found => simp only [appendable, found, if_true]
          | wrote fresh later fits =>
              simp only [appendable, fresh, if_pos (And.intro later fits), List.map_cons, joinLines_cons,
                List.append_assoc, List.singleton_append]

/-- A loop that comes to its end has every entry in the file. -/
theorem append_covers {existing : Existing} {entries : List TranscriptEntry} {written written' : Nat × Bytes}
    (done : entries.foldlM (appendEntry C existing) written = .ok written') : ∀ entry ∈ entries,
      existing.lookup entry.sequence = some entry.entryId.uuid.toString ∨
        entry ∈ appendable C existing written.1 entries := by
  induction entries generalizing written with
  | nil => exact List.forall_mem_nil _
  | cons entry entries ih =>
      rw [List.foldlM_cons, bind_ok] at done
      obtain ⟨middle, one, rest⟩ := done
      have others := ih rest
      rw [List.forall_mem_cons]
      cases appendEntry_ok.mp one with
      | held found =>
          simp only [appendable, found, if_true]
          exact ⟨.inl trivial, others⟩
      | wrote fresh later fits =>
          simp only [appendable, fresh, if_pos (And.intro later fits)]
          exact ⟨.inr List.mem_cons_self, fun other member => (others other member).imp id (List.mem_cons_of_mem _)⟩

/-- What is known of the appendable entries. -/
structure Appendable (C : Codec) (last : Nat) (entries written : List TranscriptEntry) : Prop where
  known : ∀ entry ∈ written, entry ∈ entries
  later : ∀ entry ∈ written, last < entry.sequence
  climbing : written.Pairwise fun first second => first.sequence < second.sequence
  fits : ∀ entry ∈ written, (recordLine C entry).length ≤ MAX_RECORD_BYTES

theorem appendable_spec {existing : Existing} (entries : List TranscriptEntry) (last : Nat) :
    Appendable C last entries (appendable C existing last entries) := by
  induction entries generalizing last with
  | nil => exact ⟨List.forall_mem_nil _, List.forall_mem_nil _, .nil, List.forall_mem_nil _⟩
  | cons entry entries ih =>
      have nothing : Appendable C last (entry :: entries) [] :=
        ⟨List.forall_mem_nil _, List.forall_mem_nil _, .nil, List.forall_mem_nil _⟩
      rw [appendable]
      cases existing.lookup entry.sequence with
      | some id =>
          dsimp only
          split
          case isTrue =>
            obtain ⟨known, later, climbing, fits⟩ := ih last
            exact ⟨fun other member => List.mem_cons_of_mem _ (known other member), later, climbing, fits⟩
          case isFalse => exact nothing
      | none =>
          dsimp only
          split
          case isTrue writes =>
            obtain ⟨known, later, climbing, fits⟩ := ih entry.sequence
            refine ⟨?_, ?_, List.pairwise_cons.mpr ⟨later, climbing⟩, List.forall_mem_cons.mpr ⟨writes.2, fits⟩⟩
            · intro other member
              exact List.mem_cons.mpr ((List.mem_cons.mp member).imp id (known other))
            · exact List.forall_mem_cons.mpr
                ⟨writes.1, fun other member => Nat.lt_trans writes.1 (later other member)⟩
          case isFalse => exact nothing

/-- What a sync of an accepted file leaves. -/
theorem sync_leaves {createdAtMs : Nat} {entries : List TranscriptEntry} {file repaired : Bytes}
    {found : List ReadEntry} (accepted : repairAndRead C store sessionId file = .ok (repaired, found)) :
    sync C store sessionId createdAtMs entries file =
        (entries.foldlM (appendEntry C (existingIds found)) (lastSequence found, repaired)).map Prod.snd ∧
      leaves (sync C store sessionId createdAtMs entries file) = repaired ++
        joinLines newline ((appendable C (existingIds found) (lastSequence found) entries).map (recordLine C)) := by
  have present : file ≠ [] := by
    rintro rfl
    exact (repairAndRead_ok.mp accepted).2.1 rfl
  have opened : openFile C store sessionId createdAtMs entries file = .ok file :=
    openFile_ok.mpr (.inl ⟨present, rfl⟩)
  have loop : sync C store sessionId createdAtMs entries file =
      (entries.foldlM (appendEntry C (existingIds found)) (lastSequence found, repaired)).map Prod.snd := by
    rw [sync, opened]
    change (repairAndRead C store sessionId file >>= _) = _
    rw [accepted]
    change (entries.foldlM (appendEntry C (existingIds found)) (lastSequence found, repaired) >>= _) = _
    cases entries.foldlM (appendEntry C (existingIds found)) (lastSequence found, repaired) <;> rfl
  exact ⟨loop, loop ▸ append_leaves _⟩

/-! ## What the next read finds -/

theorem Codec.Parses.records {entry : TranscriptEntry} (parses : C.Parses f entry)
    (shallow : (entryRecord entry).nesting ≤ MAX_NESTING) (fits : (recordLine C entry).length ≤ MAX_RECORD_BYTES) :
    C.Records f entry := ⟨parses.line shallow, parses.entryId, parses.turnId, fits⟩

theorem Codec.Parses.shallow {entry : TranscriptEntry} (parses : C.Parses f entry) {previous : Nat}
    {found : ReadEntry} (done : readEntry C previous (recordLine C entry) = .ok found) :
    (entryRecord entry).nesting ≤ MAX_NESTING := by
  by_contra deep
  obtain ⟨message, refused⟩ := parses.deep (Nat.lt_of_not_le deep)
  simp only [readEntry, jsonError, bind_ok, mapError_ok, refused, reduceCtorEq, false_and, exists_false, and_false]
    at done

/-- A line that was read was not too deep. -/
theorem readEntries_shallow {entries : List TranscriptEntry} (parses : ∀ entry ∈ entries, C.Parses f entry)
    {previous : Nat} {found : List ReadEntry} (done : readEntries C previous (entries.map (recordLine C)) = .ok found) :
    ∀ entry ∈ entries, (entryRecord entry).nesting ≤ MAX_NESTING := by
  induction entries generalizing previous found with
  | nil => exact List.forall_mem_nil _
  | cons entry entries ih =>
      rw [List.forall_mem_cons] at parses ⊢
      rw [List.map_cons] at done
      simp only [readEntries, bind_ok, Except.ok.injEq] at done
      obtain ⟨head, here, rest, others, _⟩ := done
      exact ⟨parses.1.shallow here, ih parses.2 others⟩

/-- The file with these records after it is in the limits of the reader. -/
structure Room (C : Codec) (repaired : Bytes) (written : List TranscriptEntry) : Prop where
  size : repaired.length + (written.map fun entry => (recordLine C entry).length + 1).sum ≤ MAX_FILE_BYTES
  nesting : ∀ entry ∈ written, (entryRecord entry).nesting ≤ MAX_NESTING

section Appended

variable {file repaired : Bytes} {found : List ReadEntry} {entries written : List TranscriptEntry}

/-- An accepted file is complete lines after the repair. -/
theorem accepted_lines (accepted : repairAndRead C store sessionId file = .ok (repaired, found)) :
    ∃ lines, Whole repaired lines ∧ readLines C store sessionId (lines.filter (· ≠ [])) = .ok found := by
  obtain ⟨_, some, same, lines⟩ := repairAndRead_ok.mp accepted
  exact ⟨_, ⟨some, (splitLines_spec file).2.1, same⟩, lines⟩

/-- The read takes the file and the records after it if and only if there is room for them. -/
theorem read_appended (floats : C.floats.OneLine) (parses : ∀ entry ∈ written, C.Parses f entry)
    (accepted : repairAndRead C store sessionId file = .ok (repaired, found))
    (new : Appendable C (lastSequence found) entries written) {after : List TranscriptEntry} :
    read C store sessionId (repaired ++ joinLines newline (written.map (recordLine C))) =
        .ok (repaired ++ joinLines newline (written.map (recordLine C)), after) ↔
      Room C repaired written ∧ after = found.map ReadEntry.entry ++ written.map (readBack f) := by
  obtain ⟨lines, whole, before⟩ := accepted_lines accepted
  have more := whole.more floats written
  have split := more.split List.not_mem_nil
  rw [List.append_nil] at split
  have some : lines.filter (· ≠ []) ≠ [] := by
    intro none
    rw [none] at before
    cases before
  have size : (repaired ++ joinLines newline (written.map (recordLine C))).length =
      repaired.length + (written.map fun entry => (recordLine C entry).length + 1).sum := by
    rw [List.length_append, length_joinLines, List.map_map]
    rfl
  simp only [read_ok, repairAndRead_ok, split, size, List.filter_append, filter_recordLines, readLines_append some,
    before, Except.ok.injEq]
  constructor
  · rintro ⟨_, ⟨fits, _, _, _, rest, rfl, rfl, fresh⟩, rfl⟩
    have shallow := readEntries_shallow parses fresh
    have records : ∀ entry ∈ written, C.Records f entry := fun entry member =>
      (parses entry member).records (shallow entry member) (new.fits entry member)
    rw [readEntries_records records new.climbing new.later, Except.ok.injEq] at fresh
    subst fresh
    refine ⟨⟨fits, shallow⟩, ?_⟩
    rw [List.map_append, List.map_map]
    rfl
  · rintro ⟨room, rfl⟩
    have records : ∀ entry ∈ written, C.Records f entry := fun entry member =>
      (parses entry member).records (room.nesting entry member) (new.fits entry member)
    refine ⟨_, ⟨room.size, more.1, more.2.2, found, _, rfl, rfl,
      readEntries_records records new.climbing new.later⟩, ?_⟩
    rw [List.map_append, List.map_map]
    rfl

/-- An id in the file is the text that was parsed. -/
theorem readEntries_ids {previous : Nat} {lines : List Bytes} (done : readEntries C previous lines = .ok found) :
    ∀ held ∈ found, C.parseStr held.idText = .ok held.entry.entryId.uuid := by
  induction lines generalizing previous found with
  | nil =>
      cases done
      exact List.forall_mem_nil _
  | cons line lines ih =>
      simp only [readEntries, bind_ok, Except.ok.injEq] at done
      obtain ⟨head, here, rest, others, rfl⟩ := done
      refine List.forall_mem_cons.mpr ⟨?_, ih others⟩
      simp only [readEntry, jsonError, bind_ok, ensure_ok, require_ok, mapError_ok, Except.ok.injEq] at here
      obtain ⟨_, _, _, _, _, _, _, _, _, _, _, _, _, parsed, _, _, _, _, _, _, _, _, _, _, _, _, rfl⟩ := here
      exact parsed

theorem accepted_ids (accepted : repairAndRead C store sessionId file = .ok (repaired, found)) :
    ∀ held ∈ found, C.parseStr held.idText = .ok held.entry.entryId.uuid := by
  obtain ⟨lines, _, read⟩ := accepted_lines accepted
  cases kept : lines.filter (· ≠ []) with
  | nil =>
      rw [kept] at read
      cases read
  | cons header rest =>
      rw [kept] at read
      obtain ⟨_, _, done⟩ := bind_ok.mp read
      exact readEntries_ids done

/-- What the file holds under the sequence and the id of an entry is that entry. -/
theorem held_entry {entry : TranscriptEntry} (parses : C.Parses f entry)
    (accepted : repairAndRead C store sessionId file = .ok (repaired, found))
    (here : (existingIds found).lookup entry.sequence = some entry.entryId.uuid.toString) :
    ∃ held ∈ found.map ReadEntry.entry, held.sequence = entry.sequence ∧ held.entryId = entry.entryId := by
  obtain ⟨before, after, split, _⟩ := List.lookup_eq_some_iff.mp here
  have member : (entry.sequence, entry.entryId.uuid.toString) ∈ existingIds found := by
    rw [split]
    exact List.mem_append_right _ List.mem_cons_self
  obtain ⟨held, inside, same⟩ := List.mem_map.mp member
  have ids := accepted_ids accepted held inside
  obtain ⟨sequence, idText⟩ := Prod.mk.inj same
  rw [idText, parses.entryId, Except.ok.injEq] at ids
  exact ⟨held.entry, List.mem_map_of_mem inside, sequence, congrArg TranscriptEntryId.mk ids.symm⟩

end Appended

/-! ## A sync and the read after it -/

/-- The entry stands there, as it did before or as the parser reads it back. -/
def Shown (f : BitVec 64 → BitVec 64) (before after : List TranscriptEntry) (entry : TranscriptEntry) : Prop :=
  ∃ kept ∈ after, kept.sequence = entry.sequence ∧ kept.entryId = entry.entryId ∧
    (kept ∈ before ∨ kept = readBack f entry)

/-- Whatever the sync answers, the next read succeeds with all that was there; after a success, with the entries
of the sync as well. -/
structure StaysReadable (C : Codec) (store : ConversationStore) (sessionId : SessionId) (f : BitVec 64 → BitVec 64)
    (createdAtMs : Nat) (entries : List TranscriptEntry) (file : Bytes) (before : List TranscriptEntry) : Prop where
  synced : ∀ file', sync C store sessionId createdAtMs entries file = .ok file' →
    ∃ after, read C store sessionId file' = .ok (file', after) ∧ before <+: after ∧
      ∀ entry ∈ entries, Shown f before after entry
  failed : ∀ failed, sync C store sessionId createdAtMs entries file = .error failed →
    ∃ after, read C store sessionId failed.file = .ok (failed.file, after) ∧ before <+: after

section Sync

variable {createdAtMs : Nat} {entries : List TranscriptEntry} {file repaired : Bytes} {found : List ReadEntry}

/-- The reader's limits on the file and on the depth of a record are not the writer's: a sync stays readable if and
only if what it writes is within them. -/
theorem sync_staysReadable (floats : C.floats.OneLine) (parses : ∀ entry ∈ entries, C.Parses f entry)
    (accepted : repairAndRead C store sessionId file = .ok (repaired, found)) :
    StaysReadable C store sessionId f createdAtMs entries file (found.map ReadEntry.entry) ↔
      Room C repaired (appendable C (existingIds found) (lastSequence found) entries) := by
  obtain ⟨loop, left⟩ := @sync_leaves C store sessionId createdAtMs entries file repaired found accepted
  have new := @appendable_spec C (existingIds found) entries (lastSequence found)
  have reads := @read_appended C store sessionId f file repaired found entries _ floats
    (fun entry member => parses entry (new.known entry member)) accepted new
  rw [← left] at reads
  constructor
  · intro stays
    cases synced : sync C store sessionId createdAtMs entries file with
    | ok file' =>
        obtain ⟨after, shown, _⟩ := stays.synced file' synced
        rw [synced] at reads
        exact (reads.mp shown).1
    | error failed =>
        obtain ⟨after, shown, _⟩ := stays.failed failed synced
        rw [synced] at reads
        exact (reads.mp shown).1
  · intro room
    have shown := reads.mpr ⟨room, rfl⟩
    refine ⟨fun file' synced => ?_, fun failed synced => ?_⟩
    · rw [synced] at shown loop
      refine ⟨_, shown, List.prefix_append _ _, fun entry member => ?_⟩
      obtain ⟨⟨last, _⟩, done, _⟩ := map_ok.mp loop.symm
      rcases append_covers done entry member with held | written
      · obtain ⟨kept, inside, sequence, entryId⟩ := held_entry (parses entry member) accepted held
        exact ⟨kept, List.mem_append_left _ inside, sequence, entryId, .inl inside⟩
      · exact ⟨readBack f entry, List.mem_append_right _ (List.mem_map_of_mem written), rfl, rfl, .inr rfl⟩
    · rw [synced] at shown
      exact ⟨_, shown, List.prefix_append _ _⟩

end Sync

deriving instance DecidableEq for ReadEntry

theorem sync_staysReadable_second : StaysReadable tornCodec sampleStore ⟨⟨1⟩⟩ id 1 [sampleEntry 2 "second"] firstFile
    [sampleEntry 1 "first"] := by
  have accepted : repairAndRead tornCodec sampleStore ⟨⟨1⟩⟩ firstFile =
      .ok (firstFile, [⟨(sampleEntry 1 "first").entryId.uuid.toString, sampleEntry 1 "first"⟩]) := by decide +kernel
  have parses : ∀ entry ∈ [sampleEntry 2 "second"], tornCodec.Parses id entry := by
    intro entry member
    rw [List.mem_singleton.mp member]
    refine ⟨fun _ => by decide +kernel, fun deep => ?_, by decide +kernel, ?_⟩
    · exact absurd deep (by decide +kernel)
    · intro turnId here
      cases here
  refine (sync_staysReadable (sampleCodec_line _) parses accepted).mpr ⟨?_, ?_⟩
  · decide +kernel
  · decide +kernel

/-! ## A file as long as the reader allows -/

def fullCodec : Codec := sampleCodec [sampleEntry 1 "first"]

def fullHeader : Bytes := headerLine fullCodec sampleStore ⟨⟨1⟩⟩ 1

/-- A header and empty lines after it. -/
def fullLines : List Bytes := fullHeader :: List.replicate (MAX_FILE_BYTES - fullHeader.length - 1) []

def fullFile : Bytes := joinLines newline fullLines

/-- Empty lines fill a file up to any size. -/
theorem length_padded {header : Bytes} {size : Nat} (short : header.length < size) :
    (joinLines newline (header :: List.replicate (size - header.length - 1) [])).length = size := by
  have blank : ((List.replicate (size - header.length - 1) []).map fun line : Bytes => line.length + 1).sum =
      size - header.length - 1 := by
    rw [List.map_replicate, List.sum_replicate_nat, List.length_nil, Nat.zero_add, Nat.mul_one]
  rw [length_joinLines, List.map_cons, List.sum_cons, blank]
  omega

theorem length_fullFile : fullFile.length = MAX_FILE_BYTES :=
  length_padded (by decide +kernel)

theorem fullFile_accepted : repairAndRead fullCodec sampleStore ⟨⟨1⟩⟩ fullFile =
    .ok (fullFile, []) := by
  have whole : Whole fullFile fullLines := by
    refine ⟨List.cons_ne_nil _ _, ?_, rfl⟩
    intro line member
    rcases List.mem_cons.mp member with rfl | member
    · exact headerLine_line (sampleCodec_line _) 1
    · rw [List.eq_of_mem_replicate member]
      exact List.not_mem_nil
  have split := whole.split List.not_mem_nil
  rw [List.append_nil] at split
  have header : fullHeader ≠ [] := headerLine_ne_nil 1
  have skips : ∀ blank, (fullHeader :: List.replicate blank []).filter (· ≠ []) = [fullHeader] := by
    intro blank
    simp [header]
  have lines : fullLines.filter (· ≠ []) = [fullHeader] := skips _
  refine repairAndRead_ok.mpr ⟨?_, ?_, ?_, ?_⟩
  · exact Nat.le_of_eq length_fullFile
  · rw [split]
    exact whole.1
  · rw [split]
    rfl
  · rw [split, lines]
    decide +kernel

theorem full_file_grows : ¬ ∀ (entries : List TranscriptEntry) (file repaired : Bytes) (found : List ReadEntry),
    repairAndRead fullCodec sampleStore ⟨⟨1⟩⟩ file = .ok (repaired, found) →
      StaysReadable fullCodec sampleStore ⟨⟨1⟩⟩ id 1 entries file (found.map ReadEntry.entry) := by
  intro claim
  have stays := claim [sampleEntry 1 "first"] fullFile fullFile [] fullFile_accepted
  have small : (recordLine fullCodec (sampleEntry 1 "first")).length ≤ MAX_RECORD_BYTES := by decide +kernel
  have wrote := appendEntry_ok.mpr (@EntryAppended.wrote fullCodec [] (0, fullFile) _ rfl Nat.zero_lt_one small)
  have synced : sync fullCodec sampleStore ⟨⟨1⟩⟩ 1 [sampleEntry 1 "first"] fullFile =
      .ok (fullFile ++ (recordLine fullCodec (sampleEntry 1 "first") ++ [newline])) := by
    rw [(sync_leaves fullFile_accepted).1, List.foldlM_cons]
    change ((appendEntry fullCodec [] (0, fullFile) (sampleEntry 1 "first") >>= _).map Prod.snd) = _
    rw [wrote]
    rfl
  obtain ⟨_, shown, _⟩ := stays.synced _ synced
  obtain ⟨_, held, _⟩ := read_ok.mp shown
  obtain ⟨fits, _⟩ := repairAndRead_ok.mp held
  have longer : ∀ file record : Bytes, (file ++ (record ++ [newline])).length = file.length + (record.length + 1) := by
    intro file record
    simp only [List.length_append, List.length_singleton]
  rw [longer, length_fullFile] at fits
  omega

end LatteCode.Engine
