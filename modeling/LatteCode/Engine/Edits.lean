import LatteCode.Engine.Overwrites
import LatteCode.Lib.Occurrences
/- What an edit replaces, and how often its span may occur. -/

namespace LatteCode.Engine
open FileTree Occurrences Outcome

section Spans

variable {pattern text : List Char}

theorem splitFirst_some {before after : List Char} (inhabited : pattern ≠ [])
    (found : splitFirst pattern text = some (before, after)) :
    text = before ++ pattern ++ after ∧ First pattern text before.length := by
  induction text generalizing before with
  | nil =>
      rw [splitFirst, if_neg inhabited] at found
      cases found
  | cons c rest ih =>
      rw [splitFirst] at found
      split at found
      case isTrue here =>
        cases found
        obtain ⟨after, whole⟩ := here
        rw [← whole, List.drop_left]
        exact ⟨rfl, occursAt_prefix, fun j _ => Nat.zero_le j⟩
      case isFalse other =>
        obtain ⟨⟨before, after⟩, later, same⟩ := Option.map_eq_some_iff.mp found
        cases same
        obtain ⟨whole, occurs, least⟩ := ih later
        refine ⟨congrArg (c :: ·) whole, occurs, fun j there => ?_⟩
        cases j with
        | zero => exact absurd there other
        | succ j => exact Nat.succ_le_succ (least j there)

theorem splitFirst_none (inhabited : pattern ≠ []) (missing : splitFirst pattern text = none) (i : Nat) :
    ¬ OccursAt pattern text i := by
  induction text generalizing i with
  | nil =>
      intro occurs
      rw [OccursAt, List.drop_nil, List.prefix_nil] at occurs
      exact inhabited occurs
  | cons c rest ih =>
      rw [splitFirst] at missing
      split at missing
      case isTrue => cases missing
      case isFalse other =>
        cases i with
        | zero => exact other
        | succ i => exact ih (Option.map_eq_none_iff.mp missing) i

theorem splitFirst_isNone (inhabited : pattern ≠ []) :
    splitFirst pattern text = none ↔ ∀ i, ¬ OccursAt pattern text i := by
  refine ⟨splitFirst_none inhabited, fun nowhere => ?_⟩
  cases found : splitFirst pattern text with
  | none => rfl
  | some parts => exact absurd (splitFirst_some inhabited found).2.1 (nowhere _)

/-- The occurrences from the end of one on are those of what stands behind it. -/
theorem behind_nowhere {before after : List Char} :
    (∀ i, ¬ OccursAt pattern after i) ↔
      ∀ j, OccursAt pattern (before ++ pattern ++ after) j → j < before.length + pattern.length := by
  rw [← List.length_append]
  constructor
  · intro nowhere j occurs
    by_contra behind
    obtain ⟨i, rfl⟩ := Nat.exists_eq_add_of_le (Nat.le_of_not_lt behind)
    exact nowhere i (occursAt_append.mp occurs)
  · intro inside i occurs
    exact absurd (inside _ (occursAt_append.mpr occurs)) (Nat.not_lt.mpr (Nat.le_add_right _ i))

/-- One match is counted if no occurrence begins at or behind the end of the first one. -/
theorem countMatches_one {fuel : Nat} (inhabited : pattern ≠ []) (enough : 2 ≤ fuel) :
    countMatches pattern fuel text = 1 ↔
      ∃ i, First pattern text i ∧ ∀ j, OccursAt pattern text j → j < i + pattern.length := by
  obtain ⟨fuel, rfl⟩ := Nat.exists_eq_add_of_le' enough
  rw [countMatches]
  cases found : splitFirst pattern text with
  | none =>
      dsimp only
      refine ⟨fun impossible => absurd impossible Nat.zero_ne_one, ?_⟩
      rintro ⟨i, first, _⟩
      exact absurd first.1 (splitFirst_none inhabited found i)
  | some parts =>
      obtain ⟨before, after⟩ := parts
      obtain ⟨whole, first⟩ := splitFirst_some inhabited found
      have rest : countMatches pattern (fuel + 1) after = 0 ↔ ∀ i, ¬ OccursAt pattern after i := by
        rw [← splitFirst_isNone inhabited, countMatches]
        cases splitFirst pattern after with
        | none => exact ⟨fun _ => rfl, fun _ => rfl⟩
        | some => exact ⟨fun impossible => absurd impossible (Nat.succ_ne_zero _), fun impossible => (by cases impossible)⟩
      dsimp only
      rw [Nat.add_eq_right, rest, @behind_nowhere pattern before after, ← whole]
      constructor
      · exact fun last => ⟨before.length, first, last⟩
      · rintro ⟨i, other, last⟩
        rw [first.unique other]
        exact last

/-- Occurrences that overlap are counted once. -/
example : countMatches "aba".toList 6 "ababa".toList = 1 := by decide +kernel

theorem replaceFirst_first {content before after : String} {i : Nat} (inhabited : before ≠ "")
    (first : First before.toList content.toList i) :
    replaceFirst content before after =
      .ofList (replacedAt content.toList i before.toList.length after.toList) := by
  have letters : before.toList ≠ [] := fun empty => inhabited (String.toList_eq_nil_iff.mp empty)
  rw [replaceFirst]
  cases found : splitFirst before.toList content.toList with
  | none => exact absurd first.1 (splitFirst_none letters found i)
  | some parts =>
      obtain ⟨passed, rest⟩ := parts
      obtain ⟨whole, other⟩ := splitFirst_some letters found
      have here : passed.length = i := other.unique first
      have behind : content.toList.drop (passed.length + before.toList.length) = rest := by
        rw [whole, ← List.length_append, List.drop_left]
      have ahead : content.toList.take passed.length = passed := by
        rw [whole, List.append_assoc, List.take_left]
      rw [replacedAt, ← here, behind, ahead]

end Spans

theorem toBytes_decoded {bytes : List UInt8} {content : String}
    (decoded : String.fromUTF8? ⟨bytes.toArray⟩ = some content) : bytes = toBytes content := by
  rw [String.fromUTF8?] at decoded
  split at decoded
  case isTrue =>
    cases decoded
    rfl
  case isFalse => cases decoded

theorem toBytes_decodes (content : String) : String.fromUTF8? ⟨(toBytes content).toArray⟩ = some content := by
  rw [String.fromUTF8?]
  split
  case isTrue => rfl
  case isFalse invalid => exact absurd content.isValidUTF8 invalid

section Edits

variable {C : Crates} {registry : ToolRegistry} {tree tree' : Files} {workspace : WorkspacePath} {input path target : OsStr}
  {before after content : String}

/-- A replacement goes down from the root, which is a directory then. -/
theorem atomicReplace_root {data : FileData} {create : Bool}
    (replaced : workspace.atomicReplace C.toHost tree input data create = .ok tree') : tree.Real workspace.root := by
  simp only [WorkspacePath.atomicReplace, bind_ok, require_ok, mapError_ok] at replaced
  obtain ⟨_, _, checked, _, _, _, parent, opened, _, _, put⟩ := replaced
  apply Tree.Real.directory
  cases above : (names checked).dropLast with
  | nil =>
      rw [above, List.map_nil, resolve_nil] at opened
      cases opened
      exact (replace_found put).1
  | cons first rest =>
      rw [above, List.map_cons] at opened
      cases links : C.maxLinks with
      | zero =>
          rw [links] at opened
          exact (walk_name opened).1
      | succ more =>
          rw [links] at opened
          exact (walk_name opened).1

/-- A file at the end of a path that is accepted, and ends in its name, can be read through it. -/
theorem readFile_named {data : FileData} (real : tree.Real workspace.root) (accepted : lexical path = .ok path)
    (ends : NameLast path) (file : tree.node (workspace.root ++ names path) = some (.file data)) :
    readFile C.toHost tree (workspace.joined path) = .ok data := by
  obtain ⟨name, last⟩ := ends
  have resolved : canonicalize C.toHost tree (workspace.joined path) = .ok (workspace.root ++ names path) := by
    rw [canonicalize_joined real]
    exact resolve_named (lexical_level accepted) last ⟨_, file, rfl⟩
  simp only [readFile, resolved, file, bind, Except.bind]

/-- An edit that goes through has read the file, and counted one match in it. -/
theorem admitEdit_read {hash : Option String} {next : String}
    (admitted : admitEdit C registry tree target path before after hash = .ok next) :
    checkTarget C registry tree target path false = .ok () ∧ ∃ data content,
      readFile C.toHost tree (registry.workspace.joined path) = .ok data ∧ data.bytes = toBytes content ∧
        countMatches before.toList (content.length + 1) content.toList = 1 ∧
        next = replaceFirst content before after := by
  simp only [admitEdit, readToString, bind_ok, ensure_ok, require_ok, mapError_ok, Except.ok.injEq] at admitted
  obtain ⟨_, checked, _, _, content, ⟨data, read, decoded⟩, _, once, same⟩ := admitted
  exact ⟨checked, data, content, read, toBytes_decoded decoded, once, same.symm⟩

/-- The one match of an edit is the first occurrence, and none begins at or behind its end. -/
theorem counted_first (inhabited : before ≠ "")
    (counted : countMatches before.toList (content.length + 1) content.toList = 1) :
    ∃ i, First before.toList content.toList i ∧
      ∀ j, OccursAt before.toList content.toList j → j < i + before.toList.length := by
  have letters : before.toList ≠ [] := fun empty => inhabited (String.toList_eq_nil_iff.mp empty)
  have long : 0 < content.length := by
    by_contra short
    have empty : content.toList = [] := List.length_eq_zero_iff.mp (Nat.eq_zero_of_not_pos short)
    rw [empty, countMatches, (splitFirst_isNone letters).mpr] at counted
    · cases counted
    · intro i occurs
      exact letters (List.prefix_nil.mp (List.drop_nil ▸ occurs))
  exact (countMatches_one letters (Nat.succ_le_succ long)).mp counted

end Edits

/-! ## One occurrence -/

/-- An edit of a file with these bytes goes through only if the span occurs once, and then it replaces that occurrence and
nothing else; an error before the rename leaves all files. The path is one that the preparation accepts. -/
def EditsOnce (bytes : List UInt8) (before after : String) : Prop :=
  ∀ (C : Crates) (registry : ToolRegistry) (tree : Files) (now modified : Nat) (prepared : Prepared) (path : OsStr),
    prepared.action = .edit path before after → lexical path = .ok path →
    tree.node (registry.workspace.root ++ names path) = some (.file ⟨bytes, modified⟩) →
    (∀ output, (registry.execute C tree now prepared).result = .ok output →
      ∃ content i, bytes = toBytes content ∧ Once before.toList content.toList i ∧
        ∀ other, (registry.execute C tree now prepared).tree.node other =
          if other = registry.workspace.root ++ names path then
            some (.file ⟨toBytes (.ofList (replacedAt content.toList i before.toList.length after.toList)), now⟩)
          else tree.node other) ∧
    (∀ error, (registry.execute C tree now prepared).result = .error error →
      (registry.execute C tree now prepared).written = [] → (registry.execute C tree now prepared).tree = tree)

section Edits

variable {C : Crates} {registry : ToolRegistry} {tree : Files} {prepared : Prepared} {path : OsStr}
  {before after : String} {bytes : List UInt8} {now : Nat}

theorem execute_unwritten (action : prepared.action = .edit path before after) {error : ToolError}
    (failed : (registry.execute C tree now prepared).result = .error error)
    (unwritten : (registry.execute C tree now prepared).written = []) :
    (registry.execute C tree now prepared).tree = tree := by
  simp only [ToolRegistry.execute, action, rewrite] at failed unwritten ⊢
  split
  case h_1 => rfl
  case h_2 content admitted =>
    rw [admitted] at unwritten
    dsimp only at unwritten
    split
    case h_1 => rfl
    case h_2 replaced put =>
      rw [put] at unwritten
      cases unwritten

theorem editsOnce_of_untangled (inhabited : before ≠ "")
    (straight : ∀ content, bytes = toBytes content → ¬ Entangled before.toList content.toList) :
    EditsOnce bytes before after := by
  intro C registry tree now modified prepared path action accepted file
  refine ⟨?_, fun error failed unwritten => execute_unwritten action failed unwritten⟩
  intro output done
  simp only [ToolRegistry.execute, action, rewrite] at done ⊢
  cases admitted : admitEdit C registry tree prepared.target path before after prepared.expectedHash with
  | error => simp only [admitted] at done; cases done
  | ok next =>
      simp only [admitted] at done ⊢
      cases put : registry.workspace.atomicReplace C.toHost tree prepared.target ⟨toBytes next, now⟩ false with
      | error => simp only [put] at done; cases done
      | ok replaced =>
          have real := atomicReplace_root put
          obtain ⟨checked, data, content, read, same, counted, rfl⟩ := admitEdit_read admitted
          obtain ⟨mutated, named⟩ := checkTarget_ok checked
          obtain ⟨_, _, linkless, _⟩ := mutation_ok real mutated
          rw [named] at linkless
          -- what is read through the spelling is the file that is replaced
          have held := readFile_joined real accepted linkless read
          rw [file] at held
          cases held
          obtain ⟨i, first, last⟩ := counted_first inhabited counted
          have once := (first.once_iff last).mpr (straight content same)
          refine ⟨content, i, same, once, fun other => ?_⟩
          rw [atomicReplace_node real put, named, replaceFirst_first inhabited first]

/-- A file that can be read, with its digest and one match, is edited. -/
theorem execute_edit {modified : Nat} {content : String} {i : Nat}
    (directory : tree.isDirectory registry.workspace.root = true)
    (supported : registry.workspace.safeMutationsSupported = true) (accepted : lexical path = .ok path)
    (ends : NameLast path) (inhabited : before ≠ "")
    (mutated : registry.workspace.mutation C.toHost tree path false = .ok path)
    (file : tree.node (registry.workspace.root ++ names path) = some (.file ⟨toBytes content, modified⟩))
    (first : First before.toList content.toList i)
    (last : ∀ j, OccursAt before.toList content.toList j → j < i + before.toList.length) :
    ∃ output, (registry.execute C tree now
      ⟨path, .modify, .edit path before after, some (C.sha256 (toBytes content))⟩).result = .ok output := by
  have letters : before.toList ≠ [] := fun empty => inhabited (String.toList_eq_nil_iff.mp empty)
  have real : tree.Real registry.workspace.root := .directory directory
  have read := readFile_named (C := C) real accepted ends file
  have long : 2 ≤ content.length + 1 := by
    have bound := first.1.bound letters
    have positive := List.length_pos_iff.mpr letters
    rw [← String.length_toList]
    omega
  have admitted : admitEdit C registry tree path path before after (some (C.sha256 (toBytes content))) =
      .ok (replaceFirst content before after) := by
    simp only [admitEdit, checkTarget, requireFresh, readToString, pathed, identity, bind_ok, mapError_ok, ensure_ok,
      require_ok, Except.ok.injEq]
    exact ⟨(), ⟨path, mutated, rfl⟩, (), ⟨⟨C.sha256 (toBytes content), _, modified⟩, ⟨_, read, rfl⟩, rfl⟩, content,
      ⟨_, read, toBytes_decodes content⟩, (), (countMatches_one letters long).mpr ⟨i, first, last⟩, rfl⟩
  have free : tree.isDirectory (registry.workspace.root ++ names path) = false := by
    rw [Tree.isDirectory, file]
  have named : names path ≠ [] := by
    intro nameless
    rw [nameless, List.append_nil, isDirectory_iff.mp directory] at file
    cases file
  obtain ⟨replaced, put⟩ : ∃ replaced, registry.workspace.atomicReplace C.toHost tree path
      ⟨toBytes (replaceFirst content before after), now⟩ false = .ok replaced :=
    atomicReplace_done real supported mutated named free
  have real' : replaced.Real registry.workspace.root := by
    apply Tree.Real.directory
    rw [isDirectory_iff, atomicReplace_node real put, if_neg]
    · exact isDirectory_iff.mp directory
    · exact fun same => named (List.self_eq_append_right.mp same)
  have reread := readFile_named (C := C) real' accepted ends (by rw [atomicReplace_node real put, if_pos rfl])
  simp only [ToolRegistry.execute, rewrite, admitted, put]
  simp only [identity, reread, pathed, Except.mapError, Except.map, bind, Except.bind]
  exact ⟨_, rfl⟩

/-- A workspace with one file of this content. -/
def notesOf (content : String) : Files := .ofEntries
  [([toBytes "w"], .directory), ([toBytes "w", notesFile], .file ⟨toBytes content, 0⟩)] (by
    simp only [List.forall_mem_cons, List.not_mem_nil, false_imp_iff, implies_true, and_true]
    exact ⟨rfl, rfl⟩)

def editNotes (content before after : String) : Prepared :=
  ⟨notesFile, .modify, .edit notesFile before after, some (sampleCrates.sha256 (toBytes content))⟩

theorem notesOf_file (content : String) : (notesOf content).node (sampleRegistry.workspace.root ++ names notesFile) =
    some (.file ⟨toBytes content, 0⟩) := by
  have place : sampleRegistry.workspace.root ++ names notesFile = [toBytes "w", notesFile] := by decide +kernel
  rw [place]
  rfl

theorem notesOf_mutation (content : String) :
    sampleRegistry.workspace.mutation sampleCrates.toHost (notesOf content) notesFile false = .ok notesFile := by
  have file : (notesOf content).node [toBytes "w", notesFile] = some (.file ⟨toBytes content, 0⟩) := rfl
  have root : (notesOf content).Real [toBytes "w"] := .directory rfl
  simp only [WorkspacePath.mutation, bind_ok, Except.ok.injEq]
  refine ⟨notesFile, by decide +kernel, notesFile, by decide +kernel, (), ?_, rfl⟩
  have single : names notesFile = [notesFile] := by decide +kernel
  rw [single, mutationParts]
  have found : symlinkMetadata sampleCrates.toHost (notesOf content) sampleRegistry.workspace.root notesFile =
    .ok (.file ⟨toBytes content, 0⟩) := symlinkMetadata_found root file
  rw [found]
  rfl

theorem notesOf_edited {content : String} {i : Nat} (inhabited : before ≠ "")
    (first : First before.toList content.toList i)
    (last : ∀ j, OccursAt before.toList content.toList j → j < i + before.toList.length) :
    ∃ output, (sampleRegistry.execute sampleCrates (notesOf content) now
      (editNotes content before after)).result = .ok output := by
  have directory : (notesOf content).isDirectory sampleRegistry.workspace.root = true := rfl
  exact execute_edit directory rfl (by decide +kernel) ⟨notesFile, by decide +kernel⟩ inhabited (notesOf_mutation content)
    (notesOf_file content) first last

end Edits

/-- Edits of a file replace the one occurrence exactly if the span does not occur in it more than once with no two of its
occurrences apart. -/
theorem edits_once_iff (bytes : List UInt8) (before after : String) (inhabited : before ≠ "") :
    EditsOnce bytes before after ↔ ∀ content, bytes = toBytes content → ¬ Entangled before.toList content.toList := by
  refine ⟨?_, fun straight => editsOnce_of_untangled inhabited straight⟩
  rintro once content rfl entangled
  obtain ⟨i, first, last⟩ := entangled.first
  obtain ⟨output, done⟩ : ∃ output, (sampleRegistry.execute sampleCrates (notesOf content) 0
      (editNotes content before after)).result = .ok output := notesOf_edited inhabited first last
  obtain ⟨other, j, same, single, _⟩ := (once sampleCrates sampleRegistry (notesOf content) 0 0
    (editNotes content before after) notesFile rfl (by decide +kernel) (notesOf_file content)).1 output done
  have decoded := toBytes_decodes content
  rw [same, toBytes_decodes, Option.some.injEq] at decoded
  rw [decoded] at single
  exact (first.once_iff last).mp (first.unique single.first ▸ single) entangled

/-- The call that an edit of the sample file is prepared for. -/
def editCall (content before after : String) : ToolInvocation :=
  ⟨"edit_file", .ofMembers [("path", .string "notes.txt"), ("before", .string before), ("after", .string after)], 1, "e1", 1,
    some (sampleCrates.sha256 (toBytes content)), 1000, 1000, "engine", 1⟩

theorem edits_once_single : EditsOnce (toBytes "one two") "two" "three" := by
  refine (edits_once_iff (toBytes "one two") "two" "three" (by decide)).mpr ?_
  rintro content same ⟨⟨i, j, here, there, different⟩, _⟩
  have decoded := toBytes_decodes content
  rw [← same, toBytes_decodes, Option.some.injEq] at decoded
  rw [← decoded] at here there
  have only : ∀ i < 8, OccursAt "two".toList "one two".toList i → i = 4 := by decide
  have within : ∀ i, OccursAt "two".toList "one two".toList i → i < 8 := by
    intro i occurs
    have bound : i + 3 ≤ 7 := occurs.bound (by decide)
    omega
  exact different ((only i (within i here) here).trans (only j (within j there) there).symm)

/-- Two occurrences that overlap count as one match, and the first one is replaced. -/
theorem overlapping_edited :
    ¬ ∀ (C : Crates) (tree tree' : Files) (registry : ToolRegistry) (invocation : ToolInvocation) (prepared : Prepared)
        (decision : PolicyDecision) (digest : String) (path : OsStr) (content before after : String) (now modified : Nat)
        (output : ToolOutput), registry.prepareForEngine C tree invocation = .ok (prepared, decision, digest) →
      prepared.action = .edit path before after → before ≠ "" →
      tree'.node (registry.workspace.root ++ names path) = some (.file ⟨toBytes content, modified⟩) →
      (registry.execute C tree' now prepared).result = .ok output →
        ∃ i, Once before.toList content.toList i := by
  intro claim
  have prepared : sampleRegistry.prepareForEngine sampleCrates (notesOf "aaa") (editCall "aaa" "aa" "b") =
      .ok (editNotes "aaa" "aa" "b", .ask, "e1") := by decide +kernel
  have done : (sampleRegistry.execute sampleCrates (notesOf "aaa") 1 (editNotes "aaa" "aa" "b")).result =
      .ok ⟨.ofMembers [("sha256", .string (sampleCrates.sha256 (toBytes "ba"))), ("size", .ofNat 2)], false⟩ := by
    decide +kernel
  obtain ⟨i, _, only⟩ := claim _ _ _ _ _ _ _ _ _ "aaa" "aa" "b" 1 0 _ prepared rfl (by decide) (notesOf_file "aaa") done
  have first := only 0 (by decide)
  have second := only 1 (by decide)
  omega

end LatteCode.Engine
