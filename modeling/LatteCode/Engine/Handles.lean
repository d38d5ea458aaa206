import LatteCode.Engine.Denied
import LatteCode.Lib.Inodes
import LatteCode.Lib.Interleaving
/- The atomic replacement on directories that are held open, one step of the file system after the other. -/

namespace LatteCode.Engine
open FileTree Inodes Interleaving Outcome Program

/-- The files, and what makes an operation on them fail at the moment: a full disk, a missing permission. -/
structure Machine where
  disk : Disk OsStr FileData
  trouble : Option Fault

abbrev HandleCall (ε α : Type) := ExceptT ε (Program Machine) α

namespace Held

/-- A step that only looks at the paths. -/
def look {ε α : Type} (answer : Files → Except ε α) : HandleCall ε α := query fun m => answer m.disk.view

/-- A step that may fail for other reasons than what stands on the disk. -/
def operate {α : Type} (change : Disk OsStr FileData → Except Fault (α × Disk OsStr FileData)) : HandleCall PathError α :=
  attempt fun m => match m.trouble with
    | some fault => .error (.io fault)
    | none => ((change m.disk).mapError .io).map fun (a, disk) => (a, { m with disk })

variable (H : Host) (openDir : Disk OsStr FileData → Nat → OsStr → Except Fault Nat) (workspace : WorkspacePath)

/-- One component of a mutated path. -/
def mutationPart (tree : Files) (forbidden : PathError) (allowMissing : Bool) (cursor : List OsStr) (part : OsStr) :
    Except PathError Unit :=
  match symlinkMetadata H tree cursor part with
  | .ok node => ensure (node.isLink = false) forbidden
  | .error .notFound => ensure (allowMissing = true) (.missing (separator :: pathText (cursor ++ [part])))
  | .error fault => .error (.io fault)

def mutationParts (forbidden : PathError) (allowMissingFinal : Bool) :
    List OsStr → List OsStr → HandleCall PathError Unit
  | _, [] => given (.ok ())
  | cursor, part :: rest => do
      look fun tree => mutationPart H tree forbidden (allowMissingFinal && rest.isEmpty) cursor part
      mutationParts forbidden allowMissingFinal (cursor ++ [part]) rest

def mutation (input : OsStr) (allowMissingFinal : Bool) : HandleCall PathError OsStr := do
  let target ← given (lexical input)
  let shown ← given (display input)
  mutationParts H (.symlink shown) allowMissingFinal workspace.root (names target)
  given (.ok target)

/-- Each component is opened in the directory that was opened before it. -/
def openParent : Nat → List OsStr → HandleCall PathError Nat
  | parent, [] => given (.ok parent)
  | parent, component :: rest => do
      let next ← query fun m => (openDir m.disk parent component).mapError .io
      openParent next rest

def tempName (uuid : OsStr) : OsStr := toBytes ".latte-" ++ uuid ++ toBytes ".tmp"

def isLink (disk : Disk OsStr FileData) (dir : Nat) (name : OsStr) : Bool :=
  ((disk.entry dir name).bind disk.body).any fun body => body.node.isLink

/-- `atomic_replace_with` after its parent is open. -/
def replaceIn (uuid input : OsStr) (data : FileData) (parent : Nat) (name : OsStr) : HandleCall PathError Unit := do
  query fun m => ensure (isLink m.disk parent name = false) (.symlink input)
  let file ← operate fun disk => disk.createNew parent (tempName uuid) ⟨[], data.modifiedNs⟩
  let outcome ← settled (do
    operate fun disk => .ok ((), disk.setFile file data)
    operate fun disk => .ok ((), disk)
    operate fun disk => (disk.rename parent (tempName uuid) name).map ((), ·))
  match outcome with
  | .ok () => given (.ok ())
  | .error error => do
      let _ ← settled (operate fun disk => (disk.removeFile parent (tempName uuid)).map ((), ·))
      given (.error error)

def atomicReplace (uuid input : OsStr) (data : FileData) (create : Bool) : HandleCall PathError Unit := do
  given workspace.validateMutationSupport
  let target ← mutation H workspace input create
  let name ← given (require (names target).getLast? .invalid)
  let root ← query fun m => (m.disk.openAmbient H.maxLinks workspace.root).mapError .io
  let parent ← openParent openDir root (names target).dropLast
  replaceIn uuid input data parent name

/-- `Path::is_dir`. -/
def isDir (tree : Files) (path : List OsStr) : Bool :=
  match canonicalize H tree (path.map .name) with
  | .ok found => tree.isDirectory found
  | .error _ => false

def resolveCwd (C : Crates) (path : OsStr) : HandleCall ToolError (List OsStr) := do
  let resolved ← look fun tree => pathed C (workspace.read C.toHost tree path)
  look fun tree => ensure (isDir C.toHost tree resolved = true) (.input "process cwd must be a directory")
  given (.ok resolved)

section Alone

variable {H : Host} {workspace : WorkspacePath} {input : OsStr}

theorem mutationParts_cons {tree : Files} {forbidden : PathError} {allowMissing : Bool} {cursor rest : List OsStr}
    {part : OsStr} : Engine.mutationParts H tree forbidden allowMissing cursor (part :: rest) =
      mutationPart H tree forbidden (allowMissing && rest.isEmpty) cursor part >>= fun _ =>
        Engine.mutationParts H tree forbidden allowMissing (cursor ++ [part]) rest := by
  rw [Engine.mutationParts, mutationPart]
  cases symlinkMetadata H tree cursor part with
  | ok node =>
      dsimp only
      cases node.isLink <;> rfl
  | error fault =>
      cases fault with
      | notFound =>
          dsimp only
          cases allowMissing && rest.isEmpty <;> rfl
      | _ => rfl

/-- Undisturbed, the components are those of one state of the files. -/
theorem asks_mutationParts {forbidden : PathError} {allowMissing : Bool} {cursor parts : List OsStr} :
    Asks (mutationParts H forbidden allowMissing cursor parts) fun m =>
      Engine.mutationParts H m.disk.view forbidden allowMissing cursor parts := by
  induction parts generalizing cursor with
  | nil => exact asks_given
  | cons part rest ih =>
      refine (asks_query.bind fun _ => ih).congr fun m => ?_
      rw [mutationParts_cons]

theorem asks_mutation {create : Bool} :
    Asks (mutation H workspace input create) fun m => workspace.mutation H m.disk.view input create :=
  asks_given.bind fun _ => asks_given.bind fun _ => asks_mutationParts.bind fun _ => asks_given

end Alone

end Held

/-! ## Confinement -/

section Confinement

open Held

variable {H : Host} {openDir : Disk OsStr FileData → Nat → OsStr → Except Fault Nat} {workspace : WorkspacePath}
  {uuid input : OsStr}

/-- The steps of a call, each with the files that it found and left. -/
abbrev Past := List (Machine × Machine)

/-- What was reached from the root handle by going down, in the steps so far. -/
def Reaches (H : Host) (workspace : WorkspacePath) (past : Past) (dir : Nat) : Prop :=
  Disk.Reached (fun disk => disk.openAmbient H.maxLinks workspace.root) (past.map fun made => made.1.disk) dir

/-- The file that the call has made under its temporary name. -/
def Created (uuid : OsStr) (past : Past) (dir file : Nat) : Prop :=
  ∃ made ∈ past, made.1.disk.body file = none ∧ made.1.disk.entry dir (tempName uuid) = none ∧
    made.2.disk.entry dir (tempName uuid) = some file

/-- A step changes nothing, or the temporary name and the written one in a directory that was reached, or the content
of the file that the call has made. -/
def Confined (H : Host) (workspace : WorkspacePath) (uuid input : OsStr) (past : Past) (m m' : Machine) : Prop :=
  m' = m ∨ ∃ dir, Reaches H workspace past dir ∧
    (Disk.Within m.disk m'.disk dir (tempName uuid :: (names input).getLast?.toList) ∨
      ∃ file content, Created uuid past dir file ∧ m'.disk = m.disk.setFile file content)

def Quiet (past : Past) : Prop := ∀ made ∈ past, made.2 = made.1

/-- A failed call has changed nothing, or has removed the temporary name in the end, if anything but a directory stood
there and the removal itself did not fail. -/
def Cleared (H : Host) (workspace : WorkspacePath) (uuid : OsStr) (past : Past) : Except PathError Unit → Prop
  | .ok () => True
  | .error _ => Quiet past ∨ ∃ before m m' dir file, past = before ++ [(m, m')] ∧ Reaches H workspace before dir ∧
      Created uuid before dir file ∧ (m'.disk.entry dir (tempName uuid) = none ∨ m' = m ∧ (m.trouble ≠ none ∨
        ∃ other, m.disk.entry dir (tempName uuid) = some other ∧ m.disk.isDirectory other = true))

theorem Quiet.step {past : Past} {m : Machine} (quiet : Quiet past) : Quiet (past ++ [(m, m)]) := by
  intro made member
  rcases List.mem_append.mp member with old | new
  · exact quiet made old
  · rw [List.mem_singleton.mp new]

theorem Reaches.later {past later : Past} {dir : Nat} (reaches : Reaches H workspace past dir) :
    Reaches H workspace (past ++ later) dir := by
  rw [Reaches, List.map_append]
  exact Disk.Reached.later reaches

theorem Created.later {past later : Past} {dir file : Nat} (created : Created uuid past dir file) :
    Created uuid (past ++ later) dir file := by
  obtain ⟨made, member, facts⟩ := created
  exact ⟨made, List.mem_append_left _ member, facts⟩

theorem ensures_operate {α : Type} {change : Disk OsStr FileData → Except Fault (α × Disk OsStr FileData)} {past : Past}
    {guarantee : Past → Machine → Machine → Prop} {post : Past → Except PathError α → Prop}
    (changes : ∀ m a disk, change m.disk = .ok (a, disk) →
      guarantee past m { m with disk } ∧ post (past ++ [(m, { m with disk })]) (.ok a))
    (fails : ∀ m error, m.trouble ≠ none ∨ (∃ fault, change m.disk = .error fault) →
      guarantee past m m ∧ post (past ++ [(m, m)]) (.error error)) :
    (operate change).run.Ensures guarantee post past := by
  refine ensures_attempt ?_ ?_
  · intro m a m' made
    split at made
    case h_1 => cases made
    case h_2 =>
      rw [map_ok] at made
      obtain ⟨⟨b, disk⟩, changed, same⟩ := made
      cases same
      exact changes m a disk (mapError_ok.mp changed)
  · intro m error made
    split at made
    case h_1 fault trouble => exact fails m error (.inl (by rw [trouble]; exact Option.some_ne_none fault))
    case h_2 =>
      cases outcome : change m.disk with
      | ok both => rw [outcome] at made; cases made
      | error fault => exact fails m error (.inr ⟨fault, outcome⟩)

/-- Looking changes nothing. -/
theorem ensures_look {ε α : Type} {answer : Machine → Except ε α} {past : Past} {post : Past → Except ε α → Prop}
    (holds : ∀ m, post (past ++ [(m, m)]) (answer m)) :
    (query answer : HandleCall ε α).run.Ensures (Confined H workspace uuid input) post past :=
  ensures_query (fun _ => .inl rfl) holds

theorem ensures_mutationParts {forbidden : PathError} {allowMissing : Bool} {cursor parts : List OsStr} {past : Past}
    (quiet : Quiet past) : (Held.mutationParts H forbidden allowMissing cursor parts).run.Ensures
      (Confined H workspace uuid input) (fun past _ => Quiet past) past := by
  induction parts generalizing cursor past with
  | nil => exact ensures_given quiet
  | cons part rest ih =>
      refine Ensures.bind_fallible (ensures_look fun m => ?_)
      split
      case h_1 => exact ih quiet.step
      case h_2 => exact quiet.step

theorem ensures_mutation {create : Bool} {past : Past} (quiet : Quiet past) :
    (mutation H workspace input create).run.Ensures (Confined H workspace uuid input)
      (fun past result => Quiet past ∧ ∀ target, result = .ok target → target = input) past := by
  refine Ensures.bind_fallible (ensures_given ?_)
  cases accepted : lexical input with
  | error => exact ⟨quiet, fun _ impossible => nomatch impossible⟩
  | ok target =>
      refine Ensures.bind_fallible (ensures_given ?_)
      cases display input with
      | error => exact ⟨quiet, fun _ impossible => nomatch impossible⟩
      | ok shown =>
          refine Ensures.bind_fallible ((ensures_mutationParts quiet).mono fun past result quiet => ?_)
          cases result with
          | error => exact ⟨quiet, fun _ impossible => nomatch impossible⟩
          | ok =>
              refine ensures_given ⟨quiet, ?_⟩
              rintro _ same
              cases same
              exact (lexical_ok accepted).symm

/-- Opening goes down from what was reached. -/
theorem ensures_openParent (beneath : ∀ disk dir name ino, openDir disk dir name = .ok ino → disk.Below dir ino)
    {components : List OsStr} {parent : Nat} {past : Past} (quiet : Quiet past)
    (reaches : Reaches H workspace past parent) :
    (openParent openDir parent components).run.Ensures (Confined H workspace uuid input)
      (fun past result => Quiet past ∧ ∀ dir, result = .ok dir → Reaches H workspace past dir) past := by
  induction components generalizing parent past with
  | nil =>
      refine ensures_given ⟨quiet, ?_⟩
      rintro _ same
      cases same
      exact reaches
  | cons component rest ih =>
      refine Ensures.bind_fallible (ensures_look fun m => ?_)
      cases opened : openDir m.disk parent component with
      | error => exact ⟨quiet.step, fun _ impossible => nomatch impossible⟩
      | ok next =>
          refine ih quiet.step ?_
          rw [Reaches, List.map_append]
          exact .down reaches (beneath _ _ _ _ opened)

/-- A call that holds its parent and its temporary file. -/
structure Holds (H : Host) (workspace : WorkspacePath) (uuid : OsStr) (past : Past) (parent file : Nat) : Prop where
  reaches : Reaches H workspace past parent
  created : Created uuid past parent file

theorem Holds.later {past later : Past} {parent file : Nat} (holds : Holds H workspace uuid past parent file) :
    Holds H workspace uuid (past ++ later) parent file := ⟨holds.reaches.later, holds.created.later⟩

/-- Writing, syncing and renaming the temporary file keep to it and to the parent. -/
theorem ensures_commit {data : FileData} {parent file : Nat} {name : OsStr} {past : Past}
    (holds : Holds H workspace uuid past parent file) (last : (names input).getLast? = some name) :
    (do
      operate fun disk => .ok ((), disk.setFile file data)
      operate fun disk => .ok ((), disk)
      operate fun disk => (disk.rename parent (tempName uuid) name).map ((), ·) :
        HandleCall PathError Unit).run.Ensures (Confined H workspace uuid input)
      (fun past _ => Holds H workspace uuid past parent file) past := by
  refine Ensures.bind_fallible (ensures_operate ?_ fun m _ _ => ⟨.inl rfl, holds.later⟩)
  intro m _ _ written
  cases written
  refine ⟨.inr ⟨parent, holds.reaches, .inr ⟨file, data, holds.created, rfl⟩⟩, ?_⟩
  refine Ensures.bind_fallible (ensures_operate ?_ fun m _ _ => ⟨.inl rfl, holds.later.later⟩)
  intro m _ _ synced
  cases synced
  refine ⟨.inl rfl, ensures_operate ?_ fun m _ _ => ⟨.inl rfl, holds.later.later.later⟩⟩
  intro m _ disk renamed
  rw [map_ok] at renamed
  obtain ⟨_, moved, same⟩ := renamed
  cases same
  refine ⟨.inr ⟨parent, holds.later.later.reaches, .inl ?_⟩, holds.later.later.later⟩
  rw [last]
  exact Disk.rename_ok moved

/-- A failure is followed by the removal of the temporary name. -/
theorem ensures_clear {parent file : Nat} {past : Past} {error : PathError}
    (holds : Holds H workspace uuid past parent file) :
    (do
      let _ ← (settled (operate fun disk => (disk.removeFile parent (tempName uuid)).map ((), ·)) :
        HandleCall PathError (Except PathError Unit))
      given (.error error) : HandleCall PathError Unit).run.Ensures (Confined H workspace uuid input)
      (Cleared H workspace uuid) past := by
  refine Ensures.bind_fallible (ensures_settled (ensures_operate ?_ ?_))
  · intro m _ disk removed
    rw [map_ok] at removed
    obtain ⟨_, gone, same⟩ := removed
    cases same
    obtain ⟨absent, within⟩ := Disk.removeFile_ok gone
    refine ⟨.inr ⟨parent, holds.reaches, .inl (within.mono (List.cons_subset_cons _ (List.nil_subset _)))⟩, ?_⟩
    exact .inr ⟨past, m, _, parent, file, rfl, holds.reaches, holds.created, .inl absent⟩
  · intro m _ failed
    refine ⟨.inl rfl, .inr ⟨past, m, m, parent, file, rfl, holds.reaches, holds.created, ?_⟩⟩
    rcases failed with trouble | ⟨fault, failed⟩
    · exact .inr ⟨rfl, .inl trouble⟩
    · cases removed : m.disk.removeFile parent (tempName uuid) with
      | ok disk => rw [removed] at failed; cases failed
      | error fault =>
          rcases Disk.removeFile_error removed with absent | directory
          · exact .inl absent
          · exact .inr ⟨rfl, .inr directory⟩

theorem ensures_replaceIn {data : FileData} {parent : Nat} {name : OsStr} {past : Past} (quiet : Quiet past)
    (reaches : Reaches H workspace past parent) (last : (names input).getLast? = some name) :
    (replaceIn uuid input data parent name).run.Ensures (Confined H workspace uuid input) (Cleared H workspace uuid)
      past := by
  refine Ensures.bind_fallible (ensures_look fun looked => ?_)
  split
  case h_2 => exact .inl quiet.step
  case h_1 =>
    refine Ensures.bind_fallible (ensures_operate ?_ fun m _ _ => ⟨.inl rfl, .inl quiet.step.step⟩)
    intro m file disk made
    obtain ⟨fresh, absent, found, within⟩ := Disk.createNew_ok made
    refine ⟨.inr ⟨parent, reaches.later, .inl (within.mono (List.cons_subset_cons _ (List.nil_subset _)))⟩, ?_⟩
    have holds : Holds H workspace uuid (past ++ [(looked, looked)] ++ [(m, { m with disk })]) parent file :=
      ⟨reaches.later.later, (m, { m with disk }), List.mem_append_right _ (List.mem_singleton_self _), fresh, absent, found⟩
    refine Ensures.bind_fallible (ensures_settled ((ensures_commit holds last).mono fun past result holds => ?_))
    cases result with
    | ok => exact ensures_given trivial
    | error error => exact ensures_clear holds

/-- The whole call keeps to the directories that it has reached. -/
theorem ensures_atomicReplace (beneath : ∀ disk dir name ino, openDir disk dir name = .ok ino → disk.Below dir ino)
    {data : FileData} {create : Bool} :
    (atomicReplace H openDir workspace uuid input data create).run.Ensures (Confined H workspace uuid input)
      (Cleared H workspace uuid) [] := by
  have start : Quiet [] := fun _ impossible => nomatch impossible
  refine Ensures.bind_fallible (ensures_given ?_)
  cases workspace.validateMutationSupport with
  | error => exact .inl start
  | ok =>
  refine Ensures.bind_fallible ((ensures_mutation start).mono fun past result found => ?_)
  obtain ⟨quiet, same⟩ := found
  cases result with
  | error => exact .inl quiet
  | ok target =>
  rw [same target rfl]
  refine Ensures.bind_fallible (ensures_given ?_)
  cases last : (names input).getLast? with
  | none => exact .inl quiet
  | some name =>
  refine Ensures.bind_fallible (ensures_look fun m => ?_)
  cases opened : m.disk.openAmbient H.maxLinks workspace.root with
  | error => exact .inl quiet.step
  | ok root =>
  have reaches : Reaches H workspace (past ++ [(m, m)]) root := by
    rw [Reaches, List.map_append]
    exact .first opened
  refine Ensures.bind_fallible ((ensures_openParent beneath quiet.step reaches).mono fun past result found => ?_)
  obtain ⟨quiet, reached⟩ := found
  cases result with
  | error => exact .inl quiet
  | ok parent => exact ensures_replaceIn quiet (reached parent rfl) last

theorem ensures_resolveCwd {C : Crates} {path : OsStr} :
    (resolveCwd workspace C path).run.Ensures (fun _ _ _ => True) (fun past result => ∀ found, result = .ok found →
      workspace.root <+: found ∧ ∃ first second, past = [first, second] ∧ first.1.disk.view.Real found ∧
        isDir C.toHost second.1.disk.view found = true) [] := by
  refine Ensures.bind_fallible (ensures_query (fun _ => trivial) fun m => ?_)
  split
  case h_2 => exact fun _ impossible => nomatch impossible
  case h_1 resolved read =>
  have read := mapError_ok.mp read
  refine Ensures.bind_fallible (ensures_query (fun _ => trivial) fun m' => ?_)
  split
  case h_2 => exact fun _ impossible => nomatch impossible
  case h_1 directory =>
    rw [ensure_ok] at directory
    refine ensures_given ?_
    rintro _ same
    cases same
    exact ⟨read_below read, _, _, rfl, read_real read, directory⟩

/-- Whatever other programs do in between, the steps of a replacement keep to entries of directories that were reached
from the root handle, a failed one removes its temporary name if that can be removed, and what is resolved for reading
or for a process lies below the root. -/
theorem mutations_confined (beneath : ∀ disk dir name ino, openDir disk dir name = .ok ino → disk.Below dir ino) :
    (∀ {W : Type} (act : W → Machine → Machine) (gaps : Nat → List W) (uuid input : OsStr) (data : FileData)
        (create : Bool) (m : Machine),
      let call := (atomicReplace H openDir workspace uuid input data create).run
      (∀ before made after, steps act gaps call 0 m = before ++ made :: after →
        Confined H workspace uuid input before made.1 made.2) ∧
      Cleared H workspace uuid (steps act gaps call 0 m) (run act gaps call 0 m).1) ∧
    (∀ tree input path, workspace.read H tree input = .ok path → workspace.root <+: path ∧ tree.Real path) ∧
    (∀ {W : Type} (act : W → Machine → Machine) (gaps : Nat → List W) (C : Crates) (input : OsStr) (m : Machine)
        (found : List OsStr), (run act gaps (resolveCwd workspace C input).run 0 m).1 = .ok found →
      workspace.root <+: found ∧ ∃ first second, steps act gaps (resolveCwd workspace C input).run 0 m = [first, second] ∧
        first.1.disk.view.Real found ∧ isDir C.toHost second.1.disk.view found = true) := by
  refine ⟨?_, fun tree input path read => ⟨read_below read, read_real read⟩, ?_⟩
  · intro W act gaps uuid input data create m
    have ensured := @ensures_atomicReplace H openDir workspace uuid input beneath data create
    refine ⟨fun before made after split => ?_, ?_⟩
    · exact ensured.steps split
    · exact ensured.result
  · intro W act gaps C input m found result
    exact ensures_resolveCwd.result found result

end Confinement

section Sample

open Held

/-- A directory is opened by its entry; nothing is behind a link. -/
def openEntry (disk : Disk OsStr FileData) (dir : Nat) (name : OsStr) : Except Fault Nat := do
  let ino ← require (disk.entry dir name) .notFound
  ensure (disk.isDirectory ino = true) .notADirectory
  .ok ino

theorem openEntry_beneath (disk : Disk OsStr FileData) (dir : Nat) (name : OsStr) (ino : Nat)
    (opened : openEntry disk dir name = .ok ino) : disk.Below dir ino := by
  simp only [openEntry, bind_ok, require_ok, Except.ok.injEq] at opened
  obtain ⟨_, found, _, _, rfl⟩ := opened
  exact .single ⟨name, found⟩

def directoryOf (entries : List (OsStr × Nat)) : Body OsStr FileData :=
  .directory (entries.foldl (fun table entry => table.put entry.1 entry.2) .empty)

/-- `/w` with one file. -/
def sampleDisk : Disk OsStr FileData where
  bodies := [(0, directoryOf [(toBytes "w", 1)]), (1, directoryOf [(toBytes "a", 2)]),
    (2, .file ⟨toBytes "text", 0⟩)].foldl (fun table body => table.put body.1 body.2) .empty
  root := 0
  rooted := by decide +kernel

def sampleMachine : Machine := ⟨sampleDisk, none⟩

/-- Another program renames an entry. -/
def renames (entry : Nat × OsStr × OsStr) (m : Machine) : Machine :=
  { m with disk := (m.disk.rename entry.1 entry.2.1 entry.2.2).toOption.getD m.disk }

/-- The temporary file is taken away before it is renamed. -/
def taken (place : Nat) : List (Nat × OsStr × OsStr) := if place = 6 then [(1, tempName (toBytes "1"), toBytes "kept")] else []

def sampleReplace : HandleCall PathError Unit :=
  atomicReplace sampleCrates.toHost openEntry ⟨[toBytes "w"], true⟩ (toBytes "1") (toBytes "a") ⟨toBytes "more", 1⟩ false

theorem mutations_confined_sample :
    (∀ before made after, steps renames taken sampleReplace.run 0 sampleMachine = before ++ made :: after →
      Confined sampleCrates.toHost ⟨[toBytes "w"], true⟩ (toBytes "1") (toBytes "a") before made.1 made.2) ∧
    Cleared sampleCrates.toHost ⟨[toBytes "w"], true⟩ (toBytes "1") (steps renames taken sampleReplace.run 0 sampleMachine)
      (run renames taken sampleReplace.run 0 sampleMachine).1 ∧
    ([toBytes "w"] <+: [toBytes "w", toBytes "a"] ∧ sampleDisk.view.Real [toBytes "w", toBytes "a"]) ∧
    ([toBytes "w"] <+: [toBytes "w"] ∧ ∃ first second, steps renames (fun _ => [])
      (resolveCwd ⟨[toBytes "w"], true⟩ sampleCrates (toBytes ".")).run 0 sampleMachine = [first, second] ∧
        first.1.disk.view.Real [toBytes "w"] ∧ isDir sampleCrates.toHost second.1.disk.view [toBytes "w"] = true) := by
  have confined := @mutations_confined sampleCrates.toHost openEntry ⟨[toBytes "w"], true⟩ openEntry_beneath
  have replaced := confined.1 renames taken (toBytes "1") (toBytes "a") ⟨toBytes "more", 1⟩ false sampleMachine
  exact ⟨replaced.1, replaced.2, confined.2.1 _ (toBytes "a") _ (by decide +kernel),
    confined.2.2 renames (fun _ => []) sampleCrates (toBytes ".") sampleMachine _ (by decide +kernel)⟩

/-- A temporary file that another program has renamed stays when the call fails. -/
theorem temporary_kept :
    ¬ ∀ (H : Host) (openDir : Disk OsStr FileData → Nat → OsStr → Except Fault Nat) (workspace : WorkspacePath),
      (∀ disk dir name ino, openDir disk dir name = .ok ino → disk.Below dir ino) →
      ∀ (gaps : Nat → List (Nat × OsStr × OsStr)) (uuid input : OsStr) (data : FileData) (create : Bool) (m : Machine)
        (error : PathError), (run renames gaps (atomicReplace H openDir workspace uuid input data create).run 0 m).1 =
          .error error →
      ∀ made ∈ steps renames gaps (atomicReplace H openDir workspace uuid input data create).run 0 m, ∀ file dir,
        made.1.disk.body file = none → made.2.disk.entry dir (tempName uuid) = some file → ∀ above name,
          (run renames gaps (atomicReplace H openDir workspace uuid input data create).run 0 m).2.2.disk.entry above name ≠
            some file := by
  intro claim
  have failed : (run renames taken sampleReplace.run 0 sampleMachine).1 = .error (.io .notFound) := by decide +kernel
  have created : (steps renames taken sampleReplace.run 0 sampleMachine).any (fun made =>
      (made.1.disk.body 4).isNone && made.2.disk.entry 1 (tempName (toBytes "1")) = some 4) = true := by decide +kernel
  obtain ⟨made, member, both⟩ := List.any_eq_true.mp created
  rw [Bool.and_eq_true, decide_eq_true_eq, Option.isNone_iff_eq_none] at both
  exact claim _ _ _ openEntry_beneath taken _ _ _ _ sampleMachine _ failed made member 4 1 both.1 both.2 1 (toBytes "kept")
    (by decide +kernel)

end Sample

end LatteCode.Engine
