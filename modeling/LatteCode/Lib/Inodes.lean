import LatteCode.Lib.FileTree
import LatteCode.Lib.Table
/- Files behind numbers: directories that are held open while their names change. -/

namespace Inodes
open FileTree Keyed Outcome

/-- What a number stands for. -/
inductive Body (N C : Type) where
  | file (content : C)
  | directory (entries : Table N Nat)
  | link (absolute : Bool) (target : List (Segment N))

variable {N C : Type}

namespace Body

def node : Body N C → Node N C
  | file content => .file content
  | directory _ => .directory
  | link absolute target => .link absolute target

def isDirectory : Body N C → Bool
  | directory _ => true
  | _ => false

def mapEntries (change : Table N Nat → Table N Nat) : Body N C → Body N C
  | directory entries => directory (change entries)
  | file content => file content
  | link absolute target => link absolute target

end Body

structure Disk (N C : Type) where
  bodies : Table Nat (Body N C)
  root : Nat
  rooted : (bodies.get? root).any Body.isDirectory = true

namespace Disk

section Lookup

variable (disk : Disk N C)

def body (ino : Nat) : Option (Body N C) := disk.bodies.get? ino

def isDirectory (ino : Nat) : Bool := (disk.body ino).any Body.isDirectory

/-- A number that nothing has yet. -/
def fresh : Nat := (disk.bodies.rows.map Prod.fst).sum + 1

variable [DecidableEq N]

/-- What a name in a directory refers to. -/
def entry (dir : Nat) (name : N) : Option Nat :=
  match disk.body dir with
  | some (.directory entries) => entries.get? name
  | _ => none

/-- Where the names of a path lead, one below the other. -/
def descend : Nat → List N → Option Nat
  | ino, [] => some ino
  | ino, name :: rest => (disk.entry ino name).bind fun next => descend next rest

/-- A number below a directory. -/
def Below : Nat → Nat → Prop := Relation.ReflTransGen fun dir ino => ∃ name, disk.entry dir name = some ino

end Lookup

theorem body_fresh (disk : Disk N C) : disk.body disk.fresh = none := by
  rw [body, Table.get?_eq_none_iff]
  intro member
  have bounded := List.single_le_sum (fun _ _ => Nat.zero_le _) _ member
  rw [fresh] at bounded
  omega

section View

variable [DecidableEq N] {disk : Disk N C} {ino : Nat} {path : List N} {name : N}

theorem descend_append {below : List N} :
    disk.descend ino (path ++ below) = (disk.descend ino path).bind fun next => disk.descend next below := by
  induction path generalizing ino with
  | nil => rfl
  | cons first rest ih =>
      rw [List.cons_append, descend, descend, Option.bind_assoc]
      exact congrArg _ (funext fun next => ih)

theorem entry_directory (found : (disk.entry ino name).isSome = true) : disk.isDirectory ino = true := by
  unfold entry at found
  split at found
  case h_1 entries held => rw [isDirectory, held]; rfl
  case h_2 => cases found

/-- The disk as the paths from its root show it. -/
def view (disk : Disk N C) : Tree N C where
  node path := ((disk.descend disk.root path).bind disk.body).map Body.node
  root := by
    have rooted := disk.rooted
    change ((disk.bodies.get? disk.root).map Body.node) = _
    cases held : disk.bodies.get? disk.root with
    | none => rw [held] at rooted; cases rooted
    | some body =>
        rw [held] at rooted
        cases body with
        | directory => rfl
        | file | link => cases rooted
  parents path name stands := by
    rw [descend_append] at stands
    cases above : disk.descend disk.root path with
    | none => rw [above] at stands; cases stands
    | some dir =>
        rw [above] at stands
        have found : (disk.entry dir name).isSome = true := by
          cases next : disk.entry dir name with
          | some => rfl
          | none =>
              rw [Option.bind_some, descend, next] at stands
              cases stands
        have directory := entry_directory found
        rw [isDirectory] at directory
        rw [Option.bind_some]
        cases held : disk.body dir with
        | none => rw [held] at directory; cases directory
        | some body =>
            rw [held] at directory
            cases body with
            | directory => rfl
            | file | link => cases directory

end View

/-! ## Changes -/

section Changes

theorem any_mapEntries {body : Option (Body N C)} {change : Table N Nat → Table N Nat} :
    (body.map (Body.mapEntries change)).any Body.isDirectory = body.any Body.isDirectory := by
  cases body with
  | none => rfl
  | some body => cases body <;> rfl

/-- Other entries in one directory. -/
def setEntries (disk : Disk N C) (dir : Nat) (change : Table N Nat → Table N Nat) : Disk N C where
  bodies := disk.bodies.modify dir (Body.mapEntries change)
  root := disk.root
  rooted := by
    have rooted := disk.rooted
    rw [Table.get?_modify]
    split
    case isTrue => rw [any_mapEntries, rooted]
    case isFalse => exact rooted

/-- A content for a number that is no directory. -/
def setFile (disk : Disk N C) (ino : Nat) (content : C) : Disk N C :=
  if directory : disk.isDirectory ino = true then disk
  else {
    bodies := disk.bodies.put ino (.file content)
    root := disk.root
    rooted := by
      have rooted := disk.rooted
      rw [Table.get?_put, if_neg]
      · exact rooted
      · rintro rfl
        exact directory rooted }

variable [DecidableEq N]

/-- A new file, where nothing may have its name: the number of the file. -/
def createNew (disk : Disk N C) (dir : Nat) (name : N) (content : C) : Except Fault (Nat × Disk N C) := do
  ensure (disk.isDirectory dir = true) .notADirectory
  ensure (disk.entry dir name = none) .alreadyExists
  .ok (disk.fresh, (disk.setFile disk.fresh content).setEntries dir fun entries => entries.put name disk.fresh)

def isEmpty (disk : Disk N C) (ino : Nat) : Bool :=
  match disk.body ino with
  | some (.directory entries) => entries.rows.isEmpty
  | _ => true

/-- What is renamed must be of the kind of what it replaces, and replaces no directory that is not empty. -/
def rename (disk : Disk N C) (dir : Nat) (source target : N) : Except Fault (Disk N C) := do
  let ino ← require (disk.entry dir source) .notFound
  let old := disk.entry dir target
  if old = some ino then .ok disk
  else do
    ensure (old.all fun old => !disk.isDirectory old || disk.isDirectory ino) .isADirectory
    ensure (old.all fun old => disk.isDirectory old || !disk.isDirectory ino) .notADirectory
    ensure (old.all disk.isEmpty) .alreadyExists
    .ok (disk.setEntries dir fun entries => (entries.deleteWhere fun key _ => key = source).put target ino)

def removeFile (disk : Disk N C) (dir : Nat) (name : N) : Except Fault (Disk N C) := do
  let ino ← require (disk.entry dir name) .notFound
  ensure (disk.isDirectory ino = false) .isADirectory
  .ok (disk.setEntries dir fun entries => entries.deleteWhere fun key _ => key = name)

/-- Only these names of this directory refer to something else, and otherwise nothing is changed but that there may be
a new file. -/
structure Within (disk disk' : Disk N C) (dir : Nat) (names : List N) : Prop where
  root : disk'.root = disk.root
  others : ∀ ino, ino ≠ dir → disk'.body ino = disk.body ino ∨
    disk.body ino = none ∧ ∃ content, disk'.body ino = some (.file content)
  entries : ∀ name ∉ names, disk'.entry dir name = disk.entry dir name

variable {disk disk' : Disk N C} {dir ino : Nat} {name source target : N} {content : C}
  {change : Table N Nat → Table N Nat}

theorem body_setEntries {other : Nat} : (disk.setEntries dir change).body other =
    if other = dir then (disk.body other).map (Body.mapEntries change) else disk.body other :=
  Table.get?_modify ..

theorem body_setFile {other : Nat} (free : disk.isDirectory ino = false) : (disk.setFile ino content).body other =
    if other = ino then some (.file content) else disk.body other := by
  rw [setFile, dif_neg (by rw [free]; exact Bool.false_ne_true)]
  exact Table.get?_put ..

theorem entry_setEntries : (disk.setEntries dir change).entry dir name =
    match disk.body dir with
    | some (.directory entries) => (change entries).get? name
    | _ => none := by
  rw [entry, body_setEntries, if_pos rfl]
  cases disk.body dir with
  | none => rfl
  | some body => cases body <;> rfl

theorem within_setEntries {names : List N}
    (keeps : ∀ (entries : Table N Nat), ∀ name ∉ names, (change entries).get? name = entries.get? name) :
    Within disk (disk.setEntries dir change) dir names := by
  refine ⟨rfl, fun ino other => .inl (by rw [body_setEntries, if_neg other]), ?_⟩
  intro name outside
  rw [entry_setEntries, entry]
  split
  case h_1 entries _ => exact keeps entries name outside
  case h_2 => rfl

theorem Within.mono {names more : List N} (within : Within disk disk' dir names) (inside : names ⊆ more) :
    Within disk disk' dir more :=
  ⟨within.root, within.others, fun name outside => within.entries name fun member => outside (inside member)⟩

theorem fresh_free : disk.isDirectory disk.fresh = false := by
  rw [isDirectory, body_fresh]
  rfl

theorem createNew_ok (created : disk.createNew dir name content = .ok (ino, disk')) :
    disk.body ino = none ∧ disk.entry dir name = none ∧ disk'.entry dir name = some ino ∧ Within disk disk' dir [name] := by
  simp only [createNew, bind_ok, ensure_ok, Except.ok.injEq, Prod.mk.injEq] at created
  obtain ⟨_, directory, _, absent, rfl, rfl⟩ := created
  have other : dir ≠ disk.fresh := by
    rintro rfl
    rw [fresh_free] at directory
    cases directory
  have kept : (disk.setFile disk.fresh content).body dir = disk.body dir := by rw [body_setFile fresh_free, if_neg other]
  refine ⟨disk.body_fresh, absent, ?_, ?_⟩
  · rw [entry_setEntries, kept]
    rw [isDirectory] at directory
    cases held : disk.body dir with
    | none => rw [held] at directory; cases directory
    | some body =>
        rw [held] at directory
        cases body with
        | directory entries => exact (Table.get?_put ..).trans (if_pos rfl)
        | file | link => cases directory
  · have within := @within_setEntries _ _ _ (disk.setFile disk.fresh content) dir
      (fun entries => entries.put name disk.fresh) [name] fun entries other outside => by
        rw [Table.get?_put, if_neg fun same => outside (List.mem_singleton.mpr same)]
    refine ⟨?_, ?_, ?_⟩
    · rw [within.root, setFile, dif_neg (by rw [fresh_free]; exact Bool.false_ne_true)]
    · intro ino outside
      rw [body_setEntries, if_neg outside, body_setFile fresh_free]
      split
      case isTrue here => exact .inr ⟨here ▸ disk.body_fresh, content, rfl⟩
      case isFalse => exact .inl rfl
    · intro other outside
      rw [within.entries other outside, entry, entry, kept]

theorem rename_ok (renamed : disk.rename dir source target = .ok disk') : Within disk disk' dir [source, target] := by
  simp only [rename, bind_ok, require_ok] at renamed
  obtain ⟨ino, _, moved⟩ := renamed
  split at moved
  case isTrue =>
    cases moved
    exact ⟨rfl, fun _ _ => .inl rfl, fun _ _ => rfl⟩
  case isFalse =>
    simp only [bind_ok, ensure_ok, Except.ok.injEq] at moved
    obtain ⟨_, _, _, _, _, _, rfl⟩ := moved
    refine within_setEntries fun entries name outside => ?_
    rw [List.mem_cons, List.mem_singleton, not_or] at outside
    rw [Table.get?_put, if_neg outside.2, Table.get?_deleteWhere]
    cases entries.get? name <;> simp [outside.1]

theorem removeFile_ok (removed : disk.removeFile dir name = .ok disk') :
    disk'.entry dir name = none ∧ Within disk disk' dir [name] := by
  simp only [removeFile, bind_ok, require_ok, ensure_ok, Except.ok.injEq] at removed
  obtain ⟨ino, found, _, _, rfl⟩ := removed
  constructor
  · rw [entry_setEntries]
    split
    case h_1 entries _ =>
      rw [Table.get?_deleteWhere]
      cases entries.get? name <;> simp
    case h_2 => rfl
  · refine within_setEntries fun entries other outside => ?_
    rw [List.mem_singleton] at outside
    rw [Table.get?_deleteWhere]
    cases entries.get? other <;> simp [outside]

theorem removeFile_error {fault : Fault} (failed : disk.removeFile dir name = .error fault) :
    disk.entry dir name = none ∨ ∃ ino, disk.entry dir name = some ino ∧ disk.isDirectory ino = true := by
  cases found : disk.entry dir name with
  | none => exact .inl rfl
  | some ino =>
      refine .inr ⟨ino, rfl, ?_⟩
      by_contra other
      rw [removeFile, found] at failed
      have free : disk.isDirectory ino = false := eq_false_of_ne_true other
      simp [require, ensure, free, bind, Except.bind] at failed

end Changes

/-! ## Handles -/

section Handles

variable [DecidableEq N]

/-- A directory that is opened by its path. -/
def openAmbient (disk : Disk N C) (links : Nat) (path : List N) : Except Fault Nat := do
  let real ← disk.view.resolve links [] (path.map .name)
  let ino ← require (disk.descend disk.root real) .notFound
  ensure (disk.isDirectory ino = true) .notADirectory
  .ok ino

/-- A directory that was opened first, or lay below one that was reached before, as the disks were one after the other. -/
inductive Reached (opened : Disk N C → Except Fault Nat) : List (Disk N C) → Nat → Prop
  | first {before after : List (Disk N C)} {disk : Disk N C} {ino : Nat} :
      opened disk = .ok ino → Reached opened (before ++ disk :: after) ino
  | down {before after : List (Disk N C)} {disk : Disk N C} {dir ino : Nat} :
      Reached opened before dir → disk.Below dir ino → Reached opened (before ++ disk :: after) ino

theorem Reached.later {opened : Disk N C → Except Fault Nat} {disks later : List (Disk N C)} {ino : Nat}
    (reached : Reached opened disks ino) : Reached opened (disks ++ later) ino := by
  cases reached with
  | first found =>
      rw [List.append_assoc, List.cons_append]
      exact .first found
  | down reached lower =>
      rw [List.append_assoc, List.cons_append]
      exact .down reached lower

end Handles

end Disk

end Inodes
