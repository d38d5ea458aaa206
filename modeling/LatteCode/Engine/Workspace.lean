import LatteCode.Lib.FileTree
import LatteCode.Core.Text
/- Paths of a workspace: how they are spelled, shown, followed, and written through. -/

namespace LatteCode.Engine
open FileTree Outcome

/-- A file name, or the text of a path, in bytes. -/
abbrev OsStr := List UInt8

structure FileData where
  bytes : List UInt8
  modifiedNs : Nat
deriving DecidableEq

abbrev Files := Tree OsStr FileData

/-! ## UTF-8 -/

/-- The length of the character that a byte begins, with the range of its second byte. -/
def sequenceOf (b : UInt8) : Option (Nat × UInt8 × UInt8) :=
  if b < 0x80 then some (1, 0x80, 0xBF)
  else if b < 0xC2 then none
  else if b < 0xE0 then some (2, 0x80, 0xBF)
  else if b = 0xE0 then some (3, 0xA0, 0xBF)
  else if b = 0xED then some (3, 0x80, 0x9F)
  else if b < 0xF0 then some (3, 0x80, 0xBF)
  else if b = 0xF0 then some (4, 0x90, 0xBF)
  else if b < 0xF4 then some (4, 0x80, 0xBF)
  else if b = 0xF4 then some (4, 0x80, 0x8F)
  else none

def continuations (low high : UInt8) : Nat → List UInt8 → Nat
  | 0, _ | _, [] => 0
  | more + 1, b :: rest => if low ≤ b ∧ b ≤ high then continuations 0x80 0xBF more rest + 1 else 0

/-- `String::from_utf8_lossy`; a replacement stands for a longest part that begins a character. -/
def lossyChars : Nat → List UInt8 → List Char
  | 0, _ | _, [] => []
  | fuel + 1, b :: rest =>
      match sequenceOf b with
      | none => '\uFFFD' :: lossyChars fuel rest
      | some (length, low, high) =>
          let found := continuations low high (length - 1) rest
          let char := if found + 1 = length then (String.fromUTF8? ⟨(b :: rest.take found).toArray⟩).map String.toList else none
          char.getD ['\uFFFD'] ++ lossyChars fuel (rest.drop found)

def fromUtf8Lossy (bytes : List UInt8) : String := .ofList (lossyChars bytes.length bytes)

def toBytes (text : String) : List UInt8 := text.toUTF8.data.toList

/-! ## Spellings -/

def separator : UInt8 := 47
def backslash : UInt8 := 92

/-- What stands between the separators of a path. -/
def pieces (path : OsStr) : List OsStr := path.splitOn separator

def pathText (names : List OsStr) : OsStr := [separator].intercalate names

def segment (piece : OsStr) : Segment OsStr :=
  if piece = [] ∨ piece = [46] then .stay else if piece = [46, 46] then .up else .name piece

/-- `Path::components` of a path without parents, where `.` and empty components normalize away. -/
def names (path : OsStr) : List OsStr := namesOf ((pieces path).map segment)

inductive PathError where
  | invalid
  | escape
  | symlink (path : OsStr)
  | missing (path : OsStr)
  | io (fault : Fault)
  | unsupportedSafePathOperation
deriving DecidableEq

/-- What `WorkspacePath` and the tools take from other crates and from the operating system. -/
structure Host where
  maxLinks : Nat
  faultText : Fault → String
  sha256 : List UInt8 → String

section Paths

variable (H : Host)

def PathError.text : PathError → String
  | .invalid => "workspace path must be relative and may not contain parent, root, or platform-prefix components"
  | .escape => "path escapes the canonical workspace"
  | .symlink path => "symbolic links are forbidden for mutations: " ++ fromUtf8Lossy path
  | .missing path => "path does not exist: " ++ fromUtf8Lossy path
  | .io fault => "filesystem operation failed: " ++ H.faultText fault
  | .unsupportedSafePathOperation => "safe handle-relative mutation is unsupported on this platform"

structure WorkspacePath where
  root : List OsStr
  safeMutationsSupported : Bool

structure FileIdentity where
  hash : String
  size : Nat
  modifiedNs : Nat
deriving DecidableEq

def canonicalize (tree : Files) (path : List (Segment OsStr)) : Except Fault (List OsStr) :=
  tree.resolve H.maxLinks [] path

/-- `fs::read`, which follows links. -/
def readFile (tree : Files) (path : List (Segment OsStr)) : Except Fault FileData := do
  let canonical ← canonicalize H tree path
  match tree.node canonical with
  | some (.file content) => .ok content
  | some .directory => .error .isADirectory
  | _ => .error .notFound

/-- `fs::symlink_metadata` of a name under a path. -/
def symlinkMetadata (tree : Files) (above : List OsStr) (name : OsStr) : Except Fault (Node OsStr FileData) := do
  let parent ← canonicalize H tree (above.map .name)
  ensure (tree.isDirectory parent = true) .notADirectory
  require (tree.node (parent ++ [name])) .notFound

def WorkspacePath.new (tree : Files) (root : List (Segment OsStr)) (supported : Bool) : Except PathError WorkspacePath := do
  let root ← (canonicalize H tree root).mapError .io
  .ok ⟨root, supported⟩

def WorkspacePath.validateMutationSupport (workspace : WorkspacePath) : Except PathError Unit :=
  ensure (workspace.safeMutationsSupported = true) .unsupportedSafePathOperation

/-- The joined path, as its part below the root. -/
def lexical (input : OsStr) : Except PathError OsStr :=
  if input = [] ∨ input.head? = some separator ∨ [46, 46] ∈ pieces input then .error .invalid else .ok input

/-- The joined path as the operating system follows it. -/
def WorkspacePath.joined (workspace : WorkspacePath) (path : OsStr) : List (Segment OsStr) :=
  workspace.root.map .name ++ (pieces path).map segment

/-- `Components::as_path` trims what normalizes away at both ends, and nothing in between. -/
def asPath (path : OsStr) : OsStr :=
  pathText (((pieces path).dropWhile fun piece => segment piece = .stay).reverse.dropWhile
    fun piece => segment piece = .stay).reverse

def display (input : OsStr) : Except PathError OsStr := do
  let path ← lexical input
  .ok ((asPath path).map fun b => if b = backslash then separator else b)

def WorkspacePath.read (workspace : WorkspacePath) (tree : Files) (input : OsStr) : Except PathError (List OsStr) := do
  let path ← lexical input
  let canonical ← (canonicalize H tree (workspace.joined path)).mapError fun fault =>
    match fault with
    | .notFound => .missing input
    | other => .io other
  ensure (workspace.root <+: canonical) .escape
  .ok canonical

/-- The components of a mutated path one after the other: none is a link, and only the last one may be missing. -/
def mutationParts (tree : Files) (forbidden : PathError) (allowMissingFinal : Bool) :
    List OsStr → List OsStr → Except PathError Unit
  | _, [] => .ok ()
  | cursor, part :: rest =>
      match symlinkMetadata H tree cursor part with
      | .ok node => if node.isLink then .error forbidden
          else mutationParts tree forbidden allowMissingFinal (cursor ++ [part]) rest
      | .error .notFound =>
          if allowMissingFinal && rest.isEmpty then mutationParts tree forbidden allowMissingFinal (cursor ++ [part]) rest
          else .error (.missing (separator :: pathText (cursor ++ [part])))
      | .error fault => .error (.io fault)

def WorkspacePath.mutation (workspace : WorkspacePath) (tree : Files) (input : OsStr) (allowMissingFinal : Bool) :
    Except PathError OsStr := do
  let target ← lexical input
  let shown ← display input
  mutationParts H tree (.symlink shown) allowMissingFinal workspace.root (names target)
  .ok target

def identity (tree : Files) (path : List (Segment OsStr)) : Except PathError FileIdentity := do
  let data ← (readFile H tree path).mapError .io
  .ok ⟨H.sha256 data.bytes, data.bytes.length, data.modifiedNs⟩

/-- The parent is opened component by component, and a temporary file is renamed in it. -/
def WorkspacePath.atomicReplace (workspace : WorkspacePath) (tree : Files) (input : OsStr) (data : FileData)
    (create : Bool) : Except PathError Files := do
  workspace.validateMutationSupport
  let target ← workspace.mutation H tree input create
  let name ← require (names target).getLast? .invalid
  let parent ← (tree.resolve H.maxLinks workspace.root ((names target).dropLast.map .name)).mapError .io
  ensure ((tree.node (parent ++ [name])).any Node.isLink = false) (.symlink input)
  (tree.replace parent name data).mapError .io

end Paths

/-! ## Where a spelling leads -/

/-- A spelling without `.`, empty components and backslashes. -/
structure Plain (input : OsStr) : Prop where
  named : ∀ piece ∈ pieces input, segment piece = .name piece
  straight : backslash ∉ input

section Spellings

variable {H : Host} {tree tree' : Files} {workspace : WorkspacePath} {input : OsStr}

theorem pathText_pieces (path : OsStr) : pathText (pieces path) = path := List.intercalate_splitOn separator

theorem Plain.names (plain : Plain input) : names input = pieces input := by
  have named : ∀ list : List OsStr, (∀ piece ∈ list, segment piece = .name piece) → namesOf (list.map segment) = list := by
    intro list each
    induction list with
    | nil => rfl
    | cons piece rest ih =>
        rw [List.forall_mem_cons] at each
        rw [List.map_cons, each.1]
        exact congrArg (piece :: ·) (ih each.2)
  exact named (pieces input) plain.named

theorem Plain.asPath (plain : Plain input) : asPath input = input := by
  have kept : ∀ list : List OsStr, (∀ piece ∈ list, piece ∈ pieces input) →
      list.dropWhile (fun piece => segment piece = .stay) = list := by
    intro list inside
    cases list with
    | nil => rfl
    | cons piece rest =>
        rw [List.dropWhile_cons_of_neg]
        rw [plain.named piece (inside piece List.mem_cons_self)]
        exact Bool.false_ne_true
  rw [Engine.asPath, kept _ fun _ member => member, kept _ fun _ member => List.mem_reverse.mp member, List.reverse_reverse,
    pathText_pieces]

theorem lexical_ok {path : OsStr} (accepted : lexical input = .ok path) : input = path := by
  unfold lexical at accepted
  split at accepted <;> cases accepted
  rfl

theorem Plain.display (plain : Plain input) {shown : OsStr} (displayed : display input = .ok shown) : shown = input := by
  simp only [Engine.display, bind_ok, Except.ok.injEq] at displayed
  obtain ⟨path, accepted, rfl⟩ := displayed
  rw [← lexical_ok accepted, plain.asPath]
  exact (List.map_congr_left fun b member => if_neg fun same : b = backslash => plain.straight (same ▸ member)).trans
    (List.map_id' input)

theorem symlinkMetadata_found {cursor : List OsStr} {part : OsStr} {node : Node OsStr FileData} (real : tree.Real cursor)
    (held : tree.node (cursor ++ [part]) = some node) : symlinkMetadata H tree cursor part = .ok node := by
  have here : canonicalize H tree (cursor.map .name) = .ok cursor := resolve_self real
  have directory : tree.isDirectory cursor = true := isDirectory_iff.mpr (tree.parents cursor part (by rw [held]; rfl))
  simp only [symlinkMetadata, bind_ok, ensure_ok, require_ok]
  exact ⟨cursor, here, (), directory, held⟩

/-- Components that were walked for a mutation are no links. -/
theorem mutationParts_linkless {forbidden : PathError} {allowMissingFinal : Bool} {cursor parts : List OsStr} {u : Unit}
    (real : tree.Real cursor) (checked : mutationParts H tree forbidden allowMissingFinal cursor parts = .ok u) :
    tree.Linkless cursor parts := by
  induction parts generalizing cursor with
  | nil =>
      intro before name after split
      exact absurd split.symm (List.append_ne_nil_of_right_ne_nil before (List.cons_ne_nil _ _))
  | cons part rest ih =>
      have step : ∀ node, tree.node (cursor ++ [part]) = some node → node.isLink = false ∧
          mutationParts H tree forbidden allowMissingFinal (cursor ++ [part]) rest = .ok u := by
        intro node held
        rw [mutationParts, symlinkMetadata_found real held] at checked
        simp only at checked
        split at checked
        case isTrue => cases checked
        case isFalse plain => exact ⟨eq_false_of_ne_true plain, checked⟩
      intro before name after split node held
      cases before with
      | nil =>
          cases split
          rw [List.append_nil] at held
          exact (step node held).1
      | cons first before =>
          cases split
          have shifted : cursor ++ part :: before ++ [name] = cursor ++ [part] ++ (before ++ [name]) := by simp
          rw [shifted] at held
          have stands : (tree.node (cursor ++ [part] ++ (before ++ [name]))).isSome = true := by rw [held]; rfl
          have directory : tree.isDirectory (cursor ++ [part]) = true := by
            cases before with
            | nil => exact directory_above stands
            | cons next before => exact directory_above stands
          refine ih (.directory directory) (step _ (isDirectory_iff.mp directory)).2 before name after rfl node ?_
          rw [← held, List.append_assoc]

/-- A path that is accepted goes down only. -/
theorem lexical_level {path : OsStr} (accepted : lexical input = .ok path) : Segment.up ∉ (pieces input).map segment := by
  intro raised
  obtain ⟨piece, member, up⟩ := List.mem_map.mp raised
  have parent : piece = [46, 46] := by
    unfold segment at up
    split at up
    case isTrue => cases up
    case isFalse =>
      split at up
      case isTrue same => exact same
      case isFalse => cases up
  unfold lexical at accepted
  rw [if_pos (.inr (.inr (parent ▸ member)))] at accepted
  cases accepted

/-- The parent of a mutated path stands, and is a directory. -/
theorem mutationParts_parent {forbidden : PathError} {allowMissingFinal : Bool} {cursor above : List OsStr} {name : OsStr}
    {u : Unit} (real : tree.Real cursor)
    (checked : mutationParts H tree forbidden allowMissingFinal cursor (above ++ [name]) = .ok u) :
    tree.isDirectory (cursor ++ above) = true := by
  induction above generalizing cursor with
  | nil =>
      have here : canonicalize H tree (cursor.map .name) = .ok cursor := resolve_self real
      rw [List.append_nil]
      by_contra other
      simp only [List.nil_append, mutationParts, symlinkMetadata, here, bind, Except.bind, ensure, if_neg other] at checked
      cases checked
  | cons first more ih =>
      rw [List.cons_append, mutationParts] at checked
      split at checked
      case h_1 node found =>
        split at checked
        case isTrue => cases checked
        case isFalse plain =>
          simp only [symlinkMetadata, bind_ok, ensure_ok, require_ok] at found
          obtain ⟨parent, same, _, _, held⟩ := found
          have here : canonicalize H tree (cursor.map .name) = .ok cursor := resolve_self real
          rw [here] at same
          cases same
          have next := ih ⟨node, held, eq_false_of_ne_true plain⟩ checked
          rw [List.append_assoc] at next
          exact next
      case h_2 =>
        have more' : (more ++ [name]).isEmpty = false := by cases more <;> rfl
        rw [more', Bool.and_false, if_neg Bool.false_ne_true] at checked
        cases checked
      case h_3 => cases checked

/-- What a mutation has checked. -/
theorem mutation_ok {target : OsStr} {create : Bool} (real : tree.Real workspace.root)
    (mutated : workspace.mutation H tree input create = .ok target) :
    target = input ∧ Segment.up ∉ (pieces input).map segment ∧ tree.Linkless workspace.root (names input) ∧
      ∀ above name, names input = above ++ [name] → tree.isDirectory (workspace.root ++ above) = true := by
  simp only [WorkspacePath.mutation, bind_ok, Except.ok.injEq] at mutated
  obtain ⟨path, accepted, _, _, _, checked, rfl⟩ := mutated
  have same := lexical_ok accepted
  rw [← same] at checked
  refine ⟨same.symm, lexical_level accepted, mutationParts_linkless real checked, ?_⟩
  intro above name split
  rw [split] at checked
  exact mutationParts_parent real checked

/-- A mutation replaces the file that its names say. -/
theorem atomicReplace_node {data : FileData} {create : Bool} (real : tree.Real workspace.root)
    (replaced : workspace.atomicReplace H tree input data create = .ok tree') (path : List OsStr) :
    tree'.node path = if path = workspace.root ++ names input then some (.file data) else tree.node path := by
  simp only [WorkspacePath.atomicReplace, bind_ok, require_ok, ensure_ok, mapError_ok] at replaced
  obtain ⟨_, _, target, mutated, name, last, parent, opened, _, _, put⟩ := replaced
  obtain ⟨rfl, _, _, above⟩ := mutation_ok real mutated
  have split : names target = (names target).dropLast ++ [name] := (List.dropLast_append_getLast? name last).symm
  have stands : tree.Real (workspace.root ++ (names target).dropLast) := .directory (above _ _ split)
  rw [← List.append_nil ((names target).dropLast.map Segment.name), resolve_names stands, resolve_nil] at opened
  cases opened
  rw [replace_node put]
  congr 1
  rw [List.append_assoc, ← split]

/-- A checked mutation of something that is no directory goes through. -/
theorem atomicReplace_done {target : OsStr} {data : FileData} {create : Bool} (real : tree.Real workspace.root)
    (supported : workspace.safeMutationsSupported = true) (mutated : workspace.mutation H tree input create = .ok target)
    (named : names input ≠ []) (free : tree.isDirectory (workspace.root ++ names input) = false) :
    ∃ tree', workspace.atomicReplace H tree input data create = .ok tree' := by
  obtain ⟨rfl, _, linkless, above⟩ := mutation_ok real mutated
  obtain ⟨parts, name, split⟩ := List.eq_nil_or_concat (names target) |>.resolve_left named
  rw [List.concat_eq_append] at split
  have directory := above parts name split
  rw [split, ← List.append_assoc] at free
  obtain ⟨tree', put⟩ := @replace_ok _ _ _ tree _ name data directory free
  have opened : tree.resolve H.maxLinks workspace.root (parts.map .name) = .ok (workspace.root ++ parts) := by
    have stands : tree.Real (workspace.root ++ parts) := .directory directory
    rw [← List.append_nil (parts.map Segment.name), resolve_names stands, resolve_nil]
  have plain : (tree.node (workspace.root ++ parts ++ [name])).any Node.isLink = false := by
    cases held : tree.node (workspace.root ++ parts ++ [name]) with
    | none => rfl
    | some node => exact linkless parts name [] split node held
  refine ⟨tree', ?_⟩
  simp only [WorkspacePath.atomicReplace, WorkspacePath.validateMutationSupport, bind_ok, require_ok, ensure_ok,
    mapError_ok]
  refine ⟨(), supported, target, mutated, name, ?_, workspace.root ++ parts, ?_, (), plain, put⟩
  · rw [split, List.getLast?_concat]
  · rw [split, List.dropLast_concat]
    exact opened

theorem canonicalize_joined (real : tree.Real workspace.root) (path : OsStr) :
    canonicalize H tree (workspace.joined path) =
      tree.resolve H.maxLinks workspace.root ((pieces path).map segment) := by
  have real : tree.Real ([] ++ workspace.root) := real
  exact resolve_names real

theorem read_real {path : List OsStr} (read : workspace.read H tree input = .ok path) : tree.Real path := by
  simp only [WorkspacePath.read, bind_ok, mapError_ok, ensure_ok, Except.ok.injEq] at read
  obtain ⟨_, _, canonical, resolved, _, _, rfl⟩ := read
  exact resolve_real (isDirectory_iff.mpr tree.root) resolved

theorem read_below {path : List OsStr} (read : workspace.read H tree input = .ok path) : workspace.root <+: path := by
  simp only [WorkspacePath.read, bind_ok, mapError_ok, ensure_ok, Except.ok.injEq] at read
  obtain ⟨_, _, canonical, _, _, inside, rfl⟩ := read
  exact inside

theorem readFile_real {path : List OsStr} {data : FileData} (real : tree.Real path) :
    readFile H tree (path.map .name) = .ok data ↔ tree.node path = some (.file data) := by
  have here : canonicalize H tree (path.map .name) = .ok path := resolve_self real
  simp only [readFile, here, bind, Except.bind]
  split
  case h_1 content held => rw [held, Except.ok.injEq, Option.some.injEq, Node.file.injEq]
  case h_2 held => exact ⟨fun impossible => (by cases impossible), fun same => (by rw [held] at same; cases same)⟩
  case h_3 other _ => exact ⟨fun impossible => (by cases impossible), fun same => absurd same (other data)⟩

/-- Only the root is spelled without names, and it is shown as nothing. -/
theorem display_nameless (nameless : names input = []) {shown : OsStr} (displayed : display input = .ok shown) :
    shown = [] := by
  simp only [display, bind_ok, Except.ok.injEq] at displayed
  obtain ⟨path, accepted, rfl⟩ := displayed
  rw [← lexical_ok accepted]
  have idle : ∀ piece ∈ pieces input, segment piece = .stay := by
    intro piece member
    have held : segment piece ∈ (pieces input).map segment := List.mem_map_of_mem member
    cases here : segment piece with
    | stay => rfl
    | up => exact absurd (here ▸ held) (lexical_level accepted)
    | name n =>
        have named : n ∈ names input := List.mem_filterMap.mpr ⟨_, here ▸ held, rfl⟩
        rw [nameless] at named
        cases named
  have dropped : (pieces input).dropWhile (fun piece => segment piece = .stay) = [] :=
    List.dropWhile_eq_nil_iff.mpr fun piece member => decide_eq_true (idle piece member)
  rw [asPath, dropped]
  rfl

end Spellings

end LatteCode.Engine
