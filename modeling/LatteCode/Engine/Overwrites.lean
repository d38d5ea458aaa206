import LatteCode.Engine.Steps
import LatteCode.Engine.Denied
/- What a mutation replaces, when other programs write the same file between the steps of the tools. -/

namespace LatteCode.Engine
open FileTree Interleaving Outcome Program

/-- An atomic write of another program to this path. -/
def otherWrite (path : List OsStr) (data : FileData) (world : FileWorld) : FileWorld :=
  match path.getLast? with
  | none => world
  | some name => { world with tree := (world.tree.replace path.dropLast name data).toOption.getD world.tree }

/-- What stands at a path after these writes. -/
def latest (foreign : List FileData) (old : Option FileNode) : Option FileNode := (foreign.getLast?.map .file).or old

section Writes

variable {path other : List OsStr} {foreign : List FileData} {world : FileWorld}

@[simp] theorem latest_nil {old : Option FileNode} : latest [] old = old := rfl

theorem latest_append {first second : List FileData} {old : Option FileNode} :
    latest (first ++ second) old = latest second (latest first old) := by
  rw [latest, latest, latest, List.getLast?_append, Option.map_or, Option.or_assoc]

theorem otherWrite_node {data : FileData} (inner : path ≠ []) (directory : world.tree.isDirectory path.dropLast = true)
    (free : world.tree.isDirectory path = false) : (otherWrite path data world).tree.node other =
      if other = path then some (.file data) else world.tree.node other := by
  obtain ⟨above, name, rfl⟩ := (List.eq_nil_or_concat path).resolve_left inner
  rw [List.concat_eq_append] at directory free ⊢
  rw [List.dropLast_concat] at directory
  obtain ⟨tree, replaced⟩ := @replace_ok _ _ _ world.tree above name data directory free
  rw [otherWrite, List.getLast?_concat, List.dropLast_concat]
  dsimp only
  rw [replaced]
  exact replace_node replaced other

/-- Writes to a path change what stands there, and nothing else. -/
theorem meanwhile_node (inner : path ≠ []) (directory : world.tree.isDirectory path.dropLast = true)
    (free : world.tree.isDirectory path = false) : (meanwhile (otherWrite path) foreign world).tree.node other =
      if other = path then latest foreign (world.tree.node path) else world.tree.node other := by
  induction foreign generalizing world with
  | nil =>
      rw [latest_nil]
      split
      case isTrue same => rw [same]; rfl
      case isFalse => rfl
  | cons data rest ih =>
      have written := fun other => @otherWrite_node path other world data inner directory free
      have above : path.dropLast ≠ path := by
        intro same
        have shorter := congrArg List.length same
        rw [List.length_dropLast] at shorter
        have positive := List.length_pos_iff.mpr inner
        omega
      have directory' : (otherWrite path data world).tree.isDirectory path.dropLast = true := by
        rw [isDirectory_iff, written, if_neg above]
        exact isDirectory_iff.mp directory
      have free' : (otherWrite path data world).tree.isDirectory path = false := by
        rw [Tree.isDirectory, written, if_pos rfl]
      have later := ih directory' free'
      rw [meanwhile, List.foldl_cons]
      rw [meanwhile] at later
      rw [later, written, written]
      split
      case isTrue same =>
        rw [if_pos rfl, ← List.singleton_append, latest_append]
        rfl
      case isFalse => rfl

/-- Without a directory above, or with one in its place, every write fails. -/
theorem meanwhile_blocked (blocked : ¬ (path ≠ [] ∧ world.tree.isDirectory path.dropLast = true ∧
    world.tree.isDirectory path = false)) : meanwhile (otherWrite path) foreign world = world := by
  have idle : ∀ data, otherWrite path data world = world := by
    intro data
    unfold otherWrite
    split
    case h_1 => rfl
    case h_2 name last =>
      cases put : world.tree.replace path.dropLast name data with
      | error fault => rfl
      | ok tree =>
          have found := replace_found put
          rw [List.dropLast_append_getLast? name last] at found
          have inner : path ≠ [] := by
            rintro rfl
            cases last
          exact absurd ⟨inner, found⟩ blocked
  induction foreign with
  | nil => rfl
  | cons data rest ih =>
      rw [meanwhile, List.foldl_cons, idle]
      exact ih

/-- A write leaves every other node as it is, and a file in the place of no directory. -/
theorem meanwhile_cases : (meanwhile (otherWrite path) foreign world).tree.node other = world.tree.node other ∨
    world.tree.isDirectory other = false ∧
      ∃ data, (meanwhile (otherWrite path) foreign world).tree.node other = some (.file data) := by
  by_cases open_ : path ≠ [] ∧ world.tree.isDirectory path.dropLast = true ∧ world.tree.isDirectory path = false
  case neg => exact .inl (by rw [meanwhile_blocked open_])
  case pos =>
    obtain ⟨inner, directory, free⟩ := open_
    rw [meanwhile_node inner directory free]
    split
    case isFalse => exact .inl rfl
    case isTrue same =>
      rw [same]
      cases last : foreign.getLast? with
      | none => exact .inl (by rw [latest, last]; rfl)
      | some data => exact .inr ⟨free, data, by rw [latest, last]; rfl⟩

theorem meanwhile_isDirectory (directory : world.tree.isDirectory other = true) :
    (meanwhile (otherWrite path) foreign world).tree.isDirectory other = true := by
  rcases @meanwhile_cases path other foreign world with same | ⟨free, _⟩
  · rw [isDirectory_iff, same]
    exact isDirectory_iff.mp directory
  · rw [directory] at free
    cases free

theorem meanwhile_free (free : world.tree.isDirectory other = false) :
    (meanwhile (otherWrite path) foreign world).tree.isDirectory other = false := by
  refine eq_false_of_ne_true fun raised => ?_
  rw [isDirectory_iff] at raised
  rcases @meanwhile_cases path other foreign world with same | ⟨_, data, file⟩
  · rw [isDirectory_iff.mpr (same.symm.trans raised)] at free
    cases free
  · rw [file] at raised
    cases raised

theorem meanwhile_real (real : world.tree.Real other) :
    (meanwhile (otherWrite path) foreign world).tree.Real other := by
  rcases @meanwhile_cases path other foreign world with same | ⟨_, data, file⟩
  · obtain ⟨node, held, plain⟩ := real
    exact ⟨node, same.trans held, plain⟩
  · exact ⟨_, file, rfl⟩

theorem meanwhile_linkless {names : List OsStr} (linkless : world.tree.Linkless other names) :
    (meanwhile (otherWrite path) foreign world).tree.Linkless other names := by
  intro before name after split node held
  rcases @meanwhile_cases path (other ++ before ++ [name]) foreign world with same | ⟨_, data, file⟩
  · exact linkless before name after split node (same.symm.trans held)
  · rw [file] at held
    cases held
    rfl

end Writes

section Runs

variable {C : Crates} {workspace : WorkspacePath} {path : List OsStr} {gaps : Nat → List FileData} {place next : Nat}
  {world world' : FileWorld} {target input : OsStr}

/-- The files as the step at this place finds them, `count` steps after the first. -/
def seenAt (path : List OsStr) (gaps : Nat → List FileData) (place count : Nat) (world : FileWorld) : FileWorld :=
  meanwhile (otherWrite path) (between gaps place count) world

theorem seenAt_zero : meanwhile (otherWrite path) (gaps place) world = seenAt path gaps place 1 world := by
  rw [seenAt, between_one]

theorem seenAt_next {count : Nat} :
    meanwhile (otherWrite path) (gaps (place + count)) (seenAt path gaps place count world) =
      seenAt path gaps place (count + 1) world := meanwhile_between

theorem seenAt_seenAt {first second : Nat} :
    seenAt path gaps (place + first) second (seenAt path gaps place first world) =
      seenAt path gaps place (first + second) world := by
  rw [seenAt, seenAt, meanwhile_meanwhile, between_append, ← seenAt]

theorem seenAt_real {other : List OsStr} {count : Nat} (real : world.tree.Real other) :
    (seenAt path gaps place count world).tree.Real other := meanwhile_real real

theorem seenAt_linkless {other names : List OsStr} {first second : Nat}
    (linkless : (seenAt path gaps place first world).tree.Linkless other names) :
    (seenAt path gaps place (first + second) world).tree.Linkless other names := by
  rw [← seenAt_seenAt]
  exact meanwhile_linkless linkless

theorem run_look {α : Type} {answer : Files → Except ToolError α} {a : α} :
    run (otherWrite path) gaps (Stepwise.look answer).run place world = (.ok a, next, world') ↔
      answer (seenAt path gaps place 1 world).tree = .ok a ∧ next = place + 1 ∧
        world' = seenAt path gaps place 1 world := by
  rw [Stepwise.look, run_query_ok, seenAt_zero]

theorem run_identity {spelled : List (Segment OsStr)} {id : FileIdentity} :
    run (otherWrite path) gaps (Stepwise.identity C spelled).run place world = (.ok id, next, world') ↔
      ∃ data metadata, readFile C.toHost (seenAt path gaps place 1 world).tree spelled = .ok data ∧
        readFile C.toHost (seenAt path gaps place 2 world).tree spelled = .ok metadata ∧
        id = ⟨C.sha256 data.bytes, metadata.bytes.length, metadata.modifiedNs⟩ ∧
        next = place + 2 ∧ world' = seenAt path gaps place 2 world := by
  simp only [Stepwise.identity, run_bind_ok, run_look, run_given_ok, pathed, mapError_ok, Except.ok.injEq]
  constructor
  · rintro ⟨data, _, _, ⟨read, rfl, rfl⟩, metadata, _, _, ⟨sized, rfl, rfl⟩, rfl, rfl, rfl⟩
    rw [seenAt_seenAt] at sized ⊢
    exact ⟨data, metadata, read, sized, rfl, rfl, rfl⟩
  · rintro ⟨data, metadata, read, sized, rfl, rfl, rfl⟩
    refine ⟨data, _, _, ⟨read, rfl, rfl⟩, metadata, _, _, ⟨?_, rfl, rfl⟩, rfl, rfl, ?_⟩
    · rw [seenAt_seenAt]
      exact sized
    · rw [seenAt_seenAt]

theorem run_requireFresh {hash : String} {u : Unit} :
    run (otherWrite path) gaps (Stepwise.requireFresh C workspace target input (some hash)).run place world =
        (.ok u, next, world') →
      ∃ data, readFile C.toHost (seenAt path gaps place 1 world).tree (workspace.joined input) = .ok data ∧
        C.sha256 data.bytes = hash ∧ next = place + 2 ∧ world' = seenAt path gaps place 2 world := by
  simp only [Stepwise.requireFresh, run_bind_ok, run_identity, run_given_ok, ensure_ok]
  rintro ⟨_, _, _, ⟨data, metadata, read, _, rfl, rfl, rfl⟩, same, rfl, rfl⟩
  exact ⟨data, read, same, rfl, rfl⟩

theorem run_checkTarget {create : Bool} {u : Unit} :
    run (otherWrite path) gaps (Stepwise.checkTarget C workspace target input create).run place world =
        (.ok u, next, world') →
      ∃ checked, workspace.mutation C.toHost (seenAt path gaps place 1 world).tree target create = .ok checked ∧
        names checked = names input ∧ next = place + 1 ∧ world' = seenAt path gaps place 1 world := by
  simp only [Stepwise.checkTarget, run_bind_ok, run_look, run_given_ok, pathed, mapError_ok, ensure_ok]
  rintro ⟨checked, _, _, ⟨mutated, rfl, rfl⟩, same, rfl, rfl⟩
  exact ⟨checked, mutated, same, rfl, rfl⟩

/-- What the last step of a replacement finds at the name in the opened parent. -/
theorem run_atomicReplace {data : FileData} {create : Bool} {replaced : Option FileNode} :
    run (otherWrite path) gaps (Stepwise.atomicReplace C workspace target data create).run place world =
        (.ok replaced, next, world') →
      ∃ checked name parent, workspace.mutation C.toHost (seenAt path gaps place 1 world).tree target create =
          .ok checked ∧ (names checked).getLast? = some name ∧
        (seenAt path gaps place 2 world).tree.resolve C.maxLinks workspace.root ((names checked).dropLast.map .name) =
          .ok parent ∧
        (seenAt path gaps place 5 world).tree.isDirectory (parent ++ [name]) = false ∧
        replaced = (seenAt path gaps place 5 world).tree.node (parent ++ [name]) := by
  simp only [Stepwise.atomicReplace, run_bind_ok, run_look, run_given_ok, run_attempt_ok, pathed, mapError_ok,
    require_ok, map_ok]
  rintro ⟨_, _, _, ⟨_, rfl, rfl⟩, checked, _, _, ⟨mutated, rfl, rfl⟩, name, _, _, ⟨last, rfl, rfl⟩, parent, _, _,
    ⟨opened, rfl, rfl⟩, _, _, _, ⟨_, rfl, rfl⟩, _, _, _, ⟨_, rfl, rfl⟩, ⟨tree, put, both⟩, _⟩
  cases both
  simp only [seenAt_zero, seenAt_seenAt, Nat.add_assoc, Nat.reduceAdd] at opened put ⊢
  exact ⟨checked, name, parent, mutated, last, opened, (replace_found put).2, rfl⟩

/-- What a mutation that goes through has found at the place of its check: the content under the expected digest, or
nothing that the spelled path leads to. -/
def CheckedAt (C : Crates) (workspace : WorkspacePath) (input : OsStr) (expected : String) (tree : Files) : Bool → Prop
  | true => (canonicalize C.toHost tree (workspace.joined input)).toBool = false
  | false => ∃ data, readFile C.toHost tree (workspace.joined input) = .ok data ∧ C.sha256 data.bytes = expected

/-- The checks of a mutation, step by step. -/
theorem run_newContent {expected : String} {mutation : Stepwise.Mutation} {content : String} :
    run (otherWrite path) gaps (Stepwise.newContent C workspace target input (some expected) mutation).run place world =
        (.ok content, next, world') →
      (∃ checked, workspace.mutation C.toHost (seenAt path gaps place 1 world).tree target mutation.creates =
        .ok checked ∧ names checked = names input) ∧
      CheckedAt C workspace input expected (seenAt path gaps place 2 world).tree mutation.creates ∧
      next = place + mutation.checks ∧ world' = seenAt path gaps place mutation.checks world := by
  cases mutation with
  | edit before after =>
      simp only [Stepwise.newContent, run_bind_ok, run_look, run_given_ok]
      rintro ⟨_, _, _, target, _, _, _, fresh, _, _, _, ⟨_, rfl, rfl⟩, _, _, _, ⟨_, rfl, rfl⟩, _, rfl, rfl⟩
      obtain ⟨checked, mutated, same, rfl, rfl⟩ := run_checkTarget target
      obtain ⟨data, read, digest, rfl, rfl⟩ := run_requireFresh fresh
      rw [seenAt_seenAt] at read
      simp only [seenAt_seenAt, Nat.add_assoc, Nat.reduceAdd]
      exact ⟨⟨checked, mutated, same⟩, ⟨data, read, digest⟩, rfl, rfl⟩
  | write content create =>
      cases create with
      | false =>
          simp only [Stepwise.newContent, run_bind_ok, run_given_ok, Bool.false_eq_true, if_false]
          rintro ⟨_, _, _, target, _, _, _, fresh, _, rfl, rfl⟩
          obtain ⟨checked, mutated, same, rfl, rfl⟩ := run_checkTarget target
          obtain ⟨data, read, digest, rfl, rfl⟩ := run_requireFresh fresh
          rw [seenAt_seenAt] at read
          simp only [seenAt_seenAt, Nat.add_assoc, Nat.reduceAdd]
          exact ⟨⟨checked, mutated, same⟩, ⟨data, read, digest⟩, rfl, rfl⟩
      | true =>
          simp only [Stepwise.newContent, run_bind_ok, run_look, run_given_ok, if_true, ensure_ok]
          rintro ⟨_, _, _, target, _, _, _, ⟨missing, rfl, rfl⟩, _, rfl, rfl⟩
          obtain ⟨checked, mutated, same, rfl, rfl⟩ := run_checkTarget target
          rw [seenAt_seenAt] at missing
          simp only [seenAt_seenAt, Nat.add_assoc, Nat.reduceAdd]
          exact ⟨⟨checked, mutated, same⟩, missing, rfl, rfl⟩

/-- A path of the workspace leads to what its names say, as long as nothing on it is a link. -/
theorem readFile_joined {tree : Files} {data : FileData} (real : tree.Real workspace.root)
    (accepted : lexical input = .ok input) (linkless : tree.Linkless workspace.root (names input))
    (read : readFile C.toHost tree (workspace.joined input) = .ok data) :
    tree.node (workspace.root ++ names input) = some (.file data) := by
  simp only [readFile, bind_ok, canonicalize_joined real] at read
  obtain ⟨found, resolved, read⟩ := read
  have place : found = workspace.root ++ names input := resolve_linkless (lexical_level accepted) linkless resolved
  rw [← place]
  split at read
  case h_1 content held =>
    cases read
    exact held
  case h_2 | h_3 => cases read

/-- What a reading that goes through has decoded, and what it has hashed. -/
theorem run_executeRead {read : List OsStr} {max : Nat} {output : ToolOutput} {bytes : List UInt8} :
    run (otherWrite path) gaps (Stepwise.executeRead C target read max).run place world =
        (.ok (output, bytes), next, world') →
      ∃ data hashed, readFile C.toHost (seenAt path gaps place 1 world).tree (read.map .name) = .ok data ∧
        bytes = data.bytes ∧
        readFile C.toHost (seenAt path gaps place 2 world).tree (read.map .name) = .ok hashed ∧
        output.value.get? "sha256" = some (.string (C.sha256 hashed.bytes)) ∧
        world'.tree = (seenAt path gaps place 4 world).tree := by
  simp only [Stepwise.executeRead, run_bind_ok, run_look, run_identity, run_given_ok, run_attempt_ok, mapError_ok]
  rintro ⟨data, _, _, ⟨decoded, rfl, rfl⟩, _, _, _, ⟨hashed, _, read, _, rfl, rfl, rfl⟩, _, _, _, ⟨noted, rfl⟩,
    shown, _, rfl⟩
  cases shown
  cases noted
  simp only [seenAt_zero, seenAt_seenAt, Nat.add_assoc, Nat.reduceAdd] at read ⊢
  refine ⟨data, hashed, decoded, rfl, read, ?_, trivial⟩
  rw [Json.get?_ofMembers]
  rfl

/-- A path that ends in a name, and not in a separator or a dot. -/
def NameLast (input : OsStr) : Prop := ∃ name, ((pieces input).map segment).getLast? = some (.name name)

theorem latest_none {foreign : List FileData} {old : Option FileNode} :
    latest foreign old = none ↔ foreign = [] ∧ old = none := by
  rw [latest, Option.or_eq_none_iff, Option.map_eq_none_iff, List.getLast?_eq_none_iff]

/-- The bytes at a path after these writes. -/
theorem latest_bytes {foreign : List FileData} {old data : FileData}
    (file : latest foreign (some (.file old)) = some (.file data)) :
    data.bytes = (foreign.getLast?.map FileData.bytes).getD old.bytes := by
  unfold latest at file
  cases last : foreign.getLast? with
  | none =>
      rw [last] at file
      cases file
      rfl
  | some write =>
      rw [last] at file
      cases file
      rfl

theorem latest_file {foreign : List FileData} {old : FileData} :
    ∃ data, latest foreign (some (.file old)) = some (.file data) := by
  unfold latest
  cases foreign.getLast? with
  | none => exact ⟨old, rfl⟩
  | some write => exact ⟨write, rfl⟩

/-- Two lists of writes, with a file of the same bytes in between, leave other bytes than those before if the last of
all writes does. -/
theorem latest_same {first second : List FileData} {old hashed checked : FileData}
    (file : latest first (some (.file old)) = some (.file hashed)) (same : checked.bytes = hashed.bytes) :
    (∃ data, latest second (some (.file checked)) = some (.file data) ∧ data.bytes = old.bytes) ↔
      ∀ write ∈ (first ++ second).getLast?, write.bytes = old.bytes := by
  obtain ⟨last, ended⟩ := @latest_file second checked
  have bytes := latest_bytes ended
  rw [same, latest_bytes file] at bytes
  have only : (∃ data, latest second (some (.file checked)) = some (.file data) ∧ data.bytes = old.bytes) ↔
      last.bytes = old.bytes := by
    constructor
    · rintro ⟨data, found, held⟩
      rw [ended] at found
      cases found
      exact held
    · exact fun held => ⟨last, ended, held⟩
  rw [only, bytes, List.getLast?_append]
  cases second.getLast? with
  | some write => simp
  | none => cases first.getLast? <;> simp

/-- What stands at the written path later on. -/
theorem seenAt_node {first second : Nat} (inner : path ≠ [])
    (directory : (seenAt path gaps place first world).tree.isDirectory path.dropLast = true)
    (free : (seenAt path gaps place first world).tree.isDirectory path = false) :
    (seenAt path gaps place (first + second) world).tree.node path =
      latest (between gaps (place + first) second) ((seenAt path gaps place first world).tree.node path) := by
  rw [← seenAt_seenAt, seenAt, meanwhile_node inner directory free, if_pos rfl]

theorem seenAt_file {first second : Nat} {old : FileData}
    (file : (seenAt path gaps place first world).tree.node path = some (.file old)) :
    (seenAt path gaps place (first + second) world).tree.node path =
      latest (between gaps (place + first) second) (some (.file old)) := by
  have inner : path ≠ [] := by
    rintro rfl
    rw [(seenAt [] gaps place first world).tree.root] at file
    cases file
  obtain ⟨above, name, rfl⟩ := (List.eq_nil_or_concat path).resolve_left inner
  rw [List.concat_eq_append] at file inner ⊢
  rw [seenAt_node inner, file]
  · rw [List.dropLast_concat, isDirectory_iff]
    exact Tree.parents _ above name (by rw [file]; rfl)
  · rw [Tree.isDirectory, file]

section Mutations

variable {now : Nat} {expected : String} {mutation : Stepwise.Mutation} {replaced : Option FileNode}

/-- A mutation that comes to its rename has found its directory, checked what it should, and replaced what stands there
in the end. -/
theorem run_replaceContent (real : world.tree.Real workspace.root)
    (run_ : run (otherWrite (workspace.root ++ names input)) gaps
      (Stepwise.replaceContent C workspace now target input (some expected) mutation).run place world =
        (.ok replaced, next, world')) :
    names input ≠ [] ∧
    (workspace.root ++ names input ≠ [] ∧ world.tree.isDirectory (workspace.root ++ names input).dropLast = true ∧
      world.tree.isDirectory (workspace.root ++ names input) = false) ∧
    (seenAt (workspace.root ++ names input) gaps place 1 world).tree.Linkless workspace.root (names input) ∧
    CheckedAt C workspace input expected (seenAt (workspace.root ++ names input) gaps place 2 world).tree
      mutation.creates ∧
    replaced = (seenAt (workspace.root ++ names input) gaps place (mutation.checks + 5) world).tree.node
      (workspace.root ++ names input) := by
  simp only [Stepwise.replaceContent, run_bind_ok] at run_
  obtain ⟨content, _, _, checks, replacement⟩ := run_
  obtain ⟨⟨checked, mutated, same⟩, held, rfl, rfl⟩ := run_newContent checks
  obtain ⟨again, name, parent, mutatedAgain, last, opened, free, found⟩ := run_atomicReplace replacement
  simp only [seenAt_seenAt] at mutatedAgain opened free found
  obtain ⟨rfl, _, linkless, _⟩ := mutation_ok (seenAt_real real) mutated
  obtain ⟨rfl, _, _, above⟩ := mutation_ok (seenAt_real real) mutatedAgain
  rw [same] at linkless last opened above
  have split : names input = (names input).dropLast ++ [name] := (List.dropLast_append_getLast? name last).symm
  have directory := above _ _ split
  have whole : workspace.root ++ (names input).dropLast ++ [name] = workspace.root ++ names input := by
    rw [List.append_assoc, ← split]
  have later : (seenAt (workspace.root ++ names input) gaps place (mutation.checks + 1 + 1) world).tree.Real
      (workspace.root ++ (names input).dropLast) := by
    rw [← seenAt_next]
    exact .directory (meanwhile_isDirectory directory)
  rw [← List.append_nil ((names input).dropLast.map Segment.name), resolve_names later, resolve_nil] at opened
  cases opened
  rw [whole] at free found
  have named : names input ≠ [] := by
    rw [split]
    exact List.append_ne_nil_of_right_ne_nil _ (List.cons_ne_nil _ _)
  refine ⟨named, ?_, linkless, held, found⟩
  by_contra blocked
  have idle : ∀ count, seenAt (workspace.root ++ names input) gaps place count world = world :=
    fun count => meanwhile_blocked blocked
  rw [idle] at directory free
  refine blocked ⟨List.append_ne_nil_of_right_ne_nil _ named, ?_, free⟩
  · rw [← whole, List.dropLast_concat]
    exact directory

/-- An admitted mutation replaces what its check has found, unless others wrote since. -/
theorem replaced_latest (real : world.tree.Real workspace.root)
    (run_ : run (otherWrite (workspace.root ++ names input)) gaps
      (Stepwise.replaceContent C workspace now target input (some expected) mutation).run place world =
        (.ok replaced, next, world')) :
    replaced = latest (between gaps (place + 2) (mutation.checks + 3))
      ((seenAt (workspace.root ++ names input) gaps place 2 world).tree.node (workspace.root ++ names input)) := by
  obtain ⟨_, ⟨inner, directory, free⟩, _, _, found⟩ := run_replaceContent real run_
  have directory' : (seenAt (workspace.root ++ names input) gaps place 2 world).tree.isDirectory
      (workspace.root ++ names input).dropLast = true := meanwhile_isDirectory directory
  have free' : (seenAt (workspace.root ++ names input) gaps place 2 world).tree.isDirectory
      (workspace.root ++ names input) = false := meanwhile_free free
  have count : mutation.checks + 5 = 2 + (mutation.checks + 3) := by omega
  rw [found, count, seenAt_node inner directory' free']

/-- The check of a digest has seen the bytes under it. -/
theorem replaced_checked (real : world.tree.Real workspace.root) (accepted : lexical input = .ok input)
    (modifies : mutation.creates = false)
    (run_ : run (otherWrite (workspace.root ++ names input)) gaps
      (Stepwise.replaceContent C workspace now target input (some expected) mutation).run place world =
        (.ok replaced, next, world')) :
    ∃ checked : FileData, C.sha256 checked.bytes = expected ∧
      replaced = latest (between gaps (place + 2) (mutation.checks + 3)) (some (.file checked)) := by
  have found := replaced_latest real run_
  obtain ⟨_, _, linkless, held, _⟩ := run_replaceContent real run_
  rw [modifies] at held
  obtain ⟨checked, read, digest⟩ := held
  rw [readFile_joined (seenAt_real real) accepted (@seenAt_linkless _ _ _ _ _ _ 1 1 linkless) read] at found
  exact ⟨checked, digest, found⟩

/-- The test for a missing file is right about a path that ends in a name. -/
theorem missing_named {tree : Files} (real : tree.Real workspace.root) (accepted : lexical input = .ok input)
    (linkless : tree.Linkless workspace.root (names input)) (inner : names input ≠ [])
    (missing : (canonicalize C.toHost tree (workspace.joined input)).toBool = false) (named : NameLast input) :
    tree.node (workspace.root ++ names input) = none := by
  by_contra stands
  obtain ⟨node, held⟩ := Option.ne_none_iff_exists'.mp stands
  obtain ⟨above, name, split⟩ := (List.eq_nil_or_concat (names input)).resolve_left inner
  rw [List.concat_eq_append] at split
  have plain : node.isLink = false := by
    refine linkless above name [] split node ?_
    rw [List.append_assoc, ← split]
    exact held
  obtain ⟨last, ends⟩ := named
  rw [canonicalize_joined real] at missing
  have resolved := @resolve_named _ _ tree C.maxLinks workspace.root _ last (lexical_level accepted) ends
    ⟨node, held, plain⟩
  rw [resolved] at missing
  cases missing

end Mutations

/-- What was read is what is replaced if and only if no other content came in between the reading and the hashing, or
behind the check; and a creation replaces nothing if and only if nothing came in behind its test, which takes a file
for missing when its path is spelled with something behind the name. -/
theorem replaces_read_content_iff (collisionFree : Function.Injective C.sha256) (accepted : lexical input = .ok input) :
    (∀ {world read changed : FileWorld} {spelled shown target : OsStr} {seen gaps : Nat → List FileData}
        {max now next last : Nat} {output answer : ToolOutput} {bytes : List UInt8} {hash : String}
        {mutation : Stepwise.Mutation} {replaced : Option FileNode},
      workspace.read C.toHost world.tree spelled = .ok (workspace.root ++ names input) →
      run (otherWrite (workspace.root ++ names input)) seen
        (Stepwise.executeRead C shown (workspace.root ++ names input) max).run 0 world =
          (.ok (output, bytes), next, read) →
      output.value.get? "sha256" = some (.string hash) →
      mutation.creates = false →
      run (otherWrite (workspace.root ++ names input)) gaps
        (Stepwise.executeMutation C workspace now target input (some hash) mutation).run 0 read =
          (.ok (answer, replaced), last, changed) →
      ((∃ data, replaced = some (.file data) ∧ data.bytes = bytes) ↔
        ∀ write ∈ (seen 1 ++ between gaps 2 (mutation.checks + 3)).getLast?, write.bytes = bytes)) ∧
    (∀ {world changed : FileWorld} {target : OsStr} {gaps : Nat → List FileData} {now last : Nat} {hash : Option String}
        {content : String} {replaced : Option FileNode},
      world.tree.Real workspace.root →
      run (otherWrite (workspace.root ++ names input)) gaps
        (Stepwise.replaceContent C workspace now target input hash (.write content true)).run 0 world =
          (.ok replaced, last, changed) →
      (replaced = none ↔ between gaps 2 5 = [] ∧ (NameLast input ∨
        (seenAt (workspace.root ++ names input) gaps 0 2 world).tree.node (workspace.root ++ names input) = none))) := by
  constructor
  · intro world read changed spelled shown target seen gaps max now next last output answer bytes hash mutation replaced
      prepared reading digest modifies mutated
    obtain ⟨data, hashed, decoded, rfl, rehashed, text, later⟩ := run_executeRead reading
    have there := read_real prepared
    rw [readFile_real (seenAt_real there)] at decoded rehashed
    have after := @seenAt_file _ _ _ _ 1 1 _ decoded
    rw [rehashed, between_one] at after
    have real : read.tree.Real workspace.root := later ▸ seenAt_real there.above
    simp only [Stepwise.executeMutation, run_bind_ok, run_given_ok, Except.ok.injEq, Prod.mk.injEq] at mutated
    obtain ⟨_, _, _, replacement, _, _, _, _, ⟨_, rfl⟩, _, _⟩ := mutated
    obtain ⟨checked, fresh, rfl⟩ := replaced_checked real accepted modifies replacement
    rw [digest] at text
    cases text
    exact latest_same after.symm (collisionFree fresh)
  · intro world changed target gaps now last hash content replaced real mutated
    have same : Stepwise.replaceContent C workspace now target input hash (.write content true) =
        Stepwise.replaceContent C workspace now target input (some "") (.write content true) := rfl
    rw [same] at mutated
    have found := replaced_latest real mutated
    obtain ⟨named, _, linkless, missing, _⟩ := run_replaceContent real mutated
    rw [found, latest_none]
    refine and_congr_right fun _ => ⟨.inr, ?_⟩
    rintro (ends | missing')
    · exact missing_named (seenAt_real real) accepted (@seenAt_linkless _ _ _ _ _ _ 1 1 linkless) named missing ends
    · exact missing'

end Runs

/-- SHA-256 of two contents, and other texts for all others. -/
def sampleDigest (bytes : List UInt8) : String :=
  if bytes = toBytes "text" then "982d9e3eb996f559e633f4d194def3761d909f5a3b647d1a851fead67c32c9d1"
  else if bytes = toBytes "more" then "187897ce0afcf20b50ba2b37dca84a951b7046f29ed5ab94f010619f69d6e189"
  else String.ofList ('?' :: bytes.map fun b => Char.ofNat b.toNat)

theorem sampleDigest_injective : Function.Injective sampleDigest := by
  have number : ∀ b : UInt8, (Char.ofNat b.toNat).toNat = b.toNat := by
    intro b
    have small : b.toNat.isValidChar := .inl (b.toNat_lt.trans (by decide))
    rw [Char.ofNat, dif_pos small]
    rfl
  have legible : Function.Injective fun b : UInt8 => Char.ofNat b.toNat := by
    intro a b same
    have numbers := congrArg Char.toNat same
    dsimp only at numbers
    rw [number, number] at numbers
    exact UInt8.toNat_inj.mp numbers
  have marked : ∀ (bytes : List UInt8) (text : String), text.toList.head? ≠ some '?' →
      String.ofList ('?' :: bytes.map fun b => Char.ofNat b.toNat) ≠ text := by
    rintro bytes _ other rfl
    exact other (by rw [String.toList_ofList]; rfl)
  intro a b same
  unfold sampleDigest at same
  split at same
  case isTrue text =>
    split at same
    case isTrue text' => rw [text, text']
    case isFalse =>
      split at same
      case isTrue => exact absurd same (by decide)
      case isFalse => exact absurd same.symm (marked b _ (by decide))
  case isFalse other =>
    split at same
    case isTrue more =>
      split at same
      case isTrue => exact absurd same (by decide)
      case isFalse =>
        split at same
        case isTrue more' => rw [more, more']
        case isFalse => exact absurd same.symm (marked b _ (by decide))
    case isFalse =>
      split at same
      case isTrue => exact absurd same (marked a _ (by decide))
      case isFalse =>
        split at same
        case isTrue => exact absurd same (marked a _ (by decide))
        case isFalse => exact legible.list_map (List.cons.inj (String.ofList_injective same)).2

def digestCrates : Crates := { sampleCrates with sha256 := sampleDigest }

def sampleWorkspace : WorkspacePath := ⟨[toBytes "w"], true⟩

def notesFile : OsStr := toBytes "notes.txt"

def newFile : OsStr := toBytes "new.txt"

/-- Writes before one step only. -/
def onlyAt (place : Nat) (foreign : List FileData) (here : Nat) : List FileData := if here = place then foreign else []

/-- A reading of the sample file, before whose second step another program may write. -/
def readNotes (foreign : List FileData) : Except ToolError (ToolOutput × List UInt8) × Nat × FileWorld :=
  run (otherWrite (sampleWorkspace.root ++ names notesFile)) (onlyAt 1 foreign)
    (Stepwise.executeRead digestCrates notesFile (sampleWorkspace.root ++ names notesFile) DEFAULT_CAP).run 0
    ⟨sampleFiles, fun _ => none⟩

def writeNotes (hash content : String) (world : FileWorld) :
    Except ToolError (ToolOutput × Option FileNode) × Nat × FileWorld :=
  run (otherWrite (sampleWorkspace.root ++ names notesFile)) (fun _ => [])
    (Stepwise.executeMutation digestCrates sampleWorkspace 1 notesFile notesFile (some hash) (.write content false)).run 0
    world

/-- A creation, before whose fourth step another program may write. -/
def createNew (foreign : List FileData) : Except ToolError (Option FileNode) × Nat × FileWorld :=
  run (otherWrite (sampleWorkspace.root ++ names newFile)) (onlyAt 3 foreign)
    (Stepwise.replaceContent digestCrates sampleWorkspace 1 newFile newFile none (.write "text" true)).run 0
    ⟨sampleFiles, fun _ => none⟩

def textDigest : String := sampleDigest (toBytes "text")

def moreDigest : String := sampleDigest (toBytes "more")

def readOutput (digest : String) (modified : Nat) : ToolOutput :=
  ⟨.ofMembers [("content", .string "text"), ("sha256", .string digest), ("size", .ofNat 4),
    ("modified_ns", .ofNat modified)], false⟩

def writeOutput (digest : String) : ToolOutput := ⟨.ofMembers [("sha256", .string digest), ("size", .ofNat 4)], false⟩

theorem finished {α : Type} {outcome : α × Nat × FileWorld} {a : α} (result : outcome.1 = a) :
    outcome = (a, outcome.2.1, outcome.2.2) := by
  rw [← result]

theorem sampleRoot_real : sampleFiles.Real sampleWorkspace.root := ⟨.directory, by decide +kernel, rfl⟩

theorem notes_read : sampleWorkspace.read digestCrates.toHost sampleFiles notesFile =
    .ok (sampleWorkspace.root ++ names notesFile) := by decide +kernel

theorem replaces_read_content_notes :
    ((∃ data, (writeNotes textDigest "more" (readNotes []).2.2).1 = .ok (writeOutput moreDigest, some (.file data)) ∧
        data.bytes = toBytes "text") ↔
      ∀ write ∈ (onlyAt 1 [] 1 ++ between (fun _ => []) 2 6).getLast?, FileData.bytes write = toBytes "text") ∧
    ((createNew []).1 = .ok none ↔ between (onlyAt 3 []) 2 5 = [] ∧ (NameLast newFile ∨
      (seenAt (sampleWorkspace.root ++ names newFile) (onlyAt 3 []) 0 2 ⟨sampleFiles, fun _ => none⟩).tree.node
        (sampleWorkspace.root ++ names newFile) = none)) := by
  have read : (readNotes []).1 = .ok (readOutput textDigest 0, toBytes "text") := by decide +kernel
  have written : (writeNotes textDigest "more" (readNotes []).2.2).1 =
      .ok (writeOutput moreDigest, some (.file ⟨toBytes "text", 0⟩)) := by decide +kernel
  have created : (createNew []).1 = .ok none := by decide +kernel
  have first := (@replaces_read_content_iff digestCrates sampleWorkspace notesFile sampleDigest_injective
    (by decide +kernel)).1 notes_read (finished read) (by decide +kernel) rfl (finished written)
  have second := (@replaces_read_content_iff digestCrates sampleWorkspace newFile sampleDigest_injective
    (by decide +kernel)).2 sampleRoot_real (finished created)
  constructor
  · rw [written]
    simp only [Except.ok.injEq, Prod.mk.injEq, true_and]
    exact first
  · rw [created, Except.ok.injEq]
    exact second

/-- The digest of a content that was never shown lets it be overwritten, and so does a creation that comes too late. -/
theorem unseen_overwritten :
    (¬ ∀ (C : Crates) (workspace : WorkspacePath) (input : OsStr), Function.Injective C.sha256 →
      lexical input = .ok input →
      ∀ (world read changed : FileWorld) (spelled shown target : OsStr) (seen gaps : Nat → List FileData)
        (max now next last : Nat) (output answer : ToolOutput) (bytes : List UInt8) (hash : String)
        (mutation : Stepwise.Mutation) (replaced : Option FileNode),
      workspace.read C.toHost world.tree spelled = .ok (workspace.root ++ names input) →
      run (otherWrite (workspace.root ++ names input)) seen
        (Stepwise.executeRead C shown (workspace.root ++ names input) max).run 0 world =
          (.ok (output, bytes), next, read) →
      output.value.get? "sha256" = some (.string hash) →
      mutation.creates = false →
      run (otherWrite (workspace.root ++ names input)) gaps
        (Stepwise.executeMutation C workspace now target input (some hash) mutation).run 0 read =
          (.ok (answer, replaced), last, changed) →
      ∃ data, replaced = some (.file data) ∧ data.bytes = bytes) ∧
    (¬ ∀ (C : Crates) (workspace : WorkspacePath) (input : OsStr), Function.Injective C.sha256 →
      lexical input = .ok input →
      ∀ (world changed : FileWorld) (target : OsStr) (gaps : Nat → List FileData) (now last : Nat) (hash : Option String)
        (content : String) (replaced : Option FileNode), world.tree.Real workspace.root →
      run (otherWrite (workspace.root ++ names input)) gaps
        (Stepwise.replaceContent C workspace now target input hash (.write content true)).run 0 world =
          (.ok replaced, last, changed) →
      replaced = none) := by
  have read : (readNotes [⟨toBytes "more", 1⟩]).1 = .ok (readOutput moreDigest 1, toBytes "text") := by decide +kernel
  have written : (writeNotes moreDigest "text" (readNotes [⟨toBytes "more", 1⟩]).2.2).1 =
      .ok (writeOutput textDigest, some (.file ⟨toBytes "more", 1⟩)) := by decide +kernel
  have created : (createNew [⟨toBytes "more", 1⟩]).1 = .ok (some (.file ⟨toBytes "more", 1⟩)) := by decide +kernel
  constructor
  · intro claim
    obtain ⟨data, found, same⟩ := claim digestCrates sampleWorkspace notesFile sampleDigest_injective (by decide +kernel)
      _ _ _ _ _ _ _ _ _ _ _ _ _ _ _ _ _ _ notes_read (finished read) (by decide +kernel) rfl (finished written)
    cases found
    exact absurd same (by decide +kernel)
  · intro claim
    have none_ := claim digestCrates sampleWorkspace newFile sampleDigest_injective (by decide +kernel)
      _ _ _ _ _ _ _ _ _ sampleRoot_real (finished created)
    cases none_

end LatteCode.Engine
