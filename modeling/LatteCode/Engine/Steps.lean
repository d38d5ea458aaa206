import LatteCode.Engine.Tools
import LatteCode.Lib.Interleaving
/- The file tools as programs of file-system steps, among which other programs write. -/

namespace LatteCode.Engine
open FileTree Interleaving Outcome Program

/-- The files, and what the registry has noted of those it read. -/
structure FileWorld where
  tree : Files
  snapshots : OsStr → Option FileIdentity

abbrev FileCall (α : Type) := ExceptT ToolError (Program FileWorld) α

abbrev FileNode := Node OsStr FileData

namespace Stepwise

variable (C : Crates) (workspace : WorkspacePath)

/-- A step that only looks at the files. -/
def look {α : Type} (answer : Files → Except ToolError α) : FileCall α := query fun world => answer world.tree

/-- The content and the metadata are read one after the other. -/
def identity (path : List (Segment OsStr)) : FileCall FileIdentity := do
  let data ← look fun tree => pathed C ((readFile C.toHost tree path).mapError .io)
  let metadata ← look fun tree => pathed C ((readFile C.toHost tree path).mapError .io)
  given (.ok ⟨C.sha256 data.bytes, metadata.bytes.length, metadata.modifiedNs⟩)

/-- The result is what the renamed file has replaced. -/
def atomicReplace (input : OsStr) (data : FileData) (create : Bool) : FileCall (Option FileNode) := do
  given (pathed C workspace.validateMutationSupport)
  let target ← look fun tree => pathed C (workspace.mutation C.toHost tree input create)
  let name ← given (pathed C (require (names target).getLast? .invalid))
  let parent ← look fun tree => pathed C
    ((tree.resolve C.maxLinks workspace.root ((names target).dropLast.map .name)).mapError .io)
  look fun tree => pathed C (ensure ((tree.node (parent ++ [name])).any Node.isLink = false) (.symlink input))
  -- the temporary file beside it is created, written and synced
  look fun _ => .ok ()
  attempt fun world => (pathed C ((world.tree.replace parent name data).mapError .io)).map fun tree =>
    (world.tree.node (parent ++ [name]), { world with tree })

/-- The output, and the bytes that its text is decoded from. -/
def executeRead (target : OsStr) (path : List OsStr) (max : Nat) : FileCall (ToolOutput × List UInt8) := do
  let data ← look fun tree => (readFile C.toHost tree (path.map .name)).mapError .io
  let id ← identity C (path.map .name)
  attempt fun world => .ok ((), { world with snapshots := Function.update world.snapshots target (some id) })
  let (text, truncated) := bounded (fromUtf8Lossy data.bytes) max
  given (.ok (⟨.ofMembers [("content", .string text), ("sha256", .string id.hash), ("size", .ofNat id.size),
    ("modified_ns", .ofNat id.modifiedNs)], truncated⟩, data.bytes))

def requireFresh (target path : OsStr) (expectedHash : Option String) : FileCall Unit := do
  let actual ← identity C (workspace.joined path)
  match expectedHash with
  | some hash => given (ensure (actual.hash = hash) (.stale target))
  | none => query fun world => do
      let expected ← require (world.snapshots target) (.readRequired target)
      ensure (actual = expected) (.stale target)

def checkTarget (target path : OsStr) (create : Bool) : FileCall Unit := do
  let checked ← look fun tree => pathed C (workspace.mutation C.toHost tree target create)
  given (ensure (names checked = names path) (.path "target identity changed before mutation"))

/-- A mutation of the tools. -/
inductive Mutation where
  | edit (before after : String)
  | write (content : String) (create : Bool)
deriving DecidableEq

def Mutation.creates : Mutation → Bool
  | .edit .. => false
  | .write _ create => create

/-- The steps of a mutation before its replacement begins. -/
def Mutation.checks : Mutation → Nat
  | .edit .. => 4
  | .write _ false => 3
  | .write _ true => 2

/-- The new content, once everything is checked. -/
def newContent (target path : OsStr) (expectedHash : Option String) : Mutation → FileCall String
  | .edit before after => do
      checkTarget C workspace target path false
      requireFresh C workspace target path expectedHash
      let content ← look fun tree => readToString C tree (workspace.joined path)
      let count := countMatches before.toList (content.length + 1) content.toList
      given (ensure (count = 1) (.matchCount count))
      given (.ok (replaceFirst content before after))
  | .write content create => do
      checkTarget C workspace target path create
      if create then
        look fun tree => ensure ((canonicalize C.toHost tree (workspace.joined path)).toBool = false)
          (.input "create_intent requires a missing target")
      else
        requireFresh C workspace target path expectedHash
      given (.ok content)

/-- An edit or a write up to its rename: what was replaced. -/
def replaceContent (now : Nat) (target path : OsStr) (expectedHash : Option String) (mutation : Mutation) :
    FileCall (Option FileNode) := do
  let content ← newContent C workspace target path expectedHash mutation
  atomicReplace C workspace target ⟨toBytes content, now⟩ mutation.creates

/-- `execute` of an edit or a write: the output, and what was replaced. -/
def executeMutation (now : Nat) (target path : OsStr) (expectedHash : Option String) (mutation : Mutation) :
    FileCall (ToolOutput × Option FileNode) := do
  let replaced ← replaceContent C workspace now target path expectedHash mutation
  let id ← identity C (workspace.joined path)
  given (.ok (⟨.ofMembers [("sha256", .string id.hash), ("size", .ofNat id.size)], false⟩, replaced))

section Alone

variable {C} {registry : ToolRegistry} {target path : OsStr}

theorem asks_look {α : Type} {answer : Files → Except ToolError α} :
    Asks (look answer) fun world => answer world.tree := asks_query

theorem asks_identity {path : List (Segment OsStr)} :
    Asks (identity C path) fun world => pathed C (Engine.identity C.toHost world.tree path) := by
  refine (asks_look.bind fun data => asks_look.bind fun metadata => asks_given).congr fun world => ?_
  rw [Engine.identity]
  cases readFile C.toHost world.tree path <;> rfl

theorem asks_requireFresh {expectedHash : Option String} : Asks (requireFresh C registry.workspace target path expectedHash)
    fun world => Engine.requireFresh C { registry with snapshots := world.snapshots } world.tree target path
      expectedHash := by
  cases expectedHash with
  | none => exact asks_identity.bind fun actual => asks_query
  | some hash => exact asks_identity.bind fun actual => asks_given

theorem asks_checkTarget {create : Bool} : Asks (checkTarget C registry.workspace target path create)
    fun world => Engine.checkTarget C registry world.tree target path create :=
  asks_look.bind fun _ => asks_given

/-- The checks of an edit or a write on one state of the files. -/
def admitted (C : Crates) (registry : ToolRegistry) (tree : Files) (target path : OsStr) (expectedHash : Option String) :
    Mutation → Except ToolError String
  | .edit before after => admitEdit C registry tree target path before after expectedHash
  | .write content create => admitWrite C registry tree target path content create expectedHash

theorem asks_newContent {expectedHash : Option String} {mutation : Mutation} :
    Asks (newContent C registry.workspace target path expectedHash mutation) fun world =>
      admitted C { registry with snapshots := world.snapshots } world.tree target path expectedHash mutation := by
  cases mutation with
  | edit before after =>
      exact asks_checkTarget.bind fun _ => asks_requireFresh.bind fun _ => asks_look.bind fun _ =>
        asks_given.bind fun _ => asks_given
  | write content create =>
      cases create with
      | true => exact asks_checkTarget.bind fun _ => asks_look.bind fun _ => asks_given
      | false => exact asks_checkTarget.bind fun _ => asks_requireFresh.bind fun _ => asks_given

theorem ok_bind {ε α β : Type} {a : α} {f : α → Except ε β} : (Except.ok a >>= f) = f a := rfl

theorem error_bind {ε α β : Type} {error : ε} {f : α → Except ε β} : (Except.error error >>= f) = .error error := rfl

variable {tree : Files}

/-- A reading that nothing disturbs is the reading of one state of the files. -/
theorem executeRead_alone {path : List OsStr} {max : Nat} :
    ((alone (executeRead C target path max).run ⟨tree, registry.snapshots⟩).1.map Prod.fst,
      (alone (executeRead C target path max).run ⟨tree, registry.snapshots⟩).2) =
    ((Engine.executeRead C registry tree target path max).result,
      ⟨(Engine.executeRead C registry tree target path max).tree,
        (Engine.executeRead C registry tree target path max).snapshots⟩) := by
  unfold executeRead Engine.executeRead readContent
  rw [alone_bind_fallible, asks_look]
  dsimp only
  cases readFile C.toHost tree (path.map .name) with
  | error => rfl
  | ok data =>
      simp only [Except.mapError, ok_bind]
      rw [alone_bind_fallible, asks_identity]
      dsimp only
      cases pathed C (Engine.identity C.toHost tree (path.map .name)) <;> rfl

theorem atomicReplace_alone {input : OsStr} {data : FileData} {create : Bool} {world : FileWorld} :
    ((alone (atomicReplace C registry.workspace input data create).run world).1.map fun _ => (),
      (alone (atomicReplace C registry.workspace input data create).run world).2) =
    match registry.workspace.atomicReplace C.toHost world.tree input data create with
    | .error error => (.error (.path (error.text C.toHost)), world)
    | .ok replaced => (.ok (), { world with tree := replaced }) := by
  unfold atomicReplace WorkspacePath.atomicReplace
  rw [alone_bind_fallible, asks_given]
  dsimp only
  cases registry.workspace.validateMutationSupport with
  | error => rfl
  | ok =>
  simp only [pathed, Except.mapError, ok_bind]
  rw [alone_bind_fallible, asks_look]
  dsimp only
  cases registry.workspace.mutation C.toHost world.tree input create with
  | error => rfl
  | ok path =>
  simp only [Except.mapError, ok_bind]
  rw [alone_bind_fallible, asks_given]
  dsimp only
  cases require (names path).getLast? PathError.invalid with
  | error => rfl
  | ok name =>
  simp only [Except.mapError, ok_bind]
  rw [alone_bind_fallible, asks_look]
  dsimp only
  cases world.tree.resolve C.maxLinks registry.workspace.root ((names path).dropLast.map .name) with
  | error => rfl
  | ok parent =>
  simp only [Except.mapError, ok_bind]
  rw [alone_bind_fallible, asks_look]
  dsimp only
  cases ensure ((world.tree.node (parent ++ [name])).any Node.isLink = false) (PathError.symlink input) with
  | error => rfl
  | ok =>
  simp only [Except.mapError, ok_bind]
  rw [alone_bind_fallible, asks_look]
  dsimp only
  rw [alone_attempt]
  cases world.tree.replace parent name data <;> rfl

/-- The same for a mutation: undisturbed, it is the rewriting of one state of the files. -/
theorem executeMutation_alone {now : Nat} {expectedHash : Option String} {mutation : Mutation} :
    ((alone (executeMutation C registry.workspace now target path expectedHash mutation).run
        ⟨tree, registry.snapshots⟩).1.map Prod.fst,
      (alone (executeMutation C registry.workspace now target path expectedHash mutation).run
        ⟨tree, registry.snapshots⟩).2) =
    let execution := rewrite C registry tree now target path mutation.creates
      (admitted C registry tree target path expectedHash mutation)
    (execution.result, ⟨execution.tree, execution.snapshots⟩) := by
  unfold executeMutation replaceContent rewrite
  rw [alone_bind_fallible, alone_bind_fallible, asks_newContent]
  dsimp only
  cases admitted C registry tree target path expectedHash mutation with
  | error => rfl
  | ok content =>
  dsimp only
  have replaced := @atomicReplace_alone C registry target ⟨toBytes content, now⟩ mutation.creates
    ⟨tree, registry.snapshots⟩
  generalize alone (atomicReplace C registry.workspace target ⟨toBytes content, now⟩ mutation.creates).run
    ⟨tree, registry.snapshots⟩ = outcome at replaced
  obtain ⟨result, world⟩ := outcome
  cases made : registry.workspace.atomicReplace C.toHost tree target ⟨toBytes content, now⟩ mutation.creates with
  | error error =>
      rw [made] at replaced
      cases result with
      | error => cases replaced; rfl
      | ok => cases replaced
  | ok tree' =>
      rw [made] at replaced
      cases result with
      | error => cases replaced
      | ok node =>
          cases replaced
          dsimp only
          rw [alone_bind_fallible, asks_identity]
          dsimp only
          cases pathed C (Engine.identity C.toHost tree' (registry.workspace.joined path)) <;> rfl

end Alone

end Stepwise

end LatteCode.Engine
