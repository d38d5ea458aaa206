import LatteCode.Engine.Workspace
import LatteCode.Lib.Lines
/- The file tools: how an invocation is prepared, decided by the policy, and executed. -/

namespace LatteCode.Engine
open FileTree Lines Outcome

def DEFAULT_CAP : Nat := 64 * 1024

/-! ## Policy -/

inductive EffectClass where
  | read
  | create
  | modify
deriving DecidableEq

inductive PolicyDecision where
  | allow
  | ask
  | deny
deriving DecidableEq

inductive PolicyError where
  | invalidGlob (message : String)
deriving DecidableEq

def PolicyError.text : PolicyError → String
  | .invalidGlob message => "invalid deny glob: " ++ message

structure OperationBinding where
  descriptorVersion : Nat
  turnRevision : Nat
  effectId : String
  attempt : Nat
  tool : String
  target : OsStr
  input : Json
  precondition : Option String
  timeoutMs : Nat
  outputCap : Nat
  policyVersion : Nat
  leaseOwner : String
  leaseToken : Nat

/-- What the tools take from other crates: globs, expressions, the directory walk, digests, and `git`. -/
structure Crates extends Host where
  /-- The paths that one of the globs matches. -/
  globset : List String → Except String (OsStr → Bool)
  regex : String → Except String (String → Bool)
  /-- The entries below a root in the order of the walk, which follows no links. -/
  walk : Files → List OsStr → List (List OsStr)
  readDir : Files → List OsStr → List OsStr
  digest : OperationBinding → String
  gitDiff : Files → Nat → Except String (String × Bool)

structure PermissionPolicy where
  denies : OsStr → Bool
  version : Nat

def PermissionPolicy.new (C : Crates) (deny : List String) (version : Nat) : Except PolicyError PermissionPolicy := do
  let denies ← (C.globset deny).mapError .invalidGlob
  .ok ⟨denies, version⟩

def PermissionPolicy.decide (policy : PermissionPolicy) (effect : EffectClass) (target : OsStr) : PolicyDecision :=
  if policy.denies target then .deny else if effect = .read then .allow else .ask

/-! ## Preparation -/

inductive ToolError where
  | unknown (name : String)
  | input (message : String)
  | path (message : String)
  | readRequired (target : OsStr)
  | stale (target : OsStr)
  | matchCount (count : Nat)
  | io (fault : Fault)
  | regex (message : String)
  | git (message : String)
deriving DecidableEq

/-- A path that is joined to the root stands for itself below the root. -/
inductive Action where
  | read (path : List OsStr) (max : Nat)
  | list (path : List OsStr) (max : Nat)
  | search (query : String) (regex : Bool) (maxResults maxOutput : Nat)
  | manifest (max : Nat)
  | edit (path : OsStr) (before after : String)
  | write (path : OsStr) (content : String) (create : Bool)
  | gitDiff (max : Nat)
deriving DecidableEq

structure Prepared where
  target : OsStr
  effect : EffectClass
  action : Action
  expectedHash : Option String
deriving DecidableEq

section Fields

variable (v : Json) (key : String)

def string : Except ToolError String :=
  require (((v.get? key).bind Json.asStr).filter (· ≠ "")) (.input (key ++ " must be a non-empty string"))

def boolField (default : Bool) : Except ToolError Bool :=
  match v.get? key with
  | none => .ok default
  | some value => require value.asBool (.input (key ++ " must be boolean"))

def usizeField (default min max : Nat) : Except ToolError Nat := do
  let n ← match v.get? key with
    | none => .ok default
    | some value => require value.asU64 (.input (key ++ " must be an integer"))
  ensure (min ≤ n ∧ n ≤ max) (.input (key ++ " is out of bounds"))
  .ok n

end Fields

section Preparation

variable (C : Crates) (workspace : WorkspacePath) (tree : Files)

/-- `?` on a result of `WorkspacePath`. -/
def pathed {α : Type} (result : Except PathError α) : Except ToolError α :=
  result.mapError fun error => .path (error.text C.toHost)

def editBefore (input : Json) : Except ToolError String :=
  require ((((input.get? "before").or (input.get? "anchor")).bind Json.asStr).filter (· ≠ ""))
    (.input "before or anchor must be a non-empty string")

/-- The target and the action of a tool. -/
def prepareAction (name : String) (input : Json) : Except ToolError (OsStr × Action) :=
  let path : Except ToolError OsStr := (string input "path").map toBytes
  let max := usizeField input "max_output" DEFAULT_CAP 1 DEFAULT_CAP
  if name = "read_file" then do
    let p ← path
    let target ← pathed C (display p)
    let path ← pathed C (workspace.read C.toHost tree p)
    let max ← max
    .ok (target, .read path max)
  else if name = "list_directory" then do
    let p ← path
    let target ← pathed C (display p)
    let path ← pathed C (workspace.read C.toHost tree p)
    let max ← usizeField input "max_entries" 1000 1 10000
    .ok (target, .list path max)
  else if name = "search" then do
    let query ← string input "query"
    let regex ← boolField input "regex" false
    let maxResults ← usizeField input "max_results" 100 1 10000
    let max ← max
    .ok (toBytes ".", .search query regex maxResults max)
  else if name = "read_project_manifest" then do
    let max ← max
    .ok (toBytes ".", .manifest max)
  else if name = "edit_file" then do
    let p ← path
    let before ← editBefore input
    let target ← pathed C (display p)
    let path ← pathed C (workspace.mutation C.toHost tree p false)
    let after ← string input "after"
    .ok (target, .edit path before after)
  else if name = "write_file" then do
    let p ← path
    let create ← boolField input "create_intent" false
    let target ← pathed C (display p)
    let path ← pathed C (workspace.mutation C.toHost tree p create)
    let content ← string input "content"
    .ok (target, .write path content create)
  else if name = "git_diff" then do
    let max ← max
    .ok (toBytes ".", .gitDiff max)
  else .error (.unknown name)

def Action.creates : Action → Bool
  | .write _ _ true => true
  | _ => false

def prepare (name : String) (effect : EffectClass) (input : Json) : Except ToolError Prepared := do
  let (target, action) ← prepareAction C workspace tree name input
  .ok ⟨target, if action.creates then .create else effect, action, none⟩

end Preparation

structure ToolInvocation where
  name : String
  input : Json
  turnRevision : Nat
  effectId : String
  attempt : Nat
  precondition : Option String
  timeoutMs : Nat
  outputCap : Nat
  leaseOwner : String
  leaseToken : Nat

def toolSpecs : List (String × EffectClass) := [
  ("read_file", .read), ("list_directory", .read), ("search", .read), ("read_project_manifest", .read),
  ("edit_file", .modify), ("write_file", .modify), ("git_diff", .read)]

structure ToolRegistry where
  workspace : WorkspacePath
  policy : PermissionPolicy
  tools : List (String × EffectClass)
  snapshots : OsStr → Option FileIdentity

def ToolRegistry.new (C : Crates) (tree : Files) (root : List (Segment OsStr)) (supported : Bool)
    (enabled : Option (List String)) (denies : List String) : Except ToolError ToolRegistry := do
  let workspace ← pathed C (WorkspacePath.new C.toHost tree root supported)
  let policy ← (PermissionPolicy.new C denies 1).mapError fun error => .input error.text
  .ok ⟨workspace, policy, toolSpecs.filter fun spec => enabled.all (·.contains spec.1), fun _ => none⟩

def ToolRegistry.prepareForEngine (C : Crates) (registry : ToolRegistry) (tree : Files) (invocation : ToolInvocation) :
    Except ToolError (Prepared × PolicyDecision × String) := do
  let effect ← require (registry.tools.lookup invocation.name) (.unknown invocation.name)
  let prepared ← prepare C registry.workspace tree invocation.name effect invocation.input
  let () ← (if prepared.effect ≠ .read then pathed C registry.workspace.validateMutationSupport else .ok ())
  ensure (¬ (prepared.effect = .modify ∧ invocation.precondition = none)) (.readRequired prepared.target)
  let prepared := { prepared with expectedHash := invocation.precondition }
  let digest := C.digest {
    descriptorVersion := 1, turnRevision := invocation.turnRevision, effectId := invocation.effectId
    attempt := invocation.attempt, tool := invocation.name, target := prepared.target, input := invocation.input
    precondition := invocation.precondition, timeoutMs := invocation.timeoutMs, outputCap := invocation.outputCap
    policyVersion := registry.policy.version, leaseOwner := invocation.leaseOwner, leaseToken := invocation.leaseToken }
  .ok (prepared, registry.policy.decide prepared.effect prepared.target, digest)

/-! ## Texts -/

/-- `str::lines`. -/
def strLines (text : String) : List String :=
  let (complete, tail) := splitLines '\n' text.toList
  let stripped := complete.map fun line => if line.getLast? = some '\r' then line.dropLast else line
  (stripped ++ if tail = [] then [] else [tail]).map String.ofList

/-- The longest beginning of at most `max` bytes. -/
def takeBytes : Nat → List Char → List Char
  | _, [] => []
  | max, c :: rest => if c.utf8Size ≤ max then c :: takeBytes (max - c.utf8Size) rest else []

def bounded (text : String) (max : Nat) : String × Bool :=
  if text.utf8ByteSize ≤ max then (text, false) else (.ofList (takeBytes max text.toList), true)

/-- What stands before the first occurrence of a pattern, and behind it. -/
def splitFirst (pattern : List Char) : List Char → Option (List Char × List Char)
  | [] => if pattern = [] then some ([], []) else none
  | c :: rest =>
      if pattern <+: c :: rest then some ([], (c :: rest).drop pattern.length)
      else (splitFirst pattern rest).map fun (before, after) => (c :: before, after)

/-- `match_indices(pattern).count()` of a pattern that is not empty. -/
def countMatches (pattern : List Char) : Nat → List Char → Nat
  | 0, _ => 0
  | fuel + 1, text =>
      match splitFirst pattern text with
      | none => 0
      | some (_, after) => countMatches pattern fuel after + 1

/-- `replacen(pattern, replacement, 1)`. -/
def replaceFirst (text pattern replacement : String) : String :=
  match splitFirst pattern.toList text.toList with
  | none => text
  | some (before, after) => .ofList (before ++ replacement.toList ++ after)

/-! ## Execution -/

structure ToolOutput where
  value : Json
  truncated : Bool
deriving DecidableEq

/-- What an execution answers and leaves, with the paths whose content its output shows, and those it has replaced. -/
structure Execution where
  result : Except ToolError ToolOutput
  tree : Files
  snapshots : OsStr → Option FileIdentity
  shown : List (List OsStr)
  written : List (List OsStr)

section Execution

variable (C : Crates) (registry : ToolRegistry) (tree : Files)

/-- `fs::read_to_string`. -/
def readToString (path : List (Segment OsStr)) : Except ToolError String := do
  let data ← (readFile C.toHost tree path).mapError .io
  require (String.fromUTF8? ⟨data.bytes.toArray⟩) (.io .invalidData)

/-- An execution that changes no file. -/
def ToolRegistry.observes (result : Except ToolError (ToolOutput × List (List OsStr))) : Execution :=
  match result with
  | .ok (output, shown) => ⟨.ok output, tree, registry.snapshots, shown, []⟩
  | .error error => ⟨.error error, tree, registry.snapshots, [], []⟩

def readContent (path : List OsStr) (max : Nat) : Except ToolError (ToolOutput × FileIdentity) := do
  let data ← (readFile C.toHost tree (path.map .name)).mapError .io
  let id ← pathed C (identity C.toHost tree (path.map .name))
  let (text, truncated) := bounded (fromUtf8Lossy data.bytes) max
  .ok (⟨.ofMembers [("content", .string text), ("sha256", .string id.hash), ("size", .ofNat id.size),
    ("modified_ns", .ofNat id.modifiedNs)], truncated⟩, id)

def executeRead (target : OsStr) (path : List OsStr) (max : Nat) : Execution :=
  match readContent C tree path max with
  | .ok (output, id) => ⟨.ok output, tree, Function.update registry.snapshots target (some id), [path], []⟩
  | .error error => ⟨.error error, tree, registry.snapshots, [], []⟩

def listEntries (path : List OsStr) (max : Nat) : Except ToolError (ToolOutput × List (List OsStr)) := do
  ensure (tree.isDirectory path = true) (.io .notADirectory)
  let entries := ((C.readDir tree path).map fromUtf8Lossy).insertionSort (· ≤ ·)
  .ok (⟨.ofMembers [("entries", .ofStrings (entries.take max))], max < entries.length⟩, [path])

/-- A line that a search has found, in a file below the root. -/
structure Found where
  file : List OsStr
  item : String
deriving DecidableEq

def fileMatches (matcher : String → Bool) (file : List OsStr) (text : String) : List Found :=
  let rel := (fromUtf8Lossy (pathText file)).map fun c => if c = '\\' then '/' else c
  (strLines text).zipIdx.filterMap fun (line, i) =>
    if matcher line then some ⟨file, rel ++ ":" ++ toString (i + 1) ++ ":" ++ line⟩ else none

/-- The matching lines of all files of the walk. -/
def searchLines (matcher : String → Bool) : List Found :=
  (C.walk tree registry.workspace.root).flatMap fun file =>
    match tree.node (registry.workspace.root ++ file) with
    | some (.file data) => ((String.fromUTF8? ⟨data.bytes.toArray⟩).map (fileMatches matcher file)).getD []
    | _ => []

def collect (maxResults maxOutput : Nat) : List Found → List Found → Nat → List Found × Bool
  | [], results, _ => (results, false)
  | found :: rest, results, used =>
      if results.length = maxResults ∨ maxOutput < used + found.item.utf8ByteSize then (results, true)
      else collect maxResults maxOutput rest (results ++ [found]) (used + found.item.utf8ByteSize)

def matcherOf (query : String) (regex : Bool) : Except ToolError (String → Bool) :=
  if regex then (C.regex query).mapError .regex else .ok fun line => decide (query.toList <:+: line.toList)

def search (query : String) (regex : Bool) (maxResults maxOutput : Nat) :
    Except ToolError (ToolOutput × List (List OsStr)) := do
  let matcher ← matcherOf C query regex
  let (results, truncated) := collect maxResults maxOutput (searchLines C registry tree matcher) [] 0
  .ok (⟨.ofMembers [("matches", .ofStrings (results.map Found.item))], truncated⟩,
    results.map fun found => registry.workspace.root ++ found.file)

def manifestNames : List String := ["Cargo.toml", "package.json", "pyproject.toml", "go.mod"]

/-- The file at the root that a manifest name leads to. -/
def manifestFile (name : String) : Option (List OsStr) :=
  match canonicalize C.toHost tree (registry.workspace.root.map .name ++ [.name (toBytes name)]) with
  | .ok path =>
      match tree.node path with
      | some (.file _) => some path
      | _ => none
  | .error _ => none

def manifestStep (max : Nat) (progress : Fields × Bool × List (List OsStr)) (name : String) :
    Except ToolError (Fields × Bool × List (List OsStr)) :=
  match manifestFile C registry tree name with
  | none => .ok progress
  | some path => do
      let data ← readToString C tree (registry.workspace.root.map .name ++ [.name (toBytes name)])
      let (value, truncated) := bounded data max
      .ok (progress.1.insert name (.string value), progress.2.1 || truncated, progress.2.2 ++ [path])

def manifest (max : Nat) : Except ToolError (ToolOutput × List (List OsStr)) := do
  let (found, truncated, shown) ← manifestNames.foldlM (manifestStep C registry tree max) (.nil, false, [])
  .ok (⟨.object found, truncated⟩, shown)

def requireFresh (target path : OsStr) (expectedHash : Option String) : Except ToolError Unit := do
  let actual ← pathed C (identity C.toHost tree (registry.workspace.joined path))
  match expectedHash with
  | some hash => ensure (actual.hash = hash) (.stale target)
  | none =>
      let expected ← require (registry.snapshots target) (.readRequired target)
      ensure (actual = expected) (.stale target)

/-- The target is looked up again before a mutation, and must be the prepared path. -/
def checkTarget (target path : OsStr) (create : Bool) : Except ToolError Unit := do
  let checked ← pathed C (registry.workspace.mutation C.toHost tree target create)
  ensure (names checked = names path) (.path "target identity changed before mutation")

/-- What an edit makes of the file. -/
def admitEdit (target path : OsStr) (before after : String) (expectedHash : Option String) : Except ToolError String := do
  checkTarget C registry tree target path false
  requireFresh C registry tree target path expectedHash
  let content ← readToString C tree (registry.workspace.joined path)
  let count := countMatches before.toList (content.length + 1) content.toList
  ensure (count = 1) (.matchCount count)
  .ok (replaceFirst content before after)

def admitWrite (target path : OsStr) (content : String) (create : Bool) (expectedHash : Option String) :
    Except ToolError String := do
  checkTarget C registry tree target path create
  if create then
    ensure ((canonicalize C.toHost tree (registry.workspace.joined path)).toBool = false)
      (.input "create_intent requires a missing target")
  else
    requireFresh C registry tree target path expectedHash
  .ok content

/-- The replacement of an admitted content; the identity of the new file is read through the prepared path. -/
def rewrite (now : Nat) (target path : OsStr) (create : Bool) (admitted : Except ToolError String) : Execution :=
  match admitted with
  | .error error => ⟨.error error, tree, registry.snapshots, [], []⟩
  | .ok content =>
      match registry.workspace.atomicReplace C.toHost tree target ⟨toBytes content, now⟩ create with
      | .error error => ⟨.error (.path (error.text C.toHost)), tree, registry.snapshots, [], []⟩
      | .ok replaced =>
          ⟨(pathed C (identity C.toHost replaced (registry.workspace.joined path))).map fun id =>
              ⟨.ofMembers [("sha256", .string id.hash), ("size", .ofNat id.size)], false⟩,
            replaced, registry.snapshots, [], [registry.workspace.root ++ names target]⟩

/-- `execute_prepared`. -/
def ToolRegistry.execute (now : Nat) (prepared : Prepared) : Execution :=
  match prepared.action with
  | .read path max => executeRead C registry tree prepared.target path max
  | .list path max => registry.observes tree (listEntries C tree path max)
  | .search query regex maxResults maxOutput =>
      registry.observes tree (search C registry tree query regex maxResults maxOutput)
  | .manifest max => registry.observes tree (manifest C registry tree max)
  | .edit path before after => rewrite C registry tree now prepared.target path false
      (admitEdit C registry tree prepared.target path before after prepared.expectedHash)
  | .write path content create => rewrite C registry tree now prepared.target path create
      (admitWrite C registry tree prepared.target path content create prepared.expectedHash)
  | .gitDiff max => registry.observes tree (((C.gitDiff tree max).mapError .git).map fun (text, truncated) =>
      (⟨.ofMembers [("summary", .string text)], truncated⟩, []))

end Execution

end LatteCode.Engine
