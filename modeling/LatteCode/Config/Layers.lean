import LatteCode.Core.Json
import LatteCode.Lib.Outcome
/- The layered configuration of a workspace, and the trust gate between its layers. -/

namespace LatteCode

namespace Fields

def toList : Fields → List (String × Json)
  | .nil => []
  | .cons key value rest => (key, value) :: rest.toList

def contains (key : String) (fields : Fields) : Bool := (fields.get? key).isSome

/-- `Map::remove`, without the removed value. -/
def remove (key : String) : Fields → Fields
  | .nil => .nil
  | .cons k value rest => if key = k then rest else .cons k value (rest.remove key)

def mapValues (f : Json → Json) : Fields → Fields
  | .nil => .nil
  | .cons key value rest => .cons key (f value) (rest.mapValues f)

end Fields

namespace Config
open Outcome

def CONFIG_RELATIVE_PATH : String := ".latte/latte-code.jsonc"

/-- `json5::from_str(DEFAULT_CONFIG)`. -/
def defaultConfig : Json := .ofMembers
  [("version", .ofNat 1),
    ("session", .ofMembers [("max_request_bytes", .ofNat 524288), ("max_input_bytes", .ofNat 393216),
      ("reserved_output_bytes", .ofNat 131072), ("context_cap_bytes", .ofNat 65536)]),
    ("database", .ofMembers [("path", .string ".latte/latte-code.db")]),
    ("verification", .ofMembers [("argv", .ofStrings ["cargo", "test", "--workspace"]), ("cwd", .string "."),
      ("timeout_ms", .ofNat 120000)]),
    ("providers", .ofMembers [])]

/-- `std::fs::read_to_string`. -/
inductive FileRead where
  | text (text : String)
  | notFound
  | failed (error : String)

/-- The files and the environment variables at one moment. -/
structure Disk where
  read : String → FileRead
  env : String → Option String

/-- The parser of the files, and what the load checks of the merged value after the gate. -/
structure Schema where
  json5 : String → Except String Json
  decode : Json → Except String Unit

def joinPath (base relative : String) : String :=
  if base.isEmpty ∨ base.toList.getLast? = some '/' then base ++ relative else base ++ "/" ++ relative

/-- The components that `Path` compares. -/
def pathComponents (path : String) : List String :=
  let parts := path.splitOn "/"
  (if path.startsWith "/" then ["/"] else if parts.head? = some "." then ["."] else []) ++
    parts.filter fun part => part ≠ "" ∧ part ≠ "."

/-- The pre-alignment `thread` block is read as `session`. -/
def normalizeLegacyThreadBlock (path : String) : Json → Except String Json
  | .object fields =>
      match fields.get? "thread" with
      | none => .ok (.object fields)
      | some thread =>
          if fields.contains "session" then
            .error (path ++ " uses both the legacy `thread` settings block and the current `session` block; " ++
              "consolidate the settings under `session` and remove `thread`")
          else .ok (.object ((fields.remove "thread").insert "session" thread))
  | value => .ok value

def readOptionalConfig (S : Schema) (disk : Disk) (path : String) : Except String (Option Json) :=
  match disk.read path with
  | .notFound => .ok none
  | .failed error => .error ("cannot read " ++ path ++ ": " ++ error)
  | .text text =>
      match S.json5 text with
      | .error error => .error ("invalid JSONC " ++ path ++ ": " ++ error)
      | .ok (.object fields) => do
          let overlay ← normalizeLegacyThreadBlock path (.object fields)
          .ok (some overlay)
      | .ok _ => .error ("invalid JSONC " ++ path ++ ": top-level configuration must be an object")

mutual
def mergeValueAt (path : List String) (base : Json) : Json → Json
  | .object overlay =>
      match base with
      | .object fields => .object (mergeFieldsAt path fields overlay)
      | _ => .object overlay
  | overlay => overlay
/-- The members of a later layer, one after the other; a catalogue of models replaces the earlier one whole. -/
def mergeFieldsAt (path : List String) (base : Fields) : Fields → Fields
  | .nil => base
  | .cons key value rest =>
      if key = "models" ∧ path.length = 2 ∧ path.head? = some "providers" then
        mergeFieldsAt path (base.insert key value) rest
      else
        match base.get? key with
        | some existing => mergeFieldsAt path (base.insert key (mergeValueAt (path ++ [key]) existing value)) rest
        | none => mergeFieldsAt path (base.insert key value) rest
end

def mergeValue (base overlay : Json) : Json := mergeValueAt [] base overlay

/-! ## The trust gate -/

/-- `object.remove("trust_repo_endpoint") == Some(true)`. -/
def consents (object : Json) : Bool := object.get? "trust_repo_endpoint" = some (.bool true)

def stripConsent : Json → Json
  | .object fields => .object (fields.remove "trust_repo_endpoint")
  | value => value

/-- The providers whose flag is set, and the layer without the flags. -/
def takeWorkspaceTrustFlags : Json → List String × Json
  | .object fields =>
      match fields.get? "providers" with
      | some (.object providers) =>
          ((providers.toList.filter fun provider => consents provider.2).map Prod.fst,
            .object (fields.insert "providers" (.object (providers.mapValues stripConsent))))
      | _ => ([], .object fields)
  | value => ([], value)

/-- `Value::as_str`. -/
def asStr : Json → Option String
  | .string text => some text
  | _ => none

def providerOf (layer : Json) (name : String) : Option Json := layer.get? "providers" >>= Json.get? name

def providerHoldsForeignCredential (env : String → Option String) (workspaceDeclaresKey : Bool) (mergedProvider : Json)
    (homeOverlay : Option Json) (providerName : String) : Bool :=
  let homeDeclaresKey := (homeOverlay >>= (providerOf · providerName) >>= Json.get? "api_key").isSome
  if homeDeclaresKey && !workspaceDeclaresKey then true
  else
    match mergedProvider.get? "api_key" with
    | some apiKey =>
        decide (apiKey.get? "source" >>= asStr = some "env") &&
          ((apiKey.get? "name" >>= asStr).any fun name => (env name).any fun value => !value.isEmpty)
    | none => false

/-- The endpoint fields that a layer's provider sets. -/
def gatedFields (object : Json) : List String := ["base_url", "endpoint"].filter fun key => (object.get? key).isSome

/-- What one load read, merged and consented to. -/
structure Layers where
  env : String → Option String
  homeConfigPath : Option String
  workspaceConfigPath : String
  homeOverlay : Option Json
  homeTrusted : List String
  workspaceOverlay : Option Json
  merged : Json

namespace Layers

variable (layers : Layers)

/-- The providers of the workspace layer. -/
def workspaceProviders : Fields :=
  match layers.workspaceOverlay >>= Json.get? "providers" with
  | some (.object providers) => providers
  | _ => .nil

/-- The refusal for one provider that the workspace layer mentions. -/
def refuses (name : String) (object : Json) : Bool :=
  !(gatedFields object).isEmpty && decide (name ∉ layers.homeTrusted) &&
    match providerOf layers.merged name with
    | none => false
    | some provider => providerHoldsForeignCredential layers.env
        ((layers.workspaceProviders.get? name >>= Json.get? "api_key").isSome) provider layers.homeOverlay name

def refusal (name : String) (object : Json) : String :=
  layers.workspaceConfigPath ++ " sets providers." ++ name ++ "." ++ "/".intercalate (gatedFields object) ++
    " while a credential held outside the workspace would be sent to that endpoint; a workspace configuration file " ++
    "ships with the repository clone and must not be trusted with API keys. To accept this endpoint anyway, set `providers." ++
    name ++ ".trust_repo_endpoint: true` in " ++ layers.homeConfigPath.getD "the home configuration file" ++
    " — the home layer, never the workspace layer"

def enforceWorkspaceEndpointTrust : Except String Unit :=
  layers.workspaceProviders.toList.forM fun provider =>
    if layers.refuses provider.1 provider.2 then .error (layers.refusal provider.1 provider.2) else .ok ()

/-- The gate passes layers in which it refuses no provider. -/
theorem enforce_ok : layers.enforceWorkspaceEndpointTrust = .ok () ↔
    ∀ provider ∈ layers.workspaceProviders.toList, layers.refuses provider.1 provider.2 = false := by
  rw [enforceWorkspaceEndpointTrust, Outcome.forM_ok]
  refine forall₂_congr fun provider member => ?_
  cases layers.refuses provider.1 provider.2 with
  | true =>
      constructor
      · intro passed
        cases passed
      · intro passed
        cases passed
  | false => exact ⟨fun _ => rfl, fun _ => rfl⟩

end Layers

/-- The layers under a root; where the home file is the workspace file, there is no workspace layer. -/
def readLayers (S : Schema) (disk : Disk) (root : String) (home : Option String) : Except String Layers := do
  let homeConfigPath := home.map (joinPath · CONFIG_RELATIVE_PATH)
  let workspaceConfigPath := joinPath root CONFIG_RELATIVE_PATH
  let homeLayer ← match homeConfigPath with
    | some path => readOptionalConfig S disk path
    | none => .ok none
  let (homeTrusted, homeOverlay) := match homeLayer with
    | some overlay => ((takeWorkspaceTrustFlags overlay).1, some (takeWorkspaceTrustFlags overlay).2)
    | none => ([], none)
  let workspaceIsHome : Bool := homeConfigPath.map pathComponents = some (pathComponents workspaceConfigPath)
  let workspaceLayer ← if workspaceIsHome then .ok none else readOptionalConfig S disk workspaceConfigPath
  let workspaceOverlay := workspaceLayer.map fun overlay => (takeWorkspaceTrustFlags overlay).2
  let withHome := (homeOverlay.map (mergeValue defaultConfig)).getD defaultConfig
  .ok ⟨disk.env, homeConfigPath, workspaceConfigPath, homeOverlay, homeTrusted, workspaceOverlay,
    (workspaceOverlay.map (mergeValue withHome)).getD withHome⟩

/-- `AppConfig::load_with_home_inner`: the gate stands between the merge and the rest of the load, where it is asked for. -/
def loadWithHomeInner (S : Schema) (disk : Disk) (root : String) (home : Option String) (enforceWorkspaceTrust : Bool) :
    Except String Layers := do
  let layers ← readLayers S disk root home
  if enforceWorkspaceTrust then layers.enforceWorkspaceEndpointTrust
  S.decode layers.merged
  .ok layers

end Config

end LatteCode
