import LatteCode.Server.Handlers
import LatteCode.Storage.Roots
/- The workspaces of a server: instances made on demand, and the index that routes sessions to them. -/

namespace LatteCode.Server
open Keyed Runs Storage

/-- The file system under the workspaces, where no directory is relinked, and the digest in a workspace id. -/
structure Host extends Service where
  canonicalize : String → String
  resolved : ∀ path, canonicalize (canonicalize path) = canonicalize path
  pathDigest : String → String

/-- A workspace instance of one server process; the serial number tells instances of one path apart. -/
structure Instance where
  process : Nat
  serial : Nat
  workspace : WorkspaceInstance
deriving DecidableEq

abbrev Instance.path (inst : Instance) : String := inst.workspace.path

structure WorkspaceManager where
  instances : Table String Instance
  sessionIndex : SessionId → Option String

namespace WorkspaceManager

def new : WorkspaceManager := ⟨.empty, fun _ => none⟩

def registerSession (manager : WorkspaceManager) (sessionId : SessionId) (workspacePath : String) : WorkspaceManager :=
  { manager with sessionIndex := Function.update manager.sessionIndex sessionId (some workspacePath) }

/-- The instances that `get_by_id` finds one of. -/
def withId (manager : WorkspaceManager) (id : String) : List Instance :=
  (manager.instances.select fun _ inst => decide (inst.workspace.id = id)).map Prod.snd

def insert (manager : WorkspaceManager) (canonical : String) (inst : Instance) : WorkspaceManager :=
  { manager with instances := manager.instances.add canonical inst }

end WorkspaceManager

namespace Routing

/-- Whom `get_or_create` returns an instance to. -/
inductive Caller where
  | workspace
  | session (sessionId : SessionId)
deriving DecidableEq

/-- A handler at the lock or the task that it awaits. -/
inductive Handler where
  /-- `get_session_workspace` at the read lock of the index. -/
  | indexing (sessionId : SessionId)
  /-- The locator found this path; the index is written next. -/
  | locating (sessionId : SessionId) (path : String)
  | entering (caller : Caller) (path : String)
  /-- `get_or_create` at the read lock of the instances. -/
  | checking (caller : Caller) (canonical : String)
  /-- `get_or_create` at their write lock. -/
  | opening (caller : Caller) (canonical : String)
  /-- `get_by_id`, of a create or of a handler that reads the workspace. -/
  | naming (workspaceId : String) (request : Option CreateSessionRequest)
  | accepting (inst : Instance) (request : CreateSessionRequest)
  | registering (inst : Instance) (sessionId : SessionId)
  | running (caller : Caller) (inst : Instance)
  | ended
deriving DecidableEq

/-- Requests by what they are routed by. -/
inductive Arrival where
  | createWorkspace (path : String)
  | createSession (workspaceId : String) (request : CreateSessionRequest)
  | ofWorkspace (workspaceId : String)
  | ofSession (sessionId : SessionId)

def Arrival.handler : Arrival → Handler
  | .createWorkspace path => .entering .workspace path
  | .createSession workspaceId request => .naming workspaceId (some request)
  | .ofWorkspace workspaceId => .naming workspaceId none
  | .ofSession sessionId => .indexing sessionId

/-- What a poll meets: whether the directory is there, whether the builder succeeds, and which instance is found first. -/
structure Chance where
  present : Bool
  built : Bool
  first : Nat

/-- How the runtime task of a create decides. -/
inductive Acceptance where
  | replay
  | create (turnId : TurnId) (baseline : List (String × String)) (lease : Option Lease) (now : Nat)
  | refusal

/-- A server process after another, with the store that outlives them. -/
structure World (H : Host) where
  db : H.Db
  process : Nat
  minted : Nat
  manager : WorkspaceManager
  handlers : List Handler
  /-- Every instance that `get_or_create` or `get_by_id` returned. -/
  handed : List Instance

inductive Event where
  /-- A call of the store by an engine that some process has built for this path. -/
  | store (path : String) (op : Operation)
  | restart
  | arrive (arrival : Arrival)
  | poll (handler : Nat) (chance : Chance)
  | accept (handler : Nat) (acceptance : Acceptance)
  | drop (handler : Nat)

/-- An engine creates sessions under its own root. -/
def onRoot (root : String) : Operation → Operation
  | .createSession args lease now => .createSession { args with workspaceRoot := root } lease now
  | op => op

section Steps

variable {H : Host} (world : World H) (i : Nat)

def World.set (handler : Handler) : World H := { world with handlers := world.handlers.set i handler }

def World.hand (handler : Handler) (inst : Instance) : World H :=
  { world.set i handler with handed := inst :: world.handed }

def World.fresh (canonical : String) : Instance :=
  ⟨world.process, world.minted, ⟨"ws_" ++ H.pathDigest canonical, canonical⟩⟩

/-- The instance that `get_or_create` builds, under the write lock. -/
def World.create (caller : Caller) (canonical : String) : World H :=
  { world.hand i (.running caller (world.fresh canonical)) (world.fresh canonical) with
    minted := world.minted + 1
    manager := world.manager.insert canonical (world.fresh canonical) }

/-- `get_by_id` found an instance: a create validates its binding and starts the task. -/
def World.named (inst : Instance) : Option CreateSessionRequest → World H
  | none => world.hand i (.running .workspace inst) inst
  | some request =>
      match request.binding.validate with
      | .ok _ => world.hand i (.accepting inst request) inst
      | .error _ => world.hand i .ended inst

def World.poll (chance : Chance) : Handler → World H
  | .indexing sessionId =>
      match world.manager.sessionIndex sessionId with
      | some path => world.set i (.entering (.session sessionId) path)
      | none =>
          match rootOf world.db sessionId with
          | some path => world.set i (.locating sessionId path)
          | none => world.set i .ended
  | .locating sessionId path =>
      { world.set i (.entering (.session sessionId) path) with manager := world.manager.registerSession sessionId path }
  | .entering caller path =>
      if chance.present then world.set i (.checking caller (H.canonicalize path)) else world.set i .ended
  | .checking caller canonical =>
      match world.manager.instances.get? canonical with
      | some inst => world.hand i (.running caller inst) inst
      | none => world.set i (.opening caller canonical)
  | .opening caller canonical =>
      match world.manager.instances.get? canonical with
      | some inst => world.hand i (.running caller inst) inst
      | none => if chance.built then world.create i caller canonical else world.set i .ended
  | .naming workspaceId request =>
      match world.manager.withId workspaceId with
      | [] => world.set i .ended
      | found :: others =>
          match (found :: others)[chance.first]? with
          | some inst => world.named i inst request
          | none => world
  | .registering inst sessionId =>
      { world.set i .ended with manager := world.manager.registerSession sessionId inst.path }
  | .accepting .. | .running .. | .ended => world

/-- The create of the runtime task that is bound to an instance. -/
def createOf (inst : Instance) (request : CreateSessionRequest) (turnId : TurnId) (baseline : List (String × String)) :
    CreateSession :=
  ⟨some request.commandId, request.sessionId, turnId, request.binding, inst.path, request.prompt, baseline, request.focus⟩

/-- The task of a create looks the command up first, and then creates the session. -/
def World.accept (inst : Instance) (request : CreateSessionRequest) : Acceptance → World H
  | .replay =>
      match lookupCreateReplay H.toEnvironment world.db request.commandId request.sessionId inst.path request.prompt
          request.binding request.focus with
      | .ok (some _) => world.set i (.registering inst request.sessionId)
      | .ok none => world
      | .error _ => world.set i .ended
  | .create turnId baseline lease now =>
      match createSessionV2Inner H.toEnvironment world.db (createOf inst request turnId baseline) lease now with
      | .ok (_, db) => { world.set i (.registering inst request.sessionId) with db := db }
      | .error _ => world.set i .ended
  | .refusal => world.set i .ended

def World.step (world : World H) : Event → World H
  | .store path op => { world with db := Storage.step H.toEnvironment world.db (onRoot (H.canonicalize path) op) }
  | .restart => { world with process := world.process + 1, manager := .new, handlers := [] }
  | .arrive arrival => { world with handlers := world.handlers ++ [arrival.handler] }
  | .poll i chance =>
      match world.handlers[i]? with
      | some handler => world.poll i chance handler
      | none => world
  | .accept i acceptance =>
      match world.handlers[i]? with
      | some (.accepting inst request) => world.accept i inst request acceptance
      | _ => world
  | .drop i => world.set i .ended

end Steps

variable (H : Host)

/-- An empty store, before the first server. -/
def World.new : World H := ⟨Database.empty _, 0, 0, .new, [], []⟩

/-- The world after the first `k` events. -/
def World.after (events : List Event) (k : Nat) : World H := stateAt World.step (World.new H) events k

end Routing

end LatteCode.Server
