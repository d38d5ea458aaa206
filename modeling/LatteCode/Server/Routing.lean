import LatteCode.Server.Workspaces
/- Sessions are routed to the instance of their durable root, and a process has one instance of a path. -/

namespace LatteCode.Server.Routing
open Keyed Outcome Runs Storage

variable {H : Host} {world : World H} {i : Nat}

/-- The path that an instance is looked for under is the root of the session that asks. -/
def Caller.Owns (db : H.Db) (path : String) : Caller → Prop
  | .workspace => True
  | .session sessionId => rootOf db sessionId = some path

/-- What a handler carries from one await to the next. -/
def Handler.Sound (db : H.Db) : Handler → Prop
  | .locating sessionId path => rootOf db sessionId = some path
  | .entering caller path => caller.Owns db path
  | .checking caller canonical | .opening caller canonical =>
      H.canonicalize canonical = canonical ∧ caller.Owns db canonical
  | .accepting inst _ => H.canonicalize inst.path = inst.path
  | .registering inst sessionId => rootOf db sessionId = some inst.path
  | .running caller inst => H.canonicalize inst.path = inst.path ∧ caller.Owns db inst.path
  | .indexing _ | .naming .. | .ended => True

/-- The invariant of every run. -/
structure Routed (world : World H) : Prop where
  reached : Reachable H.toEnvironment world.db
  canonical : ∀ sessionId root, rootOf world.db sessionId = some root → H.canonicalize root = root
  index : ∀ sessionId path, world.manager.sessionIndex sessionId = some path → rootOf world.db sessionId = some path
  stored : ∀ path inst, world.manager.instances.get? path = some inst →
    inst.path = path ∧ inst.process = world.process ∧ H.canonicalize path = path
  past : ∀ inst ∈ world.handed, inst.process ≤ world.process
  current : ∀ inst ∈ world.handed, inst.process = world.process →
    world.manager.instances.get? inst.path = some inst
  unique : ∀ first ∈ world.handed, ∀ second ∈ world.handed, first.process = second.process →
    first.path = second.path → first = second
  handlers : ∀ handler ∈ world.handlers, handler.Sound world.db

theorem Caller.Owns.kept {db db' : H.Db} (kept : RootsKept db db') {path : String} {caller : Caller}
    (owns : caller.Owns db path) : caller.Owns db' path := by
  cases caller with
  | workspace => trivial
  | session sessionId => exact kept _ _ owns

theorem Handler.Sound.kept {db db' : H.Db} (kept : RootsKept db db') {handler : Handler}
    (sound : handler.Sound db) : handler.Sound db' := by
  cases handler with
  | indexing | naming | ended => trivial
  | locating sessionId path => exact kept _ _ sound
  | entering caller path => exact Caller.Owns.kept kept sound
  | checking caller canonical => exact ⟨sound.1, sound.2.kept kept⟩
  | opening caller canonical => exact ⟨sound.1, sound.2.kept kept⟩
  | accepting inst request => exact sound
  | registering inst sessionId => exact kept _ _ sound
  | running caller inst => exact ⟨sound.1, sound.2.kept kept⟩

/-- A path that a caller owns is canonical already. -/
theorem Caller.Owns.canonicalize {db : H.Db} {path : String} {caller : Caller} (owns : caller.Owns db path)
    (canonical : ∀ sessionId root, rootOf db sessionId = some root → H.canonicalize root = root) :
    caller.Owns db (H.canonicalize path) := by
  cases caller with
  | workspace => trivial
  | session sessionId =>
      have resolved := canonical sessionId path owns
      rw [resolved]
      exact owns

namespace Routed

theorem ended_sound (_ : Routed world) : Handler.Sound world.db .ended := trivial

theorem set (routed : Routed world) {handler : Handler} (sound : handler.Sound world.db) :
    Routed (world.set i handler) := by
  refine { routed with handlers := ?_ }
  intro other member
  rcases List.mem_or_eq_of_mem_set member with old | rfl
  · exact routed.handlers other old
  · exact sound

/-- The store only moves on, and no session moves with it. -/
theorem stored_on (routed : Routed world) {db : H.Db} (reached : Reachable H.toEnvironment db)
    (kept : RootsKept world.db db)
    (canonical : ∀ sessionId root, rootOf db sessionId = some root → H.canonicalize root = root) :
    Routed { world with db := db } where
  reached := reached
  canonical := canonical
  index sessionId path indexed := kept _ _ (routed.index sessionId path indexed)
  stored := routed.stored
  past := routed.past
  current := routed.current
  unique := routed.unique
  handlers handler member := (routed.handlers handler member).kept kept

theorem register (routed : Routed world) {sessionId : SessionId} {path : String}
    (owned : rootOf world.db sessionId = some path) :
    Routed { world with manager := world.manager.registerSession sessionId path } := by
  refine { routed with index := ?_ }
  intro other place indexed
  simp only [WorkspaceManager.registerSession, Function.update_apply] at indexed
  split at indexed
  case isTrue same =>
    cases indexed
    rw [same]
    exact owned
  case isFalse => exact routed.index other place indexed

/-- An instance under its path is the only one of the process that was handed out. -/
theorem hand (routed : Routed world) {inst : Instance} {path : String} {handler : Handler}
    (found : world.manager.instances.get? path = some inst) (sound : handler.Sound world.db) :
    Routed (world.hand i handler inst) := by
  obtain ⟨rfl, process, _⟩ := routed.stored path inst found
  have only : ∀ other ∈ world.handed, other.process = inst.process → other.path = inst.path → other = inst := by
    intro other member same path
    have held := routed.current other member (same.trans process)
    rw [path, found] at held
    exact (Option.some.inj held).symm
  refine { routed.set (i := i) sound with past := ?_, current := ?_, unique := ?_ }
  · intro other member
    rcases List.mem_cons.mp member with rfl | old
    · exact Nat.le_of_eq process
    · exact routed.past other old
  · intro other member same
    rcases List.mem_cons.mp member with rfl | old
    · exact found
    · exact routed.current other old same
  · intro first firstMember second secondMember same path
    rcases List.mem_cons.mp firstMember with rfl | firstOld
    · rcases List.mem_cons.mp secondMember with rfl | secondOld
      · rfl
      · exact (only second secondOld same.symm path.symm).symm
    · rcases List.mem_cons.mp secondMember with rfl | secondOld
      · exact only first firstOld same path
      · exact routed.unique first firstOld second secondOld same path

/-- The new instance of a path, before it is handed out. -/
theorem insert (routed : Routed world) {canonical : String} {inst : Instance} (path : inst.path = canonical)
    (process : inst.process = world.process) (resolved : H.canonicalize canonical = canonical)
    (fresh : world.manager.instances.get? canonical = none) :
    Routed { world with minted := world.minted + 1, manager := world.manager.insert canonical inst } := by
  refine { routed with stored := ?_, current := ?_ }
  · intro place other found
    simp only [WorkspaceManager.insert, Table.get?_add_fresh _ _ fresh] at found
    split at found
    case isTrue same =>
      cases found
      rw [same]
      exact ⟨path, process, resolved⟩
    case isFalse => exact routed.stored place other found
  · intro other member same
    have held := routed.current other member same
    simp only [WorkspaceManager.insert, Table.get?_add_fresh _ _ fresh]
    split
    case isTrue place =>
      rw [place, fresh] at held
      cases held
    case isFalse => exact held

theorem create (routed : Routed world) {caller : Caller} {canonical : String}
    (sound : H.canonicalize canonical = canonical ∧ caller.Owns world.db canonical)
    (fresh : world.manager.instances.get? canonical = none) : Routed (world.create i caller canonical) := by
  have inserted : Routed { world with
      minted := world.minted + 1
      manager := world.manager.insert canonical (world.fresh canonical) } := routed.insert rfl rfl sound.1 fresh
  have held : (world.manager.insert canonical (world.fresh canonical)).instances.get? canonical =
      some (world.fresh canonical) := by
    simp only [WorkspaceManager.insert, Table.get?_add_fresh _ _ fresh, if_true]
  have runs : Handler.Sound world.db (.running caller (world.fresh canonical)) := sound
  exact inserted.hand held runs

theorem named (routed : Routed world) {inst : Instance} {path : String} {request : Option CreateSessionRequest}
    (found : world.manager.instances.get? path = some inst) : Routed (world.named i inst request) := by
  have resolved : H.canonicalize inst.path = inst.path := by
    have stored := routed.stored path inst found
    rw [stored.1]
    exact stored.2.2
  cases request with
  | none =>
      have sound : Handler.Sound world.db (.running .workspace inst) := ⟨resolved, trivial⟩
      exact routed.hand found sound
  | some request =>
      have sound : Handler.Sound world.db (.accepting inst request) := resolved
      simp only [World.named]
      split
      · exact routed.hand found sound
      · exact routed.hand found routed.ended_sound

theorem withId_found {manager : WorkspaceManager} {id : String} {inst : Instance} (member : inst ∈ manager.withId id) :
    ∃ path, manager.instances.get? path = some inst := by
  obtain ⟨⟨path, held⟩, selected, rfl⟩ := List.mem_map.mp member
  exact ⟨path, ((Table.mem_select _ _).mp selected).1⟩

/-- A found instance runs its caller's handler under the path it was looked for. -/
theorem found (routed : Routed world) {caller : Caller} {canonical : String} {inst : Instance}
    (sound : H.canonicalize canonical = canonical ∧ caller.Owns world.db canonical)
    (held : world.manager.instances.get? canonical = some inst) :
    Routed (world.hand i (.running caller inst) inst) := by
  have path := (routed.stored canonical inst held).1
  refine routed.hand held ?_
  rw [Handler.Sound, path]
  exact sound

theorem poll (routed : Routed world) {handler : Handler} (sound : handler.Sound world.db) (chance : Chance) :
    Routed (world.poll i chance handler) := by
  cases handler with
  | indexing sessionId =>
      cases indexed : world.manager.sessionIndex sessionId with
      | some path =>
          have owned : Handler.Sound world.db (.entering (.session sessionId) path) := routed.index sessionId path indexed
          simp only [World.poll, indexed]
          exact routed.set owned
      | none =>
          -- the locator reads the root itself
          cases located : rootOf world.db sessionId with
          | some path =>
              have owned : Handler.Sound world.db (.locating sessionId path) := located
              simp only [World.poll, indexed, located]
              exact routed.set owned
          | none =>
              simp only [World.poll, indexed, located]
              exact routed.set routed.ended_sound
  | locating sessionId path =>
      have moved : Handler.Sound world.db (.entering (.session sessionId) path) := sound
      exact (routed.set moved).register sound
  | entering caller path =>
      have entered : Handler.Sound world.db (.checking caller (H.canonicalize path)) :=
        ⟨H.resolved path, Caller.Owns.canonicalize sound routed.canonical⟩
      simp only [World.poll]
      split
      · exact routed.set entered
      · exact routed.set routed.ended_sound
  | checking caller canonical =>
      cases held : world.manager.instances.get? canonical with
      | some inst =>
          simp only [World.poll, held]
          exact routed.found sound held
      | none =>
          have missed : Handler.Sound world.db (.opening caller canonical) := sound
          simp only [World.poll, held]
          exact routed.set missed
  | opening caller canonical =>
      cases held : world.manager.instances.get? canonical with
      | some inst =>
          simp only [World.poll, held]
          exact routed.found sound held
      | none =>
          simp only [World.poll, held]
          split
          · exact routed.create sound held
          · exact routed.set routed.ended_sound
  | naming workspaceId request =>
      simp only [World.poll]
      split
      case h_1 => exact routed.set routed.ended_sound
      case h_2 found others listed =>
        split
        case h_1 inst chosen =>
          have member : inst ∈ world.manager.withId workspaceId := by
            rw [listed]
            exact List.mem_of_getElem? chosen
          obtain ⟨path, held⟩ := withId_found member
          exact routed.named held
        case h_2 => exact routed
  | registering inst sessionId => exact (routed.set routed.ended_sound).register sound
  | accepting inst request => exact routed
  | running caller inst => exact routed
  | ended => exact routed

/-- After a create the roots are canonical still. -/
theorem canonical_step (routed : Routed world) {op : Operation}
    (rooted : ∀ args lease now, op = .createSession args lease now → H.canonicalize args.workspaceRoot = args.workspaceRoot)
    (sessionId : SessionId) (root : String) (held : rootOf (Storage.step H.toEnvironment world.db op) sessionId = some root) :
    H.canonicalize root = root := by
  rcases step_root routed.reached held with ⟨owner, before⟩ | ⟨args, lease, now, called, rfl⟩
  · exact routed.canonical owner root before
  · exact rooted args lease now called

theorem called (routed : Routed world) {op : Operation}
    (rooted : ∀ args lease now, op = .createSession args lease now → H.canonicalize args.workspaceRoot = args.workspaceRoot) :
    Routed { world with db := Storage.step H.toEnvironment world.db op } :=
  routed.stored_on (routed.reached.step op) (step_roots_kept routed.reached op) (routed.canonical_step rooted)

theorem accept (collisionFree : Function.Injective H.sha256) (routed : Routed world) {inst : Instance}
    {request : CreateSessionRequest} (sound : H.canonicalize inst.path = inst.path) (acceptance : Acceptance) :
    Routed (world.accept i inst request acceptance) := by
  cases acceptance with
  | replay =>
      simp only [World.accept]
      split
      case h_1 snapshot looked =>
        have root : Handler.Sound world.db (.registering inst request.sessionId) :=
          lookupCreateReplay_root collisionFree routed.reached looked
        exact routed.set root
      case h_2 => exact routed
      case h_3 => exact routed.set routed.ended_sound
  | create turnId baseline lease now =>
      simp only [World.accept]
      split
      case h_1 result db created =>
        have named : (createOf inst request turnId baseline).commandId = some request.commandId := rfl
        have root : Handler.Sound db (.registering inst request.sessionId) :=
          createSessionV2Inner_root collisionFree routed.reached named created
        have stepped : Storage.step H.toEnvironment world.db (.createSession (createOf inst request turnId baseline) lease
            now) = db := by
          rw [Storage.step, exec, created]
          rfl
        have stored : Routed { world with db := db } := by
          rw [← stepped]
          refine routed.called ?_
          rintro _ _ _ ⟨⟩
          exact sound
        exact stored.set root
      case h_2 => exact routed.set routed.ended_sound
  | refusal => exact routed.set routed.ended_sound

theorem step (collisionFree : Function.Injective H.sha256) (routed : Routed world) (event : Event) :
    Routed (world.step event) := by
  cases event with
  | store path op =>
      refine routed.called ?_
      intro args lease now same
      cases op with
      | createSession given _ _ =>
          cases same
          exact H.resolved path
      | _ => cases same
  | restart =>
      refine { routed with index := ?_, stored := ?_, past := ?_, current := ?_, handlers := ?_ }
      · intro sessionId path indexed
        cases indexed
      · intro path inst found
        cases found
      · intro inst member
        exact Nat.le_succ_of_le (routed.past inst member)
      · intro inst member same
        have past := routed.past inst member
        rw [same] at past
        exact absurd past (Nat.not_succ_le_self _)
      · intro handler member
        cases member
  | arrive arrival =>
      refine { routed with handlers := ?_ }
      intro handler member
      rcases List.mem_append.mp member with old | new
      · exact routed.handlers handler old
      · rw [List.mem_singleton.mp new]
        cases arrival <;> trivial
  | poll i chance =>
      simp only [World.step]
      split
      case h_1 handler held => exact routed.poll (routed.handlers handler (List.mem_of_getElem? held)) chance
      case h_2 => exact routed
  | accept i acceptance =>
      simp only [World.step]
      split
      case h_1 inst request held =>
        exact routed.accept collisionFree (routed.handlers _ (List.mem_of_getElem? held)) acceptance
      case h_2 => exact routed
  | drop i => exact routed.set routed.ended_sound

theorem new : Routed (World.new H) where
  reached := .refl
  canonical sessionId root held := by cases held
  index sessionId path indexed := by cases indexed
  stored path inst found := by cases found
  past inst member := by cases member
  current inst member := by cases member
  unique first member := by cases member
  handlers handler member := by cases member

end Routed

/-- A session handler runs on the instance of the session's root, the index holds no other path, and no process hands
out two instances of a path. -/
theorem sessions_routed (H : Host) (collisionFree : Function.Injective H.sha256) (events : List Event) (k : Nat) :
    (∀ sessionId inst, .running (.session sessionId) inst ∈ (World.after H events k).handlers →
      H.canonicalize inst.path = inst.path ∧ rootOf (World.after H events k).db sessionId = some inst.path) ∧
    (∀ sessionId path, (World.after H events k).manager.sessionIndex sessionId = some path →
      rootOf (World.after H events k).db sessionId = some path) ∧
    ∀ first ∈ (World.after H events k).handed, ∀ second ∈ (World.after H events k).handed,
      first.process = second.process → first.path = second.path → first = second := by
  have routed : Routed (World.after H events k) :=
    invariant_at Routed.new (fun world event routed => routed.step collisionFree event) k
  exact ⟨fun sessionId inst member => routed.handlers _ member, routed.index, routed.unique⟩

def sampleHost : Host :=
  { sampleService with canonicalize := id, resolved := fun _ => rfl, pathDigest := id }

/-- A session is created by another process; after a restart a request finds it through the locator. -/
def locatedRun : List Event :=
  [.store "/workspace" (.acquireLease (sessionLeaseScope sampleSession) "engine" none 0 100),
    .store "/workspace" (.createSession sampleCreate (some sampleLease) 1), .restart,
    .arrive (.ofSession sampleSession)] ++ List.replicate 5 (.poll 0 ⟨true, true, 0⟩)

def locatedInstance : Instance := ⟨1, 0, ⟨"ws_/workspace", "/workspace"⟩⟩

theorem sessions_routed_located :
    .running (.session sampleSession) locatedInstance ∈ (World.after sampleHost locatedRun 9).handlers ∧
      rootOf (World.after sampleHost locatedRun 9).db sampleSession = some locatedInstance.path := by
  have runs : .running (.session sampleSession) locatedInstance ∈ (World.after sampleHost locatedRun 9).handlers := by
    decide +kernel
  exact ⟨runs, ((sessions_routed sampleHost plain_collisionFree locatedRun 9).1 sampleSession locatedInstance runs).2⟩

end LatteCode.Server.Routing
