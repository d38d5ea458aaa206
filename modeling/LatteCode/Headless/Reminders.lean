import LatteCode.Lib.Handover
import LatteCode.Lib.Run
import LatteCode.Storage.System
import LatteCode.Headless.Request
import LatteCode.Headless.Frames
/- The one-shot reminder of a session, between the calls that take it and those that arm it. -/

namespace LatteCode.Headless.Reminders
open Outcome Runs Handover Storage

def REMINDER_CAP_BYTES : Nat := 4096

/-- An armed text; the call that armed it tells equal texts apart. -/
structure Reminder (κ : Type) where
  call : κ
  text : String

/-- `str::trim_end`. -/
def trimEnd (text : String) : String :=
  String.ofList (text.toList.reverse.dropWhile isWhitespace).reverse

def repositoryContextMessage (bundle : String) : Option Message :=
  if (trim bundle).isEmpty then none
  else some (.user (frameVolatile "repository-context" (trimEnd bundle)))

def reminderMessage (reminder : String) : Message := .user (frameVolatile "system-reminder" reminder)

/-- The volatile context of a turn, with the reminder that went into it. -/
structure ArmedContext (κ : Type) where
  volatile : VolatileTurnContext
  armedReminder : Option (Reminder κ)
  built : volatile.reminder = armedReminder.map fun reminder => reminderMessage reminder.text

section Calls

variable {κ : Type}

def buildVolatileTurnContext (bundle : String) (reminder : Option (Reminder κ)) : ArmedContext κ where
  volatile := ⟨repositoryContextMessage bundle, reminder.map fun reminder => reminderMessage reminder.text⟩
  armedReminder := reminder
  built := by dsimp only

/-- The calls on one session. A prompt of the mailbox is a follow-up too. -/
inductive Call where
  | setReminder (value : String)
  | start (args : CreateSession)
  | followUp (args : FollowUp)
  | provideInput (expectedSessionRevision expectedTurnRevision : Nat) (commandId : SessionCommandId)
      (requestId value : String)
  | resolvePermission (expectedSessionRevision expectedTurnRevision : Nat) (requestId : String) (allow : Bool)

/-- Where a call stands between two of its steps, with what it goes on with. -/
inductive Stage (κ : Type) where
  | called
  | arming (text : String)
  | taking (snapshot : SessionSnapshot) (turnId : TurnId) (bundle : String)
  | preparing (snapshot : SessionSnapshot) (turnId : TurnId) (context : ArmedContext κ)
  | resolving (snapshot : SessionSnapshot) (turnId : TurnId) (context : ArmedContext κ)
  | acquiring (snapshot : SessionSnapshot) (turnId : TurnId) (context : ArmedContext κ)
  | committing (snapshot : SessionSnapshot) (turnId : TurnId) (lease : Lease) (context : ArmedContext κ)
  | assembling (bundle : String) (armedReminder : Option (Reminder κ))
  | returned

/-- The reminder that a call has taken and not given back. -/
def Stage.armedReminder : Stage κ → Option (Reminder κ)
  | preparing _ _ context => context.armedReminder
  | resolving _ _ context => context.armedReminder
  | acquiring _ _ context => context.armedReminder
  | committing _ _ _ context => context.armedReminder
  | assembling _ armedReminder => armedReminder
  | _ => none

/-- What the calls ask of the engine, the provider and the workspace; `σ` is the durable state with everything else
that the answers depend on. -/
structure Services (σ : Type) where
  loadFull : σ → Except SessionRuntimeError SessionSnapshot
  preflightFirstTurn : σ → CreateSession → Except SessionRuntimeError String
  durableReplay : σ → CreateSession → Except SessionRuntimeError (Option SessionSnapshot)
  lookupFollowUpReplay : σ → FollowUp → Except SessionRuntimeError (Option SessionSnapshot)
  /-- `resolved_profile` and `context::build`. -/
  contextBundle : σ → SessionSnapshot → Except SessionRuntimeError String
  prepareHistory : σ → SessionSnapshot → String → VolatileTurnContext → Except SessionRuntimeError Unit
  provider : σ → SessionProviderBinding → Except String Unit
  acquire : σ → Except SessionRuntimeError (Lease × σ)
  createStartedSession : σ → CreateSession → Lease → Except SessionRuntimeError (CreateOutcome × σ)
  createStartedSessionFollowUp : σ → FollowUp → Lease → Except SessionRuntimeError (CreateOutcome × σ)
  commit : σ → SessionCommitRequest → Lease → Except SessionRuntimeError σ
  /-- All of `resolve_permission`: its volatile context has no reminder. -/
  resolvePermission : σ → Nat → Nat → String → Bool → Except SessionRuntimeError σ

/-- The runtime of one session. The contexts of the committed turns and answers and the reminder that was armed last are
not stored by the code. -/
structure Runtime (σ κ : Type) where
  durable : σ
  pendingReminder : Option (Reminder κ)
  stages : κ → Stage κ
  committed : List (κ × ArmedContext κ)
  newest : Option (Reminder κ)

variable {σ : Type} [DecidableEq κ]

namespace Runtime

variable (s : Runtime σ κ)

def goOn (k : κ) (stage : Stage κ) : Runtime σ κ := { s with stages := Function.update s.stages k stage }

def takeReminder : Runtime σ κ := { s with pendingReminder := none }

/-- A newer reminder that was armed meanwhile is never overwritten. -/
def restoreReminder (value : Option (Reminder κ)) : Runtime σ κ :=
  { s with pendingReminder := s.pendingReminder.or value }

end Runtime

variable (R : Redactor) (V : Services σ) (k : κ) (s : Runtime σ κ)

/-- The checks of `set_reminder`. -/
def admitReminder (durable : σ) (value : String) : Except SessionRuntimeError String := do
  let snapshot ← V.loadFull durable
  ensure (snapshot.lifecycle = .ready) .invalidState
  let redacted := R.redactSessionText value
  ensure (¬ (trim redacted).isEmpty) (.history "reminder text must not be empty")
  ensure (redacted.utf8ByteSize ≤ REMINDER_CAP_BYTES)
    (.history ("reminder exceeds the " ++ toString REMINDER_CAP_BYTES ++ "-byte cap"))
  .ok redacted

def setReminder (value : String) : Stage κ → Runtime σ κ
  | .called =>
      match admitReminder R V s.durable value with
      | .error _ => s.goOn k .returned
      | .ok text => s.goOn k (.arming text)
  | .arming text => { s with pendingReminder := some ⟨k, text⟩, newest := some ⟨k, text⟩ }.goOn k .returned
  | _ => s

/-- `start_one`: the turn is durable before the reminder is taken. -/
def startOne (args : CreateSession) : Stage κ → Runtime σ κ
  | .called =>
      match V.preflightFirstTurn s.durable args, V.durableReplay s.durable args with
      | .ok bundle, .ok none =>
          match V.acquire s.durable with
          | .error _ => s.goOn k .returned
          | .ok (lease, durable) =>
              match V.createStartedSession durable args lease with
              | .ok (.created snapshot, durable) => { s with durable }.goOn k (.taking snapshot args.turnId bundle)
              | _ => { s with durable }.goOn k .returned
      | _, _ => s.goOn k .returned
  | .taking snapshot _ bundle =>
      match V.provider s.durable snapshot.binding with
      | .error _ => s.goOn k .returned
      | .ok () => s.takeReminder.goOn k (.assembling bundle s.pendingReminder)
  | .assembling bundle armedReminder =>
      { s with committed := s.committed ++ [(k, buildVolatileTurnContext bundle armedReminder)] }.goOn k .returned
  | _ => s

/-- What `follow_up_one` asks before it takes the reminder; `none` is a replay. -/
def admitFollowUp (durable : σ) (args : FollowUp) : Except SessionRuntimeError (Option (SessionSnapshot × String)) := do
  let snapshot ← V.loadFull durable
  match ← V.lookupFollowUpReplay durable args with
  | some _ => .ok none
  | none => do
      ensure (snapshot.revision = args.expectedSessionRevision ∧ snapshot.lifecycle = .ready) .invalidState
      let bundle ← V.contextBundle durable snapshot
      .ok (some (snapshot, bundle))

def followUpOne (args : FollowUp) : Stage κ → Runtime σ κ
  | .called =>
      match admitFollowUp V s.durable args with
      | .ok (some (snapshot, bundle)) => s.goOn k (.taking snapshot args.turnId bundle)
      | _ => s.goOn k .returned
  | .taking snapshot turnId bundle =>
      s.takeReminder.goOn k (.preparing snapshot turnId (buildVolatileTurnContext bundle s.pendingReminder))
  | .preparing snapshot turnId context =>
      match V.prepareHistory s.durable snapshot args.prompt context.volatile with
      | .error _ => (s.restoreReminder context.armedReminder).goOn k .returned
      | .ok () => s.goOn k (.acquiring snapshot turnId context)
  | .acquiring snapshot turnId context =>
      match V.acquire s.durable with
      | .error _ => (s.restoreReminder context.armedReminder).goOn k .returned
      | .ok (lease, durable) => { s with durable }.goOn k (.committing snapshot turnId lease context)
  | .committing _ _ lease context =>
      match V.createStartedSessionFollowUp s.durable args lease with
      | .error _ => (s.restoreReminder context.armedReminder).goOn k .returned
      | .ok (.replayed _, durable) => ({ s with durable }.restoreReminder context.armedReminder).goOn k .returned
      | .ok (.created _, durable) => { s with durable, committed := s.committed ++ [(k, context)] }.goOn k .returned
  | _ => s

/-- The child that waits for its input. -/
def waitingTurn (snapshot : SessionSnapshot) (expectedSessionRevision expectedTurnRevision : Nat) :
    Except SessionRuntimeError SessionTurnSummary := do
  let turnId ← require snapshot.activeTurnId .invalidState
  let turn ← require (snapshot.turns.find? fun turn => turn.turnId = turnId) .invalidState
  ensure (snapshot.lifecycle = .waitingInput ∧ snapshot.revision = expectedSessionRevision ∧
    turn.turnRevision = expectedTurnRevision) .invalidState
  .ok turn

def admitInput (durable : σ) (expectedSessionRevision expectedTurnRevision : Nat) :
    Except SessionRuntimeError (SessionSnapshot × TurnId × String) := do
  let snapshot ← V.loadFull durable
  let turn ← waitingTurn snapshot expectedSessionRevision expectedTurnRevision
  let bundle ← V.contextBundle durable snapshot
  .ok (snapshot, turn.turnId, bundle)

/-- The commit of an answer, under the revisions of the snapshot that was loaded first. -/
def inputRequest (snapshot : SessionSnapshot) (expectedTurnRevision : Nat) (commandId : SessionCommandId)
    (turnId : TurnId) (requestId value : String) : SessionCommitRequest where
  sessionId := snapshot.sessionId
  turnId := turnId
  expectedSessionRevision := snapshot.revision
  expectedTurnRevision := expectedTurnRevision
  commandId := commandId
  requestId := none
  effectId := none
  update := .provideInput (turnId.toString ++ ":input:" ++ requestId) requestId value

def provideInput (expectedSessionRevision expectedTurnRevision : Nat) (commandId : SessionCommandId)
    (requestId value : String) : Stage κ → Runtime σ κ
  | .called =>
      match admitInput V s.durable expectedSessionRevision expectedTurnRevision with
      | .error _ => s.goOn k .returned
      | .ok (snapshot, turnId, bundle) => s.goOn k (.taking snapshot turnId bundle)
  | .taking snapshot turnId bundle =>
      s.takeReminder.goOn k (.preparing snapshot turnId (buildVolatileTurnContext bundle s.pendingReminder))
  | .preparing snapshot turnId context =>
      match V.prepareHistory s.durable snapshot value context.volatile with
      | .error _ => (s.restoreReminder context.armedReminder).goOn k .returned
      | .ok () => s.goOn k (.resolving snapshot turnId context)
  -- the next two stages leave by `?`, without the reminder
  | .resolving snapshot turnId context =>
      match V.provider s.durable snapshot.binding with
      | .error _ => s.goOn k .returned
      | .ok () => s.goOn k (.acquiring snapshot turnId context)
  | .acquiring snapshot turnId context =>
      match V.acquire s.durable with
      | .error _ => s.goOn k .returned
      | .ok (lease, durable) => { s with durable }.goOn k (.committing snapshot turnId lease context)
  | .committing snapshot turnId lease context =>
      match V.commit s.durable (inputRequest snapshot expectedTurnRevision commandId turnId requestId value) lease with
      | .error _ => (s.restoreReminder context.armedReminder).goOn k .returned
      | .ok durable => { s with durable, committed := s.committed ++ [(k, context)] }.goOn k .returned
  | _ => s

/-- No reminder goes through `resolve_permission`. -/
def resolvePermission (expectedSessionRevision expectedTurnRevision : Nat) (requestId : String) (allow : Bool) :
    Stage κ → Runtime σ κ
  | .called =>
      match V.resolvePermission s.durable expectedSessionRevision expectedTurnRevision requestId allow with
      | .error _ => s.goOn k .returned
      | .ok durable => { s with durable }.goOn k .returned
  | _ => s

def stepCall : Call → Stage κ → Runtime σ κ
  | .setReminder value => setReminder R V k s value
  | .start args => startOne V k s args
  | .followUp args => followUpOne V k s args
  | .provideInput session turn commandId requestId value => provideInput V k s session turn commandId requestId value
  | .resolvePermission session turn requestId allow => resolvePermission V k s session turn requestId allow

/-- A call makes its next step, or something else changes what the answers depend on. -/
inductive Move (σ κ : Type) where
  | call (k : κ)
  | world (durable : σ)

def move (calls : κ → Call) (s : Runtime σ κ) : Move σ κ → Runtime σ κ
  | .call k => stepCall R V k s (calls k) (s.stages k)
  | .world durable => { s with durable }

def freshRuntime (durable : σ) : Runtime σ κ := ⟨durable, none, fun _ => .called, [], none⟩

/-! ## The slot and the hands of the calls -/

def Runtime.post (s : Runtime σ κ) : Post κ (Reminder κ) where
  slot := s.pendingReminder
  hands k := (s.stages k).armedReminder
  used := s.committed.filterMap fun entry => entry.2.armedReminder
  newest := s.newest

/-- What a call can do to the slot: its step is one act, or none. A call that has armed its reminder returns. -/
def Acts (s s' : Runtime σ κ) (loses : Prop) : Prop :=
  (s'.post = s.post ∧ ¬ loses) ∨ ∃ a, s'.post = s.post.act a ∧ s.post.Allows a ∧
    (∀ r, a = .offer r → s'.stages r.call = .returned) ∧ (s.post.Loses a ↔ loses)

section Lemmas

variable {k : κ} {s : Runtime σ κ} {stage : Stage κ} {context : ArmedContext κ}

theorem post_goOn : (s.goOn k stage).post =
    { s.post with hands := Function.update s.post.hands k stage.armedReminder } := by
  have hands : (fun j => (Function.update s.stages k stage j).armedReminder) =
      Function.update (fun j => (s.stages j).armedReminder) k stage.armedReminder :=
    funext fun j => Function.apply_update (fun _ => Stage.armedReminder) s.stages k stage j
  rw [Runtime.post, Runtime.goOn, hands, Runtime.post]

theorem goOn_quiet (same : stage.armedReminder = (s.stages k).armedReminder) : (s.goOn k stage).post = s.post := by
  have kept : Function.update s.post.hands k stage.armedReminder = s.post.hands := by
    rw [same]
    exact Function.update_eq_self k s.post.hands
  rw [post_goOn, kept]

theorem goOn_take (taken : stage.armedReminder = s.pendingReminder) :
    (s.takeReminder.goOn k stage).post = s.post.act (.take k) := by
  rw [post_goOn, taken]
  rfl

theorem goOn_restore {value : Option (Reminder κ)} (held : (s.stages k).armedReminder = value) :
    ((s.restoreReminder value).goOn k .returned).post = s.post.act (.putBack k) := by
  subst held
  rw [post_goOn]
  rfl

theorem goOn_drop : (s.goOn k .returned).post = s.post.act (.drop k) := by
  rw [post_goOn]
  rfl

theorem goOn_commit (held : (s.stages k).armedReminder = context.armedReminder) :
    ({ s with committed := s.committed ++ [(k, context)] }.goOn k .returned).post = s.post.act (.use k) := by
  have last : [(k, context)].filterMap (fun entry => entry.2.armedReminder) = (s.post.hands k).toList := by
    rw [show s.post.hands k = context.armedReminder from held]
    cases built : context.armedReminder <;> simp [built]
  have used : (s.committed ++ [(k, context)]).filterMap (fun entry => entry.2.armedReminder) =
      s.post.used ++ (s.post.hands k).toList := by
    rw [List.filterMap_append, last]
    rfl
  have committed : ({ s with committed := s.committed ++ [(k, context)] } : Runtime σ κ).post =
      { s.post with used := s.post.used ++ (s.post.hands k).toList } := by
    rw [← used]
    rfl
  rw [post_goOn, committed]
  rfl

theorem goOn_arm {text : String} (idle : (s.stages k).armedReminder = none) :
    ({ s with pendingReminder := some ⟨k, text⟩, newest := some ⟨k, text⟩ }.goOn k .returned).post =
      s.post.act (.offer ⟨k, text⟩) := by
  rw [post_goOn]
  have kept : Function.update s.post.hands k none = s.post.hands := by
    rw [← idle]
    exact Function.update_eq_self k s.post.hands
  exact congrArg (fun hands : κ → Option (Reminder κ) =>
    (⟨some ⟨k, text⟩, hands, s.post.used, some ⟨k, text⟩⟩ : Post κ (Reminder κ))) kept

end Lemmas

section Steps

variable {R : Redactor} {V : Services σ} {k : κ} {s : Runtime σ κ}

def refused {ε α : Type} : Except ε α → Bool
  | .error _ => true
  | .ok _ => false

/-- The step of a call that holds a reminder leaves its turn or answer uncommitted. -/
def fails (V : Services σ) (durable : σ) : Call → Stage κ → Bool
  | .followUp args, .preparing snapshot _ context => refused (V.prepareHistory durable snapshot args.prompt context.volatile)
  | .followUp _, .acquiring .. => refused (V.acquire durable)
  | .followUp args, .committing _ _ lease _ =>
      match V.createStartedSessionFollowUp durable args lease with
      | .ok (.created _, _) => false
      | _ => true
  | .provideInput _ _ _ _ value, .preparing snapshot _ context =>
      refused (V.prepareHistory durable snapshot value context.volatile)
  | .provideInput .., .resolving snapshot _ _ => refused (V.provider durable snapshot.binding)
  | .provideInput .., .acquiring .. => refused (V.acquire durable)
  | .provideInput _ turn commandId requestId value, .committing snapshot turnId lease _ =>
      refused (V.commit durable (inputRequest snapshot turn commandId turnId requestId value) lease)
  | _, _ => false

/-- An answer between its history and its commit. -/
def unrestored : Call → Stage κ → Bool
  | .provideInput .., .resolving .. => true
  | .provideInput .., .acquiring .. => true
  | _, _ => false

/-- A call that holds the newest reminder fails where it does not put it back, or finds an older one put back. -/
structure Drops (V : Services σ) (s : Runtime σ κ) (k : κ) (call : Call) : Prop where
  armed : s.newest ≠ none
  held : (s.stages k).armedReminder = s.newest
  failed : fails V s.durable call (s.stages k) = true
  unfit : unrestored call (s.stages k) = true ∨ s.pendingReminder ≠ none

theorem Acts.quiet {s' : Runtime σ κ} {call : Call} (same : s'.post = s.post)
    (goes : fails V s.durable call (s.stages k) = false) : Acts s s' (Drops V s k call) :=
  .inl ⟨same, fun drops => absurd (drops.failed.symm.trans goes) (by decide)⟩

/-- An act that loses nothing. -/
theorem Acts.safe {s' : Runtime σ κ} {call : Call} {a : Act κ (Reminder κ)} (done : s'.post = s.post.act a)
    (allowed : s.post.Allows a) (returns : ∀ r, a = .offer r → s'.stages r.call = .returned) (keeps : ¬ s.post.Loses a)
    (goes : fails V s.durable call (s.stages k) = false) : Acts s s' (Drops V s k call) :=
  .inr ⟨a, done, allowed, returns, fun loses => absurd loses keeps, fun drops => absurd (drops.failed.symm.trans goes) (by decide)⟩

theorem Acts.restored {s' : Runtime σ κ} {call : Call} (done : s'.post = s.post.act (.putBack k))
    (failed : fails V s.durable call (s.stages k) = true) (restores : unrestored call (s.stages k) = false) :
    Acts s s' (Drops V s k call) := by
  refine .inr ⟨_, done, trivial, nofun, ?_⟩
  constructor
  · rintro ⟨armed, held, full⟩
    exact ⟨armed, held, failed, .inr full⟩
  · rintro ⟨armed, held, _, unrestored | full⟩
    · exact absurd (unrestored.symm.trans restores) (by decide)
    · exact ⟨armed, held, full⟩

theorem Acts.dropped {s' : Runtime σ κ} {call : Call} (done : s'.post = s.post.act (.drop k))
    (failed : fails V s.durable call (s.stages k) = true) (forgets : unrestored call (s.stages k) = true) :
    Acts s s' (Drops V s k call) := by
  refine .inr ⟨_, done, trivial, nofun, ?_⟩
  constructor
  · rintro ⟨armed, held⟩
    exact ⟨armed, held, failed, .inl forgets⟩
  · rintro ⟨armed, held, _, _⟩
    exact ⟨armed, held⟩

theorem setReminder_acts {value : String} (fresh : ∀ r, s.post.Present r → s.stages r.call = .returned) :
    Acts s (setReminder R V k s value (s.stages k)) (Drops V s k (.setReminder value)) := by
  have goes : fails V s.durable (.setReminder value) (s.stages k) = false := rfl
  rcases here : s.stages k with _ | text | _ | _ | _ | _ | _ | _ | _
  all_goals unfold setReminder
  case called =>
    dsimp only
    split
    · exact .quiet (goOn_quiet (by rw [here]; rfl)) goes
    · exact .quiet (goOn_quiet (by rw [here]; rfl)) goes
  case arming text =>
    refine .safe (goOn_arm (by rw [here]; rfl)) ?_ ?_ id goes
    · intro present
      exact absurd (here.symm.trans (fresh _ present)) (by simp)
    · rintro r ⟨⟩
      exact Function.update_self _ _ _
  all_goals exact .quiet rfl goes

theorem startOne_acts {args : CreateSession} :
    Acts s (startOne V k s args (s.stages k)) (Drops V s k (.start args)) := by
  have goes : fails V s.durable (.start args) (s.stages k) = false := rfl
  rcases here : s.stages k with _ | _ | ⟨snapshot, turnId, bundle⟩ | _ | _ | _ | _ | ⟨bundle, armed⟩ | _
  all_goals unfold startOne
  case called =>
    have same : (Stage.returned : Stage κ).armedReminder = (s.stages k).armedReminder := by rw [here]; rfl
    dsimp only
    split
    case h_1 bundle _ =>
      split
      · exact .quiet (goOn_quiet same) goes
      · split
        · exact .quiet (goOn_quiet (by rw [here]; rfl)) goes
        · exact .quiet (goOn_quiet same) goes
    case h_2 => exact .quiet (goOn_quiet same) goes
  case taking =>
    dsimp only
    split
    · exact .quiet (goOn_quiet (by rw [here]; rfl)) goes
    · exact .safe (goOn_take rfl) (by rw [Post.Allows]; exact congrArg Stage.armedReminder here) nofun id goes
  case assembling =>
    exact .safe (goOn_commit (congrArg Stage.armedReminder here)) trivial nofun id goes
  all_goals exact .quiet rfl goes

theorem followUpOne_acts {args : FollowUp} :
    Acts s (followUpOne V k s args (s.stages k)) (Drops V s k (.followUp args)) := by
  rcases here : s.stages k with _ | _ | ⟨snapshot, turnId, bundle⟩ | ⟨snapshot, turnId, context⟩ | _ |
    ⟨snapshot, turnId, context⟩ | ⟨snapshot, turnId, lease, context⟩ | _ | _
  all_goals unfold followUpOne
  case called =>
    dsimp only
    split
    · exact .quiet (goOn_quiet (by rw [here]; rfl)) (by rw [here]; rfl)
    · exact .quiet (goOn_quiet (by rw [here]; rfl)) (by rw [here]; rfl)
  case taking =>
    exact .safe (goOn_take rfl) (congrArg Stage.armedReminder here) nofun id (by rw [here]; rfl)
  case preparing =>
    dsimp only
    split
    case h_1 failed =>
      exact .restored (goOn_restore (congrArg Stage.armedReminder here)) (by rw [here, fails, failed]; rfl)
        (by rw [here]; rfl)
    case h_2 done =>
      exact .quiet (goOn_quiet (by rw [here]; rfl)) (by rw [here, fails, done]; rfl)
  case acquiring =>
    dsimp only
    split
    case h_1 failed =>
      exact .restored (goOn_restore (congrArg Stage.armedReminder here)) (by rw [here, fails, failed]; rfl)
        (by rw [here]; rfl)
    case h_2 done =>
      exact .quiet (goOn_quiet (by rw [here]; rfl)) (by rw [here, fails, done]; rfl)
  case committing =>
    dsimp only
    split
    case h_1 failed =>
      exact .restored (goOn_restore (congrArg Stage.armedReminder here)) (by rw [here, fails, failed])
        (by rw [here]; rfl)
    case h_2 replayed =>
      exact .restored (goOn_restore (congrArg Stage.armedReminder here)) (by rw [here, fails, replayed])
        (by rw [here]; rfl)
    case h_3 done =>
      exact .safe (goOn_commit (congrArg Stage.armedReminder here)) trivial nofun id (by rw [here, fails, done])
  all_goals exact .quiet rfl (by rw [here]; rfl)

theorem provideInput_acts {session turn : Nat} {commandId : SessionCommandId} {requestId value : String} :
    Acts s (provideInput V k s session turn commandId requestId value (s.stages k))
      (Drops V s k (.provideInput session turn commandId requestId value)) := by
  rcases here : s.stages k with _ | _ | ⟨snapshot, turnId, bundle⟩ | ⟨snapshot, turnId, context⟩ |
    ⟨snapshot, turnId, context⟩ | ⟨snapshot, turnId, context⟩ | ⟨snapshot, turnId, lease, context⟩ | _ | _
  all_goals unfold provideInput
  case called =>
    dsimp only
    split
    · exact .quiet (goOn_quiet (by rw [here]; rfl)) (by rw [here]; rfl)
    · exact .quiet (goOn_quiet (by rw [here]; rfl)) (by rw [here]; rfl)
  case taking =>
    exact .safe (goOn_take rfl) (congrArg Stage.armedReminder here) nofun id (by rw [here]; rfl)
  case preparing =>
    dsimp only
    split
    case h_1 failed =>
      exact .restored (goOn_restore (congrArg Stage.armedReminder here)) (by rw [here, fails, failed]; rfl)
        (by rw [here]; rfl)
    case h_2 done =>
      exact .quiet (goOn_quiet (by rw [here]; rfl)) (by rw [here, fails, done]; rfl)
  case resolving =>
    dsimp only
    split
    case h_1 failed => exact .dropped goOn_drop (by rw [here, fails, failed]; rfl) (by rw [here]; rfl)
    case h_2 done => exact .quiet (goOn_quiet (by rw [here]; rfl)) (by rw [here, fails, done]; rfl)
  case acquiring =>
    dsimp only
    split
    case h_1 failed => exact .dropped goOn_drop (by rw [here, fails, failed]; rfl) (by rw [here]; rfl)
    case h_2 done => exact .quiet (goOn_quiet (by rw [here]; rfl)) (by rw [here, fails, done]; rfl)
  case committing =>
    dsimp only
    split
    case h_1 failed =>
      exact .restored (goOn_restore (congrArg Stage.armedReminder here)) (by rw [here, fails, failed]; rfl)
        (by rw [here]; rfl)
    case h_2 done =>
      exact .safe (goOn_commit (congrArg Stage.armedReminder here)) trivial nofun id (by rw [here, fails, done]; rfl)
  all_goals exact .quiet rfl (by rw [here]; rfl)

theorem resolvePermission_acts {session turn : Nat} {requestId : String} {allow : Bool} :
    Acts s (resolvePermission V k s session turn requestId allow (s.stages k))
      (Drops V s k (.resolvePermission session turn requestId allow)) := by
  have goes : fails V s.durable (.resolvePermission session turn requestId allow) (s.stages k) = false := rfl
  rcases here : s.stages k with _ | _ | _ | _ | _ | _ | _ | _ | _
  all_goals unfold resolvePermission
  case called =>
    dsimp only
    split
    · exact .quiet (goOn_quiet (by rw [here]; rfl)) goes
    · exact .quiet (goOn_quiet (by rw [here]; rfl)) goes
  all_goals exact .quiet rfl goes

theorem stepCall_acts {call : Call} (fresh : ∀ r, s.post.Present r → s.stages r.call = .returned) :
    Acts s (stepCall R V k s call (s.stages k)) (Drops V s k call) := by
  cases call with
  | setReminder value => exact setReminder_acts fresh
  | start args => exact startOne_acts
  | followUp args => exact followUpOne_acts
  | provideInput session turn commandId requestId value => exact provideInput_acts
  | resolvePermission session turn requestId allow => exact resolvePermission_acts

/-- A step moves its own call only. -/
theorem stepCall_other {call : Call} {stage : Stage κ} {j : κ} (apart : j ≠ k) :
    (stepCall R V k s call stage).stages j = s.stages j := by
  have moved : ∀ (t : Runtime σ κ) next, t.stages = s.stages → (t.goOn k next).stages j = s.stages j := by
    intro t next same
    rw [Runtime.goOn, same]
    exact Function.update_of_ne apart _ _
  cases call <;> cases stage <;>
    simp only [stepCall, setReminder, startOne, followUpOne, provideInput, resolvePermission]
  all_goals
    repeat' split
    all_goals first | rfl | exact moved _ _ rfl

theorem stepCall_returned {call : Call} : stepCall R V k s call .returned = s := by cases call <;> rfl

theorem move_returned {calls : κ → Call} {m : Move σ κ} {j : κ} (returned : s.stages j = .returned) :
    (move R V calls s m).stages j = .returned := by
  cases m with
  | world durable => exact returned
  | call k =>
      rw [move]
      by_cases same : j = k
      · subst same
        rw [returned, stepCall_returned]
        exact returned
      · rw [stepCall_other same]
        exact returned

end Steps

/-! ## Runs -/

section Runs

variable {R : Redactor} {V : Services σ} {calls : κ → Call} {s : Runtime σ κ}

/-- What a move can lose. -/
def Loses (V : Services σ) (calls : κ → Call) (s : Runtime σ κ) : Move σ κ → Prop
  | .call k => Drops V s k (calls k)
  | .world _ => False

/-- What is armed comes from calls that have returned, and is in one place only. -/
structure Sound (s : Runtime σ κ) : Prop where
  fresh : ∀ r, s.post.Present r → s.stages r.call = .returned
  apart : s.post.Apart

theorem move_acts {m : Move σ κ} (sound : Sound s) : Acts s (move R V calls s m) (Loses V calls s m) := by
  cases m with
  | call k => exact stepCall_acts sound.fresh
  | world durable => exact .inl ⟨rfl, id⟩

theorem Sound.move {m : Move σ κ} (sound : Sound s) : Sound (move R V calls s m) := by
  rcases move_acts sound with ⟨same, _⟩ | ⟨a, done, allowed, returns, _⟩
  · refine ⟨fun r present => move_returned (sound.fresh r (same ▸ present)), same ▸ sound.apart⟩
  · refine ⟨fun r present => ?_, done ▸ sound.apart.act allowed⟩
    rcases Post.present_act (done ▸ present) with old | offered
    · exact move_returned (sound.fresh r old)
    · exact returns r offered

omit [DecidableEq κ] in
theorem freshRuntime_sound {durable : σ} : Sound (freshRuntime durable : Runtime σ κ) := by
  have nowhere : ∀ r, ¬ (freshRuntime durable : Runtime σ κ).post.Present r := by
    rintro r (slot | ⟨k, held⟩ | used)
    · cases slot
    · cases held
    · cases used
  refine ⟨fun r present => absurd present (nowhere r), ⟨?_, ?_, ?_, ?_, List.nodup_nil⟩⟩
  · intro k r slot
    cases slot
  · intro k j r held
    cases held
  · intro r slot
    cases slot
  · intro k r held
    cases held

/-- A move keeps the newest reminder exactly when it does not lose it. -/
theorem move_kept_iff {m : Move σ κ} (sound : Sound s) (kept : s.post.Kept) :
    (move R V calls s m).post.Kept ↔ ¬ Loses V calls s m := by
  rcases move_acts sound with ⟨same, keeps⟩ | ⟨a, done, allowed, _, loses⟩
  · rw [same]
    exact ⟨fun _ => keeps, fun _ => kept⟩
  · rw [done, Post.kept_act_iff sound.apart kept allowed, loses]

/-- The runtime after the first `n` moves. -/
abbrev runtimeAt (R : Redactor) (V : Services σ) (calls : κ → Call) (durable : σ) (moves : List (Move σ κ)) (n : Nat) :
    Runtime σ κ := stateAt (move R V calls) (freshRuntime durable) moves n

theorem runtimeAt_sound {durable : σ} {moves : List (Move σ κ)} (n : Nat) :
    Sound (runtimeAt R V calls durable moves n) := invariant_at freshRuntime_sound (fun _ _ sound => sound.move) n

/-- The reminder that was armed last waits in the slot, is held by a call under way, or is in the volatile context of a
committed turn or answer. -/
def StillArmed (s : Runtime σ κ) : Prop := ∀ r, s.newest = some r → s.pendingReminder = some r ∨
  (∃ k, (s.stages k).armedReminder = some r) ∨ ∃ entry ∈ s.committed, entry.2.armedReminder = some r

omit [DecidableEq κ] in
theorem stillArmed_iff : StillArmed s ↔ s.post.Kept := by
  refine forall_congr' fun r => imp_congr_right fun _ => or_congr_right (or_congr_right ?_)
  exact (List.mem_filterMap).symm

/-- However the calls of a session interleave and fail, a reminder goes into the volatile context of one committed turn
or answer at most; and the newest one is never lost exactly when no call drops it. -/
theorem run_reminders_iff (R : Redactor) (V : Services σ) (calls : κ → Call) (durable : σ) (moves : List (Move σ κ)) :
    (∀ n, ((runtimeAt R V calls durable moves n).committed.filterMap fun entry => entry.2.armedReminder).Nodup) ∧
    ((∀ n, n ≤ moves.length → StillArmed (runtimeAt R V calls durable moves n)) ↔
      ∀ n (bound : n < moves.length), ¬ Loses V calls (runtimeAt R V calls durable moves n) moves[n]) := by
  refine ⟨fun n => (runtimeAt_sound n).apart.once, ?_⟩
  constructor
  · intro armed n bound
    have later := armed (n + 1) bound
    rw [stillArmed_iff, runtimeAt, stateAt_succ bound] at later
    exact (move_kept_iff (runtimeAt_sound n) (stillArmed_iff.mp (armed n (Nat.le_of_lt bound)))).mp later
  · intro keeps n bound
    have start : Sound (freshRuntime durable : Runtime σ κ) ∧ (freshRuntime durable : Runtime σ κ).post.Kept :=
      ⟨freshRuntime_sound, fun _ impossible => nomatch impossible⟩
    have step : ∀ (t : Runtime σ κ) (m : Move σ κ), Sound t ∧ t.post.Kept → ¬ Loses V calls t m →
        Sound (move R V calls t m) ∧ (move R V calls t m).post.Kept :=
      fun t m held good => ⟨held.1.move, (move_kept_iff held.1 held.2).mpr good⟩
    have all := @invariant_of_steps _ _ _ _ _ (fun t : Runtime σ κ => Sound t ∧ t.post.Kept) _ start step keeps n bound
    exact stillArmed_iff.mpr all.2

end Runs

end Calls

/-! ## A reminder that is lost -/

/-- The storage, a clock, and what the provider and the history answer. -/
structure World (E : Environment) where
  db : E.Db
  now : Nat
  history : Except SessionRuntimeError Unit
  provider : Except String Unit

/-- The services of one session over the storage, without repository files; its transcript fits one page. -/
def storageServices (E : Environment) (sessionId : SessionId) (owner : String) (ttl : Nat) : Services (World E) where
  loadFull w := (sessionSnapshot E w.db sessionId none 500).mapError .storage
  preflightFirstTurn _ _ := .ok ""
  durableReplay w args := match args.commandId with
    | none => .ok none
    | some commandId => (lookupCreateReplay E w.db commandId args.sessionId args.workspaceRoot args.prompt args.binding
        args.focus).mapError .storage
  lookupFollowUpReplay w args := match args.commandId with
    | none => .ok none
    | some commandId => (Storage.lookupFollowUpReplay E w.db commandId args.sessionId args.expectedSessionRevision
        args.prompt).mapError .storage
  contextBundle _ _ := .ok ""
  prepareHistory w _ _ _ := w.history
  provider w _ := w.provider
  acquire w := ((acquireScopedLease w.db (sessionLeaseScope sessionId) owner none w.now ttl).map fun leased =>
    (leased.1, { w with db := leased.2 })).mapError .storage
  createStartedSession w args lease := ((createSessionV2Inner E w.db args (some lease) w.now).map fun created =>
    (created.1.1, { w with db := created.2 })).mapError .storage
  createStartedSessionFollowUp w args lease :=
    ((createSessionFollowUpV2Inner E w.db args (some lease) w.now).map fun created =>
      (created.1.1, { w with db := created.2 })).mapError .storage
  commit w request lease := ((commitSessionTurnUpdate E request lease w.now w.db).map fun committed =>
    { w with db := committed.2 }).mapError .storage
  -- no permission is pending
  resolvePermission _ _ _ _ _ := .error .invalidState

inductive SampleCall where
  | ask
  | arm
  | answer
deriving DecidableEq

/-- The child of the follow-up. -/
def askedTurn : TurnId := ⟨⟨3#128⟩⟩

def askArgs : FollowUp := ⟨some ⟨⟨20#128⟩⟩, sampleSession, askedTurn, 2, "next", []⟩

/-- A session that is ready again after its first turn. -/
def readyRun : List Operation := sampleRun [(1, 1, .complete "done" ⟨"done", [], []⟩)]

/-- The follow-up of it asks for input. -/
def askedRun : List Operation := readyRun ++ [
  .acquireLease (sessionLeaseScope sampleSession) "engine" none 10 100,
  .createFollowUp askArgs (some ⟨sessionLeaseScope sampleSession, "engine", 2, 110⟩) 10,
  .commit ⟨sampleSession, askedTurn, 4, 1, ⟨⟨21#128⟩⟩, none, none, .requestInput "ask" ⟨"q", "which?"⟩⟩
    ⟨sessionLeaseScope sampleSession, "engine", 2, 110⟩ 10]

def sampleCalls : SampleCall → Call
  | .ask => .followUp askArgs
  | .arm => .setReminder "milk"
  | .answer => .provideInput 5 2 ⟨⟨22#128⟩⟩ "q" "this"

/-- The reminder is armed while the follow-up prepares its history, and the answer finds no provider. -/
def lostMoves : List (Move (World plain) SampleCall) := [
  .call .ask, .call .ask, .call .arm, .call .arm, .call .ask, .call .ask, .call .ask,
  .world ⟨runOf plain askedRun, 20, .ok (), .error "missing API key"⟩,
  .call .answer, .call .answer, .call .answer, .call .answer]

def lostRuntime (n : Nat) : Runtime (World plain) SampleCall :=
  runtimeAt plain.toRedactor (storageServices plain sampleSession "engine" 100) sampleCalls
    ⟨runOf plain readyRun, 10, .ok (), .ok ()⟩ lostMoves n

/-- The answer took the reminder, and left without its provider. -/
theorem reminder_lost : ¬ ∀ (R : Redactor) (V : Services (World plain)) (calls : SampleCall → Call) (durable : World plain)
    (moves : List (Move (World plain) SampleCall)) (n : Nat), StillArmed (runtimeAt R V calls durable moves n) := by
  intro claim
  have armed : (lostRuntime 12).newest.map (fun r => (r.call, r.text)) = some (.arm, "milk") := by decide +kernel
  have slot : (lostRuntime 12).pendingReminder.isNone = true := by decide +kernel
  have hands : ([.ask, .arm, .answer] : List SampleCall).all
      (fun k => ((lostRuntime 12).stages k).armedReminder.isNone) = true := by decide +kernel
  have contexts : (lostRuntime 12).committed.all (fun entry => entry.2.armedReminder.isNone) = true := by decide +kernel
  obtain ⟨r, newest, _⟩ := Option.map_eq_some_iff.mp armed
  rcases claim _ _ _ _ _ 12 r newest with waits | ⟨k, held⟩ | ⟨entry, member, built⟩
  · exact absurd (waits.symm.trans (Option.isNone_iff_eq_none.mp slot)) (by simp)
  · have empty := List.all_eq_true.mp hands k (by cases k <;> simp)
    exact absurd (held.symm.trans (Option.isNone_iff_eq_none.mp empty)) (by simp)
  · have empty := List.all_eq_true.mp contexts entry member
    exact absurd (built.symm.trans (Option.isNone_iff_eq_none.mp empty)) (by simp)

end LatteCode.Headless.Reminders
