import LatteCode.Client.Reports
import LatteCode.Server.Feed
/- Who waits for a session: `observe_session`, and the event bridge of the terminal. -/

namespace LatteCode.Client
open Broadcast Runs Server Storage

/-! ## One event stream -/

/-- A subscription of the workspace channel, until its end, and the frames that are under way to the client. -/
structure Stream where
  position : Option Nat
  socket : List ServerEvent
deriving DecidableEq

def frame : ServerEvent → StreamEvent
  | .sessionChanged sessionId revision => .sessionChanged sessionId revision
  | .progress sessionId turnId => .progress sessionId turnId
  | .resyncRequired => .resyncRequired

section Streams

variable {E : Environment} {hub : Hub E} {stream : Stream}

/-- `workspace_events`: a receiver that lags sends a resync. -/
def Stream.framed (stream : Stream) (hub : Hub E) : Stream :=
  match stream.position with
  | none => stream
  | some position =>
      match hub.events.recv position with
      | (.item event, next) => ⟨some next, stream.socket ++ [event]⟩
      | (.lagged _, next) => ⟨some next, stream.socket ++ [.resyncRequired]⟩
      | (.empty, _) => stream

/-- The connection ends; some of the frames still arrive. -/
def Stream.cut (stream : Stream) (kept : Nat) : Stream := ⟨none, stream.socket.take kept⟩

def Stream.within (stream : Stream) (hub : Hub E) : Prop :=
  ∀ position ∈ stream.position, position ≤ hub.events.sent.length

/-- There is an unread event: in a frame, in the channel of the workspace, or in the one of the engine. -/
def Notified (hub : Hub E) (stream : Stream) : Prop :=
  (∃ event ∈ stream.socket, event.wakes) ∨ ∃ position ∈ stream.position, hub.Waking position

def Stream.ended (stream : Stream) : Prop := stream.position = none

/-- There is an unread event, a call is about to send one, or the stream has ended. -/
def Alert (hub : Hub E) (stream : Stream) : Prop :=
  stream.ended ∨ (∃ event ∈ stream.socket, event.wakes) ∨ ∃ position ∈ stream.position, hub.Awake position

theorem Alert.owed (alert : Alert hub stream) :
    (∃ call ∈ hub.calls, promising call) ∨ stream.ended ∨ Notified hub stream := by
  rcases alert with ended | framed | ⟨position, stands, waking | promised⟩
  · exact .inr (.inl ended)
  · exact .inr (.inr (.inl framed))
  · exact .inr (.inr (.inr ⟨position, stands, waking⟩))
  · exact .inl promised

theorem framed_within (within : stream.within hub) : (stream.framed hub).within hub := by
  unfold Stream.framed
  split
  case h_1 => exact within
  case h_2 position stands =>
    have bound := hub.events.recv_le (within position stands)
    split
    case h_1 received =>
      rw [received] at bound
      rintro next ⟨⟩
      exact bound
    case h_2 received =>
      rw [received] at bound
      rintro next ⟨⟩
      exact bound
    case h_3 => exact within

theorem Alert.framed (alert : Alert hub stream) : Alert hub (stream.framed hub) := by
  unfold Stream.framed
  split
  case h_1 => exact alert
  case h_2 position stands =>
    rcases alert with ended | ⟨event, member, wakes⟩ | ⟨place, here, awake⟩
    · rw [Stream.ended, stands] at ended
      cases ended
    · -- frames that are under way stay so
      split
      · exact .inr (.inl ⟨event, List.mem_append_left _ member, wakes⟩)
      · exact .inr (.inl ⟨event, List.mem_append_left _ member, wakes⟩)
      · exact .inr (.inl ⟨event, member, wakes⟩)
    · rw [stands, Option.mem_some_iff] at here
      subst here
      split
      case h_1 event next received =>
        rcases awake with (unread | behind) | promised
        · rcases unread.item received with wakes | unread
          · exact .inr (.inl ⟨event, List.mem_append_right _ List.mem_cons_self, wakes⟩)
          · exact .inr (.inr ⟨next, rfl, .inl (.inl unread)⟩)
        · exact .inr (.inr ⟨next, rfl, .inl (.inr behind)⟩)
        · exact .inr (.inr ⟨next, rfl, .inr promised⟩)
      case h_2 => exact .inr (.inl ⟨_, List.mem_append_right _ List.mem_cons_self, trivial⟩)
      case h_3 => exact .inr (.inr ⟨position, stands, awake⟩)

/-- A frame that wakes no one leaves the others. -/
theorem Alert.rest {event : ServerEvent} {socket : List ServerEvent} {position : Option Nat}
    (alert : Alert hub ⟨position, event :: socket⟩) (quiet : ¬ event.wakes) : Alert hub ⟨position, socket⟩ := by
  refine alert.imp id (Or.imp ?_ id)
  rintro ⟨other, member, wakes⟩
  rcases List.mem_cons.mp member with rfl | rest
  · exact absurd wakes quiet
  · exact ⟨other, rest, wakes⟩

theorem Alert.step (alert : Alert hub stream) (sound : hub.Sound) (within : stream.within hub) {event : HubEvent}
    (publishes : hub.Publishes event) : Alert (hub.step event) stream := by
  refine alert.imp id (Or.imp id ?_)
  rintro ⟨position, stands, awake⟩
  exact ⟨position, stands, step_awake sound publishes (within position stands) awake⟩

theorem step_within (within : stream.within hub) (event : HubEvent) : stream.within (hub.step event) :=
  fun position stands => Nat.le_trans (within position stands) (step_events event)

/-- A session that shows something else after an event alerts who waits for it. -/
theorem step_alert (sound : hub.Sound) (event : HubEvent) {sessionId : SessionId}
    (found : (hub.db.sessions.get? sessionId).isSome = true) :
    header E (hub.step event).db sessionId = header E hub.db sessionId ∨ Alert (hub.step event) stream := by
  cases stands : stream.position with
  | none => exact .inr (.inl stands)
  | some position => exact (step_header sound event found position).imp id fun awake => .inr (.inr ⟨position, stands, awake⟩)

end Streams

/-! ## `observe_session` -/

/-- A client that observes a session, with what it saw last. -/
structure Watching (E : Environment) where
  hub : Hub E
  stream : Stream
  phase : Phase
  seen : Except StorageError SessionSnapshot

inductive WatchEvent where
  | server (event : HubEvent)
  | framed
  | cut (kept : Nat)
  | looked
  | opened
  | received
  | slept
  | failed (error : ClientError)

section Observer

variable {E : Environment}

def Watching.world (watching : Watching E) : World E := ⟨watching.hub.db, watching.phase, none⟩

/-- `next_event` answers with a frame, or with the end of the stream behind the last one. -/
def Watching.receive (watching : Watching E) (sessionId : SessionId) : Watching E :=
  match watching.stream with
  | ⟨position, event :: socket⟩ => { watching with
      stream := ⟨position, socket⟩
      phase := (watching.world.observe sessionId .streaming (.streamed (some (frame event)))).phase }
  | ⟨none, []⟩ => { watching with phase := (watching.world.observe sessionId .streaming (.streamed none)).phase }
  | ⟨some _, []⟩ => watching

def Watching.step (watching : Watching E) : WatchEvent → Watching E
  | .server event => { watching with hub := watching.hub.step event }
  | .framed => { watching with stream := watching.stream.framed watching.hub }
  | .cut kept => { watching with stream := watching.stream.cut kept }
  | .looked =>
      match watching.phase with
      | .checking sessionId next => { watching with
          phase := (watching.world.check sessionId next).phase
          seen := header E watching.hub.db sessionId }
      | _ => watching
  | .opened =>
      match watching.phase with
      | .awaiting sessionId .opening => { watching with
          stream := ⟨some watching.hub.events.subscribe, []⟩
          phase := (watching.world.observe sessionId .opening .opened).phase }
      | _ => watching
  | .received =>
      match watching.phase with
      | .awaiting sessionId .streaming => watching.receive sessionId
      | _ => watching
  | .slept =>
      match watching.phase with
      | .awaiting sessionId .sleeping => { watching with
          phase := (watching.world.observe sessionId .sleeping .slept).phase }
      | _ => watching
  | .failed error => { watching with phase := .returned (.error error) }

/-- The accepted call has returned. -/
def Watching.new (db : E.Db) (sessionId : SessionId) : Watching E :=
  ⟨.opened db, ⟨none, []⟩, .checking sessionId .opening, .error (.sessionNotFound sessionId)⟩

/-- What has changed since the last look is announced to a client that waits for an event. -/
structure Attentive (watching : Watching E) : Prop where
  sound : watching.hub.Sound
  within : watching.stream.within watching.hub
  waits : ∀ sessionId, watching.phase = .awaiting sessionId .streaming →
    (watching.hub.db.sessions.get? sessionId).isSome = true ∧
    (∃ shown, watching.seen = .ok shown ∧ shown.lifecycle = .running) ∧
    (header E watching.hub.db sessionId = watching.seen ∨ Alert watching.hub watching.stream)

/-- The end of a wait: nothing is expected of a client that does not wait for an event. -/
theorem Attentive.elsewhere {watching : Watching E} (sound : watching.hub.Sound)
    (within : watching.stream.within watching.hub)
    (elsewhere : ∀ sessionId, watching.phase ≠ .awaiting sessionId .streaming) : Attentive watching :=
  ⟨sound, within, fun sessionId waits => absurd waits (elsewhere sessionId)⟩

theorem classify_running {snapshot : SessionSnapshot} (runs : classify snapshot = none) : snapshot.lifecycle = .running := by
  unfold classify at runs
  split at runs
  case h_1 running => exact running
  case h_7 =>
    split at runs
    case h_2 => cases runs
    case h_1 =>
      split at runs
      · cases runs
      · split at runs <;> cases runs
      · cases runs
  all_goals cases runs

/-- A snapshot and the header show the same session row. -/
theorem snapshot_header {db : E.Db} {sessionId : SessionId} {limit : Nat} {snapshot : SessionSnapshot}
    (shown : currentSessionSnapshot E db sessionId limit = .ok snapshot) :
    ∃ head, header E db sessionId = .ok head ∧ head.lifecycle = snapshot.lifecycle ∧
      (db.sessions.get? sessionId).isSome = true := by
  simp only [currentSessionSnapshot, Outcome.bind_ok] at shown
  obtain ⟨inner, taken, built⟩ := shown
  cases built
  obtain ⟨session, found, _⟩ := sessionSnapshot_session taken
  refine ⟨{ inner with transcript := ⟨[], none, false⟩ }, by rw [header, taken]; rfl, rfl, ?_⟩
  rw [found]
  rfl

theorem Attentive.look {watching : Watching E} (attentive : Attentive watching) {sessionId : SessionId} {next : Await} :
    Attentive { watching with
      phase := (watching.world.check sessionId next).phase
      seen := header E watching.hub.db sessionId } := by
  refine ⟨attentive.sound, attentive.within, ?_⟩
  intro other waits
  have waits : (watching.world.check sessionId next).phase = .awaiting other .streaming := waits
  unfold World.check at waits
  split at waits
  case h_1 => cases waits
  case h_2 snapshot shown =>
    split at waits
    case h_1 => cases waits
    case h_2 runs =>
      cases waits
      obtain ⟨head, headed, lifecycle, found⟩ := snapshot_header shown
      exact ⟨found, ⟨head, headed, lifecycle.trans (classify_running runs)⟩, .inl rfl⟩

theorem Attentive.receive {watching : Watching E} (attentive : Attentive watching) {sessionId : SessionId}
    (waits : watching.phase = .awaiting sessionId .streaming) : Attentive (watching.receive sessionId) := by
  obtain ⟨found, running, stale⟩ := attentive.waits sessionId waits
  unfold Watching.receive
  split
  case h_1 position event socket stream =>
    have within : (⟨position, socket⟩ : Stream).within watching.hub := by
      have bound := attentive.within
      rw [stream] at bound
      exact bound
    cases event with
    | sessionChanged | resyncRequired => exact .elsewhere attentive.sound within fun _ same => by cases same
    | progress =>
        -- the one frame that leaves a client waiting for the next one
        refine ⟨attentive.sound, within, ?_⟩
        intro other still
        have here : watching.phase = .awaiting other .streaming := still
        rw [waits] at here
        cases here
        refine ⟨found, running, stale.imp id fun alert => ?_⟩
        rw [stream] at alert
        exact alert.rest not_false
  case h_2 => exact .elsewhere attentive.sound attentive.within fun _ same => by cases same
  case h_3 => exact attentive

theorem Attentive.step {watching : Watching E} (attentive : Attentive watching) {event : WatchEvent}
    (publishes : ∀ served, event = .server served → watching.hub.Publishes served) : Attentive (watching.step event) := by
  cases event with
  | server event =>
      have kept := publishes event rfl
      refine ⟨step_sound attentive.sound event, step_within attentive.within event, ?_⟩
      intro sessionId waits
      obtain ⟨found, running, stale⟩ := attentive.waits sessionId waits
      refine ⟨step_found attentive.sound event found, running, ?_⟩
      rcases stale with same | alert
      · exact (step_alert attentive.sound event found).imp (fun still => still.trans same) id
      · exact .inr (alert.step attentive.sound attentive.within kept)
  | framed =>
      refine ⟨attentive.sound, framed_within attentive.within, ?_⟩
      intro sessionId waits
      obtain ⟨found, running, stale⟩ := attentive.waits sessionId waits
      exact ⟨found, running, stale.imp id Alert.framed⟩
  | cut kept =>
      refine ⟨attentive.sound, fun _ impossible => (by cases impossible), ?_⟩
      intro sessionId waits
      obtain ⟨found, running, _⟩ := attentive.waits sessionId waits
      exact ⟨found, running, .inr (.inl rfl)⟩
  | looked =>
      simp only [Watching.step]
      split
      · exact attentive.look
      · exact attentive
  | opened =>
      simp only [Watching.step]
      split
      · refine .elsewhere attentive.sound ?_ fun _ same => by cases same
        rintro position ⟨⟩
        exact Nat.le_refl _
      · exact attentive
  | received =>
      simp only [Watching.step]
      split
      case h_1 sessionId waits => exact attentive.receive waits
      case h_2 => exact attentive
  | slept =>
      simp only [Watching.step]
      split
      · exact .elsewhere attentive.sound attentive.within fun _ same => by cases same
      · exact attentive
  | failed error => exact .elsewhere attentive.sound attentive.within fun _ same => by cases same

theorem Attentive.new {db : E.Db} (reached : Reachable E db) (sessionId : SessionId) :
    Attentive (Watching.new db sessionId) :=
  .elsewhere (opened_sound reached) (fun _ impossible => by cases impossible) fun _ same => by cases same

/-- A client that waits while the session has ended is alerted. -/
theorem Attentive.alert {watching : Watching E} (attentive : Attentive watching) {sessionId : SessionId}
    (waits : watching.phase = .awaiting sessionId .streaming) {limit : Nat} {snapshot : SessionSnapshot}
    {outcome : TerminalOutcome} (shown : currentSessionSnapshot E watching.hub.db sessionId limit = .ok snapshot)
    (terminal : classify snapshot = some outcome) : Alert watching.hub watching.stream := by
  obtain ⟨_, ⟨seen, saw, running⟩, stale⟩ := attentive.waits sessionId waits
  refine stale.resolve_left fun same => ?_
  obtain ⟨head, headed, lifecycle, _⟩ := snapshot_header shown
  rw [headed, saw] at same
  cases same
  rw [running] at lifecycle
  rw [classify, ← lifecycle] at terminal
  cases terminal

end Observer

/-! ## The bridge of the terminal -/

inductive ProjectionEvent where
  | sessionChanged
  | closed
deriving DecidableEq

/-- Where `spawn_sse_bridge` stands; only the first connection is made without a resync. -/
inductive BridgePhase where
  | connecting (first : Bool)
  | reading
  | backoff
  | closed
deriving DecidableEq

/-- The bridge and a session that the terminal shows. -/
structure Feeding (E : Environment) where
  hub : Hub E
  stream : Stream
  phase : BridgePhase
  queue : List ProjectionEvent
  /-- A polled event has not led to a snapshot yet. -/
  refreshing : Bool
  seen : Option SessionSnapshot

inductive FeedEvent where
  | server (event : HubEvent)
  | framed
  | cut (kept : Nat)
  | connected
  | refused
  | received
  | rested
  | polled
  | fetched

section Bridge

variable {E : Environment}

def Feeding.receive (feeding : Feeding E) : Feeding E :=
  match feeding.stream with
  | ⟨position, event :: socket⟩ => { feeding with
      stream := ⟨position, socket⟩
      queue := match event with
        | .sessionChanged .. | .resyncRequired => feeding.queue ++ [.sessionChanged]
        | .progress .. => feeding.queue }
  | ⟨none, []⟩ => { feeding with phase := .backoff, queue := feeding.queue ++ [.sessionChanged] }
  | ⟨some _, []⟩ => feeding

def Feeding.step (sessionId : SessionId) (feeding : Feeding E) : FeedEvent → Feeding E
  | .server event => { feeding with hub := feeding.hub.step event }
  | .framed => { feeding with stream := feeding.stream.framed feeding.hub }
  | .cut kept => { feeding with stream := feeding.stream.cut kept }
  | .connected =>
      match feeding.phase with
      | .connecting first => { feeding with
          stream := ⟨some feeding.hub.events.subscribe, []⟩
          phase := .reading
          queue := if first then feeding.queue else feeding.queue ++ [.sessionChanged] }
      | _ => feeding
  | .refused =>
      match feeding.phase with
      | .connecting _ => { feeding with phase := .closed, queue := feeding.queue ++ [.closed] }
      | _ => feeding
  | .received => if feeding.phase = .reading then feeding.receive else feeding
  | .rested => if feeding.phase = .backoff then { feeding with phase := .connecting false } else feeding
  | .polled =>
      match feeding.queue with
      | .sessionChanged :: queue => { feeding with queue := queue, refreshing := true }
      | .closed :: queue => { feeding with queue := queue }
      | [] => feeding
  | .fetched =>
      match header E feeding.hub.db sessionId with
      | .ok shown => { feeding with seen := some shown, refreshing := false }
      | .error _ => { feeding with seen := none, refreshing := false }

def Feeding.new (db : E.Db) : Feeding E := ⟨.opened db, ⟨none, []⟩, .connecting true, [], false, none⟩

/-- What the bridge has seen and the terminal has not fetched. -/
def Feeding.due (feeding : Feeding E) : Prop := feeding.refreshing = true ∨ ProjectionEvent.sessionChanged ∈ feeding.queue

/-- Engine calls reach their event, and at its first connection the bridge has missed no change of what is shown. -/
def Feeding.Kept (sessionId : SessionId) (feeding : Feeding E) : FeedEvent → Prop
  | .server event => feeding.hub.Publishes event
  | .connected => feeding.phase = .connecting true →
      ∀ shown, feeding.seen = some shown → header E feeding.hub.db sessionId = .ok shown
  | _ => True

/-- What has changed since the last fetch is due, or announced to a bridge that reads. -/
structure Fed (sessionId : SessionId) (feeding : Feeding E) : Prop where
  sound : feeding.hub.Sound
  within : feeding.stream.within feeding.hub
  found : ∀ shown, feeding.seen = some shown → (feeding.hub.db.sessions.get? sessionId).isSome = true
  fed : ∀ shown, feeding.seen = some shown → feeding.phase = .reading →
    header E feeding.hub.db sessionId = .ok shown ∨ feeding.due ∨ Alert feeding.hub feeding.stream

theorem header_found {db : E.Db} {sessionId : SessionId} {shown : SessionSnapshot}
    (headed : header E db sessionId = .ok shown) : (db.sessions.get? sessionId).isSome = true := by
  cases found : db.sessions.get? sessionId with
  | some session => rfl
  | none =>
      simp only [header, sessionSnapshot, found, Outcome.require] at headed
      cases headed

theorem Fed.receive {sessionId : SessionId} {feeding : Feeding E} (held : Fed sessionId feeding)
    (reading : feeding.phase = .reading) : Fed sessionId feeding.receive := by
  have queued : ∀ event : ProjectionEvent, ∀ queue : List ProjectionEvent,
      (ProjectionEvent.sessionChanged ∈ queue) → ProjectionEvent.sessionChanged ∈ queue ++ [event] :=
    fun event queue member => List.mem_append_left _ member
  unfold Feeding.receive
  split
  case h_1 position event socket stream =>
    have within : (⟨position, socket⟩ : Stream).within feeding.hub := by
      have bound := held.within
      rw [stream] at bound
      exact bound
    refine ⟨held.sound, within, held.found, ?_⟩
    intro shown seen _
    cases event with
    | sessionChanged | resyncRequired => exact .inr (.inl (.inr (List.mem_append_right _ List.mem_cons_self)))
    | progress =>
        refine (held.fed shown seen reading).imp id (Or.imp id fun alert => ?_)
        rw [stream] at alert
        exact alert.rest not_false
  case h_2 =>
    refine ⟨held.sound, held.within, held.found, ?_⟩
    intro shown seen impossible
    cases impossible
  case h_3 => exact held

theorem Fed.step {sessionId : SessionId} {feeding : Feeding E} (held : Fed sessionId feeding) {event : FeedEvent}
    (kept : feeding.Kept sessionId event) : Fed sessionId (feeding.step sessionId event) := by
  cases event with
  | server event =>
      refine ⟨step_sound held.sound event, step_within held.within event, ?_, ?_⟩
      · intro shown seen
        exact step_found held.sound event (held.found shown seen)
      · intro shown seen reading
        rcases held.fed shown seen reading with same | due | alert
        · rcases step_alert held.sound event (held.found shown seen) with still | alert
          · exact .inl (still.trans same)
          · exact .inr (.inr alert)
        · exact .inr (.inl due)
        · exact .inr (.inr (alert.step held.sound held.within kept))
  | framed =>
      refine ⟨held.sound, framed_within held.within, held.found, ?_⟩
      intro shown seen reading
      exact (held.fed shown seen reading).imp id (Or.imp id Alert.framed)
  | cut kept =>
      refine ⟨held.sound, fun _ impossible => (by cases impossible), held.found, ?_⟩
      intro shown seen reading
      exact .inr (.inr (.inl rfl))
  | connected =>
      simp only [Feeding.step]
      split
      case h_2 => exact held
      case h_1 first phase =>
        refine ⟨held.sound, ?_, held.found, ?_⟩
        · rintro position ⟨⟩
          exact Nat.le_refl _
        · intro shown seen _
          cases first with
          | true => exact .inl (kept phase shown seen)
          | false => exact .inr (.inl (.inr (List.mem_append_right _ List.mem_cons_self)))
  | refused =>
      simp only [Feeding.step]
      split
      case h_1 => exact ⟨held.sound, held.within, held.found, fun _ _ impossible => by cases impossible⟩
      case h_2 => exact held
  | received =>
      simp only [Feeding.step]
      split
      case isTrue reading => exact held.receive reading
      case isFalse => exact held
  | rested =>
      simp only [Feeding.step]
      split
      case isTrue => exact ⟨held.sound, held.within, held.found, fun _ _ impossible => by cases impossible⟩
      case isFalse => exact held
  | polled =>
      simp only [Feeding.step]
      split
      case h_1 => exact ⟨held.sound, held.within, held.found, fun _ _ _ => .inr (.inl (.inl rfl))⟩
      case h_2 queue polled =>
        refine ⟨held.sound, held.within, held.found, ?_⟩
        intro shown seen reading
        refine (held.fed shown seen reading).imp id (Or.imp (Or.imp id fun member => ?_) id)
        rw [polled] at member
        exact (List.mem_cons.mp member).resolve_left fun same => by cases same
      case h_3 => exact held
  | fetched =>
      simp only [Feeding.step]
      split
      case h_1 shown headed =>
        refine ⟨held.sound, held.within, fun _ _ => header_found headed, ?_⟩
        rintro other ⟨⟩ _
        exact .inl headed
      case h_2 =>
        exact ⟨held.sound, held.within, fun _ impossible => (by cases impossible),
          fun _ impossible => by cases impossible⟩

theorem Fed.new {db : E.Db} (reached : Reachable E db) (sessionId : SessionId) : Fed sessionId (Feeding.new db) :=
  ⟨opened_sound reached, fun _ impossible => (by cases impossible), fun _ impossible => (by cases impossible),
    fun _ impossible => by cases impossible⟩

end Bridge

/-! ## No wake-up is lost -/

section Wakeups

variable (E : Environment) (ops : List Operation) (sessionId : SessionId)

/-- The observer after the first `k` events. -/
abbrev watchingAt (events : List WatchEvent) (k : Nat) : Watching E :=
  stateAt Watching.step (Watching.new (runOf E ops) sessionId) events k

/-- The bridge and the terminal after the first `k` events. -/
abbrev feedingAt (events : List FeedEvent) (k : Nat) : Feeding E :=
  stateAt (Feeding.step sessionId) (Feeding.new (runOf E ops)) events k

/-- A waiting observer of a session that has ended has an event to read, or the end of its stream. -/
def ObserverWakes (events : List WatchEvent) (k : Nat) : Prop :=
  ∀ observed, (watchingAt E ops sessionId events k).phase = .awaiting observed .streaming →
    ∀ snapshot outcome, (watchingAt E ops sessionId events k).world.snapshot observed = .ok snapshot →
      classify snapshot = some outcome →
        (watchingAt E ops sessionId events k).stream.ended ∨
          Notified (watchingAt E ops sessionId events k).hub (watchingAt E ops sessionId events k).stream

/-- A waiting bridge whose terminal shows an old session has an event to read or has passed one on, or its stream ends. -/
def TerminalWakes (events : List FeedEvent) (k : Nat) : Prop :=
  (feedingAt E ops sessionId events k).phase = .reading → (feedingAt E ops sessionId events k).refreshing = false →
    ∀ shown, (feedingAt E ops sessionId events k).seen = some shown →
      header E (feedingAt E ops sessionId events k).hub.db sessionId ≠ .ok shown →
        ProjectionEvent.sessionChanged ∈ (feedingAt E ops sessionId events k).queue ∨
          (feedingAt E ops sessionId events k).stream.ended ∨
          Notified (feedingAt E ops sessionId events k).hub (feedingAt E ops sessionId events k).stream

end Wakeups

/-- If every engine call that has committed reaches its event, and the terminal fetches nothing that changes before its
first connection, no wake-up is lost: at most it is still owed by a call that has committed and not returned. -/
theorem wakeups_kept (E : Environment) (ops : List Operation) (sessionId : SessionId) :
    (∀ events : List WatchEvent,
      (∀ k (bound : k < events.length) served, events[k] = .server served →
        (watchingAt E ops sessionId events k).hub.Publishes served) →
      ∀ k, k ≤ events.length → (∃ call ∈ (watchingAt E ops sessionId events k).hub.calls, promising call) ∨
        ObserverWakes E ops sessionId events k) ∧
    (∀ events : List FeedEvent,
      (∀ k (bound : k < events.length), (feedingAt E ops sessionId events k).Kept sessionId events[k]) →
      ∀ k, k ≤ events.length → (∃ call ∈ (feedingAt E ops sessionId events k).hub.calls, promising call) ∨
        TerminalWakes E ops sessionId events k) := by
  constructor
  · intro events publishes k bound
    have attentive : Attentive (watchingAt E ops sessionId events k) :=
      invariant_of_steps (Attentive.new (reachable_runOf ops) sessionId) (fun _ _ held good => held.step good) publishes k
        bound
    refine or_iff_not_imp_left.mpr fun returned => ?_
    intro observed waits snapshot outcome shown terminal
    exact (attentive.alert waits shown terminal).owed.resolve_left returned
  · intro events kept k bound
    have fed : Fed sessionId (feedingAt E ops sessionId events k) :=
      invariant_of_steps (Fed.new (reachable_runOf ops) sessionId) (fun _ _ held good => held.step good) kept k bound
    refine or_iff_not_imp_left.mpr fun returned => ?_
    intro reading idle shown seen stale
    rcases fed.fed shown seen reading with same | due | alert
    · exact absurd same stale
    · refine .inl (due.resolve_left ?_)
      rw [idle]
      exact Bool.false_ne_true
    · exact .inr (alert.owed.resolve_left returned)

/-! ## Lost wake-ups -/

/-- A stream whose receivers have read everything. -/
theorem not_notified {E : Environment} {hub : Hub E} {stream : Stream} (read : stream = ⟨some hub.events.sent.length, []⟩)
    (bridged : hub.bridge = hub.sessionEvents.sent.length) : ¬ (stream.ended ∨ Notified hub stream) := by
  subst read
  rintro (impossible | ⟨_, member, _⟩ | ⟨position, stands, unread | unread⟩)
  · cases impossible
  · cases member
  · cases stands
    exact Channel.not_unread unread
  · rw [bridged] at unread
    exact Channel.not_unread unread

theorem publishes_all {E : Environment} (hub : Hub E) (index : Nat) : hub.Publishes (.returns index true true) := by
  simp only [Hub.Publishes, and_self]
  split <;> exact trivial

/-- The session whose event a client waits for. -/
def Phase.awaited : Phase → Option SessionId
  | .awaiting sessionId .streaming => some sessionId
  | _ => none

theorem Phase.awaited_eq {phase : Phase} {sessionId : SessionId} (waits : phase.awaited = some sessionId) :
    phase = .awaiting sessionId .streaming := by
  unfold Phase.awaited at waits
  split at waits <;> cases waits
  rfl

/-- The observed turn completes; its commit is the call that has not returned yet. -/
def completing : List WatchEvent :=
  [.looked, .opened, .looked,
    .server (.call (.commit (sampleRequest 12 1 1 (.complete "done" ⟨"done", [], []⟩)) sampleLease 2))]

def completedWatch (synced : Bool) : List WatchEvent := completing ++ [.server (.returns 0 synced synced)]

abbrev completedAt (synced : Bool) (k : Nat) : Watching plain :=
  watchingAt plain (sampleRun []) sampleSession (completedWatch synced) k

theorem completedWatch_publishes (k : Nat) (bound : k < (completedWatch true).length) (served : HubEvent)
    (event : (completedWatch true)[k] = .server served) : (completedAt true k).hub.Publishes served := by
  match k, bound with
  | 0, _ | 1, _ | 2, _ => cases event
  | 3, _ =>
      cases event
      exact trivial
  | 4, _ =>
      cases event
      exact publishes_all _ 0

/-- The session that the terminal shows completes. -/
def completedFeed : List FeedEvent :=
  [.fetched, .server (.call (.commit (sampleRequest 12 1 1 (.complete "done" ⟨"done", [], []⟩)) sampleLease 2)),
    .server (.returns 0 true true)]

/-- The bridge is connected before it completes. -/
def connectedFeed : List FeedEvent := .connected :: completedFeed

theorem connectedFeed_kept (k : Nat) (bound : k < connectedFeed.length) :
    (feedingAt plain (sampleRun []) sampleSession connectedFeed k).Kept sampleSession connectedFeed[k] := by
  match k, bound with
  | 0, _ =>
      intro _ shown impossible
      cases impossible
  | 1, _ | 2, _ => exact trivial
  | 3, _ =>
      have event : connectedFeed[3] = .server (.returns 0 true true) := rfl
      rw [event]
      exact publishes_all (feedingAt plain (sampleRun []) sampleSession connectedFeed 3).hub 0

theorem wakeups_kept_completed :
    ((completedAt true 5).phase.awaited = some sampleSession ∧
      ((∃ call ∈ (completedAt true 5).hub.calls, promising call) ∨
        ObserverWakes plain (sampleRun []) sampleSession (completedWatch true) 5)) ∧
    ((feedingAt plain (sampleRun []) sampleSession connectedFeed 4).phase = .reading ∧
      ((∃ call ∈ (feedingAt plain (sampleRun []) sampleSession connectedFeed 4).hub.calls, promising call) ∨
        TerminalWakes plain (sampleRun []) sampleSession connectedFeed 4)) :=
  ⟨⟨by decide +kernel,
      (wakeups_kept plain (sampleRun []) sampleSession).1 (completedWatch true) completedWatch_publishes 5 (by decide)⟩,
    by decide +kernel,
      (wakeups_kept plain (sampleRun []) sampleSession).2 connectedFeed connectedFeed_kept 4 (by decide)⟩

/-- The bridge is connected after the event of the completed turn. -/
def lateFeed : List FeedEvent := completedFeed ++ [.server .bridged, .connected]

abbrev lateAt (k : Nat) : Feeding plain := feedingAt plain (sampleRun []) sampleSession lateFeed k

/-- The conversation of the commit cannot be synchronised; and a change between the first fetch and the first
connection of the bridge has been sent on before it subscribes. -/
theorem wakeups_lost :
    (¬ ∀ (E : Environment) (ops : List Operation) (sessionId : SessionId) (events : List WatchEvent) (k : Nat),
      k ≤ events.length → (watchingAt E ops sessionId events k).hub.calls = [] → ObserverWakes E ops sessionId events k) ∧
    (¬ ∀ (E : Environment) (ops : List Operation) (sessionId : SessionId) (events : List FeedEvent) (k : Nat),
      k ≤ events.length → (feedingAt E ops sessionId events k).hub.calls = [] → TerminalWakes E ops sessionId events k) := by
  constructor
  · intro claim
    have waits : (completedAt false 5).phase.awaited = some sampleSession := by decide +kernel
    have terminal : (((completedAt false 5).world.snapshot sampleSession).toOption.bind classify).isSome = true := by
      decide +kernel
    have read : (completedAt false 5).stream = ⟨some (completedAt false 5).hub.events.sent.length, []⟩ ∧
        (completedAt false 5).hub.bridge = (completedAt false 5).hub.sessionEvents.sent.length ∧
        (completedAt false 5).hub.calls = [] := by decide +kernel
    cases shown : (completedAt false 5).world.snapshot sampleSession with
    | error => simp only [shown, Except.toOption, Option.bind_none, Option.isSome_none, Bool.false_eq_true] at terminal
    | ok snapshot =>
        simp only [shown, Except.toOption, Option.bind_some, Option.isSome_iff_exists] at terminal
        obtain ⟨outcome, ended⟩ := terminal
        exact not_notified read.1 read.2.1 (claim plain (sampleRun []) sampleSession (completedWatch false) 5 (by decide)
          read.2.2 sampleSession (Phase.awaited_eq waits) snapshot outcome shown ended)
  · intro claim
    have waits : (lateAt 5).phase = .reading ∧ (lateAt 5).refreshing = false ∧ (lateAt 5).queue = [] := by decide +kernel
    have read : (lateAt 5).stream = ⟨some (lateAt 5).hub.events.sent.length, []⟩ ∧
        (lateAt 5).hub.bridge = (lateAt 5).hub.sessionEvents.sent.length ∧ (lateAt 5).hub.calls = [] := by decide +kernel
    have stale : (lateAt 5).seen.isSome = true ∧
        (header plain (lateAt 5).hub.db sampleSession).toOption.map SessionSnapshot.lifecycle ≠
          (lateAt 5).seen.map SessionSnapshot.lifecycle := by decide +kernel
    obtain ⟨shown, seen⟩ := Option.isSome_iff_exists.mp stale.1
    have moved : header plain (lateAt 5).hub.db sampleSession ≠ .ok shown := by
      intro same
      rw [same, seen] at stale
      exact stale.2 rfl
    have wakes : TerminalWakes plain (sampleRun []) sampleSession lateFeed 5 :=
      claim plain (sampleRun []) sampleSession lateFeed 5 (by decide) read.2.2
    rcases wakes waits.1 waits.2.1 shown seen moved with queued | alerted
    · rw [waits.2.2] at queued
      cases queued
    · exact not_notified read.1 read.2.1 alerted

end LatteCode.Client
