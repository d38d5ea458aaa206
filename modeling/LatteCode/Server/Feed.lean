import LatteCode.Lib.Broadcast
import LatteCode.Storage.Silent
/- How a durable change wakes the clients of a workspace: engine events, the bridge, and one event stream. -/

namespace LatteCode.Server
open Broadcast Storage

inductive ServerEvent where
  | sessionChanged (sessionId : String) (revision : Nat)
  | progress (sessionId turnId : String)
  | resyncRequired
deriving DecidableEq

/-- Clients fetch snapshots after these. -/
def ServerEvent.wakes : ServerEvent → Prop
  | .sessionChanged .. | .resyncRequired => True
  | .progress .. => False

/-- The store, the engine calls between their commit and their return, and the two channels of a workspace. -/
structure Hub (E : Environment) where
  db : E.Db
  calls : List Announcement
  sessionEvents : Channel (SessionId × Nat)
  /-- Where the bridge stands. -/
  bridge : Nat
  events : Channel ServerEvent

/-- A workspace as it is opened, over the store of that moment. -/
def Hub.opened {E : Environment} (db : E.Db) : Hub E := ⟨db, [], ⟨64, []⟩, 0, ⟨256, []⟩⟩

inductive HubEvent where
  | call (op : Operation)
  /-- A call goes on after its commit; whether the conversation is synchronised and the projection read. -/
  | returns (index : Nat) (synced projected : Bool)
  | bridged
  | progressed (sessionId turnId : String)

section Steps

variable {E : Environment} (hub : Hub E)

def Hub.call (op : Operation) : Hub E :=
  if served op then
    match exec E hub.db op with
    | .ok (reply, db) => { hub with db := db, calls := hub.calls ++ (announcement op reply).toList }
    | .error _ => hub
  else hub

def Hub.publish (notice : SessionId × Nat) : Hub E := { hub with sessionEvents := hub.sessionEvents.send notice }

/-- An error returns without the event, and a sweep without the ones that remain. -/
def Hub.returns (index : Nat) (synced projected : Bool) : Hub E :=
  let returned := { hub with calls := hub.calls.eraseIdx index }
  match hub.calls[index]? with
  | none => hub
  | some (.created notice) => returned.publish notice
  | some (.response notice) => if synced && projected then returned.publish notice else returned
  | some (.recoveries []) => returned
  | some (.recoveries (notice :: more)) =>
      if synced then ({ hub with calls := hub.calls.set index (.recoveries more) } : Hub E).publish notice else returned

/-- `start_event_bridge`. -/
def Hub.bridged : Hub E :=
  match hub.sessionEvents.recv hub.bridge with
  | (.item (sessionId, revision), bridge) =>
      { hub with bridge := bridge, events := hub.events.send (.sessionChanged sessionId.toString revision) }
  | (.lagged _, bridge) => { hub with bridge := bridge, events := hub.events.send .resyncRequired }
  | (.empty, _) => hub

def Hub.step (hub : Hub E) : HubEvent → Hub E
  | .call op => hub.call op
  | .returns index synced projected => hub.returns index synced projected
  | .bridged => hub.bridged
  | .progressed sessionId turnId => { hub with events := hub.events.send (.progress sessionId turnId) }

/-- A call that goes on after its commit reaches its event. -/
def Hub.Publishes : HubEvent → Prop
  | .returns index synced projected =>
      match hub.calls[index]? with
      | some (.response _) => synced = true ∧ projected = true
      | some (.recoveries (_ :: _)) => synced = true
      | _ => True
  | _ => True

/-- The call has an event to send. -/
def promising : Announcement → Prop
  | .created _ | .response _ => True
  | .recoveries notices => notices ≠ []

/-- An event is on its way to a receiver that stands at this position. -/
def Hub.Waking (position : Nat) : Prop :=
  hub.events.Unread position ServerEvent.wakes ∨ hub.sessionEvents.Unread hub.bridge fun _ => True

/-- Such an event, or a call that is about to send one. -/
def Hub.Awake (position : Nat) : Prop := hub.Waking position ∨ ∃ call ∈ hub.calls, promising call

/-- Receivers stand within their channels. -/
structure Hub.Sound : Prop where
  reached : Reachable E hub.db
  bridge : hub.bridge ≤ hub.sessionEvents.sent.length

end Steps

section Stream

variable {E : Environment} {hub : Hub E} {position : Nat}

theorem opened_sound {db : E.Db} (reached : Reachable E db) : (Hub.opened db).Sound := ⟨reached, Nat.le_refl 0⟩

theorem announcement_promising {op : Operation} {reply : Reply} {call : Announcement}
    (announced : announcement op reply = some call) : promising call := by
  unfold announcement at announced
  split at announced <;> cases announced <;> simp [promising]

theorem publish_waking (sound : hub.Sound) (calls : List Announcement) (notice : SessionId × Nat) :
    (({ hub with calls := calls } : Hub E).publish notice).Waking position :=
  .inr (Channel.unread_send sound.bridge trivial)

theorem Waking.publish (waking : hub.Waking position) (calls : List Announcement) (notice : SessionId × Nat) :
    (({ hub with calls := calls } : Hub E).publish notice).Waking position := by
  rcases waking with unread | unread
  · exact .inl unread
  · exact .inr unread.send

/-- A call that returns touches the engine channel only. -/
theorem returns_keeps (hub : Hub E) (index : Nat) (synced projected : Bool) :
    (hub.returns index synced projected).db = hub.db ∧ (hub.returns index synced projected).events = hub.events ∧
      (hub.returns index synced projected).bridge = hub.bridge ∧
      hub.sessionEvents.sent.length ≤ (hub.returns index synced projected).sessionEvents.sent.length := by
  have sends := Channel.length_send hub.sessionEvents
  unfold Hub.returns
  split
  · exact ⟨rfl, rfl, rfl, Nat.le_refl _⟩
  · exact ⟨rfl, rfl, rfl, sends _⟩
  · split
    · exact ⟨rfl, rfl, rfl, sends _⟩
    · exact ⟨rfl, rfl, rfl, Nat.le_refl _⟩
  · exact ⟨rfl, rfl, rfl, Nat.le_refl _⟩
  · split
    · exact ⟨rfl, rfl, rfl, sends _⟩
    · exact ⟨rfl, rfl, rfl, Nat.le_refl _⟩

/-- The bridge only sends on. -/
theorem bridged_keeps (hub : Hub E) : hub.bridged.db = hub.db ∧ hub.bridged.calls = hub.calls ∧
    hub.bridged.sessionEvents = hub.sessionEvents ∧ hub.events.sent.length ≤ hub.bridged.events.sent.length := by
  have sends := Channel.length_send hub.events
  unfold Hub.bridged
  split
  · exact ⟨rfl, rfl, rfl, sends _⟩
  · exact ⟨rfl, rfl, rfl, sends _⟩
  · exact ⟨rfl, rfl, rfl, Nat.le_refl _⟩

/-- What a call of the store does: it fails, or its reply is announced. -/
theorem call_case (hub : Hub E) (op : Operation) : hub.call op = hub ∨ ∃ reply db, served op = true ∧
    exec E hub.db op = .ok (reply, db) ∧ db = Storage.step E hub.db op ∧
    hub.call op = { hub with db := db, calls := hub.calls ++ (announcement op reply).toList } := by
  unfold Hub.call
  split
  case isFalse => exact .inl rfl
  case isTrue serves =>
    split
    case h_1 reply db result => exact .inr ⟨reply, db, serves, result, by rw [Storage.step, result], rfl⟩
    case h_2 => exact .inl rfl

/-- A call that reaches its event leaves the receivers awake. -/
theorem returns_awake (sound : hub.Sound) {index : Nat} {synced projected : Bool}
    (publishes : hub.Publishes (.returns index synced projected)) (awake : hub.Awake position) :
    (hub.returns index synced projected).Awake position := by
  unfold Hub.Publishes at publishes
  unfold Hub.returns
  split
  case h_1 => exact awake
  case h_2 => exact .inl (publish_waking sound _ _)
  case h_3 held =>
    simp only [held] at publishes
    rw [publishes.1, publishes.2]
    exact .inl (publish_waking sound _ _)
  case h_4 held =>
    -- this call has nothing to send: another one has, or the event is on its way
    refine awake.imp id ?_
    rintro ⟨call, member, promise⟩
    obtain ⟨other, inside, rfl⟩ := List.mem_iff_getElem.mp member
    have apart : index ≠ other := by
      rintro rfl
      rw [List.getElem?_eq_getElem inside, Option.some.injEq] at held
      rw [held] at promise
      exact promise rfl
    exact ⟨hub.calls[other], List.mem_eraseIdx_iff_getElem?.mpr
      ⟨other, apart.symm, List.getElem?_eq_getElem inside⟩, promise⟩
  case h_5 held =>
    simp only [held] at publishes
    rw [publishes]
    exact .inl (publish_waking sound _ _)

theorem bridged_sound (sound : hub.Sound) : hub.bridged.Sound := by
  have bound := hub.sessionEvents.recv_le sound.bridge
  unfold Hub.bridged
  split
  case h_1 received =>
    rw [received] at bound
    exact ⟨sound.reached, bound⟩
  case h_2 received =>
    rw [received] at bound
    exact ⟨sound.reached, bound⟩
  case h_3 => exact sound

theorem bridged_awake (inside : position ≤ hub.events.sent.length) (awake : hub.Awake position) :
    hub.bridged.Awake position := by
  rcases awake with (unread | unread) | promised
  · unfold Hub.bridged
    split
    · exact .inl (.inl unread.send)
    · exact .inl (.inl unread.send)
    · exact .inl (.inl unread)
  · unfold Hub.bridged
    split
    case h_1 => exact .inl (.inl (Channel.unread_send inside trivial))
    case h_2 => exact .inl (.inl (Channel.unread_send inside trivial))
    case h_3 bridge empty => exact absurd empty (unread.not_empty bridge)
  · right
    rw [(bridged_keeps hub).2.1]
    exact promised

theorem step_sound (sound : hub.Sound) (event : HubEvent) : (hub.step event).Sound := by
  cases event with
  | returns index synced projected =>
      obtain ⟨db, _, bridge, longer⟩ := returns_keeps hub index synced projected
      refine ⟨db ▸ sound.reached, ?_⟩
      rw [Hub.step, bridge]
      exact Nat.le_trans sound.bridge longer
  | bridged => exact bridged_sound sound
  | progressed => exact ⟨sound.reached, sound.bridge⟩
  | call op =>
      rw [Hub.step]
      rcases call_case hub op with same | ⟨reply, db, _, _, moved, done⟩
      · rw [same]
        exact sound
      · rw [done]
        exact ⟨moved ▸ sound.reached.step op, sound.bridge⟩

theorem step_awake (sound : hub.Sound) {event : HubEvent} (publishes : hub.Publishes event)
    (inside : position ≤ hub.events.sent.length) (awake : hub.Awake position) : (hub.step event).Awake position := by
  cases event with
  | returns index synced projected => exact returns_awake sound publishes awake
  | bridged => exact bridged_awake inside awake
  | progressed => exact awake.imp (Or.imp Channel.Unread.send id) id
  | call op =>
      rw [Hub.step]
      rcases call_case hub op with same | ⟨reply, db, _, _, _, done⟩
      · rw [same]
        exact awake
      · rw [done]
        refine awake.imp id ?_
        rintro ⟨call, member, promise⟩
        exact ⟨call, List.mem_append_left _ member, promise⟩

/-- A session that shows something else after an event has its wake-up on the way. -/
theorem step_header (sound : hub.Sound) (event : HubEvent) {sessionId : SessionId}
    (found : (hub.db.sessions.get? sessionId).isSome = true) (position : Nat) :
    header E (hub.step event).db sessionId = header E hub.db sessionId ∨ (hub.step event).Awake position := by
  obtain ⟨session, held⟩ := Option.isSome_iff_exists.mp found
  cases event with
  | returns index synced projected => exact .inl (by rw [Hub.step, (returns_keeps hub index synced projected).1])
  | bridged => exact .inl (by rw [Hub.step, (bridged_keeps hub).1])
  | progressed => exact .inl rfl
  | call op =>
      rw [Hub.step]
      rcases call_case hub op with same | ⟨reply, db, serves, result, _, done⟩
      · rw [same]
        exact .inl rfl
      · rw [done]
        cases announced : announcement op reply with
        | none => exact .inl ((exec_silent sound.reached serves result announced held).header held)
        | some call =>
            exact .inr (.inr ⟨call, List.mem_append_right _ List.mem_cons_self, announcement_promising announced⟩)

/-- Sessions stay. -/
theorem step_found (sound : hub.Sound) (event : HubEvent) {sessionId : SessionId}
    (found : (hub.db.sessions.get? sessionId).isSome = true) :
    ((hub.step event).db.sessions.get? sessionId).isSome = true := by
  obtain ⟨session, held⟩ := Option.isSome_iff_exists.mp found
  cases event with
  | returns index synced projected =>
      rw [Hub.step, (returns_keeps hub index synced projected).1]
      exact found
  | bridged =>
      rw [Hub.step, (bridged_keeps hub).1]
      exact found
  | progressed => exact found
  | call op =>
      rw [Hub.step]
      rcases call_case hub op with same | ⟨reply, db, _, _, moved, done⟩
      · rw [same]
        exact found
      · rw [done]
        obtain ⟨session', after, _⟩ := RevisionFenced.step sound.reached (RevisionFenced.of_kept held rfl) op
        rw [← moved] at after
        exact Option.isSome_iff_exists.mpr ⟨session', after⟩

/-- The channel of the workspace only grows. -/
theorem step_events (event : HubEvent) : hub.events.sent.length ≤ (hub.step event).events.sent.length := by
  cases event with
  | returns index synced projected => rw [Hub.step, (returns_keeps hub index synced projected).2.1]
  | bridged => exact (bridged_keeps hub).2.2.2
  | progressed => exact Channel.length_send _ _
  | call op =>
      rw [Hub.step]
      rcases call_case hub op with same | ⟨_, _, _, _, _, done⟩
      · rw [same]
      · rw [done]

end Stream

end LatteCode.Server
