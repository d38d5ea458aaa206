import LatteCode.Client.Observe
import LatteCode.Storage.Ordinals
/- What `run` and `resume` report: a session after their turn was accepted, by its latest turn. -/

namespace LatteCode.Client
open Outcome Runs Storage

theorem foldl_newer (turns : List SessionTurnSummary) (best : Option SessionTurnSummary) :
    ∀ turn, turn ∈ turns ∨ best = some turn → ∃ latest, turns.foldl newer best = some latest ∧
      (latest ∈ turns ∨ best = some latest) ∧ turn.ordinal ≤ latest.ordinal := by
  induction turns generalizing best with
  | nil =>
      rintro turn (impossible | rfl)
      · cases impossible
      · exact ⟨turn, rfl, .inr rfl, Nat.le_refl _⟩
  | cons first turns ih =>
      -- the greater of the first turn and the best so far goes on
      have newest : ∃ held, newer best first = some held ∧ (held = first ∨ best = some held) ∧
          first.ordinal ≤ held.ordinal ∧ ∀ other, best = some other → other.ordinal ≤ held.ordinal := by
        unfold newer
        cases best with
        | none => exact ⟨first, rfl, .inl rfl, Nat.le_refl _, fun other none => by cases none⟩
        | some held =>
            by_cases order : held.ordinal ≤ first.ordinal
            · simp only [if_pos order]
              refine ⟨first, rfl, .inl rfl, Nat.le_refl _, ?_⟩
              rintro other ⟨⟩
              exact order
            · simp only [if_neg order]
              refine ⟨held, rfl, .inr rfl, Nat.le_of_lt (Nat.lt_of_not_le order), ?_⟩
              rintro other ⟨⟩
              exact Nat.le_refl _
      obtain ⟨held, chosen, origin, above, best_below⟩ := newest
      intro turn place
      have source : ∃ other, (other ∈ turns ∨ newer best first = some other) ∧ turn.ordinal ≤ other.ordinal := by
        rcases place with member | rfl
        · rcases List.mem_cons.mp member with rfl | rest
          · exact ⟨held, .inr chosen, above⟩
          · exact ⟨turn, .inl rest, Nat.le_refl _⟩
        · exact ⟨held, .inr chosen, best_below turn rfl⟩
      obtain ⟨other, from_, below⟩ := source
      obtain ⟨latest, folded, here, order⟩ := ih (newer best first) other from_
      refine ⟨latest, folded, ?_, Nat.le_trans below order⟩
      rcases here with rest | kept
      · exact .inl (List.mem_cons_of_mem _ rest)
      · rw [chosen] at kept
        cases kept
        rcases origin with rfl | old
        · exact .inl List.mem_cons_self
        · exact .inr old

/-- The latest turn of a snapshot is one of its turns, and none has a greater ordinal. -/
theorem latestTurn_of_mem {snapshot : SessionSnapshot} {turn : SessionTurnSummary} (member : turn ∈ snapshot.turns) :
    ∃ latest, latestTurn snapshot = some latest ∧ latest ∈ snapshot.turns ∧ turn.ordinal ≤ latest.ordinal := by
  obtain ⟨latest, found, here, order⟩ := foldl_newer snapshot.turns none turn (.inl member)
  refine ⟨latest, found, ?_, order⟩
  rcases here with inside | impossible
  · exact inside
  · cases impossible

/-- Before the call was accepted. -/
def Phase.early : Phase → Bool
  | .resolving | .binding | .creating _ | .reading _ | .following .. => true
  | .checking .. | .awaiting .. | .returned _ => false

/-- The session that is observed. -/
def Phase.watches : Phase → Option SessionId
  | .checking sessionId _ | .awaiting sessionId _ => some sessionId
  | _ => none

section Steps

variable {E : Environment} {command : Command} {world : World E} {events : List Event}

/-- What one event does. -/
inductive Move (world world' : World E) : Prop
  | stored (op : Operation) (done : world' = { world with db := Storage.step E world.db op })
  | still (done : world' = world)
  | early {phase : Phase} (before : world.phase.early = true) (after : phase.early = true) (done : world' = world.goto phase)
  | watching {phase : Phase} (watches : phase.watches = world.phase.watches) (late : phase.early = world.phase.early)
      (quiet : ∀ result, phase ≠ .returned result) (done : world' = world.goto phase)
  | ended {result : Except ClientError TurnResult} (quiet : ∀ snapshot outcome, result ≠ .ok (.terminal snapshot outcome))
      (done : world' = world.goto (.returned result))
  | judged {sessionId : SessionId} {next : Await} {snapshot : SessionSnapshot} {outcome : TerminalOutcome}
      (checking : world.phase = .checking sessionId next) (shown : world.snapshot sessionId = .ok snapshot)
      (judges : classify snapshot = some outcome) (done : world' = world.goto (.returned (.ok (.terminal snapshot outcome))))
  | accepted {sessionId : SessionId} {turnId : TurnId} {op : Operation} (before : world.phase.early = true)
      (newest : Storage.Newest world'.db sessionId turnId) (db : world'.db = Storage.step E world.db op)
      (phase : world'.phase = .checking sessionId .opening) (own : world'.own = some (sessionId, turnId))

theorem check_move {sessionId : SessionId} {next : Await} (checking : world.phase = .checking sessionId next) :
    Move world (world.check sessionId next) := by
  unfold World.check
  split
  case h_1 =>
    refine .ended ?_ rfl
    intro snapshot outcome same
    cases same
  case h_2 snapshot shown =>
    split
    case h_1 outcome judges => exact .judged checking shown judges rfl
    case h_2 =>
      refine .watching ?_ ?_ ?_ rfl
      · rw [checking]
        rfl
      · rw [checking]
        rfl
      · intro result same
        cases same

theorem observe_move {sessionId : SessionId} {await : Await} {input : Input}
    (awaiting : world.phase = .awaiting sessionId await) : Move world (world.observe sessionId await input) := by
  have goes : ∀ phase : Phase, phase.watches = some sessionId → phase.early = false →
      (∀ result, phase ≠ .returned result) → Move world (world.goto phase) := by
    intro phase watches late quiet
    refine .watching ?_ ?_ quiet rfl
    · rw [watches, awaiting]
      rfl
    · rw [late, awaiting]
      rfl
  unfold World.observe
  split
  all_goals first
    | exact goes _ rfl rfl fun _ same => (nomatch same)
    | exact .still rfl

/-- A command that no one has used is accepted as a new turn, or not at all. -/
theorem create_newest (reached : Reachable E world.db) (args : CreateSession) {lease : Option Lease} {now : Nat}
    {commandId : SessionCommandId} (named : args.commandId = some commandId)
    (fresh : world.db.sessionCommandDedup.get? commandId = none) {outcome : CreateOutcome}
    {event : Option StoredSessionEvent} {db : E.Db}
    (created : createSessionV2Inner E world.db args lease now = .ok ((outcome, event), db)) :
    Storage.Newest db args.sessionId args.turnId := by
  rcases (createSessionV2Inner_ok created).2 with ⟨snapshot, replayed, _⟩ | ⟨_, _, _, _, _, done⟩
  · simp only [createReplay, named, bind_ok] at replayed
    obtain ⟨found, looked, rest⟩ := replayed
    simp only [lookupReplay, fresh] at looked
    cases looked
    simp only [bind_ok] at rest
    obtain ⟨_, _, impossible⟩ := rest
    cases impossible
  · exact done.newest reached.graph

theorem followUp_newest (args : FollowUp) {lease : Option Lease} {now : Nat} {commandId : SessionCommandId}
    (named : args.commandId = some commandId) (fresh : world.db.sessionCommandDedup.get? commandId = none)
    {outcome : CreateOutcome} {event : Option StoredSessionEvent} {db : E.Db}
    (created : createSessionFollowUpV2Inner E world.db args lease now = .ok ((outcome, event), db)) :
    Storage.Newest db args.sessionId args.turnId := by
  rcases (createSessionFollowUpV2Inner_ok created).2 with ⟨snapshot, replayed, _⟩ | ⟨_, _, _, _, _, _, _, done⟩
  · simp only [followUpReplay, named, lookupReplay, fresh] at replayed
    cases replayed
  · exact done.newest

theorem accept_move {result : Except StorageError ((CreateOutcome × Option StoredSessionEvent) × E.Db)}
    {sessionId : SessionId} {turnId : TurnId} (op : Operation) (before : world.phase.early = true)
    (stepped : ∀ value db, result = .ok (value, db) → Storage.Newest db sessionId turnId ∧ db = Storage.step E world.db op) :
    Move world (world.accept result sessionId turnId) := by
  cases result with
  | error error =>
      refine .ended ?_ rfl
      intro snapshot outcome same
      cases same
  | ok value =>
      obtain ⟨newest, moved⟩ := stepped value.1 value.2 rfl
      exact .accepted before newest moved rfl rfl

theorem submit_move (reached : Reachable E world.db) (input : Input) (open_ : ∀ result, world.phase ≠ .returned result) :
    Move world (world.submit command world.phase input) := by
  cases phase : world.phase with
  | returned result => exact absurd phase (open_ result)
  | resolving =>
      have before : world.phase.early = true := by rw [phase]; rfl
      cases input with
      | resolved =>
          cases command with
          | run prompt focus => exact .early before rfl rfl
          | resume parsed prompt =>
              cases parsed with
              | ok sessionId => exact .early before rfl rfl
              | error error =>
                  refine .ended ?_ rfl
                  intro snapshot outcome same
                  cases same
      | _ => exact .still rfl
  | binding =>
      have before : world.phase.early = true := by rw [phase]; rfl
      cases input with
      | bound binding => exact .early before rfl rfl
      | _ => exact .still rfl
  | creating binding =>
      have before : world.phase.early = true := by rw [phase]; rfl
      cases input with
      | created sessionId commandId turnId workspaceRoot baseline lease now =>
          cases command with
          | resume => exact .still rfl
          | run prompt focus =>
              simp only [World.submit]
              split
              case isTrue fresh =>
                let args := createOf prompt focus binding sessionId commandId turnId workspaceRoot baseline
                refine accept_move (.createSession args lease now) before ?_
                rintro ⟨outcome, event⟩ db created
                refine ⟨create_newest reached args rfl fresh created, ?_⟩
                rw [Storage.step, exec, created]
                rfl
              case isFalse => exact .still rfl
      | _ => exact .still rfl
  | reading sessionId =>
      have before : world.phase.early = true := by rw [phase]; rfl
      cases input with
      | shown =>
          simp only [World.submit]
          split
          case h_1 =>
            refine .ended ?_ rfl
            intro snapshot outcome same
            cases same
          case h_2 => exact .early before rfl rfl
      | _ => exact .still rfl
  | following sessionId expected =>
      have before : world.phase.early = true := by rw [phase]; rfl
      cases input with
      | followed commandId turnId baseline lease now =>
          cases command with
          | run => exact .still rfl
          | resume parsed prompt =>
              simp only [World.submit]
              split
              case isTrue fresh =>
                let args := followUpOf prompt sessionId expected commandId turnId baseline
                refine accept_move (.createFollowUp args lease now) before ?_
                rintro ⟨outcome, event⟩ db created
                refine ⟨followUp_newest args rfl fresh created, ?_⟩
                rw [Storage.step, exec, created]
                rfl
              case isFalse => exact .still rfl
      | _ => exact .still rfl
  | checking sessionId next =>
      cases input with
      | shown => exact check_move phase
      | _ => exact .still rfl
  | awaiting sessionId await => exact observe_move phase

theorem step_move (reached : Reachable E world.db) (event : Event) : Move world (world.step command event) := by
  cases event with
  | store op => exact .stored op rfl
  | client input =>
      simp only [World.step]
      split
      case h_1 => exact .still rfl
      case h_2 error _ =>
        refine .ended ?_ rfl
        intro snapshot outcome same
        cases same
      case h_3 snapshot _ =>
        refine .ended ?_ rfl
        intro shown outcome same
        cases same
      case h_4 => exact submit_move reached _ (by assumption)

/-- The store of the client moves by calls only. -/
theorem Move.db {world' : World E} (move : Move world world') :
    world'.db = world.db ∨ ∃ op, world'.db = Storage.step E world.db op := by
  cases move with
  | stored op done => exact .inr ⟨op, by rw [done]⟩
  | still done | early _ _ done | watching _ _ _ done | ended _ done | judged _ _ _ done =>
      subst done
      exact .inl rfl
  | accepted _ _ db => exact .inr ⟨_, db⟩

theorem Move.reached {world' : World E} (move : Move world world') (reached : Reachable E world.db) :
    Reachable E world'.db := by
  rcases move.db with same | ⟨op, moved⟩
  · rw [same]
    exact reached
  · rw [moved]
    exact reached.step op

theorem Move.links {world' : World E} (move : Move world world') (reached : Reachable E world.db) {turnId : TurnId}
    {key : SessionId × Option TurnId × Nat} (linked : (world.db.sessionTurns.get? turnId).map linkKey = some key) :
    (world'.db.sessionTurns.get? turnId).map linkKey = some key := by
  rcases move.db with same | ⟨op, moved⟩
  · rw [same]
    exact linked
  · rw [moved]
    exact step_links_kept reached op linked

/-- While a session is observed, it is the one of the accepted turn; before, there is none. -/
structure Observed (world : World E) : Prop where
  reached : Reachable E world.db
  early : world.phase.early = true → world.own = none
  watches : ∀ sessionId, world.phase.watches = some sessionId → ∃ turnId, world.own = some (sessionId, turnId)

theorem Observed.move {world' : World E} (observed : Observed world) (move : Move world world') : Observed world' := by
  refine ⟨move.reached observed.reached, ?_, ?_⟩
  · intro early
    cases move with
    | stored op done | still done =>
        subst done
        exact observed.early early
    | early before after done =>
        subst done
        exact observed.early before
    | watching watches late quiet done =>
        subst done
        exact observed.early (late ▸ early)
    | ended quiet done | judged _ _ _ done =>
        subst done
        cases early
    | accepted _ _ _ phase =>
        rw [phase] at early
        cases early
  · intro sessionId watches
    cases move with
    | stored op done | still done =>
        subst done
        exact observed.watches sessionId watches
    | @early phase before after done =>
        subst done
        cases phase with
        | checking | awaiting | returned => cases after
        | resolving | binding | creating | reading | following => cases watches
    | watching same late quiet done =>
        subst done
        exact observed.watches sessionId (same ▸ watches)
    | ended quiet done | judged _ _ _ done =>
        subst done
        cases watches
    | accepted _ _ _ phase own =>
        rw [phase] at watches
        cases watches
        exact ⟨_, own⟩

theorem observed_after (command : Command) (events : List Event) (k : Nat) : Observed (World.after E command events k) :=
  invariant_at ⟨.refl, fun _ => rfl, fun _ watches => by cases watches⟩
    (fun _ event observed => observed.move (step_move observed.reached event)) k

theorem move_after (command : Command) {k : Nat} (bound : k < events.length) :
    Move (World.after E command events k) (World.after E command events (k + 1)) := by
  have step : World.after E command events (k + 1) = (World.after E command events k).step command events[k] :=
    stateAt_succ bound
  rw [step]
  exact step_move (observed_after command events k).reached events[k]

/-- The turn that is remembered was accepted at one event, as the newest of its session. -/
theorem own_accepted (command : Command) {sessionId : SessionId} {turnId : TurnId} {k : Nat} (bound : k ≤ events.length)
    (owned : (World.after E command events k).own = some (sessionId, turnId)) :
    ∃ i, i < k ∧ (World.after E command events i).own = none ∧
      (World.after E command events (i + 1)).own = some (sessionId, turnId) ∧
      Storage.Newest (World.after E command events (i + 1)).db sessionId turnId := by
  induction k with
  | zero => cases owned
  | succ k ih =>
      have inside : k < events.length := bound
      have old : (World.after E command events k).own = some (sessionId, turnId) →
          ∃ i, i < k + 1 ∧ (World.after E command events i).own = none ∧
            (World.after E command events (i + 1)).own = some (sessionId, turnId) ∧
            Storage.Newest (World.after E command events (i + 1)).db sessionId turnId := by
        intro before
        obtain ⟨i, less, facts⟩ := ih (Nat.le_of_lt inside) before
        exact ⟨i, Nat.lt_succ_of_lt less, facts⟩
      cases move_after command inside with
      | stored _ done | still done | early _ _ done | watching _ _ _ done | ended _ done | judged _ _ _ done =>
          rw [done] at owned
          exact old owned
      | accepted before newest db phase own =>
          refine ⟨k, Nat.lt_succ_self k, (observed_after command events k).early before, owned, ?_⟩
          rw [own] at owned
          cases owned
          exact newest

/-- A terminal result was judged at one event, from the snapshot of that moment. -/
theorem terminal_judged (command : Command) {snapshot : SessionSnapshot} {outcome : TerminalOutcome} {k : Nat}
    (bound : k ≤ events.length)
    (reported : (World.after E command events k).phase = .returned (.ok (.terminal snapshot outcome))) :
    ∃ j sessionId next, j < k ∧ (World.after E command events j).phase = .checking sessionId next ∧
      (World.after E command events j).snapshot sessionId = .ok snapshot ∧ classify snapshot = some outcome := by
  induction k with
  | zero => cases reported
  | succ k ih =>
      have inside : k < events.length := bound
      have old : (World.after E command events k).phase = .returned (.ok (.terminal snapshot outcome)) →
          ∃ j sessionId next, j < k + 1 ∧ (World.after E command events j).phase = .checking sessionId next ∧
            (World.after E command events j).snapshot sessionId = .ok snapshot ∧ classify snapshot = some outcome := by
        intro before
        obtain ⟨j, sessionId, next, less, facts⟩ := ih (Nat.le_of_lt inside) before
        exact ⟨j, sessionId, next, Nat.lt_succ_of_lt less, facts⟩
      cases move_after command inside with
      | stored _ done | still done =>
          rw [done] at reported
          exact old reported
      | @early phase before after done =>
          rw [done] at reported
          have ended : phase = .returned (.ok (.terminal snapshot outcome)) := reported
          rw [ended] at after
          cases after
      | watching _ _ quiet done =>
          rw [done] at reported
          exact absurd reported (quiet _)
      | ended quiet done =>
          rw [done] at reported
          cases reported
          exact absurd rfl (quiet snapshot outcome)
      | judged checking shown judges done =>
          rw [done] at reported
          cases reported
          exact ⟨k, _, _, Nat.lt_succ_self k, checking, shown, judges⟩
      | accepted _ _ _ phase =>
          rw [phase] at reported
          cases reported

theorem links_after (command : Command) {turnId : TurnId} {key : SessionId × Option TurnId × Nat} {i j : Nat}
    (order : i ≤ j) (bound : j ≤ events.length)
    (linked : ((World.after E command events i).db.sessionTurns.get? turnId).map linkKey = some key) :
    ((World.after E command events j).db.sessionTurns.get? turnId).map linkKey = some key := by
  let R (world world' : World E) : Prop := (world.db.sessionTurns.get? turnId).map linkKey = some key →
    (world'.db.sessionTurns.get? turnId).map linkKey = some key
  refine monotone (R := R) (fun _ => id) (fun first second => second ∘ first) ?_ order bound linked
  intro k inside
  exact (move_after command inside).links (observed_after command events k).reached

end Steps

section Snapshots

variable {E : Environment} {db : E.Db} {sessionId : SessionId} {snapshot : SessionSnapshot}

theorem snapshot_turns {limit : Nat} (shown : currentSessionSnapshot E db sessionId limit = .ok snapshot) :
    snapshot.turns = sessionTurnSummaries E db sessionId := by
  simp only [currentSessionSnapshot, sessionSnapshot, bind_ok, require_ok, Except.ok.injEq] at shown
  obtain ⟨inner, ⟨session, found, _, _, rfl⟩, rfl⟩ := shown
  rfl

/-- The latest turn of a snapshot is a turn that was the newest before, or has been accepted since. -/
theorem latest_since {before : E.Db} {own : TurnId} {limit : Nat} (graph : Graph db)
    (shown : currentSessionSnapshot E db sessionId limit = .ok snapshot) (newest : Storage.Newest before sessionId own)
    (kept : ∀ turnId key, (before.sessionTurns.get? turnId).map linkKey = some key →
      (db.sessionTurns.get? turnId).map linkKey = some key) :
    ∃ latest, latestTurn snapshot = some latest ∧
      (latest.turnId = own ∨ before.sessionTurns.get? latest.turnId = none) := by
  obtain ⟨link, found, owned, others⟩ := newest
  have turns := snapshot_turns shown
  have linked : ∃ row, db.sessionTurns.get? own = some row ∧ row.sessionId = sessionId ∧ row.ordinal = link.ordinal := by
    obtain ⟨row, held, key⟩ := Option.map_eq_some_iff.mp (kept own (linkKey link) (by rw [found, Option.map_some]))
    exact ⟨row, held, (congrArg Prod.fst key).trans owned, congrArg (fun key => key.2.2) key⟩
  obtain ⟨summary, member, _, ordinal⟩ := (mem_sessionTurnSummaries graph).mpr linked
  rw [← turns] at member
  obtain ⟨latest, chosen, inside, order⟩ := latestTurn_of_mem member
  refine ⟨latest, chosen, ?_⟩
  cases old : before.sessionTurns.get? latest.turnId with
  | none => exact .inr rfl
  | some row =>
      refine .inl ?_
      by_contra apart
      -- an older turn keeps its ordinal, which is smaller than that of the own turn
      rw [turns] at inside
      obtain ⟨shownLink, shownFound, shownOwned, shownOrdinal⟩ :=
        (mem_sessionTurnSummaries graph).mp ⟨latest, inside, rfl, rfl⟩
      obtain ⟨later, held, key⟩ := Option.map_eq_some_iff.mp
        (kept latest.turnId (linkKey row) (by rw [old, Option.map_some]))
      rw [shownFound] at held
      cases held
      have below := others latest.turnId row old ((congrArg Prod.fst key).symm.trans shownOwned) apart
      have same : shownLink.ordinal = row.ordinal := congrArg (fun key => key.2.2) key
      rw [← same, shownOrdinal, ← ordinal] at below
      exact absurd order (Nat.not_le_of_lt below)

end Snapshots

/-- A terminal result is judged by the latest turn of a snapshot that was taken after the call of the client was accepted:
the turn that it was accepted for, or one that was accepted later. -/
theorem terminal_reports (E : Environment) (command : Command) (events : List Event) (k : Nat) (bound : k ≤ events.length)
    (snapshot : SessionSnapshot) (outcome : TerminalOutcome)
    (reported : (World.after E command events k).phase = .returned (.ok (.terminal snapshot outcome))) :
    ∃ i j sessionId own latest, i < j ∧ j < k ∧ (World.after E command events i).own = none ∧
      (World.after E command events (i + 1)).own = some (sessionId, own) ∧
      (World.after E command events j).snapshot sessionId = .ok snapshot ∧ classify snapshot = some outcome ∧
      latestTurn snapshot = some latest ∧ (latest.turnId = own ∨
        (World.after E command events (i + 1)).db.sessionTurns.get? latest.turnId = none) := by
  obtain ⟨j, sessionId, next, judged, checking, shown, judges⟩ := terminal_judged command bound reported
  have observed := observed_after (E := E) command events j
  obtain ⟨own, owned⟩ := observed.watches sessionId (by rw [checking]; rfl)
  obtain ⟨i, less, before, accepted, newest⟩ := own_accepted command (Nat.le_trans (Nat.le_of_lt judged) bound) owned
  obtain ⟨latest, chosen, origin⟩ := latest_since observed.reached.graph shown newest fun turnId key linked =>
    links_after command less (Nat.le_trans (Nat.le_of_lt judged) bound) linked
  exact ⟨i, j, sessionId, own, latest, less, judged, before, accepted, shown, judges, chosen, origin⟩

/-! ## A turn of another client -/

def laterTurn : TurnId := ⟨⟨5#128⟩⟩

def laterLease : Lease := ⟨sessionLeaseScope sampleSession, "engine", 2, 102⟩

/-- The turn of a `run` completes, and before the client looks another client's turn is interrupted. -/
def overtakenRun : List Event :=
  [.store (.acquireLease (sessionLeaseScope sampleSession) "engine" none 0 100), .client .resolved,
    .client (.bound sampleBinding),
    .client (.created sampleSession ⟨⟨11#128⟩⟩ sampleTurn "/workspace" [] (some sampleLease) 1), .client .shown,
    .client .opened, .client .shown,
    .store (.commit (sampleRequest 12 1 1 (.complete "done" ⟨"done", [], []⟩)) sampleLease 2),
    .store (.acquireLease (sessionLeaseScope sampleSession) "engine" none 2 100),
    .store (.createFollowUp ⟨some ⟨⟨13#128⟩⟩, sampleSession, laterTurn, 2, "again", []⟩ (some laterLease) 3),
    .store (.commit { sampleRequest 14 4 1 (.interrupt "stop" none) with turnId := laterTurn } laterLease 4),
    .client (.streamed (some (.sessionChanged "" 5))), .client .shown]

abbrev overtaken (k : Nat) : World plain := World.after plain (.run "prompt" none) overtakenRun k

/-- The phase of a command that has reported an interruption. -/
def Phase.interrupted : Phase → Bool
  | .returned (.ok (.terminal _ .interrupted)) => true
  | _ => false

theorem overtaken_reports : ∃ snapshot, (overtaken 13).phase = .returned (.ok (.terminal snapshot .interrupted)) := by
  have reported : (overtaken 13).phase.interrupted = true := by decide +kernel
  unfold Phase.interrupted at reported
  split at reported
  case h_1 snapshot phase => exact ⟨snapshot, phase⟩
  case h_2 => cases reported

theorem terminal_reports_overtaken : ∃ snapshot i j sessionId own latest, i < j ∧ j < 13 ∧ (overtaken i).own = none ∧
    (overtaken (i + 1)).own = some (sessionId, own) ∧ (overtaken j).snapshot sessionId = .ok snapshot ∧
    classify snapshot = some .interrupted ∧ latestTurn snapshot = some latest ∧
    (latest.turnId = own ∨ (overtaken (i + 1)).db.sessionTurns.get? latest.turnId = none) := by
  obtain ⟨snapshot, reported⟩ := overtaken_reports
  exact ⟨snapshot, terminal_reports plain (.run "prompt" none) overtakenRun 13 (by decide) snapshot .interrupted reported⟩

/-- Whether a snapshot shows the sample turn as the latest one, and the session as interrupted. -/
def showsOwnInterrupted : Except StorageError SessionSnapshot → Bool
  | .ok snapshot => decide ((latestTurn snapshot).map SessionTurnSummary.turnId = some sampleTurn) &&
      decide (classify snapshot = some .interrupted)
  | .error _ => false

theorem later_turn_replaces : ¬ ∀ (E : Environment) (command : Command) (events : List Event) (k : Nat)
    (snapshot : SessionSnapshot) (outcome : TerminalOutcome),
    (World.after E command events k).phase = .returned (.ok (.terminal snapshot outcome)) →
    ∃ j sessionId own shown, j ≤ k ∧ (World.after E command events k).own = some (sessionId, own) ∧
      (World.after E command events j).snapshot sessionId = .ok shown ∧
      (latestTurn shown).map SessionTurnSummary.turnId = some own ∧ classify shown = some outcome := by
  intro claim
  obtain ⟨snapshot, reported⟩ := overtaken_reports
  obtain ⟨j, sessionId, own, shown, bound, owned, taken, latest, judged⟩ := claim plain _ overtakenRun 13 snapshot _ reported
  have mine : (overtaken 13).own = some (sampleSession, sampleTurn) := by decide +kernel
  rw [mine] at owned
  cases owned
  have never : ∀ j : Fin 14, showsOwnInterrupted ((overtaken j).snapshot sampleSession) = false := by decide +kernel
  have here := never ⟨j, Nat.lt_succ_of_le bound⟩
  simp only [taken, showsOwnInterrupted, latest, judged, decide_true, Bool.and_self] at here
  cases here

end LatteCode.Client
