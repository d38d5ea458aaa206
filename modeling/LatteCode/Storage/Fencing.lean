import LatteCode.Lib.FencedLock
import LatteCode.Storage.Effects
/- Lease fencing: the leases are a fenced lock, and the turns follow its tokens. -/

namespace LatteCode.Storage
open Keyed Outcome Numbered Relation Runs Fencing

variable {E : Environment} {db middle db' : E.Db}

/-- The lock that the lease tables implement. -/
def lockOf {D : Type} (db : Database D) : Lock LeaseScope where
  holder scope := (db.runtimeLease.get? scope).map LeaseRow.fencingToken
  last := db.lastToken

theorem authoritative_iff {D : Type} {db : Database D} {scope : LeaseScope} {owner : String} {token now : Nat} :
    db.authoritative scope owner token now = true ↔ ∃ row, db.runtimeLease.get? scope = some row ∧
      row.owner = owner ∧ row.fencingToken = token ∧ row.expiresAtMs > now := by
  simp only [Database.authoritative, Table.holds_iff, Bool.and_eq_true, decide_eq_true_eq, and_assoc]

/-- Live authority is the lock's: its token holds the scope. -/
theorem authoritative_holder {D : Type} {db : Database D} {scope : LeaseScope} {owner : String} {token now : Nat}
    (live : db.authoritative scope owner token now = true) : (lockOf db).holder scope = some token := by
  obtain ⟨row, held, _, same, _⟩ := authoritative_iff.mp live
  simp only [lockOf, held, Option.map_some, same]

/-- Operations that leave the epoch alone and move no token step the lock by freeing. -/
theorem lock_freed (last : db'.lastToken = db.lastToken)
    (leases : ∀ scope row', db'.runtimeLease.get? scope = some row' →
      ∃ row, db.runtimeLease.get? scope = some row ∧ row.fencingToken = row'.fencingToken) :
    (lockOf db).Step (lockOf db') := by
  refine .freed last ?_
  intro scope token held
  obtain ⟨row', found, rfl⟩ := Option.map_eq_some_iff.mp held
  obtain ⟨row, before, same⟩ := leases scope row' found
  simp only [lockOf, before, Option.map_some, same]

theorem lock_same (last : db'.lastToken = db.lastToken) (leases : db'.runtimeLease = db.runtimeLease) :
    (lockOf db).Step (lockOf db') :=
  lock_freed last fun _ row found => ⟨row, leases ▸ found, rfl⟩

/-- Only the expiry of one lease changes. -/
theorem modify_tokens {leases : Table LeaseScope LeaseRow} {scope : LeaseScope} {f : LeaseRow → LeaseRow}
    (kept : ∀ row, (f row).fencingToken = row.fencingToken) (key : LeaseScope) (row' : LeaseRow)
    (found : (leases.modify scope f).get? key = some row') :
    ∃ row, leases.get? key = some row ∧ row.fencingToken = row'.fencingToken := by
  rw [Table.get?_modify] at found
  split at found
  · obtain ⟨row, held, rfl⟩ := Option.map_eq_some_iff.mp found
    exact ⟨row, held, (kept row).symm⟩
  · exact ⟨row', found, rfl⟩

theorem settledLeases_tokens {leases : Table LeaseScope LeaseRow} {sessionId : SessionId} {terminal : Bool}
    (key : LeaseScope) (row' : LeaseRow) (found : (settledLeases leases sessionId terminal).get? key = some row') :
    ∃ row, leases.get? key = some row ∧ row.fencingToken = row'.fencingToken := by
  unfold settledLeases at found
  split at found
  · exact modify_tokens (f := fun row => { row with expiresAtMs := 0 }) (fun _ => rfl) key row' found
  · exact ⟨row', found, rfl⟩

theorem Acquired.lock {scope : LeaseScope} {owner : String} {now : Nat} {lease : Lease}
    (done : Acquired scope owner now db db' lease) : (lockOf db).Step (lockOf db') := by
  rcases done.tokened with ⟨row, found, _, _, token, last⟩ | ⟨_, token, last⟩
  · refine lock_freed last ?_
    intro key row' held
    rw [done.leases, Table.get?_put] at held
    split at held
    case isTrue here =>
      cases held
      exact ⟨row, here ▸ found, token.symm⟩
    case isFalse => exact ⟨row', held, rfl⟩
  · refine .minted scope ?_
    simp only [lockOf, Lock.mint, Lock.mk.injEq]
    refine ⟨?_, last⟩
    funext key
    rw [done.leases, Table.get?_put]
    split
    · rw [Option.map_some, token]
    · rfl

/-- Every change steps the lock. -/
theorem Change.lock (change : Change E db db') : (lockOf db).Step (lockOf db') := by
  cases change with
  | committed done =>
      rw [done.frame]
      exact lock_freed rfl settledLeases_tokens
  | other done =>
      cases done with
      | acquired done => exact done.lock
      | renewed scope expires done =>
          subst done
          exact lock_freed rfl (modify_tokens fun _ => rfl)
      | released freed done =>
          subst done
          refine lock_freed rfl ?_
          intro scope row' found
          rw [Table.get?_deleteWhere, Option.filter_eq_some_iff] at found
          exact ⟨row', found.1, rfl⟩
      | created done | followedUp done | switched done | forked done | interrupted done =>
          rw [done.frame]
          exact lock_same rfl rfl
      | retired done | quiesced done =>
          rw [done.result]
          exact lock_same rfl rfl
      | renamed _ _ done | acknowledged _ done | evidenced _ done | aliased _ _ _ _ _ _ done
      | runCreated _ _ _ _ _ done =>
          subst done
          exact lock_same rfl rfl

theorem Housekeeping.path_lock (path : ReflTransGen (Housekeeping E) db db') :
    ReflTransGen Lock.Step (lockOf db) (lockOf db') := by
  induction path with
  | refl => exact .refl
  | tail _ change ih => exact ih.tail (Change.lock (.other change.uncommitted))

/-- The lease tables simulate the lock: every call is a number of its steps. -/
theorem step_lock (reached : Reachable E db) (op : Operation) :
    ReflTransGen Lock.Step (lockOf db) (lockOf (step E db op)) := by
  rcases step_change reached op with change | path
  · exact .single change.lock
  · exact Housekeeping.path_lock path

/-! ## The tokens of turns -/

/-- Every token in use was minted, and a linked turn is never ahead of the holder of its session. -/
structure Fenced (db : E.Db) : Prop where
  leases : (lockOf db).Bounded
  turns : ∀ turnId turn, db.turns.get? turnId = some turn → turn.leaseToken ≤ db.lastToken
  linked : ∀ turnId turn link token, db.turns.get? turnId = some turn →
    db.sessionTurns.get? turnId = some link →
    (lockOf db).holder (sessionLeaseScope link.sessionId) = some token → turn.leaseToken ≤ token

/-- A linked turn is not ahead of where it was, or not ahead of the holder of its session. -/
def Behind (db db' : E.Db) (turnId : TurnId) (turn' : TurnRow) : Prop :=
  ∀ link', db'.sessionTurns.get? turnId = some link' →
    (∃ turn link, db.turns.get? turnId = some turn ∧ db.sessionTurns.get? turnId = some link ∧
      link.sessionId = link'.sessionId ∧ turn'.leaseToken ≤ turn.leaseToken) ∨
    ∀ token, (lockOf db').holder (sessionLeaseScope link'.sessionId) = some token → turn'.leaseToken ≤ token

theorem Fenced.of_turns (fenced : Fenced db) (lock : (lockOf db).Step (lockOf db'))
    (turns : ∀ turnId turn', db'.turns.get? turnId = some turn' →
      turn'.leaseToken ≤ db'.lastToken ∧ Behind db db' turnId turn') : Fenced db' := by
  refine ⟨lock.bounded fenced.leases, fun turnId turn' found => (turns turnId turn' found).1, ?_⟩
  intro turnId turn' link' token found linked held
  rcases (turns turnId turn' found).2 link' linked with ⟨turn, link, before, old, session, order⟩ | ahead
  · rcases lock.follows.holder _ token held with same | newer
    · rw [← session] at same
      exact Nat.le_trans order (fenced.linked turnId turn link token before old same)
    · have minted := fenced.turns turnId turn before
      simp only [lockOf] at newer
      omega
  · exact ahead token held

/-- Changes that raise no token and keep the links stay fenced. -/
theorem Fenced.of_rows (fenced : Fenced db) (change : Change E db db')
    (links : SameLinks db.sessionTurns db'.sessionTurns)
    (turns : ∀ turnId turn', db'.turns.get? turnId = some turn' → turn'.leaseToken = 0 ∨
      ∃ turn, db.turns.get? turnId = some turn ∧ turn'.leaseToken ≤ turn.leaseToken) : Fenced db' := by
  refine fenced.of_turns change.lock ?_
  intro turnId turn' found
  have last : db.lastToken ≤ db'.lastToken := change.lock.follows.last
  rcases turns turnId turn' found with zero | ⟨turn, before, order⟩
  · exact ⟨by omega, fun link' _ => .inr fun token _ => by omega⟩
  · refine ⟨Nat.le_trans order (Nat.le_trans (fenced.turns turnId turn before) last), ?_⟩
    intro link' linked
    obtain ⟨link, old, session, _⟩ := links.get? linked
    exact .inl ⟨turn, link, before, old, session, order⟩

theorem Fenced.child {sessionId : SessionId} {state : TurnState} {parent : Option TurnId} {ordinal now at_ : Nat}
    {lease : Option Lease} (fenced : Fenced db) (child : ChildWritten db db' sessionId state parent ordinal lease now)
    (held : HeldBy db (sessionLeaseScope sessionId) at_ lease) (leases : lockOf db' = lockOf db) : Fenced db' := by
  have last : db'.lastToken = db.lastToken := congrArg Lock.last leases
  have covered : ∀ lease' ∈ lease, (lockOf db).holder (sessionLeaseScope sessionId) = some lease'.fencingToken :=
    fun lease' same => authoritative_holder (held lease' same).2
  refine fenced.of_turns (leases ▸ .refl _) ?_
  intro turnId turn' found
  rw [child.turns] at found
  rw [last]
  split at found
  case isTrue here =>
    cases found
    cases lease with
    | none => exact ⟨Nat.zero_le _, fun link' _ => .inr fun token _ => Nat.zero_le _⟩
    | some lease =>
        have holder := covered lease rfl
        refine ⟨fenced.leases _ _ holder, ?_⟩
        intro link' linked
        rw [child.links, if_pos here, Option.some.injEq] at linked
        subst linked
        refine .inr fun token owned => ?_
        rw [leases, holder, Option.some.injEq] at owned
        exact Nat.le_of_eq owned
  case isFalse differs =>
    refine ⟨fenced.turns turnId turn' found, ?_⟩
    intro link' linked
    rw [child.links, if_neg differs] at linked
    exact .inl ⟨turn', link', found, linked, rfl, Nat.le_refl _⟩

theorem Fenced.committed {request : SessionCommitRequest} {lease : Lease} {now : Nat}
    {session session' : SessionRow} {turn row : TurnRow} {draft : Draft} {mid : E.Db} {states : List TurnState}
    {cards : List TranscriptEntry} {response : SessionCommitResponse} (fenced : Fenced db) (graph : Graph db)
    (mirrored : Mirrored db)
    (done : Committed E request lease now db db' session session' turn row draft mid states cards response) :
    Fenced db' := by
  have lock := Change.lock (.committed done)
  have last : db'.lastToken = db.lastToken := by rw [done.frame]
  have holder := authoritative_holder done.admitted.authority
  have minted := fenced.leases _ _ holder
  refine fenced.of_turns lock ?_
  intro turnId turn' found
  rw [done.written.turns, mirrored.turnId _ _ done.admitted.foundTurn] at found
  rw [last]
  split at found
  case isTrue here =>
    cases found
    rw [Behind, done.rowToken]
    refine ⟨minted, ?_⟩
    intro link' linked
    obtain ⟨link, old, session, _⟩ := done.links.get? linked
    obtain ⟨own, ownLink, ownSession⟩ := (graph.session _ _ done.admitted.foundSession).latest _
      (graph.gate_latest done.admitted.foundSession done.admitted.gate)
    rw [here, ownLink, Option.some.injEq] at old
    subst old
    refine .inr fun token held => ?_
    rw [← session, ownSession] at held
    rcases lock.follows.holder _ token held with same | newer
    · rw [holder, Option.some.injEq] at same
      exact Nat.le_of_eq same
    · simp only [lockOf] at newer minted
      omega
  case isFalse =>
    refine ⟨fenced.turns turnId turn' found, ?_⟩
    intro link' linked
    obtain ⟨link, old, session, _⟩ := done.links.get? linked
    exact .inl ⟨turn', link, found, old, session, Nat.le_refl _⟩

/-- An acquisition re-tokens only turns that no session links. -/
theorem Fenced.acquired {scope : LeaseScope} {owner : String} {now : Nat} {lease : Lease} (fenced : Fenced db)
    (done : Acquired scope owner now db db' lease) : Fenced db' := by
  have lock := done.lock
  have last : db.lastToken ≤ db'.lastToken := lock.follows.last
  have token : lease.fencingToken ≤ db'.lastToken := by
    refine lock.bounded fenced.leases scope lease.fencingToken ?_
    simp only [lockOf, done.leases, Table.get?_put, if_true, Option.map_some]
  have links : db'.sessionTurns = db.sessionTurns := by rw [done.frame]
  obtain ⟨adopted, legacy, turns⟩ := done.turns
  refine fenced.of_turns lock ?_
  intro turnId turn' found
  rw [turns] at found
  obtain ⟨turn, before, rfl⟩ := Option.map_eq_some_iff.mp found
  have old := Nat.le_trans (fenced.turns turnId turn before) last
  split
  case isTrue named =>
    refine ⟨token, ?_⟩
    intro link' linked
    rw [links, legacy turnId turn named] at linked
    cases linked
  case isFalse =>
    refine ⟨old, ?_⟩
    intro link' linked
    exact .inl ⟨turn, link', before, links ▸ linked, rfl, Nat.le_refl _⟩

theorem Fenced.other (fenced : Fenced db) (mirrored : Mirrored db) (change : Uncommitted E db db') :
    Fenced db' := by
  have rows := fenced.of_rows (.other change)
  have same : db'.turns = db.turns → ∀ turnId turn', db'.turns.get? turnId = some turn' →
      turn'.leaseToken = 0 ∨ ∃ turn, db.turns.get? turnId = some turn ∧ turn'.leaseToken ≤ turn.leaseToken := by
    intro turns turnId turn' found
    exact .inr ⟨turn', turns ▸ found, Nat.le_refl _⟩
  cases change with
  | created done => exact fenced.child done.child done.held (by rw [done.frame]; rfl)
  | followedUp done => exact fenced.child done.child done.held (by rw [done.frame]; rfl)
  | acquired done => exact fenced.acquired done
  | interrupted done =>
      refine rows done.links ?_
      intro turnId turn' found
      rw [done.written.turns] at found
      split at found
      case isTrue here =>
        cases found
        rw [here, mirrored.turnId _ _ done.foundTurn]
        exact .inr ⟨_, done.foundTurn, Nat.le_of_eq (done.rowToken.trans done.turnToken.symm)⟩
      case isFalse => exact .inr ⟨turn', found, Nat.le_refl _⟩
  | retired done =>
      refine rows (by rw [done.result]; exact .refl) ?_
      intro turnId turn' found
      rw [done.result] at found
      simp only [Table.get?_modify] at found
      split at found
      case isTrue =>
        obtain ⟨turn, before, rfl⟩ := Option.map_eq_some_iff.mp found
        exact .inr ⟨turn, before, Nat.le_refl _⟩
      case isFalse => exact .inr ⟨turn', found, Nat.le_refl _⟩
  | quiesced done =>
      refine rows (by rw [done.result]; exact .refl) ?_
      intro turnId turn' found
      rw [done.result] at found
      simp only [Table.get?_modify] at found
      split at found
      case isTrue =>
        obtain ⟨turn, _, rfl⟩ := Option.map_eq_some_iff.mp found
        exact .inl rfl
      case isFalse => exact .inr ⟨turn', found, Nat.le_refl _⟩
  | runCreated state now baselines fresh _ done =>
      subst done
      refine rows .refl ?_
      intro turnId turn' found
      simp only [Table.get?_add_fresh _ _ fresh] at found
      split at found
      case isTrue =>
        cases found
        exact .inl rfl
      case isFalse => exact .inr ⟨turn', found, Nat.le_refl _⟩
  | switched done | forked done =>
      refine rows ?_ (same (by rw [done.frame]))
      rw [done.frame]
      exact .refl
  | renewed _ _ done | released _ done | renamed _ _ done | acknowledged _ done | evidenced _ done
  | aliased _ _ _ _ _ _ done =>
      subst done
      exact rows .refl (same rfl)

theorem Reachable.fenced (reached : Reachable E db) : Fenced db := by
  refine Reachable.invariant ?_ ?_ reached
  · refine ⟨?_, ?_, ?_⟩
    · intro scope token impossible
      cases impossible
    · intro turnId turn impossible
      cases impossible
    · intro turnId turn link token impossible
      cases impossible
  · intro before after path fenced change
    cases change with
    | committed done => exact fenced.committed path.graph path.mirrored done
    | other done => exact fenced.other path.mirrored done

/-- A turn keeps its row, under the same token or a greater one. -/
def TokenKept (before after : Option TurnRow) : Prop :=
  ∀ turn, before = some turn → ∃ turn', after = some turn' ∧ turn.leaseToken ≤ turn'.leaseToken

theorem TokenKept.of_same {before after : Option TurnRow} (same : after = before) : TokenKept before after :=
  fun turn found => ⟨turn, same.trans found, Nat.le_refl _⟩

theorem TokenKept.trans {before middle after : Option TurnRow} (first : TokenKept before middle)
    (second : TokenKept middle after) : TokenKept before after := by
  intro turn found
  obtain ⟨one, held, below⟩ := first turn found
  obtain ⟨two, last, above⟩ := second one held
  exact ⟨two, last, Nat.le_trans below above⟩

theorem ChildWritten.token_kept {sessionId : SessionId} {state : TurnState} {parent : Option TurnId}
    {ordinal now : Nat} {lease : Option Lease}
    (child : ChildWritten db db' sessionId state parent ordinal lease now) (turnId : TurnId) :
    TokenKept (db.turns.get? turnId) (db'.turns.get? turnId) := by
  intro turn found
  refine ⟨turn, ?_, Nat.le_refl _⟩
  rw [child.turns, if_neg]
  · exact found
  · rintro rfl
    rw [child.freshTurn] at found
    cases found

theorem TurnWritten.token_kept {turn row : TurnRow} {states : List TurnState} {now : Nat} (mirrored : Mirrored db)
    (written : TurnWritten db db' turn row states now) {owner : TurnId}
    (found : db.turns.get? owner = some turn) (order : turn.leaseToken ≤ row.leaseToken) (turnId : TurnId) :
    TokenKept (db.turns.get? turnId) (db'.turns.get? turnId) := by
  intro old held
  rw [written.turns, mirrored.turnId _ _ found]
  split
  case isTrue here =>
    rw [here, found, Option.some.injEq] at held
    exact ⟨row, rfl, held ▸ order⟩
  case isFalse => exact ⟨old, held, Nat.le_refl _⟩

theorem Recovery.token_kept (change : Recovery E db db') (mirrored : Mirrored db) (turnId : TurnId) :
    TokenKept (db.turns.get? turnId) (db'.turns.get? turnId) := by
  cases change with
  | interrupted done =>
      exact done.written.token_kept mirrored done.foundTurn
        (Nat.le_of_eq (done.turnToken.trans done.rowToken.symm)) turnId
  | retired done =>
      intro turn found
      rw [done.result]
      simp only [Table.get?_modify, found, Option.map_some]
      split
      · exact ⟨_, rfl, Nat.le_refl _⟩
      · exact ⟨turn, rfl, Nat.le_refl _⟩

theorem Recovery.path_token_kept (path : ReflTransGen (Recovery E) db db') (mirrored : Mirrored db)
    (turnId : TurnId) : TokenKept (db.turns.get? turnId) (db'.turns.get? turnId) := by
  induction path with
  | refl => exact .of_same rfl
  | tail path change ih => exact ih.trans (change.token_kept (Recovery.path_mirrored path mirrored) turnId)

theorem Acquired.token_kept {scope : LeaseScope} {owner : String} {now : Nat} {lease : Lease}
    (done : Acquired scope owner now db db' lease) {turnId : TurnId} {link : SessionTurnRow}
    (linked : db.sessionTurns.get? turnId = some link) :
    TokenKept (db.turns.get? turnId) (db'.turns.get? turnId) := by
  obtain ⟨adopted, legacy, turns⟩ := done.turns
  intro turn found
  refine ⟨turn, ?_, Nat.le_refl _⟩
  rw [turns, found, Option.map_some, if_neg]
  intro named
  rw [legacy turnId turn named] at linked
  cases linked

/-- A release recovers the child of its session, or sets a waiting one to the token zero. -/
theorem releaseScope_token {lease : Lease} {wallNow : Nat} {recovery : Option SessionCommitResponse}
    (turnId : TurnId) (mirrored : Mirrored db)
    (released : releaseScope E db lease wallNow = .ok (recovery, db')) :
    TokenKept (db.turns.get? turnId) (db'.turns.get? turnId) ∨ ∃ turn, db.turns.get? turnId = some turn ∧
      isWaiting turn.state ∧ db'.turns.get? turnId = some { turn with leaseToken := 0 } := by
  unfold releaseScope at released
  split at released
  case h_1 =>
    cases released
    exact .inl (.of_same rfl)
  case h_2 sessionId =>
    simp only [bind_ok, toI64s_ok] at released
    obtain ⟨_, _, released⟩ := released
    unfold releaseSession at released
    split at released
    case h_1 quiet waits =>
      simp only [Except.ok.injEq, Prod.mk.injEq] at released
      obtain ⟨_, rfl⟩ := released
      obtain ⟨_, turn, found, _, waiting⟩ := quiescible_eq_some waits
      rw [mirrored.status _ _ found] at waiting
      simp only [Table.get?_modify]
      by_cases here : turnId = quiet
      · subst here
        refine .inr ⟨turn, found, waiting, ?_⟩
        rw [if_pos rfl, found, Option.map_some]
      · rw [if_neg here]
        exact .inl (.of_same rfl)
    case h_2 =>
      split at released
      case h_1 active _ =>
        split at released
        case isTrue =>
          exact .inl (Recovery.path_token_kept (recoverLinkedSessionTurn_path mirrored released) mirrored turnId)
        case isFalse =>
          cases released
          exact .inl (.of_same rfl)
      case h_2 =>
        cases released
        exact .inl (.of_same rfl)

/-- What one call does to the token of a linked turn. -/
inductive TokenStep (op : Operation) (before after : Option TurnRow) : Prop
  | kept (kept : TokenKept before after)
  | quiesced {turn : TurnRow} {lease : Lease} {wallNow : Nat} (releases : op = .releaseLease lease wallNow)
      (found : before = some turn) (waiting : isWaiting turn.state)
      (zero : after = some { turn with leaseToken := 0 })

theorem exec_token {op : Operation} {reply : Reply} {turnId : TurnId} {link : SessionTurnRow}
    (mirrored : Mirrored db) (linked : db.sessionTurns.get? turnId = some link)
    (result : exec E db op = .ok (reply, db')) :
    TokenStep op (db.turns.get? turnId) (db'.turns.get? turnId) := by
  have same : db'.turns = db.turns → TokenStep op (db.turns.get? turnId) (db'.turns.get? turnId) := by
    intro turns
    exact .kept (.of_same (congrArg (fun table => table.get? turnId) turns))
  cases op with
  | createSession args lease now =>
      simp only [exec, map_ok, Prod.mk.injEq] at result
      obtain ⟨⟨⟨_, _⟩, _⟩, created, _, rfl⟩ := result
      rcases (createSessionV2Inner_ok created).2 with ⟨_, _, _, rfl⟩ | ⟨_, _, _, _, _, done⟩
      · exact same rfl
      · exact .kept (done.child.token_kept turnId)
  | createFollowUp args lease now =>
      simp only [exec, map_ok, Prod.mk.injEq] at result
      obtain ⟨⟨⟨_, _⟩, _⟩, created, _, rfl⟩ := result
      rcases (createSessionFollowUpV2Inner_ok created).2 with ⟨_, _, _, rfl⟩ | ⟨_, _, _, _, _, _, _, done⟩
      · exact same rfl
      · exact .kept (done.child.token_kept turnId)
  | commit request lease now =>
      simp only [exec, map_ok, Prod.mk.injEq] at result
      obtain ⟨⟨_, _⟩, committed, _, rfl⟩ := result
      rcases (commitSessionTurnUpdate_ok mirrored committed).2 with
        ⟨_, _, _, _, rfl⟩ | ⟨_, _, _, _, _, rfl⟩ | ⟨_, _, _, _, _, _, _, _, done⟩
      · exact same rfl
      · exact same rfl
      · exact .kept (done.written.token_kept mirrored done.admitted.foundTurn
          (Nat.le_trans done.admitted.token (Nat.le_of_eq done.rowToken.symm)) turnId)
  | recoverLeaseLoss =>
      simp only [exec, map_ok, Prod.mk.injEq] at result
      obtain ⟨⟨_, _⟩, recovered, _, rfl⟩ := result
      exact .kept (Recovery.path_token_kept (recoverSessionAfterLeaseLoss_path mirrored recovered) mirrored turnId)
  | recoverAt =>
      simp only [exec, map_ok, Prod.mk.injEq] at result
      obtain ⟨⟨_, _⟩, recovered, _, rfl⟩ := result
      exact .kept (Recovery.path_token_kept (recoverAt_path mirrored recovered) mirrored turnId)
  | acquireLease =>
      simp only [exec, map_ok, Prod.mk.injEq] at result
      obtain ⟨⟨_, _⟩, acquired, _, rfl⟩ := result
      exact .kept ((acquireScopedLease_ok acquired).token_kept linked)
  | releaseLease lease wallNow =>
      simp only [exec, map_ok, Prod.mk.injEq] at result
      obtain ⟨⟨_, _⟩, released, _, rfl⟩ := result
      obtain ⟨middle, settled, _, rfl⟩ := releaseLease_ok released
      rcases releaseScope_token turnId mirrored settled with kept | ⟨turn, found, waiting, zero⟩
      · exact .kept kept
      · exact .quiesced rfl found waiting zero
  | createRun state now baseline =>
      simp only [exec, createRunWithBaseline, map_ok, bind_ok, toI64s_ok, unique_ok, Except.ok.injEq,
        Prod.mk.injEq] at result
      obtain ⟨⟨_, _⟩, ⟨_, _, _, fresh, _, _, _, _, _, rfl⟩, _, rfl⟩ := result
      refine .kept fun turn found => ⟨turn, ?_, Nat.le_refl _⟩
      simp only [Table.get?_add_fresh _ _ fresh]
      rw [if_neg]
      · exact found
      · rintro rfl
        rw [fresh] at found
        cases found
  | switchBinding =>
      simp only [exec, map_ok, Prod.mk.injEq] at result
      obtain ⟨⟨_, _⟩, switched, _, rfl⟩ := result
      obtain ⟨_, _, _, _, done⟩ := switchSessionBindingV2_ok switched
      exact same (by rw [done.frame])
  | createFork =>
      simp only [exec, map_ok, Prod.mk.injEq] at result
      obtain ⟨⟨_, _⟩, forked, _, rfl⟩ := result
      obtain ⟨_, done⟩ := createSessionFork_ok forked
      exact same (by rw [done.frame])
  | renewLease =>
      simp only [exec, map_ok, Prod.mk.injEq] at result
      obtain ⟨⟨_, _⟩, renewed, _, rfl⟩ := result
      exact same (by rw [(renewLease_ok renewed).2.2])
  | renameSession =>
      simp only [exec, renameSession, map_ok, bind_ok, ensure_ok, Except.ok.injEq, Prod.mk.injEq] at result
      obtain ⟨⟨_, _⟩, ⟨_, _, _, _, _, rfl⟩, _, rfl⟩ := result
      exact same rfl
  | acknowledgeOutbox =>
      simp only [exec, acknowledgeConversationOutbox, map_ok, bind_ok, toI64s_ok, Except.ok.injEq,
        Prod.mk.injEq] at result
      obtain ⟨⟨_, _⟩, ⟨_, _, _, rfl⟩, _, rfl⟩ := result
      exact same rfl
  | recordEvidence =>
      simp only [exec, recordVerificationEvidence, map_ok, bind_ok, toI64s_ok, unique_ok, Except.ok.injEq,
        Prod.mk.injEq] at result
      obtain ⟨⟨_, _⟩, ⟨_, _, _, _, _, _, _, _, _, _, _, _, _, rfl⟩, _, rfl⟩ := result
      exact same rfl

/-! ## Runs -/

theorem exec_step {op : Operation} {reply : Reply} (result : exec E db op = .ok (reply, db')) :
    step E db op = db' := by rw [step, result]

/-- A same-owner extension of an unexpired lease. -/
def extendsLease {D : Type} (db : Database D) (scope : LeaseScope) (owner : String) (now : Nat) : Bool :=
  db.runtimeLease.holds scope fun row => decide (row.expiresAtMs > now) && row.owner = owner

/-- The lease that a call acts under. -/
def underLease : Operation → Option Lease
  | .createSession _ lease _ | .createFollowUp _ lease _ => lease
  | .switchBinding _ _ _ lease _ | .commit _ lease _ | .renewLease lease _ _ | .releaseLease lease _
  | .recordEvidence _ _ lease _ _ => some lease
  | _ => none

/-- A commit that a deduplication table answers. -/
def replays (E : Environment) (db : E.Db) : Operation → Bool
  | .commit request _ _ => (db.sessionCommandDedup.get? request.commandId).isSome ||
      (db.sessionCommitSources.get? (request.sessionId, request.update.sourceKey)).isSome
  | _ => false

theorem heldBy_holder {scope : LeaseScope} {now : Nat} {held : Option Lease} {lease : Lease}
    (authority : HeldBy db scope now held) (same : held = some lease) :
    (lockOf db).holder lease.scope = some lease.fencingToken := by
  obtain ⟨inScope, live⟩ := authority lease same
  rw [inScope]
  exact authoritative_holder live

/-- What succeeds under a lease finds its token as the holder of its scope, at some point of the call. -/
theorem exec_under {op : Operation} {reply : Reply} {lease : Lease} (reached : Reachable E db)
    (result : exec E db op = .ok (reply, db')) (under : underLease op = some lease)
    (fresh : replays E db op = false) :
    ∃ middle : E.Db, Follows (lockOf db) (lockOf middle) ∧
      (lockOf middle).holder lease.scope = some lease.fencingToken := by
  have mirrored := reached.mirrored
  have now : (lockOf db).holder lease.scope = some lease.fencingToken → ∃ middle : E.Db,
      Follows (lockOf db) (lockOf middle) ∧ (lockOf middle).holder lease.scope = some lease.fencingToken :=
    fun holder => ⟨db, .refl _, holder⟩
  cases op with
  | createSession =>
      simp only [exec, map_ok, Prod.mk.injEq] at result
      obtain ⟨⟨⟨_, _⟩, _⟩, created, _, rfl⟩ := result
      exact now (heldBy_holder (createSessionV2Inner_ok created).1 under)
  | createFollowUp =>
      simp only [exec, map_ok, Prod.mk.injEq] at result
      obtain ⟨⟨⟨_, _⟩, _⟩, created, _, rfl⟩ := result
      exact now (heldBy_holder (createSessionFollowUpV2Inner_ok created).1 under)
  | switchBinding =>
      cases under
      simp only [exec, map_ok, Prod.mk.injEq] at result
      obtain ⟨⟨_, _⟩, switched, _, rfl⟩ := result
      obtain ⟨inScope, live, _⟩ := switchSessionBindingV2_ok switched
      exact now (inScope ▸ authoritative_holder live)
  | commit =>
      cases under
      simp only [exec, map_ok, Prod.mk.injEq] at result
      obtain ⟨⟨_, _⟩, committed, _, rfl⟩ := result
      simp only [replays, Bool.or_eq_false_iff] at fresh
      obtain ⟨inScope, ⟨row, found, _⟩ | ⟨_, source, found, _⟩ | ⟨_, _, _, _, _, _, _, _, done⟩⟩ :=
        commitSessionTurnUpdate_ok mirrored committed
      · rw [found] at fresh
        cases fresh.1
      · rw [found] at fresh
        cases fresh.2
      · exact now (inScope ▸ authoritative_holder done.admitted.authority)
  | renewLease =>
      cases under
      simp only [exec, map_ok, Prod.mk.injEq] at result
      obtain ⟨⟨_, _⟩, renewed, _, rfl⟩ := result
      exact now (authoritative_holder (renewLease_ok renewed).1)
  | releaseLease lease wallNow =>
      cases under
      simp only [exec, map_ok, Prod.mk.injEq] at result
      obtain ⟨⟨_, _⟩, released, _, rfl⟩ := result
      obtain ⟨middle, settled, ⟨row, found, _, same⟩, _⟩ := releaseLease_ok released
      refine ⟨middle, .of_path (Housekeeping.path_lock (releaseScope_path mirrored settled)), ?_⟩
      simp only [lockOf, found, Option.map_some, same]
  | recordEvidence =>
      cases under
      simp only [exec, recordVerificationEvidence, map_ok, bind_ok, requireLeaseScope_ok, ensure_ok,
        Prod.mk.injEq] at result
      obtain ⟨_, ⟨_, _, _, _, _, inScope, _, _, _, ⟨live, _⟩, _⟩, _⟩ := result
      exact now (inScope ▸ authoritative_holder live)
  | _ => cases under

/-- No call returns a lease under a token that was not minted. -/
theorem exec_leased {op : Operation} {lease : Lease} (reached : Reachable E db)
    (result : exec E db op = .ok (.leased lease, db')) : lease.fencingToken ≤ db'.lastToken := by
  have fenced : Fenced db' := exec_step result ▸ (reached.step op).fenced
  cases op with
  | acquireLease scope owner turnId now ttl =>
      simp only [exec, map_ok, Prod.mk.injEq, Reply.leased.injEq] at result
      obtain ⟨⟨_, _⟩, acquired, rfl, rfl⟩ := result
      have done := acquireScopedLease_ok acquired
      refine fenced.leases scope _ ?_
      simp only [lockOf, done.leases, Table.get?_put, if_true, Option.map_some]
  | renewLease held now ttl =>
      simp only [exec, map_ok, Prod.mk.injEq, Reply.leased.injEq] at result
      obtain ⟨⟨_, _⟩, renewed, rfl, rfl⟩ := result
      obtain ⟨live, same, done⟩ := renewLease_ok renewed
      have minted := reached.fenced.leases _ _ (authoritative_holder live)
      simp only [same, done]
      exact minted
  | _ =>
      simp only [exec, map_ok, Prod.mk.injEq] at result
      obtain ⟨_, _, impossible, _⟩ := result
      cases impossible

theorem run_follows (ops : List Operation) {i j : Nat} (order : i ≤ j) (bound : j ≤ ops.length) :
    Follows (lockOf (dbAt E ops i)) (lockOf (dbAt E ops j)) := by
  refine Runs.monotone (R := fun before after => Follows (lockOf before) (lockOf after)) (fun _ => .refl _)
    (fun first second => first.trans second) ?_ order bound
  intro k inside
  rw [stateAt_succ inside]
  exact .of_path (step_lock (reachable_dbAt ops k) ops[k])

/-- The leases of a run are fenced: new tokens are the greatest yet, older leases of a scope that was acquired
again are refused, and the tokens of linked turns only grow, up to the last one minted. -/
structure LeaseFenced (E : Environment) (ops : List Operation) : Prop where
  minted : ∀ i j (_ : i < j) (bound : j < ops.length) scope owner turnId now ttl earlier before later after,
    exec E (dbAt E ops i) ops[i] = .ok (.leased earlier, before) →
    ops[j] = .acquireLease scope owner turnId now ttl →
    extendsLease (dbAt E ops j) scope owner now = false →
    exec E (dbAt E ops j) ops[j] = .ok (.leased later, after) → earlier.fencingToken < later.fencingToken
  stale : ∀ j k (_ : j < k) (bound : k < ops.length) scope owner turnId now ttl newer after lease,
    ops[j] = .acquireLease scope owner turnId now ttl →
    exec E (dbAt E ops j) ops[j] = .ok (.leased newer, after) →
    underLease ops[k] = some lease → lease.scope = scope → lease.fencingToken < newer.fencingToken →
    replays E (dbAt E ops k) ops[k] = false → ∃ error, exec E (dbAt E ops k) ops[k] = .error error
  grows : ∀ k (bound : k < ops.length) turnId link turn, (dbAt E ops k).sessionTurns.get? turnId = some link →
    (dbAt E ops k).turns.get? turnId = some turn →
    ∃ turn', (dbAt E ops (k + 1)).turns.get? turnId = some turn' ∧ (turn.leaseToken ≤ turn'.leaseToken ∨
      turn'.leaseToken = 0 ∧ isWaiting turn.state ∧ ∃ lease wallNow, ops[k] = .releaseLease lease wallNow)
  bounded : ∀ k, k ≤ ops.length → ∀ turnId turn, (dbAt E ops k).turns.get? turnId = some turn →
    turn.leaseToken ≤ (dbAt E ops k).lastToken

theorem run_lease_fenced (ops : List Operation) : LeaseFenced E ops := by
  have stepped : ∀ {k : Nat} (bound : k < ops.length) {reply : Reply} {after : E.Db},
      exec E (dbAt E ops k) ops[k] = .ok (reply, after) → dbAt E ops (k + 1) = after :=
    fun bound _ _ result => (stateAt_succ bound).trans (exec_step result)
  refine ⟨?_, ?_, ?_, ?_⟩
  · intro i j less bound scope owner turnId now ttl earlier before later after returned acquires new result
    have old := exec_leased (reachable_dbAt ops i) returned
    rw [← stepped (Nat.lt_trans less bound) returned] at old
    have grown : (dbAt E ops (i + 1)).lastToken ≤ (dbAt E ops j).lastToken :=
      (run_follows ops less (Nat.le_of_lt bound)).last
    rw [acquires] at result
    simp only [exec, map_ok, Prod.mk.injEq, Reply.leased.injEq] at result
    obtain ⟨⟨_, _⟩, acquired, rfl, rfl⟩ := result
    rcases (acquireScopedLease_ok acquired).tokened with ⟨row, found, unexpired, owned, _⟩ | ⟨_, token, _⟩
    · have extension : extendsLease (dbAt E ops j) scope owner now = true := by
        refine (Table.holds_iff _ _ _).mpr ⟨row, found, ?_⟩
        rw [Bool.and_eq_true, decide_eq_true_eq, decide_eq_true_eq]
        exact ⟨unexpired, owned⟩
      exact absurd (extension.symm.trans new) (by decide)
    · rw [token]
      omega
  · intro j k less bound scope owner turnId now ttl newer after lease acquires result under inScope older fresh
    cases again : exec E (dbAt E ops k) ops[k] with
    | error error => exact ⟨error, rfl⟩
    | ok value =>
        obtain ⟨reply, later⟩ := value
        obtain ⟨middle, follows, holder⟩ := exec_under (reachable_dbAt ops k) again under fresh
        have taken : (lockOf (dbAt E ops (j + 1))).holder scope = some newer.fencingToken := by
          rw [stepped (Nat.lt_trans less bound) result]
          rw [acquires] at result
          simp only [exec, map_ok, Prod.mk.injEq, Reply.leased.injEq] at result
          obtain ⟨⟨_, _⟩, acquired, rfl, rfl⟩ := result
          simp only [lockOf, (acquireScopedLease_ok acquired).leases, Table.get?_put, if_true, Option.map_some]
        have all := (run_follows ops less (Nat.le_of_lt bound)).trans follows
        rw [inScope] at holder
        exact absurd holder (all.fenced (reachable_dbAt ops (j + 1)).fenced.leases taken older)
  · intro k bound turnId link turn linked found
    have steps : TokenStep ops[k] ((dbAt E ops k).turns.get? turnId) ((dbAt E ops (k + 1)).turns.get? turnId) := by
      cases result : exec E (dbAt E ops k) ops[k] with
      | error error =>
          rw [show dbAt E ops (k + 1) = dbAt E ops k from
            (stateAt_succ bound).trans (by rw [step, result])]
          exact .kept (.of_same rfl)
      | ok value =>
          obtain ⟨reply, after⟩ := value
          rw [stepped bound result]
          exact exec_token (reachable_dbAt ops k).mirrored linked result
    cases steps with
    | kept kept =>
        obtain ⟨turn', after, order⟩ := kept turn found
        exact ⟨turn', after, .inl order⟩
    | quiesced releases before waiting zero =>
        rw [found, Option.some.injEq] at before
        subst before
        exact ⟨_, zero, .inr ⟨rfl, waiting, _, _, releases⟩⟩
  · intro k _ turnId turn found
    exact (reachable_dbAt ops k).fenced.turns turnId turn found

/-- A coordinator that lost its session to another one cannot renew, whatever clock it passes. -/
example : ((exec plain (runOf plain [
      .acquireLease (sessionLeaseScope sampleSession) "engine" none 0 100,
      .acquireLease (sessionLeaseScope sampleSession) "other" none 200 100])
    (.renewLease sampleLease 50 100)).toOption).isNone = true := by decide +kernel

end LatteCode.Storage
