import LatteCode.Headless.Keys
import LatteCode.Headless.Pause
import LatteCode.Storage.Commands
/- A session whose commits spend source keys, and the tool rounds of one turn over it. -/

namespace LatteCode.Headless
open Delimited Keyed Outcome Storage

/-- What the engine checks of a commit besides its source key: the lease, the fences, the update itself. -/
structure Checks where
  refuses : Conversation → String → Card → Option StorageError
  unrelated : ∀ conversation sourceKey card,
    refuses conversation sourceKey card ≠ some .sessionCommandReplayMismatch

/-- The transcript of a session with the source keys that its commits have recorded. -/
structure Ledger where
  conversation : Conversation
  sources : List String

namespace Ledger

variable (checks : Checks) (turn : LinkedTurn)

def record (self : Ledger) (sourceKey : String) (card : Card) : Ledger :=
  ⟨self.conversation.append turn card, sourceKey :: self.sources⟩

def recordAll (self : Ledger) (commits : List (String × Card)) : Ledger :=
  commits.foldl (fun ledger commit => ledger.record turn commit.1 commit.2) self

/-- A commit under a command id of its own: the digest covers that id, so a recorded key never answers it. -/
def commit (self : Ledger) (sourceKey : String) (card : Card) : Except StorageError Ledger := do
  validateSessionSource sourceKey
  ensure (sourceKey ∉ self.sources) .sessionCommandReplayMismatch
  match checks.refuses self.conversation sourceKey card with
  | some error => .error error
  | none => do
    let _ ← addOr self.conversation.lastSeq 1 "session sequence overflow"
    .ok (self.record turn sourceKey card)

def journal : Journal Ledger where
  commit := Ledger.commit checks turn
  window := fun self => self.conversation.window
  sequence := fun self => self.conversation.lastSeq

variable {checks turn} {self : Ledger} {sourceKey : String} {card : Card}

/-- A key that is not recorded is recorded, or something else than the key is wrong. -/
theorem commit_cases (fresh : sourceKey ∉ self.sources) :
    (∃ error, self.commit checks turn sourceKey card = .error error ∧ error ≠ .sessionCommandReplayMismatch) ∨
      (self.commit checks turn sourceKey card = .ok (self.record turn sourceKey card) ∧
        self.conversation.lastSeq + 1 < 2 ^ 64) := by
  unfold commit
  cases valid : validateSessionSource sourceKey with
  | error error =>
      left
      refine ⟨error, rfl, ?_⟩
      rintro rfl
      simp only [validateSessionSource, ensure] at valid
      split at valid <;> cases valid
  | ok done =>
      simp only [bind, Except.bind, ensure, if_pos fresh]
      cases held : checks.refuses self.conversation sourceKey card with
      | some error => exact .inl ⟨error, rfl, fun same => checks.unrelated _ _ _ (same ▸ held)⟩
      | none =>
          cases counted : addOr self.conversation.lastSeq 1 "session sequence overflow" with
          | error error =>
              left
              refine ⟨error, rfl, ?_⟩
              rintro rfl
              simp only [addOr, require] at counted
              split at counted <;> cases counted
          | ok next =>
              rw [addOr_ok] at counted
              exact .inr ⟨rfl, counted.1 ▸ counted.2⟩

theorem commit_spent (spent : sourceKey ∈ self.sources) (valid : validateSessionSource sourceKey = .ok ()) :
    self.commit checks turn sourceKey card = .error .sessionCommandReplayMismatch := by
  simp only [commit, valid, bind, Except.bind, ensure, if_neg (not_not.mpr spent)]

theorem commitCard_cases (checks : Checks) (turn : LinkedTurn) (card : Card) (fresh : sourceKey ∉ self.sources) :
    (∃ error, commitCard (journal checks turn) self sourceKey card = .error (.refused sourceKey error) ∧
        error ≠ .sessionCommandReplayMismatch) ∨
      (commitCard (journal checks turn) self sourceKey card = .ok (self.record turn sourceKey card) ∧
        self.conversation.lastSeq + 1 < 2 ^ 64) := by
  rcases commit_cases fresh with ⟨error, refused, other⟩ | ⟨done, counted⟩
  · exact .inl ⟨error, congrArg (Except.mapError _) refused, other⟩
  · exact .inr ⟨congrArg (Except.mapError _) done, counted⟩

/-- No key of a turn is recorded but those of `spent`. -/
def SpendsOnly (turn : LinkedTurn) (self : Ledger) (spent : TurnKey → Prop) : Prop :=
  ∀ key : TurnKey, key.text turn.turnId ∈ self.sources → spent key

/-- A key of no call of the turn. -/
def Foreign (turn : LinkedTurn) (sourceKey : String) : Prop := ∀ key : TurnKey, key.text turn.turnId ≠ sourceKey

variable {spent spent' : TurnKey → Prop}

theorem SpendsOnly.imp (only : SpendsOnly turn self spent) (wider : ∀ key, spent key → spent' key) :
    SpendsOnly turn self spent' := fun key held => wider key (only key held)

theorem SpendsOnly.fresh (only : SpendsOnly turn self spent) {key : TurnKey} (unspent : ¬ spent key)
    (named : sourceKey = key.text turn.turnId) : sourceKey ∉ self.sources :=
  fun held => unspent (only key (named ▸ held))

theorem SpendsOnly.record (only : SpendsOnly turn self spent) {key : TurnKey}
    (named : sourceKey = key.text turn.turnId) (card : Card) :
    SpendsOnly turn (self.record turn sourceKey card) fun other => other = key ∨ spent other := by
  intro other held
  rw [Ledger.record, List.mem_cons] at held
  rcases held with same | old
  · exact .inl (TurnKey.text_injective turn.turnId (same.trans named))
  · exact .inr (only other old)

theorem SpendsOnly.record_foreign (only : SpendsOnly turn self spent) (foreign : Foreign turn sourceKey) (card : Card) :
    SpendsOnly turn (self.record turn sourceKey card) spent := by
  intro other held
  rw [Ledger.record, List.mem_cons] at held
  rcases held with same | old
  · exact absurd same (foreign other)
  · exact only other old

section Stored

variable {E : Environment} {db db' : E.Db} {request : SessionCommitRequest} {lease : Lease} {now : Nat}

/-- The ledger lists the source keys that the database has recorded for the session. -/
def Lists (self : Ledger) (sessionId : SessionId) (db : E.Db) : Prop :=
  ∀ sourceKey, sourceKey ∈ self.sources ↔ (db.sessionCommitSources.get? (sessionId, sourceKey)).isSome = true

theorem source_digest (collisionFree : Function.Injective E.sha256) (reached : Reachable E db)
    (new : db.sessionCommandDedup.get? request.commandId = none) {source : CommitSourceRow E.Digest}
    {key : SessionId × String} (found : db.sessionCommitSources.get? key = some source) :
    source.digest ≠ sessionCommandDigest E request := by
  intro same
  obtain ⟨recorded, digest, present⟩ := (reached.answered collisionFree).sources _ _ found
  rw [((sessionCommandDigest_eq collisionFree).mp (digest.symm.trans same)).1, new] at present
  cases present

/-- Under a new command id a listed key is refused, as `commit` has it. -/
theorem Lists.refused (collisionFree : Function.Injective E.sha256) (reached : Reachable E db)
    (lists : self.Lists request.sessionId db) (new : db.sessionCommandDedup.get? request.commandId = none)
    (inScope : lease.scope = sessionLeaseScope request.sessionId)
    (valid : validateSessionSource request.update.sourceKey = .ok ()) (spent : request.update.sourceKey ∈ self.sources) :
    commitSessionTurnUpdate E request lease now db = .error .sessionCommandReplayMismatch := by
  obtain ⟨source, found⟩ := Option.isSome_iff_exists.mp ((lists _).mp spent)
  have other := source_digest collisionFree reached new found
  simp only [commitSessionTurnUpdate, requireLeaseScope, valid, new, found, replaySource, ensure, if_pos inScope,
    if_neg other, bind, Except.bind]

/-- An accepted commit under a new command id adds its key to those listed. -/
theorem Lists.record (collisionFree : Function.Injective E.sha256) (reached : Reachable E db)
    (lists : self.Lists request.sessionId db) (new : db.sessionCommandDedup.get? request.commandId = none)
    {response : SessionCommitResponse} (turn : LinkedTurn) (card : Card)
    (committed : commitSessionTurnUpdate E request lease now db = .ok (response, db')) :
    request.update.sourceKey ∉ self.sources ∧
      (self.record turn request.update.sourceKey card).Lists request.sessionId db' := by
  rcases (commitSessionTurnUpdate_ok reached.mirrored committed).2 with
    ⟨row, found, _⟩ | ⟨_, source, found, same, _⟩ | ⟨_, _, _, _, _, _, _, _, done⟩
  · rw [new] at found
    cases found
  · exact absurd same (source_digest collisionFree reached new found)
  · constructor
    · intro spent
      have found := (lists _).mp spent
      rw [done.freshSource] at found
      cases found
    · intro sourceKey
      rw [done.frame]
      simp only [Table.get?_add_fresh _ _ done.freshSource, Ledger.record, List.mem_cons, lists sourceKey, Prod.mk.injEq,
        true_and]
      split
      case isTrue here => simp [here]
      case isFalse other => simp [other]

end Stored

end Ledger

/-- A response with calls: what was committed since the round before it, and what the tools will answer. -/
structure Round where
  between : List (String × Card)
  host : Host
  message : Option String
  first : ToolCall
  later : List ToolCall

namespace Round

def calls (self : Round) : List ToolCall := self.first :: self.later

end Round

section Playing

variable (E : Redactor) (checks : Checks) (turn : LinkedTurn)

/-- One round, every pause approved. -/
def playRound (ledger : Ledger) (round : Round) : List Handed × Progress Ledger :=
  match openRound E (Ledger.journal checks turn) turn.turnId (ledger.recordAll turn round.between) round.message
      round.first round.later with
  | .error reason => ([], .stopped reason)
  | .ok batch => driveBatch E round.host (Ledger.journal checks turn) turn.turnId (round.calls.length + 1) batch

/-- The rounds of one turn: each begins once the one before is finished. -/
def playRounds : Ledger → List Round → List (List Handed) × Progress Ledger
  | ledger, [] => ([], .finished ledger)
  | ledger, round :: rounds =>
      match playRound E checks turn ledger round with
      | (handed, .finished state) => (handed :: (playRounds state rounds).1, (playRounds state rounds).2)
      | (handed, ended) => ([handed], ended)

/-- The calls of a batch as it takes them up: after the first pause, those of the round card. -/
def takenUp (host : Host) : Nat → List ToolCall → List ToolCall
  | _, [] => []
  | ordinal, call :: rest => call :: match host.policy ordinal call with
      | .allow => takenUp host (ordinal + 1) rest
      | .ask => rest.map (ToolCall.redacted E)

def Round.taken (self : Round) : List ToolCall := takenUp E self.host 0 self.calls

/-- The ids that the calls of a round are committed under. -/
def Round.ids (self : Round) : List String := (self.taken E).map ToolCall.id

theorem Round.ids_eq (self : Round) : self.ids E = (takenUp E self.host 0 self.calls).map ToolCall.id := rfl

end Playing

end LatteCode.Headless
