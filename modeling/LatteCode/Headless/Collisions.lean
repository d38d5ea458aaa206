import LatteCode.Headless.Compactions
/- The life of a session as far as its compaction cards go: when two of them meet in one source key. -/

namespace LatteCode.Headless
open Outcome Storage

/-- A source key of something else than a compaction card. -/
structure OtherKey where
  text : String
  other : ∀ append : CompactionAppend, append.sourceKey ≠ text

/-- Where the newest turn of the session stands. `recovered` is `overflow_retried` of the running provider loop. -/
inductive Stage where
  | ready
  | requesting (recovered : Bool)
  | batch (recovered : Bool)
  | between (recovered : Bool)
  | waitingPermission
  | resumed
  | waitingInput
  | closed
deriving DecidableEq

structure SessionRun where
  turnId : TurnId
  turnRevision : Nat
  toolRounds : Nat
  stage : Stage
  turns : List TurnId
  appended : List CompactionAppend
  sources : List String
deriving DecidableEq

inductive RunEvent where
  /-- A follow-up, with the card of its prepared history. -/
  | followUp (turnId : TurnId) (prepared : Option CompactionKind)
  /-- A response with tool calls. -/
  | openBatch
  | pause
  | approve
  | closeBatch
  /-- What `maybe_compact_mid_turn` appends after a batch. -/
  | compactBetween (outcome : Option CompactionKind)
  /-- A context overflow, recovered by a card of this tier. -/
  | recover (tier : Tier)
  | requestInput
  | provideInput (prepared : Option CompactionKind)
  /-- Any other commit of the running turn. -/
  | commit (source : OtherKey) (revisions : Nat)
  /-- The turn ends, and the session is ready for another or not. -/
  | finish (ready : Bool)
  | switchModel (source : OtherKey)
  /-- `compact_session`. -/
  | compact (tier : Tier)

inductive RunRefusal where
  | notEnabled
  | mismatch (sourceKey : String)
deriving DecidableEq

namespace SessionRun

/-- `start` of a session: its first turn, without a history to compact. -/
def start (turnId : TurnId) (sources : List OtherKey) : SessionRun :=
  ⟨turnId, 1, 0, .requesting false, [turnId], [], sources.map OtherKey.text⟩

variable (self : SessionRun)

def append (kind : CompactionKind) (trigger : Trigger) : Except RunRefusal SessionRun := do
  let append : CompactionAppend := ⟨self.turnId, kind, trigger⟩
  ensure (append.sourceKey ∉ self.sources) (.mismatch append.sourceKey)
  .ok { self with appended := append :: self.appended, sources := append.sourceKey :: self.sources }

def appendPrepared (trigger : Trigger) : Option CompactionKind → Except RunRefusal SessionRun
  | none => .ok self
  | some kind => self.append kind trigger

/-- The card after a batch: a tier under the number of the round, the audit under no number. -/
def appendBetween : Option CompactionKind → Except RunRefusal SessionRun
  | none => .ok self
  | some (.tier tier) => self.append (.tier tier) (.round self.toolRounds)
  | some .failed => self.append .failed .roundFailed

def step : RunEvent → Except RunRefusal SessionRun
  | .followUp turnId prepared => do
      ensure (self.stage = .ready ∧ turnId ∉ self.turns) .notEnabled
      { self with turnId := turnId, turnRevision := 1, toolRounds := 0, stage := .requesting false
                  turns := turnId :: self.turns }.appendPrepared .newTurn prepared
  | .openBatch =>
      match self.stage with
      | .requesting recovered => .ok { self with stage := .batch recovered, toolRounds := self.toolRounds + 1 }
      | _ => .error .notEnabled
  | .pause =>
      match self.stage with
      | .batch _ | .resumed => .ok { self with stage := .waitingPermission, turnRevision := self.turnRevision + 1 }
      | _ => .error .notEnabled
  | .approve => do
      ensure (self.stage = .waitingPermission) .notEnabled
      .ok { self with stage := .resumed, turnRevision := self.turnRevision + 1 }
  | .closeBatch =>
      match self.stage with
      | .batch recovered => .ok { self with stage := .between recovered }
      -- A resumed batch goes on with a provider loop of its own, and its first request.
      | .resumed => .ok { self with stage := .requesting false }
      | _ => .error .notEnabled
  | .compactBetween outcome =>
      match self.stage with
      | .between recovered => { self with stage := .requesting recovered }.appendBetween outcome
      | _ => .error .notEnabled
  | .recover tier => do
      ensure (self.stage = .requesting false) .notEnabled
      { self with stage := .requesting true }.append (.tier tier) (.round self.toolRounds)
  | .requestInput =>
      match self.stage with
      | .requesting _ => .ok { self with stage := .waitingInput, turnRevision := self.turnRevision + 1 }
      | _ => .error .notEnabled
  | .provideInput prepared => do
      ensure (self.stage = .waitingInput) .notEnabled
      { self with stage := .requesting false, turnRevision := self.turnRevision + 1 }.appendPrepared .input prepared
  | .commit source revisions => do
      ensure (self.stage ≠ .ready ∧ self.stage ≠ .closed) .notEnabled
      .ok { self with turnRevision := self.turnRevision + revisions, sources := source.text :: self.sources }
  | .finish ready => do
      ensure (self.stage ≠ .ready ∧ self.stage ≠ .closed) .notEnabled
      .ok { self with stage := if ready then .ready else .closed, turnRevision := self.turnRevision + 1 }
  | .switchModel source => do
      ensure (self.stage = .ready) .notEnabled
      .ok { self with sources := source.text :: self.sources }
  | .compact tier => do
      ensure (self.stage = .ready) .notEnabled
      self.append (.tier tier) (.manual self.turnRevision)

def run (events : List RunEvent) : Except RunRefusal SessionRun := events.foldlM step self

end SessionRun

/-- The compactions a run has had: in answers of the turn, audits of the turn, tiers of the round, manual tiers since
the turn began. -/
structure Compacted where
  answered : List CompactionKind
  audited : Bool
  inRound : List Tier
  manual : List Tier

namespace Compacted

def none : Compacted := ⟨[], false, [], []⟩

variable (self : Compacted)

def after : RunEvent → Compacted
  | .followUp .. => none
  | .openBatch => { self with inRound := [] }
  | .compactBetween (some (.tier tier)) => { self with inRound := tier :: self.inRound }
  | .compactBetween (some .failed) => { self with audited := true }
  | .recover tier => { self with inRound := tier :: self.inRound }
  | .provideInput (some kind) => { self with answered := kind :: self.answered }
  | .compact tier => { self with manual := tier :: self.manual }
  | _ => self

/-- The event repeats no compaction: not the kind of an earlier answer of the turn, not a second audit in the turn, no
recovery by a tier the round has had, no manual tier the turn has had. -/
def Novel : RunEvent → Prop
  | .compactBetween (some .failed) => self.audited = false
  | .recover tier => tier ∉ self.inRound
  | .provideInput (some kind) => kind ∉ self.answered
  | .compact tier => tier ∉ self.manual
  | _ => True

def AllNovel : Compacted → List RunEvent → Prop
  | _, [] => True
  | self, event :: events => self.Novel event ∧ AllNovel (self.after event) events

end Compacted

/-- The turn is inside a tool batch, or right after it. -/
def Stage.inBatch : Stage → Bool
  | .batch _ | .between _ | .waitingPermission | .resumed => true
  | _ => false

/-- The cards of a session are those its run is said to have had. -/
structure Tracked (run : SessionRun) (past : Compacted) : Prop where
  sources : ∀ append : CompactionAppend, append.sourceKey ∈ run.sources ↔ append ∈ run.appended
  distinct : run.appended.Nodup
  turns : ∀ append ∈ run.appended, append.turnId ∈ run.turns
  here : run.turnId ∈ run.turns
  answered : ∀ kind, ⟨run.turnId, kind, .input⟩ ∈ run.appended ↔ kind ∈ past.answered
  audited : ⟨run.turnId, .failed, .roundFailed⟩ ∈ run.appended ↔ past.audited = true
  below : ∀ kind number, ⟨run.turnId, kind, .round number⟩ ∈ run.appended → number ≤ run.toolRounds
  inRound : ∀ tier, ⟨run.turnId, .tier tier, .round run.toolRounds⟩ ∈ run.appended ↔ tier ∈ past.inRound
  manual : ∀ revision tier, ⟨run.turnId, .tier tier, .manual revision⟩ ∈ run.appended ↔
    revision = run.turnRevision ∧ tier ∈ past.manual
  unrepeated : run.stage.inBatch = true → past.inRound = []
  attended : run.stage ≠ .ready → past.manual = []

section Steps

variable {run : SessionRun} {past past' : Compacted} {kind : CompactionKind} {trigger : Trigger}

theorem Tracked.refused (tracked : Tracked run past) (held : ⟨run.turnId, kind, trigger⟩ ∈ run.appended) :
    ∃ sourceKey, run.append kind trigger = .error (.mismatch sourceKey) := by
  refine ⟨CompactionAppend.sourceKey ⟨run.turnId, kind, trigger⟩, ?_⟩
  have spent := (tracked.sources _).mpr held
  simp only [SessionRun.append, ensure, if_neg (not_not.mpr spent), bind, Except.bind]

/-- A card that the session does not have is appended, and joins what the run has had. -/
theorem Tracked.append (tracked : Tracked run past) (new : ⟨run.turnId, kind, trigger⟩ ∉ run.appended)
    (answered : ∀ other, other ∈ past'.answered ↔ (trigger = .input ∧ other = kind) ∨ other ∈ past.answered)
    (audited : past'.audited = true ↔ (trigger = .roundFailed ∧ kind = .failed) ∨ past.audited = true)
    (inRound : ∀ tier, tier ∈ past'.inRound ↔
      (trigger = .round run.toolRounds ∧ .tier tier = kind) ∨ tier ∈ past.inRound)
    (manual : ∀ revision tier, (revision = run.turnRevision ∧ tier ∈ past'.manual) ↔
      (trigger = .manual revision ∧ .tier tier = kind) ∨ (revision = run.turnRevision ∧ tier ∈ past.manual))
    (below : ∀ number, trigger = .round number → number ≤ run.toolRounds)
    (unrepeated : run.stage.inBatch = true → past'.inRound = []) (attended : run.stage ≠ .ready → past'.manual = []) :
    ∃ next, run.append kind trigger = .ok next ∧ Tracked next past' := by
  have fresh : CompactionAppend.sourceKey ⟨run.turnId, kind, trigger⟩ ∉ run.sources :=
    fun held => new ((tracked.sources _).mp held)
  have joined : ∀ (other : CompactionKind) (site : Trigger), (⟨run.turnId, other, site⟩ : CompactionAppend) ∈
      (⟨run.turnId, kind, trigger⟩ : CompactionAppend) :: run.appended ↔
        (trigger = site ∧ other = kind) ∨ ⟨run.turnId, other, site⟩ ∈ run.appended := by
    intro other site
    rw [List.mem_cons, CompactionAppend.mk.injEq]
    constructor
    · rintro (⟨_, rfl, rfl⟩ | held)
      · exact .inl ⟨rfl, rfl⟩
      · exact .inr held
    · rintro (⟨rfl, rfl⟩ | held)
      · exact .inl ⟨rfl, rfl, rfl⟩
      · exact .inr held
  refine ⟨{ run with appended := ⟨run.turnId, kind, trigger⟩ :: run.appended
                     sources := CompactionAppend.sourceKey ⟨run.turnId, kind, trigger⟩ :: run.sources }, ?_, ?_⟩
  · simp only [SessionRun.append, ensure, if_pos fresh, bind, Except.bind]
  constructor
  case sources =>
    intro append
    rw [List.mem_cons, List.mem_cons, tracked.sources append]
    exact or_congr ⟨fun same => CompactionAppend.sourceKey_injective same, congrArg _⟩ Iff.rfl
  case distinct => exact List.nodup_cons.mpr ⟨new, tracked.distinct⟩
  case turns =>
    intro append held
    rw [List.mem_cons] at held
    rcases held with rfl | old
    · exact tracked.here
    · exact tracked.turns append old
  case here => exact tracked.here
  case answered =>
    intro other
    rw [joined, tracked.answered, answered]
  case audited =>
    rw [joined, tracked.audited, audited]
    exact or_congr (and_congr_right fun _ => eq_comm) Iff.rfl
  case below =>
    intro other number held
    rcases (joined other (.round number)).mp held with ⟨here, _⟩ | old
    · exact below number here
    · exact tracked.below other number old
  case inRound =>
    intro tier
    rw [joined, tracked.inRound, inRound]
  case manual =>
    intro revision tier
    rw [joined, tracked.manual, manual]
  case unrepeated => exact unrepeated
  case attended => exact attended

/-- A move that appends no card. -/
theorem Tracked.moved (tracked : Tracked run past) (attended : past.manual = []) {stage : Stage} {revision : Nat}
    (unrepeated : stage.inBatch = true → past.inRound = []) :
    Tracked { run with stage := stage, turnRevision := revision } past := by
  refine ⟨tracked.sources, tracked.distinct, tracked.turns, tracked.here, tracked.answered, tracked.audited,
    tracked.below, tracked.inRound, ?_, unrepeated, fun _ => attended⟩
  intro other tier
  rw [tracked.manual, attended]
  simp only [List.not_mem_nil, and_false]

theorem Tracked.committed (tracked : Tracked run past) (source : OtherKey) :
    Tracked { run with sources := source.text :: run.sources } past := by
  refine ⟨?_, tracked.distinct, tracked.turns, tracked.here, tracked.answered, tracked.audited,
    tracked.below, tracked.inRound, tracked.manual, tracked.unrepeated, tracked.attended⟩
  intro append
  rw [List.mem_cons, tracked.sources append]
  exact or_iff_right (source.other append)

/-- A new turn has had nothing yet. -/
theorem Tracked.turn (tracked : Tracked run past) {turnId : TurnId} (new : turnId ∉ run.turns) :
    Tracked { run with turnId := turnId, turnRevision := 1, toolRounds := 0, stage := .requesting false
                       turns := turnId :: run.turns } .none := by
  have absent : ∀ kind trigger, ⟨turnId, kind, trigger⟩ ∉ run.appended := fun kind trigger held =>
    new (tracked.turns _ held)
  refine ⟨tracked.sources, tracked.distinct, fun append held => List.mem_cons_of_mem _ (tracked.turns append held),
    List.mem_cons_self, ?_, ?_, ?_, ?_, ?_, fun _ => rfl, fun _ => rfl⟩
  · exact fun kind => ⟨fun held => absurd held (absent kind .input), fun none => nomatch none⟩
  · exact ⟨fun held => absurd held (absent _ _), fun none => nomatch none⟩
  · exact fun kind number held => absurd held (absent kind (.round number))
  · exact fun tier => ⟨fun held => absurd held (absent _ _), fun none => nomatch none⟩
  · exact fun revision tier => ⟨fun held => absurd held (absent _ _), fun none => nomatch none.2⟩

/-- What an event comes to: it is not enabled, or it is novel and happens, or it repeats a card and is refused. -/
def Settles (run : SessionRun) (past : Compacted) (event : RunEvent) : Prop :=
  run.step event = .error .notEnabled ∨
    (past.Novel event ∧ ∃ next, run.step event = .ok next ∧ Tracked next (past.after event)) ∨
    (¬ past.Novel event ∧ ∃ sourceKey, run.step event = .error (.mismatch sourceKey))

theorem Tracked.settles_followUp (tracked : Tracked run past) (turnId : TurnId) (prepared : Option CompactionKind) :
    Settles run past (.followUp turnId prepared) := by
  by_cases enabled : run.stage = .ready ∧ turnId ∉ run.turns
  case neg =>
    left
    simp only [SessionRun.step, ensure, if_neg enabled, bind, Except.bind]
  have begun := tracked.turn enabled.2
  right
  left
  refine ⟨trivial, ?_⟩
  simp only [SessionRun.step, ensure, if_pos enabled, bind, Except.bind]
  cases prepared with
  | none => exact ⟨_, rfl, begun⟩
  | some kind =>
      have new : (⟨turnId, kind, .newTurn⟩ : CompactionAppend) ∉ run.appended := fun held =>
        enabled.2 (tracked.turns _ held)
      exact begun.append new (by simp [Compacted.after]) (by simp [Compacted.after]) (by simp [Compacted.after])
        (by simp [Compacted.after]) (by simp) (fun _ => rfl) (fun _ => rfl)

theorem Tracked.settles_compactBetween (tracked : Tracked run past) (outcome : Option CompactionKind) :
    Settles run past (.compactBetween outcome) := by
  cases at_ : run.stage with
  | between recovered =>
      have unmanned := tracked.attended (by rw [at_]; exact fun same => nomatch same)
      have fresh := tracked.unrepeated (by rw [at_]; rfl)
      have moved : Tracked { run with stage := .requesting recovered } past :=
        tracked.moved unmanned fun none => nomatch none
      cases outcome with
      | none =>
          right
          left
          refine ⟨trivial, _, ?_, moved⟩
          simp only [SessionRun.step, at_]
          rfl
      | some kind =>
          cases kind with
          | tier tier =>
              have new : (⟨run.turnId, .tier tier, .round run.toolRounds⟩ : CompactionAppend) ∉ run.appended := by
                rw [tracked.inRound, fresh]
                exact List.not_mem_nil
              right
              left
              refine ⟨trivial, ?_⟩
              simp only [SessionRun.step, at_, SessionRun.appendBetween]
              refine moved.append new (by simp [Compacted.after]) (by simp [Compacted.after]) ?_ ?_ ?_
                (fun none => nomatch none) fun _ => unmanned
              · simp [Compacted.after]
              · simp [Compacted.after]
              · rintro number same
                cases same
                exact Nat.le_refl _
          | failed =>
              by_cases audited : past.audited = true
              · right
                right
                refine ⟨fun novel => absurd (audited.symm.trans novel) (by decide), ?_⟩
                simp only [SessionRun.step, at_, SessionRun.appendBetween]
                exact moved.refused (tracked.audited.mpr audited)
              · right
                left
                refine ⟨Bool.eq_false_iff.mpr audited, ?_⟩
                simp only [SessionRun.step, at_, SessionRun.appendBetween]
                exact moved.append (fun held => audited (tracked.audited.mp held)) (by simp [Compacted.after])
                  (by simp [Compacted.after]) (by simp [Compacted.after]) (by simp [Compacted.after]) (by simp)
                  (fun none => nomatch none) fun _ => unmanned
  | _ =>
      left
      simp only [SessionRun.step, at_]

theorem Tracked.settles_recover (tracked : Tracked run past) (tier : Tier) : Settles run past (.recover tier) := by
  by_cases at_ : run.stage = .requesting false
  case neg =>
    left
    simp only [SessionRun.step, ensure, if_neg at_, bind, Except.bind]
  have unmanned := tracked.attended (by rw [at_]; exact fun same => nomatch same)
  have moved : Tracked { run with stage := .requesting true } past := tracked.moved unmanned fun none => nomatch none
  by_cases repeated : tier ∈ past.inRound
  · right
    right
    refine ⟨fun novel => novel repeated, ?_⟩
    simp only [SessionRun.step, ensure, if_pos at_, bind, Except.bind]
    exact moved.refused ((tracked.inRound tier).mpr repeated)
  · right
    left
    refine ⟨repeated, ?_⟩
    simp only [SessionRun.step, ensure, if_pos at_, bind, Except.bind]
    refine moved.append (fun held => repeated ((tracked.inRound tier).mp held)) (by simp [Compacted.after])
      (by simp [Compacted.after]) (by simp [Compacted.after]) (by simp [Compacted.after]) ?_
      (fun none => nomatch none) fun _ => unmanned
    rintro number same
    cases same
    exact Nat.le_refl _

theorem Tracked.settles_provideInput (tracked : Tracked run past) (prepared : Option CompactionKind) :
    Settles run past (.provideInput prepared) := by
  by_cases at_ : run.stage = .waitingInput
  case neg =>
    left
    simp only [SessionRun.step, ensure, if_neg at_, bind, Except.bind]
  have unmanned := tracked.attended (by rw [at_]; exact fun same => nomatch same)
  have moved : Tracked { run with stage := .requesting false, turnRevision := run.turnRevision + 1 } past :=
    tracked.moved unmanned fun none => nomatch none
  cases prepared with
  | none =>
      right
      left
      refine ⟨trivial, _, ?_, moved⟩
      simp only [SessionRun.step, ensure, if_pos at_, bind, Except.bind]
      rfl
  | some kind =>
      by_cases repeated : kind ∈ past.answered
      · right
        right
        refine ⟨fun novel => novel repeated, ?_⟩
        simp only [SessionRun.step, ensure, if_pos at_, bind, Except.bind, SessionRun.appendPrepared]
        exact moved.refused ((tracked.answered kind).mpr repeated)
      · right
        left
        refine ⟨repeated, ?_⟩
        simp only [SessionRun.step, ensure, if_pos at_, bind, Except.bind, SessionRun.appendPrepared]
        exact moved.append (fun held => repeated ((tracked.answered kind).mp held)) (by simp [Compacted.after])
          (by simp [Compacted.after]) (by simp [Compacted.after]) (by simp [Compacted.after]) (by simp)
          (fun none => nomatch none) fun _ => unmanned

theorem Tracked.settles_compact (tracked : Tracked run past) (tier : Tier) : Settles run past (.compact tier) := by
  by_cases at_ : run.stage = .ready
  case neg =>
    left
    simp only [SessionRun.step, ensure, if_neg at_, bind, Except.bind]
  by_cases repeated : tier ∈ past.manual
  · right
    right
    refine ⟨fun novel => novel repeated, ?_⟩
    simp only [SessionRun.step, ensure, if_pos at_, bind, Except.bind]
    exact tracked.refused ((tracked.manual _ tier).mpr ⟨rfl, repeated⟩)
  · right
    left
    refine ⟨repeated, ?_⟩
    simp only [SessionRun.step, ensure, if_pos at_, bind, Except.bind]
    refine tracked.append (fun held => repeated ((tracked.manual _ tier).mp held).2) (by simp [Compacted.after])
      (by simp [Compacted.after]) (by simp [Compacted.after]) ?_ (by simp) ?_ fun elsewhere => absurd at_ elsewhere
    · intro revision other
      simp only [Compacted.after, List.mem_cons, Trigger.manual.injEq, CompactionKind.tier.injEq]
      constructor
      · rintro ⟨rfl, rfl | held⟩
        · exact .inl ⟨rfl, rfl⟩
        · exact .inr ⟨rfl, held⟩
      · rintro (⟨rfl, rfl⟩ | ⟨rfl, held⟩)
        · exact ⟨rfl, .inl rfl⟩
        · exact ⟨rfl, .inr held⟩
    · rw [at_]
      exact fun none => nomatch none

/-- The card of an earlier round has a smaller number. -/
theorem Tracked.opened (tracked : Tracked run past) (attended : past.manual = []) (recovered : Bool) :
    Tracked { run with stage := .batch recovered, toolRounds := run.toolRounds + 1 } (past.after .openBatch) := by
  refine ⟨tracked.sources, tracked.distinct, tracked.turns, tracked.here, tracked.answered, tracked.audited, ?_, ?_,
    tracked.manual, fun _ => rfl, fun _ => attended⟩
  · exact fun kind number held => Nat.le_succ_of_le (tracked.below kind number held)
  · intro tier
    constructor
    · exact fun held => absurd (tracked.below _ _ held) (Nat.not_succ_le_self _)
    · exact fun none => nomatch none

theorem Tracked.settles_openBatch (tracked : Tracked run past) : Settles run past .openBatch := by
  cases at_ : run.stage with
  | requesting recovered =>
      right
      left
      refine ⟨trivial, _, ?_, tracked.opened (tracked.attended ?_) recovered⟩
      · simp only [SessionRun.step, at_]
      · rw [at_]
        exact fun same => nomatch same
  | _ =>
      left
      simp only [SessionRun.step, at_]

/-- An event that appends no compaction card and moves the turn on. -/
theorem Tracked.settles_moved (tracked : Tracked run past) {event : RunEvent} (stage : Stage) (revision : Nat)
    (novel : past.Novel event) (same : past.after event = past) (attended : past.manual = [])
    (unrepeated : stage.inBatch = true → past.inRound = [])
    (moves : run.step event = .ok { run with stage := stage, turnRevision := revision }) :
    Settles run past event :=
  .inr (.inl ⟨novel, _, moves, same.symm ▸ tracked.moved attended unrepeated⟩)

theorem Tracked.settles_pause (tracked : Tracked run past) : Settles run past .pause := by
  cases at_ : run.stage with
  | batch | resumed =>
      have unmanned := tracked.attended (by rw [at_]; exact fun same => nomatch same)
      have fresh := tracked.unrepeated (by rw [at_]; rfl)
      refine tracked.settles_moved .waitingPermission (run.turnRevision + 1) trivial rfl unmanned (fun _ => fresh) ?_
      simp only [SessionRun.step, at_]
  | _ =>
      left
      simp only [SessionRun.step, at_]

theorem Tracked.settles_approve (tracked : Tracked run past) : Settles run past .approve := by
  by_cases at_ : run.stage = .waitingPermission
  case neg =>
    left
    simp only [SessionRun.step, ensure, if_neg at_, bind, Except.bind]
  have unmanned := tracked.attended (by rw [at_]; exact fun same => nomatch same)
  have fresh := tracked.unrepeated (by rw [at_]; rfl)
  refine tracked.settles_moved .resumed (run.turnRevision + 1) trivial rfl unmanned (fun _ => fresh) ?_
  simp only [SessionRun.step, ensure, if_pos at_, bind, Except.bind]

theorem Tracked.settles_closeBatch (tracked : Tracked run past) : Settles run past .closeBatch := by
  cases at_ : run.stage with
  | batch recovered =>
      have unmanned := tracked.attended (by rw [at_]; exact fun same => nomatch same)
      have fresh := tracked.unrepeated (by rw [at_]; rfl)
      refine tracked.settles_moved (.between recovered) run.turnRevision trivial rfl unmanned (fun _ => fresh) ?_
      simp only [SessionRun.step, at_]
  | resumed =>
      have unmanned := tracked.attended (by rw [at_]; exact fun same => nomatch same)
      refine tracked.settles_moved (.requesting false) run.turnRevision trivial rfl unmanned (fun none => nomatch none) ?_
      simp only [SessionRun.step, at_]
  | _ =>
      left
      simp only [SessionRun.step, at_]

theorem Tracked.settles_requestInput (tracked : Tracked run past) : Settles run past .requestInput := by
  cases at_ : run.stage with
  | requesting recovered =>
      have unmanned := tracked.attended (by rw [at_]; exact fun same => nomatch same)
      refine tracked.settles_moved .waitingInput (run.turnRevision + 1) trivial rfl unmanned (fun none => nomatch none) ?_
      simp only [SessionRun.step, at_]
  | _ =>
      left
      simp only [SessionRun.step, at_]

theorem Tracked.settles_commit (tracked : Tracked run past) (source : OtherKey) (revisions : Nat) :
    Settles run past (.commit source revisions) := by
  by_cases at_ : run.stage ≠ .ready ∧ run.stage ≠ .closed
  case neg =>
    left
    simp only [SessionRun.step, ensure, if_neg at_, bind, Except.bind]
  right
  left
  have committed : Tracked
      { run with turnRevision := run.turnRevision + revisions, sources := source.text :: run.sources } past :=
    (tracked.committed source).moved (tracked.attended at_.1) tracked.unrepeated
  refine ⟨trivial, _, ?_, committed⟩
  simp only [SessionRun.step, ensure, if_pos at_, bind, Except.bind]

theorem Tracked.settles_finish (tracked : Tracked run past) (ready : Bool) : Settles run past (.finish ready) := by
  by_cases at_ : run.stage ≠ .ready ∧ run.stage ≠ .closed
  case neg =>
    left
    simp only [SessionRun.step, ensure, if_neg at_, bind, Except.bind]
  refine tracked.settles_moved (if ready then .ready else .closed) (run.turnRevision + 1) trivial rfl
    (tracked.attended at_.1) ?_ ?_
  · cases ready <;> exact fun none => nomatch none
  · simp only [SessionRun.step, ensure, if_pos at_, bind, Except.bind]

theorem Tracked.settles_switchModel (tracked : Tracked run past) (source : OtherKey) :
    Settles run past (.switchModel source) := by
  by_cases at_ : run.stage = .ready
  case neg =>
    left
    simp only [SessionRun.step, ensure, if_neg at_, bind, Except.bind]
  right
  left
  refine ⟨trivial, _, ?_, tracked.committed source⟩
  simp only [SessionRun.step, ensure, if_pos at_, bind, Except.bind]

theorem Tracked.settles (tracked : Tracked run past) (event : RunEvent) : Settles run past event := by
  cases event with
  | followUp turnId prepared => exact tracked.settles_followUp turnId prepared
  | openBatch => exact tracked.settles_openBatch
  | pause => exact tracked.settles_pause
  | approve => exact tracked.settles_approve
  | closeBatch => exact tracked.settles_closeBatch
  | compactBetween outcome => exact tracked.settles_compactBetween outcome
  | recover tier => exact tracked.settles_recover tier
  | requestInput => exact tracked.settles_requestInput
  | provideInput prepared => exact tracked.settles_provideInput prepared
  | commit source revisions => exact tracked.settles_commit source revisions
  | finish ready => exact tracked.settles_finish ready
  | switchModel source => exact tracked.settles_switchModel source
  | compact tier => exact tracked.settles_compact tier

end Steps

theorem start_tracked (turnId : TurnId) (sources : List OtherKey) : Tracked (.start turnId sources) .none := by
  refine ⟨?_, List.nodup_nil, fun _ none => (nomatch none), List.mem_singleton_self _, ?_, ?_, ?_, ?_, ?_,
    fun _ => rfl, fun _ => rfl⟩
  · intro append
    constructor
    · intro held
      obtain ⟨source, _, same⟩ := List.mem_map.mp held
      exact absurd same.symm (source.other append)
    · exact fun none => nomatch none
  · exact fun _ => ⟨fun none => (nomatch none), fun none => nomatch none⟩
  · exact ⟨fun none => (nomatch none), fun none => nomatch none⟩
  · exact fun _ _ none => nomatch none
  · exact fun _ => ⟨fun none => (nomatch none), fun none => nomatch none⟩
  · exact fun _ _ => ⟨fun none => (nomatch none), fun none => nomatch none.2⟩

/-- A run of enabled events goes through exactly if it repeats no compaction. -/
theorem Tracked.run {events : List RunEvent} : ∀ {run : SessionRun} {past : Compacted}, Tracked run past →
    run.run events ≠ .error .notEnabled →
      (∃ final past', past.AllNovel events ∧ run.run events = .ok final ∧ Tracked final past') ∨
      (¬ past.AllNovel events ∧ ∃ sourceKey, run.run events = .error (.mismatch sourceKey)) := by
  induction events with
  | nil => exact fun {run past} tracked _ => .inl ⟨run, past, trivial, rfl, tracked⟩
  | cons event events ih =>
      intro run past tracked enabled
      have unfolded : run.run (event :: events) = run.step event >>= fun next => next.run events := rfl
      rw [unfolded] at enabled ⊢
      rcases tracked.settles event with refused | ⟨novel, next, taken, tracked'⟩ | ⟨stale, sourceKey, refused⟩
      · exact absurd (by rw [refused]; rfl) enabled
      · rw [taken] at enabled ⊢
        rcases ih tracked' enabled with ⟨final, past', all, ran, tracked''⟩ | ⟨stale, refused⟩
        · exact .inl ⟨final, past', ⟨novel, all⟩, ran, tracked''⟩
        · exact .inr ⟨fun all => stale all.2, refused⟩
      · rw [refused]
        exact .inr ⟨fun all => stale all.1, sourceKey, rfl⟩

theorem compactions_distinct_iff (turnId : TurnId) (sources : List OtherKey) (events : List RunEvent)
    (enabled : (SessionRun.start turnId sources).run events ≠ .error .notEnabled) :
    (∃ final, (SessionRun.start turnId sources).run events = .ok final ∧
        (final.appended.map CompactionAppend.sourceKey).Nodup) ↔
      Compacted.none.AllNovel events := by
  rcases (start_tracked turnId sources).run enabled with ⟨final, past, all, ran, tracked⟩ | ⟨stale, sourceKey, refused⟩
  · constructor
    · exact fun _ => all
    · exact fun _ => ⟨final, ran, tracked.distinct.map CompactionAppend.sourceKey_injective⟩
  · constructor
    · rintro ⟨final, ran, _⟩
      rw [ran] at refused
      cases refused
    · exact fun all => absurd all stale

section Sites

variable {P : Planner} {entries : List TranscriptEntry} {tails : VolatileTurnContext} {card : CompactionCard}

/-- The keys of a turn's rounds and calls are no compaction keys. -/
def OtherKey.called (turnId : TurnId) (key : TurnKey) : OtherKey :=
  ⟨key.text turnId, fun append => append.sourceKey_ne_call turnId key⟩

/-- A manual compaction appends the card of a tier: its failed summary is an error. -/
theorem compactSession_tier (compacted : P.compactSession entries tails = .ok (some card)) :
    ∃ tier, card.appended = .tier tier := by
  rw [Planner.compactSession] at compacted
  split at compacted
  case h_1 => cases compacted
  simp only at compacted
  split at compacted
  case h_1 => cases compacted
  rename_i boundary _
  split at compacted
  case h_1 elided _ made =>
    cases compacted
    rw [Planner.manualElision] at made
    split at made
    case isTrue => cases made
    simp only at made
    split at made
    case isTrue => cases made; exact ⟨.elided, rfl⟩
    case isFalse => cases made
  case h_2 fitting _ =>
    rw [Planner.manualSummary] at compacted
    simp only at compacted
    split at compacted
    case h_1 => cases compacted
    split at compacted
    case isFalse => cases compacted
    case isTrue => cases compacted; exact ⟨.summarized, rfl⟩

/-- A recovery from an overflow appends the card of a tier, and no audit. -/
theorem maybeCompactMidTurn_forced_tier {turnId : TurnId} {current : List Message}
    (compacted : P.maybeCompactMidTurn entries turnId current true tails = .ok (some card)) :
    ∃ tier, card.appended = .tier tier := by
  rw [Planner.maybeCompactMidTurn] at compacted
  split at compacted
  case h_1 => cases compacted
  simp only at compacted
  split at compacted
  case h_1 => cases compacted
  split at compacted
  case h_1 made =>
    cases compacted
    rw [Planner.midTurnElision] at made
    split at made
    case isTrue => cases made
    simp only at made
    split at made
    case isTrue => cases made; exact ⟨.elided, rfl⟩
    case isFalse => cases made
  case h_2 =>
    have summarized := Except.ok.inj compacted
    rw [Planner.midTurnSummarize] at summarized
    simp only [if_true] at summarized
    split at summarized
    case h_1 => cases summarized
    split at summarized
    case isTrue => cases summarized
    split at summarized
    case h_1 => cases summarized
    split at summarized
    case isTrue => cases summarized; exact ⟨.summarized, rfl⟩
    case isFalse => cases summarized

end Sites

section Cases

/-- Two answers of one turn, each before a request that is too large and a summary that fails. -/
def twoFailedAnswers : List RunEvent :=
  [.requestInput, .provideInput (some .failed), .requestInput, .provideInput (some .failed)]

theorem answers_collide : ¬ ∀ turnId sources events,
    (SessionRun.start turnId sources).run events ≠ .error .notEnabled →
      ∃ final, (SessionRun.start turnId sources).run events = .ok final ∧
        (final.appended.map CompactionAppend.sourceKey).Nodup := by
  intro all
  obtain ⟨final, ran, _⟩ := all sampleTurn [] twoFailedAnswers (by decide +kernel)
  have refused : (SessionRun.start sampleTurn []).run twoFailedAnswers =
      .error (.mismatch (CompactionAppend.sourceKey ⟨sampleTurn, .failed, .input⟩)) := by
    decide +kernel
  rw [refused] at ran
  cases ran

theorem compactions_distinct_iff_recovered :
    (SessionRun.start sampleTurn []).run [.openBatch, .closeBatch, .compactBetween none, .recover .elided] ≠
      .error .notEnabled ∧
    ∃ final, (SessionRun.start sampleTurn []).run
        [.openBatch, .closeBatch, .compactBetween none, .recover .elided] = .ok final ∧
      (final.appended.map CompactionAppend.sourceKey).Nodup := by
  have enabled : (SessionRun.start sampleTurn []).run
      [.openBatch, .closeBatch, .compactBetween none, .recover .elided] ≠ .error .notEnabled := by
    decide +kernel
  refine ⟨enabled, (compactions_distinct_iff sampleTurn [] _ enabled).mpr ?_⟩
  exact ⟨trivial, trivial, trivial, List.not_mem_nil, trivial⟩

end Cases

end LatteCode.Headless
