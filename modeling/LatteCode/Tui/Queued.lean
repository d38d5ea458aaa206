import LatteCode.Tui.Buffers
import LatteCode.Tui.Reconciliation
/- A prompt that the server no longer holds comes back with the next projection, if its submission was refused. -/

namespace LatteCode.Tui
open Runs

/-! ## The runtime behind the terminal -/

/-- The transcripts that the server projects, and the prompts that its mailboxes hold. -/
structure Mailroom where
  sessions : List SessionSnapshot
  mailbox : List (SessionId × String)

inductive MailroomEvent where
  /-- `queue_follow_up` accepts a prompt behind the active turn. -/
  | queued (sessionId : SessionId) (prompt : String)
  /-- `drain_mailbox` runs the first prompt of a session. -/
  | drained (sessionId : SessionId) (sessions : List SessionSnapshot)
  /-- `drain_mailbox` finds a terminal turn and takes the whole entry out. -/
  | discarded (sessionId : SessionId) (sessions : List SessionSnapshot)
  /-- Any other change of the sessions. -/
  | changed (sessions : List SessionSnapshot)

def Mailroom.step (room : Mailroom) : MailroomEvent → Mailroom
  | .queued sessionId prompt => { room with mailbox := room.mailbox ++ [(sessionId, prompt)] }
  | .drained sessionId sessions => ⟨sessions, room.mailbox.eraseP fun queued => queued.1 = sessionId⟩
  | .discarded sessionId sessions => ⟨sessions, room.mailbox.filter fun queued => queued.1 ≠ sessionId⟩
  | .changed sessions => { room with sessions := sessions }

inductive DeskEvent where
  | input (input : SessionUiInput)
  | mailroom (event : MailroomEvent)

/-- The terminal and the runtime that it talks to. -/
structure FrontDesk where
  model : SessionUiModel
  room : Mailroom

namespace FrontDesk

variable (E : TuiEnvironment) (desk : FrontDesk)

def step : DeskEvent → FrontDesk
  | .input input => { desk with model := reduceModel E desk.model input }
  | .mailroom event => { desk with room := desk.room.step event }

/-- The server holds the prompt neither in a transcript nor in a mailbox. -/
structure Gone (pending : PendingSubmission) : Prop where
  transcript : pending.durable E desk.room.sessions = false
  mailbox : ∀ sessionId, pending.sessionId = some sessionId → (sessionId, pending.prompt) ∉ desk.room.mailbox

/-- An input that shows what the server projects. -/
def Refreshes (input : SessionUiInput) : Prop :=
  ∃ sessions, input.projection = some sessions ∧ ∀ session ∈ sessions, session ∈ desk.room.sessions

end FrontDesk

section Runs

variable (E : TuiEnvironment) (initial : FrontDesk) (events : List DeskEvent)

/-- The terminal and the runtime after the first `k` events. -/
abbrev deskAt (k : Nat) : FrontDesk := stateAt (FrontDesk.step E) initial events k

/-- This answer came while the submission was pending, which it still is before event `k`. -/
def AnsweredBy (answer : SessionUiInput) (k submissionId : Nat) : Prop :=
  ∃ i, i < k ∧ events[i]? = some (.input answer) ∧
    ∀ j, i ≤ j → j ≤ k → (deskAt E initial events j).model.composerPends submissionId = true

/-- Event `k` leaves nothing pending, and the prompt in the composer. -/
def Returned (k : Nat) (pending : PendingSubmission) : Prop :=
  (deskAt E initial events (k + 1)).model.pendingSubmission = none ∧
    (deskAt E initial events (k + 1)).model.composer = pending.prompt

end Runs

/-! ## What a refusal leaves behind -/

theorem composerPends_iff {model : SessionUiModel} {submissionId : Nat} : model.composerPends submissionId = true ↔
    ∃ pending, model.pendingSubmission = some pending ∧ pending.submissionId = submissionId := by
  rw [SessionUiModel.composerPends, Option.any_eq_true]
  simp only [decide_eq_true_eq]

/-- A submission that is pending after an input has failed if it had before, or if the input refuses it; a submission
that has just been made has not. -/
theorem BufferMove.failed {E : TuiEnvironment} {model : SessionUiModel} {input : SessionUiInput} {reduced : Reduced}
    (move : BufferMove E model input reduced) (manned : Manned model) {submissionId : Nat}
    (pends : reduced.1.composerPends submissionId = true) :
    (reduced.1.submissionRefresh.composer = true →
      model.composerPends submissionId = true ∧
        (model.submissionRefresh.composer = true ∨ input = .submissionError submissionId)) ∧
    (model.composerPends submissionId = true → model.submissionRefresh.composer = true →
      reduced.1.submissionRefresh.composer = true) := by
  obtain ⟨after, held, own⟩ := composerPends_iff.mp pends
  have still : ∀ {now : Buffers}, reduced.1.buffers = now → now.pending = model.pendingSubmission →
      now.failed = model.submissionRefresh.composer →
      (reduced.1.submissionRefresh.composer = true → model.composerPends submissionId = true ∧
        (model.submissionRefresh.composer = true ∨ input = .submissionError submissionId)) ∧
      (model.composerPends submissionId = true → model.submissionRefresh.composer = true →
        reduced.1.submissionRefresh.composer = true) := by
    intro now moved pending failed
    have same : reduced.1.pendingSubmission = model.pendingSubmission := (congrArg Buffers.pending moved).trans pending
    have flag : reduced.1.submissionRefresh.composer = model.submissionRefresh.composer :=
      (congrArg Buffers.failed moved).trans failed
    rw [flag]
    exact ⟨fun refused => ⟨composerPends_iff.mpr ⟨after, same.symm.trans held, own⟩, .inl refused⟩, fun _ refused => refused⟩
  cases move with
  | keeps _ moved => exact still moved rfl rfl
  | settles _ _ moved => exact still moved rfl rfl
  | edits _ _ _ _ _ moved => exact still moved rfl rfl
  | submits idle _ _ _ moved =>
      have failed := (congrArg Buffers.failed moved).trans (manned.answerable idle)
      have absent : ¬ model.composerPends submissionId = true := by
        rw [composerPends_iff, idle]
        rintro ⟨_, none, _⟩
        cases none
      exact ⟨fun refused => absurd (failed.symm.trans refused) Bool.false_ne_true, fun pends => absurd pends absent⟩
  | assigns _ answers moved =>
      obtain ⟨before, pending, same⟩ := SessionUiModel.answering_id answers
      have assigned := (congrArg Buffers.pending moved).symm.trans held
      cases assigned
      have failed := congrArg Buffers.failed moved
      exact ⟨fun refused => ⟨composerPends_iff.mpr ⟨before, pending, same.trans own⟩, .inl (failed.symm.trans refused)⟩,
        fun _ refused => failed.trans refused⟩
  | @fails _ pending before moved =>
      have same := (congrArg Buffers.pending moved).symm.trans held
      cases before.symm.trans same
      rw [← own]
      exact ⟨fun _ => ⟨composerPends_iff.mpr ⟨_, before, rfl⟩, .inr rfl⟩, fun _ _ => congrArg Buffers.failed moved⟩
  | accepts _ _ _ moved => cases (congrArg Buffers.pending moved).symm.trans held
  | restores _ _ _ _ _ moved => cases (congrArg Buffers.pending moved).symm.trans held

/-! ## Projections -/

/-- A projection without the card of the pending submission returns its prompt exactly if it has failed. -/
theorem BufferMove.returned {E : TuiEnvironment} {model : SessionUiModel} {input : SessionUiInput} {reduced : Reduced}
    (move : BufferMove E model input reduced) {pending : PendingSubmission} (held : model.pendingSubmission = some pending)
    {sessions : List SessionSnapshot} (projects : input.projection = some sessions)
    (shown : reduced.1.sessions = sessions) (lost : pending.durable E sessions = false) :
    (reduced.1.pendingSubmission = none ∧ reduced.1.composer = pending.prompt) ↔
      model.submissionRefresh.composer = true := by
  cases move with
  | keeps plain => cases plain.symm.trans projects
  | settles _ waiting moved =>
      have still : reduced.1.pendingSubmission = some pending := (congrArg Buffers.pending moved).trans held
      constructor
      · rintro ⟨none, _⟩
        cases still.symm.trans none
      · intro failed
        exact absurd ((waiting (by rw [held]; rfl)).symm.trans failed) Bool.false_ne_true
  | edits typed => cases (SessionUiModel.edits_of_projection projects).symm.trans typed
  | submits => cases projects
  | assigns plain => cases plain.symm.trans projects
  | fails => cases projects
  | accepts _ answers durable =>
      cases Option.some.inj (answers.symm.trans ((SessionUiModel.answering_of_projection projects).trans held))
      rw [shown, lost] at durable
      cases durable
  | restores before failed _ _ _ moved =>
      cases before.symm.trans held
      exact ⟨fun _ => failed, fun _ => ⟨congrArg Buffers.pending moved, congrArg Buffers.composer moved⟩⟩

/-! ## Runs -/

section Runs

variable {E : TuiEnvironment} {initial : FrontDesk} {events : List DeskEvent}

theorem deskAt_manned (starting : Starting initial.model) (k : Nat) : Manned (deskAt E initial events k).model := by
  refine @invariant_at _ _ (FrontDesk.step E) initial events (fun desk => Manned desk.model) starting.manned ?_ k
  intro desk event manned
  cases event with
  | input input => exact reduceModel_manned input manned
  | mailroom event => exact manned

/-- A pending submission has failed exactly if it was refused. -/
theorem failed_iff_refused (starting : Starting initial.model) :
    ∀ k, k ≤ events.length → ∀ submissionId, (deskAt E initial events k).model.composerPends submissionId = true →
      ((deskAt E initial events k).model.submissionRefresh.composer = true ↔
        AnsweredBy E initial events (.submissionError submissionId) k submissionId) := by
  intro k
  induction k with
  | zero =>
      intro _ submissionId pends
      have none : initial.model.pendingSubmission = none := by
        rcases starting with fresh | ⟨startup, fresh⟩
        · rw [fresh]
          rfl
        · rw [fresh]
          rfl
      rw [deskAt, stateAt_zero, composerPends_iff, none] at pends
      obtain ⟨_, held, _⟩ := pends
      cases held
  | succ k ih =>
      intro bound submissionId pends
      have next : deskAt E initial events (k + 1) = (deskAt E initial events k).step E events[k] := stateAt_succ bound
      have taken : events[k]? = some events[k] := List.getElem?_eq_getElem bound
      -- what happened before event k still counts while the submission stays pending
      have extended : AnsweredBy E initial events (.submissionError submissionId) k submissionId →
          AnsweredBy E initial events (.submissionError submissionId) (k + 1) submissionId := by
        rintro ⟨i, less, answer, throughout⟩
        refine ⟨i, Nat.lt_succ_of_lt less, answer, fun j since upto => ?_⟩
        rcases Nat.lt_or_eq_of_le upto with inside | rfl
        · exact throughout j since (Nat.le_of_lt_succ inside)
        · exact pends
      have earlier : ∀ i, i < k → events[i]? = some (.input (.submissionError submissionId)) →
          (∀ j, i ≤ j → j ≤ k + 1 → (deskAt E initial events j).model.composerPends submissionId = true) →
            (deskAt E initial events k).model.submissionRefresh.composer = true := by
        intro i less answer throughout
        have here := throughout k (Nat.le_of_lt less) (Nat.le_succ k)
        refine (ih (Nat.le_of_succ_le bound) submissionId here).mpr ⟨i, less, answer, fun j since upto => ?_⟩
        exact throughout j since (Nat.le_succ_of_le upto)
      cases event : events[k] with
      | mailroom change =>
          have still : (deskAt E initial events (k + 1)).model = (deskAt E initial events k).model := by
            rw [next, event]
            rfl
          rw [still] at pends ⊢
          constructor
          · exact fun failed => extended ((ih (Nat.le_of_succ_le bound) submissionId pends).mp failed)
          · rintro ⟨i, less, answer, throughout⟩
            rcases Nat.lt_or_eq_of_le (Nat.le_of_lt_succ less) with before | rfl
            · exact earlier i before answer throughout
            · rw [taken, event] at answer
              cases answer
      | input input =>
          have reduced : (deskAt E initial events (k + 1)).model = (reduce E (deskAt E initial events k).model input).1 := by
            rw [next, event]
            rfl
          have manned : Manned (deskAt E initial events k).model := deskAt_manned starting k
          have move := SessionUiModel.reduce_bufferMove (E := E) manned.idle manned.bound input
          have failed := move.failed manned (reduced ▸ pends)
          rw [← reduced] at failed
          constructor
          · intro refused
            obtain ⟨here, before | same⟩ := failed.1 refused
            · exact extended ((ih (Nat.le_of_succ_le bound) submissionId here).mp before)
            · refine ⟨k, Nat.lt_succ_self k, by rw [taken, event, same], fun j since upto => ?_⟩
              rcases Nat.lt_or_eq_of_le upto with inside | rfl
              · rw [Nat.le_antisymm (Nat.le_of_lt_succ inside) since]
                exact here
              · exact pends
          · rintro ⟨i, less, answer, throughout⟩
            have here := throughout k (Nat.le_of_lt_succ less) (Nat.le_succ k)
            rcases Nat.lt_or_eq_of_le (Nat.le_of_lt_succ less) with before | rfl
            · exact failed.2 here (earlier i before answer throughout)
            · rw [taken, event] at answer
              cases answer
              rw [reduced]
              unfold reduce
              simp only
              rw [if_pos here]

/-- Once the server holds a prompt no longer, the next projection returns it exactly if its submission was refused. -/
theorem discarded_returns (starting : Starting initial.model) {k : Nat} {input : SessionUiInput}
    (taken : events[k]? = some (.input input)) (refreshes : (deskAt E initial events k).Refreshes input)
    {pending : PendingSubmission} (held : (deskAt E initial events k).model.pendingSubmission = some pending)
    (gone : (deskAt E initial events k).Gone E pending) :
    Returned E initial events k pending ↔
      AnsweredBy E initial events (.submissionError pending.submissionId) k pending.submissionId := by
  obtain ⟨bound, event⟩ := List.getElem?_eq_some_iff.mp taken
  have next : (deskAt E initial events (k + 1)).model = (reduce E (deskAt E initial events k).model input).1 := by
    have step : deskAt E initial events (k + 1) = (deskAt E initial events k).step E events[k] := stateAt_succ bound
    rw [step, event]
    rfl
  obtain ⟨sessions, projects, own⟩ := refreshes
  have lost : pending.durable E sessions = false := by
    refine List.any_eq_false.mpr fun session member => ?_
    exact List.any_eq_false.mp gone.transcript session (own session member)
  have manned : Manned (deskAt E initial events k).model := deskAt_manned starting k
  have move := SessionUiModel.reduce_bufferMove (E := E) manned.idle manned.bound input
  have pends := composerPends_iff.mpr ⟨pending, held, rfl⟩
  rw [Returned, next, ← failed_iff_refused starting k (Nat.le_of_lt bound) _ pends]
  exact move.returned held projects (SessionUiModel.reduce_sessions projects) lost

end Runs

/-! ## A follow-up behind a turn that fails -/

def runningSession : SessionSnapshot :=
  { shownSession .running [] with latestTurnId := some ⟨⟨3⟩⟩, activeTurnId := some ⟨⟨3⟩⟩ }

def failedSession : SessionSnapshot := { shownSession .failed [] with revision := 2, latestTurnId := some ⟨⟨3⟩⟩ }

def freshDesk : FrontDesk := ⟨.default, ⟨[runningSession], []⟩⟩

/-- A prompt is typed behind a running turn and answered; then the session is shown as it is by now. -/
def followed (answer : SessionUiInput) (between : List DeskEvent) (shown : SessionSnapshot) : List DeskEvent :=
  [.input (.sessionOpened runningSession), .input (.key ⟨.char 'a', .empty, .press⟩ 0),
    .input (.key ⟨.enter, .empty, .press⟩ 0)] ++ between ++ [.input answer, .input (.sessionOpened shown)]

theorem discarded_returns_refused :
    Returned plainTui freshDesk (followed (.submissionError 1) [] runningSession) 4 ⟨1, "a", some ⟨⟨1⟩⟩, 0⟩ ↔
      AnsweredBy plainTui freshDesk (followed (.submissionError 1) [] runningSession) (.submissionError 1) 4 1 := by
  have held : (deskAt plainTui freshDesk (followed (.submissionError 1) [] runningSession) 4).model.pendingSubmission =
      some ⟨1, "a", some ⟨⟨1⟩⟩, 0⟩ := by decide +kernel
  have room : (deskAt plainTui freshDesk (followed (.submissionError 1) [] runningSession) 4).room =
      ⟨[runningSession], []⟩ := rfl
  refine discarded_returns (.inl rfl) rfl ⟨[runningSession], rfl, ?_⟩ held ⟨?_, ?_⟩
  · rw [room]
    exact fun session member => member
  · rw [room]
    decide +kernel
  · rw [room]
    exact fun _ _ => List.not_mem_nil

/-- The mailbox accepts the prompt, and the turn before it fails. -/
def discardedQueue : List DeskEvent :=
  followed (.submissionCompleted 1) [.mailroom (.queued ⟨⟨1⟩⟩ "a"), .mailroom (.discarded ⟨⟨1⟩⟩ [failedSession])] failedSession

theorem discardedQueue_stuck : ¬ ∀ (events : List DeskEvent) (k : Nat) (input : SessionUiInput) (pending : PendingSubmission),
    events[k]? = some (.input input) → (deskAt plainTui freshDesk events k).Refreshes input →
      (deskAt plainTui freshDesk events k).model.pendingSubmission = some pending →
        (AnsweredBy plainTui freshDesk events (.submissionError pending.submissionId) k pending.submissionId ∨
          AnsweredBy plainTui freshDesk events (.submissionCompleted pending.submissionId) k pending.submissionId) →
          (deskAt plainTui freshDesk events k).Gone plainTui pending → Returned plainTui freshDesk events k pending := by
  intro claim
  have held : (deskAt plainTui freshDesk discardedQueue 6).model.pendingSubmission = some ⟨1, "a", some ⟨⟨1⟩⟩, 0⟩ := by
    decide +kernel
  have left : (deskAt plainTui freshDesk discardedQueue 7).model.pendingSubmission ≠ none := by decide +kernel
  have answered : AnsweredBy plainTui freshDesk discardedQueue (.submissionCompleted 1) 6 1 := by
    refine ⟨5, by decide, rfl, fun j since upto => ?_⟩
    have throughout : ∀ j < 7, 5 ≤ j → (deskAt plainTui freshDesk discardedQueue j).model.composerPends 1 = true := by
      decide +kernel
    exact throughout j (Nat.lt_succ_of_le upto) since
  have room : (deskAt plainTui freshDesk discardedQueue 6).room = ⟨[failedSession], []⟩ := rfl
  have gone : (deskAt plainTui freshDesk discardedQueue 6).Gone plainTui ⟨1, "a", some ⟨⟨1⟩⟩, 0⟩ := by
    constructor
    · rw [room]
      decide +kernel
    · rw [room]
      exact fun _ _ => List.not_mem_nil
  have refreshes : (deskAt plainTui freshDesk discardedQueue 6).Refreshes (.sessionOpened failedSession) := by
    refine ⟨[failedSession], rfl, ?_⟩
    rw [room]
    exact fun session member => member
  exact left (claim discardedQueue 6 _ _ rfl refreshes held (.inr answered) gone).1

end LatteCode.Tui
