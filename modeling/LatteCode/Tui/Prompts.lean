import LatteCode.Tui.Buffers
import LatteCode.Tui.Reconciliation
/- A prompt that was taken, and a draft that was put aside, stay in one of three places until they are durable or edited. -/

namespace LatteCode.Tui
open Runs

inductive Slot where
  | composer
  | pending
  | deferred
deriving DecidableEq, Repr

/-- A text that the terminal took as a prompt or put aside, and the place it went to. -/
structure Owed where
  text : String
  place : Slot
deriving DecidableEq, Repr

/-- What an input did to the prompts, seen from the states around it. -/
inductive PromptEvent where
  | submitted
  | edited
  | accepted
  | restored
  | quiet
deriving DecidableEq, Repr

def Buffers.holds (buffers : Buffers) : Slot → Option String
  | .composer => some buffers.composer
  | .pending => buffers.pending.map PendingSubmission.prompt
  | .deferred => buffers.deferred

namespace SessionUiModel

variable (E : TuiEnvironment) (model : SessionUiModel)

def holds (place : Slot) : Option String := model.buffers.holds place

/-- A submission that is gone was accepted if the projection holds its card, and came back otherwise. -/
def promptEvent (input : SessionUiInput) : PromptEvent :=
  let reduced := reduce E model input
  if reduced.2.any fun action => action.submission.isSome then .submitted
  else if input.edits then if reduced.1.composer = model.composer then .quiet else .edited
  else if model.pendingSubmission.isSome && reduced.1.pendingSubmission.isNone then
    if (model.answering input).any fun pending => pending.durable E reduced.1.sessions then .accepted else .restored
  else .quiet

end SessionUiModel

/-! ## The ledger -/

def Slot.onSubmit : Slot → Slot
  | .composer => .pending
  | place => place

def Slot.onRestore : Slot → Slot
  | .pending => .composer
  | .composer => .deferred
  | .deferred => .deferred

/-- A draft put aside comes back to an empty composer. -/
def Slot.onAccept (composer : String) : Slot → Slot
  | .deferred => if composer = "" then .composer else .deferred
  | place => place

def relocate (move : Slot → Slot) (ledger : List Owed) : List Owed :=
  ledger.map fun owed => { owed with place := move owed.place }

/-- The text of the composer moves; it is owed from now on, if it was not before. -/
def takeComposer (composer : String) (move : Slot → Slot) (ledger : List Owed) : List Owed :=
  if ledger.any fun owed => owed.place = .composer then relocate move ledger
  else ⟨composer, move .composer⟩ :: relocate move ledger

/-- The texts that are owed after an event, each with the place it is to be found in. -/
def settleLedger (composer : String) (ledger : List Owed) : PromptEvent → List Owed
  | .submitted => takeComposer composer Slot.onSubmit ledger
  | .edited => ledger.filter fun owed => owed.place ≠ .composer
  | .accepted => relocate (Slot.onAccept composer) (ledger.filter fun owed => owed.place ≠ .pending)
  | .restored =>
      if composer = "" then relocate Slot.onRestore ledger else takeComposer composer Slot.onRestore ledger
  | .quiet => ledger

/-- Every text that is owed is in its place, and no two are in one. -/
structure Placed (buffers : Buffers) (ledger : List Owed) : Prop where
  held : ∀ owed ∈ ledger, buffers.holds owed.place = some owed.text
  apart : (ledger.map Owed.place).Nodup

/-- The terminal with what it owes. -/
structure Prompted where
  model : SessionUiModel
  ledger : List Owed

namespace Prompted

variable (E : TuiEnvironment) (prompted : Prompted)

def step (input : SessionUiInput) : Prompted where
  model := reduceModel E prompted.model input
  ledger := settleLedger prompted.model.composer prompted.ledger (prompted.model.promptEvent E input)

end Prompted

/-- A restored prompt finds no draft put aside when it displaces another, and there are numbers left to submit under. -/
structure Roomy (E : TuiEnvironment) (model : SessionUiModel) (input : SessionUiInput) : Prop where
  draft : ∀ sessions pending, input.projection = some sessions → model.pendingSubmission = some pending →
    model.submissionRefresh.composer = true → pending.durable E sessions = false →
      model.composer = "" ∨ model.deferredComposerDraft = none
  number : input.edits = true → model.nextSubmissionId < 2 ^ 64 - 1

/-! ## What each event leaves in its place -/

/-- With one place free, no two texts move to one. -/
theorem Slot.onSubmit_injective {first second : Slot} (one : first ≠ .pending) (two : second ≠ .pending)
    (same : first.onSubmit = second.onSubmit) : first = second := by
  cases first <;> cases second <;> simp_all [Slot.onSubmit]

theorem Slot.onRestore_injective {free first second : Slot} (held : free ≠ .pending) (one : first ≠ free)
    (two : second ≠ free) (same : first.onRestore = second.onRestore) : first = second := by
  cases first <;> cases second <;> simp_all [Slot.onRestore]
  all_goals cases free <;> simp_all

theorem map_place_relocate (move : Slot → Slot) (ledger : List Owed) :
    (relocate move ledger).map Owed.place = (ledger.map Owed.place).map move := by
  rw [relocate, List.map_map, List.map_map]
  rfl

namespace Placed

variable {buffers after : Buffers} {ledger : List Owed}

/-- No text is owed in a place that holds none. -/
theorem absent (placed : Placed buffers ledger) {place : Slot} (none : buffers.holds place = none) :
    ∀ owed ∈ ledger, owed.place ≠ place := by
  intro owed member same
  have held := placed.held owed member
  rw [same, none] at held
  cases held

/-- No text is owed in an empty composer. -/
theorem absent_composer (placed : Placed buffers ledger) (texts : ∀ owed ∈ ledger, owed.text ≠ "")
    (empty : buffers.composer = "") : ∀ owed ∈ ledger, owed.place ≠ .composer := by
  intro owed member same
  have held := placed.held owed member
  rw [same] at held
  change some buffers.composer = some owed.text at held
  rw [empty] at held
  exact texts owed member (Option.some.inj held).symm

theorem quiet (placed : Placed buffers ledger) (same : ∀ place, after.holds place = buffers.holds place) :
    Placed after ledger :=
  ⟨fun owed member => (same owed.place).trans (placed.held owed member), placed.apart⟩

/-- Texts that all move to places of their own stay apart. -/
theorem relocated (placed : Placed buffers ledger) {move : Slot → Slot}
    (follows : ∀ owed ∈ ledger, after.holds (move owed.place) = buffers.holds owed.place)
    (injective : ∀ first ∈ ledger, ∀ second ∈ ledger, move first.place = move second.place →
      first.place = second.place) : Placed after (relocate move ledger) := by
  constructor
  · intro owed member
    obtain ⟨before, old, rfl⟩ := List.mem_map.mp member
    exact (follows before old).trans (placed.held before old)
  · rw [map_place_relocate]
    refine List.Nodup.map_on ?_ placed.apart
    intro first firstMember second secondMember same
    obtain ⟨one, oneMember, rfl⟩ := List.mem_map.mp firstMember
    obtain ⟨two, twoMember, rfl⟩ := List.mem_map.mp secondMember
    exact injective one oneMember two twoMember same

theorem filtered (placed : Placed buffers ledger) (keep : Owed → Bool) : Placed buffers (ledger.filter keep) :=
  ⟨fun owed member => placed.held owed (List.mem_filter.mp member).1,
    placed.apart.sublist (List.filter_sublist.map Owed.place)⟩

/-- The text of the composer joins those that moved, unless it moved with them. -/
theorem taken {move : Slot → Slot} (moved : Placed after (relocate move ledger))
    (arrived : after.holds (move .composer) = some buffers.composer)
    (free : (∀ owed ∈ ledger, owed.place ≠ .composer) → ∀ owed ∈ ledger, move owed.place ≠ move .composer) :
    Placed after (takeComposer buffers.composer move ledger) := by
  unfold takeComposer
  split
  · exact moved
  case isFalse absent =>
    have elsewhere : ∀ owed ∈ ledger, owed.place ≠ .composer := fun owed member same =>
      absent (List.any_eq_true.mpr ⟨owed, member, decide_eq_true same⟩)
    refine ⟨List.forall_mem_cons.mpr ⟨arrived, moved.held⟩, List.nodup_cons.mpr ⟨?_, moved.apart⟩⟩
    rw [map_place_relocate]
    intro member
    obtain ⟨place, old, same⟩ := List.mem_map.mp member
    obtain ⟨owed, owedMember, rfl⟩ := List.mem_map.mp old
    exact free elsewhere owed owedMember same

theorem submitted (placed : Placed buffers ledger) (idle : buffers.pending = none) (sessionId : Option SessionId)
    (afterSequence : Nat) : Placed (buffers.submitted sessionId afterSequence)
      (takeComposer buffers.composer Slot.onSubmit ledger) := by
  have unsent : ∀ owed ∈ ledger, owed.place ≠ .pending := by
    refine placed.absent ?_
    rw [Buffers.holds, idle]
    rfl
  refine taken (placed.relocated ?_ ?_) rfl ?_
  · intro owed member
    cases place : owed.place with
    | composer => rfl
    | pending => exact absurd place (unsent owed member)
    | deferred => rfl
  · intro first firstMember second secondMember same
    exact Slot.onSubmit_injective (unsent first firstMember) (unsent second secondMember) same
  · intro elsewhere owed member same
    cases place : owed.place with
    | composer => exact elsewhere owed member place
    | pending => exact unsent owed member place
    | deferred =>
        rw [place] at same
        cases same

theorem edited (placed : Placed buffers ledger) (composer : String) (next : Nat) :
    Placed { buffers with composer := composer, next := next } (ledger.filter fun owed => owed.place ≠ .composer) := by
  have kept := placed.filtered fun owed => owed.place ≠ .composer
  refine ⟨fun owed member => ?_, kept.apart⟩
  have elsewhere := of_decide_eq_true (List.mem_filter.mp member).2
  have held := kept.held owed member
  cases place : owed.place with
  | composer => exact absurd place elsewhere
  | pending | deferred =>
      rw [place] at held
      exact held

theorem accepted (placed : Placed buffers ledger) (texts : ∀ owed ∈ ledger, owed.text ≠ "") :
    Placed buffers.accepted
      (relocate (Slot.onAccept buffers.composer) (ledger.filter fun owed => owed.place ≠ .pending)) := by
  have kept := placed.filtered fun owed => owed.place ≠ .pending
  have unsent : ∀ owed ∈ ledger.filter (fun owed => owed.place ≠ .pending), owed.place ≠ .pending := fun owed member =>
    of_decide_eq_true (List.mem_filter.mp member).2
  by_cases empty : buffers.composer = ""
  · have vacant := kept.absent_composer (fun owed member => texts owed (List.mem_filter.mp member).1) empty
    have put : ∀ owed ∈ ledger.filter (fun owed => owed.place ≠ .pending), owed.place = .deferred := by
      intro owed member
      cases place : owed.place with
      | composer => exact absurd place (vacant owed member)
      | pending => exact absurd place (unsent owed member)
      | deferred => rfl
    refine kept.relocated ?_ fun first firstMember second secondMember _ =>
      (put first firstMember).trans (put second secondMember).symm
    intro owed member
    have held := kept.held owed member
    rw [put owed member] at held ⊢
    change buffers.deferred = some owed.text at held
    simp only [Slot.onAccept, if_pos empty, Buffers.holds, Buffers.accepted, held, Option.getD_some]
  · have still : ∀ place, place ≠ Slot.pending → Slot.onAccept buffers.composer place = place := by
      intro place sent
      cases place with
      | composer => rfl
      | pending => exact absurd rfl sent
      | deferred => exact if_neg empty
    refine kept.relocated ?_ ?_
    · intro owed member
      rw [still _ (unsent owed member)]
      cases place : owed.place with
      | composer => simp only [Buffers.holds, Buffers.accepted, if_neg empty]
      | pending => exact absurd place (unsent owed member)
      | deferred => simp only [Buffers.holds, Buffers.accepted, if_neg empty]
    · intro first firstMember second secondMember same
      rw [still _ (unsent first firstMember), still _ (unsent second secondMember)] at same
      exact same

/-- A prompt that comes back leaves everything in its place if it displaces nothing, or no draft was put aside before. -/
theorem restored (placed : Placed buffers ledger) (texts : ∀ owed ∈ ledger, owed.text ≠ "")
    {pending : PendingSubmission} (held : buffers.pending = some pending)
    (room : buffers.composer = "" ∨ buffers.deferred = none) :
    Placed (buffers.restored pending.prompt) (settleLedger buffers.composer ledger .restored) := by
  unfold settleLedger
  simp only
  split
  case isTrue empty =>
    have vacant := placed.absent_composer texts empty
    refine placed.relocated ?_ ?_
    · intro owed member
      cases place : owed.place with
      | composer => exact absurd place (vacant owed member)
      | pending =>
          simp only [Slot.onRestore, Buffers.holds, Buffers.restored, held]
          rfl
      | deferred => simp only [Slot.onRestore, Buffers.holds, Buffers.restored, if_pos empty]
    · intro first firstMember second secondMember same
      exact Slot.onRestore_injective (by decide) (vacant first firstMember) (vacant second secondMember) same
  case isFalse typed =>
    have none : buffers.deferred = none := room.resolve_left typed
    have unset : ∀ owed ∈ ledger, owed.place ≠ .deferred := placed.absent none
    refine taken (placed.relocated ?_ ?_) ?_ ?_
    · intro owed member
      cases place : owed.place with
      | composer => simp only [Slot.onRestore, Buffers.holds, Buffers.restored, if_neg typed]
      | pending =>
          simp only [Slot.onRestore, Buffers.holds, Buffers.restored, held]
          rfl
      | deferred => exact absurd place (unset owed member)
    · intro first firstMember second secondMember same
      exact Slot.onRestore_injective (by decide) (unset first firstMember) (unset second secondMember) same
    · simp only [Slot.onRestore, Buffers.holds, Buffers.restored, if_neg typed]
    · intro elsewhere owed member same
      cases place : owed.place with
      | composer => exact elsewhere owed member place
      | deferred => exact unset owed member place
      | pending =>
          rw [place] at same
          cases same

end Placed

/-! ## One input -/

namespace SessionUiModel

variable {E : TuiEnvironment} {model : SessionUiModel} {input : SessionUiInput}

theorem submits_none {reduced : Reduced} (silent : Unsubmitted reduced) :
    (reduced.2.any fun action => action.submission.isSome) = false := by
  refine List.any_eq_false.mpr fun action emitted => ?_
  rw [silent action emitted]
  exact Bool.false_ne_true

theorem promptEvent_quiet (silent : Unsubmitted (reduce E model input))
    (composer : (reduce E model input).1.composer = model.composer)
    (pending : model.pendingSubmission.isSome = true → (reduce E model input).1.pendingSubmission.isSome = true) :
    model.promptEvent E input = .quiet := by
  unfold promptEvent
  simp only
  rw [submits_none silent, if_neg Bool.false_ne_true, if_pos composer]
  split
  · rfl
  split
  case isTrue gone =>
    rw [Bool.and_eq_true, Option.isNone_iff_eq_none] at gone
    have still := pending gone.1
    rw [gone.2] at still
    cases still
  case isFalse => rfl

theorem promptEvent_gone (silent : Unsubmitted (reduce E model input)) (arrives : input.edits = false)
    {pending : PendingSubmission} (held : model.pendingSubmission = some pending)
    (gone : (reduce E model input).1.pendingSubmission = none) : model.promptEvent E input =
      if (model.answering input).any fun pending => pending.durable E (reduce E model input).1.sessions then .accepted
      else .restored := by
  unfold promptEvent
  simp only
  rw [submits_none silent, if_neg Bool.false_ne_true, arrives, if_neg Bool.false_ne_true, held, gone]
  rfl

end SessionUiModel

/-- What is owed is in its place. -/
structure Prompted.Sound (prompted : Prompted) : Prop where
  texts : ∀ owed ∈ prompted.ledger, owed.text ≠ ""
  placed : Placed prompted.model.buffers prompted.ledger

theorem takeComposer_texts {composer : String} {ledger : List Owed} (texts : ∀ owed ∈ ledger, owed.text ≠ "")
    (typed : composer ≠ "") (move : Slot → Slot) : ∀ owed ∈ takeComposer composer move ledger, owed.text ≠ "" := by
  have moved : ∀ owed ∈ relocate move ledger, owed.text ≠ "" := by
    intro owed member
    obtain ⟨before, old, rfl⟩ := List.mem_map.mp member
    exact texts before old
  unfold takeComposer
  split
  · exact moved
  · exact List.forall_mem_cons.mpr ⟨typed, moved⟩

theorem settleLedger_texts {composer : String} {ledger : List Owed} (texts : ∀ owed ∈ ledger, owed.text ≠ "")
    (event : PromptEvent) (typed : event = .submitted → composer ≠ "") :
    ∀ owed ∈ settleLedger composer ledger event, owed.text ≠ "" := by
  cases event with
  | submitted => exact takeComposer_texts texts (typed rfl) _
  | edited => exact fun owed member => texts owed (List.mem_filter.mp member).1
  | accepted =>
      intro owed member
      obtain ⟨before, old, rfl⟩ := List.mem_map.mp member
      exact texts before (List.mem_filter.mp old).1
  | restored =>
      unfold settleLedger
      simp only
      split
      · intro owed member
        obtain ⟨before, old, rfl⟩ := List.mem_map.mp member
        exact texts before old
      case isFalse occupied => exact takeComposer_texts texts occupied _
  | quiet => exact texts

theorem nonempty_of_trim {text : String} (nonblank : trim text ≠ "") : text ≠ "" := by
  rintro rfl
  exact nonblank (by decide)

theorem Prompted.sound_step {E : TuiEnvironment} {prompted : Prompted} {input : SessionUiInput} {after : Buffers}
    {event : PromptEvent} (sound : prompted.Sound) (moved : (reduce E prompted.model input).1.buffers = after)
    (happened : prompted.model.promptEvent E input = event)
    (placed : Placed after (settleLedger prompted.model.composer prompted.ledger event))
    (typed : event = .submitted → prompted.model.composer ≠ "") : (prompted.step E input).Sound := by
  have texts := settleLedger_texts sound.texts event typed
  rw [← happened] at placed texts
  rw [← moved] at placed
  exact ⟨texts, placed⟩

open SessionUiModel in
/-- One input leaves every text that is owed in a place of its own, if a prompt that comes back finds room. -/
theorem Prompted.Sound.step {E : TuiEnvironment} {prompted : Prompted} (sound : prompted.Sound)
    (manned : Manned prompted.model) {input : SessionUiInput} (roomy : Roomy E prompted.model input) :
    (prompted.step E input).Sound := by
  obtain ⟨texts, placed⟩ := id sound
  have source := reduce_bufferMove (E := E) manned.idle manned.bound input
  obtain ⟨reduced, same⟩ : ∃ reduced, reduce E prompted.model input = reduced := ⟨_, rfl⟩
  rw [same] at source
  have next : (reduce E prompted.model input).1 = reduced.1 := congrArg Prod.fst same
  have arrived : ∀ {after : Buffers}, reduced.1.buffers = after → (reduce E prompted.model input).1.buffers = after :=
    fun moved => (congrArg SessionUiModel.buffers next).trans moved
  have written : ∀ {after : Buffers}, reduced.1.buffers = after →
      (reduce E prompted.model input).1.composer = after.composer := fun moved => congrArg Buffers.composer (arrived moved)
  have pends : ∀ {after : Buffers}, reduced.1.buffers = after →
      (reduce E prompted.model input).1.pendingSubmission = after.pending := fun moved =>
    congrArg Buffers.pending (arrived moved)
  have quiet : reduced.1.buffers = prompted.model.buffers → Unsubmitted reduced → (prompted.step E input).Sound := by
    intro moved silent
    have event : prompted.model.promptEvent E input = .quiet := by
      refine promptEvent_quiet (same ▸ silent) (written moved) fun held => ?_
      rw [pends moved]
      exact held
    exact sound_step sound (arrived moved) event placed nofun
  cases source with
  | keeps plain moved silent => exact quiet moved silent
  | settles projects waiting moved silent => exact quiet moved silent
  | edits typed composer next grows limit moved silent =>
      have pending : reduced.1.pendingSubmission = prompted.model.pendingSubmission := congrArg Buffers.pending moved
      by_cases still : reduced.1.composer = prompted.model.composer
      · have event : prompted.model.promptEvent E input = .quiet :=
          promptEvent_quiet (same ▸ silent) (same ▸ still) fun held => by rw [same, pending, held]
        refine sound_step sound (arrived moved) event (placed.quiet fun place => ?_) nofun
        have shown : composer = prompted.model.composer := (congrArg Buffers.composer moved).symm.trans still
        cases place with
        | composer => exact congrArg some shown
        | pending | deferred => rfl
      · have event : prompted.model.promptEvent E input = .edited := by
          unfold promptEvent
          simp only
          rw [same, submits_none silent, if_neg Bool.false_ne_true, if_pos typed, if_neg still]
        exact sound_step sound (arrived moved) event (placed.edited composer next) nofun
  | @submits key now model' action pending nonblank sessionId afterSequence moved carries =>
      have event : prompted.model.promptEvent E (.key key now) = .submitted := by
        unfold promptEvent
        simp only
        rw [same, List.any_cons, carries]
        rfl
      exact sound_step sound (arrived moved) event (placed.submitted pending sessionId afterSequence)
        fun _ => nonempty_of_trim nonblank
  | @assigns _ model' assigned plain answers moved =>
      have event : prompted.model.promptEvent E input = .quiet := by
        have silent : Unsubmitted (reduce E prompted.model input) := by
          rw [same]
          exact List.forall_mem_nil _
        refine promptEvent_quiet silent (written moved) fun _ => ?_
        rw [pends moved]
        rfl
      refine sound_step sound (arrived moved) event (placed.quiet fun place => ?_) nofun
      cases place with
      | composer | deferred => rfl
      | pending => exact (answering_prompt answers).symm
  | @fails model' pending held moved =>
      have event : prompted.model.promptEvent E (.submissionError pending.submissionId) = .quiet := by
        have silent : Unsubmitted (reduce E prompted.model (.submissionError pending.submissionId)) := by
          rw [same]
          exact List.forall_mem_singleton.mpr rfl
        refine promptEvent_quiet silent (written moved) fun pending => ?_
        rw [pends moved]
        exact pending
      exact sound_step sound (arrived moved) event (placed.quiet fun place => by cases place <;> rfl) nofun
  | accepts arrives answers durable moved silent =>
      obtain ⟨held, sent⟩ := answering_isSome answers
      have event : prompted.model.promptEvent E input = .accepted := by
        rw [promptEvent_gone (same ▸ silent) arrives sent (pends moved), answers, same,
          Option.any_some, if_pos durable]
      exact sound_step sound (arrived moved) event (placed.accepted texts) nofun
  | restores held failed projects shown lost moved silent =>
      have event : prompted.model.promptEvent E input = .restored := by
        rw [promptEvent_gone (same ▸ silent) (edits_of_projection projects) held (pends moved),
          answering_of_projection projects, held, same, shown, Option.any_some, lost]
        rfl
      exact sound_step sound (arrived moved) event
        (placed.restored texts held (roomy.draft _ _ projects held failed lost)) nofun

/-! ## Runs -/

/-- The numbers of the submissions that are asked for. -/
def submissions (actions : List SessionUiAction) : List Nat :=
  actions.filterMap fun action => action.submission.map Prod.fst

section Runs

variable (E : TuiEnvironment) (initial : SessionUiModel) (inputs : List SessionUiInput)

/-- The terminal with what it owes, after the first `k` inputs. -/
abbrev promptedAt (k : Nat) : Prompted := stateAt (Prompted.step E) ⟨initial, []⟩ inputs k

/-- What was taken or put aside is in a place of its own, and every number was submitted once. -/
structure PromptsKept (k : Nat) : Prop where
  placed : Placed (modelAt E initial inputs k).buffers (promptedAt E initial inputs k).ledger
  once : ((List.range k).flatMap fun j => submissions (emittedAt E initial inputs j)).Nodup

variable {E initial inputs}

theorem promptedAt_model (k : Nat) : (promptedAt E initial inputs k).model = modelAt E initial inputs k := by
  have along : ∀ (inputs : List SessionUiInput) (prompted : Prompted),
      (run (Prompted.step E) prompted inputs).model = run (reduceModel E) prompted.model inputs := by
    intro inputs
    induction inputs with
    | nil => exact fun _ => rfl
    | cons input inputs ih => exact fun prompted => ih (prompted.step E input)
  exact along _ _

theorem Prompted.sound_start (initial : SessionUiModel) : Prompted.Sound ⟨initial, []⟩ :=
  ⟨List.forall_mem_nil _, List.forall_mem_nil _, List.nodup_nil⟩

theorem promptedAt_sound (starting : Starting initial)
    (roomy : ∀ k (bound : k < inputs.length), Roomy E (modelAt E initial inputs k) inputs[k]) {k : Nat}
    (bound : k ≤ inputs.length) : (promptedAt E initial inputs k).Sound := by
  have good : ∀ k (bound : k < inputs.length), Manned (promptedAt E initial inputs k).model ∧
      Roomy E (promptedAt E initial inputs k).model inputs[k] := by
    intro k bound
    rw [promptedAt_model]
    exact ⟨modelAt_manned starting k, roomy k bound⟩
  have kept : ∀ (prompted : Prompted) (input : SessionUiInput), prompted.Sound →
      Manned prompted.model ∧ Roomy E prompted.model input → (prompted.step E input).Sound := fun _ _ sound good => sound.step good.1 good.2
  exact invariant_of_steps (Prompted.sound_start initial) kept good k bound

theorem submissions_unsubmitted {reduced : Reduced} (silent : Unsubmitted reduced) : submissions reduced.2 = [] := by
  refine List.filterMap_eq_nil_iff.mpr fun action emitted => ?_
  rw [silent action emitted]
  rfl

/-- An input submits nothing, or one prompt under the next number. -/
theorem BufferMove.numbers {model : SessionUiModel} {input : SessionUiInput} {reduced : Reduced}
    (move : BufferMove E model input reduced) (room : input.edits = true → model.nextSubmissionId < 2 ^ 64 - 1) :
    (submissions reduced.2 = [] ∧ model.nextSubmissionId ≤ reduced.1.nextSubmissionId) ∨
      (submissions reduced.2 = [model.nextSubmissionId] ∧
        reduced.1.nextSubmissionId = model.nextSubmissionId + 1) := by
  cases move with
  | keeps plain moved silent =>
      exact .inl ⟨submissions_unsubmitted silent, Nat.le_of_eq (congrArg Buffers.next moved).symm⟩
  | settles projects waiting moved silent =>
      exact .inl ⟨submissions_unsubmitted silent, Nat.le_of_eq (congrArg Buffers.next moved).symm⟩
  | edits typed composer next grows limit moved silent =>
      have reached : reduced.1.nextSubmissionId = next := congrArg Buffers.next moved
      exact .inl ⟨submissions_unsubmitted silent, Nat.le_trans grows (Nat.le_of_eq reached.symm)⟩
  | submits idle nonblank sessionId afterSequence moved carries =>
      refine .inr ⟨?_, (congrArg Buffers.next moved).trans ?_⟩
      · rw [submissions, List.filterMap_cons, carries]
        rfl
      · have below : model.nextSubmissionId < 2 ^ 64 - 1 := room rfl
        change saturatingAdd model.nextSubmissionId 1 = model.nextSubmissionId + 1
        unfold saturatingAdd
        omega
  | assigns plain answers moved => exact .inl ⟨rfl, Nat.le_of_eq (congrArg Buffers.next moved).symm⟩
  | fails held moved => exact .inl ⟨rfl, Nat.le_of_eq (congrArg Buffers.next moved).symm⟩
  | accepts arrives answers durable moved silent =>
      exact .inl ⟨submissions_unsubmitted silent, Nat.le_of_eq (congrArg Buffers.next moved).symm⟩
  | restores held failed projects shown lost moved silent =>
      exact .inl ⟨submissions_unsubmitted silent, Nat.le_of_eq (congrArg Buffers.next moved).symm⟩

/-- The numbers submitted so far are distinct and below the next one. -/
theorem submissions_once (starting : Starting initial)
    (roomy : ∀ k (bound : k < inputs.length), Roomy E (modelAt E initial inputs k) inputs[k]) :
    ∀ k, k ≤ inputs.length →
      ((List.range k).flatMap fun j => submissions (emittedAt E initial inputs j)).Nodup ∧
        ∀ number ∈ (List.range k).flatMap fun j => submissions (emittedAt E initial inputs j),
          number < (modelAt E initial inputs k).nextSubmissionId := by
  intro k
  induction k with
  | zero => exact fun _ => ⟨List.nodup_nil, List.forall_mem_nil _⟩
  | succ k ih =>
      intro bound
      obtain ⟨distinct, below⟩ := ih (Nat.le_of_succ_le bound)
      have manned : Manned (modelAt E initial inputs k) := modelAt_manned starting k
      have numbers := (SessionUiModel.reduce_bufferMove (E := E) manned.idle manned.bound inputs[k]).numbers
        (roomy k bound).number
      have next : modelAt E initial inputs (k + 1) = (reduce E (modelAt E initial inputs k) inputs[k]).1 :=
        stateAt_succ bound
      have emitted : emittedAt E initial inputs k = (reduce E (modelAt E initial inputs k) inputs[k]).2 := by
        rw [emittedAt, List.getElem?_eq_getElem bound]
      rw [← next, ← emitted] at numbers
      rw [List.range_succ, List.flatMap_append, List.flatMap_singleton]
      rcases numbers with ⟨none, grows⟩ | ⟨one, advances⟩
      · rw [none, List.append_nil]
        exact ⟨distinct, fun number member => Nat.lt_of_lt_of_le (below number member) grows⟩
      · rw [one, advances]
        constructor
        · refine List.nodup_append.mpr ⟨distinct, List.nodup_singleton _, fun number member other last => ?_⟩
          rw [List.mem_singleton.mp last]
          exact Nat.ne_of_lt (below number member)
        · intro number member
          rcases List.mem_append.mp member with earlier | last
          · exact Nat.lt_succ_of_lt (below number earlier)
          · rw [List.mem_singleton.mp last]
            exact Nat.lt_succ_self _

end Runs

/-! ## Two failures in a row -/

/-- A prompt is submitted, a draft is typed, and the submission fails. -/
def failedOnce (number : Nat) (draft : Char) : List SessionUiInput :=
  [.key ⟨.enter, .empty, .press⟩ 0, .key ⟨.char draft, .empty, .press⟩ 0, .submissionError number, .snapshot []]

def displacedOnce : List SessionUiInput := .key ⟨.char 'a', .empty, .press⟩ 0 :: failedOnce 1 'b'

def displacedTwice : List SessionUiInput := displacedOnce ++ failedOnce 2 'c'

end LatteCode.Tui
