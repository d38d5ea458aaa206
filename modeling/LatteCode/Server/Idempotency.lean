import LatteCode.Server.Handlers
/- The idempotency ledger over every interleaving of handlers: it is safe, and it is live unless an owner is dropped. -/

namespace LatteCode.Server
open Reservations Runs Storage

section Progresses

variable {D : Type} {self : Handler D} {wake : Wake} {progress : Progress} {request : Request}

/-- What a poll of a request's handler can come to. -/
inductive Proper (request : Request) : Progress → Prop where
  | waits {stage : Stage} {task : Task} (live : stage.live = true)
      (answers : ∀ status body, stage = .registering status body → Request.Answers body request) :
      Proper request (.waits stage task)
  | finishes {response : Response} (answers : ∀ status body, response = .ok (status, body) → Request.Answers body request) :
      Proper request (.finishes response)

theorem begin_proper (S : Service) (request : Request) : Proper request (request.begin S) := by
  cases request with
  | create workspaceId body => exact .waits rfl fun _ _ none => nomatch none
  | followUp id body =>
      simp only [Request.begin]
      cases S.parseUuid id with
      | none => exact .finishes fun _ _ none => nomatch none
      | some uuid => exact .waits rfl fun _ _ none => nomatch none

theorem located_proper (request : Request) (result : Except LookupFailure WorkspaceInstance) :
    Proper request (request.located result) := by
  cases result with
  | error failure =>
      cases request <;> exact .finishes fun _ _ none => nomatch none
  | ok workspace =>
      cases request with
      | create workspaceId body =>
          simp only [Request.located]
          cases body.binding.validate with
          | error message => exact .finishes fun _ _ none => nomatch none
          | ok _ => exact .waits rfl fun _ _ none => nomatch none
      | followUp id body => exact .waits rfl fun _ _ none => nomatch none

theorem accepted_proper (request : Request) (workspace : WorkspaceInstance) (outcome : CreateOutcome) :
    Proper request (request.accepted workspace outcome) := by
  cases request with
  | create workspaceId body =>
      refine .waits rfl fun status body same => ?_
      cases same
      trivial
  | followUp id body =>
      refine .finishes fun status body same => ?_
      cases same
      trivial

theorem poll_live (polled : self.poll wake = some progress) : self.live = true := by
  obtain ⟨request, idempotency, payloadDigest, stage, task⟩ := self
  cases stage with
  | lookingUp | accepting | registering => rfl
  | answered | dropped => cases wake <;> cases polled

theorem poll_proper (answers : ∀ status body, self.stage = .registering status body → Request.Answers body self.request)
    (polled : self.poll wake = some progress) : Proper self.request progress := by
  obtain ⟨request, idempotency, payloadDigest, stage, task⟩ := self
  cases wake with
  | located result =>
      cases stage <;> cases polled
      exact located_proper request result
  | accepted =>
      cases stage <;> try cases polled
      cases task with
      | signalled acceptance =>
          cases acceptance with
          | ok outcome => cases polled; exact accepted_proper request _ outcome
          | error error => cases polled; exact .finishes fun _ _ none => nomatch none
      | silent => cases polled; exact .finishes fun _ _ none => nomatch none
      | unspawned | running => cases polled
  | registered =>
      cases stage <;> cases polled
      refine .finishes fun status body same => ?_
      cases same
      exact answers _ _ rfl

end Progresses

/-- The key that a handler owns. -/
def Handler.owned {D : Type} (self : Handler D) : Option String := if self.live then self.idempotency else none

theorem Handler.owned_live {D : Type} {self : Handler D} (live : self.live = true) : self.owned = self.idempotency :=
  if_pos live

namespace World

/-- The handler is alive. -/
def Live {D : Type} (self : World D) (i : Nat) : Prop :=
  ∃ handler, self.handlers[i]? = some handler ∧ handler.live = true

/-- The handler is alive, between an `Owner` claim of the key and its complete or release. -/
def Owns {D : Type} (self : World D) (i : Nat) (key : String) : Prop :=
  ∃ handler, self.handlers[i]? = some handler ∧ handler.live = true ∧ handler.idempotency = some key

def ledger {D : Type} (self : World D) : Ledger String D (IdempotentRecord D) Nat :=
  ⟨self.idempotency, fun i => self.handlers[i]?.bind Handler.owned⟩

section Simulation

variable {D : Type} [DecidableEq D] {self : World D} {i : Nat} {handler : Handler D}

abbrev Play (self : World D) (moves : List (Move String D (IdempotentRecord D) Nat)) :
    Ledger String D (IdempotentRecord D) Nat :=
  self.ledger.play IdempotentRecord.payloadDigest moves

omit [DecidableEq D] in
theorem ledger_owners (found : self.handlers[i]? = some handler) : self.ledger.owners i = handler.owned := by
  simp only [ledger, found, Option.bind_some]

omit [DecidableEq D] in
theorem owns_iff {key : String} : self.Owns i key ↔ self.ledger.owners i = some key := by
  constructor
  · rintro ⟨handler, found, live, keyed⟩
    rw [ledger_owners found, Handler.owned_live live, keyed]
  · intro owned
    obtain ⟨handler, found, holds⟩ := Option.bind_eq_some_iff.mp owned
    rw [Handler.owned] at holds
    split at holds
    case isTrue live => exact ⟨handler, found, live, holds⟩
    case isFalse => cases holds

omit [DecidableEq D] in
theorem ledger_setHandler (found : self.handlers[i]? = some handler) (handler' : Handler D) :
    (self.setHandler i handler').ledger = ⟨self.idempotency, Function.update self.ledger.owners i handler'.owned⟩ := by
  have bound : i < self.handlers.length := (List.getElem?_eq_some_iff.mp found).1
  simp only [ledger, setHandler, Ledger.mk.injEq, true_and]
  funext j
  by_cases same : j = i
  · subst same
    rw [Function.update_self, List.getElem?_set_self bound, Option.bind_some]
  · rw [Function.update_of_ne same, List.getElem?_set_ne (fun eq => same eq.symm)]

omit [DecidableEq D] in
/-- Only what a handler owns reaches the ledger. -/
theorem ledger_kept {handler' : Handler D} (found : self.handlers[i]? = some handler)
    (same : handler'.owned = handler.owned) : (self.setHandler i handler').ledger = self.ledger := by
  rw [ledger_setHandler found handler', same, ← ledger_owners found, Function.update_eq_self]
  rfl

omit [DecidableEq D] in
theorem ledger_push (self : World D) (pushed : Handler D) : ({ self with handlers := self.handlers ++ [pushed] } : World D).ledger =
    ⟨self.idempotency, Function.update self.ledger.owners self.handlers.length pushed.owned⟩ := by
  simp only [ledger, Ledger.mk.injEq, true_and]
  funext j
  by_cases same : j = self.handlers.length
  · subst same
    rw [Function.update_self, List.getElem?_concat_length, Option.bind_some]
  · rw [Function.update_of_ne same]
    by_cases old : j < self.handlers.length
    · rw [List.getElem?_append_left old]
    · have beyond : self.handlers.length < j := Nat.lt_of_le_of_ne (Nat.le_of_not_lt old) (Ne.symm same)
      rw [List.getElem?_eq_none (by rw [List.length_append, List.length_singleton]; exact beyond),
        List.getElem?_eq_none (Nat.le_of_lt beyond)]

omit [DecidableEq D] in
theorem ledger_beyond : self.ledger.owners self.handlers.length = none := by
  simp only [ledger, List.getElem?_eq_none (Nat.le_refl _), Option.bind_none]

/-- The end of a handler completes or releases its key. -/
theorem finish_plays (found : self.handlers[i]? = some handler) (live : handler.live = true) (response : Response) :
    ∃ moves, (self.finish i handler response).ledger = self.Play moves ∧ ∀ party, Move.abandon party ∉ moves := by
  have answered := ledger_setHandler found { handler with stage := .answered response }
  have owned : self.ledger.owners i = handler.idempotency := by rw [ledger_owners found, Handler.owned_live live]
  obtain ⟨request, idempotency, payloadDigest, stage, task⟩ := handler
  have owners : (self.setHandler i ⟨request, idempotency, payloadDigest, .answered response, task⟩).ledger.owners =
      Function.update self.ledger.owners i none := congrArg Ledger.owners answered
  cases idempotency with
  | none =>
      refine ⟨[], ?_, fun party none => nomatch none⟩
      have same : Function.update self.ledger.owners i none = self.ledger.owners :=
        Function.update_eq_self_iff.mpr owned.symm
      exact answered.trans (congrArg (Ledger.mk self.idempotency) same)
  | some key =>
      cases response with
      | ok reply =>
          refine ⟨[.complete i ⟨reply.1, reply.2.toValue, payloadDigest⟩], ?_, fun party held => ?_⟩
          · have ended : self.ledger.move IdempotentRecord.payloadDigest
                (.complete i ⟨reply.1, reply.2.toValue, payloadDigest⟩) = _ := Ledger.move_complete owned
            exact (congrArg (Ledger.mk _) owners).trans ended.symm
          · exact absurd (List.mem_singleton.mp held) fun same => nomatch same
      | error error =>
          refine ⟨[.release i], ?_, fun party held => ?_⟩
          · have ended : self.ledger.move IdempotentRecord.payloadDigest (.release i) = _ := Ledger.move_release owned
            exact (congrArg (Ledger.mk _) owners).trans ended.symm
          · exact absurd (List.mem_singleton.mp held) fun same => nomatch same

theorem proceed_plays (self : World D) (found : self.handlers[i]? = some handler) (live : handler.live = true) {progress : Progress}
    (proper : Proper handler.request progress) :
    ∃ moves, (self.proceed i handler progress).ledger = self.Play moves ∧ ∀ party, Move.abandon party ∉ moves := by
  cases proper with
  | @waits stage task awaiting _ =>
      refine ⟨[], ledger_kept found ?_, fun party none => nomatch none⟩
      have awaiting' : Handler.live { handler with stage := stage, task := task } = true := awaiting
      rw [Handler.owned_live live, Handler.owned_live awaiting']
  | finishes _ => exact finish_plays found live _

omit [DecidableEq D] in
theorem answer_plays {request : Request} {idempotency : Option String} {payloadDigest : D} {response : Response} :
    (self.answer request idempotency payloadDigest response).ledger = self.ledger := by
  have idle : Handler.owned (⟨request, idempotency, payloadDigest, .answered response, .unspawned⟩ : Handler D) = none :=
    rfl
  rw [answer, ledger_push self, idle, ← ledger_beyond, Function.update_eq_self]
  rfl

end Simulation

section WellFormed

variable {S : Service} {self : World S.Digest} {i : Nat} {handler handler' : Handler S.Digest}

/-- A live handler owns the key of its request, and acknowledges as its endpoint does. -/
structure Sane (S : Service) (handler : Handler S.Digest) : Prop where
  keyed : handler.live = true → handler.idempotency = some (handler.request.key S)
  answering : ∀ status body, handler.stage = .registering status body → Request.Answers body handler.request

/-- Every record is an acknowledgement of the endpoint of its key. -/
def Recorded (S : Service) (slots : String → Option (IdempotentSlot S.Digest)) : Prop :=
  ∀ key record, slots key = some (.done record) → ∃ request body, key = Request.key S request ∧
    record.body = Body.toValue body ∧ Request.Answers body request

structure WellFormed (S : Service) (world : World S.Digest) : Prop where
  handlers : ∀ handler ∈ world.handlers, Sane S handler
  recorded : Recorded S world.idempotency

theorem Recorded.release {slots : String → Option (IdempotentSlot S.Digest)} {key : String}
    (recorded : Recorded S slots) : Recorded S (release slots key) :=
  fun other record held => recorded other record (release_done held)

theorem Recorded.complete {slots : String → Option (IdempotentSlot S.Digest)} {request : Request} {status : StatusCode}
    {body : Body} {digest : S.Digest} (recorded : Recorded S slots) (answers : Request.Answers body request) :
    Recorded S (complete slots (request.key S) ⟨status, body.toValue, digest⟩) := by
  intro other record held
  by_cases same : other = request.key S
  · subst same
    rw [Reservations.complete, Function.update_self] at held
    cases held
    exact ⟨request, body, rfl, rfl, answers⟩
  · rw [complete_elsewhere _ other same] at held
    exact recorded other record held

theorem Recorded.claimed {slots : String → Option (IdempotentSlot S.Digest)} {key : String} {digest : S.Digest}
    (recorded : Recorded S slots) : Recorded S (Function.update slots key (some (.pending digest))) := by
  intro other record held
  by_cases same : other = key
  · subst same
    rw [Function.update_self] at held
    cases held
  · rw [Function.update_of_ne same] at held
    exact recorded other record held

theorem WellFormed.set (wellFormed : self.WellFormed S) (sane : Sane S handler') :
    (self.setHandler i handler').WellFormed S := by
  refine ⟨fun other held => ?_, wellFormed.recorded⟩
  rcases List.mem_or_eq_of_mem_set held with old | rfl
  · exact wellFormed.handlers other old
  · exact sane

theorem WellFormed.push (wellFormed : self.WellFormed S) (sane : Sane S handler') :
    ({ self with handlers := self.handlers ++ [handler'] } : World S.Digest).WellFormed S := by
  refine ⟨fun other held => ?_, wellFormed.recorded⟩
  rcases List.mem_append.mp held with old | new
  · exact wellFormed.handlers other old
  · rw [List.mem_singleton.mp new]
    exact sane

theorem answered_sane {request : Request} {idempotency : Option String} {digest : S.Digest} {response : Response}
    {task : Task} : Sane S ⟨request, idempotency, digest, .answered response, task⟩ :=
  ⟨fun live => (nomatch live), fun _ _ same => nomatch same⟩

theorem WellFormed.finish (wellFormed : self.WellFormed S) (live : handler.live = true) (sane : Sane S handler)
    {response : Response} (answers : ∀ status body, response = .ok (status, body) → Request.Answers body handler.request) :
    (self.finish i handler response).WellFormed S := by
  have answered : (self.setHandler i { handler with stage := .answered response }).WellFormed S :=
    wellFormed.set answered_sane
  simp only [World.finish, sane.keyed live] at answered ⊢
  cases response with
  | ok reply => exact ⟨answered.handlers, answered.recorded.complete (answers reply.1 reply.2 rfl)⟩
  | error error => exact ⟨answered.handlers, answered.recorded.release⟩

theorem WellFormed.proceed (wellFormed : self.WellFormed S) (live : handler.live = true) (sane : Sane S handler)
    {progress : Progress} (proper : Proper handler.request progress) :
    (self.proceed i handler progress).WellFormed S := by
  cases proper with
  | waits awaiting answers => exact wellFormed.set ⟨fun _ => sane.keyed live, answers⟩
  | finishes answers => exact wellFormed.finish live sane answers

theorem WellFormed.arrive (wellFormed : self.WellFormed S) (request : Request) (header : Option String) :
    (self.arrive S request header).WellFormed S := by
  simp only [World.arrive]
  split
  case isTrue => exact wellFormed.push answered_sane
  case isFalse identified =>
    rw [scopedIdempotencyKey_command (not_not.mp identified)]
    simp only
    split
    case h_4 slots claimed =>
      have sane : Sane S (⟨request, some (request.key S), S.sha256 request.payload, .lookingUp, .unspawned⟩ :
          Handler S.Digest) := ⟨fun _ => rfl, fun _ _ same => nomatch same⟩
      cases taken : self.idempotency (request.key S) with
      | some slot =>
          have unclaimed := (claim_taken IdempotentRecord.payloadDigest (S.sha256 request.payload) taken).2
          exact absurd (congrArg Prod.fst claimed) unclaimed
      | none =>
          rw [idempotencyClaim, claim_free taken] at claimed
          cases claimed
          have begun : WellFormed S { self with
              idempotency := Function.update self.idempotency (request.key S) (some (.pending (S.sha256 request.payload))) } :=
            ⟨wellFormed.handlers, wellFormed.recorded.claimed⟩
          exact (begun.push sane).proceed rfl sane (begin_proper S request)
    all_goals exact wellFormed.push answered_sane

theorem WellFormed.step (wellFormed : self.WellFormed S) (event : Event) : (self.step S event).WellFormed S := by
  cases event with
  | arrive request header => exact wellFormed.arrive request header
  | poll i wake =>
      simp only [World.step]
      cases found : self.handlers[i]? with
      | none => exact wellFormed
      | some handler =>
          simp only
          cases polled : handler.poll wake with
          | none => exact wellFormed
          | some progress =>
              have sane := wellFormed.handlers handler (List.mem_of_getElem? found)
              exact wellFormed.proceed (poll_live polled) sane (poll_proper sane.answering polled)
  | signal i acceptance =>
      simp only [World.step]
      cases found : self.handlers[i]? with
      | none => exact wellFormed
      | some handler =>
          have sane := wellFormed.handlers handler (List.mem_of_getElem? found)
          simp only
          split
          case h_1 => exact wellFormed.set ⟨sane.keyed, sane.answering⟩
          case h_2 => exact wellFormed
  | drop i =>
      simp only [World.step]
      cases found : self.handlers[i]? with
      | none => exact wellFormed
      | some handler =>
          simp only
          split
          case isTrue => exact wellFormed.set ⟨fun live => (nomatch live), fun _ _ same => nomatch same⟩
          case isFalse => exact wellFormed

theorem new_wellFormed : (new S).WellFormed S := ⟨fun _ none => (nomatch none), fun _ _ none => nomatch none⟩

end WellFormed

section Step

variable {S : Service} {self : World S.Digest} {request : Request} {header : Option String} {key : String}

/-- An owner's first poll: the claim, and its end when it fails before the first await. -/
theorem own_plays (self : World S.Digest) (request : Request) (key : String) (slots : String → Option (IdempotentSlot S.Digest)) (payloadDigest : S.Digest) :
    ∃ moves, (({ self with idempotency := slots } : World S.Digest).own S request (some key) payloadDigest).ledger =
        (⟨slots, Function.update self.ledger.owners self.handlers.length (some key)⟩ : Ledger ..).play
          IdempotentRecord.payloadDigest moves ∧ ∀ party, Move.abandon party ∉ moves := by
  let claimed : World S.Digest := { self with idempotency := slots }
  have pushed := ledger_push claimed ⟨request, some key, payloadDigest, .lookingUp, .unspawned⟩
  have found : (self.handlers ++ [(⟨request, some key, payloadDigest, .lookingUp, .unspawned⟩ : Handler S.Digest)])[
      self.handlers.length]? = some ⟨request, some key, payloadDigest, .lookingUp, .unspawned⟩ :=
    List.getElem?_concat_length
  let opened : World S.Digest := ⟨slots, self.handlers ++ [⟨request, some key, payloadDigest, .lookingUp, .unspawned⟩]⟩
  have proceeded := opened.proceed_plays found rfl (begin_proper S request)
  obtain ⟨moves, played, present⟩ := proceeded
  exact ⟨moves, played.trans (congrArg (fun l => Ledger.play _ l moves) pushed), present⟩

theorem arrive_plays (self : World S.Digest) (request : Request) (header : Option String) :
    ∃ moves, (self.arrive S request header).ledger = self.Play moves ∧ ∀ party, Move.abandon party ∉ moves := by
  have stays : ∀ idempotency response, ∃ moves,
      (self.answer request idempotency (S.sha256 request.payload) response).ledger = self.Play moves ∧
        ∀ party, Move.abandon party ∉ moves := fun _ _ => ⟨[], answer_plays, fun party none => nomatch none⟩
  simp only [arrive]
  split
  case isTrue => exact stays _ _
  case isFalse identified =>
    rw [scopedIdempotencyKey_command (not_not.mp identified)]
    simp only
    cases taken : self.idempotency (request.key S) with
    | some slot =>
        -- A taken key has no new owner.
        have unclaimed := (claim_taken IdempotentRecord.payloadDigest (S.sha256 request.payload) taken).2
        split
        case h_4 claimed => exact absurd (congrArg Prod.fst claimed) unclaimed
        all_goals exact stays _ _
    | none =>
        rw [idempotencyClaim, claim_free taken]
        simp only
        obtain ⟨moves, played, present⟩ := self.own_plays request (request.key S)
          (Function.update self.idempotency (request.key S) (some (.pending (S.sha256 request.payload))))
          (S.sha256 request.payload)
        refine ⟨.claim self.handlers.length (request.key S) (S.sha256 request.payload) :: moves, ?_, ?_⟩
        · rw [played]
          exact congrArg (fun l => Ledger.play _ l moves) (Ledger.move_claim ledger_beyond taken).symm
        · intro party held
          rcases List.mem_cons.mp held with same | later
          · cases same
          · exact present party later

/-- Every step is a play of the ledger, and nobody is lost but in a drop. -/
theorem WellFormed.step_plays (wellFormed : self.WellFormed S) (event : Event) :
    ∃ moves, (self.step S event).ledger = self.Play moves ∧
      ∀ party, Move.abandon party ∈ moves → event = .drop party ∧ self.Live party := by
  have stutters : ∃ moves, self.ledger = self.Play moves ∧
      ∀ party, Move.abandon party ∈ moves → event = .drop party ∧ self.Live party :=
    ⟨[], rfl, fun party none => nomatch none⟩
  cases event with
  | arrive request header =>
      obtain ⟨moves, played, present⟩ := self.arrive_plays request header
      exact ⟨moves, played, fun party lost => absurd lost (present party)⟩
  | poll i wake =>
      simp only [World.step]
      cases found : self.handlers[i]? with
      | none => exact stutters
      | some handler =>
          simp only
          cases polled : handler.poll wake with
          | none => exact stutters
          | some progress =>
              have proper := poll_proper (wellFormed.handlers handler (List.mem_of_getElem? found)).answering polled
              obtain ⟨moves, played, present⟩ := self.proceed_plays found (poll_live polled) proper
              exact ⟨moves, played, fun party lost => absurd lost (present party)⟩
  | signal i acceptance =>
      simp only [World.step]
      cases found : self.handlers[i]? with
      | none => exact stutters
      | some handler =>
          simp only
          split
          case h_1 =>
            refine ⟨[], ledger_kept found ?_, fun party none => nomatch none⟩
            rfl
          case h_2 => exact stutters
  | drop i =>
      simp only [World.step]
      cases found : self.handlers[i]? with
      | none => exact stutters
      | some handler =>
          simp only
          split
          case isTrue live =>
            refine ⟨[.abandon i], ledger_setHandler found _, fun party lost => ?_⟩
            cases List.mem_singleton.mp lost
            exact ⟨rfl, handler, found, live⟩
          case isFalse => exact stutters

end Step

section Runs

variable {S : Service} {events : List Event} {k m : Nat} {key : String}

/-- A world that is well formed, over a sound ledger. -/
def Sound (S : Service) (world : World S.Digest) : Prop := world.WellFormed S ∧ world.ledger.Sound

theorem Sound.step {self : World S.Digest} (sound : self.Sound S) (event : Event) : (self.step S event).Sound S := by
  obtain ⟨moves, played, _⟩ := sound.1.step_plays event
  exact ⟨sound.1.step event, played ▸ sound.2.play⟩

theorem new_ledger : (new S).ledger = .empty := rfl

theorem new_sound : (new S).Sound S := ⟨new_wellFormed, Ledger.empty_sound⟩

theorem after_sound (S : Service) (events : List Event) (k : Nat) : (after S events k).Sound S :=
  invariant_at new_sound (fun _ event sound => sound.step event) k

theorem after_succ (bound : k < events.length) : after S events (k + 1) = (after S events k).step S events[k] :=
  stateAt_succ bound

/-- A done record is there for the rest of the run. -/
theorem after_done {record : IdempotentRecord S.Digest} (done : (after S events k).idempotency key = some (.done record))
    (order : k ≤ m) (bound : m ≤ events.length) : (after S events m).idempotency key = some (.done record) := by
  induction order with
  | refl => exact done
  | @step m _ ih =>
      obtain ⟨moves, played, _⟩ := (after_sound S events m).1.step_plays events[m]
      have kept := (after_sound S events m).2.play_done IdempotentRecord.payloadDigest moves
        (ih (Nat.le_of_succ_le bound))
      rw [after_succ bound]
      exact (congrFun (congrArg Ledger.slots played) key).trans kept

/-- No event of the run drops a live handler. -/
def Undropped (S : Service) (events : List Event) : Prop :=
  ∀ k (bound : k < events.length) i, events[k] = .drop i → ¬ (after S events k).Live i

theorem after_attended (undropped : Undropped S events) (bound : k ≤ events.length) :
    (after S events k).ledger.Attended := by
  induction k with
  | zero => exact Ledger.empty_attended
  | succ k ih =>
      obtain ⟨moves, played, lost⟩ := (after_sound S events k).1.step_plays events[k]
      have present : ∀ party, Move.abandon party ∉ moves := fun party held =>
        undropped k bound party (lost party held).1 (lost party held).2
      rw [after_succ bound, played]
      exact (ih (Nat.le_of_succ_le bound)).play (after_sound S events k).2 present

/-- A drop of a live handler leaves its key pending for nobody. -/
theorem after_dropped (S : Service) (events : List Event) {i : Nat} (bound : k < events.length) (dropped : events[k] = .drop i)
    (live : (after S events k).Live i) :
    ∃ key digest, (after S events (k + 1)).ledger.Orphaned key digest := by
  obtain ⟨handler, found, alive⟩ := live
  have sound := after_sound S events k
  have keyed := (sound.1.handlers handler (List.mem_of_getElem? found)).keyed alive
  have owned : (after S events k).ledger.owners i = some (handler.request.key S) := by
    rw [ledger_owners found, Handler.owned_live alive, keyed]
  obtain ⟨digest, orphaned⟩ := sound.2.abandoned IdempotentRecord.payloadDigest owned
  refine ⟨handler.request.key S, digest, ?_⟩
  rw [after_succ bound, dropped]
  simp only [World.step, found, alive, if_true]
  have moved := ledger_setHandler found { handler with stage := .dropped }
  exact moved ▸ orphaned

/-- The key of a dropped owner answers nobody for the rest of the run. -/
theorem after_orphaned {digest : S.Digest} (orphaned : (after S events k).ledger.Orphaned key digest) (order : k ≤ m)
    (bound : m ≤ events.length) : (after S events m).ledger.Orphaned key digest := by
  induction order with
  | refl => exact orphaned
  | @step m _ ih =>
      obtain ⟨moves, played, _⟩ := (after_sound S events m).1.step_plays events[m]
      rw [after_succ bound, played]
      exact (ih (Nat.le_of_succ_le bound)).play

/-- A retry becomes the owner, or its key is done: then it is answered with the recorded result, if the payload is the
same. -/
def Retried (S : Service) (world : World S.Digest) (request : Request) : Prop :=
  (world.idempotencyClaim (request.key S) (S.sha256 request.payload)).1 = .owner ∨
  ∃ record body, world.idempotency (request.key S) = some (.done record) ∧ record.body = body.toValue ∧
    (record.payloadDigest = S.sha256 request.payload → ∀ header, headerKey header = some request.commandId.toString →
      world.arrive S request header =
        world.answer request (some (request.key S)) (S.sha256 request.payload) (.ok (.ok, body)))

theorem WellFormed.retried {self : World S.Digest} (wellFormed : self.WellFormed S) (request : Request)
    (unattended : ∀ digest, self.idempotency (request.key S) ≠ some (.pending digest)) : self.Retried S request := by
  cases taken : self.idempotency (request.key S) with
  | none =>
      left
      rw [idempotencyClaim, claim_free taken]
  | some slot =>
      cases slot with
      | pending digest => exact absurd taken (unattended digest)
      | done record =>
          right
          obtain ⟨recorded, body, keyed, encoded, answers⟩ := wellFormed.recorded _ record taken
          -- The record is one of the same endpoint, so it reads back.
          have reads : request.readBody body.toValue = some body :=
            Request.readBody_toValue (Request.Answers.of_key keyed.symm answers)
          refine ⟨record, body, taken, encoded, fun same header identified => ?_⟩
          have claimed : self.idempotencyClaim (request.key S) (S.sha256 request.payload) =
              (.replay record, self.idempotency) := claim_done taken same
          have replayed : replayIdempotentRecord request record = .ok (.ok, body) := by
            rw [replayIdempotentRecord, encoded, reads]
          rw [World.arrive, if_neg (not_not.mpr identified), scopedIdempotencyKey_command identified]
          simp only [claimed, replayed]

/-- What the ledger promises of a run. -/
def Promised (S : Service) (events : List Event) : Prop :=
  ∀ k, k ≤ events.length →
    (∀ i j key, (after S events k).Owns i key → (after S events k).Owns j key → i = j) ∧
    (∀ key record, (after S events k).idempotency key = some (.done record) →
      ∀ m, k ≤ m → m ≤ events.length → (after S events m).idempotency key = some (.done record)) ∧
    (∀ key, (∀ i, ¬ (after S events k).Owns i key) →
      ∀ digest, (after S events k).idempotency key ≠ some (.pending digest)) ∧
    (∀ request, (∀ i, ¬ (after S events k).Owns i (request.key S)) → (after S events k).Retried S request)

/-- The ledger keeps its promise exactly in the runs that drop no live handler. -/
theorem promised_iff (S : Service) (events : List Event) : Promised S events ↔ Undropped S events := by
  constructor
  · intro promised k bound i dropped live
    obtain ⟨key, digest, pending, unowned⟩ := after_dropped S events bound dropped live
    have unattended : ∀ i, ¬ (after S events (k + 1)).Owns i key := fun i owns => unowned i (owns_iff.mp owns)
    exact (promised (k + 1) bound).2.2.1 key unattended digest pending
  · intro undropped k bound
    have sound := after_sound S events k
    have settled : ∀ key, (∀ i, ¬ (after S events k).Owns i key) →
        ∀ digest, (after S events k).idempotency key ≠ some (.pending digest) := by
      intro key unattended digest pending
      obtain ⟨party, owned⟩ := after_attended undropped bound key digest pending
      exact unattended party (owns_iff.mpr owned)
    refine ⟨fun i j key here there => sound.2.exclusive (owns_iff.mp here) (owns_iff.mp there),
      fun key record done m order within => after_done done order within, settled, fun request unattended => ?_⟩
    exact sound.1.retried request (settled _ unattended)

end Runs

section Dropped

/-- A client disconnects while its create awaits the workspace. -/
def disconnected : List Event := [.arrive sampleCreateRequest (some sampleCommand.toString), .drop 0]

theorem promise_broken : ¬ ∀ S events, Promised S events := by
  intro all
  have alive : ((after sampleService disconnected 1).handlers[0]?.map Handler.live) = some true := by decide +kernel
  obtain ⟨handler, found, live⟩ := Option.map_eq_some_iff.mp alive
  obtain ⟨key, digest, pending, unowned⟩ :=
    after_dropped sampleService disconnected (by decide : 1 < disconnected.length) rfl ⟨handler, found, live⟩
  have unattended : ∀ i, ¬ (after sampleService disconnected 2).Owns i key := fun i owns => unowned i (owns_iff.mp owns)
  exact (all sampleService disconnected 2 (by decide)).2.2.1 key unattended digest pending

end Dropped

end World

end LatteCode.Server
