import LatteCode.Core.Redaction
import LatteCode.Headless.Window
import LatteCode.Storage.Commit
/- The transcript of a session as the commits of its linked turns extend it. -/

namespace LatteCode.Headless
open Outcome Storage

/-- The entries of one session, below the newest sequence it has handed out. -/
structure Conversation where
  entries : List TranscriptEntry
  lastSeq : Nat
  climbing : Climbing entries
  bounded : ∀ entry ∈ entries, entry.sequence ≤ lastSeq

section Cards

variable (E : Environment)

/-- The card of an accepted update, for the updates whose request alone decides it. -/
def updateCard : CommitSessionTurnUpdate → Option Card
  | .appendTranscript sourceKey kind text payload =>
      some ⟨kind, E.redactSessionText text, payload.map E.redactSessionValue, sourceKey⟩
  | .prepareEffect sourceKey _ digest descriptor _ _ description _ =>
      (E.fromStr descriptor).toOption.map fun descriptor =>
        ⟨.toolCall, E.redactSessionText description, some (E.redactSessionValue (.ofMembers
          [("descriptor", descriptor), ("operation_digest", .string digest)])), cardKey sourceKey⟩
  | .startEffect sourceKey effectId _ _ =>
      some ⟨.system, "tool started", some (startedCardPayload E effectId "started"), cardKey sourceKey⟩
  | .observeEffect sourceKey _ _ _ result payload _ =>
      some ⟨.toolResult, E.redactSessionText result, payload.map E.redactSessionValue, cardKey sourceKey⟩
  | .unknownEffect sourceKey effectId _ _ =>
      some ⟨.failure, "effect outcome unknown; reconciliation required",
        some (startedCardPayload E effectId "unknown"), cardKey sourceKey⟩
  | .reconcileUnknownEffect sourceKey effectId _ =>
      some ⟨.failure, "unknown effect acknowledged failed; turn aborted",
        some (startedCardPayload E effectId "reconciled"), cardKey sourceKey⟩
  | .resolvePermission sourceKey _ true _ => some ⟨.system, "permission allowed", none, cardKey sourceKey⟩
  | .resolvePermission sourceKey _ false _ =>
      some ⟨.failure, "permission denied",
        some (.ofMembers [("provider_tool_round_aborted", .string "permission_denied")]), cardKey sourceKey⟩
  | .provideInput sourceKey _ value => some ⟨.user, E.redactSessionText value, none, cardKey sourceKey⟩
  | .requestInput sourceKey request =>
      some ⟨.input, E.redactSessionText (E.redactSessionText request.prompt), none, cardKey sourceKey⟩
  | .requestPermission sourceKey request =>
      some ⟨.permission, E.redactSessionText (E.redactSessionText request.description), none, cardKey sourceKey⟩
  | .fail sourceKey failure =>
      some ⟨.failure, E.redactSessionText (E.redactSessionText failure.message), none, cardKey sourceKey⟩
  | _ => none

variable {E}

theorem applyUpdate_card {db db' : E.Db} {turnId : TurnId} {lease : Lease} {now : Nat} {current : TurnState}
    {lifecycle : SessionLifecycle} {recovered : Bool} {update : CommitSessionTurnUpdate} {draft : Draft}
    {card : Card} (applied : applyUpdate E db turnId lease now current lifecycle recovered update = .ok (draft, db'))
    (decided : updateCard E update = some card) : draft.card = some card := by
  cases update with
  | appendTranscript sourceKey kind text payload =>
      cases applied
      exact decided
  | prepareEffect sourceKey effectId digest descriptor canonical policy description checkpoint =>
      simp only [applyUpdate, applyPrepareEffect, bind_ok, invalidJson, mapError_ok] at applied
      obtain ⟨_, _, _, _, parsed, read, _, _, _, _, _, _, _, _, chosen⟩ := applied
      simp only [updateCard, read, Except.toOption, Option.map_some] at decided
      cases policy with
      | allow =>
          cases chosen
          exact decided
      | ask =>
          simp only [bind_ok] at chosen
          obtain ⟨_, _, _, _, written⟩ := chosen
          cases written
          exact decided
  | startEffect sourceKey effectId digest checkpoint =>
      simp only [applyUpdate, applyStartEffect, bind_ok] at applied
      obtain ⟨_, _, _, _, _, _, _, _, _, _, _, _, _, _, _, _, _, _, _, _, written⟩ := applied
      cases written
      exact decided
  | observeEffect sourceKey effectId digest success result payload checkpoint =>
      simp only [applyUpdate, applyObserveEffect, bind_ok] at applied
      obtain ⟨_, _, _, _, _, _, _, _, _, _, _, _, written⟩ := applied
      cases written
      exact decided
  | unknownEffect sourceKey effectId digest checkpoint =>
      simp only [applyUpdate, applyUnknownEffect, bind_ok] at applied
      obtain ⟨_, _, _, _, _, _, _, _, _, _, _, _, written⟩ := applied
      cases written
      exact decided
  | reconcileUnknownEffect sourceKey effectId checkpoint =>
      simp only [applyUpdate, applyReconcileUnknownEffect, bind_ok] at applied
      obtain ⟨_, _, _, _, _, _, _, _, _, _, written⟩ := applied
      cases written
      exact decided
  | resolvePermission sourceKey requestId allow rebound =>
      simp only [applyUpdate, applyResolvePermission, bind_ok] at applied
      obtain ⟨_, _, chosen⟩ := applied
      cases allow with
      | true =>
          rw [if_pos rfl, bind_ok] at chosen
          obtain ⟨_, _, written⟩ := chosen
          cases written
          exact decided
      | false =>
          rw [if_neg Bool.false_ne_true, bind_ok] at chosen
          obtain ⟨_, _, written⟩ := chosen
          cases written
          exact decided
  | provideInput sourceKey requestId value =>
      simp only [applyUpdate, applyProvideInput, bind_ok] at applied
      obtain ⟨_, _, written⟩ := applied
      cases written
      exact decided
  | requestInput sourceKey request =>
      simp only [applyUpdate, applyRequestInput, bind_ok, transitionOr_ok] at applied
      obtain ⟨next, moved, written⟩ := applied
      obtain ⟨_, rfl⟩ := TurnState.transition_requestInput moved
      cases written
      exact decided
  | requestPermission sourceKey request =>
      simp only [applyUpdate, applyRequestPermission, bind_ok, transitionOr_ok] at applied
      obtain ⟨next, moved, written⟩ := applied
      obtain ⟨_, rfl⟩ := TurnState.transition_requestPermission moved
      cases written
      exact decided
  | fail sourceKey failure =>
      simp only [applyUpdate, applyFail, bind_ok, transitionOr_ok] at applied
      obtain ⟨next, moved, written⟩ := applied
      obtain ⟨_, rfl⟩ := TurnState.transition_fail moved
      cases written
      exact decided
  | start sourceKey | complete sourceKey handoff | interrupt sourceKey effectId => cases decided
  | completeVerified sourceKey summary effectId digest files => cases decided

end Cards

/-- One linked turn: the entry that a commit at a sequence adds for its card. -/
structure LinkedTurn where
  sessionId : SessionId
  turnId : TurnId
  entryIdAt : Nat → TranscriptEntryId
  committedAt : Nat → Nat

namespace LinkedTurn

variable (turn : LinkedTurn)

def entry (sequence : Nat) (card : Card) : TranscriptEntry where
  entryId := turn.entryIdAt sequence
  sequence := sequence
  turnId := some turn.turnId
  kind := card.kind
  text := card.text
  payload := card.payload
  sourceKey := card.sourceKey
  createdAtMs := turn.committedAt sequence

end LinkedTurn

namespace Conversation

/-- The next sequence with its card. -/
def append (self : Conversation) (turn : LinkedTurn) (card : Card) : Conversation where
  entries := self.entries ++ [turn.entry (self.lastSeq + 1) card]
  lastSeq := self.lastSeq + 1
  climbing := by
    rw [Climbing, List.pairwise_append]
    refine ⟨self.climbing, List.pairwise_singleton .., ?_⟩
    intro earlier held later added
    rw [List.mem_singleton.mp added]
    exact Nat.lt_succ_of_le (self.bounded earlier held)
  bounded := by
    intro entry held
    rw [List.mem_append, List.mem_singleton] at held
    rcases held with old | rfl
    · exact Nat.le_succ_of_le (self.bounded entry old)
    · exact Nat.le_refl _

@[simp] theorem entries_append (self : Conversation) (turn : LinkedTurn) (card : Card) :
    (self.append turn card).entries = self.entries ++ [turn.entry (self.lastSeq + 1) card] := rfl

/-- What a commit response and a full load show of the transcript. -/
def window (self : Conversation) : List TranscriptEntry := (projectionWindow self.entries 500).entries

end Conversation

end LatteCode.Headless
