import Mathlib
/- Locks with fencing tokens: many scopes, one counter from which every token is minted. -/

namespace Fencing
open Relation

variable {σ : Type}

/-- Who holds each scope, by token, and the last token minted. -/
structure Lock (σ : Type) where
  holder : σ → Option Nat
  last : Nat

/-- No scope is held under a token that was not minted. -/
def Lock.Bounded (lock : Lock σ) : Prop := ∀ scope token, lock.holder scope = some token → token ≤ lock.last

/-- The lock after a new acquisition of one scope. -/
def Lock.mint [DecidableEq σ] (lock : Lock σ) (scope : σ) : Lock σ where
  holder other := if other = scope then some (lock.last + 1) else lock.holder other
  last := lock.last + 1

/-- A lock frees some of its scopes, or mints a token for one of them. -/
inductive Lock.Step [DecidableEq σ] (before after : Lock σ) : Prop
  | freed (last : after.last = before.last)
      (holder : ∀ scope token, after.holder scope = some token → before.holder scope = some token)
  | minted (scope : σ) (same : after = before.mint scope)

/-- What any number of steps leave: a holder is an old one or under a newer token. -/
structure Follows (before after : Lock σ) : Prop where
  last : before.last ≤ after.last
  holder : ∀ scope token, after.holder scope = some token → before.holder scope = some token ∨ before.last < token

variable {before middle after : Lock σ} {scope : σ} {token : Nat}

theorem Follows.refl (lock : Lock σ) : Follows lock lock := ⟨Nat.le_refl _, fun _ _ held => .inl held⟩

theorem Follows.trans (first : Follows before middle) (second : Follows middle after) : Follows before after := by
  refine ⟨Nat.le_trans first.last second.last, ?_⟩
  intro scope token held
  rcases second.holder scope token held with held | newer
  · exact first.holder scope token held
  · exact .inr (Nat.lt_of_le_of_lt first.last newer)

/-- The fence: under a scope that was held by a newer token, an older one is never the holder again. -/
theorem Follows.fenced {newer : Nat} (follows : Follows before after) (bounded : before.Bounded)
    (held : before.holder scope = some newer) (older : token < newer) : after.holder scope ≠ some token := by
  intro again
  rcases follows.holder scope token again with same | later
  · rw [held, Option.some.injEq] at same
    omega
  · have := bounded scope newer held
    omega

section Steps

variable [DecidableEq σ]

theorem Lock.Step.refl (lock : Lock σ) : lock.Step lock := .freed rfl fun _ _ held => held

theorem Lock.Step.follows (step : before.Step after) : Follows before after := by
  cases step with
  | freed last holder => exact ⟨Nat.le_of_eq last.symm, fun scope token held => .inl (holder scope token held)⟩
  | minted scope same =>
      subst same
      refine ⟨Nat.le_succ _, ?_⟩
      intro other token held
      simp only [mint] at held
      split at held
      case isTrue =>
        cases held
        exact .inr (Nat.lt_succ_self _)
      case isFalse => exact .inl held

theorem Lock.Step.bounded (step : before.Step after) (bounded : before.Bounded) : after.Bounded := by
  cases step with
  | freed last holder =>
      intro scope token held
      rw [last]
      exact bounded scope token (holder scope token held)
  | minted scope same =>
      subst same
      intro other token held
      simp only [mint] at held ⊢
      split at held
      case isTrue =>
        cases held
        exact Nat.le_refl _
      case isFalse => exact Nat.le_succ_of_le (bounded other token held)

theorem Follows.of_path (path : ReflTransGen Lock.Step before after) : Follows before after := by
  induction path with
  | refl => exact .refl before
  | tail _ step ih => exact ih.trans step.follows

end Steps

end Fencing
