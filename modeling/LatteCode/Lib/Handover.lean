import Mathlib
/- One slot of values, which hands empty before use and fill again when there was no use for the value. -/

namespace Handover

variable {κ ρ : Type} [DecidableEq κ]

/-- The slot, what each hand took, what was used, and the value that was offered last. -/
structure Post (κ ρ : Type) where
  slot : Option ρ
  hands : κ → Option ρ
  used : List ρ
  newest : Option ρ

inductive Act (κ ρ : Type) where
  | offer (value : ρ)
  | take (hand : κ)
  | putBack (hand : κ)
  | use (hand : κ)
  | drop (hand : κ)

namespace Post

variable (p : Post κ ρ)

def release (hand : κ) : κ → Option ρ := Function.update p.hands hand none

/-- What is put back never replaces a value. -/
def act : Act κ ρ → Post κ ρ
  | .offer value => { p with slot := some value, newest := some value }
  | .take hand => { p with slot := none, hands := Function.update p.hands hand p.slot }
  | .putBack hand => { p with slot := p.slot.or (p.hands hand), hands := p.release hand }
  | .use hand => { p with hands := p.release hand, used := p.used ++ (p.hands hand).toList }
  | .drop hand => { p with hands := p.release hand }

/-- The value is in the slot, in a hand, or was used. -/
def Present (value : ρ) : Prop := p.slot = some value ∨ (∃ hand, p.hands hand = some value) ∨ value ∈ p.used

/-- A hand takes when it is empty, and what is offered is new. -/
def Allows : Act κ ρ → Prop
  | .offer value => ¬ p.Present value
  | .take hand => p.hands hand = none
  | _ => True

/-- No value is in two places. -/
structure Apart : Prop where
  slotHand : ∀ hand value, p.slot = some value → p.hands hand ≠ some value
  hand : ∀ hand other value, p.hands hand = some value → p.hands other = some value → hand = other
  slotUsed : ∀ value, p.slot = some value → value ∉ p.used
  handUsed : ∀ hand value, p.hands hand = some value → value ∉ p.used
  once : p.used.Nodup

/-- The value that was offered last is not lost. -/
def Kept : Prop := ∀ value, p.newest = some value → p.Present value

/-- A hand lets the last value go, or finds another one where it puts it back. -/
def Loses : Act κ ρ → Prop
  | .drop hand => p.newest ≠ none ∧ p.hands hand = p.newest
  | .putBack hand => p.newest ≠ none ∧ p.hands hand = p.newest ∧ p.slot ≠ none
  | _ => False

variable {p} {hand other : κ} {value : ρ} {a : Act κ ρ}

@[simp] theorem release_self : p.release hand hand = none := Function.update_self _ _ _

theorem release_some : p.release hand other = some value ↔ other ≠ hand ∧ p.hands other = some value := by
  by_cases same : other = hand
  · subst same
    rw [release_self]
    constructor
    · intro impossible
      cases impossible
    · intro both
      exact absurd rfl both.1
  · rw [release, Function.update_of_ne same]
    exact ⟨fun held => ⟨same, held⟩, fun both => both.2⟩

theorem taken_some : Function.update p.hands hand p.slot other = some value ↔
    (other = hand ∧ p.slot = some value) ∨ (other ≠ hand ∧ p.hands other = some value) := by
  by_cases same : other = hand
  · subst same
    rw [Function.update_self]
    exact ⟨fun held => .inl ⟨rfl, held⟩, fun either => either.elim And.right fun both => absurd rfl both.1⟩
  · rw [Function.update_of_ne same]
    exact ⟨fun held => .inr ⟨same, held⟩, fun either => either.elim (fun both => absurd both.1 same) And.right⟩

theorem Apart.act (apart : p.Apart) (allowed : p.Allows a) : (p.act a).Apart := by
  cases a with
  | offer value =>
      refine ⟨?_, apart.hand, ?_, apart.handUsed, apart.once⟩
      · rintro hand _ ⟨⟩ held
        exact allowed (.inr (.inl ⟨hand, held⟩))
      · rintro _ ⟨⟩ member
        exact allowed (.inr (.inr member))
  | take hand =>
      refine ⟨nofun, ?_, nofun, ?_, apart.once⟩
      · intro first second value held held'
        rcases taken_some.mp held with ⟨rfl, slot⟩ | ⟨_, one⟩ <;> rcases taken_some.mp held' with ⟨rfl, slot'⟩ | ⟨_, two⟩
        · rfl
        · exact absurd two (apart.slotHand second value slot)
        · exact absurd one (apart.slotHand first value slot')
        · exact apart.hand first second value one two
      · intro first value held
        rcases taken_some.mp held with ⟨_, slot⟩ | ⟨_, one⟩
        · exact apart.slotUsed value slot
        · exact apart.handUsed first value one
  | putBack hand =>
      refine ⟨?_, ?_, ?_, ?_, apart.once⟩
      · intro first value filled held
        obtain ⟨differs, one⟩ := release_some.mp held
        rcases Option.or_eq_some_iff.mp filled with slot | ⟨_, back⟩
        · exact apart.slotHand first value slot one
        · exact differs (apart.hand first hand value one back)
      · intro first second value held held'
        exact apart.hand first second value (release_some.mp held).2 (release_some.mp held').2
      · intro value filled
        rcases Option.or_eq_some_iff.mp filled with slot | ⟨_, back⟩
        · exact apart.slotUsed value slot
        · exact apart.handUsed hand value back
      · intro first value held
        exact apart.handUsed first value (release_some.mp held).2
  | use hand =>
      refine ⟨?_, ?_, ?_, ?_, ?_⟩
      · intro first value slot held
        exact apart.slotHand first value slot (release_some.mp held).2
      · intro first second value held held'
        exact apart.hand first second value (release_some.mp held).2 (release_some.mp held').2
      · intro value slot member
        rcases List.mem_append.mp member with old | new
        · exact apart.slotUsed value slot old
        · exact apart.slotHand hand value slot (Option.mem_toList.mp new)
      · intro first value held member
        obtain ⟨differs, one⟩ := release_some.mp held
        rcases List.mem_append.mp member with old | new
        · exact apart.handUsed first value one old
        · exact differs (apart.hand first hand value one (Option.mem_toList.mp new))
      · refine List.nodup_append.mpr ⟨apart.once, ?_, ?_⟩
        · cases p.hands hand with
          | none => exact List.nodup_nil
          | some value => exact List.nodup_singleton value
        · rintro value old _ new rfl
          exact apart.handUsed hand value (Option.mem_toList.mp new) old
  | drop hand =>
      refine ⟨?_, ?_, apart.slotUsed, ?_, apart.once⟩
      · intro first value slot held
        exact apart.slotHand first value slot (release_some.mp held).2
      · intro first second value held held'
        exact apart.hand first second value (release_some.mp held).2 (release_some.mp held').2
      · intro first value held
        exact apart.handUsed first value (release_some.mp held).2

/-- Nothing comes in but what is offered. -/
theorem present_act (present : (p.act a).Present value) : p.Present value ∨ a = .offer value := by
  cases a with
  | offer offered =>
      rcases present with slot | other
      · cases slot
        exact .inr rfl
      · exact .inl (.inr other)
  | take hand =>
      rcases present with slot | ⟨other, held⟩ | used
      · cases slot
      · rcases taken_some.mp held with ⟨_, slot⟩ | ⟨_, held⟩
        · exact .inl (.inl slot)
        · exact .inl (.inr (.inl ⟨other, held⟩))
      · exact .inl (.inr (.inr used))
  | putBack hand =>
      rcases present with filled | ⟨other, held⟩ | used
      · rcases Option.or_eq_some_iff.mp filled with slot | ⟨_, back⟩
        · exact .inl (.inl slot)
        · exact .inl (.inr (.inl ⟨hand, back⟩))
      · exact .inl (.inr (.inl ⟨other, (release_some.mp held).2⟩))
      · exact .inl (.inr (.inr used))
  | use hand =>
      rcases present with slot | ⟨other, held⟩ | used
      · exact .inl (.inl slot)
      · exact .inl (.inr (.inl ⟨other, (release_some.mp held).2⟩))
      · rcases List.mem_append.mp used with old | new
        · exact .inl (.inr (.inr old))
        · exact .inl (.inr (.inl ⟨hand, Option.mem_toList.mp new⟩))
  | drop hand =>
      rcases present with slot | ⟨other, held⟩ | used
      · exact .inl (.inl slot)
      · exact .inl (.inr (.inl ⟨other, (release_some.mp held).2⟩))
      · exact .inl (.inr (.inr used))

/-- A value stays unless it was in the hand that moves. -/
theorem present_release (present : p.Present value) :
    p.slot = some value ∨ (∃ other, p.release hand other = some value) ∨ value ∈ p.used ∨ p.hands hand = some value := by
  rcases present with slot | ⟨other, held⟩ | used
  · exact .inl slot
  · by_cases same : other = hand
    · exact .inr (.inr (.inr (same ▸ held)))
    · exact .inr (.inl ⟨other, release_some.mpr ⟨same, held⟩⟩)
  · exact .inr (.inr (.inl used))

/-- An act keeps the last value exactly when it does not lose it. -/
theorem kept_act_iff (apart : p.Apart) (kept : p.Kept) (allowed : p.Allows a) : (p.act a).Kept ↔ ¬ p.Loses a := by
  cases a with
  | offer value => exact ⟨fun _ => id, fun _ _ last => .inl last⟩
  | take hand =>
      refine ⟨fun _ => id, fun _ value last => ?_⟩
      rcases kept value last with slot | ⟨other, held⟩ | used
      · exact .inr (.inl ⟨hand, taken_some.mpr (.inl ⟨rfl, slot⟩)⟩)
      · have differs : other ≠ hand := by
          rintro rfl
          exact absurd (held.symm.trans allowed) (by simp)
        exact .inr (.inl ⟨other, taken_some.mpr (.inr ⟨differs, held⟩)⟩)
      · exact .inr (.inr used)
  | putBack hand =>
      constructor
      · rintro still ⟨present, inHand, full⟩
        obtain ⟨value, last⟩ := Option.ne_none_iff_exists'.mp present
        obtain ⟨old, filled⟩ := Option.ne_none_iff_exists'.mp full
        rw [last] at inHand
        rcases still value last with slot | ⟨other, held⟩ | used
        · -- the slot has the older one still
          rw [Post.act, filled, Option.some_or] at slot
          cases slot
          exact apart.slotHand hand value filled inHand
        · obtain ⟨differs, held⟩ := release_some.mp held
          exact differs (apart.hand other hand value held inHand)
        · exact apart.handUsed hand value inHand used
      · intro keeps value last
        rcases present_release (kept value last) with slot | held | used | inHand
        · left
          rw [Post.act, slot, Option.some_or]
        · exact .inr (.inl held)
        · exact .inr (.inr used)
        · left
          have empty : p.slot = none := by
            by_contra full
            exact keeps ⟨last ▸ nofun, inHand.trans last.symm, full⟩
          rw [Post.act, empty, Option.none_or, inHand]
  | use hand =>
      refine ⟨fun _ => id, fun _ value last => ?_⟩
      rcases present_release (kept value last) with slot | held | used | inHand
      · exact .inl slot
      · exact .inr (.inl held)
      · exact .inr (.inr (List.mem_append_left _ used))
      · exact .inr (.inr (List.mem_append_right _ (Option.mem_toList.mpr inHand)))
  | drop hand =>
      constructor
      · rintro still ⟨present, inHand⟩
        obtain ⟨value, last⟩ := Option.ne_none_iff_exists'.mp present
        rw [last] at inHand
        rcases still value last with slot | ⟨other, held⟩ | used
        · exact apart.slotHand hand value slot inHand
        · obtain ⟨differs, held⟩ := release_some.mp held
          exact differs (apart.hand other hand value held inHand)
        · exact apart.handUsed hand value inHand used
      · intro keeps value last
        rcases present_release (kept value last) with slot | held | used | inHand
        · exact .inl slot
        · exact .inr (.inl held)
        · exact .inr (.inr used)
        · exact absurd ⟨last ▸ nofun, inHand.trans last.symm⟩ keeps

end Post

end Handover
