import Mathlib
/- A bounded broadcast channel: every receiver reads at its own position, and one that falls behind is told so. -/

namespace Broadcast

/-- All that was sent; only the last `capacity` values can still be read. -/
structure Channel (α : Type) where
  capacity : Nat
  sent : List α

inductive Received (α : Type) where
  | item (value : α)
  | lagged (missed : Nat)
  | empty
deriving DecidableEq

namespace Channel

variable {α : Type} (channel : Channel α) (position : Nat)

def send (value : α) : Channel α := { channel with sent := channel.sent ++ [value] }

/-- The position of a new receiver. -/
def subscribe : Nat := channel.sent.length

/-- What a receiver gets, and where it stands after it. -/
def recv : Received α × Nat :=
  if channel.capacity < channel.sent.length - position then
    (.lagged (channel.sent.length - position - channel.capacity), channel.sent.length - channel.capacity)
  else
    match channel.sent[position]? with
    | some value => (.item value, position + 1)
    | none => (.empty, position)

/-- A receiver at this position will get a value of a kind, or be told that it has fallen behind. -/
def Unread (p : α → Prop) : Prop :=
  channel.capacity < channel.sent.length - position ∨ ∃ value ∈ channel.sent.drop position, p value

variable {channel position} {p : α → Prop} {value : α}

theorem length_send (channel : Channel α) (value : α) : channel.sent.length ≤ (channel.send value).sent.length := by
  rw [Channel.send, List.length_append]
  exact Nat.le_add_right _ _

theorem Unread.send (unread : channel.Unread position p) : (channel.send value).Unread position p := by
  rcases unread with behind | ⟨waiting, member, kind⟩
  · exact .inl (Nat.lt_of_lt_of_le behind (Nat.sub_le_sub_right (length_send channel value) position))
  · refine .inr ⟨waiting, ?_, kind⟩
    change waiting ∈ (channel.sent ++ [value]).drop position
    rw [List.drop_append]
    exact List.mem_append_left _ member

theorem unread_send (bound : position ≤ channel.sent.length) (kind : p value) :
    (channel.send value).Unread position p := by
  refine .inr ⟨value, ?_, kind⟩
  change value ∈ (channel.sent ++ [value]).drop position
  rw [List.drop_append, Nat.sub_eq_zero_of_le bound]
  exact List.mem_append_right _ List.mem_cons_self

theorem recv_le (channel : Channel α) (bound : position ≤ channel.sent.length) :
    (channel.recv position).2 ≤ channel.sent.length := by
  unfold recv
  split
  case isTrue => exact Nat.sub_le _ _
  case isFalse =>
    split
    case h_1 found => exact (List.getElem?_eq_some_iff.mp found).1
    case h_2 => exact bound

/-- A receiver with something to read reads it, or goes on with it to read. -/
theorem Unread.item (unread : channel.Unread position p) {next : Nat}
    (received : channel.recv position = (.item value, next)) : p value ∨ channel.Unread next p := by
  unfold recv at received
  split at received
  case isTrue => cases received
  case isFalse current =>
    obtain ⟨waiting, member, kind⟩ := unread.resolve_left current
    split at received
    case h_2 => cases received
    case h_1 first found =>
      cases received
      obtain ⟨inside, same⟩ := List.getElem?_eq_some_iff.mp found
      rw [List.drop_eq_getElem_cons inside, same] at member
      rcases List.mem_cons.mp member with rfl | later
      · exact .inl kind
      · exact .inr (.inr ⟨waiting, later, kind⟩)

theorem Unread.not_empty (unread : channel.Unread position p) (next : Nat) :
    channel.recv position ≠ (.empty, next) := by
  intro received
  unfold recv at received
  split at received
  case isTrue => cases received
  case isFalse current =>
    obtain ⟨waiting, member, kind⟩ := unread.resolve_left current
    split at received
    case h_1 => cases received
    case h_2 missing =>
      rw [List.drop_eq_nil_of_le (List.getElem?_eq_none_iff.mp missing)] at member
      cases member

/-- A receiver at the end of the channel has nothing to read. -/
theorem not_unread : ¬ channel.Unread channel.sent.length p := by
  rintro (behind | ⟨waiting, member, _⟩)
  · rw [Nat.sub_self] at behind
    exact Nat.not_lt_zero _ behind
  · rw [List.drop_length] at member
    cases member

end Channel

end Broadcast
