import LatteCode.Lib.Run
/- Reservations of keys: a key is claimed by one owner, who completes it with a record or releases it, or is lost. -/

namespace Reservations
open Runs

inductive Slot (δ ρ : Type) where
  | pending (digest : δ)
  | done (record : ρ)
deriving DecidableEq, Repr

/-- The answer to a claim. -/
inductive Claim (ρ : Type) where
  | owner
  | replay (record : ρ)
  | inFlight
  | mismatch
deriving DecidableEq, Repr

section Slots

variable {κ δ ρ : Type} [DecidableEq κ]

def claim [DecidableEq δ] (digestOf : ρ → δ) (slots : κ → Option (Slot δ ρ)) (key : κ) (digest : δ) :
    Claim ρ × (κ → Option (Slot δ ρ)) :=
  match slots key with
  | some (.done record) => if digestOf record = digest then (.replay record, slots) else (.mismatch, slots)
  | some (.pending existing) => if existing = digest then (.inFlight, slots) else (.mismatch, slots)
  | none => (.owner, Function.update slots key (some (.pending digest)))

def complete (slots : κ → Option (Slot δ ρ)) (key : κ) (record : ρ) : κ → Option (Slot δ ρ) :=
  Function.update slots key (some (.done record))

def release (slots : κ → Option (Slot δ ρ)) (key : κ) : κ → Option (Slot δ ρ) :=
  match slots key with
  | some (.pending _) => Function.update slots key none
  | _ => slots

variable {slots : κ → Option (Slot δ ρ)} {key : κ} {digest : δ}

theorem release_pending (taken : slots key = some (.pending digest)) :
    release slots key = Function.update slots key none := by
  rw [release, taken]

theorem complete_elsewhere (record : ρ) (other : κ) (apart : other ≠ key) :
    complete slots key record other = slots other := Function.update_of_ne apart ..

theorem release_elsewhere (other : κ) (apart : other ≠ key) : release slots key other = slots other := by
  unfold release
  cases slots key with
  | none => rfl
  | some slot =>
      cases slot with
      | pending digest => exact Function.update_of_ne apart ..
      | done record => rfl

/-- A release makes nothing done. -/
theorem release_done {other : κ} {record : ρ} (done : release slots key other = some (.done record)) :
    slots other = some (.done record) := by
  by_cases same : other = key
  · subst same
    cases taken : slots other with
    | none => simp only [release, taken, reduceCtorEq] at done
    | some slot =>
        cases slot with
        | pending digest =>
            rw [release_pending taken, Function.update_self] at done
            cases done
        | done record' => simpa only [release, taken] using done
  · rw [release_elsewhere other same] at done
    exact done

variable [DecidableEq δ] {digestOf : ρ → δ}

theorem claim_free (free : slots key = none) :
    claim digestOf slots key digest = (.owner, Function.update slots key (some (.pending digest))) := by
  rw [claim, free]

/-- A claim of a taken key changes nothing. -/
theorem claim_taken {slot : Slot δ ρ} (digestOf : ρ → δ) (digest : δ) (taken : slots key = some slot) :
    (claim digestOf slots key digest).2 = slots ∧ (claim digestOf slots key digest).1 ≠ .owner := by
  rw [claim, taken]
  cases slot with
  | pending existing =>
      simp only
      split <;> exact ⟨rfl, fun same => nomatch same⟩
  | done record =>
      simp only
      split <;> exact ⟨rfl, fun same => nomatch same⟩

theorem claim_pending (taken : slots key = some (.pending digest)) :
    claim digestOf slots key digest = (.inFlight, slots) := by
  rw [claim, taken]
  exact if_pos rfl

theorem claim_done {record : ρ} (done : slots key = some (.done record)) (same : digestOf record = digest) :
    claim digestOf slots key digest = (.replay record, slots) := by
  rw [claim, done]
  exact if_pos same

end Slots

/-- The slots, and the key that each party is the owner of. -/
structure Ledger (κ δ ρ ι : Type) where
  slots : κ → Option (Slot δ ρ)
  owners : ι → Option κ

inductive Move (κ δ ρ ι : Type) where
  | claim (party : ι) (key : κ) (digest : δ)
  | complete (party : ι) (record : ρ)
  | release (party : ι)
  /-- The party is gone, and leaves its key as it is. -/
  | abandon (party : ι)

namespace Ledger

variable {κ δ ρ ι : Type}

def empty : Ledger κ δ ρ ι := ⟨fun _ => none, fun _ => none⟩

/-- Every key has one owner at most, and the key of an owner is pending. -/
structure Sound (ledger : Ledger κ δ ρ ι) : Prop where
  exclusive : ∀ {party other key}, ledger.owners party = some key → ledger.owners other = some key → party = other
  held : ∀ {party key}, ledger.owners party = some key → ∃ digest, ledger.slots key = some (.pending digest)

/-- Every pending key has its owner. -/
def Attended (self : Ledger κ δ ρ ι) : Prop :=
  ∀ key digest, self.slots key = some (.pending digest) → ∃ party, self.owners party = some key

/-- A key that is pending for nobody. -/
structure Orphaned (ledger : Ledger κ δ ρ ι) (key : κ) (digest : δ) : Prop where
  pending : ledger.slots key = some (.pending digest)
  unowned : ∀ party, ledger.owners party ≠ some key

theorem empty_sound : (empty : Ledger κ δ ρ ι).Sound :=
  ⟨fun owned => (nomatch owned), fun owned => nomatch owned⟩

theorem empty_attended : (empty : Ledger κ δ ρ ι).Attended := fun _ _ pending => nomatch pending

section Left

variable [DecidableEq ι] {self : Ledger κ δ ρ ι} {party : ι} {key : κ} {slots : κ → Option (Slot δ ρ)}

theorem owner_left {owners : ι → Option κ} {other : ι} (owned : Function.update owners party none other = some key) :
    other ≠ party ∧ owners other = some key := by
  by_cases same : other = party
  · subst same
    rw [Function.update_self] at owned
    cases owned
  · rw [Function.update_of_ne same] at owned
    exact ⟨same, owned⟩

theorem owner_claimed {owners : ι → Option κ} {other : ι} {held : κ}
    (owned : Function.update owners party (some key) other = some held) :
    (other = party ∧ held = key) ∨ (other ≠ party ∧ owners other = some held) := by
  by_cases same : other = party
  · subst same
    rw [Function.update_self] at owned
    exact .inl ⟨rfl, (Option.some.inj owned).symm⟩
  · rw [Function.update_of_ne same] at owned
    exact .inr ⟨same, owned⟩

/-- The owner of `key` leaves, and no slot but that of `key` changes. -/
theorem Sound.left (sound : self.Sound) (owned : self.owners party = some key)
    (elsewhere : ∀ other, other ≠ key → slots other = self.slots other) :
    Sound (⟨slots, Function.update self.owners party none⟩ : Ledger κ δ ρ ι) := by
  constructor
  · intro first second shared here there
    exact sound.exclusive (owner_left here).2 (owner_left there).2
  · intro other held here
    obtain ⟨differs, here⟩ := owner_left here
    have apart : held ≠ key := fun same => differs (sound.exclusive (same ▸ here) owned)
    simp only
    rw [elsewhere held apart]
    exact sound.held here

/-- The others keep their keys when an owner leaves its key settled. -/
theorem Attended.left [DecidableEq κ] (attended : self.Attended) (owned : self.owners party = some key)
    (elsewhere : ∀ other, other ≠ key → slots other = self.slots other)
    (settled : ∀ digest, slots key ≠ some (.pending digest)) :
    Attended (⟨slots, Function.update self.owners party none⟩ : Ledger κ δ ρ ι) := by
  intro other digest pending
  by_cases same : other = key
  · subst same
    exact absurd pending (settled digest)
  · simp only at pending
    rw [elsewhere other same] at pending
    obtain ⟨holder, here⟩ := attended other digest pending
    refine ⟨holder, ?_⟩
    have differs : holder ≠ party := by
      rintro rfl
      exact same (Option.some.inj (here.symm.trans owned))
    simp only
    rw [Function.update_of_ne differs, here]

end Left

variable [DecidableEq κ] [DecidableEq δ] [DecidableEq ι] (digestOf : ρ → δ)

def move (self : Ledger κ δ ρ ι) : Move κ δ ρ ι → Ledger κ δ ρ ι
  | .claim party key digest =>
      match self.owners party, claim digestOf self.slots key digest with
      | none, (.owner, slots) => ⟨slots, Function.update self.owners party (some key)⟩
      | _, _ => self
  | .complete party record =>
      match self.owners party with
      | some key => ⟨complete self.slots key record, Function.update self.owners party none⟩
      | none => self
  | .release party =>
      match self.owners party with
      | some key => ⟨release self.slots key, Function.update self.owners party none⟩
      | none => self
  | .abandon party => { self with owners := Function.update self.owners party none }

variable {digestOf} {self : Ledger κ δ ρ ι} {party : ι} {key : κ} {digest : δ} {record : ρ}

theorem move_claim (idle : self.owners party = none) (free : self.slots key = none) :
    self.move digestOf (.claim party key digest) =
      ⟨Function.update self.slots key (some (.pending digest)), Function.update self.owners party (some key)⟩ := by
  simp only [move, idle, claim_free free]

theorem move_claim_busy {other : κ} (busy : self.owners party = some other) :
    self.move digestOf (.claim party key digest) = self := by
  simp only [move, busy]

theorem move_claim_taken {slot : Slot δ ρ} (taken : self.slots key = some slot) :
    self.move digestOf (.claim party key digest) = self := by
  have unclaimed := (claim_taken digestOf digest taken).2
  simp only [move]
  split
  case h_1 slots claimed => exact absurd (congrArg Prod.fst claimed) unclaimed
  case h_2 => rfl

/-- A claim moves the ledger only if the party has no key and the key is free. -/
theorem move_claim_cases (digestOf : ρ → δ) (party : ι) (key : κ) (digest : δ) :
    self.move digestOf (.claim party key digest) = self ∨ (self.owners party = none ∧ self.slots key = none) := by
  cases idle : self.owners party with
  | some other => exact .inl (move_claim_busy idle)
  | none =>
      cases free : self.slots key with
      | some slot => exact .inl (move_claim_taken free)
      | none => exact .inr ⟨rfl, rfl⟩

theorem move_complete (owned : self.owners party = some key) : self.move digestOf (.complete party record) =
    ⟨complete self.slots key record, Function.update self.owners party none⟩ := by
  simp only [move, owned]

theorem move_release (owned : self.owners party = some key) : self.move digestOf (.release party) =
    ⟨release self.slots key, Function.update self.owners party none⟩ := by
  simp only [move, owned]

section Steps

omit [DecidableEq δ] in
theorem Sound.claimed (sound : self.Sound) (free : self.slots key = none) :
    Sound (⟨Function.update self.slots key (some (.pending digest)), Function.update self.owners party (some key)⟩ :
      Ledger κ δ ρ ι) := by
  -- A free key has no owner yet.
  have unowned : ∀ other, self.owners other ≠ some key := by
    intro other owned
    obtain ⟨digest, pending⟩ := sound.held owned
    rw [free] at pending
    cases pending
  constructor
  · intro first second shared here there
    rcases owner_claimed here with ⟨first', same⟩ | ⟨_, here⟩
    · rcases owner_claimed there with ⟨second', _⟩ | ⟨_, there⟩
      · rw [first', second']
      · exact absurd (same ▸ there) (unowned second)
    · rcases owner_claimed there with ⟨_, same⟩ | ⟨_, there⟩
      · exact absurd (same ▸ here) (unowned first)
      · exact sound.exclusive here there
  · intro other held here
    simp only
    rcases owner_claimed here with ⟨_, rfl⟩ | ⟨_, here⟩
    · exact ⟨digest, Function.update_self ..⟩
    · have apart : held ≠ key := fun same => unowned other (same ▸ here)
      rw [Function.update_of_ne apart]
      exact sound.held here

theorem Sound.move (sound : self.Sound) (move : Move κ δ ρ ι) : (self.move digestOf move).Sound := by
  cases move with
  | claim party key digest =>
      rcases move_claim_cases digestOf party key digest with same | ⟨idle, free⟩
      · rw [same]
        exact sound
      · rw [move_claim idle free]
        exact sound.claimed free
  | complete party record =>
      cases owned : self.owners party with
      | none => simpa only [Ledger.move, owned] using sound
      | some key =>
          rw [move_complete owned]
          exact sound.left owned (complete_elsewhere record)
  | release party =>
      cases owned : self.owners party with
      | none => simpa only [Ledger.move, owned] using sound
      | some key =>
          rw [move_release owned]
          exact sound.left owned release_elsewhere
  | abandon party =>
      cases owned : self.owners party with
      | none =>
          have same : Function.update self.owners party none = self.owners := owned ▸ Function.update_eq_self ..
          simpa only [Ledger.move, same] using sound
      | some key => exact sound.left owned fun _ _ => rfl

/-- What is done stays done. -/
theorem Sound.move_done (sound : self.Sound) (move : Move κ δ ρ ι) (done : self.slots key = some (.done record)) :
    (self.move digestOf move).slots key = some (.done record) := by
  -- The key of an owner is pending, so it is another key.
  have other : ∀ {party held}, self.owners party = some held → key ≠ held := by
    rintro party held owned rfl
    obtain ⟨digest, pending⟩ := sound.held owned
    rw [done] at pending
    cases pending
  cases move with
  | claim party held digest =>
      rcases move_claim_cases digestOf party held digest with same | ⟨idle, free⟩
      · rw [same, done]
      · have apart : key ≠ held := by
          rintro rfl
          rw [done] at free
          cases free
        rw [move_claim idle free]
        simp only
        rw [Function.update_of_ne apart, done]
  | complete party record =>
      cases owned : self.owners party with
      | none => simpa only [Ledger.move, owned] using done
      | some held =>
          rw [move_complete owned]
          simp only
          rw [complete_elsewhere record key (other owned), done]
  | release party =>
      cases owned : self.owners party with
      | none => simpa only [Ledger.move, owned] using done
      | some held =>
          rw [move_release owned]
          simp only
          rw [release_elsewhere key (other owned), done]
  | abandon party => exact done

/-- Nobody is lost: every pending key keeps an owner. -/
theorem Attended.move (attended : self.Attended) (sound : self.Sound) (move : Move κ δ ρ ι)
    (present : ∀ party, move ≠ .abandon party) : (self.move digestOf move).Attended := by
  cases move with
  | claim party key digest =>
      rcases move_claim_cases digestOf party key digest with same | ⟨idle, free⟩
      · rw [same]
        exact attended
      · rw [move_claim idle free]
        intro other digest' pending
        simp only at pending ⊢
        by_cases same : other = key
        · exact ⟨party, by rw [Function.update_self, same]⟩
        · rw [Function.update_of_ne same] at pending
          obtain ⟨holder, here⟩ := attended other digest' pending
          have apart : holder ≠ party := by
            rintro rfl
            rw [idle] at here
            cases here
          exact ⟨holder, by rw [Function.update_of_ne apart, here]⟩
  | complete party record =>
      cases owned : self.owners party with
      | none => simpa only [Ledger.move, owned] using attended
      | some key =>
          rw [move_complete owned]
          refine attended.left owned (complete_elsewhere record) fun digest pending => ?_
          rw [complete, Function.update_self] at pending
          cases pending
  | release party =>
      cases owned : self.owners party with
      | none => simpa only [Ledger.move, owned] using attended
      | some key =>
          obtain ⟨digest, pending⟩ := sound.held owned
          rw [move_release owned]
          refine attended.left owned release_elsewhere fun digest' held => ?_
          rw [release_pending pending, Function.update_self] at held
          cases held
  | abandon party => exact absurd rfl (present party)

/-- The key of a lost owner is pending for nobody. -/
theorem Sound.abandoned (sound : self.Sound) (digestOf : ρ → δ) (owned : self.owners party = some key) :
    ∃ digest, (self.move digestOf (.abandon party)).Orphaned key digest := by
  obtain ⟨digest, pending⟩ := sound.held owned
  refine ⟨digest, pending, fun other held => ?_⟩
  obtain ⟨differs, here⟩ := owner_left held
  exact differs (sound.exclusive here owned)

/-- And stays so for ever. -/
theorem Orphaned.move (orphaned : self.Orphaned key digest) (move : Move κ δ ρ ι) :
    (self.move digestOf move).Orphaned key digest := by
  obtain ⟨pending, unowned⟩ := orphaned
  have left : ∀ {party other}, Function.update self.owners party none other ≠ some key := fun held =>
    unowned _ (owner_left held).2
  have apart : ∀ {party held}, self.owners party = some held → key ≠ held := fun owned same =>
    unowned _ (same ▸ owned)
  cases move with
  | claim party held digest' =>
      rcases move_claim_cases digestOf party held digest' with same | ⟨idle, free⟩
      · rw [same]
        exact ⟨pending, unowned⟩
      · have apart : key ≠ held := by
          rintro rfl
          rw [pending] at free
          cases free
        rw [move_claim idle free]
        refine ⟨by simp only [Function.update_of_ne apart, pending], fun other owned => ?_⟩
        rcases owner_claimed owned with ⟨_, same⟩ | ⟨_, here⟩
        · exact apart same
        · exact unowned other here
  | complete party record =>
      cases owned : self.owners party with
      | none => simpa only [Ledger.move, owned] using Orphaned.mk pending unowned
      | some held =>
          rw [move_complete owned]
          exact ⟨(complete_elsewhere record key (apart owned)).trans pending, fun _ => left⟩
  | release party =>
      cases owned : self.owners party with
      | none => simpa only [Ledger.move, owned] using Orphaned.mk pending unowned
      | some held =>
          rw [move_release owned]
          exact ⟨(release_elsewhere key (apart owned)).trans pending, fun _ => left⟩
  | abandon party => exact ⟨pending, fun _ => left⟩

end Steps

section Play

/-- The ledger after a list of moves. -/
def play (digestOf : ρ → δ) (self : Ledger κ δ ρ ι) (moves : List (Move κ δ ρ ι)) : Ledger κ δ ρ ι :=
  run (Ledger.move digestOf) self moves

variable {moves : List (Move κ δ ρ ι)}

theorem Sound.play (sound : self.Sound) : (self.play digestOf moves).Sound :=
  invariant sound (fun _ move kept => kept.move move) moves

theorem Sound.play_done (sound : self.Sound) (digestOf : ρ → δ) (moves : List (Move κ δ ρ ι)) (done : self.slots key = some (.done record)) :
    (self.play digestOf moves).slots key = some (.done record) := by
  induction moves generalizing self with
  | nil => exact done
  | cons move moves ih => exact ih (sound.move move) (sound.move_done move done)

theorem Attended.play (attended : self.Attended) (sound : self.Sound)
    (present : ∀ party, .abandon party ∉ moves) : (self.play digestOf moves).Attended := by
  induction moves generalizing self with
  | nil => exact attended
  | cons move moves ih =>
      have first : ∀ party, move ≠ .abandon party := fun party same => present party (same ▸ List.mem_cons_self)
      exact ih (attended.move sound move first) (sound.move move) fun party later =>
        present party (List.mem_cons_of_mem move later)

theorem Orphaned.play (orphaned : self.Orphaned key digest) : (self.play digestOf moves).Orphaned key digest := by
  induction moves generalizing self with
  | nil => exact orphaned
  | cons move moves ih => exact ih (orphaned.move move)

end Play

end Ledger

end Reservations
