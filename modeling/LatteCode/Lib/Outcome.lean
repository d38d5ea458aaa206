import Mathlib
/- Fallible transactions: an error rolls the database back, so a commit is an `ok`. -/

namespace Outcome

variable {ε α β : Type}

/-- A guard of a transaction. -/
def ensure (condition : Prop) [Decidable condition] (error : ε) : Except ε Unit :=
  if condition then .ok () else .error error

/-- `Option::ok_or`. -/
def require (value : Option α) (error : ε) : Except ε α :=
  match value with
  | some a => .ok a
  | none => .error error

@[simp] theorem bind_ok {x : Except ε α} {f : α → Except ε β} {b : β} :
    (x >>= f) = .ok b ↔ ∃ a, x = .ok a ∧ f a = .ok b := by
  cases x with
  | error e =>
      constructor
      · intro impossible
        cases impossible
      · rintro ⟨a, impossible, _⟩
        cases impossible
  | ok a =>
      constructor
      · intro result
        exact ⟨a, rfl, result⟩
      · rintro ⟨a', same, result⟩
        cases same
        exact result

theorem bind_error {x : Except ε α} {f : α → Except ε β} {e : ε} :
    (x >>= f) = .error e ↔ x = .error e ∨ ∃ a, x = .ok a ∧ f a = .error e := by
  cases x with
  | error error =>
      constructor
      · intro result
        have same : error = e := Except.error.inj (result : (.error error : Except ε β) = .error e)
        exact .inl (same ▸ rfl)
      · rintro (same | ⟨_, impossible, _⟩)
        · cases same
          rfl
        · cases impossible
  | ok a =>
      constructor
      · intro result
        exact .inr ⟨a, rfl, result⟩
      · rintro (impossible | ⟨_, same, result⟩)
        · cases impossible
        · cases same
          exact result

theorem ensure_error {condition : Prop} [Decidable condition] {error e : ε} :
    ensure condition error = .error e ↔ ¬ condition ∧ error = e := by
  unfold ensure
  split <;> simp_all

theorem require_error {value : Option α} {error e : ε} :
    require value error = .error e ↔ value = none ∧ error = e := by
  cases value <;> simp [require]

theorem map_error {x : Except ε α} {f : α → β} {e : ε} : x.map f = .error e ↔ x = .error e := by
  cases x <;> simp [Except.map]

@[simp] theorem ensure_ok {condition : Prop} [Decidable condition] {error : ε} {u : Unit} :
    ensure condition error = .ok u ↔ condition := by
  unfold ensure
  split <;> simp_all

@[simp] theorem require_ok {value : Option α} {error : ε} {a : α} :
    require value error = .ok a ↔ value = some a := by
  cases value <;> simp [require]

@[simp] theorem pure_ok {a b : α} : (pure a : Except ε α) = .ok b ↔ a = b := by
  change (Except.ok a = Except.ok b) ↔ a = b
  exact Except.ok.injEq a b ▸ Iff.rfl

@[simp] theorem mapError_ok {ε' : Type} {x : Except ε α} {f : ε → ε'} {a : α} :
    x.mapError f = .ok a ↔ x = .ok a := by
  cases x <;> simp [Except.mapError]

@[simp] theorem map_ok {x : Except ε α} {f : α → β} {b : β} :
    x.map f = .ok b ↔ ∃ a, x = .ok a ∧ f a = b := by
  cases x <;> simp [Except.map]

/-! ## What a transaction may fail with -/

/-- Every error of the transaction is of this kind. -/
def Errs (kind : ε → Prop) (x : Except ε α) : Prop := ∀ e, x = .error e → kind e

section Errs

variable {kind : ε → Prop} {x : Except ε α}

@[simp] theorem errs_ok {a : α} : Errs kind (.ok a : Except ε α) := fun _ impossible => nomatch impossible

@[simp] theorem errs_error {e : ε} : Errs kind (.error e : Except ε α) ↔ kind e :=
  ⟨fun each => each e rfl, fun this _ same => Except.error.inj same ▸ this⟩

@[simp] theorem errs_bind {f : α → Except ε β} :
    Errs kind (x >>= f) ↔ Errs kind x ∧ ∀ a, x = .ok a → Errs kind (f a) := by
  simp only [Errs, bind_error]
  constructor
  · exact fun each => ⟨fun e failed => each e (.inl failed), fun a done e failed => each e (.inr ⟨a, done, failed⟩)⟩
  · rintro ⟨first, rest⟩ e (failed | ⟨a, done, failed⟩)
    · exact first e failed
    · exact rest a done e failed

@[simp] theorem errs_ensure {condition : Prop} [Decidable condition] {error : ε} :
    Errs kind (ensure condition error) ↔ (¬ condition → kind error) := by
  simp only [Errs, ensure_error]
  exact ⟨fun each fails => each error ⟨fails, rfl⟩, fun each e failed => failed.2 ▸ each failed.1⟩

@[simp] theorem errs_require {value : Option α} {error : ε} :
    Errs kind (require value error) ↔ (value = none → kind error) := by
  simp only [Errs, require_error]
  exact ⟨fun each missing => each error ⟨missing, rfl⟩, fun each e failed => failed.2 ▸ each failed.1⟩

@[simp] theorem errs_map {f : α → β} : Errs kind (x.map f) ↔ Errs kind x := by
  simp only [Errs, map_error]

@[simp] theorem errs_mapError {ε' : Type} {f : ε → ε'} {kind : ε' → Prop} :
    Errs kind (x.mapError f) ↔ Errs (fun e => kind (f e)) x := by
  cases x <;> simp [Except.mapError]

theorem Errs.foldlM {step : β → α → Except ε β} {items : List α} {start : β}
    (each : ∀ before item, Errs kind (step before item)) : Errs kind (items.foldlM step start) := by
  induction items generalizing start with
  | nil => exact errs_ok
  | cons item items ih =>
      rw [List.foldlM_cons, errs_bind]
      exact ⟨each start item, fun _ _ => ih⟩

end Errs

/-- A traversal succeeds where every visit does. -/
theorem forM_ok {visit : α → Except ε Unit} {u : Unit} : ∀ {items : List α},
    items.forM visit = .ok u ↔ ∀ item ∈ items, visit item = .ok ()
  | [] => by
      constructor
      · intro _ item member
        cases member
      · intro _
        rfl
  | item :: items => by
      show (visit item >>= fun _ => items.forM visit) = .ok u ↔ _
      rw [bind_ok, List.forall_mem_cons, ← forM_ok (u := u)]
      constructor
      · rintro ⟨_, first, rest⟩
        exact ⟨first, rest⟩
      · rintro ⟨first, rest⟩
        exact ⟨_, first, rest⟩

/-- What a mapping returns, it returned for some item. -/
theorem mapM_mem {f : α → Except ε β} {items : List α} {results : List β} (done : items.mapM f = .ok results) :
    ∀ result ∈ results, ∃ item ∈ items, f item = .ok result := by
  induction items generalizing results with
  | nil =>
      rw [List.mapM_nil, pure_ok] at done
      subst done
      exact List.forall_mem_nil _
  | cons item items ih =>
      simp only [List.mapM_cons, bind_ok, pure_ok] at done
      obtain ⟨first, head, rest, tail, rfl⟩ := done
      intro result member
      rcases List.mem_cons.mp member with rfl | member
      · exact ⟨item, List.mem_cons_self, head⟩
      · obtain ⟨other, held, same⟩ := ih tail result member
        exact ⟨other, List.mem_cons_of_mem _ held, same⟩

/-- What every step of a fold keeps, the fold keeps. -/
theorem foldlM_keeps {step : β → α → Except ε β} {P : β → Prop} : ∀ {items : List α} {start final : β},
    (∀ item ∈ items, ∀ before after, P before → step before item = .ok after → P after) →
    P start → items.foldlM step start = .ok final → P final
  | [], _, _, _, initial, done => by
      rw [List.foldlM_nil, pure_ok] at done
      exact done ▸ initial
  | item :: items, start, final, each, initial, done => by
      rw [List.foldlM_cons, bind_ok] at done
      obtain ⟨next, first, rest⟩ := done
      rw [List.forall_mem_cons] at each
      exact foldlM_keeps each.2 (each.1 start next initial first) rest

/-- A mapping that succeeds everywhere. -/
theorem mapM_map {f : α → Except ε β} {g : α → β} {items : List α} (each : ∀ item ∈ items, f item = .ok (g item)) :
    items.mapM f = .ok (items.map g) := by
  induction items with
  | nil => rfl
  | cons item items ih =>
      rw [List.forall_mem_cons] at each
      simp only [List.mapM_cons, bind_ok, pure_ok]
      exact ⟨g item, each.1, items.map g, ih each.2, rfl⟩

end Outcome
