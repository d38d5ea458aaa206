import Mathlib
/- Programs of atomic steps on a shared state, and their runs among the steps of others. -/

namespace Interleaving

/-- Each step writes the state at once, and goes on with what it saw before. -/
inductive Program (S α : Type) where
  | done (result : α)
  | step (write : S → S) (next : S → Program S α)

namespace Program

variable {S W α β ε : Type}

def bind : Program S α → (α → Program S β) → Program S β
  | done result, further => further result
  | step write next, further => step write fun s => (next s).bind further

instance : Monad (Program S) where
  pure := done
  bind := bind

/-- One step that answers from the state it finds. -/
def ask (answer : S → α) : Program S α := step id fun s => done (answer s)

/-- One step that writes the state and answers from the one it found. -/
def change (write : S → S) (answer : S → α) : Program S α := step write fun s => done (answer s)

/-! Programs that can fail -/

/-- No step at all. -/
def given (result : Except ε α) : ExceptT ε (Program S) α := .mk (pure result)

/-- One step that asks for something that may not be there. -/
def query (answer : S → Except ε α) : ExceptT ε (Program S) α := .mk (ask answer)

/-- One step that changes the state unless it fails. -/
def attempt (change_ : S → Except ε (α × S)) : ExceptT ε (Program S) α :=
  .mk (change (fun s => ((change_ s).map Prod.snd).toOption.getD s) fun s => (change_ s).map Prod.fst)

/-- A program whose failure is an answer. -/
def settled {ε' : Type} (p : ExceptT ε (Program S) α) : ExceptT ε' (Program S) (Except ε α) :=
  .mk (p.run >>= fun result => pure (.ok result))

section Runs

variable (act : W → S → S)

/-- The steps of others that fall into one gap. -/
def meanwhile (foreign : List W) (s : S) : S := foreign.foldl (fun s w => act w s) s

/-- A run from its `place`-th step on, when before each step others do what `gaps` says: the result, the next place,
the state. -/
def run (gaps : Nat → List W) : Program S α → Nat → S → α × Nat × S
  | done result, place, s => (result, place, s)
  | step write next, place, s =>
      run gaps (next (meanwhile act (gaps place) s)) (place + 1) (write (meanwhile act (gaps place) s))

/-- The steps of a run that are its own: the state before, and the state after. -/
def steps (gaps : Nat → List W) : Program S α → Nat → S → List (S × S)
  | done _, _, _ => []
  | step write next, place, s =>
      (meanwhile act (gaps place) s, write (meanwhile act (gaps place) s)) ::
        steps gaps (next (meanwhile act (gaps place) s)) (place + 1) (write (meanwhile act (gaps place) s))

variable {act} {gaps : Nat → List W} {place next : Nat} {s s' : S} {p : Program S α} {f : α → Program S β}

@[simp] theorem run_pure {result : α} : run act gaps (pure result : Program S α) place s = (result, place, s) := rfl

theorem run_bind : run act gaps (p >>= f) place s =
    run act gaps (f (run act gaps p place s).1) (run act gaps p place s).2.1 (run act gaps p place s).2.2 := by
  change run act gaps (p.bind f) place s = _
  induction p generalizing place s with
  | done result => rfl
  | step write next ih => exact ih _

@[simp] theorem run_ask {answer : S → α} : run act gaps (ask answer) place s =
    (answer (meanwhile act (gaps place) s), place + 1, meanwhile act (gaps place) s) := rfl

@[simp] theorem run_change {write : S → S} {answer : S → α} : run act gaps (change write answer) place s =
    (answer (meanwhile act (gaps place) s), place + 1, write (meanwhile act (gaps place) s)) := rfl

theorem steps_bind : steps act gaps (p >>= f) place s = steps act gaps p place s ++
    steps act gaps (f (run act gaps p place s).1) (run act gaps p place s).2.1 (run act gaps p place s).2.2 := by
  change steps act gaps (p.bind f) place s = _
  induction p generalizing place s with
  | done result => rfl
  | step write next ih => exact congrArg (_ :: ·) (ih _)

end Runs

section Gaps

variable {act : W → S → S} {gaps : Nat → List W} {s : S}

theorem meanwhile_meanwhile {first second : List W} :
    meanwhile act second (meanwhile act first s) = meanwhile act (first ++ second) s := by
  rw [meanwhile, meanwhile, meanwhile, List.foldl_append]

/-- What others do from one place on, in so many gaps. -/
def between (gaps : Nat → List W) (place count : Nat) : List W := (List.range' place count).flatMap gaps

theorem between_append {place first second : Nat} :
    between gaps place first ++ between gaps (place + first) second = between gaps place (first + second) := by
  rw [between, between, between, ← List.flatMap_append, ← List.range'_append_1]

@[simp] theorem between_one {place : Nat} : between gaps place 1 = gaps place := by
  rw [between, List.range'_one, List.flatMap_singleton]

theorem meanwhile_between {place count : Nat} : meanwhile act (gaps (place + count))
    (meanwhile act (between gaps place count) s) = meanwhile act (between gaps place (count + 1)) s := by
  rw [meanwhile_meanwhile, ← between_append, between_one]

end Gaps

section Failing

variable {act : W → S → S} {gaps : Nat → List W} {place next : Nat} {s s' : S}

/-- A program that can fail runs on after a success only. -/
theorem run_bind_ok {p : ExceptT ε (Program S) α} {f : α → ExceptT ε (Program S) β} {b : β} :
    run act gaps (p >>= f).run place s = (.ok b, next, s') ↔ ∃ a middle t,
      run act gaps p.run place s = (.ok a, middle, t) ∧ run act gaps (f a).run middle t = (.ok b, next, s') := by
  have split : (p >>= f).run = p.run >>= ExceptT.bindCont f := rfl
  rw [split, run_bind]
  cases first : run act gaps p.run place s with
  | mk result rest =>
      cases result with
      | ok a =>
          constructor
          · exact fun later => ⟨a, rest.1, rest.2, rfl, later⟩
          · rintro ⟨_, _, _, same, later⟩
            cases same
            exact later
      | error error =>
          constructor
          · exact fun impossible => nomatch (congrArg Prod.fst impossible)
          · rintro ⟨_, _, _, same, _⟩
            cases same

theorem run_given_ok {result : Except ε α} {a : α} :
    run act gaps (given result : ExceptT ε (Program S) α).run place s = (.ok a, next, s') ↔
      result = .ok a ∧ next = place ∧ s' = s := by
  change ((result, place, s) : Except ε α × Nat × S) = (.ok a, next, s') ↔ _
  constructor
  · intro same
    cases same
    exact ⟨rfl, rfl, rfl⟩
  · rintro ⟨rfl, rfl, rfl⟩
    rfl

theorem run_query_ok {answer : S → Except ε α} {a : α} :
    run act gaps (query answer).run place s = (.ok a, next, s') ↔
      answer (meanwhile act (gaps place) s) = .ok a ∧ next = place + 1 ∧ s' = meanwhile act (gaps place) s := by
  change ((_, _, _) : Except ε α × Nat × S) = (.ok a, next, s') ↔ _
  constructor
  · intro same
    injection same with result rest
    injection rest with count state
    exact ⟨result, count.symm, state.symm⟩
  · rintro ⟨result, rfl, rfl⟩
    rw [result]
    rfl

theorem run_attempt_ok {change_ : S → Except ε (α × S)} {a : α} :
    run act gaps (attempt change_).run place s = (.ok a, next, s') ↔
      change_ (meanwhile act (gaps place) s) = .ok (a, s') ∧ next = place + 1 := by
  change ((_, _, _) : Except ε α × Nat × S) = (.ok a, next, s') ↔ _
  generalize meanwhile act (gaps place) s = found
  constructor
  · intro same
    injection same with result rest
    injection rest with count state
    dsimp only at result state
    cases made : change_ found with
    | error error =>
        rw [made] at result
        cases result
    | ok both =>
        rw [made] at result state
        obtain ⟨b, t⟩ := both
        cases result
        cases state
        exact ⟨rfl, count.symm⟩
  · rintro ⟨made, rfl⟩
    dsimp only
    rw [made]
    rfl

end Failing

section Histories

/-- What holds of every step of its own and of its result, given its steps before, whatever state each step finds. -/
def Ensures (guarantee : List (S × S) → S → S → Prop) (post : List (S × S) → α → Prop) :
    Program S α → List (S × S) → Prop
  | done result, past => post past result
  | step write next, past => ∀ s, guarantee past s (write s) ∧
      Ensures guarantee post (next s) (past ++ [(s, write s)])

variable {act : W → S → S} {gaps : Nat → List W} {guarantee : List (S × S) → S → S → Prop}

theorem Ensures.mono {p : Program S α} {post post' : List (S × S) → α → Prop} {past : List (S × S)}
    (weaker : ∀ past a, post past a → post' past a) (ensured : p.Ensures guarantee post past) :
    p.Ensures guarantee post' past := by
  induction p generalizing past with
  | done result => exact weaker past result ensured
  | step write next ih => exact fun s => ⟨(ensured s).1, ih s (ensured s).2⟩

theorem Ensures.bind {p : Program S α} {f : α → Program S β} {post : List (S × S) → β → Prop} {past : List (S × S)}
    (ensured : p.Ensures guarantee (fun past a => (f a).Ensures guarantee post past) past) :
    (p >>= f).Ensures guarantee post past := by
  change (p.bind f).Ensures guarantee post past
  induction p generalizing past with
  | done result => exact ensured
  | step write next ih => exact fun s => ⟨(ensured s).1, ih s (ensured s).2⟩

/-- In every run, whatever others do, each step keeps the guarantee. -/
theorem Ensures.steps {p : Program S α} {post : List (S × S) → α → Prop} {past before after : List (S × S)} {made : S × S}
    {place : Nat} {s : S} (ensured : p.Ensures guarantee post past)
    (split : steps act gaps p place s = before ++ made :: after) : guarantee (past ++ before) made.1 made.2 := by
  induction p generalizing past before place s with
  | done result => cases before <;> cases split
  | step write next ih =>
      have here := ensured (meanwhile act (gaps place) s)
      cases before with
      | nil =>
          cases split
          rw [List.append_nil]
          exact here.1
      | cons first before =>
          obtain ⟨rfl, later⟩ := List.cons.inj split
          rw [List.append_cons]
          exact ih _ here.2 later

theorem Ensures.result {p : Program S α} {post : List (S × S) → α → Prop} {past : List (S × S)} {place : Nat} {s : S}
    (ensured : p.Ensures guarantee post past) :
    post (past ++ Program.steps act gaps p place s) (run act gaps p place s).1 := by
  induction p generalizing past place s with
  | done result =>
      rw [Program.steps, List.append_nil]
      exact ensured
  | step write next ih =>
      rw [Program.steps, List.append_cons]
      exact ih _ (ensured _).2

/-- A run ends in what its last step has left. -/
theorem run_last {p : Program S α} {place : Nat} {s : S} :
    (run act gaps p place s).2.2 = ((Program.steps act gaps p place s).getLast?.map Prod.snd).getD s := by
  induction p generalizing place s with
  | done result => rfl
  | step write next ih =>
      rw [run, Program.steps, ih, List.getLast?_cons]
      cases (Program.steps act gaps (next (meanwhile act (gaps place) s)) (place + 1)
        (write (meanwhile act (gaps place) s))).getLast? <;> rfl

/-- After a success it goes on, after a failure it does not. -/
theorem Ensures.bind_fallible {p : ExceptT ε (Program S) α} {f : α → ExceptT ε (Program S) β}
    {post : List (S × S) → Except ε β → Prop} {past : List (S × S)}
    (ensured : p.run.Ensures guarantee (fun past result => match result with
      | .ok a => (f a).run.Ensures guarantee post past
      | .error error => post past (.error error)) past) : (p >>= f).run.Ensures guarantee post past := by
  have split : (p >>= f).run = p.run >>= ExceptT.bindCont f := rfl
  rw [split]
  refine Ensures.bind (ensured.mono ?_)
  intro past result later
  cases result with
  | ok a => exact later
  | error error => exact later

theorem ensures_given {result : Except ε α} {post : List (S × S) → Except ε α → Prop} {past : List (S × S)}
    (holds : post past result) : (given result : ExceptT ε (Program S) α).run.Ensures guarantee post past := holds

theorem ensures_query {answer : S → Except ε α} {post : List (S × S) → Except ε α → Prop} {past : List (S × S)}
    (quiet : ∀ s, guarantee past s s) (holds : ∀ s, post (past ++ [(s, s)]) (answer s)) :
    (query answer).run.Ensures guarantee post past := fun s => ⟨quiet s, holds s⟩

theorem ensures_attempt {change_ : S → Except ε (α × S)} {post : List (S × S) → Except ε α → Prop}
    {past : List (S × S)}
    (changes : ∀ s a s', change_ s = .ok (a, s') → guarantee past s s' ∧ post (past ++ [(s, s')]) (.ok a))
    (fails : ∀ s error, change_ s = .error error → guarantee past s s ∧ post (past ++ [(s, s)]) (.error error)) :
    (attempt change_).run.Ensures guarantee post past := by
  intro s
  dsimp only
  cases made : change_ s with
  | ok both => exact changes s both.1 both.2 made
  | error error => exact fails s error made

theorem ensures_settled {ε' : Type} {p : ExceptT ε (Program S) α} {post : List (S × S) → Except ε' (Except ε α) → Prop}
    {past : List (S × S)} (ensured : p.run.Ensures guarantee (fun past result => post past (.ok result)) past) :
    (settled p : ExceptT ε' (Program S) (Except ε α)).run.Ensures guarantee post past := Ensures.bind ensured

end Histories

section Alone

/-- The run among no steps of others. -/
def alone : Program S α → S → α × S
  | done result, s => (result, s)
  | step write next, s => alone (next s) (write s)

variable {s : S}

theorem run_undisturbed {act : W → S → S} {place : Nat} {p : Program S α} :
    ((run act (fun _ => []) p place s).1, (run act (fun _ => []) p place s).2.2) = alone p s := by
  induction p generalizing place s with
  | done result => rfl
  | step write next ih => exact ih s

theorem alone_bind {p : Program S α} {f : α → Program S β} :
    alone (p >>= f) s = alone (f (alone p s).1) (alone p s).2 := by
  change alone (p.bind f) s = _
  induction p generalizing s with
  | done result => rfl
  | step write next ih => exact ih s

theorem alone_bind_fallible {p : ExceptT ε (Program S) α} {f : α → ExceptT ε (Program S) β} :
    alone (p >>= f).run s = match alone p.run s with
      | (.ok a, t) => alone (f a).run t
      | (.error error, t) => (.error error, t) := by
  have split : (p >>= f).run = p.run >>= ExceptT.bindCont f := rfl
  rw [split, alone_bind]
  cases alone p.run s with
  | mk result t => cases result <;> rfl

/-- Undisturbed, a program of questions has the answers of one state. -/
def Asks (p : ExceptT ε (Program S) α) (answer : S → Except ε α) : Prop := ∀ s, alone p.run s = (answer s, s)

theorem asks_given {result : Except ε α} : Asks (given result : ExceptT ε (Program S) α) fun _ => result := fun _ => rfl

theorem asks_query {answer : S → Except ε α} : Asks (query answer) answer := fun _ => rfl

theorem Asks.bind {p : ExceptT ε (Program S) α} {f : α → ExceptT ε (Program S) β} {answer : S → Except ε α}
    {further : α → S → Except ε β} (asks : Asks p answer) (later : ∀ a, Asks (f a) (further a)) :
    Asks (p >>= f) fun s => answer s >>= fun a => further a s := by
  intro s
  rw [alone_bind_fallible, asks s]
  dsimp only
  cases answer s with
  | error => rfl
  | ok a => exact later a s

theorem Asks.congr {p : ExceptT ε (Program S) α} {answer other : S → Except ε α} (asks : Asks p answer)
    (same : ∀ s, answer s = other s) : Asks p other := fun s => (asks s).trans (congrArg (·, s) (same s))

theorem alone_attempt {change_ : S → Except ε (α × S)} : alone (attempt change_).run s =
    ((change_ s).map Prod.fst, ((change_ s).map Prod.snd).toOption.getD s) := rfl

end Alone

end Program

end Interleaving
