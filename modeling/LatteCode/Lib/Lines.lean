import Mathlib
/- Lines of a sequence that ends each of them with a delimiter, and readers that see the sequence in pieces. -/

namespace Lines

section Join

variable {α : Type} (d : α)

/-- Every line ended by a delimiter. -/
def joinLines (lines : List (List α)) : List α := lines.flatMap (· ++ [d])

variable {d}

theorem joinLines_append (lines more : List (List α)) :
    joinLines d (lines ++ more) = joinLines d lines ++ joinLines d more := List.flatMap_append

theorem joinLines_cons (line : List α) (lines : List (List α)) :
    joinLines d (line :: lines) = line ++ d :: joinLines d lines := by
  rw [joinLines, List.flatMap_cons, List.append_assoc]
  rfl

theorem length_joinLines (lines : List (List α)) :
    (joinLines d lines).length = (lines.map fun line => line.length + 1).sum := by
  simp only [joinLines, List.length_flatMap, List.length_append, List.length_singleton]

end Join

section Split

variable {α : Type} [DecidableEq α] (d : α)

/-- The complete lines without their delimiters, and what follows the last delimiter. -/
def splitLines : List α → List (List α) × List α
  | [] => ([], [])
  | c :: rest =>
      if c = d then ([] :: (splitLines rest).1, (splitLines rest).2)
      else
        match splitLines rest with
        | ([], tail) => ([], c :: tail)
        | (line :: lines, tail) => ((c :: line) :: lines, tail)

variable {d}

theorem splitLines_free {text : List α} (free : d ∉ text) : splitLines d text = ([], text) := by
  induction text with
  | nil => rfl
  | cons c rest ih =>
      rw [List.mem_cons, not_or] at free
      rw [splitLines, if_neg fun same => free.1 same.symm, ih free.2]

theorem splitLines_line {line : List α} (free : d ∉ line) (rest : List α) :
    splitLines d (line ++ d :: rest) = (line :: (splitLines d rest).1, (splitLines d rest).2) := by
  induction line with
  | nil => rw [List.nil_append, splitLines, if_pos rfl]
  | cons c line ih =>
      rw [List.mem_cons, not_or] at free
      rw [List.cons_append, splitLines, if_neg fun same => free.1 same.symm, ih free.2]

/-- What was joined from lines splits into them again. -/
theorem splitLines_joinLines {lines : List (List α)} (free : ∀ line ∈ lines, d ∉ line) (rest : List α) :
    splitLines d (joinLines d lines ++ rest) = (lines ++ (splitLines d rest).1, (splitLines d rest).2) := by
  induction lines with
  | nil => rfl
  | cons line lines ih =>
      rw [joinLines_cons, List.append_assoc, List.cons_append,
        splitLines_line (free line List.mem_cons_self), ih fun other member => free other (List.mem_cons_of_mem _ member)]
      rfl

/-- A text is its lines and its tail, and none of them holds a delimiter. -/
theorem splitLines_spec (text : List α) : joinLines d (splitLines d text).1 ++ (splitLines d text).2 = text ∧
    (∀ line ∈ (splitLines d text).1, d ∉ line) ∧ d ∉ (splitLines d text).2 := by
  induction text with
  | nil => exact ⟨rfl, List.forall_mem_nil _, List.not_mem_nil⟩
  | cons c rest ih =>
      obtain ⟨whole, lines, tail⟩ := ih
      rw [splitLines]
      by_cases same : c = d
      · rw [if_pos same]
        refine ⟨?_, ?_, tail⟩
        · rw [joinLines_cons, List.nil_append, List.cons_append, whole, same]
        · intro line member
          rcases List.mem_cons.mp member with rfl | member
          · exact List.not_mem_nil
          · exact lines line member
      · rw [if_neg same]
        cases split : splitLines d rest with
        | mk found left =>
            rw [split] at whole lines tail
            cases found with
            | nil =>
                refine ⟨congrArg (c :: ·) whole, List.forall_mem_nil _, ?_⟩
                rw [List.mem_cons, not_or]
                exact ⟨fun here => same here.symm, tail⟩
            | cons line found =>
                refine ⟨congrArg (c :: ·) whole, ?_, tail⟩
                intro other member
                rcases List.mem_cons.mp member with rfl | member
                · rw [List.mem_cons, not_or]
                  exact ⟨fun here => same here.symm, lines line List.mem_cons_self⟩
                · exact lines other (List.mem_cons_of_mem _ member)

/-- More text only goes on from the tail. -/
theorem splitLines_append (text more : List α) : splitLines d (text ++ more) =
    ((splitLines d text).1 ++ (splitLines d ((splitLines d text).2 ++ more)).1,
      (splitLines d ((splitLines d text).2 ++ more)).2) := by
  obtain ⟨whole, lines, _⟩ := splitLines_spec (d := d) text
  have joined := splitLines_joinLines lines ((splitLines d text).2 ++ more)
  rw [← List.append_assoc, whole] at joined
  exact joined

/-- The lines and the tail after them, as one list. -/
def pieces (d : α) (text : List α) : List (List α) := (splitLines d text).1 ++ [(splitLines d text).2]

theorem pieces_free {text : List α} (free : d ∉ text) : pieces d text = [text] := by
  rw [pieces, splitLines_free free]
  rfl

theorem pieces_line {line : List α} (free : d ∉ line) (rest : List α) :
    pieces d (line ++ d :: rest) = line :: pieces d rest := by
  rw [pieces, splitLines_line free]
  rfl

/-- The first piece goes on to the first delimiter. -/
theorem pieces_append {first : List α} (free : d ∉ first) (rest : List α) :
    ∃ more others, pieces d (first ++ rest) = (first ++ more) :: others := by
  obtain ⟨whole, lines, _⟩ := splitLines_spec (d := d) rest
  cases found : (splitLines d rest).1 with
  | nil =>
      rw [found] at whole
      have free' : d ∉ first ++ rest := by
        rw [← whole, List.mem_append, not_or]
        exact ⟨free, (splitLines_spec rest).2.2⟩
      exact ⟨rest, [], pieces_free free'⟩
  | cons line others =>
      rw [found, joinLines_cons, List.append_assoc, List.cons_append] at whole
      have free' : d ∉ first ++ line := by
        rw [List.mem_append, not_or]
        exact ⟨free, lines line (found ▸ List.mem_cons_self)⟩
      refine ⟨line, pieces d (joinLines d others ++ (splitLines d rest).2), ?_⟩
      rw [← pieces_line free', List.append_assoc, whole]

end Split

section Until

variable {ε σ β : Type} (step : σ → β → Except ε σ) (stop : σ → Bool)

/-- A fold that can fail, and that leaves the rest alone once it has what it wants. -/
def foldUntil : σ → List β → Except ε σ
  | s, [] => .ok s
  | s, b :: rest => if stop s then .ok s else step s b >>= fun s => foldUntil s rest

variable {step stop}

theorem foldUntil_stopped {s : σ} (stopped : stop s = true) (items : List β) :
    foldUntil step stop s items = .ok s := by
  cases items with
  | nil => rfl
  | cons b rest => rw [foldUntil, if_pos stopped]

theorem foldUntil_append (s : σ) (items more : List β) : foldUntil step stop s (items ++ more) =
    foldUntil step stop s items >>= fun s => foldUntil step stop s more := by
  induction items generalizing s with
  | nil => rfl
  | cons b items ih =>
      rw [List.cons_append, foldUntil, foldUntil]
      by_cases stopped : stop s = true
      · rw [if_pos stopped, if_pos stopped]
        exact (foldUntil_stopped stopped more).symm
      · rw [if_neg stopped, if_neg stopped]
        cases step s b with
        | error e => rfl
        | ok next => exact ih next

end Until

section Chunks

variable {α ε σ : Type} [DecidableEq α] (d : α) (step : σ → List α → Except ε σ) (stop : σ → Bool)

/-- The lines that a chunk completes are read; what it leaves open waits for the next chunk. -/
def feed (held : List α × σ) (chunk : List α) : Except ε (List α × σ) :=
  let split := splitLines d (held.1 ++ chunk)
  (foldUntil step stop held.2 split.1).map (split.2, ·)

variable {d step stop}

/-- A reader of chunks reads the lines of the whole. -/
theorem foldUntil_feed {buffer : List α} (free : d ∉ buffer) (s : σ) (chunks : List (List α)) :
    (foldUntil (feed d step stop) (stop ·.2) (buffer, s) chunks).map Prod.snd =
      foldUntil step stop s (splitLines d (buffer ++ chunks.flatten)).1 := by
  induction chunks generalizing buffer s with
  | nil =>
      rw [List.flatten_nil, List.append_nil, splitLines_free free]
      rfl
  | cons chunk chunks ih =>
      rw [List.flatten_cons, ← List.append_assoc, splitLines_append, foldUntil_append, foldUntil]
      by_cases stopped : stop s = true
      · rw [if_pos stopped, foldUntil_stopped stopped]
        exact (foldUntil_stopped stopped _).symm
      · rw [if_neg stopped]
        cases read : foldUntil step stop s (splitLines d (buffer ++ chunk)).1 with
        | error e =>
            rw [feed, read]
            rfl
        | ok next =>
            rw [feed, read]
            exact ih (splitLines_spec (buffer ++ chunk)).2.2 next

end Chunks

section First

variable {α β ε σ : Type} (read : σ → List α → Except ε (Option β × σ))

/-- Lines are read until one of them yields something; the others are left. -/
def readFirst : σ → List (List α) → Except ε (Option β × σ × List (List α))
  | s, [] => .ok (none, s, [])
  | s, line :: rest =>
      match read s line with
      | .error error => .error error
      | .ok (some item, s) => .ok (some item, s, rest)
      | .ok (none, s) => readFirst s rest

variable {read}

theorem readFirst_none_rest {s s' : σ} {lines rest : List (List α)} (nothing : readFirst read s lines = .ok (none, s', rest)) :
    rest = [] := by
  induction lines generalizing s with
  | nil =>
      cases nothing
      rfl
  | cons line lines ih =>
      rw [readFirst] at nothing
      split at nothing
      · cases nothing
      · cases nothing
      · exact ih nothing

theorem readFirst_append (s : σ) (lines more : List (List α)) : readFirst read s (lines ++ more) =
    match readFirst read s lines with
    | .error error => .error error
    | .ok (some item, s, rest) => .ok (some item, s, rest ++ more)
    | .ok (none, s, _) => readFirst read s more := by
  induction lines generalizing s with
  | nil => rfl
  | cons line lines ih =>
      rw [List.cons_append, readFirst, readFirst]
      split
      · rfl
      · rfl
      · exact ih _

/-- What is left of a text is a part of its lines. -/
theorem readFirst_rest {s s' : σ} {lines rest : List (List α)} {item : β}
    (found : readFirst read s lines = .ok (some item, s', rest)) : rest <:+ lines := by
  induction lines generalizing s with
  | nil => cases found
  | cons line lines ih =>
      rw [readFirst] at found
      split at found
      · cases found
      · cases found
        exact List.suffix_cons _ _
      · exact (ih found).trans (List.suffix_cons _ _)

end First

end Lines
