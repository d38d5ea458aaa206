import LatteCode.Core.Matches
/- Redaction of text that is redacted already. -/

namespace LatteCode
open Regex

section Passes

variable {W : WordClass} {p : Pattern Part} {marker : List (Part × List Char) → List Char} {word text : List Char}

/-- An assignment that stays: its name, its separator and the marker, with nothing glued to it. -/
structure Marked (lead value : List Char) : Prop where
  name : ∃ name sign, lead = name ++ [sign] ∧ (∀ c ∈ name, nameChar c = true) ∧ (sign = ':' ∨ sign = '=')
  value : ∃ tail, value = redactedMark ++ tail ∧ ∀ c ∈ tail.head?, tailChar c = false

/-- Every assignment of the text is marked. -/
def Stable (W : WordClass) (text : List Char) : Prop := ∀ pre lead c more, text = pre ++ (lead ++ c :: more) →
  AssignmentLead W pre.getLast? lead → valueChar c = true → Marked lead (c :: more)

/-- A pass that puts one text in the place of its matches, and neither begins in a marker nor hides a boundary. -/
structure Spares (W : WordClass) (p : Pattern Part) (marker : List (Part × List Char) → List Char) (word : List Char) :
    Prop where
  shape : ∀ captures, marker captures = word ++ redactedMark
  plain : ∀ c ∈ word, c ≠ ':' ∧ c ≠ '='
  opens : ∀ c ∈ word.head?, isWhitespace c = false
  starts : ∀ {before rest d}, d ∈ run p ⟨before, rest, []⟩ → ∃ s more, rest = s :: more ∧ bearerChar s = true ∧
    valueChar s = true ∧ s ∉ redactedMark
  closes : ∀ {passed taken d}, Matched p passed taken d → ∀ x more, d.rest = x :: more → foldedLetter x = true →
    W.word x = true → (passed ++ taken).getLast?.any W.word = false

theorem Spares.ends (spares : Spares W p marker word) (captures : List (Part × List Char)) :
    (marker captures).getLast? = some ']' := by
  rw [spares.shape, List.getLast?_append, redactedMark_last, Option.some_or]

theorem Spares.front (spares : Spares W p marker word) {all : List (List Char × List Char)} {passed rest : List Char}
    {x : Char} {seen : Option Char} (fronted : Fronted p ']' all passed (x :: rest) seen) (letter : foldedLetter x = true)
    (apart : seen.any W.word ≠ W.word x) : passed.getLast?.any W.word ≠ W.word x := by
  rcases fronted with rfl | ⟨rfl, early, taken, d, rfl, _, matched, behind⟩
  · exact apart
  · have closing : W.word ']' = false := (W.ascii ']' (by decide)).trans (by decide)
    rw [Option.any_some, closing] at apart
    have shown : W.word x = true := Bool.eq_true_of_not_eq_false (Ne.symm apart)
    rw [spares.closes matched x rest behind letter shown, shown]
    exact Bool.false_ne_true

/-- In front of a bracket that no separator precedes there is no assignment. -/
theorem AssignmentLead.not_within {before : Option Char} {lead part after : List Char} {c : Char} {more : List Char}
    (led : AssignmentLead W before lead) (unsigned : ∀ c ∈ part, c ≠ ':' ∧ c ≠ '=')
    (split : lead ++ c :: more = part ++ ']' :: after) : False := by
  have held : ∃ sign ∈ lead, sign = ':' ∨ sign = '=' := by
    obtain ⟨name, spaces, sign, gap, rfl, _, _, isSign, _⟩ := led.parts
    exact ⟨sign, by simp, isSign⟩
  have clear : ∀ tail, lead ++ tail = part → False := by
    rintro tail rfl
    obtain ⟨sign, inside, isSign⟩ := held
    exact not_or.mpr (unsigned sign (List.mem_append_left _ inside)) isSign
  rcases List.append_eq_append_iff.mp split with ⟨extra, isPart, _⟩ | ⟨extra, rfl, tail⟩
  · exact clear extra isPart.symm
  · cases extra with
    | nil => exact clear [] (by rw [List.append_nil, List.append_nil])
    | cons y extra =>
        obtain ⟨rfl, _⟩ := List.cons.inj tail
        exact led.unbracketed.2 (List.mem_append_right _ List.mem_cons_self)

theorem mark_unsigned : ∀ c ∈ redactedMark, c ≠ ':' ∧ c ≠ '=' := each_of_all (by decide)

/-- No assignment begins inside a replacement. -/
theorem Spares.outside (spares : Spares W p marker word) {before : Option Char} {captures : List (Part × List Char)}
    {front back lead out more : List Char} {c : Char} (part : marker captures = front ++ back) (some_ : back ≠ [])
    (led : AssignmentLead W before lead) (split : lead ++ c :: more = back ++ out) : False := by
  rcases List.eq_nil_or_concat back with rfl | ⟨inner, z, rfl⟩
  · exact some_ rfl
  · rw [List.concat_eq_append] at part split
    have last := spares.ends captures
    rw [part, ← List.append_assoc, List.getLast?_concat] at last
    obtain rfl := Option.some.inj last
    have split : lead ++ c :: more = inner ++ ']' :: out := by
      rw [split, List.append_assoc]
      rfl
    refine led.not_within (fun c held => ?_) split
    have inside : c ∈ word ++ redactedMark := by
      rw [← spares.shape captures, part]
      exact List.mem_append_right _ (List.mem_append_left _ held)
    rcases List.mem_append.mp inside with early | late
    · exact spares.plain c early
    · exact mark_unsigned c late

/-- Every assignment in the result was there before, up to its value. -/
theorem Spares.assignment (spares : Spares W p marker word) {pre lead more : List Char} {c : Char}
    (result : replaceAll p marker text = pre ++ (lead ++ c :: more)) (led : AssignmentLead W pre.getLast? lead)
    (value : valueChar c = true) : ∃ passed v tail, text = passed ++ (lead ++ v :: tail) ∧
      AssignmentLead W passed.getLast? lead ∧ valueChar v = true ∧
      c :: more = replaceFrom p marker 0 (passed ++ lead).getLast? (v :: tail) := by
  have kinds := led.chars
  obtain ⟨⟨x, lead', rfl, letter⟩, kinds⟩ := kinds
  have located := place spares.ends result (List.cons_ne_nil _ _)
  generalize listed : replacedFrom p 0 [] text = all at located
  cases located with
  | inside passed taken d front back split matched found onward part some_ shape =>
      exact (spares.outside part some_ led shape).elim
  | kept passed y rest split fronted quiet onward shape =>
      obtain ⟨rfl, ahead⟩ := List.cons.inj shape
      have behind : passed ++ [x] ++ lead' = passed ++ x :: lead' := List.append_assoc passed [x] lead'
      have apart : AssignmentLead W passed.getLast? (x :: lead') := ⟨led.parts, spares.front fronted letter led.apart⟩
      rcases replaceFrom_split ahead.symm with ⟨other, rfl, left, _⟩ | ⟨early, late, taken, d, rfl, some_, rfl, _, _, left⟩
      · rw [behind] at left
        have step := turn p marker (passed ++ x :: lead') other
        rw [← left] at step
        generalize listed' : replacedFrom p 0 (passed ++ x :: lead') other = list at step
        generalize written : c :: more = output at step
        cases step with
        | stop => cases written
        | keep v tail quiet' =>
            obtain ⟨rfl, _⟩ := List.cons.inj written
            exact ⟨passed, c, tail, split, apart, value, written.symm.trans left⟩
        | swap taken d matched =>
            obtain ⟨s, tail, starts, _, isValue, _⟩ := spares.starts matched.outcome
            rw [starts] at left split
            exact ⟨passed, s, tail, split, apart, isValue, written.symm.trans left⟩
      · -- a replacement inside the lead would put text other than white space behind the separator
        rw [spares.shape, List.append_assoc] at left
        have unbracketed := led.unbracketed.1
        obtain ⟨rest, whole⟩ : ∃ rest, word = late ++ rest := by
          rcases List.append_eq_append_iff.mp left with ⟨extra, isLate, after⟩ | ⟨extra, isWord, _⟩
          · cases extra with
            | nil => exact ⟨[], by rw [List.append_nil] at isLate ⊢; exact isLate.symm⟩
            | cons y extra =>
                have opening : redactedMark = '[' :: redactedMark.tail := by decide
                rw [opening] at after
                obtain ⟨rfl, _⟩ := List.cons.inj after
                refine absurd ?_ unbracketed
                rw [isLate]
                simp
          · exact ⟨extra, isWord⟩
        obtain ⟨y, late, rfl⟩ := List.exists_cons_of_ne_nil some_
        have unsigned : ∀ c ∈ y :: late, c ≠ ':' ∧ c ≠ '=' := fun c held =>
          spares.plain c (by rw [whole]; exact List.mem_append_left _ held)
        have led : AssignmentLead W pre.getLast? ((x :: early) ++ (y :: late)) := led
        have white := led.signed unsigned y List.mem_cons_self
        have dense := spares.opens y (by rw [whole]; rfl)
        exact absurd (dense.symm.trans white) Bool.false_ne_true

/-- What follows a marker and is no part of a value stays in front. -/
theorem Spares.tail (spares : Spares W p marker word) {passed tail : List Char}
    (apart : ∀ c ∈ tail.head?, tailChar c = false) :
    ∀ c ∈ (replaceFrom p marker 0 passed.getLast? tail).head?, tailChar c = false := by
  intro c held
  have step := turn p marker passed tail
  generalize replaceFrom p marker 0 passed.getLast? tail = result at step held
  generalize replacedFrom p 0 passed tail = list at step
  cases step with
  | stop => cases held
  | keep x rest quiet =>
      cases held
      exact apart c rfl
  | swap taken d matched =>
      obtain ⟨s, rest, starts, _, isValue, _⟩ := spares.starts matched.outcome
      rw [starts] at apart
      exact absurd ((apart s rfl).symm.trans (tailChar_of_value isValue)) Bool.false_ne_true

/-- A marker stays. -/
theorem Spares.mark (spares : Spares W p marker word) {passed tail : List Char} :
    replaceFrom p marker 0 passed.getLast? (redactedMark ++ tail) =
      redactedMark ++ replaceFrom p marker 0 (passed ++ redactedMark).getLast? tail := by
  rw [replaceFrom_passed, List.getLast?_append]
  intro early later split some_ d found
  obtain ⟨s, rest, starts, _, _, outside⟩ := spares.starts found
  obtain ⟨y, later, rfl⟩ := List.exists_cons_of_ne_nil some_
  obtain ⟨rfl, _⟩ := List.cons.inj starts
  exact absurd (by rw [split]; exact List.mem_append_right _ List.mem_cons_self) outside

/-- A pass that spares names and markers keeps a text stable. -/
theorem Stable.pass (stable : Stable W text) (spares : Spares W p marker word) :
    Stable W (replaceAll p marker text) := by
  intro pre lead c more result led value
  obtain ⟨passed, v, tail, split, led', isValue, left⟩ := spares.assignment result led value
  obtain ⟨name, after, marked, apart⟩ := stable passed lead v tail split led' isValue
  refine ⟨name, ?_⟩
  rw [left, marked, spares.mark]
  exact ⟨_, rfl, spares.tail apart⟩

theorem bearerMark_split : "Bearer [REDACTED]".toList = "Bearer ".toList ++ redactedMark := by decide

theorem bearer_inhabited {taken : List Char} (reads : Reads (bearerToken W) taken) : taken ≠ [] := by
  rintro rfl
  obtain ⟨_, _, _, _, empty, _⟩ := bearerToken_parts reads
  cases empty

/-- A bearer token ends with a quote of its own or in front of what ends tokens. -/
theorem bearer_last {c d : Cursor Part} (found : (run (bearerToken W) c).head? = some d) : ∃ front z,
    c.rest = front ++ [z] ++ d.rest ∧ ((z = '"' ∨ z = '\'') ∨ ∀ x ∈ d.rest.head?, bearerChar x = false) := by
  obtain ⟨start, bounded, found⟩ := first_seq found
  obtain ⟨_, here⟩ := mem_run_boundary.mp bounded
  rw [here] at found
  obtain ⟨spelt, wordRun, found⟩ := first_seq found
  obtain ⟨word, _, wordSplit, _⟩ := run_ends _ _ spelt wordRun
  obtain ⟨_, spaceRun, found⟩ := first_seq found
  obtain ⟨space, _, spaceSplit, _, rfl⟩ := mem_run_one.mp spaceRun
  obtain ⟨spaced, spacesRun, found⟩ := first_seq found
  obtain ⟨spaces, _, spacesSplit, _⟩ := run_ends _ _ spaced spacesRun
  dsimp only [Cursor.past] at spacesSplit
  have inQuotes : ∀ quote, (run (quoted quote) spaced).head? = some d → ∃ front,
      c.rest = front ++ [quote] ++ d.rest := by
    intro quote first
    obtain ⟨value, reads, split, _⟩ := run_ends _ _ d (List.mem_of_head? first)
    obtain ⟨inside, rfl⟩ := reads_quoted reads
    refine ⟨word ++ space :: (spaces ++ inside), ?_⟩
    rw [wordSplit, spaceSplit, spacesSplit, split]
    simp only [List.append_assoc, List.cons_append]
  rcases first_alt found with double | found
  · obtain ⟨front, split⟩ := inQuotes _ double
    exact ⟨front, '"', split, .inl (.inl rfl)⟩
  rcases first_alt found with single | plain
  · obtain ⟨front, split⟩ := inQuotes _ single
    exact ⟨front, '\'', split, .inl (.inr rfl)⟩
  obtain ⟨_, firstRun, found⟩ := first_seq plain
  obtain ⟨x, _, split, _, rfl⟩ := mem_run_one.mp firstRun
  obtain ⟨taken, more, _, stops⟩ := first_class found
  dsimp only [Cursor.past] at more
  have whole : c.rest = (word ++ space :: spaces ++ x :: taken) ++ d.rest := by
    rw [wordSplit, spaceSplit, spacesSplit, split, more]
    simp only [List.append_assoc, List.cons_append]
  rcases List.eq_nil_or_concat (word ++ space :: spaces ++ x :: taken) with empty | ⟨front, z, last⟩
  · exact absurd (List.append_eq_nil_iff.mp empty).2 (List.cons_ne_nil _ _)
  · refine ⟨front, z, ?_, .inr fun y held => stops y held⟩
    rw [whole, last, List.concat_eq_append]

theorem bearerChar_foldedLetter {c : Char} (letter : foldedLetter c = true) : bearerChar c = true := by
  rw [bearerChar, letter]
  rfl

theorem bearer_spares : Spares W (bearerToken W) bearerMarker "Bearer ".toList where
  shape := fun _ => bearerMark_split
  plain := each_of_all (by decide)
  opens := by
    have head : "Bearer ".toList.head? = some 'B' := by decide
    intro c held
    rw [head] at held
    obtain rfl := Option.some.inj held
    decide
  starts := by
    intro before rest d found
    obtain ⟨lead, c, more, rfl, led, _⟩ := run_bearer.mp ⟨d, found⟩
    obtain ⟨x, tail, rfl, isB, _⟩ := led.chars
    refine ⟨x, tail ++ c :: more, rfl, ?_⟩
    rcases isB with rfl | rfl <;> decide
  closes := by
    intro passed taken d matched x more behind letter shown
    have first := find_first (c := ⟨passed.getLast?, taken ++ d.rest, []⟩) (progress fun _ => bearer_inhabited)
      matched.first
    obtain ⟨front, z, split, ends⟩ := bearer_last first
    obtain rfl := List.append_cancel_right split
    rw [← List.append_assoc, List.getLast?_concat, Option.any_some]
    rcases ends with (rfl | rfl) | stops
    · exact (W.ascii _ (by decide)).trans (by decide)
    · exact (W.ascii _ (by decide)).trans (by decide)
    · rw [behind] at stops
      exact absurd ((stops x rfl).symm.trans (bearerChar_foldedLetter letter)) Bool.false_ne_true

theorem key_spares : Spares W (openaiKey W) keyMarker [] where
  shape := fun _ => rfl
  plain := each_of_all (by decide)
  opens := fun _ held => nomatch held
  starts := by
    intro before rest d found
    obtain ⟨body, ahead, _⟩ := run_openaiKey.mp ⟨d, found, rfl⟩
    exact ⟨'s', _, ahead, by decide, by decide, by decide⟩
  closes := by
    intro passed taken d matched x more behind letter shown
    obtain ⟨body, ahead, _, long, _, stopped⟩ := run_openaiKey.mp ⟨d, matched.outcome, rfl⟩
    have ahead : taken ++ d.rest = ('s' :: 'k' :: '-' :: body) ++ d.rest := ahead
    obtain rfl := List.append_cancel_right ahead
    obtain ⟨final, isFinal⟩ : ∃ final, body.getLast? = some final :=
      Option.isSome_iff_exists.mp (List.getLast?_isSome.mpr (List.ne_nil_of_length_pos (by omega)))
    have last : (passed ++ 's' :: 'k' :: '-' :: body).getLast? = body.getLast? := by
      have whole : passed ++ 's' :: 'k' :: '-' :: body = (passed ++ ['s', 'k', '-']) ++ body := by
        rw [List.append_assoc]
        rfl
      rw [whole, List.getLast?_append, isFinal, Option.some_or]
    rw [behind, List.head?_cons, Option.any_some, shown] at stopped
    rw [last]
    exact Bool.eq_false_of_not_eq_true stopped

/-- No token begins inside a replacement. -/
theorem BearerLead.outside {before : Option Char} {captures : List (Part × List Char)} {front back lead out more : List Char}
    {c : Char} (spares : Spares W p marker word) (opening : word = [] ∨ word = "Bearer ".toList)
    (part : marker captures = front ++ back) (some_ : back ≠ []) (led : BearerLead W before lead)
    (start : TokenStart c more) (split : lead ++ c :: more = back ++ out) : False := by
  obtain ⟨x, rest, rfl, isB, long, clear⟩ := led.chars
  obtain ⟨y, back, rfl⟩ := List.exists_cons_of_ne_nil some_
  obtain ⟨rfl, tail⟩ := List.cons.inj split
  rw [spares.shape] at part
  have isWord : word = "Bearer ".toList := by
    refine opening.resolve_left ?_
    rintro rfl
    have held : x ∈ redactedMark := by
      rw [List.nil_append] at part
      rw [part]
      exact List.mem_append_right _ List.mem_cons_self
    revert held
    rcases isB with rfl | rfl <;> decide
  rw [isWord, ← bearerMark_split] at part
  have whole : "Bearer [REDACTED]".toList = 'B' :: ("earer ".toList ++ '[' :: "REDACTED]".toList) := by decide
  rw [whole] at part
  have begins : front = [] := by
    cases front with
    | nil => rfl
    | cons z front =>
        exfalso
        obtain ⟨_, part⟩ := List.cons.inj part
        have held : x ∈ "earer ".toList ++ '[' :: "REDACTED]".toList := by
          rw [part]
          exact List.mem_append_right _ List.mem_cons_self
        revert held
        rcases isB with rfl | rfl <;> decide
  rw [begins, List.nil_append] at part
  obtain ⟨_, rfl⟩ := List.cons.inj part
  have count : "earer ".toList.length = 6 := by decide
  have tail : rest ++ c :: more = "earer ".toList ++ '[' :: ("REDACTED]".toList ++ out) := by
    rw [← List.cons_append, ← List.append_assoc]
    exact tail
  rcases List.append_eq_append_iff.mp tail with ⟨extra, six, after⟩ | ⟨extra, rfl, after⟩
  · have lengths := congrArg List.length six
    rw [count, List.length_append] at lengths
    obtain rfl : extra = [] := List.length_eq_zero_iff.mp (by omega)
    obtain ⟨rfl, _⟩ := List.cons.inj after
    rcases start with token | ⟨isQuote, _⟩
    · exact absurd token (by decide)
    · revert isQuote
      decide
  · cases extra with
    | nil =>
        obtain ⟨rfl, _⟩ := List.cons.inj after
        rcases start with token | ⟨isQuote, _⟩
        · exact absurd token (by decide)
        · revert isQuote
          decide
    | cons z extra =>
        obtain ⟨rfl, _⟩ := List.cons.inj after
        exact (clear '[' (List.mem_append_right _ List.mem_cons_self)).2 rfl

/-- Every bearer token in the result was there before, at a place where the pass replaces nothing. -/
theorem Spares.bearer (spares : Spares W p marker word) (opening : word = [] ∨ word = "Bearer ".toList)
    {pre post : List Char} (result : replaceAll p marker text = pre ++ post)
    (found : ∃ d, d ∈ run (bearerToken W) ⟨pre.getLast?, post, []⟩) : ∃ passed x rest, text = passed ++ x :: rest ∧
      (∃ d, d ∈ run (bearerToken W) ⟨passed.getLast?, x :: rest, []⟩) ∧
      ∀ d ∈ run p ⟨passed.getLast?, x :: rest, []⟩, ¬ d.rest.length < (x :: rest).length := by
  obtain ⟨lead, c, more, rfl, led, start⟩ := run_bearer.mp found
  have chars := led.chars
  obtain ⟨x, lead', rfl, isB, _, clear⟩ := chars
  have located := place spares.ends result (List.cons_ne_nil _ _)
  generalize listed : replacedFrom p 0 [] text = all at located
  cases located with
  | inside passed taken d front back split matched found onward part some_ shape =>
      exact (led.outside spares opening part some_ start shape).elim
  | kept passed y rest split fronted quiet onward shape =>
      obtain ⟨rfl, ahead⟩ := List.cons.inj shape
      have letter : foldedLetter x = true := by
        rcases isB with rfl | rfl <;> decide
      have apart : BearerLead W passed.getLast? (x :: lead') := ⟨led.parts, spares.front fronted letter led.apart⟩
      refine ⟨passed, x, rest, split, ?_, quiet⟩
      rcases replaceFrom_split ahead.symm with ⟨other, rfl, left, _⟩ | ⟨early, late, taken, d, rfl, some_, rfl, _, _, left⟩
      · have step := turn p marker (passed ++ [x] ++ lead') other
        rw [← left] at step
        generalize listed' : replacedFrom p 0 (passed ++ [x] ++ lead') other = list at step
        generalize written : c :: more = output at step
        cases step with
        | stop => cases written
        | keep v tail quiet' =>
            obtain ⟨rfl, isMore⟩ := List.cons.inj written
            refine run_bearer.mpr ⟨x :: lead', c, tail, rfl, apart, start.imp_right fun both => ⟨both.1, ?_⟩⟩
            rcases mem_replaceFrom (isMore ▸ both.2) with inside | ⟨captures, inside⟩
            · exact inside
            · have quoteless : ∀ c ∈ marker captures, ¬ (c = '"' ∨ c = '\'') := by
                rw [spares.shape]
                rcases opening with rfl | rfl <;> exact each_of_all (by decide)
              exact absurd both.1 (quoteless c inside)
        | swap taken d matched =>
            obtain ⟨s, tail, starts, token, _⟩ := spares.starts matched.outcome
            rw [starts]
            exact run_bearer.mpr ⟨x :: lead', s, tail, rfl, apart, .inl token⟩
      · -- a replacement would put a bracket or a second capital into the lead
        obtain ⟨y, late, rfl⟩ := List.exists_cons_of_ne_nil some_
        have inside := clear y (List.mem_append_right _ List.mem_cons_self)
        have head := congrArg List.head? left
        rw [spares.shape] at head
        rcases opening with rfl | rfl
        · exact absurd (Option.some.inj head).symm inside.2
        · exact absurd (Option.some.inj head).symm inside.1

/-- Bearer tokens are replaced once and for all. -/
theorem replaced_tokenless (text : List Char) : ¬ Found (bearerToken W) (replaceAll (bearerToken W) bearerMarker text) := by
  rintro ⟨pre, post, result, d, found, _⟩
  rw [Option.or_none] at found
  obtain ⟨passed, x, rest, _, ⟨e, again⟩, quiet⟩ := bearer_spares.bearer (.inr rfl) result ⟨d, found⟩
  exact quiet e again (progress (fun _ => bearer_inhabited) e again)

/-- And none comes up where keys are replaced. -/
theorem replaceKeys_tokenless (absent : ¬ Found (bearerToken W) text) :
    ¬ Found (bearerToken W) (replaceAll (openaiKey W) keyMarker text) := by
  rintro ⟨pre, post, result, d, found, _⟩
  rw [Option.or_none] at found
  obtain ⟨passed, x, rest, rfl, ⟨e, again⟩, _⟩ := key_spares.bearer (.inl rfl) result ⟨d, found⟩
  refine absent ⟨passed, x :: rest, rfl, e, ?_, progress (fun _ => bearer_inhabited) e again⟩
  rwa [Option.or_none]

/-- Keys are replaced once and for all. -/
theorem replaced_keyless (text : List Char) : ¬ Found (openaiKey W) (replaceAll (openaiKey W) keyMarker text) := by
  have letter : W.word 's' = true := (W.ascii 's' (by decide)).trans (by decide)
  have opening : redactedMark = '[' :: redactedMark.tail := by decide
  rintro ⟨pre, post, result, d, found, _⟩
  rw [Option.or_none] at found
  obtain ⟨body, ahead, bounded, long, keys, stopped⟩ := run_openaiKey.mp ⟨d, found, rfl⟩
  dsimp only at ahead bounded
  subst ahead
  have ends : ∀ captures, (keyMarker captures).getLast? = some ']' := fun _ => redactedMark_last
  have located := place ends result (List.cons_ne_nil _ _)
  generalize listed : replacedFrom (openaiKey W) 0 [] text = all at located
  cases located with
  | inside passed taken e front back split matched found onward part some_ shape =>
      obtain ⟨y, back, rfl⟩ := List.exists_cons_of_ne_nil some_
      obtain ⟨rfl, _⟩ := List.cons.inj shape
      have held : 's' ∈ redactedMark := by
        have part : redactedMark = front ++ 's' :: back := part
        rw [part]
        exact List.mem_append_right _ List.mem_cons_self
      revert held
      decide
  | kept passed y rest split fronted quiet onward shape =>
      obtain ⟨rfl, tail⟩ := List.cons.inj shape
      have apart := key_spares.front fronted (by decide) (by rw [bounded, letter]; exact Bool.false_ne_true)
      have opened : passed.getLast?.any W.word = false := Bool.eq_false_of_not_eq_true fun same => apart (same.trans letter.symm)
      have unbracketed : '[' ∉ 'k' :: '-' :: body := by
        simp only [List.mem_cons, Char.reduceEq, false_or]
        exact fun held => absurd (keys _ held) (by decide)
      have split' : ('k' :: '-' :: body) ++ d.rest = 'k' :: '-' :: (body ++ d.rest) := rfl
      rcases replaceFrom_split (tail.symm.trans split'.symm) with
        ⟨other, rfl, left, _⟩ | ⟨early, late, taken, e, whole, some_, rfl, _, _, left⟩
      · -- the character behind the body decides the same boundary in both texts
        have last : (passed ++ ['s'] ++ 'k' :: '-' :: body).getLast? = body.getLast? := by
          obtain ⟨final, isFinal⟩ : ∃ final, body.getLast? = some final :=
            Option.isSome_iff_exists.mp (List.getLast?_isSome.mpr (List.ne_nil_of_length_pos (by omega)))
          have whole : passed ++ ['s'] ++ 'k' :: '-' :: body = (passed ++ ['s', 'k', '-']) ++ body := by
            rw [List.append_assoc, List.append_assoc]
            rfl
          rw [whole, List.getLast?_append, isFinal, Option.some_or]
        have same : body.getLast?.any W.word ≠ other.head?.any W.word := by
          have step := turn (openaiKey W) keyMarker (passed ++ ['s'] ++ 'k' :: '-' :: body) other
          rw [← left] at step
          generalize replacedFrom (openaiKey W) 0 (passed ++ ['s'] ++ 'k' :: '-' :: body) other = list at step
          generalize d.rest = output at step stopped
          cases step with
          | stop => exact stopped
          | keep v tail _ => exact stopped
          | swap taken e matched =>
              obtain ⟨_, _, inner, _⟩ := run_openaiKey.mp ⟨e, matched.outcome, rfl⟩
              have bracket : W.word '[' = false := (W.ascii '[' (by decide)).trans (by decide)
              have inner : (passed ++ ['s'] ++ 'k' :: '-' :: body).getLast?.any W.word = false := inner
              rw [last] at inner
              rw [inner, keyMarker, opening, List.cons_append, List.head?_cons, Option.any_some, bracket] at stopped
              exact absurd rfl stopped
        obtain ⟨e, again, behind⟩ := (@run_openaiKey W ⟨passed.getLast?, _, []⟩ other).mpr ⟨body, rfl, opened, long, keys, same⟩
        refine quiet e again ?_
        rw [behind]
        simp only [List.length_cons, List.length_append]
        omega
      · obtain ⟨y, late, rfl⟩ := List.exists_cons_of_ne_nil some_
        have head := congrArg List.head? left
        rw [keyMarker, opening] at head
        obtain rfl := (Option.some.inj head).symm
        exact unbracketed (by rw [whole]; exact List.mem_append_right _ List.mem_cons_self)

end Passes

section Assignments

variable {W : WordClass} {text passed taken : List Char} {d : Cursor Part}

/-- No assignment that is replaced has text glued to it that a value could go on with. -/
def Loose (W : WordClass) (text : List Char) : Prop := ∀ member ∈ replacedFrom (namedAssignment W) 0 [] text,
  ∀ c ∈ (text.drop (member.1.length + member.2.length)).head?, tailChar c = false

theorem assignment_inhabited {taken : List Char} (reads : Reads (namedAssignment W) taken) : taken ≠ [] := by
  rintro rfl
  obtain ⟨_, _, _, _, _, _, _, _, empty, _⟩ := namedAssignment_parts reads
  exact absurd (congrArg List.length empty) (by simp)

/-- What a replaced assignment leaves of itself. -/
theorem matched_assigned (matched : Matched (namedAssignment W) passed taken d) : ∃ x more spaces sign value,
    taken = (x :: more) ++ (spaces ++ sign :: value) ∧
      assignmentReplacement d.captures = (x :: more) ++ sign :: redactedMark ∧ (∀ c ∈ x :: more, nameChar c = true) ∧
      (sign = ':' ∨ sign = '=') ∧ ∀ c ∈ spaces, isWhitespace c = true := by
  have first := find_first (c := ⟨passed.getLast?, taken ++ d.rest, []⟩) (progress fun _ => assignment_inhabited)
    matched.first
  obtain ⟨name, spaces, sign, value, split, captures, named, spaced, isSign, _⟩ := namedAssignment_first first
  obtain rfl := List.append_cancel_right split
  have replaced : assignmentReplacement d.captures = name ++ sign :: redactedMark := by
    rw [assignmentReplacement, captures]
    exact List.append_assoc name [sign] redactedMark
  obtain ⟨lead, c, more, shape, led, _⟩ := run_assignment.mp ⟨d, matched.outcome⟩
  obtain ⟨x, after, rfl, letter⟩ := led.chars.1
  cases name with
  | cons y name => exact ⟨y, name, spaces, sign, value, rfl, replaced, named, isSign, spaced⟩
  | nil =>
      exfalso
      have tail := tailChar_of_value (value_nameChar (nameChar_foldedLetter letter))
      cases spaces with
      | nil =>
          obtain ⟨rfl, _⟩ := List.cons.inj shape
          rcases isSign with rfl | rfl <;> exact absurd letter (by decide)
      | cons space spaces =>
          obtain ⟨rfl, _⟩ := List.cons.inj shape
          have white := spaced space List.mem_cons_self
          exact absurd ((dense_nameChar (nameChar_foldedLetter letter)).symm.trans white) Bool.false_ne_true

/-- Behind a replaced assignment nothing is glued to the marker either. -/
theorem Loose.tail (loose : Loose W text) (split : text = passed ++ (taken ++ d.rest))
    (found : (passed, taken) ∈ replacedFrom (namedAssignment W) 0 [] text) :
    ∀ c ∈ (replaceFrom (namedAssignment W) assignmentReplacement 0 (passed ++ taken).getLast? d.rest).head?,
      tailChar c = false := by
  have apart : ∀ c ∈ d.rest.head?, tailChar c = false := by
    have behind := loose _ found
    dsimp only at behind
    rwa [← List.length_append, split, ← List.append_assoc, List.drop_left] at behind
  intro c held
  have step := turn (namedAssignment W) assignmentReplacement (passed ++ taken) d.rest
  generalize replaceFrom (namedAssignment W) assignmentReplacement 0 (passed ++ taken).getLast? d.rest = result at step held
  generalize replacedFrom (namedAssignment W) 0 (passed ++ taken) d.rest = list at step
  generalize d.rest = rest at step apart
  cases step with
  | stop => cases held
  | keep x rest quiet =>
      cases held
      exact apart c rfl
  | swap taken e matched =>
      obtain ⟨x, more, spaces, sign, value, rfl, replaced, named, _⟩ := matched_assigned matched
      have tail := tailChar_of_value (value_nameChar (named x List.mem_cons_self))
      exact absurd ((apart x rfl).symm.trans tail) Bool.false_ne_true

theorem assignment_ends (captures : List (Part × List Char)) : (assignmentReplacement captures).getLast? = some ']' := by
  rw [assignmentReplacement, List.getLast?_append, redactedMark_last, Option.some_or]

/-- Text with a separator and without a bracket, read where a name, a separator and a marker stand, ends in front of the
marker. -/
theorem lead_reaches {name part mark more : List Char} {sign c : Char}
    (split : part ++ c :: more = name ++ sign :: ('[' :: mark)) (named : ∀ c ∈ name, nameChar c = true)
    (signed : ∃ s ∈ part, s = ':' ∨ s = '=') (unbracketed : '[' ∉ part) :
    part = name ++ [sign] ∧ c :: more = '[' :: mark := by
  have split : part ++ c :: more = (name ++ [sign]) ++ '[' :: mark := by
    rw [split, List.append_assoc]
    rfl
  rcases List.append_eq_append_iff.mp split with ⟨extra, whole, after⟩ | ⟨extra, rfl, after⟩
  · rcases List.eq_nil_or_concat extra with rfl | ⟨extra, z, rfl⟩
    · rw [List.append_nil] at whole
      exact ⟨whole.symm, after⟩
    · exfalso
      rw [List.concat_eq_append, ← List.append_assoc] at whole
      obtain ⟨rfl, _⟩ := List.append_inj' whole rfl
      obtain ⟨s, held, isSign⟩ := signed
      have name := named s (List.mem_append_left _ held)
      rcases isSign with rfl | rfl <;> exact absurd name (by decide)
  · cases extra with
    | nil =>
        rw [List.append_nil]
        exact ⟨rfl, after.symm⟩
    | cons y extra =>
        obtain ⟨rfl, _⟩ := List.cons.inj after
        exact absurd (List.mem_append_right _ List.mem_cons_self) unbracketed

theorem AssignmentLead.hasSign {before : Option Char} {lead : List Char} (led : AssignmentLead W before lead) :
    ∃ sign ∈ lead, sign = ':' ∨ sign = '=' := by
  obtain ⟨name, spaces, sign, gap, rfl, _, _, isSign, _⟩ := led.parts
  exact ⟨sign, by simp, isSign⟩

/-- Every assignment in what the first pass leaves is marked, if the text was loose. -/
theorem Loose.stable (loose : Loose W text) : Stable W (unassigned W text) := by
  intro pre lead c more result led value
  have kinds := led.chars
  obtain ⟨⟨x, lead', rfl, letter⟩, kinds⟩ := kinds
  have opening : redactedMark = '[' :: redactedMark.tail := by decide
  have located := place assignment_ends result (List.cons_ne_nil _ _)
  generalize listed : replacedFrom (namedAssignment W) 0 [] text = all at located
  cases located with
  | inside passed taken d front back split matched found onward part some_ shape =>
      have apart := loose.tail split (listed ▸ found)
      generalize replaceFrom (namedAssignment W) assignmentReplacement 0 (passed ++ taken).getLast? d.rest = out
        at shape apart
      obtain ⟨y, tail, spaces, sign, inner, rfl, replaced, named, isSign, _⟩ := matched_assigned matched
      rw [replaced] at part
      have part : (y :: tail ++ [sign]) ++ redactedMark = front ++ back := by
        rw [← part, List.append_assoc]
        rfl
      have inMark : ∀ extra, redactedMark = extra ++ back → False := fun extra part =>
        @Spares.outside W _ _ _ key_spares _ [] extra back _ _ _ _ part some_ led shape
      rcases List.append_eq_append_iff.mp part with ⟨extra, _, isMark⟩ | ⟨extra, whole, rfl⟩
      · exact (inMark extra isMark).elim
      · rcases List.eq_nil_or_concat extra with rfl | ⟨extra, z, rfl⟩
        · exact (inMark [] rfl).elim
        · rw [List.concat_eq_append] at whole shape
          rw [← List.append_assoc] at whole
          obtain ⟨names, same⟩ := List.append_inj' whole rfl
          obtain rfl := List.singleton_inj.mp same
          rw [opening] at shape
          have named : ∀ c ∈ extra, nameChar c = true := fun c held =>
            named c (by rw [names]; exact List.mem_append_right _ held)
          have split : x :: lead' ++ c :: more = extra ++ sign :: '[' :: (redactedMark.tail ++ out) := by
            rw [shape]
            simp only [List.append_assoc, List.cons_append, List.nil_append]
          obtain ⟨isLead, isValue⟩ := lead_reaches split named led.hasSign led.unbracketed.1
          refine ⟨⟨extra, sign, isLead, named, isSign⟩, ⟨out, ?_, apart⟩⟩
          rw [isValue, opening]
          rfl
  | kept passed y rest split fronted quiet onward shape =>
      obtain ⟨rfl, ahead⟩ := List.cons.inj shape
      have apart : AssignmentLead W passed.getLast? (x :: lead') := by
        refine ⟨led.parts, ?_⟩
        rcases fronted with same | ⟨_, early, taken, d, rfl, found, matched, behind⟩
        · rw [← same]
          exact led.apart
        · have tail := loose (early, taken) (listed ▸ found) x (by
            rw [split, ← List.length_append, List.drop_left]
            rfl)
          have value := tailChar_of_value (value_nameChar (nameChar_foldedLetter letter))
          exact absurd (tail.symm.trans value) Bool.false_ne_true
      have behind : passed ++ [x] ++ lead' = passed ++ x :: lead' := List.append_assoc passed [x] lead'
      rcases replaceFrom_split ahead.symm with
        ⟨other, rfl, left, _⟩ | ⟨early, late, taken, d, rfl, some_, rfl, matched, found, left⟩
      · exfalso
        have again : ∃ v tail, other = v :: tail ∧ valueChar v = true := by
          have step := turn (namedAssignment W) assignmentReplacement (passed ++ [x] ++ lead') other
          rw [← left] at step
          generalize replacedFrom (namedAssignment W) 0 (passed ++ [x] ++ lead') other = list at step
          generalize written : c :: more = output at step
          cases step with
          | stop => cases written
          | keep v tail quiet' =>
              obtain ⟨rfl, _⟩ := List.cons.inj written
              exact ⟨c, tail, rfl, value⟩
          | swap taken d matched =>
              obtain ⟨z, tail, spaces, sign, inner, rfl, _, named, _⟩ := matched_assigned matched
              exact ⟨z, _, rfl, value_nameChar (named z List.mem_cons_self)⟩
        obtain ⟨v, tail, rfl, isValue⟩ := again
        obtain ⟨d, found⟩ := run_assignment.mpr ⟨x :: lead', v, tail, rfl, apart, isValue⟩
        exact quiet d found (progress (fun _ => assignment_inhabited) d found)
      · have whole : text = passed ++ [x] ++ early ++ (taken ++ d.rest) := by
          rw [split]
          simp only [List.append_assoc, List.cons_append, List.nil_append]
        have apartTail := loose.tail whole (by rw [listed]; exact onward (by rw [found]; exact List.mem_cons_self))
        generalize replaceFrom (namedAssignment W) assignmentReplacement 0 (passed ++ [x] ++ early ++ taken).getLast?
          d.rest = out at left apartTail
        obtain ⟨y, tail, spaces, sign, inner, rfl, replaced, named, isSign, _⟩ := matched_assigned matched
        rw [replaced, opening] at left
        have signed : ∃ s ∈ late, s = ':' ∨ s = '=' := by
          by_contra none_
          have unsigned : ∀ c ∈ late, c ≠ ':' ∧ c ≠ '=' := fun c held =>
            not_or.mp fun isSign => none_ ⟨c, held, isSign⟩
          obtain ⟨z, late, rfl⟩ := List.exists_cons_of_ne_nil some_
          obtain ⟨rfl, _⟩ := List.cons.inj left
          have led : AssignmentLead W pre.getLast? ((x :: early) ++ (y :: late)) := led
          have white := led.signed unsigned y List.mem_cons_self
          exact absurd ((dense_nameChar (named y List.mem_cons_self)).symm.trans white) Bool.false_ne_true
        have unbracketed : '[' ∉ late := fun held =>
          led.unbracketed.1 (List.mem_cons_of_mem _ (List.mem_append_right _ held))
        have written : late ++ c :: more = (y :: tail) ++ sign :: '[' :: (redactedMark.tail ++ out) := by
          rw [← left]
          simp only [List.append_assoc, List.cons_append]
        obtain ⟨rfl, isValue⟩ := lead_reaches written named signed unbracketed
        obtain ⟨init, last, isLast⟩ := (List.eq_nil_or_concat (y :: tail)).resolve_left (List.cons_ne_nil _ _)
        rw [List.concat_eq_append] at isLast
        have shape : x :: (early ++ (y :: tail ++ [sign])) = (x :: early ++ init) ++ [last] ++ [sign] := by
          rw [isLast]
          simp only [List.append_assoc, List.cons_append]
        have isName : nameChar last = true := named last (by rw [isLast]; exact List.mem_append_right _ (List.mem_singleton_self _))
        have names := (shape ▸ led : AssignmentLead W pre.getLast? ((x :: early ++ init) ++ [last] ++ [sign])).closed isName isSign
        refine ⟨⟨_, sign, shape, names, isSign⟩, ⟨out, ?_, apartTail⟩⟩
        rw [isValue, opening]
        rfl

/-- The first match of an assignment, up to where its value is read. -/
theorem assignment_first {before : Option Char} (found : (run (namedAssignment W) ⟨before, text, []⟩).head? = some d) :
    ∃ name spaces sign gap, ∃ valued : Cursor Part, text = name ++ (spaces ++ sign :: (gap ++ valued.rest)) ∧
      (∀ c ∈ name, nameChar c = true) ∧ (∀ c ∈ spaces, isWhitespace c = true) ∧ (sign = ':' ∨ sign = '=') ∧
      (∀ c ∈ gap, isWhitespace c = true) ∧ (run assignedValue valued).head? = some d := by
  obtain ⟨start, bounded, found⟩ := first_seq found
  obtain ⟨_, rfl⟩ := mem_run_boundary.mp bounded
  obtain ⟨_, named, found⟩ := first_seq found
  obtain ⟨inner, nameRun, rfl⟩ := List.mem_map.mp named
  obtain ⟨name, nameReads, nameSplit, _⟩ := run_ends _ _ inner nameRun
  obtain ⟨spaced, spaceRun, found⟩ := first_seq found
  obtain ⟨spaces, spaceReads, spaceSplit, _⟩ := run_ends _ _ spaced spaceRun
  obtain ⟨_, separated, found⟩ := first_seq found
  obtain ⟨_, signRun, rfl⟩ := List.mem_map.mp separated
  obtain ⟨sign, _, signSplit, isSign, rfl⟩ := mem_run_one.mp signRun
  obtain ⟨valued, gapRun, found⟩ := first_seq found
  obtain ⟨gap, gapReads, gapSplit, _⟩ := run_ends _ _ valued gapRun
  dsimp only [Cursor.past] at nameSplit spaceSplit gapSplit
  refine ⟨name, spaces, sign, gap, valued, ?_, nameReads.only assignmentName_only, reads_many_one.mp spaceReads,
    by simpa using isSign, reads_many_one.mp gapReads, found⟩
  rw [nameSplit, spaceSplit, signSplit, gapSplit]

/-- A value that is a marker is read as that and no more. -/
theorem assignedValue_marked {c : Cursor Part} {tail : List Char} (split : c.rest = redactedMark ++ tail)
    (apart : ∀ x ∈ tail.head?, tailChar x = false) (found : (run assignedValue c).head? = some d) : d.rest = tail := by
  have opening : redactedMark = '[' :: ("REDACTED".toList ++ [']']) := by decide
  have unquoted : ∀ quote, quote ≠ '[' → ¬ (run (quoted quote) c).head? = some d := by
    intro quote other first
    obtain ⟨value, reads, split', _⟩ := run_ends _ _ d (List.mem_of_head? first)
    obtain ⟨more, rfl, _⟩ := reads_closed reads
    rw [split, opening] at split'
    exact other (List.cons.inj split').1.symm
  rcases first_alt found with double | found
  · exact absurd double (unquoted _ (by decide))
  rcases first_alt found with single | found
  · exact absurd single (unquoted _ (by decide))
  have spelled : List.Forall₂ (fun expected c => folds expected c = true) "redacted".toList "REDACTED".toList := by
    have all : ∀ pair ∈ List.zip "redacted".toList "REDACTED".toList, folds pair.1 pair.2 = true := by decide
    exact List.forall₂_iff_zip.mpr ⟨by decide, fun {a b} held => all (a, b) held⟩
  have marked := first_alt_left (by
    refine ahead_seq (ahead_one (split.trans (congrArg (· ++ tail) opening)) (by decide)) fun c₁ split₁ => ?_
    refine ahead_seq (ahead_folded (split₁.trans (List.append_assoc ..)) spelled) fun c₂ split₂ => ?_
    refine ahead_seq (ahead_one split₂ (by decide)) fun c₃ split₃ => ?_
    obtain ⟨e, held, _⟩ := @ahead_class Part c₃ tail true tailChar [] split₃ (List.forall_mem_nil _)
    exact ⟨e, held⟩) found
  obtain ⟨_, firstRun, found⟩ := first_seq marked
  obtain ⟨_, _, firstSplit, isOpen, rfl⟩ := mem_run_one.mp firstRun
  obtain ⟨spelt, wordRun, found⟩ := first_seq found
  obtain ⟨letters, wordReads, wordSplit, _⟩ := run_ends _ _ spelt wordRun
  obtain ⟨_, lastRun, found⟩ := first_seq found
  obtain ⟨closing, rest, lastSplit, _, rfl⟩ := mem_run_one.mp lastRun
  obtain ⟨taken, ahead, accepted, _⟩ := first_class found
  dsimp only [Cursor.past] at wordSplit ahead
  obtain ⟨_, after⟩ := List.cons.inj (firstSplit.symm.trans (split.trans (congrArg (· ++ tail) opening)))
  have count : letters.length = "REDACTED".toList.length := (reads_folded.mp wordReads).length_eq.symm.trans (by decide)
  have after : letters ++ closing :: rest = "REDACTED".toList ++ ']' :: tail := by
    rw [← lastSplit, ← wordSplit, after]
    exact List.append_assoc "REDACTED".toList [']'] tail
  obtain ⟨_, behind⟩ := List.append_inj after count
  obtain ⟨_, rfl⟩ := List.cons.inj behind
  cases taken with
  | nil => exact ahead.symm
  | cons y taken =>
      rw [ahead] at apart
      exact absurd ((apart y rfl).symm.trans (accepted y List.mem_cons_self)) Bool.false_ne_true

/-- Names and white space in front of the first separator. -/
theorem sign_inj {first second left right : List Char} {sign other : Char}
    (split : first ++ sign :: left = second ++ other :: right) (clear : ∀ c ∈ first, ¬ (c = ':' ∨ c = '='))
    (clear' : ∀ c ∈ second, ¬ (c = ':' ∨ c = '=')) (isSign : sign = ':' ∨ sign = '=') (isOther : other = ':' ∨ other = '=') :
    first = second ∧ sign = other ∧ left = right := by
  induction first generalizing second with
  | nil =>
      cases second with
      | nil =>
          obtain ⟨same, tail⟩ := List.cons.inj split
          exact ⟨rfl, same, tail⟩
      | cons y second =>
          obtain ⟨rfl, _⟩ := List.cons.inj split
          exact absurd isSign (clear' _ List.mem_cons_self)
  | cons x first ih =>
      cases second with
      | nil =>
          obtain ⟨rfl, _⟩ := List.cons.inj split
          exact absurd isOther (clear _ List.mem_cons_self)
      | cons y second =>
          obtain ⟨rfl, tail⟩ := List.cons.inj split
          obtain ⟨rfl, same⟩ := ih tail (fun c held => clear c (List.mem_cons_of_mem _ held))
            (fun c held => clear' c (List.mem_cons_of_mem _ held))
          exact ⟨rfl, same⟩

theorem unsigned_name {name : List Char} (named : ∀ c ∈ name, nameChar c = true) : ∀ c ∈ name, ¬ (c = ':' ∨ c = '=') := by
  rintro c held (rfl | rfl)
  · exact absurd (named _ held) (by decide)
  · exact absurd (named _ held) (by decide)

theorem unsigned_spaces {spaces : List Char} (spaced : ∀ c ∈ spaces, isWhitespace c = true) :
    ∀ c ∈ spaces, ¬ (c = ':' ∨ c = '=') := by
  rintro c held (rfl | rfl)
  · exact absurd (spaced _ held) (by decide)
  · exact absurd (spaced _ held) (by decide)

/-- A marked assignment is replaced by itself. -/
theorem matched_marked (matched : Matched (namedAssignment W) passed taken d) {lead value : List Char}
    (marked : Marked lead value) (split : taken ++ d.rest = lead ++ value) :
    assignmentReplacement d.captures ++ d.rest = taken ++ d.rest := by
  obtain ⟨name, sign, rfl, named, isSign⟩ := marked.name
  obtain ⟨tail, rfl, apart⟩ := marked.value
  have first := find_first (c := ⟨passed.getLast?, taken ++ d.rest, []⟩) (progress fun _ => assignment_inhabited)
    matched.first
  have split : taken ++ d.rest = name ++ sign :: (redactedMark ++ tail) := by
    rw [split, List.append_assoc]
    rfl
  have behind : d.rest = tail := by
    obtain ⟨read, spaces, other, gap, valued, shape, readNames, spaced, isOther, gapped, found⟩ := assignment_first first
    have shape : name ++ sign :: (redactedMark ++ tail) = (read ++ spaces) ++ other :: (gap ++ valued.rest) := by
      rw [← split, shape, List.append_assoc]
    obtain ⟨_, _, values⟩ := sign_inj shape (unsigned_name named)
      (List.forall_mem_append.mpr ⟨unsigned_name readNames, unsigned_spaces spaced⟩) isSign isOther
    refine assignedValue_marked ?_ apart found
    cases gap with
    | nil => exact values.symm
    | cons y gap =>
        have opening : redactedMark = '[' :: redactedMark.tail := by decide
        rw [opening] at values
        obtain ⟨rfl, _⟩ := List.cons.inj values
        exact absurd (gapped '[' List.mem_cons_self) (by decide)
  obtain ⟨x, more, spaces, other, inner, rfl, replaced, readNames, isOther, spaced⟩ := matched_assigned matched
  have whole : x :: more ++ spaces ++ other :: (inner ++ d.rest) = name ++ sign :: (redactedMark ++ tail) := by
    rw [← split]
    simp only [List.append_assoc, List.cons_append]
  have clear := List.forall_mem_append.mpr ⟨unsigned_name readNames, unsigned_spaces spaced⟩
  obtain ⟨isName, rfl, _⟩ := sign_inj whole clear (unsigned_name named) isOther isSign
  have none_ : spaces = [] := by
    cases spaces with
    | nil => rfl
    | cons y spaces =>
        have isNameChar := named y (by rw [← isName]; exact List.mem_append_right _ List.mem_cons_self)
        exact absurd ((dense_nameChar isNameChar).symm.trans (spaced y List.mem_cons_self)) Bool.false_ne_true
  rw [none_, List.append_nil] at isName
  rw [replaced, split, behind, isName, List.append_assoc]
  rfl

/-- A stable text has nothing left to replace for the first pass. -/
theorem Stable.kept (stable : Stable W text) : unassigned W text = text := by
  have whole := @turn_induction Part (namedAssignment W) assignmentReplacement [] text (fun passed rest result _ =>
    text = passed ++ rest → result = rest)
  refine whole ?stop ?keep ?swap rfl
  case stop => exact fun _ _ => rfl
  case keep =>
    intro passed x rest _ ih split
    rw [ih (by rw [split, List.append_assoc]; rfl)]
  case swap =>
    intro passed taken d matched ih split
    obtain ⟨lead, c, more, shape, led, value⟩ := run_assignment.mp ⟨d, matched.outcome⟩
    rw [ih (by rw [split, List.append_assoc])]
    exact matched_marked matched (stable passed lead c more (by rw [split, shape]) led value) shape

/-- Redaction of a loose text leaves nothing to redact. -/
theorem tokenless_again (loose : Loose W text) : tokenless W (tokenless W text) = tokenless W text := by
  have stable : Stable W (tokenless W text) := (loose.stable.pass bearer_spares).pass key_spares
  have unborne : ¬ Found (bearerToken W) (tokenless W text) := replaceKeys_tokenless (replaced_tokenless _)
  have keyless : ¬ Found (openaiKey W) (tokenless W text) := replaced_keyless _
  generalize tokenless W text = result at stable unborne keyless
  rw [tokenless, stable.kept, replaceAll_unfound unborne, replaceAll_unfound keyless]

end Assignments

end LatteCode
