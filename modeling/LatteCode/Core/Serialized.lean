import LatteCode.Core.Secrets
import LatteCode.Lib.Quoting
/- Redaction of text that holds quoted strings: what each pass does to the quotes and to the escapes. -/

namespace LatteCode
open Escapes Quoting Regex

section Characters

/-- Graphic ASCII is no white space. -/
theorem graphic_dense {c : Char} (low : 0x21 ≤ c.val.toNat) (high : c.val.toNat ≤ 0x7e) : isWhitespace c = false := by
  have apart : ∀ bound : UInt32, bound.toNat < 0x21 ∨ 0x7e < bound.toNat → c.val ≠ bound := by
    rintro bound outside rfl
    omega
  have ranges : ¬ (c.val ≤ 0x0d) ∧ ¬ (0x2000 ≤ c.val) := by
    rw [UInt32.le_iff_toNat_le, UInt32.le_iff_toNat_le]
    exact ⟨Nat.not_le.mpr (Nat.lt_of_lt_of_le (by decide) low), Nat.not_le.mpr (Nat.lt_of_le_of_lt high (by decide))⟩
  rw [isWhitespace, decide_eq_false ranges.1, decide_eq_false ranges.2, Bool.and_false, Bool.false_and, Bool.false_or,
    Bool.false_or, List.contains_eq_mem, decide_eq_false]
  intro listed
  simp only [List.mem_cons, List.not_mem_nil, or_false] at listed
  rcases listed with same | same | same | same | same | same | same | same | same
  all_goals exact apart _ (by decide) same

/-- The characters of escapes are graphic. -/
theorem outsider_whitespace {c : Char} (white : isWhitespace c = true) : outsider c = true := by
  have range : ∀ {low high : Char}, 0x21 ≤ low.val.toNat → high.val.toNat ≤ 0x7e → low ≤ c → c ≤ high → False := by
    intro low high above below lower upper
    rw [Char.le_def, UInt32.le_iff_toNat_le] at lower upper
    exact Bool.false_ne_true ((graphic_dense (above.trans lower) (upper.trans below)).symm.trans white)
  have apart : ∀ other : Char, isWhitespace other = false → c ≠ other := by
    rintro other dense rfl
    exact Bool.false_ne_true (dense.symm.trans white)
  simp only [outsider, Bool.and_eq_true, Bool.not_eq_true', decide_eq_true_eq]
  refine ⟨⟨?_, apart 'u' (by decide)⟩, ?_⟩
  · rw [shortEscape, List.contains_eq_mem, decide_eq_false]
    intro listed
    have dense : ∀ other ∈ ['"', '\\', '/', 'b', 'f', 'n', 'r', 't'], isWhitespace other = false :=
      each_of_all (by decide)
    exact apart c (dense c listed) rfl
  · simp only [Escapes.hexDigit, Bool.or_eq_false_iff, Bool.and_eq_false_imp, decide_eq_true_eq, decide_eq_false_iff_not]
    exact ⟨⟨range (by decide) (by decide), range (by decide) (by decide)⟩, range (by decide) (by decide)⟩

/-- So are all that end a value. -/
theorem outsider_delimiter {c : Char} (ends : (tailChar c && c ≠ ']') = false) : outsider c = true := by
  by_cases white : isWhitespace c = true
  · exact outsider_whitespace white
  · simp only [tailChar, Bool.not_eq_true] at ends white
    simp only [white, Bool.not_false, Bool.true_and, Bool.and_eq_false_iff, decide_eq_false_iff_not, not_not] at ends
    rcases ends with (((rfl | rfl) | rfl) | rfl) | rfl <;> decide

theorem outsider_separator {c : Char} (separator : c = ':' ∨ c = '=') : outsider c = true := by
  rcases separator with rfl | rfl <;> decide

/-- A lowercase letter stands for itself, its capital and what folds to it. -/
theorem folds_foldedLetter {lower c : Char} (letter : 'a' ≤ lower ∧ lower ≤ 'z') (same : folds lower c = true) :
    foldedLetter c = true := by
  simp only [folds, foldedLetter, Bool.or_eq_true, Bool.and_eq_true, decide_eq_true_eq] at same ⊢
  rcases same with (rfl | ⟨_, rfl⟩) | ⟨_, rfl⟩
  · exact .inl (.inl letter)
  · exact .inl (.inr rfl)
  · exact .inr rfl

theorem folds_b {c : Char} (same : folds 'b' c = true) : c = 'b' ∨ c = 'B' := by
  simp only [folds, Bool.or_eq_true, Bool.and_eq_true, decide_eq_true_eq, Char.reduceEq, false_and, or_false] at same
  rw [Char.toLower] at same
  split at same
  case isTrue upper =>
    have value : c.val + ('a'.val - 'A'.val) = 'b'.val := congrArg Char.val same
    exact .inr (Char.ext ((UInt32.add_left_inj _).mp (value.trans (by decide))))
  case isFalse => exact .inl same

end Characters

section Names

variable {κ : Type}

theorem folded_only {P : Char → Prop} {lower : List Char} (each : ∀ expected ∈ lower, ∀ c, folds expected c = true → P c) :
    (folded (κ := κ) lower).Only P := by
  induction lower with
  | nil => exact trivial
  | cons expected lower ih =>
      obtain ⟨here, later⟩ := List.forall_mem_cons.mp each
      exact ⟨here, ih later⟩

theorem word_only {word : List Char} (letters : ∀ c ∈ word, 'a' ≤ c ∧ c ≤ 'z') :
    (folded (κ := κ) word).Only fun c => foldedLetter c = true :=
  folded_only fun expected held _ same => folds_foldedLetter (letters expected held) same

theorem keywords_only : (keywords (κ := κ)).Only fun c => nameChar c = true := by
  have word : ∀ letters : List Char, (∀ c ∈ letters, 'a' ≤ c ∧ c ≤ 'z') →
      (folded (κ := κ) letters).Only fun c => nameChar c = true := fun letters each =>
    folded_only fun expected held c same => by
      rw [nameChar, folds_foldedLetter (each expected held) same]
      rfl
  have joined : (joint (κ := κ)).Only fun c => nameChar c = true := by
    refine ⟨fun c held => ?_, trivial⟩
    rw [Bool.or_eq_true, decide_eq_true_eq, decide_eq_true_eq] at held
    rcases held with rfl | rfl <;> decide
  have spelled : ∀ text : String, text.toList.all (fun c => decide ('a' ≤ c ∧ c ≤ 'z')) = true →
      (folded (κ := κ) text.toList).Only fun c => nameChar c = true := fun text all => word _ (each_of_all all)
  exact ⟨⟨spelled _ (by decide), joined, spelled _ (by decide)⟩, ⟨spelled _ (by decide), joined, spelled _ (by decide)⟩,
    ⟨spelled _ (by decide), joined, spelled _ (by decide)⟩, spelled _ (by decide), spelled _ (by decide),
    spelled _ (by decide), spelled _ (by decide)⟩

theorem assignmentName_only : (assignmentName (κ := κ)).Only fun c => nameChar c = true := by
  refine ⟨⟨⟨fun c letter => ?_, fun _ held => held⟩, trivial⟩, keywords_only, fun _ held => held⟩
  show nameChar c = true
  rw [nameChar, letter]
  rfl

/-- A quoted text ends with its quote. -/
theorem reads_quoted {quote : Char} {text : List Char} (read : Reads (κ := κ) (quoted quote) text) :
    ∃ inside, text = inside ++ [quote] := by
  rw [quoted, reads_seq] at read
  obtain ⟨opening, _, rfl, _, read⟩ := read
  rw [reads_seq] at read
  obtain ⟨inside, _, rfl, _, read⟩ := read
  obtain ⟨c, rfl, same⟩ := reads_one.mp read
  rw [decide_eq_true_eq] at same
  rw [same]
  exact ⟨opening ++ inside, (List.append_assoc ..).symm⟩

end Names

section Matches

variable {W : WordClass} {before : Option Char} {text : List Char} {d : Cursor Part}

/-- A value ends with a quote of its own or in front of what ends values. -/
theorem assignedValue_first {c : Cursor Part} (found : (run assignedValue c).head? = some d) : ∃ value,
    c.rest = value ++ d.rest ∧ ((∃ inside, value = inside ++ ['"']) ∨ (∃ inside, value = inside ++ ['\'']) ∨
      ∀ c, d.rest.head? = some c → (tailChar c && c ≠ ']') = false) := by
  obtain ⟨value, reads, split, _⟩ := run_ends assignedValue c d (List.mem_of_head? found)
  refine ⟨value, split, ?_⟩
  have inQuotes : ∀ quote, (run (quoted quote) c).head? = some d → ∃ inside, value = inside ++ [quote] := by
    intro quote first
    obtain ⟨other, quotedReads, otherSplit, _⟩ := run_ends (quoted quote) c d (List.mem_of_head? first)
    rw [List.append_cancel_right (split.symm.trans otherSplit)]
    exact reads_quoted quotedReads
  rcases first_alt found with double | found
  · exact .inl (inQuotes _ double)
  rcases first_alt found with single | found
  · exact .inr (.inl (inQuotes _ single))
  refine .inr (.inr fun x next => ?_)
  rcases first_alt found with redacted | plain
  · obtain ⟨_, _, found⟩ := first_seq redacted
    obtain ⟨_, _, found⟩ := first_seq found
    obtain ⟨_, _, found⟩ := first_seq found
    obtain ⟨_, _, _, stops⟩ := first_class found
    rw [stops x next]
    rfl
  · obtain ⟨_, _, found⟩ := first_seq plain
    obtain ⟨_, _, _, stops⟩ := first_class found
    exact stops x next

/-- The first match of an assignment: its name, its separator, what is captured of it and where it ends. -/
theorem namedAssignment_first (found : (run (namedAssignment W) ⟨before, text, []⟩).head? = some d) :
    ∃ name spaces separator value, text = name ++ (spaces ++ separator :: value) ++ d.rest ∧
      d.captures = [(.separator, [separator]), (.name, name)] ∧ (∀ c ∈ name, nameChar c = true) ∧
      (∀ c ∈ spaces, isWhitespace c = true) ∧ (separator = ':' ∨ separator = '=') ∧
      ((∃ inside, value = inside ++ ['"']) ∨ (∃ inside, value = inside ++ ['\'']) ∨
        ∀ c, d.rest.head? = some c → (tailChar c && c ≠ ']') = false) := by
  obtain ⟨start, bounded, found⟩ := first_seq found
  obtain ⟨_, rfl⟩ := mem_run_boundary.mp bounded
  obtain ⟨_, named, found⟩ := first_seq found
  obtain ⟨inner, nameRun, rfl⟩ := List.mem_map.mp named
  obtain ⟨name, nameReads, nameSplit, _⟩ := run_ends _ _ inner nameRun
  have nothing := captures_kept assignmentName rfl _ inner nameRun
  obtain ⟨spaced, spaceRun, found⟩ := first_seq found
  obtain ⟨spaces, spaceReads, spaceSplit, _⟩ := run_ends _ _ spaced spaceRun
  have sameSpace := captures_kept _ rfl _ spaced spaceRun
  obtain ⟨_, separated, found⟩ := first_seq found
  obtain ⟨sign, signRun, rfl⟩ := List.mem_map.mp separated
  obtain ⟨separator, rest, signSplit, isSeparator, rfl⟩ := mem_run_one.mp signRun
  obtain ⟨valued, gapRun, found⟩ := first_seq found
  obtain ⟨gap, _, gapSplit, _⟩ := run_ends _ _ valued gapRun
  have sameGap := captures_kept _ rfl _ valued gapRun
  obtain ⟨value, valueSplit, ends⟩ := assignedValue_first found
  have sameValue := captures_kept assignedValue rfl _ d (List.mem_of_head? found)
  dsimp only [Cursor.past] at nameSplit nothing spaceSplit sameSpace signSplit gapSplit sameGap
  rw [signSplit] at spaceSplit
  refine ⟨name, spaces, separator, gap ++ value, ?_, ?_, nameReads.only assignmentName_only,
    reads_many_one.mp spaceReads, by simpa using isSeparator, ?_⟩
  · rw [nameSplit, spaceSplit, gapSplit, valueSplit]
    simp only [List.append_assoc, List.cons_append]
  · rw [sameValue, sameGap, signSplit, sameSpace, nothing, nameSplit]
    simp
  · rcases ends with ⟨inside, rfl⟩ | ⟨inside, rfl⟩ | stops
    · exact .inl ⟨gap ++ inside, (List.append_assoc ..).symm⟩
    · exact .inr (.inl ⟨gap ++ inside, (List.append_assoc ..).symm⟩)
    · exact .inr (.inr stops)

/-- A bearer token: a word of letters, white space and a value. -/
theorem bearerToken_parts (read : Reads (bearerToken W) text) : ∃ first letters space value,
    text = first :: letters ++ space :: value ∧ (first = 'b' ∨ first = 'B') ∧ isWhitespace space = true ∧
      ((∃ inside, value = inside ++ ['"']) ∨ (∃ inside, value = inside ++ ['\'']) ∨
        ∀ c ∈ value, isWhitespace c = true ∨ bearerChar c = true) := by
  rw [bearerToken, reads_seq] at read
  obtain ⟨_, _, rfl, bounded, read⟩ := read
  rw [reads_boundary] at bounded
  rw [reads_seq] at read
  obtain ⟨word, _, rfl, wordReads, read⟩ := read
  rw [reads_seq] at read
  obtain ⟨_, _, rfl, spaceReads, read⟩ := read
  rw [reads_seq] at read
  obtain ⟨spaces, value, rfl, spacesRead, read⟩ := read
  obtain ⟨space, rfl, white⟩ := reads_one.mp spaceReads
  have letters : "bearer".toList = 'b' :: "earer".toList := by decide
  rw [letters] at wordReads
  obtain ⟨first, rest, same, _, rfl⟩ := List.forall₂_cons_left_iff.mp (reads_folded.mp wordReads)
  refine ⟨first, rest, space, spaces ++ value, ?_, folds_b same, white, ?_⟩
  · rw [bounded]
    rfl
  · rcases reads_alt.mp read with double | read
    · obtain ⟨inside, rfl⟩ := reads_quoted double
      exact .inl ⟨spaces ++ inside, (List.append_assoc ..).symm⟩
    rcases reads_alt.mp read with single | plain
    · obtain ⟨inside, rfl⟩ := reads_quoted single
      exact .inr (.inl ⟨spaces ++ inside, (List.append_assoc ..).symm⟩)
    refine .inr (.inr (List.forall_mem_append.mpr ⟨fun c held => .inl (reads_many_one.mp spacesRead c held), ?_⟩))
    have only : (Pattern.seq (κ := Part) (.one bearerChar) (.many true (.one bearerChar))).Only fun c =>
        bearerChar c = true := ⟨fun _ held => held, fun _ held => held⟩
    exact fun c held => .inr (plain.only only c held)

end Matches

section Passes

variable {W : WordClass} {mode last : Mode} {passed taken text : List Char} {d : Cursor Part} {quotes total : Nat}

/-- Without a quote but escaped ones. -/
def Quoteless (mode : Mode) (taken : List Char) : Prop :=
  ∀ last quotes, scan mode taken = .ends last quotes → quotes = 0

/-- Without a quote but escaped ones, and not the second character of an escape. -/
def Intact (mode : Mode) (taken : List Char) : Prop := mode ≠ .escape ∧ Quoteless mode taken

theorem quoteless_iff (read : scan mode taken = .ends last quotes) : Quoteless mode taken ↔ quotes = 0 := by
  constructor
  · exact fun clear => clear last quotes read
  · rintro rfl last' quotes' read'
    rw [read] at read'
    cases read'
    rfl

/-- Inside the digits of a code point no word begins. -/
theorem scan_unworded (read : scan .plain passed = .ends mode total) (apart : passed.getLast?.any W.word = false) :
    mode = .plain ∨ mode = .escape := by
  cases mode with
  | plain => exact .inl rfl
  | escape => exact .inr rfl
  | hex left =>
      obtain ⟨c, isLast, digit⟩ := scan_hex read
      have letter : c.val < 128 ∧ asciiWord c = true := by
        rcases digit with rfl | digit
        · decide
        · simp only [Escapes.hexDigit, Bool.or_eq_true, Bool.and_eq_true, decide_eq_true_eq] at digit
          have bounded : ∀ {high : Char}, high.val < 128 → c ≤ high → c.val < 128 := fun small upper =>
            UInt32.lt_of_le_of_lt upper small
          simp only [asciiWord, Bool.or_eq_true, Bool.and_eq_true, decide_eq_true_eq]
          rcases digit with (both | both) | both
          · exact ⟨bounded (by decide) both.2, .inl (.inr both)⟩
          · exact ⟨bounded (by decide) both.2, .inl (.inl (.inl ⟨both.1, Char.le_trans both.2 (by decide)⟩))⟩
          · exact ⟨bounded (by decide) both.2, .inl (.inl (.inr ⟨both.1, Char.le_trans both.2 (by decide)⟩))⟩
      rw [isLast, Option.any_some, W.ascii c letter.1, letter.2] at apart
      cases apart

/-- A value that ends with a quote of its own, or where values end, ends outside of escapes. -/
theorem scan_valued {value rest : List Char} (read : scan mode value = .ends last quotes)
    (later : scan last rest = .ends .plain total) (ends : (∃ inside, value = inside ++ ['"']) ∨
      (∃ inside, value = inside ++ ['\'']) ∨ ∀ c, rest.head? = some c → (tailChar c && c ≠ ']') = false) :
    last = .plain := by
  rcases ends with ⟨inside, rfl⟩ | ⟨inside, rfl⟩ | stops
  · exact scan_quote read
  · exact scan_behind (by decide) read
  · cases rest with
    | nil =>
        cases later
        rfl
    | cons c rest => exact scan_outsider (outsider_delimiter (stops c rfl)) later

theorem progress {p : Pattern Part} {c : Cursor Part} (reads : ∀ taken, Reads p taken → taken ≠ []) :
    ∀ e ∈ run p c, e.rest.length < c.rest.length := by
  intro e held
  obtain ⟨taken, read, split, _⟩ := run_ends p c e held
  have positive := List.length_pos_iff.mpr (reads taken read)
  rw [split, List.length_append]
  omega

theorem mark_ordinary : ∀ c ∈ redactedMark, ordinary c = true := each_of_all (by decide)

/-- An assignment keeps its name and its separator, so only what its value swallows is lost. -/
theorem assignment_rewrites : Rewrites (namedAssignment W) assignmentReplacement Quoteless False where
  step := by
    intro passed taken d mode before total inhabited first start read
    have moves : ∀ text, Reads (namedAssignment W) text → text ≠ [] := by
      rintro _ reads rfl
      obtain ⟨_, _, _, _, _, _, _, _, empty, _⟩ := namedAssignment_parts reads
      exact absurd (congrArg List.length empty) (by simp)
    obtain ⟨name, spaces, separator, value, split, captures, named, spaced, separated, ends⟩ :=
      namedAssignment_first (find_first (progress moves) first)
    obtain rfl := List.append_cancel_right split
    obtain ⟨last, quotes, later, one, tail, _⟩ := scan_split read
    obtain rfl : last = .plain := by
      have whole : name ++ (spaces ++ separator :: value) = (name ++ spaces ++ [separator]) ++ value := by
        simp only [List.append_assoc, List.singleton_append]
      rw [whole] at one
      obtain ⟨_, _, _, _, valued, _⟩ := scan_split one
      exact scan_valued valued tail ends
    -- behind the name stands white space or the separator
    obtain ⟨some_, nameRead⟩ : ∃ quotes, scan mode name = .ends .plain quotes := by
      cases spaces with
      | nil => exact scan_until (outsider_separator separated) one
      | cons space spaces => exact scan_until (outsider_whitespace (spaced space List.mem_cons_self)) one
    have clear : '"' ∉ name := fun held => absurd (named _ held) (by decide)
    obtain rfl := scan_quoteless clear nameRead
    have replaced : scan mode (assignmentReplacement d.captures) = .ends .plain 0 := by
      have shape : assignmentReplacement d.captures = name ++ (separator :: redactedMark) := by
        rw [assignmentReplacement, captures]
        exact List.append_assoc name [separator] redactedMark
      rw [shape, scan_append_ends nameRead, Scan.more_zero]
      apply scan_ordinary
      refine List.forall_mem_cons.mpr ⟨?_, mark_ordinary⟩
      rcases separated with rfl | rfl <;> decide
    rw [quoteless_iff one]
    exact ⟨quotes, one, fun none_ => ⟨none_, replaced⟩, fun some_ => .inr ⟨Nat.pos_of_ne_zero some_, replaced⟩⟩

/-- A bearer token is replaced by a word with a capital, which no escape goes on with. -/
theorem bearer_rewrites : Rewrites (bearerToken W) bearerMarker Intact True where
  step := by
    intro passed taken d mode before total inhabited first start read
    have held := List.mem_of_find?_eq_some first
    obtain ⟨_, boundary, _⟩ := mem_run_seq.mp held
    obtain ⟨bounded, _⟩ := mem_run_boundary.mp boundary
    obtain ⟨other, reads, split, _⟩ := run_ends _ _ d held
    obtain rfl := List.append_cancel_right split
    obtain ⟨letter, letters, space, value, rfl, isLetter, white, ends⟩ := bearerToken_parts reads
    have apart : passed.getLast?.any W.word = false := by
      have word : W.word letter = true := by
        rcases isLetter with rfl | rfl <;> exact (W.ascii _ (by decide)).trans (by decide)
      apply Bool.eq_false_iff.mpr
      intro same
      exact bounded (same.trans word.symm)
    obtain ⟨last, quotes, later, one, tail, _⟩ := scan_split read
    obtain rfl : last = .plain := by
      obtain ⟨next, _, _, _, valued, _⟩ := scan_split one
      obtain rfl := scan_outsider (outsider_whitespace white) valued
      rcases ends with ⟨inside, rfl⟩ | ⟨inside, rfl⟩ | dense
      · rw [← List.cons_append] at valued
        exact scan_quote valued
      · rw [← List.cons_append] at valued
        exact scan_behind (by decide) valued
      · refine (scan_straight (List.forall_mem_cons.mpr ⟨outsider_straight (outsider_whitespace white), ?_⟩) valued).1
        intro c held
        rcases dense c held with white | token
        · exact outsider_straight (outsider_whitespace white)
        · constructor
          · rintro rfl
            exact absurd token (by decide)
          · rintro rfl
            exact absurd token (by decide)
    have plain : scan .plain "Bearer [REDACTED]".toList = .ends .plain 0 := by decide
    have broken : scan .escape "Bearer [REDACTED]".toList = .wrongEscape := by decide
    refine ⟨quotes, one, ?_, ?_⟩
    · rintro ⟨open_, clear⟩
      obtain rfl := (scan_unworded start apart).resolve_right open_
      exact ⟨(quoteless_iff one).mp clear, plain⟩
    · intro spoiled
      rcases scan_unworded start apart with rfl | rfl
      · exact .inr ⟨Nat.pos_of_ne_zero fun none_ => spoiled ⟨by decide, (quoteless_iff one).mpr none_⟩, plain⟩
      · exact .inl ⟨trivial, broken⟩

/-- A key is text that stands for itself, and so is its mark. -/
theorem key_match (first : d ∈ run (openaiKey W) ⟨passed.getLast?, taken ++ d.rest, []⟩)
    (start : scan .plain passed = .ends mode total) :
    (mode = .plain ∧ scan mode taken = .ends .plain 0) ∨ (mode = .escape ∧ scan mode taken = .wrongEscape) := by
  obtain ⟨body, ahead, bounded, _, keys, _⟩ := run_openaiKey.mp ⟨d, first, rfl⟩
  have shape : taken = 's' :: 'k' :: '-' :: body := List.append_cancel_right ahead
  rcases scan_unworded start bounded with rfl | rfl
  · refine .inl ⟨rfl, scan_ordinary fun c held => ?_⟩
    have key : keyChar c = true := by
      rw [shape] at held
      simp only [List.mem_cons] at held
      rcases held with rfl | rfl | rfl | held
      · decide
      · decide
      · decide
      · exact keys c held
    have low := (show 0x2d ≤ c.val.toNat by
      simp only [keyChar, asciiWord, Bool.or_eq_true, Bool.and_eq_true, decide_eq_true_eq, Char.le_def,
        UInt32.le_iff_toNat_le] at key
      rcases key with (((⟨low, _⟩ | ⟨low, _⟩) | ⟨low, _⟩) | rfl) | rfl
      · exact Nat.le_trans (by decide) low
      · exact Nat.le_trans (by decide) low
      · exact Nat.le_trans (by decide) low
      · decide
      · decide)
    have apart : c ≠ '\\' ∧ c ≠ '"' := by
      constructor
      · rintro rfl
        exact absurd key (by decide)
      · rintro rfl
        exact absurd key (by decide)
    simp only [ordinary, Bool.and_eq_true, decide_eq_true_eq, UInt32.le_iff_toNat_le]
    exact ⟨apart, Nat.le_trans (by decide) low⟩
  · exact .inr ⟨rfl, by rw [shape]; rfl⟩

theorem key_rewrites : Rewrites (openaiKey W) keyMarker (fun _ _ => True) False where
  step := by
    intro passed taken d mode before total inhabited first start read
    have mark : scan .plain redactedMark = .ends .plain 0 := scan_ordinary mark_ordinary
    rcases key_match (List.mem_of_find?_eq_some first) start with ⟨rfl, one⟩ | ⟨rfl, bad⟩
    · exact ⟨0, one, fun _ => ⟨rfl, mark⟩, fun never => absurd trivial never⟩
    · rw [scan_append, bad] at read
      cases read

/-- Keys are no part of what decides how a text is read. -/
theorem scan_keys (text : List Char) : scan .plain (replaceAll (openaiKey W) keyMarker text) = scan .plain text := by
  have whole := @replace_induction Part (openaiKey W) keyMarker text [] (fun passed text result _ => ∀ mode before,
    scan .plain passed = .ends mode before → scan mode result = scan mode text)
  refine whole ?nil ?keep ?swap .plain 0 rfl
  case nil => exact fun _ _ _ _ => rfl
  case keep =>
    intro passed x rest result _ ih mode before start
    have split : ∀ tail : List Char, scan mode (x :: tail) = scan mode ([x] ++ tail) := fun _ => rfl
    rw [split, split, scan_append, scan_append]
    cases one : scan mode [x] with
    | ends next here =>
        have onward : scan .plain (passed ++ [x]) = .ends next (before + here) := by
          rw [scan_append_ends start, one]
          rfl
        dsimp only
        rw [ih next _ onward]
    | wrongEscape | other => rfl
  case swap =>
    intro passed taken d result _ _ first ih mode before start
    have broken : scan .escape redactedMark = .wrongEscape := by decide
    rw [scan_append, scan_append]
    rcases key_match (List.mem_of_find?_eq_some first) start with ⟨rfl, one⟩ | ⟨rfl, bad⟩
    · have onward : scan .plain (passed ++ taken) = .ends .plain (before + 0) := by
        rw [scan_append_ends start, one]
        rfl
      have mark : scan .plain redactedMark = .ends .plain 0 := scan_ordinary mark_ordinary
      rw [keyMarker, mark, one]
      dsimp only
      rw [ih .plain _ onward]
    · rw [keyMarker, broken, bad]

end Passes

section Heads

variable {W : WordClass} {head later : List Char}

/-- Name characters that reach neither white space nor a separator. -/
def closes : List Char → Bool
  | [] => false
  | c :: rest => !(isWhitespace c || c = ':' || c = '=') && (!nameChar c || closes rest)

/-- Text in which no match begins, whatever comes behind it. -/
def guarded : List Char → Bool
  | [] => true
  | c :: rest => c ≠ 's' && !folds 'b' c && (!nameChar c || closes rest) && guarded rest

theorem guarded_suffix {early : List Char} (safe : guarded (early ++ later) = true) : guarded later = true := by
  induction early with
  | nil => exact safe
  | cons c early ih =>
      rw [List.cons_append, guarded, Bool.and_eq_true] at safe
      exact ih safe.2

theorem closes_names {name rest text : List Char} {sign : Char} (closed : closes later = true)
    (named : ∀ c ∈ name, nameChar c = true) (shape : later ++ text = name ++ sign :: rest) :
    isWhitespace sign = false ∧ ¬ (sign = ':' ∨ sign = '=') := by
  induction later generalizing name with
  | nil => cases closed
  | cons c later ih =>
      simp only [closes, Bool.and_eq_true, Bool.or_eq_true, Bool.not_eq_true', Bool.or_eq_false_iff,
        decide_eq_false_iff_not] at closed
      obtain ⟨⟨⟨dense, colon⟩, equals⟩, onward⟩ := closed
      cases name with
      | nil =>
          obtain ⟨rfl, _⟩ := List.cons.inj shape
          exact ⟨dense, not_or.mpr ⟨colon, equals⟩⟩
      | cons n name =>
          obtain ⟨rfl, tail⟩ := List.cons.inj shape
          obtain ⟨here, others⟩ := List.forall_mem_cons.mp named
          exact ih (onward.resolve_left fun other => Bool.false_ne_true (other.symm.trans here)) others tail

/-- A pattern none of whose matches begins in guarded text. -/
def Shuns (p : Pattern Part) : Prop := ∀ (before : Option Char) (later text : List Char) (d : Cursor Part), later ≠ [] →
  guarded later = true → d ∉ run p ⟨before, later ++ text, []⟩

theorem shuns_assignment : Shuns (namedAssignment W) := by
  intro before later text d inhabited safe held
  obtain ⟨taken, reads, split, _⟩ := run_ends _ _ d held
  rw [namedAssignment, reads_seq] at reads
  obtain ⟨_, _, rfl, bounded, reads⟩ := reads
  rw [reads_boundary] at bounded
  rw [reads_seq] at reads
  obtain ⟨name, _, rfl, named, reads⟩ := reads
  rw [reads_seq] at reads
  obtain ⟨spaces, _, rfl, spaced, reads⟩ := reads
  rw [reads_seq] at reads
  obtain ⟨_, value, rfl, separated, _⟩ := reads
  rw [reads_group, reads_one] at separated
  obtain ⟨separator, rfl, isSeparator⟩ := separated
  rw [Bool.or_eq_true, decide_eq_true_eq, decide_eq_true_eq] at isSeparator
  have names := (reads_group.mp named).only assignmentName_only
  -- the name is not empty: it holds a keyword
  have some_ : name ≠ [] := by
    rintro rfl
    rw [reads_group, assignmentName, reads_seq] at named
    obtain ⟨_, _, empty, _, rest⟩ := named
    rw [reads_seq] at rest
    obtain ⟨_, _, rfl, keyword, _⟩ := rest
    obtain ⟨word, listed, _, key, rfl, spelled⟩ := keywords_word keyword
    have none_ : key = [] := by simp_all
    rw [none_, List.forall₂_nil_right_iff] at spelled
    have inhabited : [] ∉ secretWords := by decide
    exact inhabited (spelled ▸ listed)
  cases later with
  | nil => exact inhabited rfl
  | cons c later =>
      cases name with
      | nil => exact some_ rfl
      | cons n name =>
          simp only [bounded, List.nil_append, List.cons_append, List.append_assoc] at split
          obtain ⟨rfl, tail⟩ := List.cons.inj split
          simp only [guarded, Bool.and_eq_true, Bool.or_eq_true, Bool.not_eq_true'] at safe
          obtain ⟨here, others⟩ := List.forall_mem_cons.mp names
          have closed := safe.1.2.resolve_left fun other => Bool.false_ne_true (other.symm.trans here)
          cases spaces with
          | nil => exact (closes_names closed others tail).2 isSeparator
          | cons space spaces =>
              have white := reads_many_one.mp spaced space List.mem_cons_self
              exact Bool.false_ne_true ((closes_names closed others tail).1.symm.trans white)

theorem shuns_bearer : Shuns (bearerToken W) := by
  intro before later text d inhabited safe held
  obtain ⟨taken, reads, split, _⟩ := run_ends _ _ d held
  obtain ⟨first, letters, space, value, rfl, isLetter, _⟩ := bearerToken_parts reads
  cases later with
  | nil => exact inhabited rfl
  | cons c later =>
      obtain ⟨rfl, _⟩ := List.cons.inj split
      rcases isLetter with rfl | rfl <;> cases safe

theorem shuns_key : Shuns (openaiKey W) := by
  intro before later text d inhabited safe held
  obtain ⟨body, ahead, _⟩ := run_openaiKey.mp ⟨d, held, rfl⟩
  cases later with
  | nil => exact inhabited rfl
  | cons c later =>
      obtain ⟨rfl, _⟩ := List.cons.inj ahead
      cases safe

/-- Guarded text at the start stays. -/
theorem replaceAll_guarded {p : Pattern Part} {replacement : List (Part × List Char) → List Char} (shuns : Shuns p)
    (safe : guarded head = true) (text : List Char) : ∃ rest, replaceAll p replacement (head ++ text) = head ++ rest := by
  refine ⟨_, replaceFrom_passed fun early later split inhabited d held _ => ?_⟩
  exact shuns _ later text d inhabited (guarded_suffix (split ▸ safe)) held

end Heads

section Filter

variable {text : List Char} {used : Nat}

/-- Neither escape nor control, line feeds and tabs apart. -/
def visible (c : Char) : Bool := !decide (isControl c = true ∧ c ≠ '\n' ∧ c ≠ '\t')

/-- The control filter drops controls from a text without escapes, if the rest fits. -/
theorem sanitize_filter (clear : '\x1b' ∉ text)
    (fits : used + String.utf8Len (text.filter visible) ≤ SESSION_TEXT_CAP_BYTES) :
    sanitize .text used text = text.filter visible := by
  induction text generalizing used with
  | nil => rfl
  | cons c rest ih =>
      rw [List.mem_cons, not_or] at clear
      rw [sanitize, if_neg (by decide), if_neg (by simp),
        if_neg fun same => clear.1 same.symm]
      split
      case isTrue control =>
        have hidden : visible c = false := congrArg not (decide_eq_true control)
        rw [List.filter_cons_of_neg (Bool.eq_false_iff.mp hidden)] at fits ⊢
        exact ih clear.2 fits
      case isFalse shown =>
        have kept : visible c = true := congrArg not (decide_eq_false shown)
        rw [List.filter_cons_of_pos kept, String.utf8Len_cons] at fits
        rw [if_neg (by omega), List.filter_cons_of_pos kept, ih clear.2 (by omega)]

/-- Otherwise it cuts it, and marks where. -/
theorem sanitize_cut (clear : '\x1b' ∉ text)
    (beyond : SESSION_TEXT_CAP_BYTES < used + String.utf8Len (text.filter visible)) (room : used ≤ SESSION_TEXT_CAP_BYTES) :
    ∃ front c, front ++ [c] <+: text.filter visible ∧ SESSION_TEXT_CAP_BYTES < used + String.utf8Len (front ++ [c]) ∧
      sanitize .text used text = front ++ "…[truncated]".toList := by
  induction text generalizing used with
  | nil => exact absurd beyond (Nat.not_lt.mpr room)
  | cons c rest ih =>
      rw [List.mem_cons, not_or] at clear
      rw [sanitize, if_neg (by decide), if_neg (by simp),
        if_neg fun same => clear.1 same.symm]
      split
      case isTrue control =>
        have hidden : visible c = false := congrArg not (decide_eq_true control)
        rw [List.filter_cons_of_neg (Bool.eq_false_iff.mp hidden)] at beyond ⊢
        exact ih clear.2 beyond room
      case isFalse shown =>
        have kept : visible c = true := congrArg not (decide_eq_false shown)
        rw [List.filter_cons_of_pos kept, String.utf8Len_cons] at beyond
        rw [List.filter_cons_of_pos kept]
        split
        case isTrue full =>
          refine ⟨[], c, List.cons_prefix_cons.mpr ⟨rfl, List.nil_prefix⟩, ?_, rfl⟩
          rw [List.nil_append, String.utf8Len_cons]
          omega
        case isFalse fits =>
          obtain ⟨front, last, shape, past, cut⟩ := @ih (used + c.utf8Size) clear.2 (by omega) (by omega)
          refine ⟨c :: front, last, List.cons_prefix_cons.mpr ⟨rfl, shape⟩, ?_, congrArg (c :: ·) cut⟩
          rw [List.cons_append, String.utf8Len_cons]
          omega

end Filter

section Whole

variable (W : WordClass)

/-- What the assignment pass leaves. -/
def unassigned (text : List Char) : List Char := replaceAll (namedAssignment W) assignmentReplacement text

/-- What the three passes leave. -/
def tokenless (text : List Char) : List Char :=
  replaceAll (openaiKey W) keyMarker (replaceAll (bearerToken W) bearerMarker (unassigned W text))

/-- No assignment that is replaced reaches over a quote that ends a string. -/
def AssignmentsInside (text : List Char) : Prop := Spared Quoteless (replacedFrom (namedAssignment W) 0 [] text)

/-- No bearer token that is replaced then reaches over such a quote, or begins right behind the backslash of an escape. -/
def BearersInside (text : List Char) : Prop := Spared Intact (replacedFrom (bearerToken W) 0 [] (unassigned W text))

/-- A part in which none of the three patterns matches. -/
def Untouched (part : List Char) : Prop :=
  Inert (namedAssignment W) part ∧ Inert (bearerToken W) part ∧ Inert (openaiKey W) part

variable {W} {part head text : List Char} {more : List (List Char)} {total : Nat}

/-- Rewritten into text that is read between escapes, and kept where nothing matches. -/
def Rewritten (W : WordClass) (old new : List Char) : Prop :=
  scan .plain new = .ends .plain 0 ∧ (Untouched W old → new = old)

theorem Rewritten.trans {first second third : List Char} (one : Rewritten W first second)
    (two : Rewritten W second third) : Rewritten W first third := by
  refine ⟨two.1, fun untouched => ?_⟩
  have same := one.2 untouched
  rw [two.2 (same ▸ untouched), same]

theorem rewritten_trans {firsts seconds thirds : List (List Char)} (one : List.Forall₂ (Rewritten W) firsts seconds)
    (two : List.Forall₂ (Rewritten W) seconds thirds) : List.Forall₂ (Rewritten W) firsts thirds := by
  induction one generalizing thirds with
  | nil =>
      cases two
      exact .nil
  | cons here _ ih =>
      cases two with
      | cons there later => exact .cons (here.trans there) (ih later)

theorem rewritten_scans {olds news : List (List Char)} (rewritten : List.Forall₂ (Rewritten W) olds news) :
    ∀ next ∈ news, scan .plain next = .ends .plain 0 := by
  induction rewritten with
  | nil => exact List.forall_mem_nil _
  | cons here _ ih => exact List.forall_mem_cons.mpr ⟨here.1, ih⟩

/-- Where both conditions hold, the passes rewrite each part on its own. -/
theorem tokenless_parts (first : scan .plain part = .ends .plain 0)
    (others : ∀ next ∈ more, scan .plain next = .ends .plain 0) (assignments : AssignmentsInside W (joined part more))
    (bearers : BearersInside W (joined part more)) : ∃ part' more', tokenless W (joined part more) = joined part' more' ∧
      List.Forall₂ (Rewritten W) (part :: more) (part' :: more') := by
  obtain ⟨part₁, more₁, shape₁, rewritten₁⟩ := assignment_rewrites.parts first others assignments
  have rewritten₁ : List.Forall₂ (Rewritten W) _ _ := rewritten₁.imp fun _ _ both => ⟨both.1, fun all => both.2 all.1⟩
  obtain ⟨here₁, later₁⟩ := List.forall_mem_cons.mp (rewritten_scans rewritten₁)
  rw [BearersInside, unassigned, shape₁] at bearers
  obtain ⟨part₂, more₂, shape₂, rewritten₂⟩ := bearer_rewrites.parts here₁ later₁ bearers
  have rewritten₂ : List.Forall₂ (Rewritten W) _ _ := rewritten₂.imp fun _ _ both => ⟨both.1, fun all => both.2 all.2.1⟩
  obtain ⟨here₂, later₂⟩ := List.forall_mem_cons.mp (rewritten_scans rewritten₂)
  obtain ⟨part₃, more₃, shape₃, rewritten₃⟩ := (key_rewrites (W := W)).parts here₂ later₂ fun _ _ _ _ _ => trivial
  have rewritten₃ : List.Forall₂ (Rewritten W) _ _ := rewritten₃.imp fun _ _ both => ⟨both.1, fun all => both.2 all.2.2⟩
  refine ⟨part₃, more₃, ?_, rewritten_trans (rewritten_trans rewritten₁ rewritten₂) rewritten₃⟩
  rw [tokenless, unassigned, shape₁, shape₂, shape₃]

/-- Text that is still read has lost quotes, unless both conditions hold. -/
theorem tokenless_count (read : scan .plain text = .ends .plain total)
    (unbroken : scan .plain (tokenless W text) ≠ .wrongEscape) : ∃ left, left ≤ total ∧
      scan .plain (tokenless W text) = .ends .plain left ∧
        (left = total → AssignmentsInside W text ∧ BearersInside W text) := by
  rw [tokenless, scan_keys] at unbroken ⊢
  obtain ⟨first, readFirst, fewer, assignments⟩ := (assignment_rewrites.count read).resolve_left fun broken => broken.1
  obtain ⟨left, readLeft, least, bearers⟩ :=
    ((bearer_rewrites (W := W)).count readFirst).resolve_left fun broken => unbroken broken.2
  exact ⟨left, Nat.le_trans least fewer, readLeft, fun same => ⟨assignments (by omega), bearers (by omega)⟩⟩

theorem tokenless_guarded (safe : guarded head = true) (text : List Char) :
    ∃ rest, tokenless W (head ++ text) = head ++ rest := by
  obtain ⟨first, shape₁⟩ := @replaceAll_guarded head _ assignmentReplacement (shuns_assignment (W := W)) safe text
  obtain ⟨second, shape₂⟩ := @replaceAll_guarded head _ bearerMarker (shuns_bearer (W := W)) safe first
  obtain ⟨third, shape₃⟩ := @replaceAll_guarded head _ keyMarker (shuns_key (W := W)) safe second
  exact ⟨third, by rw [tokenless, unassigned, shape₁, shape₂, shape₃]⟩

theorem tokenless_bracket (last : text.getLast? = some ']') : (tokenless W text).getLast? = some ']' := by
  have bearer : "Bearer [REDACTED]".toList.getLast? = some ']' := by decide
  refine replaceAll_last (fun _ => redactedMark_last) (replaceAll_last (fun _ => bearer) (replaceAll_last ?_ last))
  intro captures
  rw [assignmentReplacement, List.getLast?_append, redactedMark_last, Option.some_or]

/-- Without white space, separators behind other characters and the letter of keys nothing matches. -/
theorem untouched_of {c : Char} (dense : ∀ x ∈ c :: part, isWhitespace x = false ∧ x ≠ 'k')
    (clear : ∀ x ∈ part, x ≠ ':' ∧ x ≠ '=') : Untouched W (c :: part) := by
  refine ⟨?_, ?_, ?_⟩
  · intro taken reads inside
    obtain ⟨word, listed, head, key, chars, spaces, separator, value, rfl, spelled, _, _, isSeparator⟩ :=
      namedAssignment_parts reads
    have some_ : key ≠ [] := by
      rintro rfl
      rw [List.forall₂_nil_right_iff] at spelled
      have inhabited : [] ∉ secretWords := by decide
      exact inhabited (spelled ▸ listed)
    obtain ⟨before, behind, whole⟩ := inside
    have held : separator ∈ part := by
      obtain ⟨y, front, front_⟩ := List.exists_cons_of_ne_nil
        (List.append_ne_nil_of_right_ne_nil (before ++ head) (List.append_ne_nil_of_left_ne_nil some_ (chars ++ spaces)))
      have split : (y :: front) ++ separator :: (value ++ behind) = c :: part := by
        rw [← front_, ← whole]
        simp only [List.append_assoc, List.cons_append]
      obtain ⟨_, rfl⟩ := List.cons.inj split
      simp
    rcases isSeparator with rfl | rfl
    · exact (clear _ held).1 rfl
    · exact (clear _ held).2 rfl
  · intro taken reads inside
    obtain ⟨x, held, white⟩ := bearerToken_space reads
    exact Bool.false_ne_true ((dense x (inside.subset held)).1.symm.trans white)
  · intro taken reads inside
    have key : 'k' ∈ taken := by
      rw [openaiKey, reads_seq] at reads
      obtain ⟨_, _, rfl, _, reads⟩ := reads
      rw [reads_seq] at reads
      obtain ⟨_, _, rfl, _, reads⟩ := reads
      rw [reads_seq] at reads
      obtain ⟨_, _, rfl, second, _⟩ := reads
      obtain ⟨x, rfl, isK⟩ := reads_one.mp second
      rw [decide_eq_true_eq] at isK
      simp [isK]
    exact (dense 'k' (inside.subset key)).2 rfl

end Whole

end LatteCode
