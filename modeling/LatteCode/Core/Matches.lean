import LatteCode.Lib.Replaced
import LatteCode.Core.Serialized
/- Where the patterns of the redactor match: what they read up to the value that they take. -/

namespace LatteCode
open Regex

section Characters

/-- `[^\s,;\)\}\]]`. -/
def valueChar (c : Char) : Bool := tailChar c && c ≠ ']'

theorem tailChar_of_value {c : Char} (value : valueChar c = true) : tailChar c = true :=
  (Bool.and_eq_true_iff.mp value).1

theorem foldedLetter_cases {c : Char} (letter : foldedLetter c = true) : ('a' ≤ c ∧ c ≤ 'z') ∨ ('A' ≤ c ∧ c ≤ 'Z') ∨
    c = 'ſ' ∨ c = 'K' := by
  simp only [foldedLetter, Bool.or_eq_true, Bool.and_eq_true, decide_eq_true_eq] at letter
  rcases letter with (range | rfl) | rfl
  · rw [Char.toLower] at range
    split at range
    case isTrue upper => exact .inr (.inl upper)
    case isFalse => exact .inl range
  · exact .inr (.inr (.inl rfl))
  · exact .inr (.inr (.inr rfl))

/-- The characters of a name may begin a value. -/
theorem value_nameChar {c : Char} (name : nameChar c = true) : valueChar c = true := by
  have apart : ∀ other : Char, nameChar other = false → c ≠ other := by
    rintro other no rfl
    exact Bool.false_ne_true (no.symm.trans name)
  have range : ∀ {low high : Char}, 0x21 ≤ low.val.toNat → high.val.toNat ≤ 0x7e → low ≤ c ∧ c ≤ high →
      isWhitespace c = false := by
    intro low high above below both
    rw [Char.le_def, Char.le_def, UInt32.le_iff_toNat_le, UInt32.le_iff_toNat_le] at both
    exact graphic_dense (above.trans both.1) (both.2.trans below)
  have dense : isWhitespace c = false := by
    rw [nameChar, Bool.or_eq_true, Bool.or_eq_true, Bool.or_eq_true, Bool.and_eq_true, decide_eq_true_eq,
      decide_eq_true_eq, decide_eq_true_eq, decide_eq_true_eq] at name
    rcases name with ((letter | digit) | rfl) | rfl
    · rcases foldedLetter_cases letter with small | large | rfl | rfl
      · exact range (by decide) (by decide) small
      · exact range (by decide) (by decide) large
      · decide
      · decide
    · exact range (by decide) (by decide) digit
    · decide
    · decide
  simp only [valueChar, tailChar, dense, Bool.not_false, Bool.true_and, Bool.and_eq_true, decide_eq_true_eq]
  exact ⟨⟨⟨⟨apart _ (by decide), apart _ (by decide)⟩, apart _ (by decide)⟩, apart _ (by decide)⟩, apart _ (by decide)⟩

theorem nameChar_foldedLetter {c : Char} (letter : foldedLetter c = true) : nameChar c = true := by
  rw [nameChar, letter]
  rfl

theorem dense_nameChar {c : Char} (name : nameChar c = true) : isWhitespace c = false := by
  have tail := tailChar_of_value (value_nameChar name)
  simp only [tailChar, Bool.and_eq_true, Bool.not_eq_true'] at tail
  exact tail.1.1.1.1

end Characters

section Names

variable {κ : Type} {name : List Char}

/-- The name of an assignment begins with a letter. -/
theorem reads_assignmentName (reads : Reads (κ := κ) assignmentName name) : ∃ x more, name = x :: more ∧
    foldedLetter x = true := by
  rw [assignmentName, reads_seq] at reads
  obtain ⟨lead, _, rfl, opening, reads⟩ := reads
  obtain ⟨keyword, chars, rfl, isKeyword, _⟩ := reads_seq.mp reads
  rcases reads_alt.mp opening with letter | empty
  · obtain ⟨_, more, rfl, first, _⟩ := reads_seq.mp letter
    obtain ⟨x, rfl, folded⟩ := reads_one.mp first
    exact ⟨x, more ++ (keyword ++ chars), rfl, folded⟩
  · obtain rfl := reads_empty.mp empty
    have spelled : ∀ word : List Char, word ≠ [] → (∀ c ∈ word, 'a' ≤ c ∧ c ≤ 'z') → ∀ text tail : List Char,
        Reads (κ := κ) (folded word) text → ∃ x more, text ++ tail = x :: more ∧ foldedLetter x = true := by
      intro word some_ letters text tail reads
      obtain ⟨first, word, rfl⟩ := List.exists_cons_of_ne_nil some_
      obtain ⟨x, more, same, _, rfl⟩ := List.forall₂_cons_left_iff.mp (reads_folded.mp reads)
      exact ⟨x, more ++ tail, rfl, folds_foldedLetter (letters first List.mem_cons_self) same⟩
    have joined : ∀ first second : List Char, first ≠ [] → (∀ c ∈ first, 'a' ≤ c ∧ c ≤ 'z') →
        Reads (κ := κ) (.seq (folded first) (.seq joint (folded second))) keyword →
          ∃ x more, keyword ++ chars = x :: more ∧ foldedLetter x = true := by
      intro first second some_ letters reads
      obtain ⟨head, tail, rfl, reads, _⟩ := reads_seq.mp reads
      rw [List.append_assoc]
      exact spelled first some_ letters head (tail ++ chars) reads
    simp only [keywords, reads_alt] at isKeyword
    rcases isKeyword with api | access | auth | secret | token | password | credential
    · exact joined _ _ (by decide) (each_of_all (by decide)) api
    · exact joined _ _ (by decide) (each_of_all (by decide)) access
    · exact joined _ _ (by decide) (each_of_all (by decide)) auth
    · exact spelled _ (by decide) (each_of_all (by decide)) keyword chars secret
    · exact spelled _ (by decide) (each_of_all (by decide)) keyword chars token
    · exact spelled _ (by decide) (each_of_all (by decide)) keyword chars password
    · exact spelled _ (by decide) (each_of_all (by decide)) keyword chars credential

theorem assignmentName_simple : (assignmentName (κ := κ)).Simple := by
  have word : ∀ letters : List Char, (folded (κ := κ) letters).Simple := by
    intro letters
    induction letters with
    | nil => exact trivial
    | cons c letters ih => exact ⟨trivial, ih⟩
  have joined : (joint (κ := κ)).Simple := ⟨trivial, trivial⟩
  exact ⟨⟨⟨trivial, trivial⟩, trivial⟩, ⟨⟨word _, joined, word _⟩, ⟨word _, joined, word _⟩, ⟨word _, joined, word _⟩,
    word _, word _, word _, word _⟩, trivial⟩

end Names

section Leads

variable {W : WordClass} {before : Option Char} {rest lead : List Char}

/-- An assignment up to its value. -/
structure AssignmentLead (W : WordClass) (before : Option Char) (lead : List Char) : Prop where
  parts : ∃ name spaces sign gap, lead = name ++ (spaces ++ sign :: gap) ∧ Reads (κ := Part) assignmentName name ∧
    (∀ c ∈ spaces, isWhitespace c = true) ∧ (sign = ':' ∨ sign = '=') ∧ ∀ c ∈ gap, isWhitespace c = true
  apart : before.any W.word ≠ lead.head?.any W.word

/-- A value begins with a character of its own, quotes and brackets among them. -/
theorem reads_assignedValue {value : List Char} (reads : Reads (κ := Part) assignedValue value) :
    ∃ c more, value = c :: more ∧ valueChar c = true := by
  have inQuotes : ∀ quote, valueChar quote = true → Reads (κ := Part) (quoted quote) value →
      ∃ c more, value = c :: more ∧ valueChar c = true := by
    intro quote isValue reads
    obtain ⟨_, more, rfl, first, _⟩ := reads_seq.mp reads
    obtain ⟨c, rfl, same⟩ := reads_one.mp first
    rw [decide_eq_true_eq] at same
    exact ⟨c, more, rfl, same ▸ isValue⟩
  rcases reads_alt.mp reads with double | reads
  · exact inQuotes _ (by decide) double
  rcases reads_alt.mp reads with single | reads
  · exact inQuotes _ (by decide) single
  rcases reads_alt.mp reads with marked | plain
  · obtain ⟨_, more, rfl, first, _⟩ := reads_seq.mp marked
    obtain ⟨c, rfl, same⟩ := reads_one.mp first
    rw [decide_eq_true_eq] at same
    exact ⟨c, more, rfl, same ▸ by decide⟩
  · obtain ⟨_, more, rfl, first, _⟩ := reads_seq.mp plain
    obtain ⟨c, rfl, same⟩ := reads_one.mp first
    exact ⟨c, more, rfl, same⟩

/-- Where an assignment matches. -/
theorem run_assignment : (∃ d, d ∈ run (namedAssignment W) ⟨before, rest, []⟩) ↔
    ∃ lead c more, rest = lead ++ c :: more ∧ AssignmentLead W before lead ∧ valueChar c = true := by
  constructor
  · rintro ⟨d, found⟩
    obtain ⟨_, bounded, found⟩ := mem_run_seq.mp found
    obtain ⟨apart, rfl⟩ := mem_run_boundary.mp bounded
    obtain ⟨_, named, found⟩ := mem_run_seq.mp found
    obtain ⟨inner, nameRun, rfl⟩ := List.mem_map.mp named
    obtain ⟨name, nameReads, nameSplit, _⟩ := run_ends _ _ inner nameRun
    obtain ⟨spaced, spaceRun, found⟩ := mem_run_seq.mp found
    obtain ⟨spaces, spaceReads, spaceSplit, _⟩ := run_ends _ _ spaced spaceRun
    obtain ⟨_, separated, found⟩ := mem_run_seq.mp found
    obtain ⟨_, signRun, rfl⟩ := List.mem_map.mp separated
    obtain ⟨sign, _, signSplit, isSign, rfl⟩ := mem_run_one.mp signRun
    obtain ⟨valued, gapRun, found⟩ := mem_run_seq.mp found
    obtain ⟨gap, gapReads, gapSplit, _⟩ := run_ends _ _ valued gapRun
    obtain ⟨value, valueReads, valueSplit, _⟩ := run_ends _ _ d found
    obtain ⟨c, more, rfl, isValue⟩ := reads_assignedValue valueReads
    obtain ⟨x, tail, rfl, _⟩ := reads_assignmentName nameReads
    dsimp only [Cursor.past] at nameSplit spaceSplit gapSplit apart
    refine ⟨x :: tail ++ (spaces ++ sign :: gap), c, more ++ d.rest, ?_, ⟨⟨x :: tail, spaces, sign, gap, rfl, nameReads,
      reads_many_one.mp spaceReads, by simpa using isSign, reads_many_one.mp gapReads⟩, ?_⟩, isValue⟩
    · rw [nameSplit, spaceSplit, signSplit, gapSplit, valueSplit]
      simp only [List.append_assoc, List.cons_append]
    · rw [nameSplit] at apart
      exact apart
  · rintro ⟨_, c, more, rfl, ⟨⟨name, spaces, sign, gap, rfl, nameReads, spaced, isSign, gapped⟩, apart⟩, isValue⟩
    refine ahead_seq ⟨_, mem_run_boundary.mpr ⟨?_, rfl⟩, rfl⟩ fun c₁ split₁ => ahead_seq
      (ahead_group ⟨_, nameReads.mem_run assignmentName_simple (split₁.trans (List.append_assoc ..)), rfl⟩)
      fun c₂ split₂ => ?_
    · obtain ⟨x, tail, rfl, _⟩ := reads_assignmentName nameReads
      exact apart
    rw [List.append_assoc, List.cons_append] at split₂
    exact ahead_seq (ahead_class split₂ spaced) fun c₃ split₃ =>
      ahead_seq (ahead_group (ahead_one split₃ (by simpa using isSign))) fun c₄ split₄ =>
        ahead_seq (ahead_class split₄ gapped) fun c₅ split₅ =>
          ahead_alt (.inr (ahead_alt (.inr (ahead_alt (.inr (ahead_seq (ahead_one split₅ isValue) fun c₆ split₆ => by
            obtain ⟨d, found, _⟩ := @ahead_class Part c₆ more true valueChar [] split₆ (List.forall_mem_nil _)
            exact ⟨d, found⟩))))))

/-- Name characters, white space and separators, a letter in front. -/
theorem AssignmentLead.chars (led : AssignmentLead W before lead) : (∃ x more, lead = x :: more ∧ foldedLetter x = true) ∧
    ∀ c ∈ lead, nameChar c = true ∨ isWhitespace c = true ∨ c = ':' ∨ c = '=' := by
  obtain ⟨name, spaces, sign, gap, rfl, reads, spaced, isSign, gapped⟩ := led.parts
  obtain ⟨x, more, rfl, letter⟩ := reads_assignmentName reads
  refine ⟨⟨x, _, rfl, letter⟩, List.forall_mem_append.mpr ⟨fun c held => .inl (reads.only assignmentName_only c held),
    List.forall_mem_append.mpr ⟨fun c held => .inr (.inl (spaced c held)), List.forall_mem_cons.mpr ⟨?_, ?_⟩⟩⟩⟩
  · exact .inr (.inr isSign)
  · exact fun c held => .inr (.inl (gapped c held))

theorem AssignmentLead.unbracketed (led : AssignmentLead W before lead) : '[' ∉ lead ∧ ']' ∉ lead := by
  refine ⟨fun held => ?_, fun held => ?_⟩
  all_goals
    have kinds := led.chars.2 _ held
    revert kinds
    decide

/-- Behind its separator stands white space only. -/
theorem AssignmentLead.signed {early late : List Char} (led : AssignmentLead W before (early ++ late))
    (unsigned : ∀ c ∈ late, c ≠ ':' ∧ c ≠ '=') : ∀ c ∈ late, isWhitespace c = true := by
  obtain ⟨name, spaces, sign, gap, whole, _, _, isSign, gapped⟩ := led.parts
  have whole : early ++ late = (name ++ spaces) ++ sign :: gap := by
    rw [whole, List.append_assoc]
  rcases List.append_eq_append_iff.mp whole with ⟨extra, _, split⟩ | ⟨extra, _, split⟩
  · refine absurd ?_ (not_or.mpr (unsigned sign ?_))
    · exact isSign
    · rw [split]
      exact List.mem_append_right _ List.mem_cons_self
  · cases extra with
    | nil =>
        refine absurd isSign (not_or.mpr (unsigned sign ?_))
        rw [List.nil_append] at split
        rw [← split]
        exact List.mem_cons_self
    | cons y extra =>
        obtain ⟨_, rfl⟩ := List.cons.inj split
        exact fun c held => gapped c (List.mem_append_right _ held)

/-- Where a name character and a separator end it, a name stands in front of that separator. -/
theorem AssignmentLead.closed {front : List Char} {x sign : Char} (led : AssignmentLead W before (front ++ [x] ++ [sign]))
    (name : nameChar x = true) (isSign : sign = ':' ∨ sign = '=') : ∀ c ∈ front ++ [x], nameChar c = true := by
  obtain ⟨first, spaces, last, gap, whole, reads, spaced, _, gapped⟩ := led.parts
  have ends : gap = [] := by
    rcases List.eq_nil_or_concat gap with empty | ⟨gap, z, rfl⟩
    · exact empty
    · have shape : front ++ [x] ++ [sign] = (first ++ (spaces ++ last :: gap)) ++ [z] := by
        rw [whole, List.concat_eq_append]
        simp only [List.append_assoc, List.cons_append]
      obtain ⟨_, same⟩ := List.append_inj' shape rfl
      have white : isWhitespace sign = true := by
        rw [List.singleton_inj.mp same]
        exact gapped z (by rw [List.concat_eq_append]; exact List.mem_append_right _ (List.mem_singleton_self _))
      have dense : isWhitespace sign = false := by
        rcases isSign with rfl | rfl <;> decide
      exact absurd (dense.symm.trans white) Bool.false_ne_true
  rw [ends, ← List.append_assoc] at whole
  obtain ⟨shape, _⟩ := List.append_inj' whole rfl
  rcases List.eq_nil_or_concat spaces with rfl | ⟨spaces, z, rfl⟩
  · rw [List.append_nil] at shape
    rw [shape]
    exact reads.only assignmentName_only
  · rw [List.concat_eq_append, ← List.append_assoc] at shape
    obtain ⟨_, same⟩ := List.append_inj' shape rfl
    obtain rfl := List.singleton_inj.mp same
    have white := spaced x (by rw [List.concat_eq_append]; exact List.mem_append_right _ (List.mem_singleton_self _))
    exact absurd ((dense_nameChar name).symm.trans white) Bool.false_ne_true

/-- A bearer token up to its value. -/
structure BearerLead (W : WordClass) (before : Option Char) (lead : List Char) : Prop where
  parts : ∃ word space spaces, lead = word ++ space :: spaces ∧
    List.Forall₂ (fun expected c => folds expected c = true) "bearer".toList word ∧ isWhitespace space = true ∧
    ∀ c ∈ spaces, isWhitespace c = true
  apart : before.any W.word ≠ lead.head?.any W.word

/-- What may stand behind it: a character of a token, or a quote that is closed later. -/
def TokenStart (c : Char) (more : List Char) : Prop := bearerChar c = true ∨ (c = '"' ∨ c = '\'') ∧ c ∈ more

theorem folded_back {word key : List Char} (spelled : List.Forall₂ (fun expected c => folds expected c = true) word key)
    {c : Char} (held : c ∈ key) : ∃ expected ∈ word, folds expected c = true := by
  induction spelled with
  | nil => cases held
  | cons here _ ih =>
      rcases List.mem_cons.mp held with rfl | later
      · exact ⟨_, List.mem_cons_self, here⟩
      · obtain ⟨expected, listed, same⟩ := ih later
        exact ⟨expected, List.mem_cons_of_mem _ listed, same⟩

theorem BearerLead.chars (led : BearerLead W before lead) : ∃ x more, lead = x :: more ∧ (x = 'b' ∨ x = 'B') ∧
    5 < more.length ∧ ∀ c ∈ more, c ≠ 'B' ∧ c ≠ '[' := by
  obtain ⟨word, space, spaces, rfl, spelled, white, all⟩ := led.parts
  have letters : "bearer".toList = 'b' :: "earer".toList := by decide
  rw [letters] at spelled
  obtain ⟨x, more, first, others, rfl⟩ := List.forall₂_cons_left_iff.mp spelled
  have count := others.length_eq
  refine ⟨x, more ++ space :: spaces, rfl, folds_b first, ?_, List.forall_mem_append.mpr ⟨fun c held => ?_, ?_⟩⟩
  · rw [List.length_append, List.length_cons, ← count]
    have five : "earer".toList.length = 5 := by decide
    omega
  · obtain ⟨expected, listed, same⟩ := folded_back others held
    have apart : ∀ expected ∈ "earer".toList, folds expected 'B' = false ∧ folds expected '[' = false :=
      each_of_all (by decide)
    obtain ⟨capital, bracket⟩ := apart expected listed
    constructor
    · rintro rfl
      exact Bool.false_ne_true (capital.symm.trans same)
    · rintro rfl
      exact Bool.false_ne_true (bracket.symm.trans same)
  · have dense : ∀ c, isWhitespace c = true → c ≠ 'B' ∧ c ≠ '[' := by
      intro c white
      constructor
      · rintro rfl
        exact absurd white (by decide)
      · rintro rfl
        exact absurd white (by decide)
    exact List.forall_mem_cons.mpr ⟨dense space white, fun c held => dense c (all c held)⟩

theorem ahead_folded {word letters rest : List Char} {c : Cursor Part} (split : c.rest = letters ++ rest)
    (spelled : List.Forall₂ (fun expected c => folds expected c = true) word letters) :
    ∃ d ∈ run (folded word) c, d.rest = rest := by
  have simple : (folded (κ := Part) word).Simple := by
    clear spelled
    induction word with
    | nil => exact trivial
    | cons c word ih => exact ⟨trivial, ih⟩
  exact ⟨_, (reads_folded.mpr spelled).mem_run simple split, rfl⟩

/-- A quoted text goes up to the next quote at the least. -/
theorem ahead_quoted {quote : Char} {more : List Char} {c : Cursor Part} (split : c.rest = quote :: more)
    (closed : quote ∈ more) : ∃ d, d ∈ run (quoted quote) c := by
  obtain ⟨inside, after, rfl, clear⟩ := List.eq_append_cons_of_mem closed
  refine ahead_seq (ahead_one split (decide_eq_true rfl)) fun c₁ split₁ => ahead_seq
    ⟨_, mem_run_each split₁ fun x held c rest split => ?_, rfl⟩ fun c₂ split₂ => ?_
  · refine List.mem_append_right _ (mem_run_one.mpr ⟨x, rest, split, decide_eq_true ?_, rfl⟩)
    rintro rfl
    exact clear held
  · obtain ⟨d, found, _⟩ := @ahead_one Part c₂ after (fun c => c = quote) quote split₂ (decide_eq_true rfl)
    exact ⟨d, found⟩

theorem reads_closed {quote : Char} {text : List Char} (reads : Reads (κ := Part) (quoted quote) text) :
    ∃ more, text = quote :: more ∧ quote ∈ more := by
  obtain ⟨_, _, rfl, opening, readsRest⟩ := reads_seq.mp reads
  obtain ⟨inside, _, rfl, _, closing⟩ := reads_seq.mp readsRest
  obtain ⟨c, rfl, same⟩ := reads_one.mp opening
  obtain ⟨e, rfl, last⟩ := reads_one.mp closing
  rw [decide_eq_true_eq] at same last
  subst same last
  exact ⟨inside ++ [e], rfl, List.mem_append_right _ (List.mem_singleton_self _)⟩

/-- Where a bearer token matches. -/
theorem run_bearer : (∃ d, d ∈ run (bearerToken W) ⟨before, rest, []⟩) ↔
    ∃ lead c more, rest = lead ++ c :: more ∧ BearerLead W before lead ∧ TokenStart c more := by
  constructor
  · rintro ⟨d, found⟩
    obtain ⟨_, bounded, found⟩ := mem_run_seq.mp found
    obtain ⟨apart, rfl⟩ := mem_run_boundary.mp bounded
    obtain ⟨spelt, wordRun, found⟩ := mem_run_seq.mp found
    obtain ⟨word, wordReads, wordSplit, _⟩ := run_ends _ _ spelt wordRun
    obtain ⟨_, spaceRun, found⟩ := mem_run_seq.mp found
    obtain ⟨space, _, spaceSplit, white, rfl⟩ := mem_run_one.mp spaceRun
    obtain ⟨spaced, spacesRun, found⟩ := mem_run_seq.mp found
    obtain ⟨spaces, spacesRead, spacesSplit, _⟩ := run_ends _ _ spaced spacesRun
    obtain ⟨value, valueReads, valueSplit, _⟩ := run_ends _ _ d found
    have spelled := reads_folded.mp wordReads
    obtain ⟨c, more, rfl, start⟩ : ∃ c more, value = c :: more ∧ (bearerChar c = true ∨ (c = '"' ∨ c = '\'') ∧ c ∈ more) := by
      rcases reads_alt.mp valueReads with double | valueReads
      · obtain ⟨more, rfl, closed⟩ := reads_closed double
        exact ⟨_, more, rfl, .inr ⟨.inl rfl, closed⟩⟩
      rcases reads_alt.mp valueReads with single | plain
      · obtain ⟨more, rfl, closed⟩ := reads_closed single
        exact ⟨_, more, rfl, .inr ⟨.inr rfl, closed⟩⟩
      · obtain ⟨_, more, rfl, first, _⟩ := reads_seq.mp plain
        obtain ⟨c, rfl, token⟩ := reads_one.mp first
        exact ⟨c, more, rfl, .inl token⟩
    dsimp only [Cursor.past] at wordSplit spacesSplit apart
    refine ⟨word ++ space :: spaces, c, more ++ d.rest, ?_, ⟨⟨word, space, spaces, rfl, spelled, white,
      reads_many_one.mp spacesRead⟩, ?_⟩, start.imp_right fun both => ⟨both.1, List.mem_append_left _ both.2⟩⟩
    · rw [wordSplit, spaceSplit, spacesSplit, valueSplit]
      simp only [List.append_assoc, List.cons_append]
    · have letters : "bearer".toList = 'b' :: "earer".toList := by decide
      rw [letters] at spelled
      obtain ⟨x, tail, _, _, rfl⟩ := List.forall₂_cons_left_iff.mp spelled
      rw [wordSplit] at apart
      exact apart
  · rintro ⟨_, c, more, rfl, ⟨⟨word, space, spaces, rfl, spelled, white, all⟩, apart⟩, start⟩
    refine ahead_seq ⟨_, mem_run_boundary.mpr ⟨?_, rfl⟩, rfl⟩ fun c₁ split₁ =>
      ahead_seq (ahead_folded (split₁.trans (List.append_assoc ..)) spelled) fun c₂ split₂ =>
        ahead_seq (ahead_one split₂ white) fun c₃ split₃ => ahead_seq (ahead_class split₃ all) fun c₄ split₄ => ?_
    · have letters : "bearer".toList = 'b' :: "earer".toList := by decide
      rw [letters] at spelled
      obtain ⟨x, tail, _, _, rfl⟩ := List.forall₂_cons_left_iff.mp spelled
      exact apart
    · rcases start with token | ⟨rfl | rfl, closed⟩
      · exact ahead_alt (.inr (ahead_alt (.inr (ahead_seq (ahead_one split₄ token) fun c₅ split₅ => by
          obtain ⟨d, found, _⟩ := @ahead_class Part c₅ more true bearerChar [] split₅ (List.forall_mem_nil _)
          exact ⟨d, found⟩))))
      · exact ahead_alt (.inl (ahead_quoted split₄ closed))
      · exact ahead_alt (.inr (ahead_alt (.inl (ahead_quoted split₄ closed))))

end Leads

end LatteCode
