import LatteCode.Lib.Regex
import LatteCode.Core.Redaction
/- The three secret patterns, and the redactor that replaces what they match. -/

namespace LatteCode
open Regex

/-- A check of each element in turn; over `Char` the instance for finite types would go through all of it. -/
theorem each_of_all {α : Type} {p : α → Prop} [DecidablePred p] {list : List α}
    (all : list.all (fun x => decide (p x)) = true) : ∀ x ∈ list, p x :=
  fun x held => of_decide_eq_true (List.all_eq_true.mp all x held)

/-- Letters, digits and the underscore of ASCII. -/
def asciiWord (c : Char) : Bool :=
  ('a' ≤ c && c ≤ 'z') || ('A' ≤ c && c ≤ 'Z') || ('0' ≤ c && c ≤ '9') || c = '_'

/-- `\w`: on ASCII as above, beyond it by the Unicode tables. -/
structure WordClass where
  word : Char → Bool
  ascii : ∀ c : Char, c.val < 128 → word c = asciiWord c

/-- The word characters of ASCII only. -/
def asciiClass : WordClass := ⟨asciiWord, fun _ _ => rfl⟩

/-- Case-insensitive comparison with a lowercase ASCII letter, by simple case folding. -/
def folds (lower c : Char) : Bool :=
  c.toLower = lower || (lower = 's' && c = 'ſ') || (lower = 'k' && c = 'K')

/-- `[a-z]` under `(?i)`. -/
def foldedLetter (c : Char) : Bool := ('a' ≤ c.toLower && c.toLower ≤ 'z') || c = 'ſ' || c = 'K'

/-- `[a-z0-9_-]` under `(?i)`. -/
def nameChar (c : Char) : Bool := foldedLetter c || ('0' ≤ c && c ≤ '9') || c = '_' || c = '-'

/-- `[A-Za-z0-9_-]`. -/
def keyChar (c : Char) : Bool := asciiWord c || c = '-'

/-- The groups of the assignment pattern. -/
inductive Part where
  | name
  | separator
deriving DecidableEq

section Patterns

variable {κ : Type}

def char (expected : Char) : Pattern κ := .one fun c => c = expected

/-- A literal text under `(?i)`. -/
def folded : List Char → Pattern κ
  | [] => .empty
  | lower :: rest => .seq (.one (folds lower)) (folded rest)

def optional (p : Pattern κ) : Pattern κ := .alt p .empty

def times (count : Nat) (p : Pattern κ) : Pattern κ :=
  match count with
  | 0 => .empty
  | count + 1 => .seq p (times count p)

/-- A quoted text with escapes: `"(?:\\.|[^"])*"`. -/
def quoted (quote : Char) : Pattern κ :=
  .seq (char quote) (.seq (.many true (.alt (.seq (char '\\') (.one fun c => c ≠ '\n')) (.one fun c => c ≠ quote)))
    (char quote))

/-- `[_-]?`. -/
def joint : Pattern κ := optional (.one fun c => c = '_' || c = '-')

def keywords : Pattern κ :=
  .alt (.seq (folded "api".toList) (.seq joint (folded "key".toList)))
    (.alt (.seq (folded "access".toList) (.seq joint (folded "token".toList)))
      (.alt (.seq (folded "auth".toList) (.seq joint (folded "token".toList)))
        (.alt (folded "secret".toList) (.alt (folded "token".toList)
          (.alt (folded "password".toList) (folded "credential".toList))))))

/-- `[^\s,;\)\}]`. -/
def tailChar (c : Char) : Bool := !isWhitespace c && c ≠ ',' && c ≠ ';' && c ≠ ')' && c ≠ '}'

/-- The value of an assignment: quoted, redacted already, or up to the next delimiter. -/
def assignedValue : Pattern κ :=
  .alt (quoted '"') (.alt (quoted '\'')
    (.alt (.seq (char '[') (.seq (folded "redacted".toList) (.seq (char ']') (.many true (.one tailChar)))))
      (.seq (.one fun c => tailChar c && c ≠ ']') (.many true (.one fun c => tailChar c && c ≠ ']')))))

def assignmentName : Pattern κ :=
  .seq (optional (.seq (.one foldedLetter) (.many false (.one nameChar))))
    (.seq keywords (.many true (.one nameChar)))

variable (W : WordClass)

/-- `NAMED_ASSIGNMENT`. -/
def namedAssignment : Pattern Part :=
  .seq (.boundary W.word) (.seq (.group .name assignmentName) (.seq (.many true (.one isWhitespace))
    (.seq (.group .separator (.one fun c => c = ':' || c = '=')) (.seq (.many true (.one isWhitespace))
      assignedValue))))

/-- `[A-Za-z0-9._~+/=-]` under `(?i)`. -/
def bearerChar (c : Char) : Bool :=
  foldedLetter c || ('0' ≤ c && c ≤ '9') || c = '.' || c = '_' || c = '~' || c = '+' || c = '/' || c = '=' || c = '-'

/-- `BEARER`. -/
def bearerToken : Pattern Part :=
  .seq (.boundary W.word) (.seq (folded "bearer".toList) (.seq (.one isWhitespace) (.seq
    (.many true (.one isWhitespace)) (.alt (quoted '"') (.alt (quoted '\'')
      (.seq (.one bearerChar) (.many true (.one bearerChar))))))))

/-- `OPENAI_KEY`: `\bsk-[A-Za-z0-9_-]{6,}\b`. -/
def openaiKey : Pattern Part :=
  .seq (.boundary W.word) (.seq (char 's') (.seq (char 'k') (.seq (char '-') (.seq (times 6 (.one keyChar))
    (.seq (.many true (.one keyChar)) (.boundary W.word))))))

end Patterns

section Readings

variable {κ : Type} {text : List Char} {W : WordClass}

theorem reads_folded {lower : List Char} : Reads (κ := κ) (folded lower) text ↔
    List.Forall₂ (fun expected c => folds expected c = true) lower text := by
  induction lower generalizing text with
  | nil =>
      rw [folded, reads_empty, List.forall₂_nil_left_iff]
  | cons expected lower ih =>
      rw [folded, reads_seq]
      constructor
      · rintro ⟨_, tail, rfl, first, rest⟩
        obtain ⟨x, rfl, accepted⟩ := reads_one.mp first
        exact .cons accepted (ih.mp rest)
      · intro all
        obtain ⟨x, tail, accepted, rest, rfl⟩ := List.forall₂_cons_left_iff.mp all
        exact ⟨[x], tail, rfl, .one accepted, ih.mpr rest⟩

/-- The words that make a name a secret's. -/
def secretWords : List (List Char) :=
  ["key".toList, "token".toList, "secret".toList, "password".toList, "credential".toList]

/-- A keyword ends with one of the words. -/
theorem keywords_word (read : Reads (κ := κ) keywords text) : ∃ word ∈ secretWords, ∃ head tail,
    text = head ++ tail ∧ List.Forall₂ (fun expected c => folds expected c = true) word tail := by
  have joined : ∀ first word : List Char, word ∈ secretWords →
      Reads (κ := κ) (.seq (folded first) (.seq joint (folded word))) text →
        ∃ word ∈ secretWords, ∃ head tail, text = head ++ tail ∧
          List.Forall₂ (fun expected c => folds expected c = true) word tail := by
    intro first word listed reads
    obtain ⟨head, _, rfl, _, reads⟩ := reads_seq.mp reads
    obtain ⟨middle, tail, rfl, _, reads⟩ := reads_seq.mp reads
    exact ⟨word, listed, head ++ middle, tail, (List.append_assoc ..).symm, reads_folded.mp reads⟩
  have plain : ∀ word : List Char, word ∈ secretWords → Reads (κ := κ) (folded word) text →
      ∃ word ∈ secretWords, ∃ head tail, text = head ++ tail ∧
        List.Forall₂ (fun expected c => folds expected c = true) word tail :=
    fun word listed reads => ⟨word, listed, [], text, rfl, reads_folded.mp reads⟩
  simp only [keywords, reads_alt] at read
  rcases read with api | access | auth | secret | token | password | credential
  · exact joined _ _ (by decide) api
  · exact joined _ _ (by decide) access
  · exact joined _ _ (by decide) auth
  · exact plain _ (by decide) secret
  · exact plain _ (by decide) token
  · exact plain _ (by decide) password
  · exact plain _ (by decide) credential

/-- An assignment has a secret word, further characters of a name and a separator in a row. -/
theorem namedAssignment_parts (read : Reads (namedAssignment W) text) :
    ∃ word ∈ secretWords, ∃ head key chars spaces separator value,
      text = head ++ (key ++ chars ++ spaces ++ separator :: value) ∧
        List.Forall₂ (fun expected c => folds expected c = true) word key ∧
        (∀ c ∈ chars, nameChar c = true) ∧ (∀ c ∈ spaces, isWhitespace c = true) ∧
        (separator = ':' ∨ separator = '=') := by
  rw [namedAssignment, reads_seq] at read
  obtain ⟨start, _, rfl, bounded, read⟩ := read
  rw [reads_boundary] at bounded
  rw [reads_seq] at read
  obtain ⟨name, _, rfl, named, read⟩ := read
  rw [reads_seq] at read
  obtain ⟨spaces, _, rfl, spaced, read⟩ := read
  rw [reads_seq] at read
  obtain ⟨_, value, rfl, separated, _⟩ := read
  rw [reads_group, reads_one] at separated
  obtain ⟨c, rfl, isSeparator⟩ := separated
  rw [reads_group, assignmentName, reads_seq] at named
  obtain ⟨lead, _, rfl, _, named⟩ := named
  rw [reads_seq] at named
  obtain ⟨keyword, chars, rfl, isKeyword, tail⟩ := named
  obtain ⟨word, listed, head, key, rfl, reads⟩ := keywords_word isKeyword
  refine ⟨word, listed, lead ++ head, key, chars, spaces, c, value, ?_, reads, reads_many_one.mp tail,
    reads_many_one.mp spaced, by simpa using isSeparator⟩
  rw [bounded]
  simp only [List.nil_append, List.append_assoc, List.singleton_append]

/-- A bearer token stands behind white space. -/
theorem bearerToken_space (read : Reads (bearerToken W) text) : ∃ c ∈ text, isWhitespace c = true := by
  rw [bearerToken, reads_seq] at read
  obtain ⟨start, _, rfl, _, read⟩ := read
  rw [reads_seq] at read
  obtain ⟨bearer, _, rfl, _, read⟩ := read
  rw [reads_seq] at read
  obtain ⟨_, rest, rfl, space, _⟩ := read
  obtain ⟨c, rfl, white⟩ := reads_one.mp space
  exact ⟨c, by simp, white⟩

theorem reads_times {count : Nat} {accepts : Char → Bool} : Reads (κ := κ) (times count (.one accepts)) text ↔
    text.length = count ∧ ∀ c ∈ text, accepts c = true := by
  induction count generalizing text with
  | zero =>
      rw [times, reads_empty, List.length_eq_zero_iff]
      constructor
      · rintro rfl
        exact ⟨rfl, fun _ held => nomatch held⟩
      · exact fun both => both.1
  | succ count ih =>
      rw [times, reads_seq]
      constructor
      · rintro ⟨_, tail, rfl, first, rest⟩
        obtain ⟨x, rfl, accepted⟩ := reads_one.mp first
        obtain ⟨length, all⟩ := ih.mp rest
        exact ⟨by rw [List.singleton_append, List.length_cons, length], List.forall_mem_cons.mpr ⟨accepted, all⟩⟩
      · rintro ⟨length, all⟩
        cases text with
        | nil => cases length
        | cons x tail =>
            obtain ⟨accepted, rest⟩ := List.forall_mem_cons.mp all
            exact ⟨[x], tail, rfl, .one accepted, ih.mpr ⟨Nat.succ.inj length, rest⟩⟩

theorem mem_run_times {accepts : Char → Bool} {taken rest : List Char} {c : Cursor κ} (split : c.rest = taken ++ rest)
    (accepted : ∀ x ∈ taken, accepts x = true) : c.past taken rest ∈ run (times taken.length (.one accepts)) c := by
  induction taken generalizing c with
  | nil =>
      obtain ⟨before, _, captures⟩ := c
      cases split
      exact List.mem_singleton_self _
  | cons x taken ih =>
      obtain ⟨first, others⟩ := List.forall_mem_cons.mp accepted
      refine mem_run_seq.mpr ⟨c.past [x] (taken ++ rest), mem_run_one.mpr ⟨x, _, split, first, rfl⟩, ?_⟩
      have later := @ih (c.past [x] (taken ++ rest)) rfl others
      have same : (c.past [x] (taken ++ rest)).past taken rest = c.past (x :: taken) rest := by
        rw [Cursor.past, Cursor.past, Cursor.past, getLast?_past]
        rfl
      rwa [same] at later

/-- A key ends at a place where, from a word boundary on, `sk-` and at least six characters reach another boundary. -/
theorem run_openaiKey {c : Cursor Part} {rest : List Char} : (∃ d ∈ run (openaiKey W) c, d.rest = rest) ↔
    ∃ body, c.rest = 's' :: 'k' :: '-' :: (body ++ rest) ∧ c.before.any W.word = false ∧ 6 ≤ body.length ∧
      (∀ x ∈ body, keyChar x = true) ∧ body.getLast?.any W.word ≠ rest.head?.any W.word := by
  have letter : W.word 's' = true := (W.ascii 's' (by decide)).trans (by decide)
  constructor
  · rintro ⟨d, found, rfl⟩
    obtain ⟨_, start, found₁⟩ := mem_run_seq.mp found
    obtain ⟨bounded, here⟩ := mem_run_boundary.mp start
    rw [here] at found₁
    obtain ⟨_, first, found₂⟩ := mem_run_seq.mp found₁
    obtain ⟨_, _, text₁, isS, rfl⟩ := mem_run_one.mp first
    obtain ⟨_, second, found₃⟩ := mem_run_seq.mp found₂
    obtain ⟨_, _, text₂, isK, rfl⟩ := mem_run_one.mp second
    obtain ⟨_, third, found₄⟩ := mem_run_seq.mp found₃
    obtain ⟨_, _, text₃, isDash, rfl⟩ := mem_run_one.mp third
    obtain ⟨middle, six, found₅⟩ := mem_run_seq.mp found₄
    obtain ⟨last, more, stop⟩ := mem_run_seq.mp found₅
    obtain ⟨stopped, rfl⟩ := mem_run_boundary.mp stop
    obtain ⟨body, reads, text₄, before⟩ := run_ends _ _ _ six
    obtain ⟨tail, readsTail, text₅, beforeTail⟩ := run_ends _ _ _ more
    obtain ⟨length, keys⟩ := reads_times.mp reads
    have keysTail := reads_many_one.mp readsTail
    rw [decide_eq_true_eq] at isS isK isDash
    subst isS isK isDash
    have whole : c.rest = 's' :: 'k' :: '-' :: (body ++ tail ++ d.rest) := by
      dsimp only [Cursor.past] at text₂ text₃ text₄
      rw [text₁, text₂, text₃, text₄, text₅, List.append_assoc]
    have inhabited : (body ++ tail).getLast?.isSome = true := by
      rw [List.getLast?_isSome]
      exact List.append_ne_nil_of_left_ne_nil (List.ne_nil_of_length_pos (by omega)) tail
    refine ⟨body ++ tail, whole, ?_, ?_, ?_, ?_⟩
    · rw [whole, List.head?_cons, Option.any_some, letter] at bounded
      exact Bool.eq_false_iff.mpr bounded
    · rw [List.length_append]
      omega
    · intro x held
      rcases List.mem_append.mp held with early | late
      · exact keys x early
      · exact keysTail x late
    · rw [beforeTail, before, getLast?_past] at stopped
      obtain ⟨final, isFinal⟩ := Option.isSome_iff_exists.mp inhabited
      rw [isFinal] at stopped ⊢
      exact stopped
  · rintro ⟨body, ahead, bounded, long, keys, stopped⟩
    -- six characters by count, the others of the body by the repetition
    have six : body.take 6 ++ (body.drop 6 ++ rest) = body ++ rest := by
      rw [← List.append_assoc, List.take_append_drop]
    have split : (body.take 6).length = 6 := List.length_take_of_le long
    have early : ∀ x ∈ body.take 6, keyChar x = true := fun x held => keys x (List.mem_of_mem_take held)
    have late : ∀ x ∈ body.drop 6, keyChar x = true := fun x held => keys x (List.mem_of_mem_drop held)
    have counted := @mem_run_times Part _ (body.take 6) (body.drop 6 ++ rest)
      (((c.past ['s'] ('k' :: '-' :: (body ++ rest))).past ['k'] ('-' :: (body ++ rest))).past ['-'] (body ++ rest))
      six.symm early
    rw [split] at counted
    refine ⟨_, mem_run_seq.mpr ⟨c, mem_run_boundary.mpr ⟨?_, rfl⟩, mem_run_seq.mpr ⟨_, mem_run_one.mpr
      ⟨'s', _, ahead, rfl, rfl⟩, mem_run_seq.mpr ⟨_, mem_run_one.mpr ⟨'k', _, rfl, rfl, rfl⟩,
      mem_run_seq.mpr ⟨_, mem_run_one.mpr ⟨'-', _, rfl, rfl, rfl⟩, mem_run_seq.mpr ⟨_, counted,
      mem_run_seq.mpr ⟨_, mem_run_class rfl late, mem_run_boundary.mpr ⟨?_, rfl⟩⟩⟩⟩⟩⟩⟩, rfl⟩
    · rw [ahead, bounded, List.head?_cons, Option.any_some, letter]
      exact Bool.false_ne_true
    · obtain ⟨final, isFinal⟩ : ∃ final, body.getLast? = some final :=
        Option.isSome_iff_exists.mp (List.getLast?_isSome.mpr (List.ne_nil_of_length_pos (by omega)))
      simp only [Cursor.past, getLast?_past, List.append_assoc, List.take_append_drop]
      rw [List.getLast?_append, List.getLast?_append, List.getLast?_append, isFinal]
      rw [isFinal] at stopped
      exact stopped

/-- A key is found where, at a word boundary, `sk-` and at least six characters reach another boundary. -/
theorem foundFrom_openaiKey {before : Option Char} : FoundFrom (openaiKey W) before text ↔ ∃ passed body rest,
    text = passed ++ 's' :: 'k' :: '-' :: (body ++ rest) ∧ (passed.getLast?.or before).any W.word = false ∧
      6 ≤ body.length ∧ (∀ x ∈ body, keyChar x = true) ∧ body.getLast?.any W.word ≠ rest.head?.any W.word := by
  constructor
  · rintro ⟨passed, left, rfl, d, found, _⟩
    obtain ⟨body, ahead, bounded, long, keys, stopped⟩ := run_openaiKey.mp ⟨d, found, rfl⟩
    exact ⟨passed, body, d.rest, congrArg (passed ++ ·) ahead, bounded, long, keys, stopped⟩
  · rintro ⟨passed, body, rest, rfl, bounded, long, keys, stopped⟩
    obtain ⟨d, found, rfl⟩ := (@run_openaiKey W ⟨passed.getLast?.or before, _, []⟩ rest).mpr
      ⟨body, rfl, bounded, long, keys, stopped⟩
    refine ⟨passed, _, rfl, d, found, ?_⟩
    simp only [List.length_cons, List.length_append]
    omega

/-- Only whether the character before is a word character matters. -/
theorem foundFrom_openaiKey_congr {before seen : Option Char} (same : before.any W.word = seen.any W.word) :
    FoundFrom (openaiKey W) before text ↔ FoundFrom (openaiKey W) seen text := by
  have agree : ∀ passed : List Char, (passed.getLast?.or before).any W.word = (passed.getLast?.or seen).any W.word := by
    intro passed
    cases passed.getLast? with
    | none => exact same
    | some _ => rfl
  simp only [foundFrom_openaiKey, agree]

end Readings

section KeyTexts

variable {W : WordClass} {text : List Char}

theorem word_keyChar {c : Char} (key : keyChar c = true) : W.word c = decide (c ≠ '-') := by
  rw [keyChar, Bool.or_eq_true, decide_eq_true_eq] at key
  rcases key with word | rfl
  · have apart : c ≠ '-' := by
      rintro rfl
      exact absurd word (by decide)
    have small : c.val < 128 := by
      simp only [asciiWord, Bool.or_eq_true, Bool.and_eq_true, decide_eq_true_eq, Char.le_def,
        UInt32.le_iff_toNat_le] at word
      rw [UInt32.lt_iff_toNat_lt]
      rcases word with ((⟨_, high⟩ | ⟨_, high⟩) | ⟨_, high⟩) | rfl
      · exact Nat.lt_of_le_of_lt high (by decide)
      · exact Nat.lt_of_le_of_lt high (by decide)
      · exact Nat.lt_of_le_of_lt high (by decide)
      · decide
    rw [W.ascii c small, word, decide_eq_true apart]
  · rw [W.ascii '-' (by decide)]
    decide

/-- The last element with a property. -/
theorem exists_last {α : Type} {p : α → Prop} {list : List α} (some_ : ∃ x ∈ list, p x) :
    ∃ front x back, list = front ++ x :: back ∧ p x ∧ ∀ y ∈ back, ¬ p y := by
  induction list with
  | nil => exact absurd some_ fun ⟨_, held, _⟩ => nomatch held
  | cons x list ih =>
      by_cases later : ∃ y ∈ list, p y
      · obtain ⟨front, y, back, rfl, held, clear⟩ := ih later
        exact ⟨x :: front, y, back, rfl, held, clear⟩
      · obtain ⟨y, listed, held⟩ := some_
        rcases List.mem_cons.mp listed with rfl | inside
        · exact ⟨[], y, list, rfl, held, fun z inside bad => later ⟨z, inside, bad⟩⟩
        · exact absurd ⟨y, inside, held⟩ later

theorem hyphen_apart : W.word '-' = false := by
  rw [W.ascii '-' (by decide)]
  decide

/-- Where a match stops, a word character has come no earlier than sixth. -/
theorem key_reaches {body rest : List Char} (keys : ∀ c ∈ body, keyChar c = true) (long : 6 ≤ body.length)
    (stopped : body.getLast?.any W.word ≠ rest.head?.any W.word) : ∃ clean c tail, body ++ rest = clean ++ c :: tail ∧
      5 ≤ clean.length ∧ (∀ x ∈ clean, keyChar x = true) ∧ W.word c = true := by
  obtain ⟨front, final, rfl⟩ : ∃ front final, body = front ++ [final] :=
    ⟨body.dropLast, _, (List.dropLast_append_getLast (List.ne_nil_of_length_pos (by omega))).symm⟩
  rw [List.length_append, List.length_singleton] at long
  cases letter : W.word final with
  | true =>
      refine ⟨front, final, rest, ?_, by omega, fun x held => keys x (List.mem_append_left _ held), letter⟩
      rw [List.append_assoc, List.singleton_append]
  | false =>
      rw [List.getLast?_append, List.getLast?_singleton, Option.some_or, Option.any_some, letter] at stopped
      cases rest with
      | nil => exact absurd rfl stopped
      | cons y rest =>
          refine ⟨front ++ [final], y, rest, rfl, ?_, keys, ?_⟩
          · rw [List.length_append]
            omega
          · exact Bool.of_not_eq_false fun same => stopped same.symm

theorem mem_drop_of_split {α : Type} {count : Nat} {clean tail : List α} (enough : count ≤ clean.length) (c : α) :
    c ∈ (clean ++ c :: tail).drop count := by
  rw [List.drop_append_of_le_length enough]
  exact List.mem_append_right _ List.mem_cons_self

/-- Among key characters a match can end when one from the sixth on is no hyphen. -/
theorem key_ends (keys : ∀ c ∈ text, keyChar c = true) :
    (∃ body rest, text = body ++ rest ∧ 6 ≤ body.length ∧ body.getLast?.any W.word ≠ rest.head?.any W.word) ↔
      ∃ c ∈ text.drop 5, c ≠ '-' := by
  constructor
  · rintro ⟨body, rest, rfl, long, stopped⟩
    obtain ⟨clean, c, tail, split, enough, _, letter⟩ :=
      key_reaches (fun x held => keys x (List.mem_append_left _ held)) long stopped
    refine ⟨c, split ▸ mem_drop_of_split enough c, ?_⟩
    rintro rfl
    exact Bool.false_ne_true (hyphen_apart.symm.trans letter)
  · intro held
    obtain ⟨front, final, back, split, apart, dashes⟩ := exists_last held
    have whole : text = text.take 5 ++ (front ++ final :: back) := by rw [← split, List.take_append_drop]
    have enough : 5 ≤ text.length := by
      have inhabited := congrArg List.length split
      rw [List.length_drop, List.length_append, List.length_cons] at inhabited
      omega
    have letter : W.word final = true := by
      rw [word_keyChar (keys final (by rw [whole]; simp)), decide_eq_true apart]
    refine ⟨text.take 5 ++ (front ++ [final]), back, ?_, ?_, ?_⟩
    · rw [List.append_assoc, List.append_assoc, List.singleton_append]
      exact whole
    · rw [List.length_append, List.length_append, List.length_singleton, List.length_take_of_le enough]
      omega
    · rw [List.getLast?_append, List.getLast?_append, List.getLast?_singleton, Option.some_or, Option.some_or,
        Option.any_some, letter]
      cases back with
      | nil => exact fun same => Bool.false_ne_true same.symm
      | cons y back =>
          rw [List.head?_cons, Option.any_some, Classical.not_not.mp (dashes y List.mem_cons_self), hyphen_apart]
          exact fun same => Bool.false_ne_true same.symm

/-- In a text of key characters, `sk-` at its start or behind a hyphen, and a character other than a hyphen no earlier
than sixth behind it. -/
def KeyLike (text : List Char) : Prop := ∃ passed after, text = passed ++ 's' :: 'k' :: '-' :: after ∧
  (∀ c ∈ passed.getLast?, c = '-') ∧ ∃ c ∈ after.drop 5, c ≠ '-'

theorem foundFrom_keys (keys : ∀ c ∈ text, keyChar c = true) {before : Option Char}
    (bounded : before.any W.word = false) : FoundFrom (openaiKey W) before text ↔ KeyLike text := by
  have first : ∀ passed : List Char, (∀ c ∈ passed, keyChar c = true) →
      ((passed.getLast?.or before).any W.word = false ↔ ∀ c ∈ passed.getLast?, c = '-') := by
    intro passed all
    cases last : passed.getLast? with
    | none => exact iff_of_true bounded fun _ none_ => nomatch none_
    | some c =>
        rw [Option.some_or, Option.any_some, word_keyChar (all c (List.mem_of_getLast? last)), decide_eq_false_iff_not,
          Classical.not_not]
        exact ⟨fun same _ held => Option.some.inj held ▸ same, fun all => all c rfl⟩
  rw [foundFrom_openaiKey]
  constructor
  · rintro ⟨passed, body, rest, rfl, at_, long, _, stopped⟩
    have after : ∀ c ∈ body ++ rest, keyChar c = true := fun c held => keys c
      (List.mem_append_right _ (List.mem_cons_of_mem _ (List.mem_cons_of_mem _ (List.mem_cons_of_mem _ held))))
    exact ⟨passed, body ++ rest, rfl, (first passed fun c held => keys c (List.mem_append_left _ held)).mp at_,
      (key_ends after).mp ⟨body, rest, rfl, long, stopped⟩⟩
  · rintro ⟨passed, after, rfl, at_, ends⟩
    have tail : ∀ c ∈ after, keyChar c = true := fun c held => keys c
      (List.mem_append_right _ (List.mem_cons_of_mem _ (List.mem_cons_of_mem _ (List.mem_cons_of_mem _ held))))
    obtain ⟨body, rest, rfl, long, stopped⟩ := (key_ends (W := W) tail).mpr ends
    exact ⟨passed, body, rest, rfl, (first passed fun c held => keys c (List.mem_append_left _ held)).mpr at_, long,
      fun c held => tail c (List.mem_append_left _ held), stopped⟩

/-- The key of a match at hand, up to where the match ends. -/
theorem keyAt {before : Option Char} {after : List Char} (keys : ∀ c ∈ after, keyChar c = true)
    (bounded : before.any W.word = false) (ends : ∃ c ∈ after.drop 5, c ≠ '-') :
    ∃ d ∈ run (openaiKey W) ⟨before, 's' :: 'k' :: '-' :: after, []⟩,
      d.rest.length ≤ ('k' :: '-' :: after).length := by
  obtain ⟨body, rest, rfl, long, stopped⟩ := (key_ends (W := W) keys).mpr ends
  obtain ⟨d, found, rfl⟩ := (@run_openaiKey W ⟨before, _, []⟩ rest).mpr ⟨body, rfl, bounded, long,
    fun c held => keys c (List.mem_append_left _ held), stopped⟩
  refine ⟨d, found, ?_⟩
  simp only [List.length_cons, List.length_append]
  omega

def redactedMark : List Char := "[REDACTED]".toList

theorem redactedMark_head : redactedMark.head? = some '[' := by decide

theorem redactedMark_last : redactedMark.getLast? = some ']' := by decide

/-- What stands for a key. -/
def keyMarker : List (Part × List Char) → List Char := fun _ => redactedMark

/-- Keys are replaced once and for all: in what is left of a text of key characters there is none. -/
theorem replaced_unfound {before seen : Option Char} (keys : ∀ c ∈ text, keyChar c = true)
    (agree : before.any W.word = seen.any W.word ∨ text.head? ≠ some 's') :
    ¬ FoundFrom (openaiKey W) seen (replaceFrom (openaiKey W) keyMarker 0 before text) := by
  induction size : text.length using Nat.strongRecOn generalizing text before seen with
  | _ size ih =>
  subst size
  cases text with
  | nil =>
      rw [replaceFrom]
      exact not_foundFrom_nil
  | cons x rest =>
      have restKeys : ∀ c ∈ rest, keyChar c = true := fun c held => keys c (List.mem_cons_of_mem x held)
      cases first : (run (openaiKey W) ⟨before, x :: rest, []⟩).find? (fun d => d.rest.length ≤ rest.length) with
      | some d =>
          rw [replaceFrom_found first]
          have held := List.mem_of_find?_eq_some first
          have accepted := List.find?_some first
          have shorter : d.rest.length ≤ rest.length := of_decide_eq_true accepted
          obtain ⟨body, ahead, _, long, _, stopped⟩ := run_openaiKey.mp ⟨d, held, rfl⟩
          obtain ⟨taken, _, split, behind⟩ := run_ends _ _ d held
          have ahead : x :: rest = ('s' :: 'k' :: '-' :: body) ++ d.rest := ahead
          have consumed : taken = 's' :: 'k' :: '-' :: body := List.append_cancel_right (split.symm.trans ahead)
          have last : d.before = body.getLast? := by
            obtain ⟨final, isFinal⟩ : ∃ final, body.getLast? = some final :=
              Option.isSome_iff_exists.mp (List.getLast?_isSome.mpr (List.ne_nil_of_length_pos (by omega)))
            have whole : taken = ['s', 'k', '-'] ++ body := consumed
            rw [behind, whole, List.getLast?_append, isFinal, Option.some_or, Option.some_or]
          have closing : ((']' : Char) |> some).any W.word = false := by
            rw [Option.any_some, W.ascii ']' (by decide)]
            decide
          have later := @ih d.rest.length (Nat.lt_succ_of_le shorter) d.rest d.before (some ']')
            (fun c inside => keys c (ahead ▸ List.mem_append_right _ inside)) (by
              rw [last]
              by_cases word : body.getLast?.any W.word = true
              · refine .inr fun same => stopped ?_
                rw [word, same, Option.any_some, W.ascii 's' (by decide)]
                decide
              · exact .inl ((Bool.of_not_eq_true word).trans closing.symm)) rfl
          rintro found
          obtain ⟨passed, bodyThere, tail, shape, bounded, longThere, keysThere, stoppedThere⟩ :=
            foundFrom_openaiKey.mp found
          -- no key starts inside the marker
          obtain ⟨extra, rfl, left⟩ : ∃ extra, passed = redactedMark ++ extra ∧
              replaceFrom (openaiKey W) keyMarker 0 d.before d.rest =
                extra ++ 's' :: 'k' :: '-' :: (bodyThere ++ tail) := by
            have shape : redactedMark ++ _ = passed ++ _ := shape
            rcases List.append_eq_append_iff.mp shape with ⟨extra, isPassed, left⟩ | ⟨extra, isMarker, left⟩
            · exact ⟨extra, isPassed, left⟩
            · cases extra with
              | nil => exact ⟨[], by rw [List.append_nil] at isMarker ⊢; exact isMarker.symm, left.symm⟩
              | cons y extra =>
                  have outside : 's' ∉ redactedMark := by decide
                  obtain ⟨rfl, _⟩ := List.cons.inj left
                  exact absurd (isMarker ▸ List.mem_append_right _ List.mem_cons_self) outside
          refine later (foundFrom_openaiKey.mpr ⟨extra, bodyThere, tail, left, ?_, longThere, keysThere, stoppedThere⟩)
          rw [List.getLast?_append, redactedMark_last, Option.or_assoc, Option.some_or] at bounded
          exact bounded
      | none =>
          rw [replaceFrom_none first, foundFrom_cons, not_or]
          refine ⟨?_, @ih rest.length (Nat.lt_succ_self _) rest (some x) (some x) restKeys (.inl rfl) rfl⟩
          rintro ⟨d, held, _⟩
          obtain ⟨body, ahead, bounded, long, bodyKeys, stopped⟩ := run_openaiKey.mp ⟨d, held, rfl⟩
          obtain ⟨rfl, tail⟩ := List.cons.inj ahead
          obtain ⟨clean, c, more, split, enough, cleanKeys, letter⟩ := key_reaches bodyKeys long stopped
          -- up to its first word character from the sixth on, the key was there before
          have isShape : replaceFrom (openaiKey W) keyMarker 0 (some 's') rest =
              ('k' :: '-' :: (clean ++ [c])) ++ more := by
            rw [tail, split, List.cons_append, List.cons_append, List.append_assoc, List.singleton_append]
          have unmarked : '[' ∉ 'k' :: '-' :: (clean ++ [c]) := by
            simp only [List.mem_cons, List.mem_append, List.not_mem_nil, or_false, Char.reduceEq, false_or, not_or]
            refine ⟨fun inside => absurd (cleanKeys _ inside) (by decide), ?_⟩
            rintro rfl
            rw [W.ascii '[' (by decide)] at letter
            exact absurd letter (by decide)
          obtain ⟨other, rfl⟩ := replaceFrom_clean (fun _ => redactedMark_head) isShape unmarked
          have opened : before.any W.word = false := by
            rcases agree with same | other
            · exact same.trans bounded
            · exact absurd rfl other
          have after : ∀ y ∈ clean ++ c :: other, keyChar y = true := fun y inside => restKeys y (by
            rw [List.cons_append, List.cons_append, List.append_assoc, List.singleton_append]
            exact List.mem_cons_of_mem _ (List.mem_cons_of_mem _ inside))
          obtain ⟨e, found, short⟩ := keyAt after opened ⟨c, mem_drop_of_split enough c, fun same =>
            Bool.false_ne_true (hyphen_apart.symm.trans (same ▸ letter))⟩
          have whole : 'k' :: '-' :: (clean ++ [c]) ++ other = 'k' :: '-' :: (clean ++ c :: other) := by
            rw [List.cons_append, List.cons_append, List.append_assoc, List.singleton_append]
          rw [whole, List.find?_eq_none] at first
          exact first e found (decide_eq_true short)

end KeyTexts

/-- What replaces an assignment: its name, its separator and the marker. -/
def assignmentReplacement (captures : List (Part × List Char)) : List Char :=
  (captures.lookup .name).getD [] ++ (captures.lookup .separator).getD [] ++ redactedMark

def bearerMarker : List (Part × List Char) → List Char := fun _ => "Bearer [REDACTED]".toList

/-- The redactor of the session protocol. -/
def sessionRedactor (W : WordClass) : Redactor where
  namedAssignment text := .ofList (replaceAll (namedAssignment W) assignmentReplacement text.toList)
  bearer text := .ofList (replaceAll (bearerToken W) bearerMarker text.toList)
  openaiKey text := .ofList (replaceAll (openaiKey W) keyMarker text.toList)

section Redaction

variable {W : WordClass} {text : String}

theorem redactTokenLikeValues_toList : ((sessionRedactor W).redactTokenLikeValues text).toList =
    replaceAll (openaiKey W) keyMarker (replaceAll (bearerToken W) bearerMarker
      (replaceAll (namedAssignment W) assignmentReplacement text.toList)) := by
  simp only [Redactor.redactTokenLikeValues, sessionRedactor, String.toList_ofList]

/-- Every replacement bears an opening bracket, so one in the text stays. -/
theorem redactTokenLikeValues_bracket (held : '[' ∈ text.toList) :
    '[' ∈ ((sessionRedactor W).redactTokenLikeValues text).toList := by
  have mark : '[' ∈ redactedMark := by decide
  have bearer : '[' ∈ "Bearer [REDACTED]".toList := by decide
  rw [redactTokenLikeValues_toList]
  apply mark_replaceAll fun _ => mark
  apply mark_replaceAll fun _ => bearer
  apply mark_replaceAll fun _ => List.mem_append_right _ mark
  exact held

/-- The control filter keeps a visible text whole, or puts the truncation mark. -/
theorem sanitize_over {list : List Char} {used : Nat} (visible : ∀ c ∈ list, c ≠ '\x1b' ∧ isControl c = false)
    (beyond : SESSION_TEXT_CAP_BYTES < used + String.utf8Len list) (room : used ≤ SESSION_TEXT_CAP_BYTES) :
    '[' ∈ sanitize .text used list := by
  induction list generalizing used with
  | nil => exact absurd beyond (Nat.not_lt.mpr room)
  | cons c rest ih =>
      obtain ⟨escape, control⟩ := visible c List.mem_cons_self
      rw [String.utf8Len_cons] at beyond
      rw [sanitize, if_neg (by decide), if_neg (by simp), if_neg escape,
        if_neg (fun both => Bool.false_ne_true (control.symm.trans both.1))]
      split
      case isTrue full => decide
      case isFalse fits =>
        exact List.mem_cons_of_mem c (ih (fun other held => visible other (List.mem_cons_of_mem c held)) (by omega)
          (by omega))

section Fields

variable {lead tail : List Char}

/-- An assignment needs a separator. -/
theorem not_found_assignment (clear : ∀ c ∈ tail, c ≠ ':' ∧ c ≠ '=') : ¬ Found (namedAssignment W) tail := by
  intro found
  obtain ⟨taken, reads, inside⟩ := found.reads
  obtain ⟨_, _, _, _, _, _, separator, _, rfl, _, _, _, isSeparator⟩ := namedAssignment_parts reads
  have held : separator ∈ tail := inside.subset (by simp)
  rcases isSeparator with rfl | rfl
  · exact (clear _ held).1 rfl
  · exact (clear _ held).2 rfl

theorem folded_mem {word key : List Char} (spelled : List.Forall₂ (fun expected c => folds expected c = true) word key)
    {expected : Char} (held : expected ∈ word) : ∃ c ∈ key, folds expected c = true := by
  induction spelled with
  | nil => cases held
  | cons here _ ih =>
      rcases List.mem_cons.mp held with rfl | later
      · exact ⟨_, List.mem_cons_self, here⟩
      · obtain ⟨c, inside, same⟩ := ih later
        exact ⟨c, List.mem_cons_of_mem _ inside, same⟩

/-- A character that occurs in no secret word, or in no place that decides. -/
def Unspelled (c : Char) : Prop := folds 'k' c = false ∧ folds 'r' c = false ∧ c ≠ '='

instance (c : Char) : Decidable (Unspelled c) :=
  inferInstanceAs (Decidable (folds 'k' c = false ∧ folds 'r' c = false ∧ c ≠ '='))

theorem unspelled_digit {c : Char} (digit : c.isDigit = true) : Unspelled c := by
  have range : 48 ≤ c.val.toNat ∧ c.val.toNat ≤ 57 := by
    simp only [Char.isDigit, Bool.and_eq_true, decide_eq_true_eq, UInt32.le_iff_toNat_le] at digit
    exact digit
  have apart : ∀ other : Char, 57 < other.val.toNat → c ≠ other := by
    rintro other above rfl
    omega
  have lower : c.toLower = c := by
    rw [Char.toLower]
    refine dif_neg fun both => ?_
    exact absurd (Nat.le_trans (UInt32.le_iff_toNat_le.mp both.1) range.2) (by decide)
  refine ⟨?_, ?_, apart '=' (by decide)⟩
  · simp only [folds, lower, Bool.or_eq_false_iff, Bool.and_eq_false_iff, decide_eq_false_iff_not]
    exact ⟨⟨apart 'k' (by decide), .inl (by decide)⟩, .inr (apart _ (by decide))⟩
  · simp only [folds, lower, Bool.or_eq_false_iff, Bool.and_eq_false_iff, decide_eq_false_iff_not]
    exact ⟨⟨apart 'r' (by decide), .inl (by decide)⟩, .inl (by decide)⟩

/-- In front of the last colon every secret word would need a `k` or an `r`. -/
theorem not_found_assignment_behind (unspelled : ∀ c ∈ lead, Unspelled c) (clear : ∀ c ∈ tail, c ≠ ':' ∧ c ≠ '=') :
    ¬ Found (namedAssignment W) (lead ++ ':' :: tail) := by
  have letters : ∀ word ∈ secretWords, 'k' ∈ word ∨ 'r' ∈ word := by decide
  intro found
  obtain ⟨taken, reads, before, behind, whole⟩ := found.reads
  obtain ⟨word, listed, head, key, chars, spaces, separator, value, rfl, spelled, _, _, isSeparator⟩ :=
    namedAssignment_parts reads
  have split : (before ++ head ++ key ++ chars ++ spaces) ++ separator :: (value ++ behind) = lead ++ ':' :: tail := by
    rw [← whole]
    simp only [List.append_assoc, List.cons_append]
  have notEqual : separator ≠ '=' := by
    rintro rfl
    have held : '=' ∈ lead ++ ':' :: tail := split ▸ List.mem_append_right _ List.mem_cons_self
    rw [List.mem_append, List.mem_cons] at held
    rcases held with inLead | same | inTail
    · exact (unspelled _ inLead).2.2 rfl
    · exact absurd same (by decide)
    · exact (clear _ inTail).2 rfl
  obtain rfl : separator = ':' := isSeparator.resolve_right notEqual
  have within : ∀ c ∈ key, c ∈ lead := by
    intro c held
    rcases List.append_eq_append_iff.mp split with ⟨extra, rfl, _⟩ | ⟨extra, isLead, later⟩
    · simp [held]
    · cases extra with
      | nil =>
          rw [List.append_nil] at isLead
          rw [← isLead]
          simp [held]
      | cons y extra =>
          obtain ⟨_, rest⟩ := List.cons.inj later
          exact absurd rfl (clear ':' (rest ▸ List.mem_append_right _ List.mem_cons_self)).1
  rcases letters word listed with k | r
  · obtain ⟨c, held, same⟩ := folded_mem spelled k
    exact Bool.false_ne_true ((unspelled c (within c held)).1.symm.trans same)
  · obtain ⟨c, held, same⟩ := folded_mem spelled r
    exact Bool.false_ne_true ((unspelled c (within c held)).2.1.symm.trans same)

theorem not_found_bearer {list : List Char} (dense : ∀ c ∈ list, isWhitespace c = false) :
    ¬ Found (bearerToken W) list := by
  intro found
  obtain ⟨taken, reads, inside⟩ := found.reads
  obtain ⟨c, held, white⟩ := bearerToken_space reads
  exact Bool.false_ne_true ((dense c (inside.subset held)).symm.trans white)

end Fields

/-- Of a visible text without assignments and bearer tokens, redaction replaces the keys. -/
theorem redactSessionText_keys (visible : ∀ c ∈ text.toList, c ≠ '\x1b' ∧ isControl c = false)
    (fits : String.utf8Len text.toList ≤ SESSION_TEXT_CAP_BYTES) (unassigned : ¬ Found (namedAssignment W) text.toList)
    (unborne : ¬ Found (bearerToken W) text.toList) :
    (sessionRedactor W).redactSessionText text = .ofList (replaceAll (openaiKey W) keyMarker text.toList) := by
  have filtered : sanitize .text 0 text.toList = text.toList := sanitize_visible visible (by omega)
  apply String.toList_inj.mp
  rw [Redactor.redactSessionText, redactTokenLikeValues_toList, String.toList_ofList, filtered,
    replaceAll_unfound unassigned, replaceAll_unfound unborne, String.toList_ofList]

/-- Such a text, if it bears no bracket, is kept exactly when it fits and holds no key. -/
theorem redactSessionText_kept_iff (visible : ∀ c ∈ text.toList, c ≠ '\x1b' ∧ isControl c = false)
    (bracket : '[' ∉ text.toList) (unassigned : ¬ Found (namedAssignment W) text.toList)
    (unborne : ¬ Found (bearerToken W) text.toList) : (sessionRedactor W).redactSessionText text = text ↔
      String.utf8Len text.toList ≤ SESSION_TEXT_CAP_BYTES ∧ ¬ Found (openaiKey W) text.toList := by
  have mark : '[' ∈ redactedMark := by decide
  by_cases fits : String.utf8Len text.toList ≤ SESSION_TEXT_CAP_BYTES
  · rw [and_iff_right fits, redactSessionText_keys visible fits unassigned unborne, ← String.toList_inj,
      String.toList_ofList]
    exact replaceAll_kept_iff (fun _ => mark) bracket
  · refine iff_of_false (fun kept => bracket ?_) (fun both => fits both.1)
    have cut := @sanitize_over text.toList 0 visible (by omega) (Nat.zero_le _)
    rw [← kept, Redactor.redactSessionText]
    exact redactTokenLikeValues_bracket (by rwa [String.toList_ofList])

end Redaction

end LatteCode
