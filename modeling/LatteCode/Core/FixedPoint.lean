import LatteCode.Core.Repeated
/- When redaction is a fixed point: the size of what the passes write, the cap and the truncation mark. -/

namespace LatteCode
open Regex

section Sizes

variable {W : WordClass} {text : List Char}

/-- The bytes of what stands for an assignment: its name, the separator and the marker. -/
def assignedSize (taken : List Char) : Nat := String.utf8Len (taken.takeWhile nameChar) + 11

/-- The bytes of the redacted text: each match is counted as what stands for it. -/
def tokenlessSize (W : WordClass) (text : List Char) : Int :=
  String.utf8Len text + growth (namedAssignment W) assignedSize text +
    growth (bearerToken W) (fun _ => 17) (unassigned W text) +
    growth (openaiKey W) (fun _ => 10) (replaceAll (bearerToken W) bearerMarker (unassigned W text))

theorem assigned_size {passed taken : List Char} {d : Cursor Part} (matched : Matched (namedAssignment W) passed taken d) :
    String.utf8Len (assignmentReplacement d.captures) = assignedSize taken := by
  obtain ⟨x, more, spaces, sign, value, rfl, replaced, named, isSign, spaced⟩ := matched_assigned matched
  have one : sign.utf8Size = 1 := by
    rcases isSign with rfl | rfl <;> decide
  have mark : String.utf8Len redactedMark = 10 := by decide
  have stop : (spaces ++ sign :: value).takeWhile nameChar = [] := by
    cases spaces with
    | nil =>
        refine List.takeWhile_cons_of_neg ?_
        rcases isSign with rfl | rfl <;> decide
    | cons space spaces =>
        refine List.takeWhile_cons_of_neg fun name => ?_
        exact Bool.false_ne_true ((dense_nameChar name).symm.trans (spaced space List.mem_cons_self))
  have written : String.utf8Len (sign :: redactedMark) = 11 := by rw [String.utf8Len_cons, mark, one]
  rw [replaced, assignedSize, List.takeWhile_append_of_pos named, stop, List.append_nil, String.utf8Len_append, written]

theorem bearerMark_size : String.utf8Len "Bearer [REDACTED]".toList = 17 := by decide

theorem redactedMark_size : String.utf8Len redactedMark = 10 := by decide

theorem utf8Len_tokenless (W : WordClass) (text : List Char) :
    (String.utf8Len (tokenless W text) : Int) = tokenlessSize W text := by
  have first := @utf8Len_replaceAll _ (namedAssignment W) assignmentReplacement text assignedSize
    fun _ _ _ matched => assigned_size matched
  have second := @utf8Len_replaceAll _ (bearerToken W) bearerMarker (unassigned W text) (fun _ => 17)
    fun _ _ _ _ => bearerMark_size
  have third := @utf8Len_replaceAll _ (openaiKey W) keyMarker (replaceAll (bearerToken W) bearerMarker (unassigned W text))
    (fun _ => 10) fun _ _ _ _ => redactedMark_size
  have first : (String.utf8Len (unassigned W text) : Int) = _ := first
  rw [tokenless, tokenlessSize, third, second, first]

end Sizes

section Filter

variable {text : List Char}

/-- The control filter lets nothing through that is not visible. -/
theorem visible_sanitize {mode : ScanMode} {used : Nat} : ∀ c ∈ sanitize mode used text, visible c = true := by
  induction text generalizing mode used with
  | nil =>
      rw [sanitize]
      exact List.forall_mem_nil _
  | cons c rest ih =>
      rw [sanitize]
      split
      · exact ih
      split
      · exact ih
      split
      · exact ih
      split
      · exact ih
      case isFalse shown =>
        split
        · exact each_of_all (by decide)
        · exact List.forall_mem_cons.mpr ⟨congrArg not (decide_eq_false shown), ih⟩

/-- A visible text within the cap passes the filter. -/
theorem sanitize_fits (shown : ∀ c ∈ text, visible c = true) (fits : String.utf8Len text ≤ SESSION_TEXT_CAP_BYTES) :
    sanitize .text 0 text = text := by
  have clear : '\x1b' ∉ text := fun held => absurd (shown _ held) (by decide)
  have kept : text.filter visible = text := List.filter_eq_self.mpr shown
  rw [sanitize_filter clear (by rw [kept]; omega), kept]

def truncationMark : List Char := "…[truncated]".toList

/-- A text that goes over the cap with the first character of its truncation mark is cut there, and marked as before. -/
theorem sanitize_marked {front : List Char} {used : Nat} (shown : ∀ c ∈ front, visible c = true)
    (fits : used + String.utf8Len front ≤ SESSION_TEXT_CAP_BYTES)
    (beyond : SESSION_TEXT_CAP_BYTES < used + String.utf8Len front + 3) :
    sanitize .text used (front ++ truncationMark) = front ++ truncationMark := by
  induction front generalizing used with
  | nil =>
      have mark : truncationMark = '…' :: "[truncated]".toList := by decide
      have size : '…'.utf8Size = 3 := by decide
      rw [String.utf8Len_nil] at beyond
      rw [List.nil_append, mark, sanitize, if_neg (by decide), if_neg (by simp),
        if_neg (by decide), if_neg (by decide), if_pos (by omega)]
      rfl
  | cons c front ih =>
      obtain ⟨here, later⟩ := List.forall_mem_cons.mp shown
      rw [String.utf8Len_cons] at fits beyond
      have escape : c ≠ '\x1b' := by
        rintro rfl
        exact absurd here (by decide)
      have control : ¬ (isControl c = true ∧ c ≠ '\n' ∧ c ≠ '\t') := of_decide_eq_false (Bool.not_eq_true' _ ▸ here)
      rw [List.cons_append, sanitize, if_neg (by decide), if_neg (by simp),
        if_neg escape, if_neg control, if_neg (by omega), ih later (by omega) (by omega)]

end Filter

section Marks

variable {W : WordClass} {text : List Char}

/-- The passes write nothing that is not visible. -/
theorem visible_tokenless (shown : ∀ c ∈ text, visible c = true) : ∀ c ∈ tokenless W text, visible c = true := by
  have mark : ∀ c ∈ redactedMark, visible c = true := each_of_all (by decide)
  have bearer : ∀ c ∈ "Bearer [REDACTED]".toList, visible c = true := each_of_all (by decide)
  refine forall_replaceAll (forall_replaceAll (forall_replaceAll shown ?_) fun _ _ _ _ _ => bearer) fun _ _ _ _ _ => mark
  intro passed taken d matched each
  obtain ⟨x, more, spaces, sign, value, rfl, replaced, _⟩ := matched_assigned matched
  rw [replaced]
  obtain ⟨name, rest⟩ := List.forall_mem_append.mp each
  refine List.forall_mem_append.mpr ⟨name, List.forall_mem_cons.mpr ⟨rest sign ?_, mark⟩⟩
  exact List.mem_append_right _ List.mem_cons_self

/-- A match that begins with no character of the mark, and holds no ellipsis unless a quote ends it, stops in front of the
mark. -/
theorem stops_before {passed taken front rest : List Char} (split : front ++ truncationMark = passed ++ (taken ++ rest))
    (some_ : taken ≠ []) (starts : ∀ c ∈ taken.head?, c ∉ truncationMark)
    (ends : (∀ c ∈ taken, c ≠ '…') ∨ ∀ c ∈ taken.getLast?, c ∉ truncationMark) :
    passed.length + taken.length ≤ front.length := by
  rcases List.append_eq_append_iff.mp split with ⟨extra, rfl, isMark⟩ | ⟨extra, rfl, behind⟩
  · obtain ⟨c, taken, rfl⟩ := List.exists_cons_of_ne_nil some_
    exact absurd (by rw [isMark]; exact List.mem_append_right _ List.mem_cons_self) (starts c rfl)
  · rcases List.append_eq_append_iff.mp behind with ⟨inner, rfl, _⟩ | ⟨inner, rfl, isMark⟩
    · rw [List.length_append, List.length_append]
      omega
    · cases inner with
      | nil =>
          rw [List.append_nil, List.length_append]
      | cons y inner =>
          exfalso
          have mark : truncationMark = '…' :: "[truncated]".toList := by decide
          rcases ends with dotless | last
          · obtain ⟨rfl, _⟩ := List.cons.inj (isMark.symm.trans mark)
            exact dotless '…' (List.mem_append_right _ List.mem_cons_self) rfl
          · rcases List.eq_nil_or_concat (y :: inner) with empty | ⟨init, z, shape⟩
            · cases empty
            · rw [List.concat_eq_append] at shape
              rw [shape] at last isMark
              refine last z ?_ ?_
              · rw [← List.append_assoc]
                exact List.getLast?_concat
              · rw [isMark]
                exact List.mem_append_left _ (List.mem_append_right _ (List.mem_singleton_self z))

/-- A bearer token ends with a quote or has no ellipsis. -/
theorem bearer_dotless {taken : List Char} (reads : Reads (bearerToken W) taken) :
    (∀ c ∈ taken, c ≠ '…') ∨ ∀ c ∈ taken.getLast?, c ∉ truncationMark := by
  have apart : ∀ {accepts : Char → Bool} {text : List Char}, accepts '…' = false → (∀ c ∈ text, accepts c = true) →
      ∀ c ∈ text, c ≠ '…' := by
    rintro accepts text no each c held rfl
    exact Bool.false_ne_true (no.symm.trans (each _ held))
  obtain ⟨_, _, rfl, bounded, reads₁⟩ := reads_seq.mp reads
  obtain rfl := reads_boundary.mp bounded
  obtain ⟨word, _, rfl, wordReads, reads₂⟩ := reads_seq.mp reads₁
  obtain ⟨_, _, rfl, spaceReads, reads₃⟩ := reads_seq.mp reads₂
  obtain ⟨spaces, value, rfl, spacesRead, reads₄⟩ := reads_seq.mp reads₃
  obtain ⟨space, rfl, white⟩ := reads_one.mp spaceReads
  have quotes : ∀ quote, quote ∉ truncationMark → Reads (κ := Part) (quoted quote) value →
      ∀ c ∈ ([] ++ (word ++ ([space] ++ (spaces ++ value)))).getLast?, c ∉ truncationMark := by
    intro quote outside quotedReads
    obtain ⟨inside, rfl⟩ := reads_quoted quotedReads
    have whole : [] ++ (word ++ ([space] ++ (spaces ++ (inside ++ [quote])))) =
        (word ++ ([space] ++ (spaces ++ inside))) ++ [quote] := by
      simp only [List.nil_append, List.append_assoc]
    rw [whole, List.getLast?_concat]
    intro c held
    obtain rfl := Option.some.inj held
    exact outside
  rcases reads_alt.mp reads₄ with double | reads₅
  · exact .inr (quotes _ (by decide) double)
  rcases reads_alt.mp reads₅ with single | plain
  · exact .inr (quotes _ (by decide) single)
  have only : (Pattern.seq (κ := Part) (.one bearerChar) (.many true (.one bearerChar))).Only fun c =>
      bearerChar c = true := ⟨fun _ held => held, fun _ held => held⟩
  refine .inl (List.forall_mem_append.mpr ⟨List.forall_mem_nil _, List.forall_mem_append.mpr ⟨?_,
    List.forall_mem_append.mpr ⟨?_, List.forall_mem_append.mpr ⟨?_, ?_⟩⟩⟩⟩)
  · exact @apart foldedLetter _ (by decide) (wordReads.only (word_only (each_of_all (by decide))))
  · exact @apart isWhitespace _ (by decide) (List.forall_mem_singleton.mpr white)
  · exact @apart isWhitespace _ (by decide) (reads_many_one.mp spacesRead)
  · exact @apart bearerChar _ (by decide) (plain.only only)

/-- A truncation mark that no assignment reaches stays at the end. -/
theorem tokenless_truncated {front : List Char}
    (inside : ∀ member ∈ replacedFrom (namedAssignment W) 0 [] (front ++ truncationMark),
      member.1.length + member.2.length ≤ front.length) :
    ∃ front', tokenless W (front ++ truncationMark) = front' ++ truncationMark := by
  obtain ⟨first, shape₁⟩ := @replaceAll_tail _ (namedAssignment W) assignmentReplacement front truncationMark inside
  obtain ⟨second, shape₂⟩ := @replaceAll_tail _ (bearerToken W) bearerMarker first truncationMark (by
    intro member held
    obtain ⟨d, split, matched⟩ := replacedFrom_matched held
    obtain ⟨taken, reads, shape, _⟩ := run_ends _ _ d matched.outcome
    obtain rfl := List.append_cancel_right shape
    refine stops_before split matched.inhabited ?_ (bearer_dotless reads)
    obtain ⟨lead, c, more, whole, led, _⟩ := run_bearer.mp ⟨d, matched.outcome⟩
    obtain ⟨x, tail, rfl, isB, _⟩ := led.chars
    obtain ⟨y, taken, isTaken⟩ := List.exists_cons_of_ne_nil matched.inhabited
    rw [isTaken] at whole ⊢
    obtain ⟨rfl, _⟩ := List.cons.inj whole
    intro c held
    obtain rfl := Option.some.inj held
    rcases isB with rfl | rfl <;> decide)
  obtain ⟨third, shape₃⟩ := @replaceAll_tail _ (openaiKey W) keyMarker second truncationMark (by
    intro member held
    obtain ⟨d, split, matched⟩ := replacedFrom_matched held
    obtain ⟨body, ahead, _, _, keys, _⟩ := run_openaiKey.mp ⟨d, matched.outcome, rfl⟩
    have ahead : member.2 ++ d.rest = ('s' :: 'k' :: '-' :: body) ++ d.rest := ahead
    have isTaken := List.append_cancel_right ahead
    refine stops_before split matched.inhabited ?_ (.inl ?_)
    · rw [isTaken]
      intro c held
      obtain rfl := Option.some.inj held
      decide
    · rw [isTaken]
      have start : ∀ c ∈ ['s', 'k', '-'], c ≠ '…' := each_of_all (by decide)
      refine (@List.forall_mem_append Char (· ≠ '…') ['s', 'k', '-'] body).mpr ⟨start, fun c held same => ?_⟩
      exact absurd (same ▸ keys c held) (by decide))
  exact ⟨third, by rw [tokenless, unassigned, shape₁, shape₂, shape₃]⟩

end Marks

section Whole

/-- The text has room for what is written into it, or is cut already where it would be cut again. -/
def Settles (W : WordClass) (text : List Char) : Prop :=
  Loose W text ∧ (tokenlessSize W text ≤ SESSION_TEXT_CAP_BYTES ∨ ∃ front, text = front ++ truncationMark ∧
    (∀ member ∈ replacedFrom (namedAssignment W) 0 [] text, member.1.length + member.2.length ≤ front.length) ∧
    SESSION_TEXT_CAP_BYTES + 11 < tokenlessSize W text ∧ tokenlessSize W text ≤ SESSION_TEXT_CAP_BYTES + 14)

/-- Redaction leaves no control character but line feeds and tabs, and a text that settles is a fixed point after it. -/
theorem redactSessionText_settles (W : WordClass) (value : String) :
    (∀ c ∈ ((sessionRedactor W).redactSessionText value).toList, isControl c = true → c = '\n' ∨ c = '\t') ∧
      (Settles W (sanitize .text 0 value.toList) →
        (sessionRedactor W).redactSessionText ((sessionRedactor W).redactSessionText value) =
          (sessionRedactor W).redactSessionText value) := by
  have once : ∀ value, ((sessionRedactor W).redactSessionText value).toList =
      tokenless W (sanitize .text 0 value.toList) := by
    intro value
    rw [Redactor.redactSessionText, redactTokenLikeValues_toList, String.toList_ofList, tokenless, unassigned]
  have shown : ∀ c ∈ tokenless W (sanitize .text 0 value.toList), visible c = true := visible_tokenless visible_sanitize
  constructor
  · intro c held control
    rw [once] at held
    have plain := shown c held
    rw [visible, Bool.not_eq_true', decide_eq_false_iff_not] at plain
    by_contra neither
    rw [not_or] at neither
    exact plain ⟨control, neither⟩
  · rintro ⟨loose, room⟩
    apply String.toList_inj.mp
    rw [once, once]
    have size := utf8Len_tokenless W (sanitize .text 0 value.toList)
    have filtered : sanitize .text 0 (tokenless W (sanitize .text 0 value.toList)) =
        tokenless W (sanitize .text 0 value.toList) := by
      rcases room with fits | ⟨front, split, inside, above, below⟩
      · exact sanitize_fits shown (by omega)
      · rw [split] at inside
        obtain ⟨front', shape⟩ := tokenless_truncated inside
        rw [← split] at shape
        have mark : String.utf8Len truncationMark = 14 := by decide
        rw [shape] at shown size ⊢
        rw [String.utf8Len_append, mark] at size
        exact sanitize_marked (List.forall_mem_append.mp shown).1 (by omega) (by omega)
    rw [filtered, tokenless_again loose]

instance (W : WordClass) (text : List Char) : Decidable (Loose W text) :=
  decidable_of_iff (∀ member ∈ replacedFrom (namedAssignment W) 0 [] text,
      (text.drop (member.1.length + member.2.length)).head?.any tailChar = false) <| by
    refine forall₂_congr fun member _ => ?_
    cases (text.drop (member.1.length + member.2.length)).head? with
    | none => exact iff_of_true rfl fun _ held => nomatch held
    | some c => exact ⟨fun no _ held => Option.some.inj held ▸ no, fun all => all c rfl⟩

theorem redactSessionText_settles_token :
    (sessionRedactor asciiClass).redactSessionText ((sessionRedactor asciiClass).redactSessionText "token: abc, done") =
      (sessionRedactor asciiClass).redactSessionText "token: abc, done" :=
  (redactSessionText_settles asciiClass "token: abc, done").2 ⟨by decide +kernel, .inl (by decide +kernel)⟩

/-- Text glued to a quoted value outlives the first pass and not the second. -/
theorem glued_residue :
    (sessionRedactor asciiClass).redactSessionText ((sessionRedactor asciiClass).redactSessionText "token=\"a\"b") ≠
      (sessionRedactor asciiClass).redactSessionText "token=\"a\"b" := by decide +kernel

end Whole

end LatteCode
