import LatteCode.Core.Serialized
import LatteCode.Core.Text
import LatteCode.Headless.ProviderIds
/- The verification verdict: how a process result is stored for the transcript, and when it is read back. -/

namespace LatteCode.Headless
open Escapes Outcome Quoting Regex Storage

inductive ProcessTermination where
  | exited
  | timedOut
  | cancelled
deriving DecidableEq

structure ProcessOutput where
  exitCode : Option Int32
  stdout : String
  stderr : String
  stdoutTruncated : Bool
  stderrTruncated : Bool
  termination : ProcessTermination
deriving DecidableEq

namespace ProcessTermination

/-- The variant in snake case. -/
def name : ProcessTermination → String
  | exited => "exited"
  | timedOut => "timed_out"
  | cancelled => "cancelled"

end ProcessTermination

namespace ProcessOutput

def commandSucceeded (self : ProcessOutput) : Bool := self.termination = .exited && self.exitCode = some 0

def codeJson : Option Int32 → Json
  | none => .null
  | some code => if 0 ≤ code.toInt then .number (.posInt code.toInt.toNat) else .number (.negInt code.toInt)

/-- `serde_json::to_value`. -/
def toJson (self : ProcessOutput) : Json :=
  .ofMembers [("exit_code", codeJson self.exitCode), ("stdout", .string self.stdout), ("stderr", .string self.stderr),
    ("stdout_truncated", .bool self.stdoutTruncated), ("stderr_truncated", .bool self.stderrTruncated),
    ("termination", .string self.termination.name)]

def codeChars : Option Int32 → List Char
  | none => "null".toList
  | some code => (toString code.toInt).toList

def flagChars (flag : Bool) : List Char := if flag then "true".toList else "false".toList

/-- `serde_json::to_string`: the members in the order of the fields. -/
def chars (self : ProcessOutput) : List Char :=
  '\x7b' :: (textChars "exit_code" ++ ':' :: (codeChars self.exitCode ++ ',' ::
    (textChars "stdout" ++ ':' :: (textChars self.stdout ++ ',' ::
    (textChars "stderr" ++ ':' :: (textChars self.stderr ++ ',' ::
    (textChars "stdout_truncated" ++ ':' :: (flagChars self.stdoutTruncated ++ ',' ::
    (textChars "stderr_truncated" ++ ':' :: (flagChars self.stderrTruncated ++ ',' ::
    (textChars "termination" ++ ':' :: (textChars self.termination.name ++ ['\x7d']))))))))))))

def text (self : ProcessOutput) : String := .ofList self.chars

/-! ## The text in parts, between its quotes -/

def lead (self : ProcessOutput) : List (List Char) :=
  ["exit_code".toList, ':' :: (codeChars self.exitCode ++ [',']), "stdout".toList, [':']]

def between : List (List Char) := [[','], "stderr".toList, [':']]

def trail (self : ProcessOutput) : List (List Char) :=
  [[','], "stdout_truncated".toList, ':' :: (flagChars self.stdoutTruncated ++ [',']), "stderr_truncated".toList,
    ':' :: (flagChars self.stderrTruncated ++ [',']), "termination".toList, [':'], self.termination.name.toList, ['\x7d']]

/-- The parts with these texts in the place of the two outputs. -/
def parts (self : ProcessOutput) (stdout stderr : List Char) : List (List Char) :=
  self.lead ++ stdout :: (between ++ stderr :: self.trail)

/-- The whole text with these texts in the place of the two outputs. -/
def layout (self : ProcessOutput) (stdout stderr : List Char) : List Char := joined ['\x7b'] (self.parts stdout stderr)

/-- A string between its quotes. -/
def body (text : String) : List Char := text.toList.flatMap escapedChars

theorem textChars_body (text : String) : textChars text = '"' :: (body text ++ ['"']) := rfl

theorem body_names : body "exit_code" = "exit_code".toList ∧ body "stdout" = "stdout".toList ∧
    body "stderr" = "stderr".toList ∧ body "stdout_truncated" = "stdout_truncated".toList ∧
    body "stderr_truncated" = "stderr_truncated".toList ∧ body "termination" = "termination".toList ∧
    ∀ termination : ProcessTermination, body termination.name = termination.name.toList := by
  refine ⟨by decide, by decide, by decide, by decide, by decide, by decide, fun termination => ?_⟩
  cases termination <;> decide

theorem chars_layout (self : ProcessOutput) : self.chars = self.layout (body self.stdout) (body self.stderr) := by
  obtain ⟨exitCode, stdout, stderr, stdoutTruncated, stderrTruncated, termination⟩ := body_names
  simp only [chars, layout, parts, lead, between, trail, textChars_body, exitCode, stdout, stderr, stdoutTruncated,
    stderrTruncated, termination, joined, List.append_assoc, List.cons_append, List.nil_append, List.singleton_append]

end ProcessOutput

section FixedParts

/-- A character of the member names, numbers and words of the text. -/
def Bare (c : Char) : Prop :=
  isControl c = false ∧ isWhitespace c = false ∧ c ≠ 'k' ∧ c ≠ '=' ∧ c ≠ '"' ∧ c ≠ '\\'

instance (c : Char) : Decidable (Bare c) :=
  inferInstanceAs (Decidable (isControl c = false ∧ isWhitespace c = false ∧ c ≠ 'k' ∧ c ≠ '=' ∧ c ≠ '"' ∧ c ≠ '\\'))

/-- A part that no output decides: bare characters, and a colon only in front. -/
def Fixed : List Char → Prop
  | [] => False
  | c :: rest => (∀ x ∈ c :: rest, Bare x) ∧ ':' ∉ rest

instance : ∀ part : List Char, Decidable (Fixed part)
  | [] => inferInstanceAs (Decidable False)
  | c :: rest => @instDecidableAnd _ _ (List.decidableBAll Bare (c :: rest)) _

variable {part : List Char} {W : WordClass}

theorem Fixed.bare (fixed : Fixed part) : ∀ c ∈ part, Bare c := by
  cases part with
  | nil => exact fixed.elim
  | cons c rest => exact fixed.1

theorem Fixed.scans (fixed : Fixed part) : scan .plain part = .ends .plain 0 := by
  apply scan_ordinary
  intro c held
  obtain ⟨control, _, _, _, quote, backslash⟩ := fixed.bare c held
  simp only [isControl, Bool.or_eq_false_iff, decide_eq_false_iff_not, UInt32.not_lt] at control
  simp only [ordinary, Bool.and_eq_true, decide_eq_true_eq]
  exact ⟨⟨backslash, quote⟩, control.1⟩

theorem visible_of_uncontrolled {c : Char} (plain : isControl c = false) : visible c = true :=
  congrArg not (decide_eq_false fun all => Bool.false_ne_true (plain.symm.trans all.1))

theorem Fixed.filtered (fixed : Fixed part) : part.filter visible = part :=
  List.filter_eq_self.mpr fun c held => visible_of_uncontrolled (fixed.bare c held).1

theorem Fixed.untouched (fixed : Fixed part) : Untouched W part := by
  cases part with
  | nil => exact fixed.elim
  | cons c rest =>
      apply untouched_of
      · exact fun x held => ⟨(fixed.1 x held).2.1, (fixed.1 x held).2.2.1⟩
      · intro x held
        refine ⟨?_, (fixed.1 x (List.mem_cons_of_mem c held)).2.2.2.1⟩
        rintro rfl
        exact fixed.2 held

/-- Fixed parts in front come through. -/
theorem rewritten_fixed {front olds news : List (List Char)} (fixed : ∀ part ∈ front, Fixed part)
    (rewritten : List.Forall₂ (Rewritten W) (front ++ olds) news) :
    ∃ rest, news = front ++ rest ∧ List.Forall₂ (Rewritten W) olds rest := by
  induction front generalizing news with
  | nil => exact ⟨news, rfl, rewritten⟩
  | cons part front ih =>
      obtain ⟨here, others⟩ := List.forall_mem_cons.mp fixed
      cases rewritten with
      | cons same later =>
          obtain ⟨rest, rfl, tail⟩ := ih others later
          exact ⟨rest, by rw [same.2 here.untouched]; rfl, tail⟩

theorem bare_digit {c : Char} (digit : c.isDigit = true) : Bare c ∧ c ≠ ':' := by
  have range : 48 ≤ c.val.toNat ∧ c.val.toNat ≤ 57 := by
    simp only [Char.isDigit, Bool.and_eq_true, decide_eq_true_eq, UInt32.le_iff_toNat_le] at digit
    exact digit
  have apart : ∀ other : Char, other.val.toNat < 48 ∨ 57 < other.val.toNat → c ≠ other := by
    rintro other outside rfl
    omega
  have control : isControl c = false := by
    simp only [isControl, Bool.or_eq_false_iff, Bool.and_eq_false_iff, decide_eq_false_iff_not, UInt32.lt_iff_toNat_lt,
      UInt32.le_iff_toNat_le]
    exact ⟨Nat.not_lt.mpr (Nat.le_trans (by decide) range.1), .inl (Nat.not_le.mpr (Nat.lt_of_le_of_lt range.2 (by decide)))⟩
  exact ⟨⟨control, graphic_dense (Nat.le_trans (by decide) range.1) (Nat.le_trans range.2 (by decide)),
    apart _ (.inr (by decide)), apart _ (.inr (by decide)), apart _ (.inl (by decide)), apart _ (.inr (by decide))⟩,
    apart _ (.inr (by decide))⟩

theorem bare_code (code : Option Int32) : ∀ c ∈ ProcessOutput.codeChars code, Bare c ∧ c ≠ ':' := by
  have natural : ∀ n : Nat, ∀ c ∈ (Nat.repr n).toList, Bare c ∧ c ≠ ':' := by
    intro n c held
    rw [Nat.toList_repr] at held
    exact bare_digit (Nat.isDigit_of_mem_toDigits (by decide) (by decide) held)
  cases code with
  | none => exact each_of_all (by decide)
  | some code =>
      rw [ProcessOutput.codeChars, Int.toString_eq_repr, Int.repr_eq_if]
      split
      case isTrue => exact natural _
      case isFalse =>
        rw [String.toList_append]
        exact List.forall_mem_append.mpr ⟨each_of_all (by decide), natural _⟩

namespace ProcessOutput

variable (self : ProcessOutput)

theorem fixed_lead : ∀ part ∈ ['\x7b'] :: self.lead, Fixed part := by
  have code : Fixed (':' :: (codeChars self.exitCode ++ [','])) := by
    refine ⟨List.forall_mem_cons.mpr ⟨by decide, List.forall_mem_append.mpr ⟨fun c held => (bare_code _ c held).1,
      each_of_all (by decide)⟩⟩, ?_⟩
    rw [List.mem_append, not_or]
    exact ⟨fun held => (bare_code _ _ held).2 rfl, by decide⟩
  simp only [lead, List.forall_mem_cons]
  exact ⟨by decide, by decide, code, by decide, by decide, List.forall_mem_nil _⟩

theorem fixed_between : ∀ part ∈ between, Fixed part := by decide

theorem fixed_trail : ∀ part ∈ self.trail, Fixed part := by
  have flag : ∀ flag : Bool, Fixed (':' :: (flagChars flag ++ [','])) := by decide
  have name : ∀ termination : ProcessTermination, Fixed termination.name.toList := by
    intro termination
    cases termination <;> decide
  simp only [trail, List.forall_mem_cons]
  exact ⟨by decide, by decide, flag _, by decide, flag _, by decide, by decide, name _, by decide, List.forall_mem_nil _⟩

variable {self} {stdout stderr : List Char}

theorem parts_scans (out : scan .plain stdout = .ends .plain 0) (err : scan .plain stderr = .ends .plain 0) :
    ∀ next ∈ self.parts stdout stderr, scan .plain next = .ends .plain 0 := by
  have lead := fun part held => (self.fixed_lead part (List.mem_cons_of_mem _ held)).scans
  have trail := fun part held => (self.fixed_trail part held).scans
  rw [parts]
  exact List.forall_mem_append.mpr ⟨lead, List.forall_mem_cons.mpr ⟨out, List.forall_mem_append.mpr
    ⟨fun part held => (fixed_between part held).scans, List.forall_mem_cons.mpr ⟨err, trail⟩⟩⟩⟩

theorem length_parts : (self.parts stdout stderr).length = 18 := rfl

theorem layout_scans (out : scan .plain stdout = .ends .plain 0) (err : scan .plain stderr = .ends .plain 0) :
    scan .plain (self.layout stdout stderr) = .ends .plain 18 :=
  scan_joined (self.fixed_lead _ List.mem_cons_self).scans (parts_scans out err)

/-- The control filter reaches the outputs alone. -/
theorem layout_filtered : (self.layout stdout stderr).filter visible =
    self.layout (stdout.filter visible) (stderr.filter visible) := by
  have kept : ∀ {front : List (List Char)}, (∀ part ∈ front, Fixed part) → front.map (List.filter visible) = front := by
    intro front fixed
    exact (List.map_congr_left fun part held => (fixed part held).filtered).trans (List.map_id front)
  have lead := kept fun part held => self.fixed_lead part (List.mem_cons_of_mem _ held)
  rw [layout, filter_joined (by decide), (self.fixed_lead _ List.mem_cons_self).filtered, parts, List.map_append, lead,
    List.map_cons, List.map_append, kept fixed_between, List.map_cons, kept self.fixed_trail]
  rfl

/-- So do the passes, where they rewrite each part on its own. -/
theorem layout_rewritten {part : List Char} {more : List (List Char)}
    (rewritten : List.Forall₂ (Rewritten W) (['\x7b'] :: self.parts stdout stderr) (part :: more)) :
    ∃ stdout' stderr', joined part more = self.layout stdout' stderr' ∧ scan .plain stdout' = .ends .plain 0 ∧
      scan .plain stderr' = .ends .plain 0 := by
  obtain ⟨rest, first, fromOut⟩ := rewritten_fixed self.fixed_lead rewritten
  obtain ⟨rfl, rfl⟩ := List.cons.inj first
  obtain ⟨stdout', news, out, fromBetween, rfl⟩ := List.forall₂_cons_left_iff.mp fromOut
  obtain ⟨later, rfl, fromErr⟩ := rewritten_fixed fixed_between fromBetween
  obtain ⟨stderr', last, err, fromTrail, rfl⟩ := List.forall₂_cons_left_iff.mp fromErr
  rw [← List.append_nil self.trail] at fromTrail
  obtain ⟨_, rfl, none_⟩ := rewritten_fixed self.fixed_trail fromTrail
  cases none_
  refine ⟨stdout', stderr', ?_, out.1, err.1⟩
  rw [List.append_nil]
  rfl

theorem scan_escaped (c : Char) : scan .plain (escapedChars c) = .ends .plain 0 := by
  by_cases control : c.val < 0x20
  · exact control_cases (P := fun c => scan .plain (escapedChars c) = .ends .plain 0) (by decide) control
  · rw [escapedChars]
    split
    case isTrue named => rcases named with rfl | rfl <;> decide
    case isFalse plain =>
      rw [not_or] at plain
      apply scan_ordinary
      intro x held
      rw [List.mem_singleton.mp held]
      simp only [ordinary, Bool.and_eq_true, decide_eq_true_eq]
      exact ⟨⟨plain.2, plain.1⟩, UInt32.not_lt.mp control⟩

/-- An escape stays whole. -/
theorem escaped_filtered (c : Char) :
    (escapedChars c).filter visible = escapedChars c ∨ (escapedChars c).filter visible = [] := by
  by_cases control : c.val < 0x20
  · exact .inl (control_cases (P := fun c => (escapedChars c).filter visible = escapedChars c) (by decide) control)
  · rw [escapedChars]
    split
    case isTrue named => rcases named with rfl | rfl <;> decide
    case isFalse =>
      cases shown : visible c with
      | false => exact .inr (List.filter_cons_of_neg (Bool.eq_false_iff.mp shown))
      | true => exact .inl (List.filter_cons_of_pos shown)

/-- An escaped text is read between escapes to its end. -/
theorem body_scans (text : String) : scan .plain (body text) = .ends .plain 0 := by
  rw [body]
  induction text.toList with
  | nil => rfl
  | cons c rest ih => rw [List.flatMap_cons, scan_append_ends (scan_escaped c), Scan.more_zero, ih]

/-- Also without its controls. -/
theorem filtered_scans (text : String) : scan .plain ((body text).filter visible) = .ends .plain 0 := by
  rw [body]
  induction text.toList with
  | nil => rfl
  | cons c rest ih =>
      rw [List.flatMap_cons, List.filter_append]
      rcases escaped_filtered c with same | none_
      · rw [same, scan_append_ends (scan_escaped c), Scan.more_zero, ih]
      · rw [none_, List.nil_append, ih]

end ProcessOutput

end FixedParts

/-- What `serde_json::from_str` does to texts like these: it reads the layout with any well-formed outputs; it accepts no
escape that JSON has not; an object that begins with the exit code takes nine strings; and no object ends with a bracket. -/
structure ReadsProcessOutput (fromStr : String → Option ProcessOutput) : Prop where
  layout : ∀ (output : ProcessOutput) (stdout stderr : List Char), scan .plain stdout = .ends .plain 0 →
    scan .plain stderr = .ends .plain 0 → ∃ read, fromStr (.ofList (output.layout stdout stderr)) = some read ∧
      read.exitCode = output.exitCode ∧ read.termination = output.termination
  escapes : ∀ text read, fromStr text = some read → scan .plain text.toList ≠ .wrongEscape
  strings : ∀ text read mode quotes rest, fromStr text = some read →
    text.toList = "\x7b\"exit_code\":".toList ++ rest → scan .plain text.toList = .ends mode quotes → 18 ≤ quotes
  closes : ∀ text read rest, fromStr text = some read → text.toList = '\x7b' :: rest → text.toList.getLast? ≠ some ']'

section Reading

variable (fromStr : String → Option ProcessOutput)

inductive VerificationError where
  /-- "verification observation is missing". -/
  | missing
  /-- "verification observation is not a process result". -/
  | notAProcessResult
  /-- "verification completion summary is missing". -/
  | missingSummary
deriving DecidableEq

/-- How a finished verification settles its turn. -/
inductive Settlement where
  | failed (message : String)
  | completed (summary : String)
deriving DecidableEq

/-- The process result that `finish_verification` reads from the transcript. -/
def verificationOutput (window : List TranscriptEntry) (toolCallId : String) : Except VerificationError ProcessOutput := do
  let rawOutput ← require (effectProviderResult window toolCallId) .missing
  require (fromStr rawOutput) .notAProcessResult

def finishVerification (window : List TranscriptEntry) (toolCallId : String) (input : Json) :
    Except VerificationError Settlement := do
  let output ← verificationOutput fromStr window toolCallId
  if output.commandSucceeded then
    let summary ← require ((input.get? "completion_summary").bind Json.asStr) .missingSummary
    .ok (.completed summary)
  else
    .ok (.failed "configured verification failed; evidence was recorded")

end Reading

section Storing

variable (E : Redactor)

def SESSION_VERIFICATION_EFFECT_PREFIX : String := "session-verification:"

def verificationCallId (turnId : TurnId) : String := "verification-" ++ turnId.toString

def verificationDescriptor (turnId : TurnId) (input : Json) : SessionEffectDescriptor where
  effectId := SESSION_VERIFICATION_EFFECT_PREFIX ++ turnId.toString
  toolCallId := verificationCallId turnId
  name := "process"
  input := input
  attempt := 1

/-- The observed payload of a process: its own, under the provider content and the presented identity. -/
def processPayload (descriptor : SessionEffectDescriptor) (output : ProcessOutput) : Json :=
  withProviderContent output.text (E.redactSessionText descriptor.toolCallId) (E.redactSessionText descriptor.name)
    (E.redactSessionValue (toolPayload descriptor [("output", output.toJson)]))

/-- A conversation in which this output of the verification has just been observed. -/
def verified (turn : LinkedTurn) (conversation : Conversation) (input : Json) (sourceKey : String)
    (output : ProcessOutput) : Conversation :=
  conversation.append turn (observedCard E output.text
    (processPayload E (verificationDescriptor turn.turnId input) output) sourceKey)

end Storing

section Verdict

variable {W : WordClass} {fromStr : String → Option ProcessOutput} {output : ProcessOutput}

/-- The id of a verification has no letter of a key in it. -/
theorem verificationId_kept (turnId : TurnId) :
    (sessionRedactor W).redactSessionText (verificationCallId turnId) = verificationCallId turnId := by
  have hex : ∀ digit : Fin 16, keyChar (LatteCode.hexDigit digit) = true ∧ LatteCode.hexDigit digit ≠ 's' := by decide
  have chars : ∀ c ∈ (verificationCallId turnId).toList, keyChar c = true ∧ c ≠ 's' := by
    rw [verificationCallId, String.toList_append]
    exact List.forall_mem_append.mpr ⟨each_of_all (by decide), TurnId.forall_mem hex (by decide) turnId⟩
  have plain := FieldText.of_keys fun c held => (chars c held).1
  have short : (verificationCallId turnId).toList.length = 49 := by
    rw [verificationCallId, String.toList_append, List.length_append, TurnId.length_toString]
    rfl
  have cap : SESSION_TEXT_CAP_BYTES = 65536 := rfl
  refine (redactSessionText_kept_iff plain.1.visible (FieldText.bracket_free fun c held => (chars c held).1)
    (not_found_assignment plain.2) (not_found_bearer plain.1.dense)).mpr ⟨by rw [plain.1.bytes]; omega, ?_⟩
  intro found
  obtain ⟨passed, body, rest, split, _⟩ := foundFrom_openaiKey.mp found
  exact (chars 's' (by rw [split]; simp)).2 rfl

theorem mem_joined {c : Char} {part : List Char} {more : List (List Char)} (held : c ∈ joined part more) :
    c = '"' ∨ ∃ some_ ∈ part :: more, c ∈ some_ := by
  induction more generalizing part with
  | nil => exact .inr ⟨part, List.mem_cons_self, held⟩
  | cons next more ih =>
      rw [joined, List.mem_append, List.mem_cons] at held
      rcases held with here | rfl | later
      · exact .inr ⟨part, List.mem_cons_self, here⟩
      · exact .inl rfl
      · rcases ih later with same | ⟨some_, listed, inside⟩
        · exact .inl same
        · exact .inr ⟨some_, List.mem_cons_of_mem _ listed, inside⟩

theorem escaped_escapeless (c : Char) : '\x1b' ∉ escapedChars c := by
  by_cases control : c.val < 0x20
  · exact control_cases (P := fun c => '\x1b' ∉ escapedChars c) (by decide) control
  · rw [escapedChars]
    split
    case isTrue named => rcases named with rfl | rfl <;> decide
    case isFalse =>
      rw [List.mem_singleton]
      rintro rfl
      exact control (by decide)

namespace ProcessOutput

/-- The text that the control filter leaves. -/
def shown (self : ProcessOutput) : List Char := self.chars.filter visible

theorem shown_layout (self : ProcessOutput) :
    self.shown = self.layout ((body self.stdout).filter visible) ((body self.stderr).filter visible) := by
  rw [shown, chars_layout, layout_filtered]

theorem chars_escapeless (self : ProcessOutput) : '\x1b' ∉ self.chars := by
  have fixed : ∀ {part : List Char}, Fixed part → '\x1b' ∉ part := fun plain held =>
    absurd (plain.bare _ held).1 (by decide)
  have escaped : ∀ text : String, '\x1b' ∉ body text := by
    intro text held
    obtain ⟨c, _, inside⟩ := List.mem_flatMap.mp held
    exact escaped_escapeless c inside
  rw [chars_layout]
  intro held
  obtain same | ⟨part, listed, inside⟩ := mem_joined held
  · exact absurd same (by decide)
  · rcases List.mem_append.mp (List.cons_append ▸ listed) with lead | listed
    · exact fixed (self.fixed_lead part lead) inside
    rcases List.mem_cons.mp listed with rfl | listed
    · exact escaped _ inside
    rcases List.mem_append.mp listed with between | listed
    · exact fixed (fixed_between part between) inside
    rcases List.mem_cons.mp listed with rfl | trail
    · exact escaped _ inside
    · exact fixed (self.fixed_trail part trail) inside

theorem layout_head (self : ProcessOutput) (stdout stderr : List Char) :
    ∃ rest, self.layout stdout stderr = "\x7b\"exit_code\":".toList ++ rest := by
  have split : "\x7b\"exit_code\":".toList = '\x7b' :: '"' :: ("exit_code".toList ++ ['"', ':']) := by decide
  refine ⟨codeChars self.exitCode ++ ',' :: '"' ::
    joined "stdout".toList ([':'] :: stdout :: (between ++ stderr :: self.trail)), ?_⟩
  rw [split, layout, parts, lead]
  simp only [joined, List.cons_append, List.nil_append, List.append_assoc]

end ProcessOutput

theorem redacted_toList (output : ProcessOutput) : ((sessionRedactor W).redactSessionText output.text).toList =
    tokenless W (sanitize .text 0 output.chars) := by
  rw [Redactor.redactSessionText, redactTokenLikeValues_toList, String.toList_ofList, ProcessOutput.text,
    String.toList_ofList]
  rfl

/-- Under both conditions, and when it is not cut, the stored text is read back. -/
theorem stored_reads (serde : ReadsProcessOutput fromStr) (fits : String.utf8Len output.shown ≤ SESSION_TEXT_CAP_BYTES)
    (assignments : AssignmentsInside W output.shown) (bearers : BearersInside W output.shown) :
    ∃ read, fromStr ((sessionRedactor W).redactSessionText output.text) = some read ∧
      read.exitCode = output.exitCode ∧ read.termination = output.termination := by
  have out := ProcessOutput.filtered_scans output.stdout
  have err := ProcessOutput.filtered_scans output.stderr
  have filtered : sanitize .text 0 output.chars = output.shown :=
    sanitize_filter output.chars_escapeless (by rw [Nat.zero_add]; exact fits)
  rw [output.shown_layout] at assignments bearers
  obtain ⟨part, more, shape, rewritten⟩ := tokenless_parts (output.fixed_lead _ List.mem_cons_self).scans
    (ProcessOutput.parts_scans out err) assignments bearers
  obtain ⟨stdout, stderr, same, outScans, errScans⟩ := ProcessOutput.layout_rewritten rewritten
  have stored : (sessionRedactor W).redactSessionText output.text = .ofList (output.layout stdout stderr) := by
    rw [← String.toList_inj, redacted_toList, String.toList_ofList, filtered, output.shown_layout, ProcessOutput.layout,
      shape, same]
  rw [stored]
  exact serde.layout output stdout stderr outScans errScans

/-- A stored text that is read at all was not cut, and both conditions held. -/
theorem stored_read (serde : ReadsProcessOutput fromStr) {read : ProcessOutput}
    (accepted : fromStr ((sessionRedactor W).redactSessionText output.text) = some read) :
    String.utf8Len output.shown ≤ SESSION_TEXT_CAP_BYTES ∧ AssignmentsInside W output.shown ∧
      BearersInside W output.shown := by
  have stored := @redacted_toList W output
  have scans : scan .plain output.shown = .ends .plain 18 := by
    rw [output.shown_layout]
    exact ProcessOutput.layout_scans (ProcessOutput.filtered_scans _) (ProcessOutput.filtered_scans _)
  obtain ⟨tail, head⟩ := output.layout_head ((ProcessOutput.body output.stdout).filter visible)
    ((ProcessOutput.body output.stderr).filter visible)
  rw [← output.shown_layout] at head
  have fits : String.utf8Len output.shown ≤ SESSION_TEXT_CAP_BYTES := by
    apply Nat.le_of_not_lt
    intro beyond
    obtain ⟨front, c, within, past, cut⟩ := sanitize_cut output.chars_escapeless (by rw [Nat.zero_add]; exact beyond)
      (Nat.zero_le _)
    -- the cut text still begins with the brace, and now ends with a bracket
    obtain ⟨front, rfl⟩ : ∃ rest, front = '\x7b' :: rest := by
      have split : "\x7b\"exit_code\":".toList = '\x7b' :: "\"exit_code\":".toList := by decide
      have shape : output.chars.filter visible = '\x7b' :: ("\"exit_code\":".toList ++ tail) := by
        rw [← ProcessOutput.shown, head, split]
        rfl
      rw [shape] at within
      cases front with
      | nil =>
          obtain ⟨rfl, _⟩ := List.cons_prefix_cons.mp within
          exact absurd past (by decide)
      | cons y front =>
          obtain ⟨rfl, _⟩ := List.cons_prefix_cons.mp within
          exact ⟨front, rfl⟩
    have opened : guarded ['\x7b'] = true := by decide
    have bracket : "…[truncated]".toList.getLast? = some ']' := by decide
    obtain ⟨rest, shape⟩ := @tokenless_guarded W ['\x7b'] opened (front ++ "…[truncated]".toList)
    have last : ('\x7b' :: front ++ "…[truncated]".toList).getLast? = some ']' := by
      rw [List.getLast?_append, bracket]
      rfl
    rw [cut] at stored
    exact serde.closes _ read rest accepted (stored.trans shape) (by rw [stored]; exact tokenless_bracket last)
  have filtered : sanitize .text 0 output.chars = output.shown :=
    sanitize_filter output.chars_escapeless (by rw [Nat.zero_add]; exact fits)
  rw [filtered] at stored
  obtain ⟨left, least, readLeft, kept⟩ := @tokenless_count W _ _ scans (stored ▸ serde.escapes _ read accepted)
  obtain ⟨rest, shape⟩ := @tokenless_guarded W "\x7b\"exit_code\":".toList (by decide) tail
  rw [← head] at shape
  have enough := serde.strings _ read _ left rest accepted (stored.trans shape) (by rw [stored]; exact readLeft)
  exact ⟨fits, kept (Nat.le_antisymm least enough)⟩

/-- The newest result answers for the id that its payload shows, with the content that it shows. -/
theorem newest_result {E : Redactor} {turn : LinkedTurn} {payload : Json} {toolCallId : String} {content : Option String}
    (shown : shownResult (E.redactSessionValue payload) = (some toolCallId, content)) (conversation : Conversation)
    (result sourceKey : String) : effectProviderResult
      (conversation.append turn (observedCard E result payload sourceKey)).window toolCallId = content := by
  have named : resultCallId (turn.entry (conversation.lastSeq + 1) (observedCard E result payload sourceKey)) =
      some toolCallId := congrArg Prod.fst shown
  have climbing := (conversation.append turn (observedCard E result payload sourceKey)).climbing
  rw [Conversation.entries_append] at climbing
  obtain ⟨older, window, _⟩ := window_from (by
    intro entry held
    rw [List.mem_singleton.mp held]
    exact fun same => nomatch same) climbing (.inr (by decide))
  rw [Conversation.window, Conversation.entries_append, window, effectProviderResult_newest rfl named]
  exact congrArg Prod.snd shown

/-- A verification shows its id and the redacted text of its result. -/
theorem processPayload_shown (descriptor : SessionEffectDescriptor)
    (kept : (sessionRedactor W).redactSessionText descriptor.toolCallId = descriptor.toolCallId) :
    shownResult ((sessionRedactor W).redactSessionValue (processPayload (sessionRedactor W) descriptor output)) =
      (some descriptor.toolCallId, some ((sessionRedactor W).redactSessionText output.text)) := by
  have keeps := sessionRedactor_keepsIds W
  have listed : ∀ member ∈ [("output", output.toJson)], member.1 ∈ providerNames := by
    intro member held
    rw [List.mem_singleton.mp held]
    exact show "output" ∈ providerNames by decide
  obtain ⟨fields, shape, shown⟩ := toolPayload_shown descriptor listed
  have inner : (sessionRedactor W).redactSessionValue (.object fields) =
      .object (Fields.insertAll ((sessionRedactor W).redactMembers fields) .nil) := by
    rw [Redactor.redactSessionValue]
  rw [processPayload, shape, inner, shownResult_delivered keeps (shown.redacted keeps), kept, kept]

/-- The observed result of a verification is found under its id. -/
theorem verified_result (turn : LinkedTurn) (conversation : Conversation) (input : Json) (sourceKey : String) :
    effectProviderResult (verified (sessionRedactor W) turn conversation input sourceKey output).window
      (verificationDescriptor turn.turnId input).toolCallId =
        some ((sessionRedactor W).redactSessionText output.text) := by
  have shown := @processPayload_shown W output (verificationDescriptor turn.turnId input)
    (verificationId_kept turn.turnId)
  rw [verified]
  generalize processPayload (sessionRedactor W) (verificationDescriptor turn.turnId input) output = payload at shown ⊢
  generalize (verificationDescriptor turn.turnId input).toolCallId = id at shown ⊢
  exact newest_result shown conversation output.text sourceKey

/-- The verdict of a verification is read back, with its exit code and its termination, exactly when its text was not
cut and no secret in it reaches out of a string or into an escape. -/
theorem verdict_survives_iff (serde : ReadsProcessOutput fromStr) (W : WordClass) (turn : LinkedTurn)
    (conversation : Conversation) (input : Json) (sourceKey : String) (output : ProcessOutput) :
    (∃ read, verificationOutput fromStr (verified (sessionRedactor W) turn conversation input sourceKey output).window
        (verificationDescriptor turn.turnId input).toolCallId = .ok read ∧ read.exitCode = output.exitCode ∧
          read.termination = output.termination ∧ read.commandSucceeded = output.commandSucceeded) ↔
      String.utf8Len output.shown ≤ SESSION_TEXT_CAP_BYTES ∧ AssignmentsInside W output.shown ∧
        BearersInside W output.shown := by
  rw [verificationOutput, verified_result]
  constructor
  · rintro ⟨read, parsed, _⟩
    exact stored_read serde (require_ok.mp parsed)
  · rintro ⟨fits, assignments, bearers⟩
    obtain ⟨read, accepted, code, termination⟩ := stored_reads serde fits assignments bearers
    refine ⟨read, require_ok.mpr accepted, code, termination, ?_⟩
    rw [ProcessOutput.commandSucceeded, ProcessOutput.commandSucceeded, code, termination]

/-- Otherwise the turn stays as it is: the stored text is no process result. -/
theorem finishVerification_stuck (serde : ReadsProcessOutput fromStr) (turn : LinkedTurn) (conversation : Conversation)
    (input : Json) (sourceKey : String) (lost : ¬ (String.utf8Len output.shown ≤ SESSION_TEXT_CAP_BYTES ∧
      AssignmentsInside W output.shown ∧ BearersInside W output.shown)) :
    finishVerification fromStr (verified (sessionRedactor W) turn conversation input sourceKey output).window
      (verificationDescriptor turn.turnId input).toolCallId input = .error .notAProcessResult := by
  rw [finishVerification, verificationOutput, verified_result]
  cases parsed : fromStr ((sessionRedactor W).redactSessionText output.text) with
  | none =>
      simp only [require, bind, Except.bind, parsed]
  | some read => exact absurd (stored_read serde parsed) lost

end Verdict

section Samples

open Classical in
/-- A reader of the texts that the layout describes, exact on one of them. -/
noncomputable def layoutReader (known : ProcessOutput) (text : String) : Option ProcessOutput :=
  if text = known.text then some known
  else if described : ∃ (output : ProcessOutput) (stdout stderr : List Char), scan .plain stdout = .ends .plain 0 ∧
      scan .plain stderr = .ends .plain 0 ∧ text = .ofList (output.layout stdout stderr) then some described.choose
  else none

variable {known : ProcessOutput} {text : String} {read : ProcessOutput}

theorem code_injective {code code' : Option Int32} (same : ProcessOutput.codeChars code = ProcessOutput.codeChars code') :
    code = code' := by
  have digits : ∀ n : Nat, ∀ c ∈ (Nat.repr n).toList, c.isDigit = true := by
    intro n c held
    rw [Nat.toList_repr] at held
    exact Nat.isDigit_of_mem_toDigits (by decide) (by decide) held
  have number : ∀ n : Int, (toString n).toList =
      if 0 ≤ n then (Nat.repr n.toNat).toList else '-' :: (Nat.repr (-n).toNat).toList := by
    intro n
    rw [Int.toString_eq_repr, Int.repr_eq_if]
    split
    · rfl
    · rw [String.toList_append]
      rfl
  have signed : ∀ n : Int, ∀ c ∈ (toString n).toList, c.isDigit = true ∨ c = '-' := by
    intro n c held
    rw [number] at held
    split at held
    · exact .inl (digits _ c held)
    · rcases List.mem_cons.mp held with rfl | digit
      · exact .inr rfl
      · exact .inl (digits _ c digit)
  have numberless : ∀ n : Int, "null".toList ≠ (toString n).toList := by
    intro n both
    have held : 'n' ∈ (toString n).toList := both ▸ (by decide)
    rcases signed n 'n' held with digit | hyphen
    · exact absurd digit (by decide)
    · exact absurd hyphen (by decide)
  have natural : ∀ {m n : Nat}, (Nat.repr m).toList = (Nat.repr n).toList → m = n := fun both =>
    Delimited.toString_injective (String.toList_inj.mp both)
  have whole : ∀ {m n : Int}, (toString m).toList = (toString n).toList → m = n := by
    intro m n both
    have hyphen : ∀ {k l : Nat}, (Nat.repr k).toList ≠ '-' :: (Nat.repr l).toList := fun both =>
      absurd (digits _ '-' (both ▸ List.mem_cons_self)) (by decide)
    rw [number, number] at both
    split at both
    case isTrue positive =>
      split at both
      case isTrue other =>
        have nat := natural both
        omega
      case isFalse => exact absurd both hyphen
    case isFalse negative =>
      split at both
      case isTrue => exact absurd both.symm hyphen
      case isFalse other =>
        have nat := natural (List.cons.inj both).2
        omega
  cases code with
  | none =>
      cases code' with
      | none => rfl
      | some code' => exact absurd same (numberless _)
  | some code =>
      cases code' with
      | none => exact absurd same.symm (numberless _)
      | some code' => exact congrArg some (Int32.toInt_inj.mp (whole same))

/-- The exit code and the termination of a text are its own. -/
theorem layout_injective {output output' : ProcessOutput} {stdout stderr stdout' stderr' : List Char}
    (out : scan .plain stdout = .ends .plain 0) (err : scan .plain stderr = .ends .plain 0)
    (out' : scan .plain stdout' = .ends .plain 0) (err' : scan .plain stderr' = .ends .plain 0)
    (same : output.layout stdout stderr = output'.layout stdout' stderr') :
    output.exitCode = output'.exitCode ∧ output.termination = output'.termination := by
  have brace : ∀ next ∈ [['\x7b']], scan .plain next = .ends .plain 0 := by decide
  have parts := (joined_injective (List.forall_mem_cons.mpr ⟨brace _ List.mem_cons_self, ProcessOutput.parts_scans out err⟩)
    (List.forall_mem_cons.mpr ⟨brace _ List.mem_cons_self, ProcessOutput.parts_scans out' err'⟩) same).2
  have names : ∀ {one other : ProcessTermination}, one.name.toList = other.name.toList → one = other := by
    intro one other
    cases one <;> cases other <;> decide
  simp only [ProcessOutput.parts, ProcessOutput.lead, ProcessOutput.trail, List.cons_append, List.nil_append,
    ProcessOutput.between, List.cons.injEq, List.append_left_inj, and_true, true_and] at parts
  exact ⟨code_injective parts.1, names (by tauto)⟩

theorem layout_last (output : ProcessOutput) (stdout stderr : List Char) :
    (output.layout stdout stderr).getLast? = some '\x7d' := by
  have split : output.parts stdout stderr = (output.lead ++ stdout :: (ProcessOutput.between ++ stderr ::
      output.trail.dropLast)) ++ [['\x7d']] := rfl
  rw [ProcessOutput.layout, split, joined_concat, List.getLast?_append]
  rfl

theorem layoutReader_some (accepted : layoutReader known text = some read) :
    ∃ (output : ProcessOutput) (stdout stderr : List Char), scan .plain stdout = .ends .plain 0 ∧
      scan .plain stderr = .ends .plain 0 ∧ text = .ofList (output.layout stdout stderr) ∧ read = output := by
  rw [layoutReader] at accepted
  split at accepted
  case isTrue same =>
    cases accepted
    exact ⟨known, _, _, ProcessOutput.body_scans _, ProcessOutput.body_scans _,
      same.trans (congrArg String.ofList known.chars_layout), rfl⟩
  case isFalse =>
    split at accepted
    case isTrue described =>
      cases accepted
      obtain ⟨stdout, stderr, out, err, shape⟩ := described.choose_spec
      exact ⟨_, stdout, stderr, out, err, shape, rfl⟩
    case isFalse => cases accepted

theorem layoutReader_reads (known : ProcessOutput) : ReadsProcessOutput (layoutReader known) where
  layout := by
    intro output stdout stderr out err
    cases accepted : layoutReader known (.ofList (output.layout stdout stderr)) with
    | none =>
        rw [layoutReader] at accepted
        split at accepted
        case isTrue => cases accepted
        case isFalse =>
          rw [dif_pos ⟨output, stdout, stderr, out, err, rfl⟩] at accepted
          cases accepted
    | some read =>
        obtain ⟨_, stdout', stderr', out', err', shape, rfl⟩ := layoutReader_some accepted
        have same := layout_injective out' err' out err (String.ofList_injective shape).symm
        exact ⟨read, rfl, same⟩
  escapes := by
    intro text read accepted
    obtain ⟨output, stdout, stderr, out, err, rfl, _⟩ := layoutReader_some accepted
    rw [String.toList_ofList, ProcessOutput.layout_scans out err]
    exact fun same => nomatch same
  strings := by
    intro text read mode quotes rest accepted _ scans
    obtain ⟨output, stdout, stderr, out, err, rfl, _⟩ := layoutReader_some accepted
    rw [String.toList_ofList, ProcessOutput.layout_scans out err] at scans
    cases scans
    exact Nat.le_refl 18
  closes := by
    intro text read rest accepted _
    obtain ⟨output, stdout, stderr, _, _, rfl, _⟩ := layoutReader_some accepted
    rw [String.toList_ofList, layout_last]
    decide

/-- A passing run with a short report. -/
def passingOutput : ProcessOutput := ⟨some 0, "42 passed\n", "", false, false, .exited⟩

theorem verdict_survives_passing :
    ∃ read, verificationOutput (layoutReader passingOutput) (verified (sessionRedactor asciiClass) sampleLinked
        emptyConversation .null "verify" passingOutput).window (verificationDescriptor sampleLinked.turnId .null).toolCallId =
          .ok read ∧ read.exitCode = some 0 ∧ read.termination = .exited ∧ read.commandSucceeded = true := by
  have assignments : replacedFrom (namedAssignment asciiClass) 0 [] passingOutput.shown = [] := by decide +kernel
  have bearers : replacedFrom (bearerToken asciiClass) 0 [] (unassigned asciiClass passingOutput.shown) = [] := by
    decide +kernel
  refine (verdict_survives_iff (layoutReader_reads passingOutput) asciiClass sampleLinked emptyConversation .null "verify"
    passingOutput).mpr ⟨by decide +kernel, ?_, ?_⟩
  · rw [AssignmentsInside, assignments]
    exact List.forall_mem_nil _
  · rw [BearersInside, bearers]
    exact List.forall_mem_nil _

/-- A passing run whose report ends with an assignment to a secret name. -/
def tokenOutput : ProcessOutput := ⟨some 0, "token=abc", "", false, false, .exited⟩

/-- The assignment swallows the quote behind it, and the turn stays running. -/
theorem verdict_lost : finishVerification (layoutReader tokenOutput) (verified (sessionRedactor asciiClass) sampleLinked
    emptyConversation .null "verify" tokenOutput).window (verificationDescriptor sampleLinked.turnId .null).toolCallId
      .null = .error .notAProcessResult := by
  apply finishVerification_stuck (layoutReader_reads tokenOutput)
  rintro ⟨_, assignments, _⟩
  have found : (replacedFrom (namedAssignment asciiClass) 0 [] tokenOutput.shown).any (fun pair =>
      scan .plain pair.1 = .ends .plain 5 && scan .plain pair.2 = .ends .plain 1) = true := by decide +kernel
  obtain ⟨pair, listed, both⟩ := List.any_eq_true.mp found
  rw [Bool.and_eq_true, decide_eq_true_eq, decide_eq_true_eq] at both
  exact absurd (assignments pair listed .plain 5 both.1 .plain 1 both.2) (by decide)

end Samples

end LatteCode.Headless
