import LatteCode.Core.Secrets
import LatteCode.Headless.Rounds
/- Provider ids under the session redactor: what it leaves of them, and which ids the keys of a turn can carry. -/

namespace LatteCode.Headless
open Delimited Outcome Regex Storage

section Shapes

variable {text more : List Char}

/-- Text that a source key may hold as one field: legible, and without separators. -/
def FieldText (text : List Char) : Prop := Legible text ∧ ∀ c ∈ text, c ≠ ':' ∧ c ≠ '='

instance (text : List Char) : Decidable (FieldText text) :=
  @instDecidableAnd _ _ _ (List.decidableBAll (fun c : Char => c ≠ ':' ∧ c ≠ '=') text)

theorem Legible.dense (legible : Legible text) : ∀ c ∈ text, isWhitespace c = false := by
  intro c held
  obtain ⟨low, high⟩ := legible c held
  have apart : ∀ bound : UInt32, bound.toNat < 0x2d ∨ 0x7a < bound.toNat → c.val ≠ bound := by
    rintro bound outside rfl
    omega
  have ranges : ¬ (c.val ≤ 0x0d) ∧ ¬ (0x2000 ≤ c.val) := by
    rw [UInt32.le_iff_toNat_le, UInt32.le_iff_toNat_le]
    exact ⟨Nat.not_le.mpr (Nat.lt_of_lt_of_le (by decide) low), Nat.not_le.mpr (Nat.lt_of_le_of_lt high (by decide))⟩
  rw [isWhitespace, decide_eq_false ranges.1, decide_eq_false ranges.2, Bool.and_false, Bool.false_and, Bool.false_or,
    Bool.false_or, List.contains_eq_mem, decide_eq_false]
  intro listed
  simp only [List.mem_cons, List.not_mem_nil, or_false] at listed
  rcases listed with same | same | same | same | same | same | same | same | same
  all_goals exact apart _ (by decide) same

theorem Legible.bytes (legible : Legible text) : String.utf8Len text = text.length := by
  induction text with
  | nil => rfl
  | cons c rest ih =>
      have one : c.utf8Size = 1 := by
        rw [Char.utf8Size_eq_one_iff, UInt32.le_iff_toNat_le]
        exact Nat.le_trans (legible c List.mem_cons_self).2 (by decide)
      rw [String.utf8Len_cons, ih fun other held => legible other (List.mem_cons_of_mem c held), one, List.length_cons]

theorem validToolCallId_keys {id : String} (valid : validToolCallId id = true) : ∀ c ∈ id.toList, keyChar c = true := by
  simp only [validToolCallId, Bool.and_eq_true, List.all_eq_true] at valid
  intro c held
  have shape := valid.2 c held
  simp only [isAsciiAlphanumeric, Bool.or_eq_true, decide_eq_true_eq] at shape
  simp only [keyChar, asciiWord, Bool.or_eq_true, Bool.and_eq_true, decide_eq_true_eq]
  tauto

theorem keyChar_fieldText {c : Char} (key : keyChar c = true) :
    (0x2d ≤ c.val.toNat ∧ c.val.toNat ≤ 0x7a) ∧ c ≠ ':' ∧ c ≠ '=' := by
  have apart : c ≠ ':' ∧ c ≠ '=' := by
    constructor
    · rintro rfl
      exact absurd key (by decide)
    · rintro rfl
      exact absurd key (by decide)
  refine ⟨?_, apart⟩
  simp only [keyChar, asciiWord, Bool.or_eq_true, Bool.and_eq_true, decide_eq_true_eq, Char.le_def,
    UInt32.le_iff_toNat_le] at key
  rcases key with (((⟨low, high⟩ | ⟨low, high⟩) | ⟨low, high⟩) | rfl) | rfl
  · exact ⟨Nat.le_trans (by decide) low, Nat.le_trans high (by decide)⟩
  · exact ⟨Nat.le_trans (by decide) low, Nat.le_trans high (by decide)⟩
  · exact ⟨Nat.le_trans (by decide) low, Nat.le_trans high (by decide)⟩
  · decide
  · decide

theorem FieldText.of_keys (keys : ∀ c ∈ text, keyChar c = true) : FieldText text :=
  ⟨fun c held => (keyChar_fieldText (keys c held)).1, fun c held => (keyChar_fieldText (keys c held)).2⟩

theorem FieldText.bracket_free (keys : ∀ c ∈ text, keyChar c = true) : '[' ∉ text := fun held =>
  absurd (keys '[' held) (by decide)

example : FieldText "call_1-a".toList := by decide +kernel

/-- What the key pattern leaves of a field text is one. -/
theorem FieldText.replaced (plain : FieldText text) (W : WordClass) (before : Option Char) :
    FieldText (replaceFrom (openaiKey W) keyMarker 0 before text) := by
  have mark : FieldText redactedMark := by decide
  constructor
  · intro c held
    rcases mem_replaceFrom held with old | ⟨_, new⟩
    · exact plain.1 c old
    · exact mark.1 c new
  · intro c held
    rcases mem_replaceFrom held with old | ⟨_, new⟩
    · exact plain.2 c old
    · exact mark.2 c new

theorem length_replaced (W : WordClass) (before : Option Char) :
    (replaceFrom (openaiKey W) keyMarker 0 before text).length ≤ 10 * text.length := by
  have size : redactedMark.length ≤ 10 := by decide
  exact length_replaceFrom (by decide) fun _ => size

end Shapes

section EffectIds

variable (turnId : TurnId) (roundSequence ordinal : Nat)

/-- An effect id without the call id and the colon before it. -/
def effectLead : List Char :=
  ("session-effect" ++ ":" ++ turnId.toString ++ ":" ++ toString roundSequence ++ ":" ++ toString ordinal).toList

theorem effectIdOf_toList (id : String) :
    (effectIdOf turnId roundSequence ordinal id).toList = effectLead turnId roundSequence ordinal ++ ':' :: id.toList := by
  have colon : ":".toList = [':'] := by decide
  unfold effectIdOf effectLead
  generalize turnId.toString = turnText
  generalize toString roundSequence = roundText
  generalize toString ordinal = placeText
  simp only [String.toList_append, List.append_assoc, colon, List.singleton_append, List.cons_append, List.nil_append]

/-- The characters of an effect id before its call id: those of its name, of numbers and of a turn id. -/
theorem effectLead_forall (P : Char → Prop) (name : ∀ c ∈ "session-effect:".toList, P c)
    (hex : ∀ digit : Fin 16, P (hexDigit digit)) (hyphen : P '-') (digit : ∀ c : Char, c.isDigit = true → P c) :
    ∀ c ∈ effectLead turnId roundSequence ordinal, P c := by
  have number : ∀ n : Nat, ∀ c ∈ (toString n).toList, P c := by
    intro n c held
    rw [Nat.toString_eq_repr, Nat.toList_repr] at held
    exact digit c (Nat.isDigit_of_mem_toDigits (by decide) (by decide) held)
  have turn := TurnId.forall_mem hex hyphen turnId
  have round := number roundSequence
  have place := number ordinal
  have colon : ∀ c ∈ ":".toList, P c := by
    intro c held
    have same : c = ':' := List.mem_singleton.mp held
    exact name c (same ▸ by decide)
  have title : ∀ c ∈ "session-effect".toList, P c := by
    intro c held
    have part : ∀ c ∈ "session-effect".toList, c ∈ "session-effect:".toList := each_of_all (by decide)
    exact name c (part c held)
  unfold effectLead
  generalize turnId.toString = turnText at turn
  generalize toString roundSequence = roundText at round
  generalize toString ordinal = placeText at place
  simp only [String.toList_append, List.mem_append]
  rintro c ((((((held | held) | held) | held) | held) | held) | held)
  · exact title c held
  · exact colon c held
  · exact turn c held
  · exact colon c held
  · exact round c held
  · exact colon c held
  · exact place c held

variable {id : List Char}

theorem effectLead_unspelled : ∀ c ∈ effectLead turnId roundSequence ordinal, Unspelled c :=
  effectLead_forall turnId roundSequence ordinal Unspelled (each_of_all (by decide)) (by decide) (by decide)
    fun _ => unspelled_digit

theorem effectLead_legible : Legible (effectLead turnId roundSequence ordinal) := by
  exact effectLead_forall turnId roundSequence ordinal (fun c => 0x2d ≤ c.val.toNat ∧ c.val.toNat ≤ 0x7a)
    (each_of_all (by decide)) (by decide) (by decide) fun _ => digit_legible

theorem effectText_legible (legible : Legible id) :
    Legible (effectLead turnId roundSequence ordinal ++ ':' :: id) := by
  have colon : Legible [':'] := by decide
  exact (effectLead_legible turnId roundSequence ordinal).append (colon.append legible)

variable (W : WordClass)

/-- No key starts in front of the call id: an `s` with a `k` behind it is missing there. -/
theorem effectLead_untouched {before : Option Char} : ∀ early later,
    effectLead turnId roundSequence ordinal ++ [':'] = early ++ later → later ≠ [] →
      ∀ d ∈ run (openaiKey W) ⟨early.getLast?.or before, later ++ id, []⟩, ¬ d.rest.length < (later ++ id).length := by
  intro early later split more d held _
  obtain ⟨body, ahead, _⟩ := run_openaiKey.mp ⟨d, held, rfl⟩
  cases later with
  | nil => exact more rfl
  | cons y later =>
      obtain ⟨rfl, behind⟩ : y = 's' ∧ later ++ id = 'k' :: '-' :: (body ++ d.rest) := List.cons.inj ahead
      cases later with
      | nil =>
          have last := congrArg List.getLast? split
          rw [List.getLast?_append, List.getLast?_append] at last
          exact absurd (Option.some.inj last) (by decide)
      | cons z later =>
          obtain ⟨rfl, _⟩ := List.cons.inj behind
          have inside : 'k' ∈ effectLead turnId roundSequence ordinal ++ [':'] := by
            rw [split]
            simp
          rcases List.mem_append.mp inside with lead | colon
          · have unspelled := (effectLead_unspelled turnId roundSequence ordinal 'k' lead).1
            exact absurd unspelled (by decide)
          · exact absurd (List.mem_singleton.mp colon) (by decide)

theorem effectText_split : effectLead turnId roundSequence ordinal ++ ':' :: id =
    (effectLead turnId roundSequence ordinal ++ [':']) ++ id := by
  rw [List.append_assoc, List.singleton_append]

theorem effectText_found : Found (openaiKey W) (effectLead turnId roundSequence ordinal ++ ':' :: id) ↔
    FoundFrom (openaiKey W) (some ':') id := by
  rw [effectText_split, Found, foundFrom_passed (effectLead_untouched turnId roundSequence ordinal W),
    List.getLast?_append, List.getLast?_singleton, Option.some_or, Option.some_or]

theorem effectText_replaced : replaceAll (openaiKey W) keyMarker (effectLead turnId roundSequence ordinal ++ ':' :: id) =
    effectLead turnId roundSequence ordinal ++ ':' :: replaceFrom (openaiKey W) keyMarker 0 (some ':') id := by
  rw [effectText_split, replaceAll, replaceFrom_passed (effectLead_untouched turnId roundSequence ordinal W),
    List.getLast?_append, List.getLast?_singleton, Option.some_or, Option.some_or, List.append_assoc,
    List.singleton_append]

end EffectIds

section Redaction

variable {W : WordClass} {id : String}

theorem validToolCallId_fits (valid : validToolCallId id = true) : id.toList.length ≤ 256 := by
  have bytes := (validToolCallId_legible valid).bytes
  simp only [validToolCallId, Bool.and_eq_true, decide_eq_true_eq] at valid
  rw [← bytes, String.utf8Len_toList]
  exact valid.1.2

/-- A field text of moderate length only loses its keys. -/
theorem redactSessionText_field {text : List Char} (plain : FieldText text) (fits : text.length ≤ 2560) :
    (sessionRedactor W).redactSessionText (.ofList text) = .ofList (replaceAll (openaiKey W) keyMarker text) := by
  have kept := @redactSessionText_keys W (.ofList text)
  rw [String.toList_ofList] at kept
  have cap : SESSION_TEXT_CAP_BYTES = 65536 := rfl
  exact kept plain.1.visible (by rw [plain.1.bytes]; omega) (not_found_assignment plain.2)
    (not_found_bearer plain.1.dense)

/-- An id is kept exactly when nothing in it looks like a key. -/
theorem redact_id_iff (valid : validToolCallId id = true) :
    (sessionRedactor W).redactSessionText id = id ↔ ¬ KeyLike id.toList := by
  have keys := validToolCallId_keys valid
  have plain := FieldText.of_keys keys
  have short := validToolCallId_fits valid
  have cap : SESSION_TEXT_CAP_BYTES = 65536 := rfl
  rw [redactSessionText_kept_iff plain.1.visible (FieldText.bracket_free keys) (not_found_assignment plain.2)
    (not_found_bearer plain.1.dense), and_iff_right (by rw [plain.1.bytes]; omega), Found, foundFrom_keys keys rfl]

/-- The effect id is kept exactly when its call id is and it is not cut. -/
theorem redact_effectId_iff (turnId : TurnId) (roundSequence ordinal : Nat) (valid : validToolCallId id = true) :
    (sessionRedactor W).redactSessionText (effectIdOf turnId roundSequence ordinal id) =
        effectIdOf turnId roundSequence ordinal id ↔
      (effectIdOf turnId roundSequence ordinal id).utf8ByteSize ≤ SESSION_TEXT_CAP_BYTES ∧ ¬ KeyLike id.toList := by
  have keys := validToolCallId_keys valid
  have plain := FieldText.of_keys keys
  have shape := effectIdOf_toList turnId roundSequence ordinal id
  have legible := effectText_legible turnId roundSequence ordinal plain.1
  have bracket : '[' ∉ effectLead turnId roundSequence ordinal ++ ':' :: id.toList := by
    have lead : ∀ c ∈ effectLead turnId roundSequence ordinal, c ≠ '[' := by
      refine effectLead_forall turnId roundSequence ordinal (fun c => c ≠ '[') (each_of_all (by decide)) (by decide)
        (by decide) ?_
      rintro _ digit rfl
      exact absurd digit (by decide)
    rw [List.mem_append, List.mem_cons, not_or, not_or]
    exact ⟨fun held => lead _ held rfl, by decide, FieldText.bracket_free keys⟩
  have nonword : (some ':').any W.word = false := by
    rw [Option.any_some, W.ascii ':' (by decide)]
    decide
  have whole := @redactSessionText_kept_iff W (effectIdOf turnId roundSequence ordinal id)
  rw [shape] at whole
  rw [whole legible.visible bracket
    (not_found_assignment_behind (effectLead_unspelled turnId roundSequence ordinal) plain.2)
    (not_found_bearer legible.dense), effectText_found, foundFrom_keys keys nonword, ← shape, String.utf8Len_toList]

/-- The secret patterns keep the names of the protocol, and change an id for good or not at all. -/
theorem sessionRedactor_keepsIds (W : WordClass) : KeepsIds (sessionRedactor W) where
  names := by
    have table : ∀ name ∈ providerNames, validToolCallId name = true ∧ '-' ∉ name.toList := by decide +kernel
    intro name listed
    obtain ⟨valid, hyphens⟩ := table name listed
    rw [redact_id_iff valid]
    rintro ⟨passed, after, split, _⟩
    exact hyphens (by rw [split]; simp)
  idempotent := by
    intro id valid
    have keys := validToolCallId_keys valid
    have plain := FieldText.of_keys keys
    have short := validToolCallId_fits valid
    have once := @redactSessionText_field W _ plain (by omega)
    rw [String.ofList_toList] at once
    have length := @length_replaced id.toList W none
    have again := @redactSessionText_field W _ (plain.replaced W none) (by omega)
    rw [replaceAll_unfound (replaced_unfound keys (.inl rfl))] at again
    rw [once]
    exact again
  rewritten := by
    intro id valid shown
    have plain := FieldText.of_keys (validToolCallId_keys valid)
    have short := validToolCallId_fits valid
    rw [redact_id_iff valid, ← @foundFrom_keys W _ (validToolCallId_keys valid) none rfl]
    intro found
    have once := @redactSessionText_field W _ plain (by omega)
    rw [String.ofList_toList] at once
    have mark : '[' ∈ redactedMark := by decide
    apply FieldText.bracket_free (validToolCallId_keys shown)
    rw [once, String.toList_ofList]
    exact mem_replaceFrom_found (fun _ => mark) found
  effectIds := by
    intro turnId roundSequence ordinal call valid kept
    exact (redact_id_iff valid).mpr ((redact_effectId_iff turnId roundSequence ordinal valid).mp kept).2

theorem TurnId.bytes (turnId : TurnId) : turnId.toString.utf8ByteSize = 36 := by
  rw [← String.utf8Len_toList, (TurnId.legible turnId).bytes, TurnId.length_toString]

theorem effectIdOf_bytes (turnId : TurnId) (roundSequence ordinal : Nat) (id : String) :
    (effectIdOf turnId roundSequence ordinal id).utf8ByteSize =
      54 + (toString roundSequence).utf8ByteSize + (toString ordinal).utf8ByteSize + id.utf8ByteSize := by
  have turn := TurnId.bytes turnId
  have name : "session-effect".utf8ByteSize = 14 := by decide +kernel
  have colon : ":".utf8ByteSize = 1 := by decide +kernel
  unfold effectIdOf
  generalize turnId.toString = turnText at turn
  generalize toString roundSequence = roundText
  generalize toString ordinal = placeText
  simp only [String.utf8ByteSize_append, turn, name, colon]
  omega

example : (effectIdOf ⟨⟨1⟩⟩ 1 0 "call_1").utf8ByteSize = 62 := by decide +kernel

theorem number_bytes {n : Nat} (range : n < 2 ^ 64) : (toString n).utf8ByteSize ≤ 20 := by
  obtain ⟨legible, short⟩ := number_legible range
  rw [← String.utf8Len_toList, legible.bytes]
  exact short

theorem Presented.fieldText (presented : Presented (sessionRedactor W) id) :
    FieldText id.toList ∧ id.toList.length ≤ 2560 := by
  obtain ⟨original, valid, same⟩ := presented
  have plain := FieldText.of_keys (validToolCallId_keys valid)
  have short := validToolCallId_fits valid
  have length := @length_replaced original.toList W none
  have once := @redactSessionText_field W _ plain (by omega)
  rw [String.ofList_toList] at once
  rcases same with rfl | rfl
  · exact ⟨plain, by omega⟩
  · rw [once, String.toList_ofList]
    exact ⟨plain.replaced W none, by rw [replaceAll]; omega⟩

/-- Redaction of an effect id redacts the call id in its place. -/
theorem sessionRedactor_keepsAddresses (W : WordClass) : KeepsAddresses (sessionRedactor W) where
  clear := by
    intro id valid held
    exact ((Presented.fieldText ⟨id, valid, .inr rfl⟩).1.2 ':' held).1 rfl
  effectId := by
    intro turnId roundSequence ordinal id range few presented
    obtain ⟨plain, short⟩ := presented.fieldText
    have legible := effectText_legible turnId roundSequence ordinal plain.1
    have cap : SESSION_TEXT_CAP_BYTES = 65536 := rfl
    have bytes : String.utf8Len (effectLead turnId roundSequence ordinal ++ ':' :: id.toList) ≤
        SESSION_TEXT_CAP_BYTES := by
      have round := number_bytes range
      have place := number_bytes few
      have call : id.utf8ByteSize = id.toList.length := by rw [← String.utf8Len_toList, plain.1.bytes]
      rw [← effectIdOf_toList, String.utf8Len_toList, effectIdOf_bytes]
      omega
    have whole := @redactSessionText_keys W (effectIdOf turnId roundSequence ordinal id)
    rw [effectIdOf_toList] at whole
    have redacted := whole legible.visible bytes
      (not_found_assignment_behind (effectLead_unspelled turnId roundSequence ordinal) plain.2)
      (not_found_bearer legible.dense)
    refine ⟨.ofList (replaceFrom (openaiKey W) keyMarker 0 (some ':') id.toList), ?_, ?_⟩
    · intro held
      rw [String.toList_ofList] at held
      exact ((plain.replaced W (some ':')).2 ':' held).1 rfl
    · apply String.toList_inj.mp
      rw [redacted, String.toList_ofList, effectIdOf_toList, String.toList_ofList, effectText_replaced]

end Redaction

section Sources

variable (turnId : TurnId)

def inputRequestKey (id : String) : String := turnId.toString ++ ":" ++ "input-request" ++ ":" ++ id

def denialKey (requestId : String) : String :=
  turnId.toString ++ ":" ++ "permission" ++ ":" ++ requestId ++ ":" ++ "deny"

/-- The stages committed under an effect id; `start` is the one behind an approval. -/
def effectStages : List String := ["start", "observe", "observe-failed", "unknown", "cancelled-after-start"]

/-- Every source key built from an id: of its round or its input request, of its call, of its effect. -/
def sourceKeys (ordinal : Nat) (call : ToolCall) (effectId : String) : List String :=
  [roundKey turnId call.id, inputRequestKey turnId call.id, prepareKey turnId call ordinal,
    startKey turnId call ordinal, permissionKey turnId effectId, denialKey turnId effectId] ++
    effectStages.map (effectKey turnId effectId)

variable {turnId} {key id name stage : String}

theorem validateSessionSource_iff (legible : Legible key.toList) (inhabited : 0 < key.utf8ByteSize) :
    validateSessionSource key = .ok () ↔ key.utf8ByteSize ≤ 256 := by
  have nonempty : key.isEmpty = false := by
    rw [String.isEmpty_eq_false_iff]
    rintro rfl
    exact absurd inhabited (by decide)
  have visible : key.toList.any isControl = false :=
    List.any_eq_false.mpr fun c held => Bool.eq_false_iff.mp (legible.visible c held).2
  rw [validateSessionSource, ensure_ok, nonempty, visible]
  simp

/-- A key of a turn: the turn id, and what stands behind its first colon. -/
theorem turnKey_valid (legible : Legible key.toList) :
    validateSessionSource (turnId.toString ++ ":" ++ key) = .ok () ↔ key.utf8ByteSize ≤ 219 := by
  have turn := TurnId.legible turnId
  have bytes := TurnId.bytes turnId
  generalize turnId.toString = turnText at turn bytes
  have colon : Legible ":".toList := by decide
  have one : ":".utf8ByteSize = 1 := by decide +kernel
  have size : (turnText ++ ":" ++ key).utf8ByteSize = 37 + key.utf8ByteSize := by
    rw [String.utf8ByteSize_append, String.utf8ByteSize_append, bytes, one]
  have whole : Legible (turnText ++ ":" ++ key).toList := by
    rw [String.toList_append, String.toList_append]
    exact (turn.append colon).append legible
  rw [validateSessionSource_iff whole (by omega), size]
  omega

/-- The keys with one name between a title and a stage. -/
theorem titledKey_valid {title : String} (titled : Legible title.toList) (named : Legible name.toList)
    (staged : Legible stage.toList) :
    validateSessionSource (turnId.toString ++ ":" ++ title ++ ":" ++ name ++ ":" ++ stage) = .ok () ↔
      title.utf8ByteSize + name.utf8ByteSize + stage.utf8ByteSize ≤ 217 := by
  have colon : Legible ":".toList := by decide
  have one : ":".utf8ByteSize = 1 := by decide +kernel
  have shape : turnId.toString ++ ":" ++ title ++ ":" ++ name ++ ":" ++ stage =
      turnId.toString ++ ":" ++ (title ++ ":" ++ name ++ ":" ++ stage) := by
    generalize turnId.toString = turnText
    simp only [String.append_assoc]
  have legible : Legible (title ++ ":" ++ name ++ ":" ++ stage).toList := by
    simp only [String.toList_append]
    exact (((titled.append colon).append named).append colon).append staged
  rw [shape, turnKey_valid legible]
  simp only [String.utf8ByteSize_append, one]
  omega

theorem plainKey_valid {title : String} (titled : Legible title.toList) (named : Legible name.toList) :
    validateSessionSource (turnId.toString ++ ":" ++ title ++ ":" ++ name) = .ok () ↔
      title.utf8ByteSize + name.utf8ByteSize ≤ 218 := by
  have colon : Legible ":".toList := by decide
  have one : ":".utf8ByteSize = 1 := by decide +kernel
  have shape : turnId.toString ++ ":" ++ title ++ ":" ++ name = turnId.toString ++ ":" ++ (title ++ ":" ++ name) := by
    generalize turnId.toString = turnText
    simp only [String.append_assoc]
  have legible : Legible (title ++ ":" ++ name).toList := by
    simp only [String.toList_append]
    exact (titled.append colon).append named
  rw [shape, turnKey_valid legible]
  simp only [String.utf8ByteSize_append, one]
  omega

/-- The longest of the keys is that of a cancellation after the start. -/
theorem sourceKeys_valid {ordinal : Nat} {call : ToolCall} {effectId : String} (legible : Legible call.id.toList)
    (place : Legible (toString ordinal).toList) (effect : Legible effectId.toList)
    (within : call.id.utf8ByteSize + (toString ordinal).utf8ByteSize < effectId.utf8ByteSize) :
    (∀ sourceKey ∈ sourceKeys turnId ordinal call effectId, validateSessionSource sourceKey = .ok ()) ↔
      effectId.utf8ByteSize ≤ 190 := by
  have stages : ∀ stage ∈ effectStages, Legible stage.toList ∧ stage.utf8ByteSize ≤ 21 := by decide +kernel
  have last : "cancelled-after-start" ∈ effectStages ∧ "cancelled-after-start".utf8ByteSize = 21 := by decide +kernel
  have effectTitle : Legible "effect".toList ∧ "effect".utf8ByteSize = 6 := by decide +kernel
  have permission : Legible "permission".toList ∧ "permission".utf8ByteSize = 10 := by decide +kernel
  have round : Legible "assistant-tool-round".toList ∧ "assistant-tool-round".utf8ByteSize = 20 := by decide +kernel
  have input : Legible "input-request".toList ∧ "input-request".utf8ByteSize = 13 := by decide +kernel
  have prepare : Legible "prepare".toList ∧ "prepare".utf8ByteSize = 7 := by decide +kernel
  have start : Legible "start".toList ∧ "start".utf8ByteSize = 5 := by decide +kernel
  have allow : Legible "allow".toList ∧ "allow".utf8ByteSize = 5 := by decide +kernel
  have deny : Legible "deny".toList ∧ "deny".utf8ByteSize = 4 := by decide +kernel
  have colon : Legible ":".toList ∧ ":".utf8ByteSize = 1 := by decide +kernel
  have called : Legible (call.id ++ ":" ++ toString ordinal).toList := by
    simp only [String.toList_append]
    exact (legible.append colon.1).append place
  have calledBytes : (call.id ++ ":" ++ toString ordinal).utf8ByteSize =
      call.id.utf8ByteSize + 1 + (toString ordinal).utf8ByteSize := by
    simp only [String.utf8ByteSize_append, colon.2]
  constructor
  · intro every
    have listed : effectKey turnId effectId "cancelled-after-start" ∈ sourceKeys turnId ordinal call effectId :=
      List.mem_append_right _ (List.mem_map_of_mem last.1)
    have fits := (titledKey_valid effectTitle.1 effect (stages _ last.1).1).mp (every _ listed)
    omega
  · intro short sourceKey listed
    rw [sourceKeys, List.mem_append, List.mem_map] at listed
    rcases listed with direct | ⟨stage, listed, rfl⟩
    · simp only [List.mem_cons, List.not_mem_nil, or_false] at direct
      rcases direct with rfl | rfl | rfl | rfl | rfl | rfl
      · exact (plainKey_valid round.1 legible).mpr (by omega)
      · exact (plainKey_valid input.1 legible).mpr (by omega)
      · exact (titledKey_valid effectTitle.1 called prepare.1).mpr (by omega)
      · exact (titledKey_valid effectTitle.1 called start.1).mpr (by omega)
      · exact (titledKey_valid permission.1 effect allow.1).mpr (by omega)
      · exact (titledKey_valid permission.1 effect deny.1).mpr (by omega)
    · obtain ⟨staged, size⟩ := stages stage listed
      exact (titledKey_valid effectTitle.1 effect staged).mpr (by omega)

theorem validateSessionEffectId_iff {effectId : String} (legible : Legible effectId.toList)
    (inhabited : 0 < effectId.utf8ByteSize) :
    validateSessionEffectId effectId = .ok () ↔ effectId.utf8ByteSize ≤ 512 := by
  have nonempty : effectId.isEmpty = false := by
    rw [String.isEmpty_eq_false_iff]
    rintro rfl
    exact absurd inhabited (by decide)
  have visible : effectId.toList.any isControl = false :=
    List.any_eq_false.mpr fun c held => Bool.eq_false_iff.mp (legible.visible c held).2
  rw [validateSessionEffectId, ensure_ok, nonempty, visible]
  simp

end Sources

section Usability

/-- Everything that a turn does with a provider id goes through: redaction keeps it, its keys and its effect id are
accepted, and a committed observation is found under it. -/
structure Usable (E : Redactor) (host : Host) (turn : LinkedTurn) (roundSequence ordinal : Nat) (call : ToolCall)
    (execution : Execution) : Prop where
  kept : E.redactSessionText call.id = call.id
  effectKept : E.redactSessionText (effectIdOf turn.turnId roundSequence ordinal call.id) =
    effectIdOf turn.turnId roundSequence ordinal call.id
  sources : ∀ sourceKey ∈ sourceKeys turn.turnId ordinal call
    (E.redactSessionText (effectIdOf turn.turnId roundSequence ordinal call.id)),
      validateSessionSource sourceKey = .ok ()
  effectId : validateSessionEffectId (effectIdOf turn.turnId roundSequence ordinal call.id) = .ok ()
  found : ∀ suffix result payload,
    observation E host (descriptorOf turn.turnId roundSequence ordinal call) execution = some (suffix, result, payload) →
      ∀ (conversation : Conversation) (sourceKey : String),
        effectProviderResult (conversation.append turn (observedCard E result payload sourceKey)).window call.id =
          some (E.redactSessionText result)

variable {E : Redactor} {host : Host} {turn : LinkedTurn} {call : ToolCall} {execution : Execution}

/-- The newest result answers for its id, with its content if the observation carries any. -/
theorem observed_result (keeps : KeepsIds E) (kept : E.redactSessionText call.id = call.id) {roundSequence ordinal : Nat}
    {suffix result : String} {payload : Json} (observed : observation E host
      (descriptorOf turn.turnId roundSequence ordinal call) execution = some (suffix, result, payload))
    (conversation : Conversation) (sourceKey : String) :
    effectProviderResult (conversation.append turn (observedCard E result payload sourceKey)).window call.id =
      if providesContent execution = true then some (E.redactSessionText result) else none := by
  have shown := observation_shown host (descriptorOf turn.turnId roundSequence ordinal call) keeps observed
  have settled : E.redactSessionText (E.redactSessionText call.id) = call.id := by rw [kept, kept]
  have named : resultCallId (turn.entry (conversation.lastSeq + 1) (observedCard E result payload sourceKey)) =
      some call.id := (congrArg Prod.fst shown).trans (congrArg some settled)
  have climbing := (conversation.append turn (observedCard E result payload sourceKey)).climbing
  rw [Conversation.entries_append] at climbing
  obtain ⟨older, window, _⟩ := window_from (by
    intro entry held
    rw [List.mem_singleton.mp held]
    exact fun same => nomatch same) climbing (.inr (by decide))
  rw [Conversation.window, Conversation.entries_append, window, effectProviderResult_newest rfl named]
  exact congrArg Prod.snd shown

/-- An accepted provider id is usable exactly when nothing in it looks like a key, the longest source key has room for
it, and the failure of its effect is not a certified one, which shows the provider nothing. -/
theorem provider_id_usable (W : WordClass) (host : Host) (turn : LinkedTurn) (roundSequence ordinal : Nat)
    (call : ToolCall) (execution : Execution) (valid : validToolCallId call.id = true) :
    Usable (sessionRedactor W) host turn roundSequence ordinal call execution ↔
      ¬ KeyLike call.id.toList ∧
      call.id.utf8ByteSize + (toString roundSequence).utf8ByteSize + (toString ordinal).utf8ByteSize ≤ 136 ∧
      ∀ error, execution ≠ .certified error := by
  have keeps := sessionRedactor_keepsIds W
  have plain := FieldText.of_keys (validToolCallId_keys valid)
  have bytes := effectIdOf_bytes turn.turnId roundSequence ordinal call.id
  have legible : Legible (effectIdOf turn.turnId roundSequence ordinal call.id).toList := by
    rw [effectIdOf_toList]
    exact effectText_legible turn.turnId roundSequence ordinal plain.1
  have keys := @sourceKeys_valid turn.turnId ordinal call _ plain.1 (numberText_legible ordinal) legible (by omega)
  constructor
  · intro usable
    have room := usable.sources
    rw [usable.effectKept, keys] at room
    refine ⟨(redact_id_iff valid).mp usable.kept, by omega, ?_⟩
    rintro error rfl
    have none_ := @observed_result _ host turn call (.certified error) keeps usable.kept roundSequence ordinal _ _ _ rfl
      emptyConversation ""
    rw [usable.found _ _ _ rfl] at none_
    cases none_
  · rintro ⟨plainId, room, uncertified⟩
    have cap : SESSION_TEXT_CAP_BYTES = 65536 := rfl
    have kept := (redact_id_iff (W := W) valid).mpr plainId
    have effectKept := (redact_effectId_iff (W := W) turn.turnId roundSequence ordinal valid).mpr
      ⟨by omega, plainId⟩
    refine ⟨kept, effectKept, ?_, ?_, ?_⟩
    · rw [effectKept, keys]
      omega
    · exact (validateSessionEffectId_iff legible (by omega)).mpr (by omega)
    · intro suffix result payload observed conversation sourceKey
      rw [observed_result keeps kept observed, if_pos]
      cases execution with
      | finished => rfl
      | failed => rfl
      | certified error => exact absurd rfl (uncertified error)
      | uncertain => cases observed

theorem provider_id_usable_call : validToolCallId makeCall.id = true ∧
    Usable (sessionRedactor asciiClass) sampleHost sampleLinked 7 0 makeCall (.finished .null none) := by
  refine ⟨by decide +kernel, (provider_id_usable asciiClass sampleHost sampleLinked 7 0 makeCall (.finished .null none)
    (by decide +kernel)).mpr ⟨?_, by decide +kernel, fun _ same => nomatch same⟩⟩
  have hyphens : '-' ∉ makeCall.id.toList := by decide +kernel
  rintro ⟨passed, after, split, _⟩
  exact hyphens (by rw [split]; simp)

/-- An id of the accepted grammar that redaction takes for a key. -/
def keyCall : ToolCall := ⟨"sk-abcdefg", "process", .ofMembers [("program", .string "make")]⟩

theorem provider_id_redacted : validToolCallId keyCall.id = true ∧
    (sessionRedactor asciiClass).redactSessionText keyCall.id = "[REDACTED]" ∧
    ¬ Usable (sessionRedactor asciiClass) sampleHost sampleLinked 7 0 keyCall (.finished .null none) := by
  have replaced : (sessionRedactor asciiClass).redactSessionText keyCall.id = "[REDACTED]" := by decide +kernel
  have other : keyCall.id ≠ "[REDACTED]" := by decide
  exact ⟨by decide +kernel, replaced, fun usable => other (usable.kept.symm.trans replaced)⟩

end Usability

end LatteCode.Headless
