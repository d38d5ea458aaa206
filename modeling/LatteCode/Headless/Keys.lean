import LatteCode.Lib.Delimited
import LatteCode.Headless.Batch
/- The source keys of a turn, field by field: what two commits have in common when their keys are one. -/

namespace LatteCode.Headless
open Delimited

theorem hexDigits_forall {P : Char → Prop} (each : ∀ digit : Fin 16, P (hexDigit digit)) (count n : Nat) :
    ∀ c ∈ hexDigits count n, P c := by
  induction count generalizing n with
  | zero => exact fun c held => absurd held List.not_mem_nil
  | succ count ih =>
      intro c held
      rw [hexDigits, List.mem_append, List.mem_singleton] at held
      rcases held with high | rfl
      · exact ih _ c high
      · exact each ⟨n % 16, Nat.mod_lt _ (by decide)⟩

/-- A turn id is written in hexadecimal digits and hyphens. -/
theorem TurnId.forall_mem {P : Char → Prop} (each : ∀ digit : Fin 16, P (hexDigit digit)) (hyphen : P '-')
    (turnId : TurnId) : ∀ c ∈ turnId.toString.toList, P c := by
  have digits := hexDigits_forall each 32 turnId.uuid.bits.toNat
  intro c held
  rw [TurnId.toString, Uuid.toString, String.toList_ofList] at held
  simp only [List.mem_append, List.mem_cons] at held
  rcases held with part | rfl | part | rfl | part | rfl | part | rfl | part
  · exact digits c (List.mem_of_mem_take part)
  · exact hyphen
  · exact digits c (List.mem_of_mem_drop (List.mem_of_mem_take part))
  · exact hyphen
  · exact digits c (List.mem_of_mem_drop (List.mem_of_mem_take part))
  · exact hyphen
  · exact digits c (List.mem_of_mem_drop (List.mem_of_mem_take part))
  · exact hyphen
  · exact digits c (List.mem_of_mem_drop part)

theorem TurnId.length_toString (turnId : TurnId) : turnId.toString.toList.length = 36 := by
  rw [TurnId.toString, Uuid.toString, String.toList_ofList]
  simp

theorem TurnId.clear (turnId : TurnId) : Clear ':' turnId.toString := by
  intro held
  have apart := @TurnId.forall_mem (fun c => c ≠ ':') (by decide) (by decide) turnId ':' held
  exact apart rfl

theorem toolCallId_clear {id : String} (valid : validToolCallId id = true) : Clear ':' id := by
  intro held
  simp only [validToolCallId, Bool.and_eq_true, List.all_eq_true] at valid
  exact absurd (valid.2 _ held) (by decide)

/-- A key of these fields, none of which holds a colon. -/
def keyOf (fields : List String) : String := (String.singleton ':').intercalate fields

theorem keyOf_cons (field next : String) (fields : List String) :
    keyOf (field :: next :: fields) = field ++ ":" ++ keyOf (next :: fields) := String.intercalate_cons_cons

theorem keyOf_singleton (field : String) : keyOf [field] = field := String.intercalate_singleton

theorem keyOf_injective {fields fields' : List String} (clear : ∀ field ∈ fields, Clear ':' field)
    (nonempty : fields ≠ []) (clear' : ∀ field ∈ fields', Clear ':' field) (nonempty' : fields' ≠ [])
    (same : keyOf fields = keyOf fields') : fields = fields' :=
  intercalate_injective clear nonempty clear' nonempty' same

section Names

/-- A text that may stand between two colons. -/
def Field : Type := { text : String // Clear ':' text }

def TurnId.field (turnId : TurnId) : Field := ⟨turnId.toString, TurnId.clear turnId⟩

namespace Field

def number (n : Nat) : Field := ⟨toString n, clear_toString rfl n⟩
def assistantToolRound : Field := ⟨"assistant-tool-round", by decide +kernel⟩
def effect : Field := ⟨"effect", by decide +kernel⟩
def permission : Field := ⟨"permission", by decide +kernel⟩
def sessionEffect : Field := ⟨"session-effect", by decide +kernel⟩
def allow : Field := ⟨"allow", by decide +kernel⟩
def prepare : Field := ⟨"prepare", by decide +kernel⟩
def start : Field := ⟨"start", by decide +kernel⟩
def observe : Field := ⟨"observe", by decide +kernel⟩
def observeFailed : Field := ⟨"observe-failed", by decide +kernel⟩

theorem number_injective {m n : Nat} (same : number m = number n) : m = n :=
  toString_injective (congrArg Subtype.val same)

end Field

/-- The key of these fields. -/
def fieldsKey (fields : List Field) : String := keyOf (fields.map Subtype.val)

theorem fieldsKey_injective {fields fields' : List Field} (nonempty : fields ≠ []) (nonempty' : fields' ≠ [])
    (same : fieldsKey fields = fieldsKey fields') : fields = fields' := by
  have clear : ∀ fields : List Field, ∀ field ∈ fields.map Subtype.val, Clear ':' field := by
    intro fields field held
    obtain ⟨⟨_, clear⟩, _, rfl⟩ := List.mem_map.mp held
    exact clear
  have texts := keyOf_injective (clear fields) (fun empty => nonempty (List.map_eq_nil_iff.mp empty)) (clear fields')
    (fun empty => nonempty' (List.map_eq_nil_iff.mp empty)) same
  exact List.map_injective_iff.mpr Subtype.val_injective texts

/-- The keys that the calls of a turn are committed under. -/
inductive TurnKey where
  | round (id : Field)
  | called (ordinal : Nat) (id stage : Field)
  | effect (roundSequence ordinal : Nat) (id stage : Field)
  | allowed (roundSequence ordinal : Nat) (id : Field)

namespace TurnKey

variable (turnId : TurnId)

def fields : TurnKey → List Field
  | round id => [TurnId.field turnId, .assistantToolRound, id]
  | called ordinal id stage => [TurnId.field turnId, .effect, id, .number ordinal, stage]
  | effect roundSequence ordinal id stage => [TurnId.field turnId, .effect, .sessionEffect, TurnId.field turnId,
      .number roundSequence, .number ordinal, id, stage]
  | allowed roundSequence ordinal id => [TurnId.field turnId, .permission, .sessionEffect, TurnId.field turnId,
      .number roundSequence, .number ordinal, id, .allow]

def text (key : TurnKey) : String := fieldsKey (key.fields turnId)

theorem fields_nonempty (key : TurnKey) : key.fields turnId ≠ [] := by
  cases key <;> exact fun empty => nomatch empty

theorem fields_injective : Function.Injective (fields turnId) := by
  have apart : Field.effect ≠ Field.permission := fun same => absurd (congrArg Subtype.val same) (by decide)
  intro key key' same
  cases key with
  | round id =>
      cases key' with
      | round id' =>
          simp only [fields, List.cons.injEq, and_true, true_and] at same
          rw [same]
      | _ => exact absurd (congrArg List.length same) (by simp [fields])
  | called ordinal id stage =>
      cases key' with
      | called ordinal' id' stage' =>
          simp only [fields, List.cons.injEq, and_true, true_and] at same
          rw [same.1, Field.number_injective same.2.1, same.2.2]
      | _ => exact absurd (congrArg List.length same) (by simp [fields])
  | effect roundSequence ordinal id stage =>
      cases key' with
      | effect roundSequence' ordinal' id' stage' =>
          simp only [fields, List.cons.injEq, and_true, true_and] at same
          rw [Field.number_injective same.1, Field.number_injective same.2.1, same.2.2.1, same.2.2.2]
      | allowed =>
          simp only [fields, List.cons.injEq] at same
          exact absurd same.2.1 apart
      | _ => exact absurd (congrArg List.length same) (by simp [fields])
  | allowed roundSequence ordinal id =>
      cases key' with
      | allowed roundSequence' ordinal' id' =>
          simp only [fields, List.cons.injEq, and_true, true_and] at same
          rw [Field.number_injective same.1, Field.number_injective same.2.1, same.2.2]
      | effect =>
          simp only [fields, List.cons.injEq] at same
          exact absurd same.2.1 apart.symm
      | _ => exact absurd (congrArg List.length same) (by simp [fields])

/-- Two commits of a turn meet in one key only when everything that names them agrees. -/
theorem text_injective : Function.Injective (text turnId) := fun key key' same =>
  fields_injective turnId (fieldsKey_injective (key.fields_nonempty turnId) (key'.fields_nonempty turnId) same)

end TurnKey

section Texts

variable (turnId : TurnId) (roundSequence ordinal : Nat) (id stage : String)

theorem roundKey_fields : roundKey turnId id = keyOf [turnId.toString, "assistant-tool-round", id] := by
  unfold roundKey
  generalize turnId.toString = turn
  simp only [keyOf_cons, keyOf_singleton, String.append_assoc]

theorem calledKey_fields : effectKey turnId (id ++ ":" ++ toString ordinal) stage =
    keyOf [turnId.toString, "effect", id, toString ordinal, stage] := by
  unfold effectKey
  generalize turnId.toString = turn
  generalize toString ordinal = place
  simp only [keyOf_cons, keyOf_singleton, String.append_assoc]

theorem effectKey_fields : effectKey turnId (effectIdOf turnId roundSequence ordinal id) stage =
    keyOf [turnId.toString, "effect", "session-effect", turnId.toString, toString roundSequence, toString ordinal, id,
      stage] := by
  unfold effectKey effectIdOf
  generalize turnId.toString = turn
  generalize toString roundSequence = round
  generalize toString ordinal = place
  simp only [keyOf_cons, keyOf_singleton, String.append_assoc]

theorem permissionKey_fields : permissionKey turnId (effectIdOf turnId roundSequence ordinal id) =
    keyOf [turnId.toString, "permission", "session-effect", turnId.toString, toString roundSequence, toString ordinal,
      id, "allow"] := by
  unfold permissionKey effectIdOf
  generalize turnId.toString = turn
  generalize toString roundSequence = round
  generalize toString ordinal = place
  simp only [keyOf_cons, keyOf_singleton, String.append_assoc]

end Texts

section Turns

variable (turnId : TurnId) (roundSequence ordinal : Nat) (id stage : Field)

theorem roundKey_text : roundKey turnId id.val = (TurnKey.round id).text turnId := by
  rw [TurnKey.text, fieldsKey]
  exact (roundKey_fields turnId id.val).trans (congrArg keyOf rfl)

theorem prepareKey_text (call : ToolCall) (clear : Clear ':' call.id) :
    prepareKey turnId call ordinal = (TurnKey.called ordinal ⟨call.id, clear⟩ .prepare).text turnId := by
  rw [TurnKey.text, fieldsKey]
  exact (calledKey_fields turnId ordinal call.id "prepare").trans (congrArg keyOf rfl)

theorem startKey_text (call : ToolCall) (clear : Clear ':' call.id) :
    startKey turnId call ordinal = (TurnKey.called ordinal ⟨call.id, clear⟩ .start).text turnId := by
  rw [TurnKey.text, fieldsKey]
  exact (calledKey_fields turnId ordinal call.id "start").trans (congrArg keyOf rfl)

theorem effectKey_text : effectKey turnId (effectIdOf turnId roundSequence ordinal id.val) stage.val =
    (TurnKey.effect roundSequence ordinal id stage).text turnId := by
  rw [TurnKey.text, fieldsKey]
  exact (effectKey_fields turnId roundSequence ordinal id.val stage.val).trans (congrArg keyOf rfl)

theorem permissionKey_text : permissionKey turnId (effectIdOf turnId roundSequence ordinal id.val) =
    (TurnKey.allowed roundSequence ordinal id).text turnId := by
  rw [TurnKey.text, fieldsKey]
  exact (permissionKey_fields turnId roundSequence ordinal id.val).trans (congrArg keyOf rfl)

end Turns

end Names

end LatteCode.Headless
