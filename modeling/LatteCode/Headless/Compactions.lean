import LatteCode.Headless.Keys
import LatteCode.Headless.Compaction
/- The cards that compaction appends over the life of a session, and the source keys they are appended under. -/

namespace LatteCode.Headless
open Delimited Outcome Storage

inductive Tier where
  | elided
  | summarized
deriving DecidableEq

/-- What a compaction leaves in the transcript: the card of its tier, or the audit of a failed summary. -/
inductive CompactionKind where
  | tier (tier : Tier)
  | failed
deriving DecidableEq

def CompactionCard.appended : CompactionCard → CompactionKind
  | .elision _ => .tier .elided
  | .summary .. => .tier .summarized
  | .failure => .failed

/-- The site that asks for the card. -/
inductive Trigger where
  | newTurn
  | input
  | manual (turnRevision : Nat)
  | round (number : Nat)
  | roundFailed
deriving DecidableEq

def CompactionKind.name : CompactionKind → String
  | tier .summarized => "compact-summary"
  | tier .elided => "tool-result-elision"
  | failed => "compact-summary-failed"

def Trigger.suffix : Trigger → String
  | newTurn => ""
  | input => ":input"
  | manual turnRevision => ":manual:" ++ toString turnRevision
  | round number => ":round:" ++ toString number
  | roundFailed => ":round"

structure CompactionAppend where
  turnId : TurnId
  kind : CompactionKind
  trigger : Trigger
deriving DecidableEq

namespace CompactionAppend

def sourceKey (self : CompactionAppend) : String :=
  self.turnId.toString ++ ":" ++ self.kind.name ++ self.trigger.suffix

end CompactionAppend

section Fields

theorem TurnId.field_injective {turnId turnId' : TurnId} (same : TurnId.field turnId = TurnId.field turnId') :
    turnId = turnId' := by
  unfold TurnId.field at same
  exact TurnId.toString_injective (Subtype.mk.inj same)

namespace Field

def compactSummary : Field := ⟨"compact-summary", by decide +kernel⟩
def toolResultElision : Field := ⟨"tool-result-elision", by decide +kernel⟩
def compactSummaryFailed : Field := ⟨"compact-summary-failed", by decide +kernel⟩
def input : Field := ⟨"input", by decide +kernel⟩
def manual : Field := ⟨"manual", by decide +kernel⟩
def round : Field := ⟨"round", by decide +kernel⟩

end Field

def CompactionKind.field : CompactionKind → Field
  | tier .summarized => .compactSummary
  | tier .elided => .toolResultElision
  | failed => .compactSummaryFailed

def Trigger.fields : Trigger → List Field
  | newTurn => []
  | input => [.input]
  | manual turnRevision => [.manual, .number turnRevision]
  | round number => [.round, .number number]
  | roundFailed => [.round]

namespace CompactionAppend

def fields (self : CompactionAppend) : List Field :=
  TurnId.field self.turnId :: self.kind.field :: self.trigger.fields

theorem suffix_fields (turn name : String) (trigger : Trigger) :
    turn ++ ":" ++ name ++ trigger.suffix = keyOf (turn :: name :: trigger.fields.map Subtype.val) := by
  cases trigger with
  | newTurn =>
      show turn ++ ":" ++ name ++ "" = keyOf [turn, name]
      simp only [keyOf_cons, keyOf_singleton, String.append_empty]
  | input =>
      have suffix : ":input" = ":" ++ "input" := by decide +kernel
      show turn ++ ":" ++ name ++ ":input" = keyOf [turn, name, "input"]
      simp only [keyOf_cons, keyOf_singleton, String.append_assoc, suffix]
  | manual turnRevision =>
      have suffix : ":manual:" = ":" ++ "manual" ++ ":" := by decide +kernel
      show turn ++ ":" ++ name ++ (":manual:" ++ toString turnRevision) = keyOf [turn, name, "manual", toString turnRevision]
      generalize toString turnRevision = number
      simp only [keyOf_cons, keyOf_singleton, String.append_assoc, suffix]
  | round count =>
      have suffix : ":round:" = ":" ++ "round" ++ ":" := by decide +kernel
      show turn ++ ":" ++ name ++ (":round:" ++ toString count) = keyOf [turn, name, "round", toString count]
      generalize toString count = number
      simp only [keyOf_cons, keyOf_singleton, String.append_assoc, suffix]
  | roundFailed =>
      have suffix : ":round" = ":" ++ "round" := by decide +kernel
      show turn ++ ":" ++ name ++ ":round" = keyOf [turn, name, "round"]
      simp only [keyOf_cons, keyOf_singleton, String.append_assoc, suffix]

theorem kind_field (kind : CompactionKind) : kind.field.val = kind.name := by
  cases kind with
  | tier tier => cases tier <;> rfl
  | failed => rfl

theorem sourceKey_fields (self : CompactionAppend) : self.sourceKey = fieldsKey self.fields := by
  rw [sourceKey, suffix_fields, ← kind_field]
  rfl

theorem kind_injective {kind kind' : CompactionKind} (same : kind.field = kind'.field) : kind = kind' := by
  have texts := congrArg Subtype.val same
  cases kind with
  | tier tier =>
      cases kind' with
      | tier tier' => cases tier <;> cases tier' <;> first | rfl | exact absurd texts (by decide)
      | failed => cases tier <;> exact absurd texts (by decide)
  | failed =>
      cases kind' with
      | tier tier' => cases tier' <;> exact absurd texts (by decide)
      | failed => rfl

theorem trigger_injective {trigger trigger' : Trigger} (same : trigger.fields = trigger'.fields) : trigger = trigger' := by
  have inputManual : Field.input ≠ Field.round := fun same => absurd (congrArg Subtype.val same) (by decide)
  have manualRound : Field.manual ≠ Field.round := fun same => absurd (congrArg Subtype.val same) (by decide)
  cases trigger <;> cases trigger' <;>
    simp only [Trigger.fields, List.cons.injEq, reduceCtorEq, and_false, and_true] at same
  case newTurn.newTurn | input.input | roundFailed.roundFailed => rfl
  case manual.manual => rw [Field.number_injective same.2]
  case round.round => rw [Field.number_injective same.2]
  case input.roundFailed => exact absurd same inputManual
  case roundFailed.input => exact absurd same.symm inputManual
  case manual.round => exact absurd same.1 manualRound
  case round.manual => exact absurd same.1.symm manualRound

theorem fields_nonempty (self : CompactionAppend) : self.fields ≠ [] := fun empty => nomatch empty

/-- A compaction key tells its turn, its card and its site with its number. -/
theorem sourceKey_injective : Function.Injective sourceKey := by
  intro append append' same
  rw [sourceKey_fields, sourceKey_fields] at same
  have fields := fieldsKey_injective append.fields_nonempty append'.fields_nonempty same
  obtain ⟨turnId, kind, trigger⟩ := append
  obtain ⟨turnId', kind', trigger'⟩ := append'
  simp only [CompactionAppend.fields, List.cons.injEq] at fields
  rw [TurnId.field_injective fields.1, kind_injective fields.2.1, trigger_injective fields.2.2]

/-- No key of a call is a compaction key. -/
theorem sourceKey_ne_call (self : CompactionAppend) (turnId : TurnId) (key : TurnKey) :
    self.sourceKey ≠ key.text turnId := by
  intro same
  rw [sourceKey_fields] at same
  have fields := fieldsKey_injective self.fields_nonempty (key.fields_nonempty turnId) same
  have apart : ∀ {field other : Field}, field.val ≠ other.val → field ≠ other := fun texts same =>
    texts (congrArg Subtype.val same)
  have names : self.kind.field ≠ Field.assistantToolRound ∧ self.kind.field ≠ Field.effect ∧
      self.kind.field ≠ Field.permission := by
    cases self.kind with
    | tier tier => cases tier <;> exact ⟨apart (by decide), apart (by decide), apart (by decide)⟩
    | failed => exact ⟨apart (by decide), apart (by decide), apart (by decide)⟩
  cases key <;> simp only [CompactionAppend.fields, TurnKey.fields, List.cons.injEq] at fields
  case round => exact names.1 fields.2.1
  case called => exact names.2.1 fields.2.1
  case effect => exact names.2.1 fields.2.1
  case allowed => exact names.2.2 fields.2.1

end CompactionAppend

end Fields

end LatteCode.Headless
