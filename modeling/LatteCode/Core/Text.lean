import LatteCode.Core.Encode
import LatteCode.Core.Ids
/- The text that `serde_json` writes for a value, in the compact format. -/

namespace LatteCode

def shortEscapes : List (Char × Char) := [('\x08', 'b'), ('\t', 't'), ('\n', 'n'), ('\x0c', 'f'), ('\r', 'r')]

def escapedChars (c : Char) : List Char :=
  if c = '"' ∨ c = '\\' then ['\\', c]
  else if c.val < 0x20 then
    match shortEscapes.lookup c with
    | some short => ['\\', short]
    | none => '\\' :: 'u' :: '0' :: '0' :: hexDigits 2 c.toNat
  else [c]

def textChars (text : String) : List Char := '"' :: (text.toList.flatMap escapedChars ++ ['"'])

section Values

variable (F : FloatFormat)

def Number.chars : Number → List Char
  | .posInt n => (Nat.repr n).toList
  | .negInt n => (toString n).toList
  | .float bits => (F.text bits).toList

mutual
def Json.chars : Json → List Char
  | .null => ['n', 'u', 'l', 'l']
  | .bool b => if b then ['t', 'r', 'u', 'e'] else ['f', 'a', 'l', 's', 'e']
  | .number n => n.chars F
  | .string text => textChars text
  | .array elements => '[' :: (elements.chars ++ [']'])
  | .object fields => '\x7b' :: (fields.chars ++ ['\x7d'])
def Elements.chars : Elements → List Char
  | .nil => []
  | .cons head .nil => head.chars
  | .cons head tail => head.chars ++ ',' :: tail.chars
def Fields.chars : Fields → List Char
  | .nil => []
  | .cons key value .nil => textChars key ++ ':' :: value.chars
  | .cons key value rest => textChars key ++ ':' :: (value.chars ++ ',' :: rest.chars)
end

/-- `serde_json::to_vec`. -/
def Json.toVec (value : Json) : List UInt8 := (value.chars F).flatMap String.utf8EncodeChar

/-! ## How long the text is -/

variable {F}

/-- A control character is one of the first 32. -/
theorem control_cases {P : Char → Prop} (all : ∀ n : Fin 32, P (Char.ofNat n)) {c : Char} (control : c.val < 0x20) :
    P c := by
  have least : c.toNat < 32 := control
  have same : Char.ofNat c.toNat = c := Char.ofNat_toNat c
  rw [← same]
  exact all ⟨c.toNat, least⟩

/-- Bytes of a text in UTF-8. -/
def charBytes (chars : List Char) : Nat := (chars.map Char.utf8Size).sum

@[simp] theorem charBytes_nil : charBytes [] = 0 := rfl

@[simp] theorem charBytes_cons (c : Char) (rest : List Char) : charBytes (c :: rest) = c.utf8Size + charBytes rest := by
  rw [charBytes, List.map_cons, List.sum_cons, charBytes]

@[simp] theorem charBytes_append (chars more : List Char) : charBytes (chars ++ more) = charBytes chars + charBytes more := by
  rw [charBytes, List.map_append, List.sum_append, charBytes, charBytes]

theorem charBytes_toList (text : String) : charBytes text.toList = text.utf8ByteSize := by
  rw [← String.ofList_toList (s := text), String.toList_ofList]
  induction text.toList with
  | nil => rfl
  | cons c rest ih => rw [charBytes_cons, ih, String.ofList_cons, String.utf8ByteSize_append, String.utf8ByteSize_singleton]

theorem charBytes_digits (chars : List Char) (digits : ∀ c ∈ chars, c.isDigit = true) :
    charBytes chars = chars.length := by
  induction chars with
  | nil => rfl
  | cons c rest ih =>
      have ascii : c.utf8Size = 1 := by
        have digit := digits c List.mem_cons_self
        simp only [Char.isDigit, Bool.and_eq_true, decide_eq_true_eq] at digit
        exact Char.utf8Size_eq_one_iff.mpr (Nat.le_trans digit.2 (by decide))
      rw [charBytes_cons, ascii, ih fun other member => digits other (List.mem_cons_of_mem _ member), List.length_cons,
        Nat.add_comm]

theorem charBytes_repr (n : Nat) : charBytes (Nat.repr n).toList = (Nat.repr n).length := by
  rw [Nat.toList_repr, charBytes_digits _ fun c member => Nat.isDigit_of_mem_toDigits (by decide) (by decide) member,
    ← Nat.toList_repr, String.length_toList]

theorem charBytes_escaped (c : Char) : charBytes (escapedChars c) = escapedBytes c := by
  by_cases control : c.val < 0x20
  · exact control_cases (P := fun c => charBytes (escapedChars c) = escapedBytes c) (by decide) control
  · rw [escapedChars, escapedBytes]
    split
    case isTrue named => rcases named with rfl | rfl <;> rfl
    case isFalse => rw [charBytes_cons, charBytes_nil, Nat.add_zero]

theorem charBytes_text (text : String) : charBytes (textChars text) = textBytes text := by
  have body : ∀ chars : List Char, charBytes (chars.flatMap escapedChars) = (chars.map escapedBytes).sum := by
    intro chars
    induction chars with
    | nil => rfl
    | cons c rest ih => rw [List.flatMap_cons, charBytes_append, charBytes_escaped, ih, List.map_cons, List.sum_cons]
  rw [textChars, charBytes_cons, charBytes_append, body, textBytes]
  have quote : '"'.utf8Size = 1 := rfl
  rw [charBytes_cons, charBytes_nil, quote]
  omega

theorem Number.charBytes_chars (n : Number) : charBytes (n.chars F) = n.encodedBytes F := by
  cases n with
  | posInt n => exact charBytes_repr n
  | negInt n =>
      rw [Number.chars, Number.encodedBytes, Int.toString_eq_repr, Int.repr_eq_if]
      split
      case isTrue => exact charBytes_repr _
      case isFalse =>
        rw [String.toList_append, charBytes_append, charBytes_repr, String.length_append]
        rfl
  | float bits => exact charBytes_toList _

mutual
/-- A value is written in the bytes that `encodedBytes` counts. -/
theorem Json.charBytes_chars : ∀ value : Json, charBytes (value.chars F) = value.encodedBytes F
  | .null => rfl
  | .bool b => by cases b <;> rfl
  | .number n => n.charBytes_chars
  | .string text => charBytes_text text
  | .array elements => by
      rw [Json.chars, Json.encodedBytes, charBytes_cons, charBytes_append, elements.charBytes_chars]
      simp only [charBytes_cons, charBytes_nil]
      have open_ : '['.utf8Size = 1 := rfl
      have close : ']'.utf8Size = 1 := rfl
      omega
  | .object fields => by
      rw [Json.chars, Json.encodedBytes, charBytes_cons, charBytes_append, fields.charBytes_chars]
      simp only [charBytes_cons, charBytes_nil]
      have open_ : '\x7b'.utf8Size = 1 := rfl
      have close : '\x7d'.utf8Size = 1 := rfl
      omega
theorem Elements.charBytes_chars : ∀ elements : Elements, charBytes (elements.chars F) = elements.encodedBytes F
  | .nil => rfl
  | .cons head .nil => head.charBytes_chars
  | .cons head (.cons next tail) => by
      rw [Elements.chars, Elements.encodedBytes, charBytes_append, charBytes_cons, head.charBytes_chars,
        (Elements.cons next tail).charBytes_chars, Nat.add_assoc]
      · rfl
      all_goals intro impossible; cases impossible
theorem Fields.charBytes_chars : ∀ fields : Fields, charBytes (fields.chars F) = fields.encodedBytes F
  | .nil => rfl
  | .cons key value .nil => by
      rw [Fields.chars, Fields.encodedBytes, charBytes_append, charBytes_cons, charBytes_text, value.charBytes_chars,
        Nat.add_assoc]
      rfl
  | .cons key value (.cons next other rest) => by
      rw [Fields.chars, Fields.encodedBytes, charBytes_append, charBytes_cons, charBytes_append, charBytes_cons,
        charBytes_text, value.charBytes_chars, (Fields.cons next other rest).charBytes_chars]
      · have colon : ':'.utf8Size = 1 := rfl
        have comma : ','.utf8Size = 1 := rfl
        omega
      all_goals intro impossible; cases impossible
end

theorem length_utf8 (chars : List Char) : (chars.flatMap String.utf8EncodeChar).length = charBytes chars := by
  induction chars with
  | nil => rfl
  | cons c rest ih => rw [List.flatMap_cons, List.length_append, String.length_utf8EncodeChar, ih, charBytes_cons]

theorem Json.length_toVec (value : Json) : (value.toVec F).length = value.encodedBytes F := by
  rw [Json.toVec, length_utf8, Json.charBytes_chars]

/-! ## It is one line -/

/-- The text of a float is printable. -/
def FloatFormat.OneLine (F : FloatFormat) : Prop := ∀ bits, '\n' ∉ (F.text bits).toList

theorem escaped_line (c : Char) : '\n' ∉ escapedChars c := by
  by_cases control : c.val < 0x20
  · exact control_cases (P := fun c => '\n' ∉ escapedChars c) (by decide) control
  · rw [escapedChars]
    split
    case isTrue named => rcases named with rfl | rfl <;> decide
    case isFalse =>
      rw [List.mem_singleton]
      rintro rfl
      exact control (by decide)

theorem text_line (text : String) : '\n' ∉ textChars text := by
  intro member
  rw [textChars, List.mem_cons, List.mem_append, List.mem_singleton] at member
  rcases member with quote | body | quote
  · cases quote
  · obtain ⟨c, _, escaped⟩ := List.mem_flatMap.mp body
    exact escaped_line c escaped
  · cases quote

theorem repr_line (n : Nat) : '\n' ∉ (Nat.repr n).toList := by
  intro member
  rw [Nat.toList_repr] at member
  exact absurd (Nat.isDigit_of_mem_toDigits (by decide) (by decide) member) (by decide)

theorem Number.line (floats : F.OneLine) (n : Number) : '\n' ∉ n.chars F := by
  cases n with
  | posInt n => exact repr_line n
  | negInt n =>
      rw [Number.chars, Int.toString_eq_repr, Int.repr_eq_if]
      split
      case isTrue => exact repr_line _
      case isFalse =>
        rw [String.toList_append, List.mem_append, not_or]
        exact ⟨by decide, repr_line _⟩
  | float bits => exact floats bits

mutual
theorem Json.line (floats : F.OneLine) : ∀ value : Json, '\n' ∉ value.chars F
  | .null => by simp [Json.chars]
  | .bool b => by cases b <;> simp [Json.chars]
  | .number n => n.line floats
  | .string text => text_line text
  | .array elements => by
      have inner := elements.line floats
      simp [Json.chars, inner]
  | .object fields => by
      have inner := fields.line floats
      simp [Json.chars, inner]
theorem Elements.line (floats : F.OneLine) : ∀ elements : Elements, '\n' ∉ elements.chars F
  | .nil => List.not_mem_nil
  | .cons head .nil => head.line floats
  | .cons head (.cons next tail) => by
      have first := head.line floats
      have others := (Elements.cons next tail).line floats
      simp [Elements.chars, first, others]
theorem Fields.line (floats : F.OneLine) : ∀ fields : Fields, '\n' ∉ fields.chars F
  | .nil => List.not_mem_nil
  | .cons key value .nil => by
      have name := text_line key
      have held := value.line floats
      simp [Fields.chars, name, held]
  | .cons key value (.cons next other rest) => by
      have name := text_line key
      have held := value.line floats
      have others := (Fields.cons next other rest).line floats
      simp [Fields.chars, name, held, others]
end

theorem utf8_line {c : Char} (other : c ≠ '\n') : (10 : UInt8) ∉ String.utf8EncodeChar c := by
  intro member
  have value : c.val.toNat ≠ 10 := by
    intro same
    exact other (Char.ext (UInt32.toNat_inj.mp same))
  have place : ∀ n : Nat, (10 : UInt8) = UInt8.ofNat n → n % 256 = 10 := by
    intro n same
    have numbers := congrArg UInt8.toNat same
    rw [UInt8.toNat_ofNat'] at numbers
    exact numbers.symm
  -- every byte of a longer code is at least 128
  rw [String.utf8EncodeChar] at member
  split at member
  · have byte := place _ (List.mem_singleton.mp member)
    omega
  · split at member
    · simp only [List.mem_cons, List.not_mem_nil, or_false] at member
      rcases member with lead | last
      · have byte := place _ lead
        omega
      · have byte := place _ last
        omega
    · split at member
      · simp only [List.mem_cons, List.not_mem_nil, or_false] at member
        rcases member with lead | middle | last
        · have byte := place _ lead
          omega
        · have byte := place _ middle
          omega
        · have byte := place _ last
          omega
      · simp only [List.mem_cons, List.not_mem_nil, or_false] at member
        rcases member with lead | second | middle | last
        · have byte := place _ lead
          omega
        · have byte := place _ second
          omega
        · have byte := place _ middle
          omega
        · have byte := place _ last
          omega

theorem Json.toVec_line (floats : F.OneLine) (value : Json) : (10 : UInt8) ∉ value.toVec F := by
  intro member
  obtain ⟨c, held, byte⟩ := List.mem_flatMap.mp member
  refine utf8_line ?_ byte
  rintro rfl
  exact value.line floats held

/-! ## What is read back -/

mutual
/-- A value with each float replaced: `serde_json` without `float_roundtrip` may read another float
than it wrote. -/
def Json.mapFloats (f : BitVec 64 → BitVec 64) : Json → Json
  | .null => .null
  | .bool b => .bool b
  | .number (.float bits) => .number (.float (f bits))
  | .number n => .number n
  | .string text => .string text
  | .array elements => .array (elements.mapFloats f)
  | .object fields => .object (fields.mapFloats f)
def Elements.mapFloats (f : BitVec 64 → BitVec 64) : Elements → Elements
  | .nil => .nil
  | .cons head tail => .cons (head.mapFloats f) (tail.mapFloats f)
def Fields.mapFloats (f : BitVec 64 → BitVec 64) : Fields → Fields
  | .nil => .nil
  | .cons key value rest => .cons key (value.mapFloats f) (rest.mapFloats f)
end

attribute [local grind =] Json.mapFloats

variable {f : BitVec 64 → BitVec 64}

@[simp] theorem Json.mapFloats_null : Json.null.mapFloats f = .null := by rw [Json.mapFloats]
@[simp] theorem Json.mapFloats_string (text : String) : (Json.string text).mapFloats f = .string text := by
  rw [Json.mapFloats]
@[simp] theorem Json.mapFloats_ofNat (n : Nat) : (Json.ofNat n).mapFloats f = .ofNat n := by
  rw [Json.ofNat, Json.mapFloats]
  intro bits impossible
  cases impossible

theorem Json.mapFloats_eq_null {value : Json} : value.mapFloats f = .null ↔ value = .null := by
  constructor
  · intro same
    cases value with
    | null => rfl
    | number n => cases n <;> simp [Json.mapFloats] at same
    | bool b | string text | array elements | object fields => simp [Json.mapFloats] at same
  · rintro rfl
    exact Json.mapFloats_null

theorem Fields.get?_mapFloats (key : String) : ∀ fields : Fields,
    (fields.mapFloats f).get? key = (fields.get? key).map (Json.mapFloats f)
  | .nil => by rw [Fields.mapFloats, Fields.get?, Option.map_none]
  | .cons k value rest => by
      rw [Fields.mapFloats, Fields.get?, Fields.get?, Fields.get?_mapFloats key rest]
      split <;> rfl

/-- A `json!` object that was read back answers a key with what it read there. -/
theorem Json.get?_readBack (members : List (String × Json)) (key : String) :
    ((Json.ofMembers members).mapFloats f).get? key = (members.reverse.lookup key).map (Json.mapFloats f) := by
  rw [← Json.get?_ofMembers, Json.ofMembers, Json.mapFloats, Json.get?, Json.get?, Fields.get?_mapFloats]

@[simp] theorem Json.asStr_mapFloats (value : Json) : (value.mapFloats f).asStr = value.asStr := by
  cases value with
  | number n => cases n <;> simp [Json.mapFloats, Json.asStr]
  | null | bool b | string text | array elements | object fields => simp [Json.mapFloats, Json.asStr]

@[simp] theorem Json.asU64_mapFloats (value : Json) : (value.mapFloats f).asU64 = value.asU64 := by
  cases value with
  | number n => cases n <;> simp [Json.mapFloats, Json.asU64]
  | null | bool b | string text | array elements | object fields => simp [Json.mapFloats, Json.asU64]

end Values

end LatteCode
