import LatteCode.Core.Json
/- The number of bytes `serde_json` writes for a value, in the compact format. -/

namespace LatteCode

/-- `serde_json` escapes quotes, backslashes and controls; everything else is written as it is. -/
def escapedBytes (c : Char) : Nat :=
  if c = '"' ∨ c = '\\' then 2
  else if c.val < 0x20 then
    if ['\x08', '\t', '\n', '\x0c', '\r'].contains c then 2 else 6
  else c.utf8Size

def textBytes (text : String) : Nat := 2 + (text.toList.map escapedBytes).sum

/-- The shortest decimal text of a float, as the `ryu` crate prints it. -/
structure FloatFormat where
  text : BitVec 64 → String

def Number.encodedBytes (F : FloatFormat) : Number → Nat
  | .posInt n => (Nat.repr n).length
  | .negInt n => (toString n).length
  | .float bits => (F.text bits).utf8ByteSize

section Values

variable (F : FloatFormat)

mutual
def Json.encodedBytes : Json → Nat
  | .null => 4
  | .bool b => if b then 4 else 5
  | .number n => n.encodedBytes F
  | .string text => textBytes text
  | .array elements => 2 + elements.encodedBytes
  | .object fields => 2 + fields.encodedBytes
/-- The elements with the commas between them. -/
def Elements.encodedBytes : Elements → Nat
  | .nil => 0
  | .cons head .nil => head.encodedBytes
  | .cons head tail => head.encodedBytes + 1 + tail.encodedBytes
/-- The members, each with its colon, with the commas between them. -/
def Fields.encodedBytes : Fields → Nat
  | .nil => 0
  | .cons key value .nil => textBytes key + 1 + value.encodedBytes
  | .cons key value rest => textBytes key + 1 + value.encodedBytes + 1 + rest.encodedBytes
end

end Values

/-- `Value::as_str`. -/
def Json.asStr : Json → Option String
  | .string text => some text
  | _ => none

/-- `Value::as_u64`. -/
def Json.asU64 : Json → Option Nat
  | .number (.posInt n) => some n
  | _ => none

/-- `Value::as_bool`. -/
def Json.asBool : Json → Option Bool
  | .bool b => some b
  | _ => none

def Elements.toList : Elements → List Json
  | .nil => []
  | .cons head tail => head :: tail.toList

/-- `Value::as_array`. -/
def Json.asArray : Json → Option (List Json)
  | .array elements => some elements.toList
  | _ => none

@[simp] theorem Elements.toList_ofList (values : List Json) : (Elements.ofList values).toList = values := by
  induction values with
  | nil => rfl
  | cons value values ih => rw [Elements.ofList, Elements.toList, ih]

@[simp] theorem Elements.ofList_toList : ∀ elements : Elements, Elements.ofList elements.toList = elements
  | .nil => rfl
  | .cons head tail => by rw [Elements.toList, Elements.ofList, Elements.ofList_toList tail]

end LatteCode
