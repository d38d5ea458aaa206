import Mathlib
/- `serde_json::Value` without `preserve_order`: object members stand in key order. -/

namespace LatteCode

/-- `serde_json::Number`; a float is its IEEE bit pattern. -/
inductive Number where
  | posInt (n : Nat)
  | negInt (n : Int)
  | float (bits : BitVec 64)
deriving DecidableEq, Repr

mutual
inductive Json where
  | null
  | bool (b : Bool)
  | number (n : Number)
  | string (text : String)
  | array (elements : Elements)
  | object (fields : Fields)
deriving DecidableEq
inductive Elements where
  | nil
  | cons (head : Json) (tail : Elements)
deriving DecidableEq
inductive Fields where
  | nil
  | cons (key : String) (value : Json) (rest : Fields)
deriving DecidableEq
end

/-- `BTreeMap::insert`: a repeated key overwrites its value. -/
def Fields.insert (key : String) (value : Json) : Fields → Fields
  | .nil => .cons key value .nil
  | .cons k v rest =>
      if key < k then .cons key value (.cons k v rest)
      else if key = k then .cons k value rest
      else .cons k v (rest.insert key value)

def Fields.get? (key : String) : Fields → Option Json
  | .nil => none
  | .cons k v rest => if key = k then some v else rest.get? key

def Elements.ofList : List Json → Elements
  | [] => .nil
  | x :: xs => .cons x (ofList xs)

def Elements.isEmpty : Elements → Bool
  | .nil => true
  | .cons _ _ => false

/-- Members inserted one after the other, as the `json!` macro does. -/
def Fields.insertAll (members : List (String × Json)) (fields : Fields) : Fields :=
  members.foldl (fun acc member => acc.insert member.1 member.2) fields

namespace Json

def ofMembers (members : List (String × Json)) : Json := .object (Fields.insertAll members .nil)
def ofNat (n : Nat) : Json := .number (.posInt n)
def ofStrings (texts : List String) : Json := .array (.ofList (texts.map .string))
def ofOption (value : Option Json) : Json := value.getD .null
def ofText (value : Option String) : Json := ofOption (value.map .string)

/-- `Value::get` with a string index. -/
def get? (key : String) : Json → Option Json
  | .object fields => fields.get? key
  | _ => none

def isNonemptyArray : Json → Bool
  | .array elements => !elements.isEmpty
  | _ => false

end Json

theorem Fields.get?_insert (key key' : String) (value : Json) : ∀ fields : Fields,
    (fields.insert key value).get? key' = if key' = key then some value else fields.get? key'
  | .nil => rfl
  | .cons k v rest => by
      rw [Fields.insert]
      split
      case isTrue => rfl
      case isFalse =>
        split
        case isTrue same =>
          subst same
          simp only [Fields.get?]
          split <;> rfl
        case isFalse differs =>
          simp only [Fields.get?, Fields.get?_insert key key' value rest]
          by_cases here : key' = k
          · have other : key' ≠ key := fun same => differs (same.symm.trans here)
            simp only [if_pos here, if_neg other]
          · simp only [if_neg here]

theorem Fields.get?_insertAll (members : List (String × Json)) (fields : Fields) (key : String) :
    (fields.insertAll members).get? key = (members.reverse.lookup key).or (fields.get? key) := by
  induction members generalizing fields with
  | nil => rfl
  | cons member members ih =>
      have first : (Fields.insertAll (member :: members) fields) =
          Fields.insertAll members (fields.insert member.1 member.2) := rfl
      rw [first, ih, Fields.get?_insert, List.reverse_cons, List.lookup_append, Option.or_assoc]
      congr 1
      by_cases same : key = member.1
      · subst same
        simp [List.lookup]
      · simp [List.lookup, same, beq_eq_false_iff_ne.mpr same]

/-- A `json!` object answers a key with its last member of that key. -/
theorem Json.get?_ofMembers (members : List (String × Json)) (key : String) :
    (Json.ofMembers members).get? key = members.reverse.lookup key := by
  rw [Json.ofMembers, Json.get?, Fields.get?_insertAll, Fields.get?, Option.or_none]

theorem Elements.ofList_injective {xs ys : List Json}
    (same : Elements.ofList xs = Elements.ofList ys) : xs = ys := by
  induction xs generalizing ys with
  | nil => cases ys with
    | nil => rfl
    | cons y ys => cases same
  | cons x xs ih => cases ys with
    | nil => cases same
    | cons y ys =>
        simp only [Elements.ofList, Elements.cons.injEq] at same
        rw [same.1, ih same.2]

theorem Json.ofStrings_injective {xs ys : List String} (same : Json.ofStrings xs = Json.ofStrings ys) :
    xs = ys := by
  have elements := Elements.ofList_injective (Json.array.inj same)
  exact List.map_inj_right (fun _ _ => Json.string.inj) |>.mp elements

end LatteCode
