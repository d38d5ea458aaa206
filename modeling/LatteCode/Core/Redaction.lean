import LatteCode.Core.Encode
import LatteCode.Core.Session
/- What redaction does to an object whose member names are public: every member on its own. -/

namespace LatteCode

/-- Members in strictly increasing key order, as `BTreeMap` holds them. -/
def Fields.Ordered : Fields → Prop
  | .nil => True
  | .cons k _ rest => (∀ key, rest.get? key ≠ none → k < key) ∧ rest.Ordered

namespace Fields

theorem get?_first {k : String} {v : Json} {rest : Fields} (ordered : (Fields.cons k v rest).Ordered) :
    rest.get? k = none :=
  Classical.byContradiction fun held => String.lt_irrefl k (ordered.1 k held)

theorem Ordered.insert (key : String) (value : Json) : ∀ {fields : Fields}, fields.Ordered →
    (fields.insert key value).Ordered
  | .nil, _ => ⟨fun _ held => absurd rfl held, trivial⟩
  | .cons k v rest, ordered => by
      rw [Fields.insert]
      split
      case isTrue less =>
        refine ⟨fun other held => ?_, ordered⟩
        by_cases same : other = k
        · exact same ▸ less
        · rw [get?, if_neg same] at held
          exact String.lt_trans less (ordered.1 other held)
      case isFalse above =>
        split
        case isTrue same => exact same ▸ ordered
        case isFalse differs =>
          refine ⟨fun other held => ?_, ordered.2.insert key value⟩
          rw [get?_insert] at held
          by_cases same : other = key
          · rw [same]
            exact Std.lt_of_le_of_ne (String.not_lt.mp above) fun equal => differs equal.symm
          · rw [if_neg same] at held
            exact ordered.1 other held

theorem Ordered.insertAll : ∀ (members : List (String × Json)) {fields : Fields}, fields.Ordered →
    (fields.insertAll members).Ordered
  | [], _, ordered => ordered
  | member :: members, _, ordered => Ordered.insertAll members (ordered.insert member.1 member.2)

end Fields

namespace Redactor

variable (E : Redactor)

/-- A member name that redaction neither rewrites nor takes for a secret's. -/
def Public (key : String) : Prop := E.redactSessionText key = key ∧ secretKey key = false

/-- What the value of a member becomes. -/
def redactMember (key : String) (value : Json) : Json :=
  if secretKey key then .string "[REDACTED]" else E.redactSessionValue value

/-- The members of a redacted object whose names stay, by name: distinct keys keep every member apart. -/
theorem lookup_keptNames : ∀ {fields : Fields}, fields.Ordered →
    (∀ key, fields.get? key ≠ none → E.redactSessionText key = key) → ∀ key,
      (E.redactMembers fields).reverse.lookup key = (fields.get? key).map (E.redactMember key)
  | .nil, _, _, _ => rfl
  | .cons k v rest, ordered, names, key => by
      have text : E.redactSessionText k = k := by
        apply names k
        rw [Fields.get?, if_pos rfl]
        exact Option.some_ne_none v
      have deeper : ∀ other, rest.get? other ≠ none → E.redactSessionText other = other := by
        intro other listed
        apply names other
        rw [Fields.get?]
        split
        · exact Option.some_ne_none v
        · exact listed
      rw [redactMembers, text, List.reverse_cons, List.lookup_append, lookup_keptNames ordered.2 deeper key, Fields.get?]
      by_cases same : key = k
      · subst same
        rw [if_pos rfl, Fields.get?_first ordered]
        simp [List.lookup, redactMember]
      · rw [if_neg same]
        simp [List.lookup, beq_eq_false_iff_ne.mpr same]

/-- With public names, every value is redacted. -/
theorem lookup_redactMembers {fields : Fields} (ordered : fields.Ordered)
    (names : ∀ key, fields.get? key ≠ none → E.Public key) (key : String) :
    (E.redactMembers fields).reverse.lookup key = (fields.get? key).map E.redactSessionValue := by
  rw [lookup_keptNames E ordered (fun other held => (names other held).1)]
  cases held : fields.get? key with
  | none => rfl
  | some value =>
      have shown := (names key (by rw [held]; exact Option.some_ne_none value)).2
      rw [Option.map_some, Option.map_some, redactMember, shown, if_neg Bool.false_ne_true]

/-- Redaction of an object with public member names is redaction of its members. -/
theorem get?_redactSessionValue {fields : Fields} (ordered : fields.Ordered)
    (names : ∀ key, fields.get? key ≠ none → E.Public key) (key : String) :
    (E.redactSessionValue (.object fields)).get? key = (fields.get? key).map E.redactSessionValue := by
  rw [redactSessionValue, Json.get?, Fields.get?_insertAll, lookup_redactMembers E ordered names,
    Fields.get?, Option.or_none]

/-- The same for the objects that `json!` writes. -/
theorem get?_redact_ofMembers {members : List (String × Json)} (names : ∀ member ∈ members, E.Public member.1)
    (key : String) : (E.redactSessionValue (.ofMembers members)).get? key =
      (members.reverse.lookup key).map E.redactSessionValue := by
  have lookup : ∀ other, (Fields.insertAll members .nil).get? other = members.reverse.lookup other :=
    fun other => Json.get?_ofMembers members other
  have ordered : (Fields.insertAll members .nil).Ordered :=
    Fields.Ordered.insertAll members (show Fields.nil.Ordered from trivial)
  have shown : ∀ other, (Fields.insertAll members .nil).get? other ≠ none → E.Public other := by
    intro other held
    rw [lookup] at held
    obtain ⟨value, listed⟩ := Option.ne_none_iff_exists'.mp held
    obtain ⟨before, after, split, _⟩ := List.lookup_eq_some_iff.mp listed
    have member : (other, value) ∈ members.reverse := split ▸ List.mem_append_right before List.mem_cons_self
    exact names (other, value) (List.mem_reverse.mp member)
  rw [Json.ofMembers, get?_redactSessionValue E ordered shown, lookup]

theorem redactElements_toList : ∀ elements : Elements,
    (E.redactElements elements).toList = elements.toList.map E.redactSessionValue
  | .nil => rfl
  | .cons head tail => by
      rw [redactElements, Elements.toList, Elements.toList, List.map_cons, redactElements_toList tail]

end Redactor

/-- Text without escapes and controls, within the cap, passes the control filter. -/
theorem sanitize_visible {text : List Char} {used : Nat} (visible : ∀ c ∈ text, c ≠ '\x1b' ∧ isControl c = false)
    (fits : used + String.utf8Len text ≤ SESSION_TEXT_CAP_BYTES) : sanitize .text used text = text := by
  induction text generalizing used with
  | nil => rfl
  | cons c rest ih =>
      rw [String.utf8Len_cons] at fits
      obtain ⟨escape, control⟩ := visible c List.mem_cons_self
      have later := @ih (used + c.utf8Size) (fun other held => visible other (List.mem_cons_of_mem c held)) (by omega)
      rw [sanitize, if_neg (fun same => nomatch same), if_neg (fun both => nomatch both.1), if_neg escape,
        if_neg (fun both => Bool.false_ne_true (control.symm.trans both.1)), if_neg (by omega), later]

end LatteCode
