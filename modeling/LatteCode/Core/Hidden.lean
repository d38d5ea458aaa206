import LatteCode.Core.FixedPoint
/- Redaction of structured values: which secret names are hidden in what it returns, and what a second pass changes. -/

namespace LatteCode
open Regex

section Members

variable {P Q : String → Json → Prop}

/-- The last member of each key, as a map that members are inserted into keeps them. -/
def Lasts (P : String → Json → Prop) (members : List (String × Json)) : Prop :=
  ∀ key value, members.reverse.lookup key = some value → P key value

theorem lasts_nil : Lasts P [] := fun _ _ held => nomatch held

/-- A member counts unless a later one has its key. -/
theorem lasts_cons {key : String} {value : Json} {members : List (String × Json)} :
    Lasts P ((key, value) :: members) ↔ (key ∈ members.map Prod.fst ∨ P key value) ∧ Lasts P members := by
  have found : ∀ other, ((key, value) :: members).reverse.lookup other =
      (members.reverse.lookup other).or (if other = key then some value else none) := by
    intro other
    rw [List.reverse_cons, List.lookup_append]
    by_cases same : other = key
    · subst same
      simp [List.lookup]
    · simp [List.lookup, same, beq_eq_false_iff_ne.mpr same]
  have listed : ∀ other, members.reverse.lookup other = none ↔ other ∉ members.map Prod.fst := by
    intro other
    rw [List.lookup_eq_none_iff]
    simp only [List.mem_reverse, List.mem_map, not_exists, not_and, bne_iff_ne, ne_eq]
    exact ⟨fun all member held same => all member held same.symm, fun all member held same => all member held same.symm⟩
  constructor
  · intro all
    constructor
    · by_cases later : key ∈ members.map Prod.fst
      · exact .inl later
      · refine .inr (all key value ?_)
        rw [found, (listed key).mpr later, if_pos rfl]
        rfl
    · intro other later held
      apply all
      rw [found, held]
      rfl
  · rintro ⟨here, later⟩ other last held
    rw [found] at held
    rcases Option.or_eq_some_iff.mp held with early | ⟨none_, own⟩
    · exact later other last early
    · split at own
      case isTrue same =>
        cases own
        subst same
        exact here.resolve_left ((listed other).mp none_)
      case isFalse => cases own

end Members

namespace Fields

/-- Maps that answer every key alike are equal. -/
theorem Ordered.ext : ∀ {fields others : Fields}, fields.Ordered → others.Ordered →
    (∀ key, fields.get? key = others.get? key) → fields = others
  | .nil, .nil, _, _, _ => rfl
  | .nil, .cons k v rest, _, _, same => by
      have here := same k
      rw [get?, get?, if_pos rfl] at here
      cases here
  | .cons k v rest, .nil, _, _, same => by
      have here := same k
      rw [get?, get?, if_pos rfl] at here
      cases here
  | .cons k v rest, .cons l w others, ordered, ordered', same => by
      have keys : k = l := by
        by_contra differ
        have here := same k
        have there := same l
        rw [get?, get?, if_pos rfl, if_neg differ] at here
        rw [get?, get?, if_pos rfl, if_neg (Ne.symm differ)] at there
        have above : l < k := ordered'.1 k (by rw [← here]; exact Option.some_ne_none v)
        have below : k < l := ordered.1 l (by rw [there]; exact Option.some_ne_none w)
        exact String.lt_irrefl k (String.lt_trans below above)
      subst keys
      have values := same k
      rw [get?, get?, if_pos rfl, if_pos rfl] at values
      have later : rest = others := by
        refine ordered.2.ext ordered'.2 fun key => ?_
        by_cases first : key = k
        · rw [first, get?_first ordered, get?_first ordered']
        · have onward := same key
          rw [get?, get?, if_neg first, if_neg first] at onward
          exact onward
      rw [Option.some.inj values, later]

/-- Members inserted into an empty map stand in key order. -/
theorem ordered_insertAll (members : List (String × Json)) : (insertAll members .nil).Ordered :=
  Ordered.insertAll members (show Fields.nil.Ordered from trivial)

theorem get?_inserted (members : List (String × Json)) (key : String) :
    (insertAll members .nil).get? key = members.reverse.lookup key := by
  rw [get?_insertAll, get?, Option.or_none]

end Fields

mutual
/-- Every object, at any depth, maps each secret name to the marker. -/
def Json.Concealed : Json → Prop
  | .object fields => fields.Concealed
  | .array elements => elements.Concealed
  | _ => True
def Elements.Concealed : Elements → Prop
  | .nil => True
  | .cons head tail => head.Concealed ∧ tail.Concealed
def Fields.Concealed : Fields → Prop
  | .nil => True
  | .cons key value rest =>
      (secretKey key = true → value = .string "[REDACTED]") ∧ value.Concealed ∧ rest.Concealed
end

theorem Fields.concealed_iff : ∀ {fields : Fields}, fields.Ordered → (fields.Concealed ↔ ∀ key value,
    fields.get? key = some value → (secretKey key = true → value = .string "[REDACTED]") ∧ value.Concealed)
  | .nil, _ => iff_of_true trivial fun _ _ held => nomatch held
  | .cons k v rest, ordered => by
      rw [Fields.Concealed, concealed_iff ordered.2]
      constructor
      · rintro ⟨here, deep, later⟩ key value held
        rw [get?] at held
        split at held
        case isTrue same =>
          cases held
          subst same
          exact ⟨here, deep⟩
        case isFalse => exact later key value held
      · intro all
        obtain ⟨here, deep⟩ := all k v (by rw [get?, if_pos rfl])
        refine ⟨here, deep, fun key value held => all key value ?_⟩
        have apart : key ≠ k := fun same => by
          rw [same, get?_first ordered] at held
          cases held
        rw [get?, if_neg apart]
        exact held

section Traversal

variable (E : Redactor) (text : String → Prop) (member : String → Json → Prop)

mutual
/-- What holds of all that redaction goes into: of each string, and of each member that no later one of the same redacted
name overwrites. Behind a secret name it goes into nothing. -/
def Json.Surviving : Json → Prop
  | .object fields => fields.Surviving
  | .array elements => elements.Surviving
  | .string value => text value
  | _ => True
def Elements.Surviving : Elements → Prop
  | .nil => True
  | .cons head tail => head.Surviving ∧ tail.Surviving
def Fields.Surviving : Fields → Prop
  | .nil => True
  | .cons key value rest =>
      (E.redactSessionText key ∈ (E.redactMembers rest).map Prod.fst ∨
        member key value ∧ (secretKey key = true ∨ value.Surviving)) ∧ rest.Surviving
end

end Traversal

section Hiding

variable (W : WordClass)

/-- A name that is a secret's once it is redacted was so before, or its value is the marker anyway. -/
def GuardedMember (key : String) (value : Json) : Prop :=
  secretKey ((sessionRedactor W).redactSessionText key) = true → secretKey key = true ∨
    ∃ text, value = .string text ∧ (sessionRedactor W).redactSessionText text = "[REDACTED]"

def Guarded : Json → Prop := Json.Surviving (sessionRedactor W) (fun _ => True) (GuardedMember W)

/-- A second pass changes nothing about this text. -/
def FixedText (text : String) : Prop :=
  (sessionRedactor W).redactSessionText ((sessionRedactor W).redactSessionText text) =
    (sessionRedactor W).redactSessionText text

def TextsFixed : Json → Prop := Json.Surviving (sessionRedactor W) (FixedText W) fun _ _ => True

def NamesFixed : Json → Prop := Json.Surviving (sessionRedactor W) (fun _ => True) fun key _ => FixedText W key

variable {W}

/-- Only strings are redacted to strings. -/
theorem redacted_string {E : Redactor} {value : Json} {text : String} :
    E.redactSessionValue value = .string text ↔ ∃ given, value = .string given ∧ E.redactSessionText given = text := by
  constructor
  · intro same
    cases value with
    | string given => exact ⟨given, rfl, Json.string.inj same⟩
    | null | bool _ | number _ | array _ | object _ => cases same
  · rintro ⟨given, rfl, rfl⟩
    rfl

/-- What a member becomes. -/
theorem redactMembers_cons {E : Redactor} {key : String} {value : Json} {rest : Fields} :
    E.redactMembers (.cons key value rest) = (E.redactSessionText key, E.redactMember key value) :: E.redactMembers rest :=
  rfl

theorem redactMember_secret {E : Redactor} {key : String} {value : Json} (secret : secretKey key = true) :
    E.redactMember key value = .string "[REDACTED]" := if_pos secret

theorem redactMember_shown {E : Redactor} {key : String} {value : Json} (shown : ¬ secretKey key = true) :
    E.redactMember key value = E.redactSessionValue value := if_neg shown

mutual
theorem concealed_value : ∀ value : Json, ((sessionRedactor W).redactSessionValue value).Concealed ↔ Guarded W value
  | .object fields => (Fields.concealed_iff (Fields.ordered_insertAll _)).trans <| by
      simp only [Fields.get?_inserted]
      exact concealed_members fields
  | .array elements => concealed_elements elements
  | .string _ | .null | .bool _ | .number _ => iff_of_true trivial trivial
theorem concealed_elements : ∀ elements : Elements, ((sessionRedactor W).redactElements elements).Concealed ↔
    elements.Surviving (sessionRedactor W) (fun _ => True) (GuardedMember W)
  | .nil => Iff.rfl
  | .cons head tail => and_congr (concealed_value head) (concealed_elements tail)
theorem concealed_members : ∀ fields : Fields, Lasts (fun key value =>
    (secretKey key = true → value = .string "[REDACTED]") ∧ value.Concealed) ((sessionRedactor W).redactMembers fields) ↔
    fields.Surviving (sessionRedactor W) (fun _ => True) (GuardedMember W)
  | .nil => iff_of_true lasts_nil trivial
  | .cons key value rest => by
      rw [redactMembers_cons, lasts_cons, concealed_members rest]
      refine and_congr_left' (or_congr_right ?_)
      by_cases secret : secretKey key = true
      · rw [redactMember_secret secret]
        exact iff_of_true ⟨fun _ => rfl, trivial⟩ ⟨fun _ => .inl secret, .inl secret⟩
      · rw [redactMember_shown secret, concealed_value value, GuardedMember, or_iff_right secret, or_iff_right secret,
          redacted_string, Guarded]
end

/-- The marker is no secret itself. -/
theorem redacted_marker : (sessionRedactor W).redactSessionText "[REDACTED]" = "[REDACTED]" := by
  have shown : ∀ c ∈ redactedMark, visible c = true := each_of_all (by decide)
  have unassigned : ¬ Found (namedAssignment W) redactedMark := not_found_assignment (each_of_all (by decide))
  have unborne : ¬ Found (bearerToken W) redactedMark := not_found_bearer (each_of_all (by decide))
  have keyless : ¬ Found (openaiKey W) redactedMark := by
    rintro ⟨passed, rest, split, d, found, _⟩
    obtain ⟨body, ahead, _⟩ := run_openaiKey.mp ⟨d, found, rfl⟩
    have ahead : rest = 's' :: 'k' :: '-' :: (body ++ d.rest) := ahead
    have held : 's' ∈ redactedMark := by
      rw [split, ahead]
      exact List.mem_append_right _ List.mem_cons_self
    revert held
    decide
  apply String.toList_inj.mp
  have given : "[REDACTED]".toList = redactedMark := rfl
  rw [Redactor.redactSessionText, redactTokenLikeValues_toList, String.toList_ofList, given,
    sanitize_fits shown (by decide), replaceAll_unfound unassigned, replaceAll_unfound unborne, replaceAll_unfound keyless]

theorem redacted_names : ∀ {fields : Fields},
    fields.Surviving (sessionRedactor W) (fun _ => True) (fun key _ => FixedText W key) →
      Lasts (fun key _ => (sessionRedactor W).redactSessionText key = key) ((sessionRedactor W).redactMembers fields)
  | .nil, _ => lasts_nil
  | .cons key value rest, names => by
      rw [redactMembers_cons, lasts_cons]
      exact ⟨names.1.imp_right fun both => both.1, redacted_names names.2⟩

/-- An object whose names stay is a fixed point when every member is. -/
theorem redacted_object {E : Redactor} {fields : Fields} (ordered : fields.Ordered)
    (names : ∀ key value, fields.get? key = some value → E.redactSessionText key = key) :
    E.redactSessionValue (.object fields) = .object fields ↔
      ∀ key value, fields.get? key = some value → E.redactMember key value = value := by
  have lookup := E.lookup_keptNames ordered fun key held => by
    obtain ⟨value, held⟩ := Option.ne_none_iff_exists'.mp held
    exact names key value held
  rw [Redactor.redactSessionValue, Json.object.injEq]
  constructor
  · intro same key value held
    have here := lookup key
    rw [← Fields.get?_inserted, same, held] at here
    exact (Option.some.inj here).symm
  · intro all
    refine (Fields.ordered_insertAll _).ext ordered fun key => ?_
    rw [Fields.get?_inserted, lookup]
    cases held : fields.get? key with
    | none => rfl
    | some value => rw [Option.map_some, all key value held]

mutual
theorem again_value : ∀ value : Json, NamesFixed W value →
    ((sessionRedactor W).redactSessionValue ((sessionRedactor W).redactSessionValue value) =
      (sessionRedactor W).redactSessionValue value ↔ Guarded W value ∧ TextsFixed W value)
  | .object fields, names => by
      have kept := redacted_names names
      have members := again_members fields names
      simp only [Lasts, ← Fields.get?_inserted] at kept members
      exact (redacted_object (Fields.ordered_insertAll _) kept).trans members
  | .array elements, names => by
      have inner := again_elements elements names
      rw [Redactor.redactSessionValue, Redactor.redactSessionValue, Json.array.injEq]
      exact inner
  | .string text, _ => by
      rw [Redactor.redactSessionValue, Redactor.redactSessionValue, Json.string.injEq]
      exact (and_iff_right trivial).symm
  | .null, _ | .bool _, _ | .number _, _ => iff_of_true rfl ⟨trivial, trivial⟩
theorem again_elements : ∀ elements : Elements,
    elements.Surviving (sessionRedactor W) (fun _ => True) (fun key _ => FixedText W key) →
    ((sessionRedactor W).redactElements ((sessionRedactor W).redactElements elements) =
      (sessionRedactor W).redactElements elements ↔
        elements.Surviving (sessionRedactor W) (fun _ => True) (GuardedMember W) ∧
          elements.Surviving (sessionRedactor W) (FixedText W) fun _ _ => True)
  | .nil, _ => iff_of_true rfl ⟨trivial, trivial⟩
  | .cons head tail, names => by
      rw [Redactor.redactElements, Redactor.redactElements, Elements.cons.injEq, again_value head names.1,
        again_elements tail names.2]
      exact and_and_and_comm
theorem again_members : ∀ fields : Fields,
    fields.Surviving (sessionRedactor W) (fun _ => True) (fun key _ => FixedText W key) →
    (Lasts (fun key value => (sessionRedactor W).redactMember key value = value) ((sessionRedactor W).redactMembers fields) ↔
      fields.Surviving (sessionRedactor W) (fun _ => True) (GuardedMember W) ∧
        fields.Surviving (sessionRedactor W) (FixedText W) fun _ _ => True)
  | .nil, _ => iff_of_true lasts_nil ⟨trivial, trivial⟩
  | .cons key value rest, names => by
      rw [redactMembers_cons, lasts_cons, again_members rest names.2, Fields.Surviving, Fields.Surviving,
        and_and_and_comm, true_and]
      refine and_congr_left' ?_
      by_cases overwritten : (sessionRedactor W).redactSessionText key ∈
          ((sessionRedactor W).redactMembers rest).map Prod.fst
      · exact iff_of_true (.inl overwritten) ⟨.inl overwritten, .inl overwritten⟩
      rw [or_iff_right overwritten, or_iff_right overwritten, or_iff_right overwritten]
      by_cases secret : secretKey key = true
      · -- the marker is put once and for all
        rw [redactMember_secret secret]
        refine iff_of_true ?_ ⟨⟨fun _ => .inl secret, .inl secret⟩, .inl secret⟩
        by_cases again : secretKey ((sessionRedactor W).redactSessionText key) = true
        · rw [redactMember_secret again]
        · rw [redactMember_shown again, Redactor.redactSessionValue, redacted_marker]
      have inner : NamesFixed W value := ((names.1.resolve_left overwritten).2).resolve_left secret
      rw [redactMember_shown secret, or_iff_right secret, or_iff_right secret, GuardedMember, or_iff_right secret]
      by_cases again : secretKey ((sessionRedactor W).redactSessionText key) = true
      · -- the second pass would put the marker, so the first must have left it there
        rw [redactMember_secret again, eq_comm, redacted_string]
        constructor
        · rintro ⟨text, rfl, marked⟩
          refine ⟨⟨fun _ => ⟨text, rfl, marked⟩, trivial⟩, ?_⟩
          have fixed : FixedText W text := by rw [FixedText, marked, redacted_marker]
          exact fixed
        · exact fun both => both.1.1 again
      · rw [redactMember_shown again, again_value value inner]
        exact ⟨fun both => ⟨⟨fun held => absurd held again, both.1⟩, both.2⟩, fun both => ⟨both.1.2, both.2⟩⟩
end

end Hiding

end LatteCode
