import LatteCode.Config.Layers
import LatteCode.Core.Redaction
/- The credentials of the merged providers, and the layers that they come from. -/

namespace LatteCode

mutual
/-- A value as `serde_json` holds it: the members of every object in key order. -/
def Json.Proper : Json → Prop
  | .array elements => elements.Proper
  | .object fields => fields.Proper
  | _ => True
def Elements.Proper : Elements → Prop
  | .nil => True
  | .cons head tail => head.Proper ∧ tail.Proper
def Fields.Proper : Fields → Prop
  | .nil => True
  | .cons k value rest => (∀ key, rest.get? key ≠ none → k < key) ∧ value.Proper ∧ rest.Proper
end

namespace Fields

theorem Proper.ordered : ∀ {fields : Fields}, fields.Proper → fields.Ordered
  | .nil, _ => trivial
  | .cons _ _ _, proper => ⟨proper.1, proper.2.2.ordered⟩

theorem Proper.of_ordered : ∀ {fields : Fields}, fields.Ordered →
    (∀ key value, fields.get? key = some value → value.Proper) → fields.Proper
  | .nil, _, _ => trivial
  | .cons k v rest, ordered, values => by
      refine ⟨ordered.1, values k v (by rw [get?, if_pos rfl]), of_ordered ordered.2 fun key value held => ?_⟩
      refine values key value ?_
      have later : key ≠ k := fun same => by
        rw [same, get?_first ordered] at held
        cases held
      rw [get?, if_neg later]
      exact held

theorem Proper.value : ∀ {fields : Fields}, fields.Proper → ∀ {key : String} {value : Json},
    fields.get? key = some value → value.Proper
  | .cons k v rest, proper, key, value, held => by
      rw [get?] at held
      split at held
      · cases held
        exact proper.2.1
      · exact proper.2.2.value held

theorem Proper.insert {fields : Fields} (proper : fields.Proper) {key : String} {value : Json} (new : value.Proper) :
    (fields.insert key value).Proper := by
  refine .of_ordered (proper.ordered.insert key value) fun other held found => ?_
  rw [get?_insert] at found
  split at found
  · cases found
    exact new
  · exact proper.value found

theorem get?_remove (key other : String) : ∀ {fields : Fields}, fields.Ordered →
    (fields.remove key).get? other = if other = key then none else fields.get? other
  | .nil, _ => by
      rw [remove, get?]
      split <;> rfl
  | .cons k v rest, ordered => by
      rw [remove]
      by_cases first : key = k
      · subst first
        rw [if_pos rfl]
        by_cases same : other = key
        · rw [if_pos same, same, get?_first ordered]
        · rw [if_neg same, get?, if_neg same]
      · rw [if_neg first, get?, get?, get?_remove key other ordered.2]
        by_cases same : other = k
        · rw [if_pos same, if_pos same, if_neg fun removed => first (removed.symm.trans same)]
        · rw [if_neg same, if_neg same]

theorem Ordered.remove (key : String) : ∀ {fields : Fields}, fields.Ordered → (fields.remove key).Ordered
  | .nil, _ => trivial
  | .cons k v rest, ordered => by
      rw [Fields.remove]
      split
      case isTrue => exact ordered.2
      case isFalse =>
        refine ⟨fun other held => ordered.1 other fun absent => held ?_, ordered.2.remove key⟩
        rw [get?_remove key other ordered.2, absent, ite_self]

theorem Proper.remove {fields : Fields} (proper : fields.Proper) (key : String) : (fields.remove key).Proper := by
  refine .of_ordered (proper.ordered.remove key) fun other held found => ?_
  rw [get?_remove key other proper.ordered] at found
  split at found
  · cases found
  · exact proper.value found

theorem get?_mapValues (f : Json → Json) (key : String) : ∀ fields : Fields,
    (fields.mapValues f).get? key = (fields.get? key).map f
  | .nil => rfl
  | .cons k v rest => by
      rw [mapValues, get?, get?, get?_mapValues f key rest]
      split <;> rfl

theorem Proper.mapValues {f : Json → Json} (each : ∀ value : Json, value.Proper → (f value).Proper) :
    ∀ {fields : Fields}, fields.Proper → (fields.mapValues f).Proper
  | .nil, _ => trivial
  | .cons k v rest, proper => by
      refine ⟨fun other held => proper.1 other fun absent => held ?_, each v proper.2.1, proper.2.2.mapValues each⟩
      rw [get?_mapValues, absent, Option.map_none]

theorem mem_of_get? {key : String} {value : Json} : ∀ {fields : Fields}, fields.get? key = some value →
    (key, value) ∈ fields.toList
  | .cons k v rest, found => by
      rw [get?] at found
      rw [toList, List.mem_cons]
      split at found
      case isTrue same =>
        cases found
        exact .inl (same ▸ rfl)
      case isFalse => exact .inr (mem_of_get? found)

theorem mem_toList {key : String} {value : Json} : ∀ {fields : Fields}, fields.Ordered →
    ((key, value) ∈ fields.toList ↔ fields.get? key = some value)
  | .nil, _ => by simp [toList, get?]
  | .cons k v rest, ordered => by
      rw [toList, List.mem_cons, mem_toList ordered.2, get?]
      by_cases same : key = k
      · subst same
        rw [if_pos rfl, get?_first ordered]
        simp [eq_comm]
      · rw [if_neg same]
        simp [same]

end Fields

theorem Elements.Proper.element : ∀ {elements : Elements}, elements.Proper → ∀ value ∈ elements.toList, value.Proper
  | .cons _ _, proper, value, member => by
      rw [Elements.toList, List.mem_cons] at member
      rcases member with rfl | later
      · exact proper.1
      · exact proper.2.element value later

theorem Json.Proper.member {value member : Json} {key : String} (proper : value.Proper)
    (held : value.get? key = some member) : member.Proper := by
  cases value with
  | object fields => exact Fields.Proper.value proper held
  | null | bool _ | number _ | string _ | array _ => cases held

/-- Every item of a traversal has its result, and every result its item. -/
theorem mapM_members {α β : Type} {f : α → Option β} : ∀ {items : List α} {results : List β},
    items.mapM f = some results →
      (∀ item ∈ items, ∃ result ∈ results, f item = some result) ∧ ∀ result ∈ results, ∃ item ∈ items, f item = some result
  | [], _, done => by
      cases done
      exact ⟨List.forall_mem_nil _, List.forall_mem_nil _⟩
  | first :: rest, results, done => by
      simp only [List.mapM_cons, Option.bind_eq_bind, Option.bind_eq_some_iff, Option.pure_def, Option.some.injEq] at done
      obtain ⟨result, head, others, tail, rfl⟩ := done
      obtain ⟨forward, back⟩ := mapM_members tail
      simp only [List.forall_mem_cons, List.exists_mem_cons_iff]
      exact ⟨⟨.inl head, fun item member => .inr (forward item member)⟩,
        .inl head, fun result member => .inr (back result member)⟩

namespace Config
open Outcome

/-! ## A merge, member by member -/

/-- What a merge makes of one member of the later layer. -/
def mergedMember (path : List String) (existing : Option Json) (key : String) (value : Json) : Json :=
  if key = "models" ∧ path.length = 2 ∧ path.head? = some "providers" then value
  else
    match existing with
    | some existing => mergeValueAt (path ++ [key]) existing value
    | none => value

theorem mergedMember_none (path : List String) (key : String) (value : Json) :
    mergedMember path none key value = value := by
  rw [mergedMember, ite_self]

theorem mergeFieldsAt_cons (path : List String) (base : Fields) (key : String) (value : Json) (rest : Fields) :
    mergeFieldsAt path base (.cons key value rest) =
      mergeFieldsAt path (base.insert key (mergedMember path (base.get? key) key value)) rest := by
  unfold mergedMember
  rw [mergeFieldsAt]
  split
  · rfl
  · cases base.get? key <;> rfl

theorem get?_mergeFieldsAt (path : List String) (key : String) : ∀ {overlay : Fields} (base : Fields), overlay.Ordered →
    (mergeFieldsAt path base overlay).get? key =
      match overlay.get? key with
      | some value => some (mergedMember path (base.get? key) key value)
      | none => base.get? key
  | .nil, base, _ => by
      rw [mergeFieldsAt]
      rfl
  | .cons k v rest, base, ordered => by
      rw [mergeFieldsAt_cons, get?_mergeFieldsAt path key _ ordered.2, Fields.get?, Fields.get?_insert]
      by_cases same : key = k
      · subst same
        rw [if_pos rfl, if_pos rfl, Fields.get?_first ordered]
      · rw [if_neg same, if_neg same]

/-- A member of the later layer is merged, and the others stay. -/
theorem get?_mergeValueAt (path : List String) (base : Json) {overlay : Fields} (ordered : overlay.Ordered) (key : String) :
    (mergeValueAt path base (.object overlay)).get? key =
      match overlay.get? key with
      | some value => some (mergedMember path (base.get? key) key value)
      | none => base.get? key := by
  cases base with
  | object fields =>
      rw [mergeValueAt, Json.get?, get?_mergeFieldsAt path key fields ordered]
      rfl
  | null | bool _ | number _ | string _ | array _ =>
      rw [mergeValueAt, Json.get?]
      · cases overlay.get? key with
        | none => rfl
        | some value =>
            show some value = some (mergedMember path none key value)
            rw [mergedMember_none]
      · intro fields same
        cases same

mutual
theorem proper_mergeValueAt (path : List String) : ∀ (overlay base : Json), base.Proper → overlay.Proper →
    (mergeValueAt path base overlay).Proper
  | .object overlay, base, held, later => by
      cases base with
      | object fields =>
          rw [mergeValueAt]
          exact proper_mergeFieldsAt path overlay fields held later
      | null | bool _ | number _ | string _ | array _ =>
          rw [mergeValueAt]
          · exact later
          · intro fields same
            cases same
  | .null, base, _, later => by
      rw [mergeValueAt]
      · exact later
      · intro fields same
        cases same
  | .bool b, base, _, later => by
      rw [mergeValueAt]
      · exact later
      · intro fields same
        cases same
  | .number n, base, _, later => by
      rw [mergeValueAt]
      · exact later
      · intro fields same
        cases same
  | .string text, base, _, later => by
      rw [mergeValueAt]
      · exact later
      · intro fields same
        cases same
  | .array elements, base, _, later => by
      rw [mergeValueAt]
      · exact later
      · intro fields same
        cases same
theorem proper_mergeFieldsAt (path : List String) : ∀ (overlay base : Fields), base.Proper → overlay.Proper →
    (mergeFieldsAt path base overlay).Proper
  | .nil, base, held, _ => by
      rw [mergeFieldsAt]
      exact held
  | .cons key value rest, base, held, later => by
      rw [mergeFieldsAt_cons]
      refine proper_mergeFieldsAt path rest _ (held.insert ?_) later.2.2
      unfold mergedMember
      split
      · exact later.2.1
      · split
        case h_1 existing found => exact proper_mergeValueAt _ value existing (held.value found) later.2.1
        case h_2 => exact later.2.1
end

/-- A text comes out of a merge only as it went into it. -/
theorem mergeValueAt_string {path : List String} {base overlay : Json} {text : String}
    (merged : mergeValueAt path base overlay = .string text) : overlay = .string text := by
  cases overlay with
  | object fields => cases base <;> simp only [mergeValueAt, reduceCtorEq] at merged
  | null | bool _ | number _ | string _ | array _ => simpa only [mergeValueAt] using merged

theorem mergedMember_string {path : List String} {existing : Option Json} {key text : String} {value : Json}
    (merged : mergedMember path existing key value = .string text) : value = .string text := by
  unfold mergedMember at merged
  split at merged
  · exact merged
  · cases existing with
    | none => exact merged
    | some existing => exact mergeValueAt_string merged

/-! ## The provider definitions -/

/-- A field of a struct variant, as serde reads it: a member of an object, or the element at its place in an array whose
first element is the tag. -/
def fieldOf (place : Nat) (key : String) : Json → Option Json
  | .object fields => fields.get? key
  | .array elements => elements.toList[place]?
  | _ => none

inductive SecretRef where
  | literal (value : String)
  | env (name : String)

/-- `SecretSource`: a unit variant is its name, or an object whose one member it names. -/
def isSourceEnv : Json → Bool
  | .string text => text = "env"
  | .object (.cons key .null .nil) => key = "env"
  | _ => false

def SecretRef.decode : Json → Option SecretRef
  | .string value => some (.literal value)
  | .object (.cons first (.string name) (.cons second source .nil)) =>
      if first = "name" ∧ second = "source" ∧ isSourceEnv source then some (.env name) else none
  | _ => none

/-- An optional text. -/
def urlOf : Option Json → Option (Option String)
  | none | some .null => some none
  | some (.string url) => some (some url)
  | _ => none

/-- `BTreeMap<String, String>`, empty by default. -/
def headersOf : Option Json → Option (List (String × String))
  | none => some []
  | some (.object fields) => fields.toList.mapM fun header => (asStr header.2).map (header.1, ·)
  | _ => none

/-- The fields that say where a request goes and what it carries. -/
structure ProviderDefinition where
  baseUrl : Option String
  endpoint : Option String
  apiKey : SecretRef
  headers : List (String × String)

def ProviderDefinition.decode (provider : Json) : Option ProviderDefinition := do
  let baseUrl ← urlOf (fieldOf 2 "base_url" provider)
  let endpoint ← urlOf (fieldOf 3 "endpoint" provider)
  let apiKey ← fieldOf 4 "api_key" provider >>= SecretRef.decode
  let headers ← headersOf (fieldOf 11 "headers" provider)
  some ⟨baseUrl, endpoint, apiKey, headers⟩

def registryOf (merged : Json) : Option (List (String × ProviderDefinition)) :=
  match merged.get? "providers" with
  | some (.object providers) =>
      providers.toList.mapM fun provider => (ProviderDefinition.decode provider.2).map (provider.1, ·)
  | _ => none

/-- `AppConfig::load_with_home`, with the credentials of the registry; `S.decode` is the rest of its checks. -/
def loadWithHome (S : Schema) (disk : Disk) (root : String) (home : Option String) :
    Except String (Layers × List (String × ProviderDefinition)) := do
  let layers ← loadWithHomeInner S disk root home true
  let registry ← require (registryOf layers.merged) "invalid provider configuration"
  .ok (layers, registry)

namespace Layers

variable (layers : Layers)

def homeProvider (name : String) : Option Json := layers.homeOverlay >>= (providerOf · name)

def workspaceProvider (name : String) : Option Json := layers.workspaceOverlay >>= (providerOf · name)

/-- The variable is unset or empty. -/
def unset (reference : String) : Bool := !(layers.env reference).any fun value => !value.isEmpty

/-- The workspace layer has set the address that requests go to. -/
def Redirects (name : String) (definition : ProviderDefinition) : Prop :=
  ∃ url, (definition.baseUrl = some url ∧ layers.workspaceProvider name >>= fieldOf 2 "base_url" = some (.string url)) ∨
    (definition.endpoint = some url ∧ layers.workspaceProvider name >>= fieldOf 3 "endpoint" = some (.string url))

def OwnKey (name : String) : SecretRef → Prop
  | .literal value => layers.workspaceProvider name >>= fieldOf 4 "api_key" = some (.string value)
  | .env reference => layers.unset reference = true

def OwnHeaders (name : String) (headers : List (String × String)) : Prop :=
  ∀ header ∈ headers,
    layers.workspaceProvider name >>= fieldOf 11 "headers" >>= Json.get? header.1 = some (.string header.2)

/-- Where the workspace layer says where requests go, and the home layer does not consent, they carry its own secrets only. -/
def Confined (registry : List (String × ProviderDefinition)) : Prop :=
  ∀ name definition, (name, definition) ∈ registry → name ∉ layers.homeTrusted → layers.Redirects name definition →
    layers.OwnKey name definition.apiKey ∧ layers.OwnHeaders name definition.headers

/-- No header of the home layer is left standing beside those of the workspace layer. -/
def HeadersReplaced (name : String) : Prop :=
  (∃ elements, layers.workspaceProvider name = some (.array elements)) ∨
    ∀ key, layers.homeProvider name >>= Json.get? "headers" >>= Json.get? key ≠ none →
      layers.workspaceProvider name >>= Json.get? "headers" >>= Json.get? key ≠ none

/-- The gate sees the reference of the key: the provider is written as an object, and its source as a text. -/
def ReferenceShown (name : String) : Prop :=
  (∃ fields, layers.workspaceProvider name = some (.object fields)) ∧
    providerOf layers.merged name >>= Json.get? "api_key" >>= Json.get? "source" = some (.string "env")

/-- What the gate leaves open is closed by the layers themselves. -/
def Closed (registry : List (String × ProviderDefinition)) : Prop :=
  ∀ name definition, (name, definition) ∈ registry → name ∉ layers.homeTrusted → layers.Redirects name definition →
    layers.HeadersReplaced name ∧ ∀ reference, definition.apiKey = .env reference →
      layers.unset reference = true ∨ layers.ReferenceShown name

end Layers

/-! ## The layers of a load -/

theorem providerOf_merge (base : Json) {overlay : Fields} (proper : overlay.Proper) (name : String) :
    providerOf (mergeValue base (.object overlay)) name =
      match overlay.get? "providers" with
      | some (.object providers) =>
          match providers.get? name with
          | some value => some (mergedMember ["providers"] (providerOf base name) name value)
          | none => providerOf base name
      | some _ => none
      | none => providerOf base name := by
  rw [providerOf, mergeValue, get?_mergeValueAt [] base proper.ordered]
  cases found : overlay.get? "providers" with
  | none => rfl
  | some written =>
      have plain : mergedMember [] (base.get? "providers") "providers" written =
          match base.get? "providers" with
          | some existing => mergeValueAt ["providers"] existing written
          | none => written := by
        unfold mergedMember
        rw [if_neg (by decide)]
        rfl
      show (mergedMember [] (base.get? "providers") "providers" written).get? name = _
      rw [plain, providerOf]
      cases written with
      | object providers =>
          have ordered := (proper.value found : providers.Proper).ordered
          cases held : base.get? "providers" with
          | none =>
              show providers.get? name = _
              dsimp only
              cases providers.get? name with
              | none => rfl
              | some value =>
                  show some value = some (mergedMember ["providers"] none name value)
                  rw [mergedMember_none]
          | some existing =>
              show (mergeValueAt ["providers"] existing (.object providers)).get? name = _
              rw [get?_mergeValueAt ["providers"] existing ordered]
              rfl
      | null | bool _ | number _ | string _ | array _ =>
          cases base.get? "providers" with
          | none => rfl
          | some existing =>
              show (mergeValueAt ["providers"] existing _).get? name = none
              rw [mergeValueAt]
              · rfl
              · intro fields same
                cases same

/-- How the layers of a load stand on one another. -/
structure Stacked (layers : Layers) : Prop where
  home : ∀ overlay, layers.homeOverlay = some overlay → ∃ fields : Fields, overlay = .object fields ∧ fields.Proper
  workspace : ∀ overlay, layers.workspaceOverlay = some overlay → ∃ fields : Fields, overlay = .object fields ∧ fields.Proper
  merged : layers.merged = (layers.workspaceOverlay.map
    (mergeValue ((layers.homeOverlay.map (mergeValue defaultConfig)).getD defaultConfig))).getD
      ((layers.homeOverlay.map (mergeValue defaultConfig)).getD defaultConfig)

theorem readOptionalConfig_proper {S : Schema} (proper : ∀ text value, S.json5 text = .ok value → value.Proper)
    {disk : Disk} {path : String} {overlay : Json} (read : readOptionalConfig S disk path = .ok (some overlay)) :
    ∃ fields : Fields, overlay = .object fields ∧ fields.Proper := by
  rw [readOptionalConfig] at read
  split at read
  · cases read
  · cases read
  case h_3 text _ =>
    split at read
    · cases read
    case h_2 fields parsed =>
      have whole : fields.Proper := proper text _ parsed
      obtain ⟨_, normalized, ⟨⟩⟩ := bind_ok.mp read
      rw [normalizeLegacyThreadBlock] at normalized
      split at normalized
      · cases normalized
        exact ⟨fields, rfl, whole⟩
      case h_2 thread found =>
        split at normalized
        · cases normalized
        · cases normalized
          exact ⟨_, rfl, (whole.remove "thread").insert (whole.value found)⟩
    · cases read

theorem stripConsent_proper (value : Json) (proper : value.Proper) : (stripConsent value).Proper := by
  cases value with
  | object fields => exact Fields.Proper.remove proper _
  | null | bool _ | number _ | string _ | array _ => exact proper

theorem takeWorkspaceTrustFlags_proper {fields : Fields} (proper : fields.Proper) :
    ∃ stripped : Fields, (takeWorkspaceTrustFlags (.object fields)).2 = .object stripped ∧ stripped.Proper := by
  rw [takeWorkspaceTrustFlags]
  split
  case h_1 providers found =>
    have held : providers.Proper := proper.value found
    have stripped : Json.Proper (.object (providers.mapValues stripConsent)) := held.mapValues stripConsent_proper
    exact ⟨_, rfl, proper.insert stripped⟩
  case h_2 => exact ⟨fields, rfl, proper⟩

/-- What a load read, and the layers it made of that. -/
theorem readLayers_ok {S : Schema} {disk : Disk} {root : String} {home : Option String} {layers : Layers}
    (read : readLayers S disk root home = .ok layers) : ∃ homeLayer workspaceLayer : Option Json,
      (∀ written, homeLayer = some written → ∃ path, readOptionalConfig S disk path = .ok (some written)) ∧
      (∀ written, workspaceLayer = some written → ∃ path, readOptionalConfig S disk path = .ok (some written)) ∧
      layers.homeOverlay = homeLayer.map (fun overlay => (takeWorkspaceTrustFlags overlay).2) ∧
      layers.workspaceOverlay = workspaceLayer.map (fun overlay => (takeWorkspaceTrustFlags overlay).2) ∧
      layers.merged = (layers.workspaceOverlay.map
        (mergeValue ((layers.homeOverlay.map (mergeValue defaultConfig)).getD defaultConfig))).getD
          ((layers.homeOverlay.map (mergeValue defaultConfig)).getD defaultConfig) := by
  unfold readLayers at read
  dsimp only at read
  split at read
  case h_1 path _ =>
    obtain ⟨homeLayer, homeRead, read⟩ := bind_ok.mp read
    split at read
    · cases read
      refine ⟨homeLayer, none, ?_, ?_, ?_, rfl, rfl⟩
      · rintro written rfl
        exact ⟨path, homeRead⟩
      · intro written held
        cases held
      · cases homeLayer <;> rfl
    · obtain ⟨workspaceLayer, workspaceRead, read⟩ := bind_ok.mp read
      cases read
      refine ⟨homeLayer, workspaceLayer, ?_, ?_, ?_, rfl, rfl⟩
      · rintro written rfl
        exact ⟨path, homeRead⟩
      · rintro written rfl
        exact ⟨_, workspaceRead⟩
      · cases homeLayer <;> rfl
  case h_2 =>
    have absent : ∀ written, (none : Option Json) = some written →
        ∃ path, readOptionalConfig S disk path = .ok (some written) := by
      intro written held
      cases held
    obtain ⟨_, ⟨⟩, read⟩ := bind_ok.mp read
    split at read
    · cases read
      exact ⟨none, none, absent, absent, rfl, rfl, rfl⟩
    · obtain ⟨workspaceLayer, workspaceRead, read⟩ := bind_ok.mp read
      cases read
      refine ⟨none, workspaceLayer, absent, ?_, rfl, rfl, rfl⟩
      rintro written rfl
      exact ⟨_, workspaceRead⟩

theorem readLayers_stacked {S : Schema} (proper : ∀ text value, S.json5 text = .ok value → value.Proper) {disk : Disk}
    {root : String} {home : Option String} {layers : Layers} (read : readLayers S disk root home = .ok layers) :
    Stacked layers := by
  obtain ⟨homeLayer, workspaceLayer, homeRead, workspaceRead, homeOverlay, workspaceOverlay, merged⟩ := readLayers_ok read
  have flagged : ∀ {layer : Option Json},
      (∀ written, layer = some written → ∃ path, readOptionalConfig S disk path = .ok (some written)) →
      ∀ overlay, layer.map (fun overlay => (takeWorkspaceTrustFlags overlay).2) = some overlay →
        ∃ fields : Fields, overlay = .object fields ∧ fields.Proper := by
    intro layer read overlay held
    obtain ⟨written, listed, rfl⟩ := Option.map_eq_some_iff.mp held
    obtain ⟨path, text⟩ := read written listed
    obtain ⟨fields, rfl, whole⟩ := readOptionalConfig_proper proper text
    exact takeWorkspaceTrustFlags_proper whole
  exact ⟨homeOverlay ▸ flagged homeRead, workspaceOverlay ▸ flagged workspaceRead, merged⟩

theorem homeProvider_under {layers : Layers} (stacked : Stacked layers) (name : String) :
    providerOf ((layers.homeOverlay.map (mergeValue defaultConfig)).getD defaultConfig) name = layers.homeProvider name := by
  rw [Layers.homeProvider]
  cases held : layers.homeOverlay with
  | none => rfl
  | some overlay =>
      obtain ⟨fields, rfl, proper⟩ := stacked.home overlay held
      have bare : providerOf defaultConfig name = none := rfl
      show providerOf (mergeValue defaultConfig (.object fields)) name = providerOf (.object fields) name
      rw [providerOf_merge defaultConfig proper, bare, providerOf, Json.get?]
      cases fields.get? "providers" with
      | none => rfl
      | some written =>
          cases written with
          | object providers =>
              show (match providers.get? name with
                | some value => some (mergedMember ["providers"] none name value)
                | none => none) = providers.get? name
              cases providers.get? name with
              | none => rfl
              | some value =>
                  show some (mergedMember ["providers"] none name value) = some value
                  rw [mergedMember_none]
          | null | bool _ | number _ | string _ | array _ => rfl

/-- A provider that the workspace layer mentions is merged from the two layers. -/
theorem providerOf_merged {layers : Layers} (stacked : Stacked layers) {name : String} {written : Json}
    (set : layers.workspaceProvider name = some written) :
    providerOf layers.merged name = some (mergedMember ["providers"] (layers.homeProvider name) name written) := by
  rw [stacked.merged]
  cases held : layers.workspaceOverlay with
  | none =>
      rw [Layers.workspaceProvider, held] at set
      cases set
  | some overlay =>
      obtain ⟨fields, rfl, proper⟩ := stacked.workspace overlay held
      rw [Layers.workspaceProvider, held] at set
      have listed : fields.get? "providers" >>= Json.get? name = some written := set
      obtain ⟨providers, found, member⟩ := Option.bind_eq_some_iff.mp listed
      show providerOf (mergeValue _ (.object fields)) name = _
      rw [providerOf_merge _ proper, found, homeProvider_under stacked]
      cases providers with
      | object providers =>
          have here : providers.get? name = some written := member
          simp only [here]
      | null | bool _ | number _ | string _ | array _ => cases member

/-! ## One provider -/

@[simp] theorem decode_literal {key : Json} {value : String} :
    SecretRef.decode key = some (.literal value) ↔ key = .string value := by
  constructor
  · intro decoded
    rw [SecretRef.decode.eq_def] at decoded
    split at decoded
    · cases decoded
      rfl
    · split at decoded <;> cases decoded
    · cases decoded
  · rintro rfl
    rfl

/-- A reference is an object with a name and a source. -/
theorem decode_env {key : Json} {reference : String} (decoded : SecretRef.decode key = some (.env reference)) :
    key.get? "name" = some (.string reference) := by
  rw [SecretRef.decode.eq_def] at decoded
  split at decoded
  · cases decoded
  · split at decoded
    case isTrue named =>
      obtain ⟨rfl, _, _⟩ := named
      cases decoded
      rfl
    case isFalse => cases decoded
  · cases decoded

theorem decode_fields {provider : Json} {definition : ProviderDefinition}
    (decoded : ProviderDefinition.decode provider = some definition) :
    (fieldOf 4 "api_key" provider >>= SecretRef.decode = some definition.apiKey) ∧
      headersOf (fieldOf 11 "headers" provider) = some definition.headers := by
  simp only [ProviderDefinition.decode, Option.bind_eq_bind, Option.bind_eq_some_iff, Option.some.injEq] at decoded
  obtain ⟨_, _, _, _, _, ⟨key, found, decoded⟩, _, headers, rfl⟩ := decoded
  exact ⟨Option.bind_eq_some_iff.mpr ⟨key, found, decoded⟩, headers⟩

/-- The headers are the members of an object, and all of them are texts. -/
theorem headersOf_object {value : Json} {headers : List (String × String)} (decoded : headersOf (some value) = some headers) :
    ∃ fields : Fields, value = .object fields := by
  cases value with
  | object fields => exact ⟨fields, rfl⟩
  | null | bool _ | number _ | string _ | array _ => cases decoded

/-- The decoded headers are the members of the object. -/
theorem headersOf_mem {value : Option Json} {headers : List (String × String)} (decoded : headersOf value = some headers)
    (proper : ∀ object, value = some object → object.Proper) (key text : String) :
    (key, text) ∈ headers ↔ value >>= Json.get? key = some (.string text) := by
  cases value with
  | none =>
      cases decoded
      simp
  | some object =>
      obtain ⟨fields, rfl⟩ := headersOf_object decoded
      obtain ⟨forward, back⟩ := mapM_members (show fields.toList.mapM (fun header => (asStr header.2).map (header.1, ·)) =
        some headers from decoded)
      have ordered := (proper _ rfl : fields.Proper).ordered
      show _ ↔ fields.get? key = _
      constructor
      · intro member
        obtain ⟨⟨name, held⟩, listed, read⟩ := back _ member
        cases held <;> cases read
        exact (Fields.mem_toList ordered).mp listed
      · intro found
        obtain ⟨_, member, read⟩ := forward _ ((Fields.mem_toList ordered).mpr found)
        cases read
        exact member

theorem headersOf_text {value : Option Json} {headers : List (String × String)} (decoded : headersOf value = some headers)
    (proper : ∀ object, value = some object → object.Proper) {key : String} {member : Json}
    (held : value >>= Json.get? key = some member) : ∃ text, member = .string text := by
  obtain ⟨object, rfl, found⟩ := Option.bind_eq_some_iff.mp held
  obtain ⟨fields, rfl⟩ := headersOf_object decoded
  obtain ⟨forward, _⟩ := mapM_members (show fields.toList.mapM (fun header => (asStr header.2).map (header.1, ·)) =
    some headers from decoded)
  obtain ⟨_, _, read⟩ := forward _ ((Fields.mem_toList (proper _ rfl : fields.Proper).ordered).mpr found)
  cases member with
  | string text => exact ⟨text, rfl⟩
  | null | bool _ | number _ | array _ | object _ => cases read

section Provider

variable {layers : Layers} {name : String} {fields : Fields}

/-- A field that the workspace layer writes, in an object, is merged with that of the home layer. -/
theorem fieldOf_merged (ordered : fields.Ordered) (existing : Option Json) (place : Nat) (key : String) :
    fieldOf place key (mergedMember ["providers"] existing name (.object fields)) =
      match fields.get? key with
      | some value => some (mergedMember ["providers", name] (existing >>= Json.get? key) key value)
      | none => existing >>= Json.get? key := by
  cases existing with
  | none =>
      rw [mergedMember_none, fieldOf]
      cases fields.get? key with
      | none => rfl
      | some value => exact congrArg some (mergedMember_none _ _ _).symm
  | some held =>
      have merged : mergedMember ["providers"] (some held) name (.object fields) =
          mergeValueAt ["providers", name] held (.object fields) := by
        unfold mergedMember
        rw [if_neg (by simp)]
        rfl
      rw [merged]
      refine Eq.trans ?_ (get?_mergeValueAt ["providers", name] held ordered key)
      cases held <;> simp only [mergeValueAt, fieldOf, Json.get?]

theorem workspaceProviders_get? {written : Json} (set : layers.workspaceProvider name = some written) :
    layers.workspaceProviders.get? name = some written := by
  obtain ⟨overlay, held, listed⟩ := Option.bind_eq_some_iff.mp set
  obtain ⟨providers, found, member⟩ := Option.bind_eq_some_iff.mp (listed : overlay.get? "providers" >>= Json.get? name = _)
  rw [Layers.workspaceProviders, held]
  show (match overlay.get? "providers" with
    | some (.object providers) => providers
    | _ => Fields.nil).get? name = _
  rw [found]
  cases providers with
  | object providers => exact member
  | null | bool _ | number _ | string _ | array _ => cases member

/-- The gate has passed a provider whose address the workspace layer sets, in an object. -/
theorem gate_passed (passed : layers.enforceWorkspaceEndpointTrust = .ok ()) {definition : ProviderDefinition}
    {provider : Json} (merged : providerOf layers.merged name = some provider) (untrusted : name ∉ layers.homeTrusted)
    (redirects : layers.Redirects name definition) (set : layers.workspaceProvider name = some (.object fields)) :
    ((layers.homeProvider name >>= Json.get? "api_key").isSome = true → (fields.get? "api_key").isSome = true) ∧
      ∀ reference, provider.get? "api_key" >>= Json.get? "name" = some (.string reference) →
        provider.get? "api_key" >>= Json.get? "source" = some (.string "env") → layers.unset reference = true := by
  have listed := workspaceProviders_get? set
  have allowed := (layers.enforce_ok).mp passed _ (Fields.mem_of_get? listed)
  have gated : (gatedFields (.object fields)).isEmpty = false := by
    obtain ⟨url, ⟨_, written⟩ | ⟨_, written⟩⟩ := redirects <;> rw [set] at written
    · have held : (Json.object fields).get? "base_url" = some (.string url) := written
      rw [gatedFields, List.filter_cons, held]
      rfl
    · have held : (Json.object fields).get? "endpoint" = some (.string url) := written
      rw [gatedFields, List.isEmpty_eq_false_iff_exists_mem]
      exact ⟨"endpoint", List.mem_filter.mpr ⟨by decide, by rw [held]; rfl⟩⟩
  rw [Layers.refuses, merged, gated, decide_eq_true untrusted, listed] at allowed
  have clean : providerHoldsForeignCredential layers.env (fields.get? "api_key").isSome provider layers.homeOverlay name =
    false := allowed
  rw [providerHoldsForeignCredential] at clean
  split at clean
  · cases clean
  case isFalse own =>
    constructor
    · intro declared
      by_contra omitted
      refine own ?_
      rw [Bool.and_eq_true, Bool.not_eq_true']
      exact ⟨declared, Bool.not_eq_true _ ▸ omitted⟩
    · intro reference named sourced
      obtain ⟨key, found, named⟩ := Option.bind_eq_some_iff.mp named
      rw [found] at clean sourced
      dsimp only at clean
      have source : key.get? "source" = some (.string "env") := sourced
      have name : key.get? "name" = some (.string reference) := named
      rw [source, name] at clean
      rw [Layers.unset]
      have empty : ((layers.env reference).any fun value => !value.isEmpty) = false := by
        simpa [asStr] using clean
      rw [empty]
      rfl

/-- An array replaces what the home layer has for a provider. -/
theorem merged_array {elements : Elements} (existing : Option Json) :
    mergedMember ["providers"] existing name (.array elements) = .array elements := by
  unfold mergedMember
  rw [if_neg (by simp)]
  cases existing with
  | none => rfl
  | some held =>
      show mergeValueAt _ held (.array elements) = _
      rw [mergeValueAt]
      intro fields same
      cases same

theorem merged_object (existing : Option Json) :
    ∃ whole : Fields, mergedMember ["providers"] existing name (.object fields) = .object whole := by
  unfold mergedMember
  rw [if_neg (by simp)]
  cases existing with
  | none => exact ⟨fields, rfl⟩
  | some held => cases held <;> simp only [mergeValueAt] <;> exact ⟨_, rfl⟩

/-- A provider that the registry of a load holds, with its merged value. -/
structure Loaded (layers : Layers) (name : String) (definition : ProviderDefinition) (provider : Json) : Prop where
  stacked : Stacked layers
  passed : layers.enforceWorkspaceEndpointTrust = .ok ()
  merged : providerOf layers.merged name = some provider
  proper : provider.Proper
  decoded : ProviderDefinition.decode provider = some definition

variable {definition : ProviderDefinition} {provider : Json}

theorem Loaded.array (loaded : Loaded layers name definition provider) {elements : Elements}
    (set : layers.workspaceProvider name = some (.array elements)) : provider = .array elements := by
  have same := loaded.merged.symm.trans (providerOf_merged loaded.stacked set)
  rw [merged_array] at same
  exact Option.some.inj same

/-- The fields of a provider that both layers write as objects. -/
theorem Loaded.object (loaded : Loaded layers name definition provider)
    (set : layers.workspaceProvider name = some (.object fields)) :
    fields.Proper ∧ (∀ place key, fieldOf place key provider = provider.get? key) ∧ ∀ key, provider.get? key =
      match fields.get? key with
      | some value => some (mergedMember ["providers", name] (layers.homeProvider name >>= Json.get? key) key value)
      | none => layers.homeProvider name >>= Json.get? key := by
  have proper : fields.Proper := by
    obtain ⟨overlay, held, listed⟩ := Option.bind_eq_some_iff.mp set
    obtain ⟨layer, rfl, proper⟩ := loaded.stacked.workspace overlay held
    obtain ⟨providers, inside, member⟩ := Option.bind_eq_some_iff.mp
      (listed : layer.get? "providers" >>= Json.get? name = _)
    exact (proper.value inside).member member
  have same := Option.some.inj (loaded.merged.symm.trans (providerOf_merged loaded.stacked set))
  have plain : ∀ place key, fieldOf place key provider = provider.get? key := by
    obtain ⟨whole, object⟩ := @merged_object name fields (layers.homeProvider name)
    rw [same, object]
    exact fun _ _ => rfl
  refine ⟨proper, plain, fun key => ?_⟩
  rw [← plain 0 key, same, fieldOf_merged proper.ordered]

theorem redirects_cases (redirects : layers.Redirects name definition) :
    (∃ elements, layers.workspaceProvider name = some (.array elements)) ∨
      ∃ fields, layers.workspaceProvider name = some (.object fields) := by
  have read : ∀ place key url, layers.workspaceProvider name >>= fieldOf place key = some (.string url) →
      (∃ elements, layers.workspaceProvider name = some (.array elements)) ∨
        ∃ fields, layers.workspaceProvider name = some (.object fields) := by
    intro place key url written
    obtain ⟨provider, set, field⟩ := Option.bind_eq_some_iff.mp written
    cases provider with
    | array elements => exact .inl ⟨elements, set⟩
    | object fields => exact .inr ⟨fields, set⟩
    | null | bool _ | number _ | string _ => cases field
  obtain ⟨url, ⟨_, written⟩ | ⟨_, written⟩⟩ := redirects
  · exact read _ _ url written
  · exact read _ _ url written

/-- The key is the workspace's own unless a set variable is hidden from the gate. -/
theorem ownKey_iff (loaded : Loaded layers name definition provider) (untrusted : name ∉ layers.homeTrusted)
    (redirects : layers.Redirects name definition) : layers.OwnKey name definition.apiKey ↔
      ∀ reference, definition.apiKey = .env reference → layers.unset reference = true ∨ layers.ReferenceShown name := by
  obtain ⟨key, found, secret⟩ := Option.bind_eq_some_iff.mp (decode_fields loaded.decoded).1
  rcases redirects_cases redirects with ⟨elements, set⟩ | ⟨fields, set⟩
  · obtain rfl := loaded.array set
    cases referenced : definition.apiKey with
    | literal value =>
        rw [referenced, decode_literal] at secret
        subst secret
        refine iff_of_true ?_ fun reference impossible => by cases impossible
        rw [Layers.OwnKey, set]
        exact found
    | env reference =>
        constructor
        · rintro empty _ ⟨⟩
          exact .inl empty
        · intro closed
          rcases closed reference rfl with empty | ⟨⟨fields, object⟩, _⟩
          · exact empty
          · rw [set] at object
            cases object
  · obtain ⟨_, plain, member⟩ := loaded.object set
    obtain ⟨declared, shown⟩ := gate_passed loaded.passed loaded.merged untrusted redirects set
    rw [plain] at found
    cases referenced : definition.apiKey with
    | literal value =>
        rw [referenced, decode_literal] at secret
        subst secret
        refine iff_of_true ?_ fun reference impossible => by cases impossible
        rw [member] at found
        rw [Layers.OwnKey, set]
        show fields.get? "api_key" = _
        cases written : fields.get? "api_key" with
        | none =>
            rw [written] at found
            have inherited : layers.homeProvider name >>= Json.get? "api_key" = some (.string value) := found
            have omitted := declared (by rw [inherited]; rfl)
            rw [written] at omitted
            cases omitted
        | some own =>
            rw [written] at found
            rw [mergedMember_string (Option.some.inj found)]
    | env reference =>
        rw [referenced] at secret
        constructor
        · rintro empty _ ⟨⟩
          exact .inl empty
        · intro closed
          rcases closed reference rfl with empty | ⟨_, sourced⟩
          · exact empty
          · refine shown reference ?_ ?_
            · rw [found]
              exact decode_env secret
            · rw [loaded.merged] at sourced
              exact sourced

/-- A header comes from the layer that wrote it last. -/
theorem header_merged (path : List String) {whole own inherited : Option Json}
    (merged : whole = match own with
      | some value => some (mergedMember path inherited "headers" value)
      | none => inherited)
    {headers : List (String × String)} (decoded : headersOf whole = some headers)
    (proper : ∀ written, own = some written → written.Proper) (key : String) :
    whole >>= Json.get? key =
      match own >>= Json.get? key with
      | some value => some (mergedMember (path ++ ["headers"]) (inherited >>= Json.get? key) key value)
      | none => inherited >>= Json.get? key := by
  subst merged
  cases own with
  | none => rfl
  | some written =>
      cases inherited with
      | none =>
          show (mergedMember path none "headers" written).get? key = match written.get? key with
            | some value => some (mergedMember _ none key value)
            | none => none
          rw [mergedMember_none]
          cases written.get? key with
          | none => rfl
          | some value => exact congrArg some (mergedMember_none _ _ _).symm
      | some held =>
          have merged : mergedMember path (some held) "headers" written = mergeValueAt (path ++ ["headers"]) held written := by
            unfold mergedMember
            rw [if_neg fun special => absurd special.1 (by decide)]
          show (mergedMember path (some held) "headers" written).get? key = _
          rw [merged]
          cases written with
          | object fields =>
              have ordered : fields.Ordered := Fields.Proper.ordered (proper _ rfl)
              rw [get?_mergeValueAt _ held ordered]
              rfl
          | null | bool _ | number _ | string _ | array _ =>
              have read : headersOf (some (mergedMember path (some held) "headers" _)) = some headers := decoded
              rw [merged, mergeValueAt] at read
              · cases read
              · intro fields same
                cases same

/-- The headers are the workspace's own exactly if none of the home layer's is left standing. -/
theorem ownHeaders_iff (loaded : Loaded layers name definition provider) (redirects : layers.Redirects name definition) :
    layers.OwnHeaders name definition.headers ↔ layers.HeadersReplaced name := by
  have read := (decode_fields loaded.decoded).2
  rcases redirects_cases redirects with ⟨elements, set⟩ | ⟨fields, set⟩
  · obtain rfl := loaded.array set
    refine iff_of_true ?_ (.inl ⟨elements, set⟩)
    rintro ⟨key, text⟩ member
    have proper : ∀ object, fieldOf 11 "headers" (.array elements) = some object → object.Proper :=
      fun object held => Elements.Proper.element loaded.proper object (List.mem_of_getElem? held)
    rw [set]
    exact (headersOf_mem read proper key text).mp member
  · obtain ⟨whole, plain, member⟩ := loaded.object set
    rw [plain] at read
    have proper : ∀ object, provider.get? "headers" = some object → object.Proper :=
      fun object held => loaded.proper.member held
    have listed := headersOf_mem read proper
    have texts := fun key value => @headersOf_text _ _ read proper key value
    have merged := header_merged ["providers", name] (member "headers") read fun _ held => whole.value held
    have own : ∀ key, layers.workspaceProvider name >>= fieldOf 11 "headers" >>= Json.get? key =
        fields.get? "headers" >>= Json.get? key := by
      intro key
      rw [set]
      rfl
    have own' : ∀ key, layers.workspaceProvider name >>= Json.get? "headers" >>= Json.get? key =
        fields.get? "headers" >>= Json.get? key := by
      intro key
      rw [set]
      rfl
    constructor
    · intro confined
      refine .inr fun key inherited omitted => ?_
      rw [own'] at omitted
      obtain ⟨value, held⟩ := Option.ne_none_iff_exists'.mp inherited
      have standing : provider.get? "headers" >>= Json.get? key = some value := by
        rw [merged key, omitted, ← held]
      obtain ⟨text, rfl⟩ := texts key value standing
      have written := confined (key, text) ((listed key text).mpr standing)
      rw [own, omitted] at written
      cases written
    · rintro (⟨elements, array⟩ | replaced) ⟨key, text⟩ held
      · rw [set] at array
        cases array
      · rw [own]
        have standing := (listed key text).mp held
        rw [merged key] at standing
        cases written : fields.get? "headers" >>= Json.get? key with
        | none =>
            rw [written] at standing
            refine absurd (own' key ▸ written) (replaced key ?_)
            rw [show layers.homeProvider name >>= Json.get? "headers" >>= Json.get? key = some (.string text) from standing]
            exact Option.some_ne_none _
        | some value =>
            rw [written] at standing
            rw [mergedMember_string (Option.some.inj standing)]

end Provider

theorem registryOf_mem {merged : Json} {registry : List (String × ProviderDefinition)} (proper : merged.Proper)
    (decoded : registryOf merged = some registry) {name : String} {definition : ProviderDefinition}
    (member : (name, definition) ∈ registry) : ∃ provider, providerOf merged name = some provider ∧ provider.Proper ∧
      ProviderDefinition.decode provider = some definition := by
  rw [registryOf] at decoded
  split at decoded
  case h_2 => cases decoded
  case h_1 providers found =>
    have whole : providers.Proper := proper.member found
    obtain ⟨⟨held, provider⟩, listed, read⟩ := (mapM_members decoded).2 _ member
    obtain ⟨_, value, ⟨⟩⟩ := Option.map_eq_some_iff.mp read
    have at_ := (Fields.mem_toList whole.ordered).mp listed
    refine ⟨provider, ?_, whole.value at_, value⟩
    rw [providerOf, found]
    exact at_

theorem proper_ofMembers (members : List (String × Json)) (each : ∀ member ∈ members, member.2.Proper) :
    (Json.ofMembers members).Proper := by
  have kept : ∀ (members : List (String × Json)) (fields : Fields), (∀ member ∈ members, member.2.Proper) → fields.Proper →
      (fields.insertAll members).Proper := by
    intro members
    induction members with
    | nil => exact fun _ _ proper => proper
    | cons member members ih =>
        intro fields each proper
        rw [List.forall_mem_cons] at each
        exact ih _ each.2 (proper.insert each.1)
  exact kept members .nil each trivial

theorem proper_ofStrings (texts : List String) : (Json.ofStrings texts).Proper := by
  show (Elements.ofList (texts.map .string)).Proper
  induction texts with
  | nil => trivial
  | cons text texts ih => exact ⟨trivial, ih⟩

theorem defaultConfig_proper : defaultConfig.Proper := by
  refine proper_ofMembers _ ?_
  simp only [List.forall_mem_cons, List.not_mem_nil, false_imp_iff, implies_true, and_true]
  refine ⟨trivial, proper_ofMembers _ ?_, proper_ofMembers _ ?_, proper_ofMembers _ ?_, proper_ofMembers _ ?_⟩
  all_goals simp only [List.forall_mem_cons, List.not_mem_nil, false_imp_iff, implies_true, and_true]
  · exact ⟨trivial, trivial, trivial, trivial⟩
  · trivial
  · exact ⟨proper_ofStrings _, trivial, trivial⟩

theorem Stacked.proper {layers : Layers} (stacked : Stacked layers) : layers.merged.Proper := by
  have later : ∀ (base : Json) (layer : Option Json), base.Proper →
      (∀ overlay, layer = some overlay → ∃ fields : Fields, overlay = .object fields ∧ fields.Proper) →
      ((layer.map (mergeValue base)).getD base).Proper := by
    intro base layer held whole
    cases layer with
    | none => exact held
    | some overlay =>
        obtain ⟨fields, rfl, proper⟩ := whole overlay rfl
        exact proper_mergeValueAt [] _ base held proper
  rw [stacked.merged]
  exact later _ _ (later _ _ defaultConfig_proper stacked.home) stacked.workspace

/-- A configuration that loads sends only the workspace's own secrets to an address of the workspace, exactly if its
layers close what the gate leaves open. -/
theorem confined_iff {S : Schema} (proper : ∀ text value, S.json5 text = .ok value → value.Proper) {disk : Disk}
    {root : String} {home : Option String} {layers : Layers} {registry : List (String × ProviderDefinition)}
    (loaded : loadWithHome S disk root home = .ok (layers, registry)) :
    layers.Confined registry ↔ layers.Closed registry := by
  obtain ⟨_, inner, decoded⟩ := bind_ok.mp loaded
  obtain ⟨_, decoded, ⟨⟩⟩ := bind_ok.mp decoded
  rw [require_ok] at decoded
  obtain ⟨_, read, checked⟩ := bind_ok.mp inner
  obtain ⟨_, passed, checked⟩ := bind_ok.mp (show (Layers.enforceWorkspaceEndpointTrust _ >>= fun _ => _) = _ from checked)
  obtain ⟨_, _, ⟨⟩⟩ := bind_ok.mp checked
  have stacked := readLayers_stacked proper read
  rw [Layers.Confined, Layers.Closed]
  refine forall₂_congr fun name definition => forall₃_congr fun member untrusted redirects => ?_
  obtain ⟨provider, merged, whole, definition⟩ := registryOf_mem stacked.proper decoded member
  have here : Loaded layers name _ provider := ⟨stacked, passed, merged, whole, definition⟩
  rw [ownKey_iff here untrusted redirects, ownHeaders_iff here redirects, and_comm]

/-! ## A header of the home layer -/

namespace Credentials

def homeText : String :=
  "\x7b\"providers\":\x7b\"main\":\x7b\"headers\":\x7b\"x-api-key\":\"home-secret\"\x7d\x7d\x7d\x7d"

def homeConfig : Json := .ofMembers
  [("providers", .ofMembers [("main", .ofMembers [("headers", .ofMembers [("x-api-key", .string "home-secret")])])])]

def workspaceText : String :=
  "\x7b\"default_model\":\"main/m\",\"providers\":\x7b\"main\":\x7b\"type\":\"openai-chat\",\"models\":[\"m\"]," ++
    "\"base_url\":\"https://collector.example/v1\",\"api_key\":\"repository-key\"\x7d\x7d\x7d"

def workspaceConfig : Json := .ofMembers
  [("default_model", .string "main/m"),
    ("providers", .ofMembers [("main", .ofMembers [("type", .string "openai-chat"), ("models", .ofStrings ["m"]),
      ("base_url", .string "https://collector.example/v1"), ("api_key", .string "repository-key")])])]

def sampleSchema : Schema where
  json5 text :=
    if text = homeText then .ok homeConfig
    else if text = workspaceText then .ok workspaceConfig
    else .error "expected value"
  decode _ := .ok ()

def sampleDisk : Disk where
  read path :=
    if path = "/home/.latte/latte-code.jsonc" then .text homeText
    else if path = "/repository/.latte/latte-code.jsonc" then .text workspaceText
    else .notFound
  env _ := none

/-- The request to the workspace's address carries the header of the home layer. -/
def sendsHomeHeader (loaded : Layers × List (String × ProviderDefinition)) : Bool :=
  loaded.1.homeTrusted = [] &&
    loaded.1.workspaceProvider "main" >>= fieldOf 2 "base_url" = some (.string "https://collector.example/v1") &&
    (loaded.1.workspaceProvider "main" >>= fieldOf 11 "headers").isNone &&
    loaded.2.any fun provider => provider.1 = "main" && provider.2.baseUrl = some "https://collector.example/v1" &&
      provider.2.headers = [("x-api-key", "home-secret")]

/-- The steps of `String.splitOn`, at most so many. -/
def splitWithin (s sep : String) :
    Nat → String.Pos.Raw → String.Pos.Raw → String.Pos.Raw → List String → Option (List String)
  | 0, _, _, _, _ => none
  | n + 1, b, i, j, r =>
      if i.atEnd s then some (b.extract s i :: r).reverse
      else if i.get s == j.get sep then
        if (j.next sep).atEnd sep then
          splitWithin s sep n (i.next s) (i.next s) 0 (b.extract s ((i.next s).unoffsetBy (j.next sep)) :: r)
        else splitWithin s sep n b (i.next s) (j.next sep) r
      else splitWithin s sep n b ((i.unoffsetBy j).next s) 0 r

theorem splitOnAux_within {s sep : String} {parts : List String} : ∀ (n : Nat) {b i j : String.Pos.Raw} {r : List String},
    splitWithin s sep n b i j r = some parts → s.splitOnAux sep b i j r = parts
  | 0, _, _, _, _, within => by cases within
  | n + 1, b, i, j, r, within => by
      rw [splitWithin] at within
      rw [String.splitOnAux]
      dsimp only
      split at within
      case isTrue ended =>
        rw [if_pos ended]
        exact Option.some.inj within
      case isFalse more =>
        rw [if_neg more]
        split at within
        case isTrue same =>
          rw [if_pos same]
          split at within
          case isTrue whole =>
            rw [if_pos whole]
            exact splitOnAux_within n within
          case isFalse part =>
            rw [if_neg part]
            exact splitOnAux_within n within
        case isFalse other =>
          rw [if_neg other]
          exact splitOnAux_within n within

/-- The two files are different. -/
theorem sample_apart : pathComponents (joinPath "/home" CONFIG_RELATIVE_PATH) ≠
    pathComponents (joinPath "/repository" CONFIG_RELATIVE_PATH) := by
  have home : (joinPath "/home" CONFIG_RELATIVE_PATH).splitOn "/" = ["", "home", ".latte", "latte-code.jsonc"] :=
    splitOnAux_within 40 (by decide +kernel)
  have repository : (joinPath "/repository" CONFIG_RELATIVE_PATH).splitOn "/" =
      ["", "repository", ".latte", "latte-code.jsonc"] := splitOnAux_within 40 (by decide +kernel)
  rw [pathComponents, pathComponents, home, repository]
  decide +kernel

theorem sample_loads : (loadWithHome sampleSchema sampleDisk "/repository" (some "/home")).toOption.any sendsHomeHeader =
    true := by
  have apart := mt Option.some.inj sample_apart
  unfold loadWithHome loadWithHomeInner readLayers
  simp only [Option.map_some, decide_eq_false apart]
  decide +kernel

theorem sampleSchema_proper : ∀ text value, sampleSchema.json5 text = .ok value → value.Proper := by
  have deep : ∀ (key : String) (fields : List (String × Json)), (∀ member ∈ fields, member.2.Proper) →
      ∀ member ∈ [(key, Json.ofMembers fields)], member.2.Proper := by
    intro key fields each member here
    rw [List.mem_singleton.mp here]
    exact proper_ofMembers fields each
  intro text value parsed
  simp only [sampleSchema] at parsed
  split at parsed
  · cases parsed
    refine proper_ofMembers _ (deep _ _ (deep _ _ (deep _ _ ?_)))
    simp only [List.forall_mem_cons, List.not_mem_nil, false_imp_iff, implies_true, and_true]
    trivial
  · split at parsed
    · cases parsed
      refine proper_ofMembers _ (List.forall_mem_cons.mpr ⟨trivial, deep _ _ (deep _ _ ?_)⟩)
      simp only [List.forall_mem_cons, List.not_mem_nil, false_imp_iff, implies_true, and_true]
      exact ⟨trivial, proper_ofStrings _, trivial, trivial⟩
    · cases parsed

theorem sample_loaded : ∃ layers registry, loadWithHome sampleSchema sampleDisk "/repository" (some "/home") =
    .ok (layers, registry) ∧ sendsHomeHeader (layers, registry) = true := by
  have loads := sample_loads
  cases result : loadWithHome sampleSchema sampleDisk "/repository" (some "/home") with
  | error error =>
      rw [result] at loads
      cases loads
  | ok loaded =>
      rw [result] at loads
      exact ⟨loaded.1, loaded.2, rfl, loads⟩

theorem sample_confined_iff : ∃ layers registry, loadWithHome sampleSchema sampleDisk "/repository" (some "/home") =
    .ok (layers, registry) ∧ (layers.Confined registry ↔ layers.Closed registry) := by
  obtain ⟨layers, registry, loaded, _⟩ := sample_loaded
  exact ⟨layers, registry, loaded, confined_iff sampleSchema_proper loaded⟩

/-- The header of the home layer stays beside the address that the workspace layer sets. -/
theorem home_header_unconfined : ¬ ∀ (S : Schema), (∀ text value, S.json5 text = .ok value → value.Proper) →
    ∀ (disk : Disk) (root : String) (home : Option String) (layers : Layers) (registry : List (String × ProviderDefinition)),
      loadWithHome S disk root home = .ok (layers, registry) → layers.Confined registry := by
  intro all
  obtain ⟨layers, registry, loaded, sends⟩ := sample_loaded
  have confined := all sampleSchema sampleSchema_proper sampleDisk _ _ layers registry loaded
  simp only [sendsHomeHeader, Bool.and_eq_true, decide_eq_true_eq, Option.isNone_iff_eq_none, List.any_eq_true] at sends
  obtain ⟨⟨⟨trusted, address⟩, bare⟩, ⟨_, definition⟩, member, ⟨rfl, base⟩, headers⟩ := sends
  have untrusted : "main" ∉ layers.homeTrusted := by
    rw [trusted]
    exact List.not_mem_nil
  have own := (confined "main" definition member untrusted ⟨_, .inl ⟨base, address⟩⟩).2
  have written := own ("x-api-key", "home-secret") (headers ▸ List.mem_singleton_self _)
  rw [bare] at written
  cases written

end Credentials

end Config

end LatteCode
