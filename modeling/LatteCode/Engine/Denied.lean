import LatteCode.Engine.Tools
/- Files that a deny glob matches: which invocations reach them although they are not denied. -/

namespace LatteCode.Engine
open FileTree Outcome

/-- A path of the workspace that a deny glob matches. -/
def ToolRegistry.Denies (registry : ToolRegistry) (path : List OsStr) : Prop :=
  ∃ names, path = registry.workspace.root ++ names ∧ registry.policy.denies (pathText names) = true

/-- No denied file is shown or written. -/
def Execution.Spares (registry : ToolRegistry) (execution : Execution) : Prop :=
  ∀ path, path ∈ execution.shown ∨ path ∈ execution.written → ¬ registry.Denies path

section Executions

variable {C : Crates} {registry : ToolRegistry} {tree : Files}

theorem spares_nothing {execution : Execution} (shown : execution.shown = []) (written : execution.written = []) :
    execution.Spares registry := by
  rintro path (member | member)
  · rw [shown] at member
    cases member
  · rw [written] at member
    cases member

theorem executeRead_spares {target : OsStr} {path : List OsStr} {max : Nat} (real : tree.Real path) :
    (executeRead C registry tree target path max).Spares registry ↔
      ∀ data, tree.node path = some (.file data) → ¬ registry.Denies path := by
  unfold executeRead
  constructor
  · intro spares data held
    have read := (readFile_real (H := C.toHost) real).mpr held
    obtain ⟨output, id, content⟩ : ∃ output id, readContent C tree path max = .ok (output, id) := by
      simp only [readContent, identity, pathed, read, Except.mapError, bind, Except.bind, Except.ok.injEq, Prod.mk.injEq]
      exact ⟨_, _, rfl, rfl⟩
    rw [content] at spares
    exact spares path (.inl List.mem_cons_self)
  · intro allowed
    split
    case h_1 output id result =>
      simp only [readContent, bind_ok, mapError_ok, readFile_real real] at result
      obtain ⟨data, held, _⟩ := result
      rintro other (member | member)
      · rw [List.mem_singleton.mp member]
        exact allowed data held
      · cases member
    case h_2 => exact spares_nothing rfl rfl

theorem observes_spares {result : Except ToolError (ToolOutput × List (List OsStr))} :
    (registry.observes tree result).Spares registry ↔
      ∀ output shown, result = .ok (output, shown) → ∀ path ∈ shown, ¬ registry.Denies path := by
  constructor
  · rintro spares output shown rfl path member
    exact spares path (.inl member)
  · intro allowed
    unfold ToolRegistry.observes
    split
    case h_1 output shown =>
      rintro path (member | member)
      · exact allowed output shown rfl path member
      · cases member
    case h_2 => exact spares_nothing rfl rfl

theorem list_spares {path : List OsStr} {max : Nat} :
    (registry.observes tree (listEntries C tree path max)).Spares registry ↔
      (tree.isDirectory path = true → ¬ registry.Denies path) := by
  rw [observes_spares]
  constructor
  · intro allowed directory
    obtain ⟨output, listed⟩ : ∃ output, listEntries C tree path max = .ok (output, [path]) := by
      simp only [listEntries, directory, ensure, if_true, bind, Except.bind, Except.ok.injEq, Prod.mk.injEq, and_true]
      exact ⟨_, rfl⟩
    exact allowed output [path] listed path List.mem_cons_self
  · intro allowed output shown listed other member
    simp only [listEntries, bind_ok, ensure_ok, Except.ok.injEq, Prod.mk.injEq] at listed
    obtain ⟨_, directory, _, rfl⟩ := listed
    rw [List.mem_singleton.mp member]
    exact allowed directory

/-! ## Search -/

/-- Lines that fit into an answer. -/
def Fits (maxResults maxOutput : Nat) (lines : List Found) : Prop :=
  lines.length ≤ maxResults ∧ (lines.map fun found => found.item.utf8ByteSize).sum ≤ maxOutput

/-- A line is found if it fits with all the lines before it. -/
theorem mem_collect {maxResults maxOutput : Nat} {found : Found} (all : List Found) {results : List Found} {used : Nat}
    (bound : results.length ≤ maxResults) :
    found ∈ (collect maxResults maxOutput all results used).1 ↔ found ∈ results ∨ ∃ before after,
      all = before ++ found :: after ∧ results.length + (before ++ [found]).length ≤ maxResults ∧
        used + ((before ++ [found]).map fun found => found.item.utf8ByteSize).sum ≤ maxOutput := by
  induction all generalizing results used with
  | nil =>
      simp only [collect, List.nil_eq, List.append_eq_nil_iff, reduceCtorEq, and_false, false_and, exists_false, or_false]
  | cons first rest ih =>
      rw [collect]
      split
      case isTrue full =>
        refine ⟨.inl, fun held => held.resolve_right ?_⟩
        rintro ⟨before, after, split, few, small⟩
        cases before with
        | nil =>
            cases split
            simp only [List.nil_append, List.length_singleton, List.map_singleton, List.sum_singleton] at few small
            omega
        | cons other before =>
            cases split
            simp only [List.cons_append, List.length_cons, List.map_cons, List.sum_cons] at few small
            omega
      case isFalse room =>
        have grown : (results ++ [first]).length ≤ maxResults := by
          rw [List.length_append, List.length_singleton]
          omega
        rw [ih grown, List.mem_append, List.mem_singleton, or_assoc]
        refine or_congr_right ⟨?_, ?_⟩
        · rintro (rfl | ⟨before, after, rfl, few, small⟩)
          · refine ⟨[], rest, rfl, ?_, ?_⟩
            · simp only [List.nil_append, List.length_singleton]
              omega
            · simp only [List.nil_append, List.map_singleton, List.sum_singleton]
              omega
          · refine ⟨first :: before, after, rfl, ?_, ?_⟩
            · simp only [List.length_append, List.length_cons, List.length_nil] at few ⊢
              omega
            · simp only [List.cons_append, List.map_cons, List.sum_cons]
              omega
        · rintro ⟨before, after, split, few, small⟩
          cases before with
          | nil =>
              cases split
              exact .inl rfl
          | cons other before =>
              cases split
              refine .inr ⟨before, after, rfl, ?_, ?_⟩
              · simp only [List.cons_append, List.length_append, List.length_cons, List.length_nil] at few ⊢
                omega
              · simp only [List.cons_append, List.map_cons, List.sum_cons] at small
                omega

/-- A search shows a denied file exactly if a line of it fits with all the lines before it. -/
theorem search_spares {query : String} {regex : Bool} {maxResults maxOutput : Nat} :
    (registry.observes tree (search C registry tree query regex maxResults maxOutput)).Spares registry ↔
      ∀ matcher, matcherOf C query regex = .ok matcher → ∀ before found after,
        searchLines C registry tree matcher = before ++ found :: after → Fits maxResults maxOutput (before ++ [found]) →
          ¬ registry.Denies (registry.workspace.root ++ found.file) := by
  rw [observes_spares]
  constructor
  · intro allowed matcher compiled before found after lines fits
    obtain ⟨output, searched⟩ : ∃ output, search C registry tree query regex maxResults maxOutput = .ok (output,
        ((collect maxResults maxOutput (searchLines C registry tree matcher) [] 0).1.map
          fun found => registry.workspace.root ++ found.file)) := by
      simp only [search, compiled, bind, Except.bind, Except.ok.injEq, Prod.mk.injEq, and_true]
      exact ⟨_, rfl⟩
    refine allowed output _ searched _ (List.mem_map.mpr ⟨found, ?_, rfl⟩)
    refine (mem_collect _ (Nat.zero_le _)).mpr (.inr ⟨before, after, lines, ?_, ?_⟩)
    · rw [List.length_nil, Nat.zero_add]
      exact fits.1
    · rw [Nat.zero_add]
      exact fits.2
  · intro allowed output shown searched path member
    simp only [search, bind_ok, Except.ok.injEq, Prod.mk.injEq] at searched
    obtain ⟨matcher, compiled, _, rfl⟩ := searched
    obtain ⟨found, held, rfl⟩ := List.mem_map.mp member
    rcases (mem_collect _ (Nat.zero_le _)).mp held with impossible | ⟨before, after, lines, few, small⟩
    · cases impossible
    · rw [List.length_nil, Nat.zero_add] at few
      rw [Nat.zero_add] at small
      exact allowed matcher compiled before found after lines ⟨few, small⟩

/-! ## Manifests -/

/-- A manifest that is a file can be read as text. -/
def Readable (C : Crates) (registry : ToolRegistry) (tree : Files) (name : String) : Prop :=
  ∀ path, manifestFile C registry tree name = some path →
    ∃ text, readToString C tree (registry.workspace.root.map .name ++ [.name (toBytes name)]) = .ok text

theorem manifestStep_shown {max : Nat} {name : String} {progress result : Fields × Bool × List (List OsStr)}
    (done : manifestStep C registry tree max progress name = .ok result) :
    Readable C registry tree name ∧ result.2.2 = progress.2.2 ++ (manifestFile C registry tree name).toList := by
  unfold manifestStep at done
  split at done
  case h_1 missing =>
    cases done
    refine ⟨fun path found => ?_, ?_⟩
    · rw [missing] at found
      cases found
    · rw [missing]
      exact (List.append_nil _).symm
  case h_2 path found =>
    simp only [bind_ok, Except.ok.injEq] at done
    obtain ⟨text, read, rfl⟩ := done
    refine ⟨fun _ _ => ⟨text, read⟩, ?_⟩
    rw [found]
    rfl

theorem manifestStep_done {max : Nat} {name : String} (progress : Fields × Bool × List (List OsStr))
    (readable : Readable C registry tree name) : ∃ result, manifestStep C registry tree max progress name = .ok result := by
  unfold manifestStep
  split
  case h_1 => exact ⟨_, rfl⟩
  case h_2 path found =>
    obtain ⟨text, read⟩ := readable path found
    simp only [bind_ok]
    exact ⟨_, text, read, rfl⟩

theorem manifest_shown {max : Nat} {names : List String} {progress result : Fields × Bool × List (List OsStr)}
    (done : names.foldlM (manifestStep C registry tree max) progress = .ok result) :
    (∀ name ∈ names, Readable C registry tree name) ∧
      result.2.2 = progress.2.2 ++ names.filterMap (manifestFile C registry tree) := by
  induction names generalizing progress with
  | nil =>
      simp only [List.foldlM_nil, pure_ok] at done
      subst done
      exact ⟨List.forall_mem_nil _, (List.append_nil _).symm⟩
  | cons name names ih =>
      simp only [List.foldlM_cons, bind_ok] at done
      obtain ⟨middle, first, rest⟩ := done
      obtain ⟨readable, shown⟩ := manifestStep_shown first
      obtain ⟨others, all⟩ := ih rest
      refine ⟨List.forall_mem_cons.mpr ⟨readable, others⟩, ?_⟩
      rw [all, shown, List.append_assoc]
      congr 1
      cases found : manifestFile C registry tree name with
      | none => rw [List.filterMap_cons_none found, Option.toList_none, List.nil_append]
      | some path => rw [List.filterMap_cons_some found, Option.toList_some, List.singleton_append]

theorem manifest_done {max : Nat} {names : List String} (readable : ∀ name ∈ names, Readable C registry tree name)
    (progress : Fields × Bool × List (List OsStr)) :
    ∃ result, names.foldlM (manifestStep C registry tree max) progress = .ok result := by
  induction names generalizing progress with
  | nil => exact ⟨progress, rfl⟩
  | cons name names ih =>
      rw [List.forall_mem_cons] at readable
      obtain ⟨middle, first⟩ := manifestStep_done progress readable.1
      obtain ⟨result, rest⟩ := ih readable.2 middle
      refine ⟨result, ?_⟩
      simp only [List.foldlM_cons, bind_ok]
      exact ⟨middle, first, rest⟩

/-- The manifests are shown if all of them can be read. -/
theorem manifest_spares {max : Nat} :
    (registry.observes tree (manifest C registry tree max)).Spares registry ↔
      ((∀ name ∈ manifestNames, Readable C registry tree name) →
        ∀ name ∈ manifestNames, ∀ path, manifestFile C registry tree name = some path → ¬ registry.Denies path) := by
  rw [observes_spares]
  constructor
  · intro allowed readable name listed path found
    obtain ⟨⟨fields, truncated, shown⟩, done⟩ : ∃ result, manifestNames.foldlM (manifestStep C registry tree max)
        (.nil, false, []) = .ok result := manifest_done readable _
    have all := (manifest_shown done).2
    refine allowed ⟨.object fields, truncated⟩ shown ?_ path ?_
    · simp only [manifest, done, bind, Except.bind]
    · have same : shown = manifestNames.filterMap (manifestFile C registry tree) := all
      rw [same]
      exact List.mem_filterMap.mpr ⟨name, listed, found⟩
  · intro allowed output shown read path member
    simp only [manifest, bind_ok, Except.ok.injEq, Prod.mk.injEq] at read
    obtain ⟨⟨fields, truncated, found⟩, done, _, rfl⟩ := read
    obtain ⟨readable, all⟩ := manifest_shown done
    have same : found = manifestNames.filterMap (manifestFile C registry tree) := all
    rw [same] at member
    obtain ⟨name, listed, here⟩ := List.mem_filterMap.mp member
    exact allowed readable name listed path here

/-! ## Mutations -/

theorem rewrite_spares {now : Nat} {target path : OsStr} {create : Bool} {admitted : Except ToolError String}
    (goes : ∀ content, admitted = .ok content → ∃ replaced,
      registry.workspace.atomicReplace C.toHost tree target ⟨toBytes content, now⟩ create = .ok replaced) :
    (rewrite C registry tree now target path create admitted).Spares registry ↔
      ((∃ content, admitted = .ok content) → ¬ registry.Denies (registry.workspace.root ++ names target)) := by
  unfold rewrite
  constructor
  · rintro spares ⟨content, rfl⟩
    obtain ⟨replaced, done⟩ := goes content rfl
    simp only [done] at spares
    exact spares _ (.inr List.mem_cons_self)
  · intro allowed
    split
    case h_1 => exact spares_nothing rfl rfl
    case h_2 content =>
      split
      case h_1 => exact spares_nothing rfl rfl
      case h_2 =>
        rintro other (member | member)
        · cases member
        · rw [List.mem_singleton.mp member]
          exact allowed ⟨content, rfl⟩

/-- A target that was checked again has the names of the spelling. -/
theorem checkTarget_ok {target path : OsStr} {create : Bool} {u : Unit}
    (checked : checkTarget C registry tree target path create = .ok u) :
    registry.workspace.mutation C.toHost tree target create = .ok target ∧ names target = names path := by
  simp only [checkTarget, pathed, bind_ok, mapError_ok, ensure_ok] at checked
  obtain ⟨found, mutated, same⟩ := checked
  have here : found = target := by
    simp only [WorkspacePath.mutation, bind_ok, Except.ok.injEq] at mutated
    obtain ⟨_, accepted, _, _, _, _, rfl⟩ := mutated
    exact (lexical_ok accepted).symm
  subst here
  exact ⟨mutated, same⟩

/-- Nothing is in the way of an admitted content but a directory. -/
theorem admitted_replaced {target path : OsStr} {create : Bool} {u : Unit} {data : FileData}
    (real : tree.Real registry.workspace.root) (supported : registry.workspace.safeMutationsSupported = true)
    (displayed : display path = .ok target) (checked : checkTarget C registry tree target path create = .ok u)
    (free : tree.isDirectory (registry.workspace.root ++ names path) = false) :
    ∃ replaced, registry.workspace.atomicReplace C.toHost tree target data create = .ok replaced := by
  obtain ⟨mutated, same⟩ := checkTarget_ok checked
  refine atomicReplace_done real supported mutated ?_ (same ▸ free)
  intro nameless
  -- only the root has no names, and it is shown as a text that no mutation accepts
  have nothing := display_nameless (same.symm.trans nameless) displayed
  rw [nothing] at mutated
  cases mutated

/-- A path that has been checked for a mutation, and can be read, is no directory. -/
theorem readable_free {path : OsStr} {data : FileData} (real : tree.Real registry.workspace.root)
    (level : Segment.up ∉ (pieces path).map segment)
    (read : readFile C.toHost tree (registry.workspace.joined path) = .ok data) :
    tree.isDirectory (registry.workspace.root ++ names path) = false := by
  by_contra other
  have directory : tree.isDirectory (registry.workspace.root ++ names path) = true := eq_true_of_ne_false other
  have resolved : canonicalize C.toHost tree (registry.workspace.joined path) = .ok (registry.workspace.root ++ names path) := by
    rw [canonicalize_joined real]
    exact resolve_directory level directory
  simp only [readFile, resolved, isDirectory_iff.mp directory, bind, Except.bind] at read
  cases read

end Executions

/-! ## The condition -/

section Condition

variable (C : Crates) (registry : ToolRegistry) (tree : Files) (invocation : ToolInvocation)

/-- The glob list matches a path as it is spelled. -/
def ToolRegistry.DeniesSpelling (path : OsStr) : Prop :=
  ∃ shown, display path = .ok shown ∧ registry.policy.denies shown = true

/-- A path that leads to a denied file, or directory, is denied as it is spelled. -/
def PathGuarded (opens : List OsStr → Prop) : Prop :=
  ∀ path canonical, string invocation.input "path" = .ok path →
    registry.workspace.read C.toHost tree (toBytes path) = .ok canonical → opens canonical → registry.Denies canonical →
      registry.DeniesSpelling (toBytes path)

/-- A path that names a denied file is denied as it is spelled, if the content is admitted. -/
def MutationGuarded (admitted : OsStr → OsStr → Prop) : Prop :=
  ∀ path target, string invocation.input "path" = .ok path → display (toBytes path) = .ok target →
    admitted target (toBytes path) → registry.Denies (registry.workspace.root ++ names (toBytes path)) →
      registry.policy.denies target = true

/-- No line of a denied file fits with the matching lines before it. -/
def SearchGuarded : Prop :=
  ∀ query regex maxResults maxOutput matcher before found after, string invocation.input "query" = .ok query →
    boolField invocation.input "regex" false = .ok regex →
    usizeField invocation.input "max_results" 100 1 10000 = .ok maxResults →
    usizeField invocation.input "max_output" DEFAULT_CAP 1 DEFAULT_CAP = .ok maxOutput →
    matcherOf C query regex = .ok matcher → searchLines C registry tree matcher = before ++ found :: after →
    Fits maxResults maxOutput (before ++ [found]) → ¬ registry.Denies (registry.workspace.root ++ found.file)

/-- No manifest name leads to a denied file, if all manifests can be read. -/
def ManifestGuarded : Prop :=
  (∀ name ∈ manifestNames, Readable C registry tree name) →
    ∀ name ∈ manifestNames, ∀ path, manifestFile C registry tree name = some path → ¬ registry.Denies path

/-- When an invocation reaches no denied file. -/
def Guarded : Prop :=
  if invocation.name = "read_file" then
    PathGuarded C registry tree invocation fun path => ∃ data, tree.node path = some (.file data)
  else if invocation.name = "list_directory" then
    PathGuarded C registry tree invocation fun path => tree.isDirectory path = true
  else if invocation.name = "search" then
    registry.policy.denies (toBytes ".") = true ∨ SearchGuarded C registry tree invocation
  else if invocation.name = "read_project_manifest" then
    registry.policy.denies (toBytes ".") = true ∨ ManifestGuarded C registry tree
  else if invocation.name = "edit_file" then
    MutationGuarded registry invocation fun target path => ∃ before after content,
      editBefore invocation.input = .ok before ∧ string invocation.input "after" = .ok after ∧
        admitEdit C registry tree target path before after invocation.precondition = .ok content
  else
    MutationGuarded registry invocation fun target path => ∃ create content written,
      boolField invocation.input "create_intent" false = .ok create ∧ string invocation.input "content" = .ok content ∧
        admitWrite C registry tree target path content create invocation.precondition = .ok written

end Condition

section Decisions

variable {C : Crates} {registry : ToolRegistry} {tree : Files} {invocation : ToolInvocation} {prepared : Prepared}
  {decision : PolicyDecision} {digest : String}

/-- A registry over a tree, with tools of the engine only. -/
structure ToolRegistry.Sound (registry : ToolRegistry) (tree : Files) : Prop where
  real : tree.Real registry.workspace.root
  tools : ∀ spec ∈ registry.tools, spec ∈ toolSpecs

theorem new_sound {root : List (Segment OsStr)} {supported : Bool} {enabled : Option (List String)} {denies : List String}
    (built : ToolRegistry.new C tree root supported enabled denies = .ok registry) : registry.Sound tree := by
  simp only [ToolRegistry.new, WorkspacePath.new, pathed, bind_ok, mapError_ok, Except.ok.injEq] at built
  obtain ⟨workspace, ⟨canonical, resolved, rfl⟩, policy, _, rfl⟩ := built
  exact ⟨resolve_real (isDirectory_iff.mpr tree.root) resolved, fun spec listed => (List.mem_filter.mp listed).1⟩

theorem not_denied_imp {policy : PermissionPolicy} {effect : EffectClass} {target : OsStr} {p : Prop} :
    (policy.decide effect target ≠ .deny → p) ↔ policy.denies target = true ∨ p := by
  unfold PermissionPolicy.decide
  cases matched : policy.denies target with
  | true => simp
  | false =>
      simp only [Bool.false_eq_true, if_false, false_or]
      refine ⟨fun allowed => allowed ?_, fun held _ => held⟩
      split <;> exact PolicyDecision.noConfusion

/-- What an invocation that is prepared for the engine has passed. -/
theorem prepareForEngine_ok
    (result : registry.prepareForEngine C tree invocation = .ok (prepared, decision, digest)) :
    prepareAction C registry.workspace tree invocation.name invocation.input = .ok (prepared.target, prepared.action) ∧
      prepared.expectedHash = invocation.precondition ∧
      decision = registry.policy.decide prepared.effect prepared.target ∧
      ∃ effect, (invocation.name, effect) ∈ registry.tools ∧
        (effect = .modify → registry.workspace.safeMutationsSupported = true) := by
  simp only [ToolRegistry.prepareForEngine, prepare, bind_ok, require_ok, ensure_ok, Except.ok.injEq,
    Prod.mk.injEq] at result
  obtain ⟨effect, listed, _, ⟨⟨target, action⟩, acted, rfl⟩, _, supported, _, _, rfl, rfl, _⟩ := result
  obtain ⟨before, after, split, _⟩ := List.lookup_eq_some_iff.mp listed
  refine ⟨acted, rfl, rfl, effect, ?_, ?_⟩
  · rw [split]
    exact List.mem_append_right _ List.mem_cons_self
  · rintro rfl
    have writes : (if action.creates then EffectClass.create else .modify) ≠ .read := by
      split <;> exact EffectClass.noConfusion
    rw [if_pos writes] at supported
    simp only [pathed, WorkspacePath.validateMutationSupport, mapError_ok, ensure_ok] at supported
    exact supported

theorem pathGuarded_iff {opens : List OsStr → Prop} {path : String} {target : OsStr} {canonical : List OsStr}
    (named : string invocation.input "path" = .ok path) (displayed : display (toBytes path) = .ok target)
    (read : registry.workspace.read C.toHost tree (toBytes path) = .ok canonical) :
    PathGuarded C registry tree invocation opens ↔
      registry.policy.denies target = true ∨ (opens canonical → ¬ registry.Denies canonical) := by
  constructor
  · intro guarded
    refine or_iff_not_imp_left.mpr fun allowed opened denied => allowed ?_
    obtain ⟨shown, same, matched⟩ := guarded path canonical named read opened denied
    rw [displayed] at same
    cases same
    exact matched
  · intro either other canonical' named' read' opened denied
    rw [named] at named'
    cases named'
    rw [read] at read'
    cases read'
    exact ⟨target, displayed, either.resolve_right fun allowed => allowed opened denied⟩

theorem mutationGuarded_iff {admitted : OsStr → OsStr → Prop} {path : String} {target : OsStr}
    (named : string invocation.input "path" = .ok path) (displayed : display (toBytes path) = .ok target) :
    MutationGuarded registry invocation admitted ↔ registry.policy.denies target = true ∨
      (admitted target (toBytes path) → ¬ registry.Denies (registry.workspace.root ++ names (toBytes path))) := by
  constructor
  · intro guarded
    refine or_iff_not_imp_left.mpr fun allowed passed denied => allowed ?_
    exact guarded path target named displayed passed denied
  · intro either other target' named' displayed' passed denied
    rw [named] at named'
    cases named'
    rw [displayed] at displayed'
    cases displayed'
    exact either.resolve_right fun allowed => allowed passed denied

/-- A mutation whose content is admitted replaces the file that the spelling names. -/
theorem mutation_spares {now : Nat} {target path : OsStr} {create : Bool} {admitted : Except ToolError String}
    (sound : registry.Sound tree) (supported : registry.workspace.safeMutationsSupported = true)
    (displayed : display path = .ok target)
    (passed : ∀ content, admitted = .ok content → checkTarget C registry tree target path create = .ok () ∧
      tree.isDirectory (registry.workspace.root ++ names path) = false) :
    (rewrite C registry tree now target path create admitted).Spares registry ↔
      ((∃ content, admitted = .ok content) → ¬ registry.Denies (registry.workspace.root ++ names path)) := by
  rw [rewrite_spares]
  · refine imp_congr_right ?_
    rintro ⟨content, result⟩
    rw [(checkTarget_ok (passed content result).1).2]
  · intro content result
    obtain ⟨checked, free⟩ := passed content result
    exact admitted_replaced sound.real supported displayed checked free

theorem requireFresh_read {target path : OsStr} {expectedHash : Option String} {u : Unit}
    (fresh : requireFresh C registry tree target path expectedHash = .ok u) :
    ∃ data, readFile C.toHost tree (registry.workspace.joined path) = .ok data := by
  simp only [requireFresh, identity, pathed, bind_ok, mapError_ok] at fresh
  obtain ⟨_, ⟨data, read, _⟩, _⟩ := fresh
  exact ⟨data, read⟩

theorem admitEdit_ok {target path : OsStr} {before after : String} {expectedHash : Option String} {content : String}
    (sound : registry.Sound tree) (level : Segment.up ∉ (pieces path).map segment)
    (admitted : admitEdit C registry tree target path before after expectedHash = .ok content) :
    checkTarget C registry tree target path false = .ok () ∧
      tree.isDirectory (registry.workspace.root ++ names path) = false := by
  simp only [admitEdit, bind_ok] at admitted
  obtain ⟨_, checked, _, fresh, _⟩ := admitted
  obtain ⟨data, read⟩ := requireFresh_read fresh
  exact ⟨checked, readable_free sound.real level read⟩

theorem admitWrite_ok {target path : OsStr} {content written : String} {create : Bool} {expectedHash : Option String}
    (sound : registry.Sound tree) (level : Segment.up ∉ (pieces path).map segment)
    (admitted : admitWrite C registry tree target path content create expectedHash = .ok written) :
    checkTarget C registry tree target path create = .ok () ∧
      tree.isDirectory (registry.workspace.root ++ names path) = false := by
  simp only [admitWrite, bind_ok] at admitted
  obtain ⟨_, checked, rest⟩ := admitted
  refine ⟨checked, ?_⟩
  split at rest
  case isTrue =>
    simp only [bind_ok, ensure_ok] at rest
    obtain ⟨_, missing, _⟩ := rest
    by_contra other
    rw [canonicalize_joined sound.real, resolve_directory level (eq_true_of_ne_false other)] at missing
    cases missing
  case isFalse =>
    simp only [bind_ok] at rest
    obtain ⟨_, fresh, _⟩ := rest
    obtain ⟨data, read⟩ := requireFresh_read fresh
    exact readable_free sound.real level read

theorem writers_modify : ∀ name ∈ ["edit_file", "write_file"], ∀ spec ∈ toolSpecs, spec.1 = name → spec.2 = .modify := by
  decide

/-- An invocation that is not denied reaches no denied file exactly under the condition. -/
theorem execute_guarded (sound : registry.Sound tree) (other : invocation.name ≠ "git_diff") (now : Nat)
    (result : registry.prepareForEngine C tree invocation = .ok (prepared, decision, digest)) :
    (decision ≠ .deny → (registry.execute C tree now prepared).Spares registry) ↔ Guarded C registry tree invocation := by
  obtain ⟨acted, hash, rfl, effect, listed, supports⟩ := prepareForEngine_ok result
  rw [not_denied_imp]
  obtain ⟨target, effect', action, expected⟩ := prepared
  cases hash
  simp only at acted
  unfold prepareAction at acted
  unfold Guarded
  split at acted
  case isTrue name =>
    simp only [pathed, bind_ok, map_ok, mapError_ok, Except.ok.injEq, Prod.mk.injEq] at acted
    obtain ⟨_, ⟨path, named, rfl⟩, _, displayed, canonical, read, max, _, rfl, rfl⟩ := acted
    rw [if_pos name, pathGuarded_iff named displayed read, forall_exists_index]
    exact or_congr_right (executeRead_spares (read_real read))
  case isFalse notRead =>
  rw [if_neg notRead]
  split at acted
  case isTrue name =>
    simp only [pathed, bind_ok, map_ok, mapError_ok, Except.ok.injEq, Prod.mk.injEq] at acted
    obtain ⟨_, ⟨path, named, rfl⟩, _, displayed, canonical, read, max, _, rfl, rfl⟩ := acted
    rw [if_pos name, pathGuarded_iff named displayed read]
    exact or_congr_right list_spares
  case isFalse notList =>
  rw [if_neg notList]
  split at acted
  case isTrue name =>
    simp only [bind_ok, Except.ok.injEq, Prod.mk.injEq] at acted
    obtain ⟨query, asked, regex, kind, maxResults, results, maxOutput, output, rfl, rfl⟩ := acted
    rw [if_pos name]
    refine or_congr_right (search_spares.trans ⟨?_, ?_⟩)
    · intro allowed query' regex' results' output' matcher before found after asked' kind' max' limit'
      rw [asked] at asked'
      cases asked'
      rw [kind] at kind'
      cases kind'
      rw [results] at max'
      cases max'
      rw [output] at limit'
      cases limit'
      exact fun compiled => allowed matcher compiled before found after
    · intro guarded matcher compiled before found after
      exact guarded query regex maxResults maxOutput matcher before found after asked kind results output compiled
  case isFalse notSearch =>
  rw [if_neg notSearch]
  split at acted
  case isTrue name =>
    simp only [bind_ok, Except.ok.injEq, Prod.mk.injEq] at acted
    obtain ⟨max, _, rfl, rfl⟩ := acted
    rw [if_pos name]
    exact or_congr_right manifest_spares
  case isFalse notManifest =>
  rw [if_neg notManifest]
  have writes : ∀ name ∈ ["edit_file", "write_file"], invocation.name = name →
      registry.workspace.safeMutationsSupported = true := by
    rintro name writer rfl
    exact supports (writers_modify _ writer _ (sound.tools _ listed) rfl)
  split at acted
  case isTrue name =>
    simp only [pathed, bind_ok, map_ok, mapError_ok, Except.ok.injEq, Prod.mk.injEq] at acted
    obtain ⟨_, ⟨path, named, rfl⟩, before, from_, _, displayed, _, mutated, after, to_, rfl, rfl⟩ := acted
    obtain ⟨rfl, level, _⟩ := mutation_ok sound.real mutated
    rw [if_pos name, mutationGuarded_iff named displayed]
    refine or_congr_right ((mutation_spares sound (writes _ (by decide) name) displayed
      fun content admitted => admitEdit_ok sound level admitted).trans (imp_congr_left ⟨?_, ?_⟩))
    · rintro ⟨content, admitted⟩
      exact ⟨before, after, content, from_, to_, admitted⟩
    · rintro ⟨before', after', content, from', to', admitted⟩
      rw [from_] at from'
      cases from'
      rw [to_] at to'
      cases to'
      exact ⟨content, admitted⟩
  case isFalse notEdit =>
  rw [if_neg notEdit]
  split at acted
  case isTrue name =>
    simp only [pathed, bind_ok, map_ok, mapError_ok, Except.ok.injEq, Prod.mk.injEq] at acted
    obtain ⟨_, ⟨path, named, rfl⟩, create, intent, _, displayed, _, mutated, content, given, rfl, rfl⟩ := acted
    obtain ⟨rfl, level, _⟩ := mutation_ok sound.real mutated
    rw [mutationGuarded_iff named displayed]
    refine or_congr_right ((mutation_spares sound (writes _ (by decide) name) displayed
      fun content admitted => admitWrite_ok sound level admitted).trans (imp_congr_left ⟨?_, ?_⟩))
    · rintro ⟨written, admitted⟩
      exact ⟨create, content, written, intent, given, admitted⟩
    · rintro ⟨create', content', written, intent', given', admitted⟩
      rw [intent] at intent'
      cases intent'
      rw [given] at given'
      cases given'
      exact ⟨written, admitted⟩
  case isFalse => cases acted

/-- A plain spelling that passes no link is its file's own path, so that it is denied exactly if the file is. -/
theorem plain_denied {input shown : OsStr} {canonical : List OsStr} (sound : registry.Sound tree) (plain : Plain input)
    (linkless : tree.Linkless registry.workspace.root (pieces input)) (displayed : display input = .ok shown)
    (read : registry.workspace.read C.toHost tree input = .ok canonical) :
    registry.policy.denies shown = true ↔ registry.Denies canonical := by
  rw [plain.display displayed]
  simp only [WorkspacePath.read, bind_ok, mapError_ok, Except.ok.injEq] at read
  obtain ⟨path, accepted, _, resolved, _, _, rfl⟩ := read
  rw [← lexical_ok accepted, canonicalize_joined sound.real] at resolved
  have named : namesOf ((pieces input).map segment) = pieces input := plain.names
  have same := resolve_linkless (lexical_level accepted) (named.symm ▸ linkless) resolved
  rw [named] at same
  constructor
  · intro denied
    exact ⟨pieces input, same, by rw [pathText_pieces]; exact denied⟩
  · rintro ⟨names, split, denied⟩
    rw [same] at split
    rw [← List.append_cancel_left split, pathText_pieces] at denied
    exact denied

end Decisions

/-- An invocation that is not denied reaches no denied file exactly if the paths that lead to denied files are denied as
they are spelled, no line of such a file is found, and no manifest is such a file. So it is, with every tool, for plain
spellings that pass no link: they are denied exactly if their file is. -/
theorem denied_spared {C : Crates} {tree : Files} {root : List (Segment OsStr)} {supported : Bool}
    {enabled : Option (List String)} {denies : List String} {registry : ToolRegistry}
    (built : ToolRegistry.new C tree root supported enabled denies = .ok registry) :
    (∀ (snapshots : OsStr → Option FileIdentity) (now : Nat) (invocation : ToolInvocation) (prepared : Prepared)
        (decision : PolicyDecision) (digest : String), invocation.name ≠ "git_diff" →
      { registry with snapshots }.prepareForEngine C tree invocation = .ok (prepared, decision, digest) →
        ((decision ≠ .deny → ({ registry with snapshots }.execute C tree now prepared).Spares registry) ↔
          Guarded C { registry with snapshots } tree invocation)) ∧
    (∀ (input shown : OsStr) (canonical : List OsStr), Plain input →
      tree.Linkless registry.workspace.root (pieces input) → display input = .ok shown →
        registry.workspace.read C.toHost tree input = .ok canonical →
          ∀ effect, registry.policy.decide effect shown = .deny ↔ registry.Denies canonical) := by
  have sound := new_sound built
  constructor
  · intro snapshots now invocation prepared decision digest other result
    have here : ToolRegistry.Sound { registry with snapshots } tree := ⟨sound.real, sound.tools⟩
    exact execute_guarded here other now result
  · intro input shown canonical plain linkless displayed read effect
    rw [← plain_denied sound plain linkless displayed read, PermissionPolicy.decide]
    split
    case isTrue matched => exact ⟨fun _ => matched, fun _ => rfl⟩
    case isFalse open_ =>
      refine ⟨fun impossible => ?_, fun matched => absurd matched open_⟩
      split at impossible <;> cases impossible

/-! ## A link to a denied file -/

def secretFile : OsStr := toBytes "secret.txt"

def sampleFiles : Files := .ofEntries
  [([toBytes "w"], .directory), ([toBytes "w", secretFile], .file ⟨toBytes "key", 0⟩),
    ([toBytes "w", toBytes "notes.txt"], .file ⟨toBytes "text", 0⟩),
    ([toBytes "w", toBytes "open.txt"], .link false [.name secretFile])] (by decide +kernel)

/-- Globs without metacharacters match themselves only. -/
def sampleCrates : Crates where
  maxLinks := 40
  faultText _ := "fault"
  sha256 bytes := toString bytes.length
  globset patterns := .ok fun path => patterns.any fun pattern => toBytes pattern = path
  regex pattern := .ok fun line => line = pattern
  walk _ _ := [[], [secretFile], [toBytes "notes.txt"], [toBytes "open.txt"]]
  readDir _ _ := [secretFile, toBytes "notes.txt", toBytes "open.txt"]
  digest binding := binding.effectId
  gitDiff _ _ := .ok ("", false)

def sampleRegistry : ToolRegistry :=
  ⟨⟨[toBytes "w"], true⟩, ⟨fun path => ["secret.txt"].any fun pattern => toBytes pattern = path, 1⟩, toolSpecs, fun _ => none⟩

theorem sampleRegistry_built :
    ToolRegistry.new sampleCrates sampleFiles [.name (toBytes "w")] true none ["secret.txt"] = .ok sampleRegistry := by
  have root : sampleFiles.resolve 40 [] [.name (toBytes "w")] = .ok [toBytes "w"] := by decide +kernel
  simp only [ToolRegistry.new, WorkspacePath.new, canonicalize, pathed, PermissionPolicy.new, sampleCrates, root,
    Except.mapError, bind, Except.bind]
  rfl

def reading (path : String) : ToolInvocation :=
  ⟨"read_file", .ofMembers [("path", .string path)], 1, "e1", 1, none, 1000, 1000, "engine", 1⟩

/-- What the sample registry prepares for a path. -/
def readPrepared (path : String) (canonical : List OsStr) : Prepared :=
  ⟨toBytes path, .read, .read canonical DEFAULT_CAP, none⟩

theorem reading_prepared :
    sampleRegistry.prepareForEngine sampleCrates sampleFiles (reading "notes.txt") =
        .ok (readPrepared "notes.txt" [toBytes "w", toBytes "notes.txt"], .allow, "e1") ∧
      sampleRegistry.prepareForEngine sampleCrates sampleFiles (reading "open.txt") =
        .ok (readPrepared "open.txt" [toBytes "w", secretFile], .allow, "e1") := by
  decide +kernel

theorem notes_linkless : sampleFiles.Linkless [toBytes "w"] (pieces (toBytes "notes.txt")) := by
  have single : pieces (toBytes "notes.txt") = [toBytes "notes.txt"] := by decide +kernel
  have file : sampleFiles.node [toBytes "w", toBytes "notes.txt"] = some (.file ⟨toBytes "text", 0⟩) := by decide +kernel
  intro before name after split node held
  rw [single] at split
  cases before with
  | nil =>
      cases split
      rw [List.append_nil] at held
      cases file.symm.trans held
      rfl
  | cons first before =>
      have longer := congrArg List.length split
      simp at longer

theorem denied_spared_notes :
    ((PolicyDecision.allow ≠ .deny → (sampleRegistry.execute sampleCrates sampleFiles 1
        (readPrepared "notes.txt" [toBytes "w", toBytes "notes.txt"])).Spares sampleRegistry) ↔
      Guarded sampleCrates sampleRegistry sampleFiles (reading "notes.txt")) ∧
    (sampleRegistry.policy.decide .read (toBytes "notes.txt") = .deny ↔
      sampleRegistry.Denies [toBytes "w", toBytes "notes.txt"]) := by
  refine ⟨(denied_spared sampleRegistry_built).1 (fun _ => none) 1 (reading "notes.txt") _ _ _ (by decide)
    reading_prepared.1, (denied_spared sampleRegistry_built).2 (toBytes "notes.txt") _ _ ?_ notes_linkless ?_ ?_ .read⟩
  · exact ⟨by decide +kernel, by decide +kernel⟩
  · decide +kernel
  · decide +kernel

/-- The link is not denied, and shows the denied file; its target is denied. -/
theorem denied_reached :
    (¬ ∀ (C : Crates) (tree : Files) (root : List (Segment OsStr)) (supported : Bool) (enabled : Option (List String))
        (denies : List String) (registry : ToolRegistry),
      ToolRegistry.new C tree root supported enabled denies = .ok registry →
      ∀ (snapshots : OsStr → Option FileIdentity) (now : Nat) (invocation : ToolInvocation) (prepared : Prepared)
        (decision : PolicyDecision) (digest : String), invocation.name ≠ "git_diff" →
      { registry with snapshots }.prepareForEngine C tree invocation = .ok (prepared, decision, digest) →
        decision ≠ .deny → ({ registry with snapshots }.execute C tree now prepared).Spares registry) ∧
    (¬ ∀ (C : Crates) (tree : Files) (root : List (Segment OsStr)) (supported : Bool) (enabled : Option (List String))
        (denies : List String) (registry : ToolRegistry),
      ToolRegistry.new C tree root supported enabled denies = .ok registry →
      ∀ (input other shown shown' : OsStr) (canonical : List OsStr), display input = .ok shown →
        display other = .ok shown' → registry.workspace.read C.toHost tree input = .ok canonical →
          registry.workspace.read C.toHost tree other = .ok canonical →
            ∀ effect, registry.policy.decide effect shown = registry.policy.decide effect shown') := by
  constructor
  · intro claim
    have spares := claim _ _ _ _ _ _ _ sampleRegistry_built (fun _ => none) 1 (reading "open.txt") _ _ _ (by decide)
      reading_prepared.2 (by decide)
    have shows : [toBytes "w", secretFile] ∈ (sampleRegistry.execute sampleCrates sampleFiles 1
        (readPrepared "open.txt" [toBytes "w", secretFile])).shown := by decide +kernel
    exact spares _ (.inl shows) ⟨[secretFile], rfl, by decide +kernel⟩
  · intro claim
    have same := claim _ _ _ _ _ _ _ sampleRegistry_built secretFile (toBytes "open.txt") secretFile (toBytes "open.txt")
      [toBytes "w", secretFile] (by decide +kernel) (by decide +kernel) (by decide +kernel) (by decide +kernel) .read
    revert same
    decide +kernel

end LatteCode.Engine
