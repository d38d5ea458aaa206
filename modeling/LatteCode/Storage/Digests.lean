import LatteCode.Storage.Identity
/- What the digests of creates and follow-ups cover. -/

namespace LatteCode.Storage

theorem aliases_injective {entries entries' : List (String × String)}
    (same : entries.foldr (fun entry rest => Fields.cons entry.1 (.string entry.2) rest) .nil =
      entries'.foldr (fun entry rest => Fields.cons entry.1 (.string entry.2) rest) .nil) : entries = entries' := by
  induction entries generalizing entries' with
  | nil =>
      cases entries' with
      | nil => rfl
      | cons entry' entries' => cases same
  | cons entry entries ih =>
      cases entries' with
      | nil => cases same
      | cons entry' entries' =>
          simp only [List.foldr_cons, Fields.cons.injEq, Json.string.injEq] at same
          rw [ih same.2.2, Prod.ext same.1 same.2.1]

theorem bindingJson_injective {binding binding' : SessionProviderBinding}
    (same : bindingJson binding = bindingJson binding') : binding = binding' := by
  have distinct : ["version", "provider_name", "provider_type", "protocol", "model", "config_fingerprint",
      "tools_fingerprint", "aliases", "credential_ref_id", "data_scope_id", "credential_generation"].Nodup := by decide
  have members := Json.ofMembers_injective same rfl rfl distinct
  simp only [List.cons.injEq, Prod.mk.injEq, Json.string.injEq, Json.object.injEq, true_and, and_true,
    Json.ofNat_inj] at members
  obtain ⟨version, name, type, protocol, model, config, tools, aliases, credential, scope, generation⟩ := members
  cases binding
  cases binding'
  simp only [SessionProviderBinding.mk.injEq]
  exact ⟨version, name, type, protocol, model, config, tools, aliases_injective aliases, credential, scope, generation⟩

theorem createDigestOf_eq {E : Environment} (collisionFree : Function.Injective E.sha256) {operation idKey root root' : String}
    (named : ["operation", "protocol_version", "workspace", idKey, "prompt", "binding", "focus"].Nodup)
    {sessionId sessionId' : SessionId} {prompt prompt' : String} {binding binding' : SessionProviderBinding}
    {focus focus' : Option String} :
    createDigestOf E operation idKey sessionId root prompt binding focus =
        createDigestOf E operation idKey sessionId' root' prompt' binding' focus' ↔
      root = root' ∧ sessionId = sessionId' ∧ prompt = prompt' ∧ binding = binding' ∧
        normalizedFocus focus = normalizedFocus focus' := by
  constructor
  · intro same
    have members := Json.ofMembers_injective (collisionFree same) (by simp only [List.map]) (by simp only [List.map]) named
    simp only [List.cons.injEq, Prod.mk.injEq, Json.string.injEq, true_and, and_true, Json.ofText_inj] at members
    obtain ⟨roots, session, prompts, bindings, focuses⟩ := members
    exact ⟨roots, SessionId.toString_injective session, prompts, bindingJson_injective bindings, focuses⟩
  · rintro ⟨rfl, rfl, rfl, rfl, focuses⟩
    rw [createDigestOf, createDigestOf, focuses]

theorem followUpDigestOf_eq {E : Environment} (collisionFree : Function.Injective E.sha256)
    {operation idKey revisionKey : String} {sessionId : SessionId}
    (named : ["operation", "protocol_version", idKey, revisionKey, "prompt"].Nodup)
    {expected expected' : Nat} {prompt prompt' : String} :
    followUpDigestOf E operation idKey revisionKey sessionId expected prompt =
        followUpDigestOf E operation idKey revisionKey sessionId expected' prompt' ↔
      expected = expected' ∧ prompt = prompt' := by
  constructor
  · intro same
    have members := Json.ofMembers_injective (collisionFree same) (by simp only [List.map]) (by simp only [List.map]) named
    simp only [List.cons.injEq, Prod.mk.injEq, Json.string.injEq, true_and, and_true, Json.ofNat_inj] at members
    exact members
  · rintro ⟨rfl, rfl⟩
    rfl

/-- Digests of different operations differ. -/
theorem operations_differ {E : Environment} (collisionFree : Function.Injective E.sha256)
    {members members' : List (String × Json)} (named : members.reverse.lookup "operation" ≠ members'.reverse.lookup "operation") :
    E.sha256 (.ofMembers members) ≠ E.sha256 (.ofMembers members') := by
  intro same
  have operation := congrArg (Json.get? "operation") (collisionFree same)
  rw [Json.get?_ofMembers, Json.get?_ofMembers] at operation
  exact named operation

section Commands

variable {E : Environment} {sessionId sessionId' : SessionId} {root root' prompt prompt' : String} {expected expected' : Nat}
  {binding binding' : SessionProviderBinding} {focus focus' : Option String}

theorem createCommandDigest_eq (collisionFree : Function.Injective E.sha256) :
    createCommandDigest E sessionId root prompt binding focus =
        createCommandDigest E sessionId' root' prompt' binding' focus' ↔
      root = root' ∧ sessionId = sessionId' ∧ prompt = prompt' ∧ binding = binding' ∧
        normalizedFocus focus = normalizedFocus focus' :=
  createDigestOf_eq collisionFree (by decide)

theorem legacyCreateCommandDigest_eq (collisionFree : Function.Injective E.sha256) :
    legacyCreateCommandDigest E sessionId root prompt binding focus =
        legacyCreateCommandDigest E sessionId' root' prompt' binding' focus' ↔
      root = root' ∧ sessionId = sessionId' ∧ prompt = prompt' ∧ binding = binding' ∧
        normalizedFocus focus = normalizedFocus focus' :=
  createDigestOf_eq collisionFree (by decide)

theorem followUpCommandDigest_eq (collisionFree : Function.Injective E.sha256) :
    followUpCommandDigest E sessionId expected prompt = followUpCommandDigest E sessionId expected' prompt' ↔
      expected = expected' ∧ prompt = prompt' :=
  followUpDigestOf_eq collisionFree (by decide)

theorem legacyFollowUpCommandDigest_eq (collisionFree : Function.Injective E.sha256) :
    legacyFollowUpCommandDigest E sessionId expected prompt = legacyFollowUpCommandDigest E sessionId expected' prompt' ↔
      expected = expected' ∧ prompt = prompt' :=
  followUpDigestOf_eq collisionFree (by decide)

theorem createCommandDigest_ne_legacy (collisionFree : Function.Injective E.sha256) :
    createCommandDigest E sessionId root prompt binding focus ≠
      legacyCreateCommandDigest E sessionId' root' prompt' binding' focus' :=
  operations_differ collisionFree (by simp [List.lookup])

theorem createCommandDigest_ne_followUp (collisionFree : Function.Injective E.sha256) :
    createCommandDigest E sessionId root prompt binding focus ≠ followUpCommandDigest E sessionId' expected prompt' :=
  operations_differ collisionFree (by simp [List.lookup])

theorem legacyCreateCommandDigest_ne_followUp (collisionFree : Function.Injective E.sha256) :
    legacyCreateCommandDigest E sessionId root prompt binding focus ≠ followUpCommandDigest E sessionId' expected prompt' :=
  operations_differ collisionFree (by simp [List.lookup])

theorem followUpCommandDigest_ne_legacy (collisionFree : Function.Injective E.sha256) :
    followUpCommandDigest E sessionId expected prompt ≠ legacyFollowUpCommandDigest E sessionId expected' prompt' :=
  operations_differ collisionFree (by simp [List.lookup])

end Commands

end LatteCode.Storage
