import LatteCode.Storage.Request
/- What a command digest covers: two requests share a digest exactly when they agree there. -/

namespace LatteCode
open Keyed

/-- `json!` objects with the same member names are equal only member by member. -/
theorem Json.ofMembers_injective {names : List String} {members members' : List (String × Json)}
    (same : Json.ofMembers members = Json.ofMembers members') (named : members.map Prod.fst = names)
    (named' : members'.map Prod.fst = names) (distinct : names.Nodup) : members = members' := by
  have found : ∀ (rows : List (String × Json)), rows.map Prod.fst = names → ∀ key value,
      (key, value) ∈ rows → rows.reverse.lookup key = some value := by
    intro rows keys key value member
    have unique : (rows.reverse.map Prod.fst).Nodup := by
      rw [List.map_reverse, (List.reverse_perm _).nodup_iff, keys]
      exact distinct
    exact (Table.mk rows.reverse unique).get?_of_mem (List.mem_reverse.mpr member)
  refine List.ext_getElem ?_ ?_
  · rw [← @List.length_map _ _ members Prod.fst, ← @List.length_map _ _ members' Prod.fst, named, named']
  · intro i bound bound'
    have key : members[i].1 = members'[i].1 := by
      rw [← List.getElem_map Prod.fst (h := by simpa using bound),
        ← List.getElem_map Prod.fst (h := by simpa using bound')]
      simp only [named, named']
    have one : members'.reverse.lookup members'[i].1 = some members[i].2 := by
      rw [← key, ← Json.member_eq same]
      exact found members named _ _ (List.getElem_mem bound)
    have two : members'.reverse.lookup members'[i].1 = some members'[i].2 :=
      found members' named' _ _ (List.getElem_mem bound')
    exact Prod.ext key (Option.some.inj (one.symm.trans two))

@[simp] theorem Json.ofText_inj {a b : Option String} : Json.ofText a = Json.ofText b ↔ a = b := by
  cases a <;> cases b <;> simp [Json.ofText, Json.ofOption]

@[simp] theorem Json.ofNat_inj {a b : Nat} : Json.ofNat a = Json.ofNat b ↔ a = b := by simp [Json.ofNat]

@[simp] theorem Json.ofStrings_inj {a b : List String} : Json.ofStrings a = Json.ofStrings b ↔ a = b :=
  ⟨Json.ofStrings_injective, congrArg _⟩

@[simp] theorem TranscriptKind.debug_inj {a b : TranscriptKind} : a.debug = b.debug ↔ a = b := by
  cases a <;> cases b <;> simp [TranscriptKind.debug]

@[simp] theorem PendingPermission.toJson_inj {a b : PendingPermission} : a.toJson = b.toJson ↔ a = b :=
  ⟨PendingPermission.toJson_injective, congrArg _⟩

@[simp] theorem PendingInput.toJson_inj {a b : PendingInput} : a.toJson = b.toJson ↔ a = b :=
  ⟨PendingInput.toJson_injective, congrArg _⟩

@[simp] theorem TurnFailure.toJson_inj {a b : TurnFailure} : a.toJson = b.toJson ↔ a = b :=
  ⟨TurnFailure.toJson_injective, congrArg _⟩

@[simp] theorem Handoff.toJson_inj {a b : Handoff} : a.toJson = b.toJson ↔ a = b :=
  ⟨Handoff.toJson_injective, congrArg _⟩

namespace Storage

/-- The `kind` member of an update. -/
def updateKind : CommitSessionTurnUpdate → String
  | .start .. => "start"
  | .appendTranscript .. => "append_transcript"
  | .prepareEffect .. => "prepare_effect"
  | .startEffect .. => "start_effect"
  | .observeEffect .. => "observe_effect"
  | .unknownEffect .. => "unknown_effect"
  | .reconcileUnknownEffect .. => "reconcile_unknown_effect"
  | .requestPermission .. => "request_permission"
  | .resolvePermission .. => "resolve_permission"
  | .requestInput .. => "request_input"
  | .provideInput .. => "provide_input"
  | .complete .. => "complete"
  | .completeVerified .. => "complete_verified"
  | .fail .. => "fail"
  | .interrupt .. => "interrupt"

section Updates

variable (E : Environment)

/-- Two updates agree in all that a digest covers: texts and documents redacted, the rest as it is.
The exact descriptor of a preparation is not covered. -/
inductive SameUpdate : CommitSessionTurnUpdate → CommitSessionTurnUpdate → Prop
  | start {source source' : String} (key : E.redactSessionText source = E.redactSessionText source') :
      SameUpdate (.start source) (.start source')
  | appendTranscript {source source' text text' : String} (kind : TranscriptKind) {payload payload' : Option Json}
      (key : E.redactSessionText source = E.redactSessionText source')
      (texts : E.redactSessionText text = E.redactSessionText text')
      (payloads : redactedPayload E payload = redactedPayload E payload') :
      SameUpdate (.appendTranscript source kind text payload) (.appendTranscript source' kind text' payload')
  | prepareEffect {source source' id id' digest digest' descriptor descriptor' canonical canonical' description
      description' checkpoint checkpoint' : String} (policy : SessionEffectPolicy)
      (key : E.redactSessionText source = E.redactSessionText source')
      (ids : E.redactSessionText id = E.redactSessionText id')
      (digests : E.redactSessionText digest = E.redactSessionText digest')
      (descriptors : redactedDocument E descriptor = redactedDocument E descriptor')
      (descriptions : E.redactSessionText description = E.redactSessionText description')
      (checkpoints : redactedDocument E checkpoint = redactedDocument E checkpoint') :
      SameUpdate (.prepareEffect source id digest descriptor canonical policy description checkpoint)
        (.prepareEffect source' id' digest' descriptor' canonical' policy description' checkpoint')
  | startEffect {source source' id id' digest digest' checkpoint checkpoint' : String}
      (key : E.redactSessionText source = E.redactSessionText source')
      (ids : E.redactSessionText id = E.redactSessionText id')
      (digests : E.redactSessionText digest = E.redactSessionText digest')
      (checkpoints : redactedDocument E checkpoint = redactedDocument E checkpoint') :
      SameUpdate (.startEffect source id digest checkpoint) (.startEffect source' id' digest' checkpoint')
  | observeEffect {source source' id id' digest digest' result result' checkpoint checkpoint' : String}
      (success : Bool) {payload payload' : Option Json}
      (key : E.redactSessionText source = E.redactSessionText source')
      (ids : E.redactSessionText id = E.redactSessionText id')
      (digests : E.redactSessionText digest = E.redactSessionText digest')
      (results : E.redactSessionText result = E.redactSessionText result')
      (payloads : redactedPayload E payload = redactedPayload E payload')
      (checkpoints : redactedDocument E checkpoint = redactedDocument E checkpoint') :
      SameUpdate (.observeEffect source id digest success result payload checkpoint)
        (.observeEffect source' id' digest' success result' payload' checkpoint')
  | unknownEffect {source source' id id' digest digest' checkpoint checkpoint' : String}
      (key : E.redactSessionText source = E.redactSessionText source')
      (ids : E.redactSessionText id = E.redactSessionText id')
      (digests : E.redactSessionText digest = E.redactSessionText digest')
      (checkpoints : redactedDocument E checkpoint = redactedDocument E checkpoint') :
      SameUpdate (.unknownEffect source id digest checkpoint) (.unknownEffect source' id' digest' checkpoint')
  | reconcileUnknownEffect {source source' id id' checkpoint checkpoint' : String}
      (key : E.redactSessionText source = E.redactSessionText source')
      (ids : E.redactSessionText id = E.redactSessionText id')
      (checkpoints : redactedDocument E checkpoint = redactedDocument E checkpoint') :
      SameUpdate (.reconcileUnknownEffect source id checkpoint) (.reconcileUnknownEffect source' id' checkpoint')
  | requestPermission {source source' : String} {request request' : PendingPermission}
      (key : E.redactSessionText source = E.redactSessionText source')
      (requests : redactPermission E request = redactPermission E request') :
      SameUpdate (.requestPermission source request) (.requestPermission source' request')
  | resolvePermission {source source' id id' : String} (allow : Bool) (rebound : Option String)
      (key : E.redactSessionText source = E.redactSessionText source')
      (ids : E.redactSessionText id = E.redactSessionText id') :
      SameUpdate (.resolvePermission source id allow rebound) (.resolvePermission source' id' allow rebound)
  | requestInput {source source' : String} {request request' : PendingInput}
      (key : E.redactSessionText source = E.redactSessionText source')
      (requests : redactInput E request = redactInput E request') :
      SameUpdate (.requestInput source request) (.requestInput source' request')
  | provideInput {source source' id id' value value' : String}
      (key : E.redactSessionText source = E.redactSessionText source')
      (ids : E.redactSessionText id = E.redactSessionText id')
      (values : E.redactSessionText value = E.redactSessionText value') :
      SameUpdate (.provideInput source id value) (.provideInput source' id' value')
  | complete {source source' : String} {handoff handoff' : Handoff}
      (key : E.redactSessionText source = E.redactSessionText source')
      (handoffs : redactHandoff E handoff = redactHandoff E handoff') :
      SameUpdate (.complete source handoff) (.complete source' handoff')
  | completeVerified {source source' summary summary' id id' manifest manifest' : String}
      {files files' : List String} (key : E.redactSessionText source = E.redactSessionText source')
      (summaries : E.redactSessionText summary = E.redactSessionText summary')
      (ids : E.redactSessionText id = E.redactSessionText id')
      (manifests : E.redactSessionText manifest = E.redactSessionText manifest')
      (changed : files.map E.redactSessionText = files'.map E.redactSessionText) :
      SameUpdate (.completeVerified source summary id manifest files)
        (.completeVerified source' summary' id' manifest' files')
  | fail {source source' : String} {failure failure' : TurnFailure}
      (key : E.redactSessionText source = E.redactSessionText source')
      (failures : redactFailure E failure = redactFailure E failure') :
      SameUpdate (.fail source failure) (.fail source' failure')
  | interrupt {source source' : String} {id id' : Option String}
      (key : E.redactSessionText source = E.redactSessionText source')
      (ids : id.map E.redactSessionText = id'.map E.redactSessionText) :
      SameUpdate (.interrupt source id) (.interrupt source' id')

/-- Two requests agree in all that a digest covers, their command ids apart. -/
structure SameCommand (request request' : SessionCommitRequest) : Prop where
  session : request.sessionId = request'.sessionId
  turn : request.turnId = request'.turnId
  sessionRevision : request.expectedSessionRevision = request'.expectedSessionRevision
  turnRevision : request.expectedTurnRevision = request'.expectedTurnRevision
  requestId : request.requestId.map E.redactSessionText = request'.requestId.map E.redactSessionText
  effectId : request.effectId.map E.redactSessionText = request'.effectId.map E.redactSessionText
  update : SameUpdate E request.update request'.update

end Updates

variable {E : Environment}

theorem updateJson_kind (update : CommitSessionTurnUpdate) :
    (updateJson E update).get? "kind" = some (.string (updateKind update)) := by
  cases update <;> simp [updateJson, updateKind, Json.get?_ofMembers, List.lookup]

/-- The JSON of an update is exactly what the digest covers of it. -/
theorem updateJson_eq {update update' : CommitSessionTurnUpdate} :
    updateJson E update = updateJson E update' ↔ SameUpdate E update update' := by
  constructor
  · intro same
    have kind : updateKind update = updateKind update' := by
      have members := congrArg (Json.get? "kind") same
      simpa only [updateJson_kind, Option.some.injEq, Json.string.injEq] using members
    cases update <;> cases update' <;> simp [updateKind] at kind
    all_goals
      simp only [updateJson] at same
      have members := Json.ofMembers_injective same rfl rfl (by simp)
      simp only [List.cons.injEq, Prod.mk.injEq, Json.string.injEq, Json.bool.injEq, true_and, and_true,
        TranscriptKind.debug_inj, PendingPermission.toJson_inj, PendingInput.toJson_inj, TurnFailure.toJson_inj,
        Handoff.toJson_inj, Json.ofText_inj, Json.ofStrings_inj] at members
    case start => exact .start members
    case appendTranscript =>
      obtain ⟨key, rfl, texts, payloads⟩ := members
      exact .appendTranscript _ key texts payloads
    case prepareEffect policy _ _ _ _ _ _ _ policy' _ _ =>
      obtain ⟨key, ids, digests, descriptors, policies, descriptions, checkpoints⟩ := members
      have named : policy = policy' := by cases policy <;> cases policy' <;> simp at policies <;> rfl
      subst named
      exact .prepareEffect _ key ids digests descriptors descriptions checkpoints
    case startEffect =>
      obtain ⟨key, ids, digests, checkpoints⟩ := members
      exact .startEffect key ids digests checkpoints
    case observeEffect =>
      obtain ⟨key, ids, digests, rfl, results, payloads, checkpoints⟩ := members
      exact .observeEffect _ key ids digests results payloads checkpoints
    case unknownEffect =>
      obtain ⟨key, ids, digests, checkpoints⟩ := members
      exact .unknownEffect key ids digests checkpoints
    case reconcileUnknownEffect =>
      obtain ⟨key, ids, checkpoints⟩ := members
      exact .reconcileUnknownEffect key ids checkpoints
    case requestPermission => exact .requestPermission members.1 members.2
    case resolvePermission =>
      obtain ⟨key, ids, rfl, rfl⟩ := members
      exact .resolvePermission _ _ key ids
    case requestInput => exact .requestInput members.1 members.2
    case provideInput =>
      obtain ⟨key, ids, values⟩ := members
      exact .provideInput key ids values
    case complete => exact .complete members.1 members.2
    case completeVerified =>
      obtain ⟨key, summaries, ids, manifests, changed⟩ := members
      exact .completeVerified key summaries ids manifests changed
    case fail => exact .fail members.1 members.2
    case interrupt => exact .interrupt members.1 members.2
  · intro same
    cases same <;> simp_all [updateJson]

/-- Equal digests are equal commands, as far as a digest covers them. -/
theorem sessionCommandDigest_eq (collisionFree : Function.Injective E.sha256)
    {request request' : SessionCommitRequest} :
    sessionCommandDigest E request = sessionCommandDigest E request' ↔
      request.commandId = request'.commandId ∧ SameCommand E request request' := by
  constructor
  · intro same
    rw [sessionCommandDigest, sessionCommandDigest] at same
    have documents := collisionFree same
    have distinct : ["session_id", "command_id", "turn_id", "expected_session_revision",
        "expected_turn_revision", "request_id", "effect_id", "update"].Nodup := by decide
    have members := Json.ofMembers_injective documents (by simp only [List.map]) (by simp only [List.map]) distinct
    simp only [List.cons.injEq, Prod.mk.injEq, Json.string.injEq, true_and, and_true, Json.ofNat_inj,
      Json.ofText_inj, updateJson_eq] at members
    obtain ⟨session, command, turn, sessionRevision, turnRevision, requestId, effectId, update⟩ := members
    exact ⟨SessionCommandId.toString_injective command, SessionId.toString_injective session,
      TurnId.toString_injective turn, sessionRevision, turnRevision, requestId, effectId, update⟩
  · rintro ⟨command, session, turn, sessionRevision, turnRevision, requestId, effectId, update⟩
    rw [sessionCommandDigest, sessionCommandDigest, command, session, turn, sessionRevision, turnRevision,
      requestId, effectId, updateJson_eq.mpr update]

end Storage
end LatteCode
