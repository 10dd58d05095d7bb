import Commonwake.LocalLog
import Commonwake.SampleNode

/-!
# The log verifies itself

`append_event` stores an object twice: as its canonical text, and as a
column `payload_json` in the ordinary encoding.  `verify_log` decodes the
canonical text and compares the result with the column.  The two agree for
every object whose numbers survive the canonical encoding, and only for
those.
-/

namespace Commonwake

open Outcome Table HashChain

section

variable (P : Primitives)

/-- The columns of an input are those which the verifier derives from its
canonical text. -/
def EventInput.Faithful (input : EventInput) : Prop :=
  ∃ value, input.canonicalJson = P.jcs value ∧
    ∀ row : EventRow, row.kind = input.kind → row.lineageId = input.lineageId →
      expectedProjection P row (P.canon value) = .ok ⟨input.targets, input.supersedes,
        input.payload, input.authorSignature, input.authorNonce⟩

/-- The numbers of a call are read back from its canonical text as they
were. -/
def Call.KeepsNumbers : Call → Prop
  | .acceptContribution _ contribution =>
      P.canon contribution.payload = contribution.payload
  | .acknowledge acknowledgement => KeepsCursor P acknowledgement.cursor
  | .registerLineage _ | .registerDelegation _ | .revokeDelegation _
  | .rotateLineageKey _ => True

/-- The same for the objects which an action may log. -/
def Action.KeepsNumbers : Action → Prop
  | .check call _ => call.KeepsNumbers P
  | .importBundle bundle _ _ _ => KeepsCursor P bundle.checkpoint.cursor
  | .commit _ _ | .observe _ _ _ _ _ _ | .markSourceFetch _ _ => True

/-- The verifier accepts the rows and ends at the last one. -/
def LogVerified (key : Bytes) (events : List EventRow) : Prop :=
  ∃ previous, foldState (verifyRow P key) LogCursor.start events =
      .ok ⟨previous, lastHash EventRow.sequence 0 events,
        lastHash EventRow.eventHash zeroHash events⟩ ∧
    HexText.encode previous = lastHash EventRow.eventHash zeroHash events

end

section

variable {P : Primitives}

/-! ## Objects without numbers -/

theorem canon_registration (x : LineageRegistration) :
    P.canon (x.toJson P) = x.toJson P := by
  simp [LineageRegistration.toJson]

theorem canon_delegation (x : SessionDelegation) :
    P.canon (x.toJson P) = x.toJson P := by
  simp [SessionDelegation.toJson, Function.comp_def, Scope.toJson]

theorem canon_revocation (x : DelegationRevocation) :
    P.canon (x.toJson P) = x.toJson P := by
  simp [DelegationRevocation.toJson]

theorem canon_rotation (x : SignedKeyRotation) :
    P.canon (x.toJson P) = x.toJson P := by
  simp [SignedKeyRotation.toJson, KeyRotationStatement.toJson]

theorem canon_acknowledgement {x : SignedAcknowledgement}
    (h : P.canonNumber (.int x.cursor) = .int x.cursor) :
    P.canon (x.toJson P) = x.toJson P := by
  have hmemory : P.canon x.memoryProvenance.toJson = x.memoryProvenance.toJson := by
    obtain ⟨statement, digest, claimed⟩ := x.memoryProvenance
    cases digest <;> simp [MemoryProvenance.toJson, Serde.skipNone]
  simp [SignedAcknowledgement.toJson, Serde.int, P.canon_number, h, hmemory]

theorem canon_witness {x : CheckpointWitness}
    (h : P.canonNumber (.int x.cursor) = .int x.cursor)
    (hcheckpoint : P.canonNumber (.int x.originCheckpoint.cursor) =
      .int x.originCheckpoint.cursor) :
    P.canon (x.toJson P) = x.toJson P := by
  simp [CheckpointWitness.toJson, Checkpoint.toJson, Serde.int, P.canon_number, h,
    hcheckpoint]

theorem canon_observation {x : FederatedObservationPayload}
    (h : P.canon x.rawMetadata = x.rawMetadata) :
    P.canon (x.toJson P) = x.toJson P := by
  have hlanguage : P.canon (Serde.nullOr Json.string x.language) =
      Serde.nullOr Json.string x.language := canon_nullOr P (fun _ => rfl) _
  have hpublished : P.canon (Serde.nullOr (dateTime P) x.publishedAt) =
      Serde.nullOr (dateTime P) x.publishedAt := canon_nullOr P (fun _ => rfl) _
  simp [FederatedObservationPayload.toJson, h, hlanguage, hpublished]

theorem canon_entryMetadata (feed : Feed) (entry : FeedEntry) :
    P.canon (entryMetadata feed entry) = entryMetadata feed entry := by
  simp [entryMetadata]

/-! ## Faithful inputs -/

theorem registrationInput_faithful {registration : LineageRegistration} {key : Bytes}
    (hkey : P.verifyingKeyFromB64 registration.publicKey = .ok key) :
    (registrationInput P (P.lineageId key) registration).Faithful P := by
  refine ⟨registration.toJson P, rfl, ?_⟩
  intro row hkind _
  simp only [registrationInput] at hkind
  have hread := LineageRegistration.ofJson_canon P registration
  rw [canon_registration] at hread ⊢
  simp [expectedProjection, hkind, hread, hkey, registrationInput]

theorem delegationInput_faithful (delegation : SessionDelegation) :
    (delegationInput P (delegationId P delegation) delegation).Faithful P := by
  refine ⟨delegation.toJson P, rfl, ?_⟩
  intro row hkind _
  simp only [delegationInput] at hkind
  have hread := SessionDelegation.ofJson_canon P delegation
  rw [canon_delegation] at hread ⊢
  simp [expectedProjection, hkind, hread, delegationInput]

theorem revocationInput_faithful (revocation : DelegationRevocation) :
    (revocationInput P revocation).Faithful P := by
  refine ⟨revocation.toJson P, rfl, ?_⟩
  intro row hkind _
  simp only [revocationInput] at hkind
  have hread := DelegationRevocation.ofJson_canon P revocation
  rw [canon_revocation] at hread ⊢
  simp [expectedProjection, hkind, hread, revocationInput]

theorem rotationInput_faithful (rotation : SignedKeyRotation) :
    (rotationInput P rotation).Faithful P := by
  refine ⟨rotation.toJson P, rfl, ?_⟩
  intro row hkind _
  simp only [rotationInput] at hkind
  have hread := SignedKeyRotation.ofJson_canon P rotation
  rw [canon_rotation] at hread ⊢
  simp [expectedProjection, hkind, hread, rotationInput]

theorem acknowledgementInput_faithful {acknowledgement : SignedAcknowledgement}
    (lineageId : String) (hcursor : KeepsCursor P acknowledgement.cursor) :
    (acknowledgementInput P lineageId acknowledgement).Faithful P := by
  refine ⟨acknowledgement.toJson P, rfl, ?_⟩
  intro row hkind hlineage
  simp only [acknowledgementInput] at hkind hlineage
  have hread := SignedAcknowledgement.ofJson_canon P hcursor
  rw [canon_acknowledgement hcursor.1] at hread ⊢
  simp [expectedProjection, hkind, hread, hlineage, acknowledgementInput]

theorem witnessInput_faithful {identity : NodeIdentity P} {bundle : FederationBundle}
    (observedAt : ℤ) (hcursor : KeepsCursor P bundle.checkpoint.cursor) :
    (witnessInput P bundle
      (makeCheckpointWitness P identity bundle observedAt)).Faithful P := by
  generalize hwitness : makeCheckpointWitness P identity bundle observedAt = witness
  have horigin : witness.originNodeId = bundle.originNodeId := by
    rw [← hwitness]
    rfl
  have hfirst : KeepsCursor P witness.cursor := by
    rw [← hwitness]
    exact hcursor
  have hsecond : KeepsCursor P witness.originCheckpoint.cursor := by
    rw [← hwitness]
    exact hcursor
  refine ⟨witness.toJson P, rfl, ?_⟩
  intro row hkind _
  simp only [witnessInput] at hkind
  have hread := CheckpointWitness.ofJson_canon P hfirst hsecond
  rw [canon_witness hfirst.1 hsecond.1] at hread ⊢
  simp [expectedProjection, hkind, hread, witnessInput, horigin]

theorem observationInput_faithful {payload : FederatedObservationPayload}
    (hmetadata : P.canon payload.rawMetadata = payload.rawMetadata) :
    (observationInput P payload).Faithful P := by
  refine ⟨(observationEnvelope payload).toJson P, rfl, ?_⟩
  intro row hkind _
  simp only [observationInput] at hkind
  have hmember : (P.canon ((observationEnvelope payload).toJson P)).get? "payload" =
      some (payload.toJson P) := by
    simp only [FederatedObservationEnvelope.toJson, observationEnvelope, Json.get?,
      Primitives.canon_object, List.map_cons, List.map_nil, Primitives.canon_string,
      canon_observation hmetadata]
    rfl
  have hsame : payload.canonical P = payload := by
    simp [FederatedObservationPayload.canonical, hmetadata]
  have hread := FederatedObservationEnvelope.ofJson_canon P (observationEnvelope payload)
  simp only [expectedProjection, hkind, hmember, hread, okOr_some, ok_bind]
  simp [observationInput, observationEnvelope, hsame]

theorem contributionInput_faithful {contribution : SignedContribution}
    (lineageId : String) (hpayload : P.canon contribution.payload = contribution.payload) :
    (contributionInput P lineageId contribution).Faithful P := by
  refine ⟨contribution.toJson P, rfl, ?_⟩
  intro row hkind _
  have hsame : contribution.canonical P = contribution := by
    simp [SignedContribution.canonical, hpayload]
  have hread := SignedContribution.ofJson_canon P contribution
  rw [hsame] at hread
  exact expectedProjection_contribution P hkind hread

/-! ## One event -/

theorem storedStrings_toText (values : List String) :
    storedStrings P (P.toText (Serde.strings values)) = .ok values := by
  simp [storedStrings]

/-- The row of a faithful input passes the checks on its columns. -/
theorem validateRawEventProjection_newRow {identity : NodeIdentity P}
    {input : EventInput} {receivedAt : ℤ} {db : Db} {hash : Bytes}
    (h : input.Faithful P) :
    validateRawEventProjection P (db.newRow P identity input receivedAt hash) =
      .ok () := by
  obtain ⟨value, hjson, hprojection⟩ := h
  have hexpected := hprojection (db.newRow P identity input receivedAt hash) rfl rfl
  unfold validateRawEventProjection
  simp only [Db.newRow, hjson, Primitives.parse_jcs', okOr_some, ok_bind,
    Primitives.jcs_canon'] at hexpected ⊢
  rw [hexpected]
  simp [storedStrings_toText, rejectIf]

/-- The verifier accepts a faithful event which was appended to a log it
accepts. -/
theorem LogVerified.append {identity : NodeIdentity P} {input : EventInput}
    {receivedAt : ℤ} {db next : Db} {row : EventRow} {accepted : AcceptedObject}
    (h : LogVerified P (P.publicKey identity.secret) db.events)
    (hfaithful : input.Faithful P)
    (happended : Appended P identity input receivedAt db row accepted next) :
    LogVerified P (P.publicKey identity.secret) (db.events ++ [row]) := by
  obtain ⟨previous, hfold, hencode⟩ := h
  obtain ⟨stored, canonical, hdecode, -, hparse, rfl⟩ := happended.row_eq
  have hhead : db.headHash = HexText.encode previous := by
    rw [db.headHash_eq, hencode]
  have hstored : stored = previous := by
    rw [hhead, HexText.decode_encode] at hdecode
    exact (Option.some.inj hdecode).symm
  subst hstored
  generalize hhash : P.eventHash stored (logRecord P input.kind input.lineageId
    input.delegationId (P.timestamp input.createdAt) (P.timestamp receivedAt)
    canonical) = hash
  have hrow : verifyRow P (P.publicKey identity.secret) ⟨stored,
      lastHash EventRow.sequence 0 db.events,
      lastHash EventRow.eventHash zeroHash db.events⟩
      (db.newRow P identity input receivedAt hash) =
        .ok ⟨hash, db.head + 1, HexText.encode hash⟩ := by
    have hsequence : (db.newRow P identity input receivedAt hash).sequence =
        lastHash EventRow.sequence 0 db.events + 1 := by
      rw [← db.head_eq]
      rfl
    have hprevious : (db.newRow P identity input receivedAt hash).previousHash =
        HexText.encode stored := hhead
    have hrecord : canonicalLogRecord P (db.newRow P identity input receivedAt hash) =
        .ok (logRecord P input.kind input.lineageId input.delegationId
          (P.timestamp input.createdAt) (P.timestamp receivedAt) canonical) := by
      simp [canonicalLogRecord, Db.newRow, hparse]
    have hsignature : P.signatureFromB64
        (db.newRow P identity input receivedAt hash).nodeSignature =
          .ok (P.sign identity.secret hash) :=
      P.signatureFromB64_sign identity.secret hash
    unfold verifyRow
    rw [rejectIf_of_not (by rw [not_not]; exact hsequence),
      rejectIf_of_not (by rw [not_not]; exact hprevious), hrecord]
    simp only [ok_bind, hhash, hsignature]
    rw [rejectIf_of_not (by simp [Db.newRow]),
      rejectIf_of_not (by simp [P.verify_sign]),
      validateRawEventProjection_newRow hfaithful]
    rfl
  refine ⟨hash, ?_, ?_⟩
  · rw [foldState_append, hfold, ok_bind, foldState, hrow, ok_bind, foldState,
      lastHash_append_singleton, lastHash_append_singleton]
    rfl
  · rw [lastHash_append_singleton]
    rfl

/-! ## Every run -/

/-- What a call logs is faithful, when its numbers are kept. -/
theorem Call.check_faithful {call : Call} {checkedAt : ℤ} {db : Db} {admitted : Admitted}
    (h : call.check P checkedAt db = .ok admitted) (hnumbers : call.KeepsNumbers P) :
    (admitted.input P).Faithful P := by
  cases call with
  | registerLineage registration =>
      simp only [Call.check, checkRegisterLineage, bind_eq_ok, pure_eq_ok,
        Except.ok.injEq] at h
      obtain ⟨_, ⟨-, -, -, -, -, -, -, -, key, hkey, -, -, rfl⟩, rfl⟩ := h
      exact registrationInput_faithful hkey
  | registerDelegation delegation =>
      simp only [Call.check, checkRegisterDelegation, bind_eq_ok, pure_eq_ok,
        Except.ok.injEq] at h
      obtain ⟨_, ⟨-, -, -, -, _, -, _, -, -, -, rfl⟩, rfl⟩ := h
      exact delegationInput_faithful delegation
  | revokeDelegation revocation =>
      simp only [Call.check, bind_eq_ok, pure_eq_ok, Except.ok.injEq] at h
      obtain ⟨-, -, rfl⟩ := h
      exact revocationInput_faithful revocation
  | rotateLineageKey rotation =>
      simp only [Call.check, bind_eq_ok, pure_eq_ok, Except.ok.injEq] at h
      obtain ⟨-, -, rfl⟩ := h
      exact rotationInput_faithful rotation
  | acceptContribution store contribution =>
      simp only [Call.check, bind_eq_ok, pure_eq_ok, Except.ok.injEq] at h
      obtain ⟨lineageId, -, rfl⟩ := h
      exact contributionInput_faithful lineageId hnumbers
  | acknowledge acknowledgement =>
      simp only [Call.check, bind_eq_ok, pure_eq_ok, Except.ok.injEq] at h
      obtain ⟨lineageId, -, rfl⟩ := h
      exact acknowledgementInput_faithful lineageId hnumbers

/-- The log is verified, and what the pending calls will log is faithful. -/
structure NodeVerified (P : Primitives) (identity : NodeIdentity P)
    (node : NodeState) : Prop where
  log : LogVerified P (P.publicKey identity.secret) node.db.events
  pending : ∀ call ∈ node.pending, (call.admitted.input P).Faithful P

theorem Logs.logVerified {identity : NodeIdentity P} {input : EventInput}
    {appendedAt : ℤ} {db next : Db} {accepted : AcceptedObject}
    (h : Logs P identity input appendedAt db (accepted, next))
    (hlog : LogVerified P (P.publicKey identity.secret) db.events)
    (hfaithful : input.Faithful P) :
    LogVerified P (P.publicKey identity.secret) next.events := by
  obtain ⟨row, logged, happended, hsame⟩ := h.appended
  have hevents : next.events = logged.events := hsame.events
  rw [hevents, happended.events]
  exact hlog.append hfaithful happended

theorem NodeState.step_verified {identity : NodeIdentity P} {node : NodeState}
    {action : Action} (h : NodeVerified P identity node)
    (hnumbers : action.KeepsNumbers P) :
    NodeVerified P identity (node.step P identity action) := by
  have hsteps := node.step_steps identity action
  generalize node.step P identity action = next at hsteps
  cases hsteps with
  | idle => exact h
  | pend call checkedAt admitted hcheck =>
      refine ⟨h.log, ?_⟩
      intro pending hpending
      rcases List.mem_append.mp hpending with hold | hnew
      · exact h.pending pending hold
      · rw [List.mem_singleton.mp hnew]
        exact Call.check_faithful hcheck hnumbers
  | abort index appendedAt =>
      exact ⟨h.log, fun call hcall => h.pending call (List.mem_of_mem_eraseIdx hcall)⟩
  | commit index appendedAt call accepted next hcall hcommit =>
      refine ⟨?_, fun other hother => h.pending other (List.mem_of_mem_eraseIdx hother)⟩
      exact (call.admitted.commit_logs identity appendedAt node.db _ hcommit).logVerified
        h.log (h.pending call (List.mem_of_getElem? hcall))
  | observe sourceId languages feed retrievedAt entry appendedAt canonicalUrl observation
      accepted next hurl hobservation hnew happend =>
      refine ⟨?_, h.pending⟩
      refine (Db.appendObservation_logs identity observation appendedAt hnew _
        happend).logVerified h.log (observationInput_faithful ?_)
      rw [hobservation]
      exact canon_entryMetadata feed entry
  | markSourceFetch sourceId success => exact ⟨h.log, h.pending⟩
  | importBundle bundle observedAt now appendedAt =>
      refine ⟨?_, h.pending⟩
      obtain ⟨-, hevents⟩ := importFederationBundle_frame identity bundle observedAt now
        appendedAt node.db
      simp only
      rcases hevents with hsame | ⟨base, accepted, logged, hbase, happend, hnext⟩
      · rw [hsame]
        exact h.log
      · obtain ⟨row, happended⟩ := appendEvent_eq_ok happend
        rw [hnext, happended.events]
        refine LogVerified.append ?_ (witnessInput_faithful observedAt hnumbers) happended
        rw [hbase]
        exact h.log

theorem nodeVerified_init (identity : NodeIdentity P) :
    NodeVerified P identity (NodeState.init P identity) where
  log := ⟨zeroBytes, rfl, encode_zeroBytes⟩
  pending := by
    intro call hcall
    cases hcall

/-- After every run whose objects keep their numbers, the log verifies and
ends at the current head. -/
theorem run_verifyLog (P : Primitives) (identity : NodeIdentity P)
    (actions : List Action) (hnumbers : ∀ action ∈ actions, action.KeepsNumbers P) :
    verifyLog P identity (NodeState.run P identity actions).db =
      .ok ((NodeState.run P identity actions).db.head,
        (NodeState.run P identity actions).db.headHash) := by
  have hverified : NodeVerified P identity (NodeState.run P identity actions) := by
    induction actions using List.reverseRecOn with
    | nil => exact nodeVerified_init identity
    | append_singleton actions action ih =>
        rw [NodeState.run_append_singleton]
        refine NodeState.step_verified (ih ?_) (hnumbers action (by simp))
        intro earlier hearlier
        exact hnumbers earlier (List.mem_append_left _ hearlier)
  obtain ⟨previous, hfold, -⟩ := hverified.log
  unfold verifyLog
  rw [identity.publicKey_eq, P.verifyingKeyFromB64_publicKey, ok_bind, hfold, Db.head_eq,
    Db.headHash_eq]
  rfl

end

/-! ## A commitment with a number -/

namespace Sample

/-- The same with the number as a float, `1.0`. -/
def oneHourFloat : Json := .object [("hours", .number (.float 0x3FF0000000000000))]

instance head_oneHour : Fact ((NodeState.run library origin
    (commitmentRun oneHour)).db.head = 3) :=
  ⟨by decide +kernel⟩

/-- The three events of the run verify. -/
theorem run_verifyLog_oneHour :
    verifyLog library origin (NodeState.run library origin (commitmentRun oneHour)).db =
      .ok (3, (NodeState.run library origin (commitmentRun oneHour)).db.headHash) := by
  have hverify := run_verifyLog library origin (commitmentRun oneHour) (by
    intro action haction
    simp only [commitmentRun, atOnce, List.cons_append, List.nil_append, List.mem_cons,
      List.not_mem_nil, or_false] at haction
    rcases haction with rfl | rfl | rfl | rfl | rfl | rfl
    · exact trivial
    · exact trivial
    · exact trivial
    · exact trivial
    · change library.canon oneHour = oneHour
      decide
    · exact trivial)
  rw [hverify, head_oneHour.out]

instance rejects_oneHourFloat :
    Fact ((NodeState.run library origin (commitmentRun oneHourFloat)).db.head = 3 ∧
      ¬ isOk (verifyLog library origin
        (NodeState.run library origin (commitmentRun oneHourFloat)).db)) :=
  ⟨by decide +kernel⟩

/-- The node accepts the commitment with the float, and its log does not
verify. -/
theorem run_verifyLog_oneHourFloat :
    (NodeState.run library origin (commitmentRun oneHourFloat)).db.head = 3 ∧
    ¬ isOk (verifyLog library origin
      (NodeState.run library origin (commitmentRun oneHourFloat)).db) :=
  rejects_oneHourFloat.out

end Sample

end Commonwake
