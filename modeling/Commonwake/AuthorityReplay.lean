import Commonwake.TimeAgreement

/-!
# The authority of logged events

An importer decides from the log alone under which key and which delegation
an event was signed.  A call reads them before it takes the lock under which
it is logged.  The tables which an importer derives from the log mirror those
of the node as long as every call finds in its transaction what it found in
its check.
-/

namespace Commonwake

open Outcome Table

section

variable (P : Primitives)

/-! ## The checks of an importer -/

/-- The part of `projectContribution` before the contribution is applied. -/
def authorizeContribution (event : OriginEvent) (tables : OriginTables) :
    Result (String × SignedContribution) := do
  let contribution ← okOr (SignedContribution.ofJson P event.canonical) .json
  requireRemoteProtocol contribution.protocol
  requireNonce contribution.nonce
  validateLists contribution.targets contribution.supersedes
  rejectIf (event.kind ≠ contribution.kind.asStr)
    (.unauthorized "remote contribution kind differs from its canonical signed object")
  let receivedAt ← remoteReceivedAt P event
  validateAuthoredTimeAt contribution.createdAt receivedAt
  let (lineageId, sessionKey) ← authorizeRemoteDelegation P tables
    contribution.delegationId contribution.kind.requiredScope contribution.createdAt
    receivedAt
  requireRemoteEventMetadata P event (some lineageId) (some contribution.delegationId)
    contribution.createdAt
  let key ← P.verifyingKeyFromB64 sessionKey
  P.verifyObject key contributionDomain (contribution.toJson P) contribution.signature
  pure (lineageId, contribution)

theorem projectContribution_eq (origin : String) (event : OriginEvent)
    (state : ImportState) :
    projectContribution P origin event state = (do
      let (lineageId, contribution) ← authorizeContribution P event state.tables
      let state ← applyFederatedContribution P origin lineageId event contribution state
      pure (some contribution.nonce, state)) := by
  simp only [projectContribution, authorizeContribution, bind_assoc, pure_bind]

/-- The part of `projectAcknowledgement` which does not look at the cursor. -/
def authorizeAcknowledgement (event : OriginEvent) (tables : OriginTables) :
    Result SignedAcknowledgement := do
  let acknowledgement ← okOr (SignedAcknowledgement.ofJson P event.canonical) .json
  requireRemoteProtocol acknowledgement.protocol
  requireNonce acknowledgement.nonce
  validateMemoryProvenance acknowledgement.memoryProvenance.statement
  let receivedAt ← remoteReceivedAt P event
  validateAuthoredTimeAt acknowledgement.createdAt receivedAt
  let (lineageId, sessionKey) ← authorizeRemoteDelegation P tables
    acknowledgement.delegationId .ack acknowledgement.createdAt receivedAt
  requireRemoteEventMetadata P event (some lineageId)
    (some acknowledgement.delegationId) acknowledgement.createdAt
  let key ← P.verifyingKeyFromB64 sessionKey
  P.verifyObject key ackDomain (acknowledgement.toJson P) acknowledgement.signature
  pure acknowledgement

/-- What an event means for the authority tables of an importer, which are all
that its own authority depends on. -/
def replayAuthority (event : OriginEvent) (tables : OriginTables) :
    Result OriginTables :=
  match event.kind with
  | "lineage_registered" => Prod.snd <$> projectRegistration P event tables
  | "delegation_registered" => Prod.snd <$> projectDelegation P event tables
  | "delegation_revoked" => Prod.snd <$> projectRevocation P event tables
  | "lineage_key_rotated" => Prod.snd <$> projectRotation P event tables
  | "acknowledgement" => do
      let _ ← authorizeAcknowledgement P event tables
      pure tables
  | "observation" | "checkpoint_witnessed" => pure tables
  | _ => do
      let _ ← authorizeContribution P event tables
      pure tables

/-- The authority tables of an importer after the rows of a log. -/
def replayRow (tables : OriginTables) (row : EventRow) : Result OriginTables := do
  replayAuthority P (← originEvent P row) tables

/-! ## What a transaction must find -/

/-- The key and the delegation under which the object was checked are still in
force, and the acknowledged cursor is one which its text keeps. -/
def PendingCall.Current (call : PendingCall) (db : Db) : Prop :=
  match call.admitted with
  | .registerDelegation _ delegation =>
      (db.lineage? delegation.lineageId).map LineageRow.publicKey =
        (call.seen.lineage? delegation.lineageId).map LineageRow.publicKey
  | .revokeDelegation revocation =>
      (db.lineage? revocation.lineageId).map LineageRow.publicKey =
        (call.seen.lineage? revocation.lineageId).map LineageRow.publicKey
  | .appendContribution _ contribution =>
      ∀ row, db.delegation? contribution.delegationId = some row →
        row.revokedSequence = none
  | .appendAcknowledgement _ acknowledgement =>
      (∀ row, db.delegation? acknowledgement.delegationId = some row →
        row.revokedSequence = none) ∧ acknowledgement.cursor ≤ 2 ^ 53
  | .registerLineage _ _ | .rotateLineageKey _ => True

end

section

variable {P : Primitives} {identity : NodeIdentity P}

/-! ## Key versions -/

/-- The row of a lineage as an importer stores it. -/
def LineageRow.federated (keys : List LineageKeyRow) (row : LineageRow) :
    FederatedLineageRow :=
  { row with keyVersion := (maxKeyVersion keys row.lineageId).getD (-1) }

theorem maxKeyVersion_append_of_ne {keys : List LineageKeyRow} {key : LineageKeyRow}
    {lineageId : String} (h : key.lineageId ≠ lineageId) :
    maxKeyVersion (keys ++ [key]) lineageId = maxKeyVersion keys lineageId := by
  simp [maxKeyVersion, List.filter_append, h]

theorem max?_append_succ (versions : List ℤ) :
    (versions ++ [versions.max?.getD (-1) + 1]).max? =
      some (versions.max?.getD (-1) + 1) := by
  rw [List.max?_eq_some_iff]
  refine ⟨by simp, ?_⟩
  intro version hversion
  rcases List.mem_append.mp hversion with hold | hnew
  · obtain ⟨best, hbest⟩ : ∃ best, versions.max? = some best := by
      cases hmax : versions.max? with
      | none =>
          rw [List.max?_eq_none_iff.mp hmax] at hold
          cases hold
      | some best => exact ⟨best, rfl⟩
    have hle := (List.max?_eq_some_iff.mp hbest).2 version hold
    rw [hbest]
    simp only [Option.getD_some]
    omega
  · rw [List.mem_singleton.mp hnew]

theorem maxKeyVersion_append_self {keys : List LineageKeyRow} {key : LineageKeyRow}
    (h : key.keyVersion = (maxKeyVersion keys key.lineageId).getD (-1) + 1) :
    maxKeyVersion (keys ++ [key]) key.lineageId = some key.keyVersion := by
  have hmax := max?_append_succ
    ((keys.filter fun row => row.lineageId == key.lineageId).map (·.keyVersion))
  unfold maxKeyVersion at h ⊢
  rw [List.filter_append, List.map_append]
  simpa [h] using hmax

theorem maxKeyVersion_closeKeys (keys : List LineageKeyRow) (lineageId other : String)
    (sequence : ℤ) :
    maxKeyVersion (closeKeys lineageId sequence keys) other =
      maxKeyVersion keys other := by
  have hversions : ∀ rows : List LineageKeyRow,
      ((closeKeys lineageId sequence rows).filter fun row => row.lineageId == other).map
        (·.keyVersion) =
      (rows.filter fun row => row.lineageId == other).map (·.keyVersion) := by
    intro rows
    induction rows with
    | nil => rfl
    | cons row rest ih =>
        simp only [closeKeys, updateWhere] at ih
        simp only [closeKeys, updateWhere, List.map_cons, List.filter_cons]
        split <;> split <;> simp_all
  unfold maxKeyVersion
  rw [hversions]

/-! ## The mirror -/

/-- The authority tables of an importer are those of the node. -/
structure MirrorsAuthority (tables : OriginTables) (db : Db) : Prop where
  lineages : tables.lineages =
    db.authority.lineages.map (LineageRow.federated db.authority.lineageKeys)
  lineageKeys : tables.lineageKeys = db.authority.lineageKeys
  delegations : tables.delegations =
    db.authority.delegations.map LocalDelegationRow.toDelegationRow
  /-- Every key has its lineage. -/
  owned : ∀ key ∈ db.authority.lineageKeys,
    ∃ row ∈ db.authority.lineages, row.lineageId = key.lineageId
  /-- No two delegations share an id. -/
  distinct : (db.authority.delegations.map fun row => row.delegationId).Nodup

namespace MirrorsAuthority

variable {tables : OriginTables} {db next : Db}

theorem congr (h : MirrorsAuthority tables db) (hauthority : next.authority = db.authority) :
    MirrorsAuthority tables next := by
  obtain ⟨hlineages, hkeys, hdelegations, howned, hdistinct⟩ := h
  rw [← hauthority] at hlineages hkeys hdelegations howned hdistinct
  exact ⟨hlineages, hkeys, hdelegations, howned, hdistinct⟩

theorem lineage? (h : MirrorsAuthority tables db) (lineageId : String) :
    tables.lineage? lineageId =
      (db.lineage? lineageId).map (LineageRow.federated db.authority.lineageKeys) := by
  have htest : ((fun row : FederatedLineageRow => row.lineageId == lineageId) ∘
      LineageRow.federated db.authority.lineageKeys) =
      fun row => row.lineageId == lineageId := rfl
  unfold OriginTables.lineage? Db.lineage?
  rw [h.lineages, List.find?_map, htest]

theorem delegation? (h : MirrorsAuthority tables db) (id : String) :
    tables.delegation? id =
      (db.delegation? id).map LocalDelegationRow.toDelegationRow := by
  have htest : ((fun row : DelegationRow => row.delegationId == id) ∘
      LocalDelegationRow.toDelegationRow) = fun row => row.delegationId == id := rfl
  unfold OriginTables.delegation? Db.delegation?
  rw [h.delegations, List.find?_map, htest]

/-- The key of a lineage is the one which the node has. -/
theorem currentKey (h : MirrorsAuthority tables db) {lineageId unknown : String}
    {row : LineageRow} (hrow : db.lineage? lineageId = some row) :
    tables.currentKey P lineageId unknown = P.verifyingKeyFromB64 row.publicKey := by
  unfold OriginTables.currentKey
  rw [h.lineage?, hrow]
  rfl

end MirrorsAuthority

theorem requireRemoteProtocol_eq_ok {protocol : String}
    (h : requireProtocol protocol = .ok ()) : requireRemoteProtocol protocol = .ok () := by
  unfold requireProtocol at h
  unfold requireRemoteProtocol
  rw [rejectIf_eq_ok] at h ⊢
  exact h

theorem requireRemoteEventMetadata_eq_ok {event : OriginEvent}
    {lineageId delegationId : Option String} {createdAt appendedAt : ℤ}
    (hlineage : event.lineageId = lineageId) (hdelegation : event.delegationId = delegationId)
    (hcreated : event.createdAt = P.timestamp createdAt)
    (hreceived : event.receivedAt = P.timestamp appendedAt)
    (hyear : FourDigitYear appendedAt) :
    requireRemoteEventMetadata P event lineageId delegationId createdAt = .ok () := by
  unfold requireRemoteEventMetadata
  simp [hlineage, hdelegation, hcreated, hreceived, P.parseTimestamp_timestamp hyear,
    rejectIf]

/-! ## The mirror after one call -/

section

variable {tables : OriginTables} {db next : Db} {accepted : AcceptedObject}

theorem MirrorsAuthority.registration {lineageId : String}
    {registration : LineageRegistration} (hmirror : MirrorsAuthority tables db)
    (heffect : AuthorityEffect P db accepted (.registerLineage lineageId registration)
      next.authority) :
    MirrorsAuthority
      { tables with
        lineages := tables.lineages ++
          [{ registeredLineage P lineageId registration accepted.sequence with
            keyVersion := 0 }]
        lineageKeys := tables.lineageKeys ++
          [registeredKey lineageId registration accepted.sequence] } next := by
  generalize hauthority : next.authority = authority at heffect
  cases heffect with
  | registerLineage _ _ hlineage hnewKey hclash =>
  have hunowned : ∀ stored ∈ db.authority.lineageKeys, stored.lineageId ≠ lineageId := by
    intro stored hstored hsame
    obtain ⟨row, hrow, howner⟩ := hmirror.owned stored hstored
    exact (hlineage row hrow).1 (howner.trans hsame)
  have hold : ∀ row ∈ db.authority.lineages,
      row.federated (db.authority.lineageKeys ++
        [registeredKey lineageId registration accepted.sequence]) =
      row.federated db.authority.lineageKeys := by
    intro row hrow
    unfold LineageRow.federated
    rw [maxKeyVersion_append_of_ne (hlineage row hrow).1.symm]
  have hversion : maxKeyVersion (db.authority.lineageKeys ++
      [registeredKey lineageId registration accepted.sequence]) lineageId = some 0 := by
    refine maxKeyVersion_append_self ?_
    have hnone : db.authority.lineageKeys.filter
        (fun row => row.lineageId == lineageId) = [] := by
      rw [List.filter_eq_nil_iff]
      intro stored hstored
      simpa using hunowned stored hstored
    simp [registeredKey, maxKeyVersion, hnone]
  constructor
  · simp only [hauthority, hmirror.lineages, List.map_append, List.map_cons, List.map_nil]
    rw [List.map_congr_left hold]
    congr 2
    simp [LineageRow.federated, registeredLineage, hversion]
  · rw [hauthority, ← hmirror.lineageKeys]
  · rw [hauthority]
    exact hmirror.delegations
  · rw [hauthority]
    intro stored hstored
    rcases List.mem_append.mp hstored with hbefore | hnew
    · obtain ⟨row, hrow, howner⟩ := hmirror.owned stored hbefore
      exact ⟨row, List.mem_append_left _ hrow, howner⟩
    · rw [List.mem_singleton.mp hnew]
      exact ⟨_, List.mem_append_right _ (List.mem_singleton_self _), rfl⟩
  · rw [hauthority]
    exact hmirror.distinct

theorem MirrorsAuthority.delegation {id : String} {delegation : SessionDelegation}
    (hmirror : MirrorsAuthority tables db)
    (heffect : AuthorityEffect P db accepted (.registerDelegation id delegation)
      next.authority) :
    MirrorsAuthority
      { tables with
        delegations := tables.delegations ++
          [delegationRow P id delegation accepted.sequence] } next := by
  generalize hauthority : next.authority = authority at heffect
  cases heffect with
  | registerDelegation _ _ hnew hlineage =>
  constructor
  · rw [hauthority]
    exact hmirror.lineages
  · rw [hauthority]
    exact hmirror.lineageKeys
  · simp only [hauthority, hmirror.delegations, List.map_append, List.map_cons,
      List.map_nil]
    rfl
  · rw [hauthority]
    exact hmirror.owned
  · simp only [hauthority, List.map_append, List.map_cons, List.map_nil]
    refine List.nodup_append.mpr ⟨hmirror.distinct, List.nodup_singleton _, ?_⟩
    intro stored hstored other hother
    obtain ⟨row, hmem, rfl⟩ := List.mem_map.mp hstored
    rw [List.mem_singleton.mp hother]
    change row.delegationId ≠ id
    simpa using List.find?_eq_none.mp hnew row hmem

/-- Revoking rows of which the condition holds is the same on both sides. -/
theorem map_revokeWhere_toDelegationRow {condition : LocalDelegationRow → Bool}
    {remote : DelegationRow → Bool} {rows : List LocalDelegationRow} (sequence : ℤ)
    (h : ∀ row ∈ rows, remote row.toDelegationRow =
      (condition row && row.revokedSequence.isNone)) :
    (revokeWhere condition sequence rows).map LocalDelegationRow.toDelegationRow =
      updateWhere remote (fun row => { row with revokedSequence := some sequence })
        (rows.map LocalDelegationRow.toDelegationRow) := by
  unfold revokeWhere updateWhere
  rw [List.map_map, List.map_map]
  refine List.map_congr_left fun row hrow => ?_
  simp only [Function.comp_apply, h row hrow]
  split <;> rfl

theorem MirrorsAuthority.revocation {revocation : DelegationRevocation}
    (hmirror : MirrorsAuthority tables db)
    (heffect : AuthorityEffect P db accepted (.revokeDelegation revocation)
      next.authority) :
    MirrorsAuthority
      { tables with
        delegations := updateWhere (fun row => row.delegationId == revocation.delegationId &&
            row.lineageId == revocation.lineageId && row.revokedSequence.isNone)
          (fun row => { row with revokedSequence := some accepted.sequence })
          tables.delegations } next := by
  generalize hauthority : next.authority = authority at heffect
  cases heffect with
  | revokeDelegation _ owner howner hlineage hactive =>
  have hfound : owner.delegationId = revocation.delegationId := by
    have htest := List.find?_some howner
    simpa using htest
  have hmem := List.mem_of_find?_eq_some howner
  -- The id determines the row, and with it the lineage.
  have hcondition : ∀ row ∈ db.authority.delegations,
      (row.delegationId == revocation.delegationId && row.lineageId == revocation.lineageId &&
        row.revokedSequence.isNone) =
      (row.delegationId == revocation.delegationId && row.revokedSequence.isNone) := by
    intro row hrow
    by_cases hid : row.delegationId = revocation.delegationId
    · have hunique : row = owner :=
        List.inj_on_of_nodup_map hmirror.distinct hrow hmem (hid.trans hfound.symm)
      rw [hunique, hlineage, beq_self_eq_true, Bool.and_true]
    · rw [beq_eq_false_iff_ne.mpr hid]
      rfl
  constructor
  · rw [hauthority]
    exact hmirror.lineages
  · rw [hauthority]
    exact hmirror.lineageKeys
  · simp only [hauthority, hmirror.delegations]
    exact (map_revokeWhere_toDelegationRow accepted.sequence hcondition).symm
  · rw [hauthority]
    exact hmirror.owned
  · simp only [hauthority, revokeWhere]
    rw [map_updateWhere]
    · exact hmirror.distinct
    · intro _ _
      rfl

/-- The rows of the lineages after a rotation. -/
theorem map_federated_rotated (lineages : List LineageRow) (keys : List LineageKeyRow)
    (statement : KeyRotationStatement) (sequence : ℤ) :
    (updateWhere (fun row => row.lineageId == statement.lineageId)
        (fun row : LineageRow => { row with publicKey := statement.newPublicKey })
        lineages).map
      (LineageRow.federated (closeKeys statement.lineageId sequence keys ++
        [rotatedKey keys statement sequence])) =
    updateWhere (fun row => row.lineageId == statement.lineageId)
      (fun row : FederatedLineageRow => { row with
        publicKey := statement.newPublicKey
        keyVersion := (rotatedKey keys statement sequence).keyVersion })
      (lineages.map (LineageRow.federated keys)) := by
  unfold updateWhere
  rw [List.map_map, List.map_map]
  refine List.map_congr_left fun row _ => ?_
  simp only [Function.comp_apply]
  by_cases hid : row.lineageId = statement.lineageId
  · have hversion : maxKeyVersion (closeKeys statement.lineageId sequence keys ++
        [rotatedKey keys statement sequence]) statement.lineageId =
        some (rotatedKey keys statement sequence).keyVersion := by
      refine maxKeyVersion_append_self ?_
      rw [maxKeyVersion_closeKeys]
      rfl
    simp [LineageRow.federated, hid, hversion]
  · have hversion : maxKeyVersion (closeKeys statement.lineageId sequence keys ++
        [rotatedKey keys statement sequence]) row.lineageId =
        maxKeyVersion keys row.lineageId := by
      rw [maxKeyVersion_append_of_ne, maxKeyVersion_closeKeys]
      exact fun hsame => hid hsame.symm
    simp [LineageRow.federated, hid, hversion]

theorem MirrorsAuthority.rotation {rotation : SignedKeyRotation}
    (hmirror : MirrorsAuthority tables db)
    (heffect : AuthorityEffect P db accepted (.rotateLineageKey rotation)
      next.authority) :
    MirrorsAuthority
      { tables with
        lineages := updateWhere (fun row => row.lineageId == rotation.statement.lineageId)
          (fun row => { row with
            publicKey := rotation.statement.newPublicKey
            keyVersion := (rotatedKey db.authority.lineageKeys rotation.statement
              accepted.sequence).keyVersion })
          tables.lineages
        lineageKeys := closeKeys rotation.statement.lineageId accepted.sequence
            db.authority.lineageKeys ++
          [rotatedKey db.authority.lineageKeys rotation.statement accepted.sequence]
        delegations :=
          if rotation.statement.revokeExistingDelegations then
            updateWhere (fun row => row.lineageId == rotation.statement.lineageId &&
                row.revokedSequence.isNone)
              (fun row => { row with revokedSequence := some accepted.sequence })
              tables.delegations
          else tables.delegations } next := by
  generalize hauthority : next.authority = authority at heffect
  cases heffect with
  | rotateLineageKey _ lineage hlineage hkey hnew hother hclash =>
  have hid : lineage.lineageId = rotation.statement.lineageId := by
    have htest := List.find?_some hlineage
    simpa using htest
  constructor
  · simp only [hauthority, hmirror.lineages]
    exact (map_federated_rotated _ _ _ _).symm
  · rw [hauthority]
  · simp only [hauthority, hmirror.delegations]
    split
    · exact (map_revokeWhere_toDelegationRow accepted.sequence fun _ _ => rfl).symm
    · rfl
  · simp only [hauthority]
    intro stored hstored
    have howner : ∃ row ∈ db.authority.lineages, row.lineageId = stored.lineageId := by
      rcases List.mem_append.mp hstored with hbefore | hnew
      · obtain ⟨old, hold, rfl⟩ := mem_updateWhere.mp hbefore
        obtain ⟨row, hrow, howner⟩ := hmirror.owned old hold
        refine ⟨row, hrow, howner.trans ?_⟩
        split <;> rfl
      · rw [List.mem_singleton.mp hnew]
        exact ⟨lineage, List.mem_of_find?_eq_some hlineage, hid⟩
    obtain ⟨row, hrow, howner⟩ := howner
    refine ⟨_, mem_updateWhere.mpr ⟨row, hrow, rfl⟩, ?_⟩
    split <;> exact howner
  · simp only [hauthority]
    split
    · unfold revokeWhere
      rw [map_updateWhere]
      · exact hmirror.distinct
      · intro _ _
        rfl
    · exact hmirror.distinct

end

/-! ## One event of each kind -/

section

variable {tables : OriginTables} {seen db next : Db} {checkedAt appendedAt : ℤ}
  {event : OriginEvent} {accepted : AcceptedObject}

/-- The columns which an importer compares with the signed object. -/
structure Envelope (P : Primitives) (input : EventInput) (appendedAt sequence : ℤ)
    (value : Json) (event : OriginEvent) : Prop where
  sequence : event.sequence = sequence
  kind : event.kind = input.kind
  lineage : event.lineageId = input.lineageId
  delegation : event.delegationId = input.delegationId
  created : event.createdAt = P.timestamp input.createdAt
  received : event.receivedAt = P.timestamp appendedAt
  canonical : event.canonical = P.canon value

theorem Envelope.receivedAt {input : EventInput} {sequence : ℤ} {value : Json}
    (h : Envelope P input appendedAt sequence value event) (hyear : FourDigitYear appendedAt) :
    remoteReceivedAt P event = .ok (truncateToMillis appendedAt) :=
  (remoteReceivedAt_eq_ok h.received).mpr ⟨hyear, rfl⟩

theorem replay_registration {lineageId : String} {registration : LineageRegistration}
    (hmirror : MirrorsAuthority tables db)
    (hchecked : checkRegisterLineage P registration checkedAt = .ok lineageId)
    (henvelope : Envelope P (registrationInput P lineageId registration) appendedAt
      accepted.sequence (registration.toJson P) event)
    (hyear : FourDigitYear appendedAt)
    (hauthored : ceilToMillis (registration.createdAt - clockSkew) ≤ appendedAt)
    (heffect : AuthorityEffect P db accepted (.registerLineage lineageId registration)
      next.authority) :
    ∃ after, Prod.snd <$> projectRegistration P event tables = .ok after ∧
      MirrorsAuthority after next := by
  simp only [checkRegisterLineage, bind_eq_ok, pure_eq_ok, Except.ok.injEq] at hchecked
  obtain ⟨⟨⟩, hprotocol, ⟨⟩, hname, ⟨⟩, hnonce, ⟨⟩, -, key, hkey, ⟨⟩, hsignature, rfl⟩ :=
    hchecked
  have hafter := hmirror.registration heffect
  generalize hauthority : next.authority = authority at heffect
  cases heffect with
  | registerLineage _ _ hlineage hnewKey hclash =>
  have hmetadata : requireRemoteEventMetadata P event none none registration.createdAt =
      .ok () :=
    requireRemoteEventMetadata_eq_ok henvelope.lineage henvelope.delegation
      henvelope.created henvelope.received hyear
  have hknown : tables.knowsKey registration.publicKey = false := by
    unfold OriginTables.knowsKey
    rw [hmirror.lineageKeys, List.any_eq_false]
    intro row hrow
    simpa using hnewKey row hrow
  have hfresh : (tables.lineages.any fun stored =>
      stored.lineageId == P.lineageId key || stored.publicKey == registration.publicKey) =
      false := by
    rw [hmirror.lineages, List.any_map, List.any_eq_false]
    intro row hrow
    simpa [LineageRow.federated] using hlineage row hrow
  have hproject : projectRegistration P event tables = .ok (some registration.nonce,
      { tables with
        lineages := tables.lineages ++
          [{ registeredLineage P (P.lineageId key) registration accepted.sequence with
            keyVersion := 0 }]
        lineageKeys := tables.lineageKeys ++
          [registeredKey (P.lineageId key) registration accepted.sequence] }) := by
    unfold projectRegistration
    simp only [henvelope.canonical, LineageRegistration.ofJson_canon, okOr_some, ok_bind,
      requireRemoteProtocol_eq_ok hprotocol, hmetadata, hname, hnonce,
      henvelope.receivedAt hyear, validateAuthoredTimeAt_truncate.mpr hauthored, hkey,
      hsignature, hknown, henvelope.sequence, insertNew_of_fresh hfresh,
      hmirror.lineageKeys]
    rw [rejectIf_of_not (by simp), ok_bind]
    exact congrArg (· >>= _) (insertNew_of_fresh hclash)
  exact ⟨_, by rw [hproject]; rfl, hafter⟩

theorem replay_delegation {id : String} {delegation : SessionDelegation}
    (hmirror : MirrorsAuthority tables db)
    (hchecked : checkRegisterDelegation P delegation checkedAt seen = .ok id)
    (hcurrent : (db.lineage? delegation.lineageId).map LineageRow.publicKey =
      (seen.lineage? delegation.lineageId).map LineageRow.publicKey)
    (henvelope : Envelope P (delegationInput P id delegation) appendedAt
      accepted.sequence (delegation.toJson P) event)
    (hyear : FourDigitYear appendedAt)
    (hauthored : ceilToMillis (delegation.notBefore - clockSkew) ≤ appendedAt)
    (heffect : AuthorityEffect P db accepted (.registerDelegation id delegation)
      next.authority) :
    ∃ after, Prod.snd <$> projectDelegation P event tables = .ok after ∧
      MirrorsAuthority after next := by
  simp only [checkRegisterDelegation, Db.lineage, bind_eq_ok, okOr_eq_ok, pure_eq_ok,
    Except.ok.injEq] at hchecked
  obtain ⟨⟨⟩, hprotocol, ⟨⟩, hdelegation, _, ⟨seenRow, hseen, _, -, rfl⟩, key, hkey, ⟨⟩,
    hsignature, rfl⟩ := hchecked
  have hafter := hmirror.delegation heffect
  generalize hauthority : next.authority = authority at heffect
  cases heffect with
  | registerDelegation _ _ hnew hlineage =>
  obtain ⟨row, hrow⟩ := Option.ne_none_iff_exists'.mp hlineage
  have hsame : row.publicKey = seenRow.publicKey := by
    rw [hrow, hseen] at hcurrent
    simpa using hcurrent
  have hmetadata : requireRemoteEventMetadata P event (some delegation.lineageId) none
      delegation.notBefore = .ok () :=
    requireRemoteEventMetadata_eq_ok henvelope.lineage henvelope.delegation
      henvelope.created henvelope.received hyear
  have hfresh : (tables.delegations.any fun stored =>
      stored.delegationId == delegationId P delegation) = false := by
    rw [hmirror.delegations, List.any_map, List.any_eq_false]
    exact List.find?_eq_none.mp hnew
  have hproject : projectDelegation P event tables = .ok (some delegation.nonce,
      { tables with
        delegations := tables.delegations ++
          [delegationRow P (delegationId P delegation) delegation accepted.sequence] }) := by
    unfold projectDelegation
    simp only [henvelope.canonical, SessionDelegation.ofJson_canon, okOr_some, ok_bind,
      requireRemoteProtocol_eq_ok hprotocol, hmetadata, henvelope.receivedAt hyear,
      (validateDelegationAt_truncate hdelegation).mpr hauthored, hmirror.currentKey hrow,
      hsame, hkey, hsignature, henvelope.sequence, insertNew_of_fresh hfresh, pure_eq_ok]
  exact ⟨_, by rw [hproject]; rfl, hafter⟩

theorem replay_revocation {revocation : DelegationRevocation}
    (hmirror : MirrorsAuthority tables db)
    (hchecked : checkRevokeDelegation P revocation checkedAt seen = .ok ())
    (hkept : seen.AuthorityKept db)
    (hcurrent : (db.lineage? revocation.lineageId).map LineageRow.publicKey =
      (seen.lineage? revocation.lineageId).map LineageRow.publicKey)
    (henvelope : Envelope P (revocationInput P revocation) appendedAt
      accepted.sequence (revocation.toJson P) event)
    (hyear : FourDigitYear appendedAt)
    (hauthored : ceilToMillis (revocation.createdAt - clockSkew) ≤ appendedAt)
    (heffect : AuthorityEffect P db accepted (.revokeDelegation revocation)
      next.authority) :
    ∃ after, Prod.snd <$> projectRevocation P event tables = .ok after ∧
      MirrorsAuthority after next := by
  simp only [checkRevokeDelegation, Db.lineage, bind_eq_ok, okOr_eq_ok, pure_eq_ok,
    Except.ok.injEq] at hchecked
  obtain ⟨⟨⟩, hprotocol, ⟨⟩, hchange, _, ⟨seenRow, hseen, _, -, rfl⟩, key, hkey,
    hsignature⟩ := hchecked
  have hafter := hmirror.revocation heffect
  generalize hauthority : next.authority = authority at heffect
  cases heffect with
  | revokeDelegation _ owner howner hlineage hactive =>
  obtain ⟨publicKey, hrow⟩ := hkept.lineage _ _ hseen
  have hsame : publicKey = seenRow.publicKey := by
    rw [hrow, hseen] at hcurrent
    simpa using hcurrent
  have hmetadata : requireRemoteEventMetadata P event (some revocation.lineageId) none
      revocation.createdAt = .ok () :=
    requireRemoteEventMetadata_eq_ok henvelope.lineage henvelope.delegation
      henvelope.created henvelope.received hyear
  have hfound : owner.delegationId = revocation.delegationId := by
    have htest := List.find?_some howner
    simpa using htest
  have hmem := List.mem_of_find?_eq_some howner
  have hcount : tables.delegations.countP (fun row =>
      row.delegationId == revocation.delegationId && row.lineageId == revocation.lineageId &&
        row.revokedSequence.isNone) = 1 := by
    rw [hmirror.delegations, List.countP_map]
    refine countP_eq_one hmirror.distinct hmem ?_ ?_
    · simp [hfound, hlineage, hactive]
    · intro row hrow htest
      simp only [Function.comp_apply, Bool.and_eq_true, beq_iff_eq] at htest
      exact htest.1.1.trans hfound.symm
  have hproject : projectRevocation P event tables = .ok (some revocation.nonce,
      { tables with
        delegations := updateWhere (fun row => row.delegationId == revocation.delegationId &&
            row.lineageId == revocation.lineageId && row.revokedSequence.isNone)
          (fun row => { row with revokedSequence := some accepted.sequence })
          tables.delegations }) := by
    unfold projectRevocation
    simp only [henvelope.canonical, DelegationRevocation.ofJson_canon, okOr_some, ok_bind,
      requireRemoteProtocol_eq_ok hprotocol, hmetadata, henvelope.receivedAt hyear,
      (validateAuthorityChangeAt_truncate hchange).mpr hauthored,
      hmirror.currentKey hrow, hsame, hkey, hsignature, henvelope.sequence, hcount]
    rfl
  exact ⟨_, by rw [hproject]; rfl, hafter⟩

theorem replay_rotation {rotation : SignedKeyRotation}
    (hmirror : MirrorsAuthority tables db)
    (hchecked : checkRotateLineageKey P rotation checkedAt seen = .ok ())
    (henvelope : Envelope P (rotationInput P rotation) appendedAt
      accepted.sequence (rotation.toJson P) event)
    (hyear : FourDigitYear appendedAt)
    (hauthored : ceilToMillis (rotation.statement.createdAt - clockSkew) ≤ appendedAt)
    (heffect : AuthorityEffect P db accepted (.rotateLineageKey rotation)
      next.authority) :
    ∃ after, Prod.snd <$> projectRotation P event tables = .ok after ∧
      MirrorsAuthority after next := by
  simp only [checkRotateLineageKey, bind_eq_ok, rejectIf_eq_ok, not_not] at hchecked
  obtain ⟨⟨⟩, hprotocol, ⟨⟩, hchange, -, hadvance, -, -, -, -, previousKey, hprevious, newKey,
    hnewKey, ⟨⟩, hpreviousSignature, hnewSignature⟩ := hchecked
  have hafter := hmirror.rotation heffect
  generalize hauthority : next.authority = authority at heffect
  cases heffect with
  | rotateLineageKey _ lineage hlineage hkey hnew hother hclash =>
  have hmetadata : requireRemoteEventMetadata P event (some rotation.statement.lineageId)
      none rotation.statement.createdAt = .ok () :=
    requireRemoteEventMetadata_eq_ok henvelope.lineage henvelope.delegation
      henvelope.created henvelope.received hyear
  have hknown : tables.knowsKey rotation.statement.newPublicKey = false := by
    unfold OriginTables.knowsKey
    rw [hmirror.lineageKeys, List.any_eq_false]
    intro row hrow
    simpa using hnew row hrow
  have hunique : (tables.lineages.any fun row =>
      row.publicKey == rotation.statement.newPublicKey &&
        row.lineageId != rotation.statement.lineageId) = false := by
    rw [hmirror.lineages, List.any_map, List.any_eq_false]
    intro row hrow
    simpa [LineageRow.federated] using hother row hrow
  have hfound : tables.lineage? rotation.statement.lineageId =
      some (lineage.federated db.authority.lineageKeys) := by
    rw [hmirror.lineage?, hlineage]
    rfl
  have hid : lineage.lineageId = rotation.statement.lineageId := by
    have htest := List.find?_some hlineage
    simpa using htest
  have hversion : (lineage.federated db.authority.lineageKeys).keyVersion + 1 =
      (rotatedKey db.authority.lineageKeys rotation.statement accepted.sequence).keyVersion := by
    simp [LineageRow.federated, rotatedKey, hid]
  have hproject : projectRotation P event tables = .ok (some rotation.statement.nonce,
      { tables with
        lineages := updateWhere (fun row => row.lineageId == rotation.statement.lineageId)
          (fun row => { row with
            publicKey := rotation.statement.newPublicKey
            keyVersion := (rotatedKey db.authority.lineageKeys rotation.statement
              accepted.sequence).keyVersion })
          tables.lineages
        lineageKeys := closeKeys rotation.statement.lineageId accepted.sequence
            db.authority.lineageKeys ++
          [rotatedKey db.authority.lineageKeys rotation.statement accepted.sequence]
        delegations :=
          if rotation.statement.revokeExistingDelegations then
            updateWhere (fun row => row.lineageId == rotation.statement.lineageId &&
                row.revokedSequence.isNone)
              (fun row => { row with revokedSequence := some accepted.sequence })
              tables.delegations
          else tables.delegations }) := by
    unfold projectRotation
    simp only [henvelope.canonical, SignedKeyRotation.ofJson_canon, okOr_some, ok_bind,
      requireRemoteProtocol_eq_ok hprotocol, hmetadata, henvelope.receivedAt hyear,
      (validateAuthorityChangeAt_truncate hchange).mpr hauthored, hfound, hprevious, hnewKey,
      hpreviousSignature, hnewSignature, henvelope.sequence, hversion, hknown, hunique,
      hmirror.lineageKeys]
    rw [rejectIf_of_not, rejectIf_of_not (by simp), rejectIf_of_not (by simp)]
    · simp only [ok_bind]
      exact congrArg (· >>= _) (insertNew_of_fresh hclash)
    · rintro (hstale | hsame)
      · exact hstale hkey
      · exact hadvance hsame
  exact ⟨_, by rw [hproject]; rfl, hafter⟩

/-- An active delegation grants the importer what it granted the node. -/
theorem authorizeRemoteDelegation_of_active {id : String} {scope : Scope} {createdAt : ℤ}
    {view : DelegationView} (hmirror : MirrorsAuthority tables db)
    (hkept : seen.AuthorityKept db)
    (hcheck : authorizeDelegation P id scope createdAt checkedAt seen = .ok view)
    (hcurrent : ∀ row, db.delegation? id = some row → row.revokedSequence = none)
    (htimes : isOk (authorizeRemoteDelegation P (importedDelegations P db.events) id scope
      createdAt (truncateToMillis appendedAt)))
    (hlogged : DelegationsLogged P db) :
    authorizeRemoteDelegation P tables id scope createdAt (truncateToMillis appendedAt) =
      .ok (view.lineageId, view.sessionPublicKey) := by
  obtain ⟨seenRow, expiresAt, hseen, -, hgranted, hlineage, hsession⟩ :=
    authorizeDelegation_eq_ok hcheck
  obtain ⟨revoked, hrow⟩ := hkept.delegation id seenRow hseen
  have hactive : revoked = none := hcurrent _ hrow
  subst hactive
  have hremote : tables.delegation? id =
      some { seenRow.toDelegationRow with revokedSequence := none } := by
    rw [hmirror.delegation?, hrow]
    rfl
  -- The row is the one with which the checks of time were made.
  have hlog := hlogged.delegation? hrow
  obtain ⟨result, hresult⟩ := htimes
  have hsame : authorizeRemoteDelegation P tables id scope createdAt
      (truncateToMillis appendedAt) = .ok result := by
    rw [← hresult]
    unfold authorizeRemoteDelegation
    rw [hremote, hlog]
    rfl
  rw [hsame]
  unfold authorizeRemoteDelegation at hsame
  simp only [hremote, okOr_some, ok_bind, bind_eq_ok, pure_eq_ok, Except.ok.injEq] at hsame
  obtain ⟨-, -, -, -, -, -, -, -, rfl⟩ := hsame
  rw [hlineage, hsession]

theorem replay_contribution {store : ArtifactStore} {lineageId : String}
    {contribution : SignedContribution} (hmirror : MirrorsAuthority tables db)
    (hlogged : DelegationsLogged P db) (hkept : seen.AuthorityKept db)
    (hchecked : checkContribution P store contribution checkedAt seen = .ok lineageId)
    (hcurrent : ∀ row, db.delegation? contribution.delegationId = some row →
      row.revokedSequence = none)
    (henvelope : Envelope P (contributionInput P lineageId contribution) appendedAt
      accepted.sequence (contribution.toJson P) event)
    (hyear : FourDigitYear appendedAt)
    (hauthored : ceilToMillis (contribution.createdAt - clockSkew) ≤ appendedAt)
    (hexpiry : ∀ row, db.delegation? contribution.delegationId = some row →
      ∀ expiresAt, P.parseTimestamp row.expiresAt = .ok expiresAt →
        appendedAt < expiresAt + clockSkew + nanosPerMilli) :
    authorizeContribution P event tables = .ok (lineageId, contribution.canonical P) := by
  simp only [checkContribution, bind_eq_ok, pure_eq_ok, Except.ok.injEq] at hchecked
  obtain ⟨⟨⟩, hprotocol, ⟨⟩, hnonce, ⟨⟩, hlists, view, hauthorize, key, hkey, ⟨⟩,
    hsignature, ⟨⟩, -, rfl⟩ := hchecked
  obtain ⟨htime, hwindow⟩ := (delegated_timeChecks hlogged hkept hauthorize
    appendedAt).mpr ⟨hauthored, hexpiry⟩
  have hmetadata : requireRemoteEventMetadata P event (some view.lineageId)
      (some contribution.delegationId) contribution.createdAt = .ok () :=
    requireRemoteEventMetadata_eq_ok henvelope.lineage henvelope.delegation
      henvelope.created henvelope.received hyear
  have hkind : event.kind = contribution.kind.asStr := henvelope.kind
  have hremote := authorizeRemoteDelegation_of_active hmirror hkept hauthorize hcurrent
    hwindow hlogged
  unfold authorizeContribution
  simp only [henvelope.canonical, SignedContribution.ofJson_canon, okOr_some, ok_bind,
    SignedContribution.verifyObject_canonical]
  simp only [SignedContribution.canonical, requireRemoteProtocol_eq_ok hprotocol, hnonce,
    hlists, hkind, ne_eq, not_true_eq_false, henvelope.receivedAt hyear, htime, hremote,
    hmetadata, hkey, hsignature, ok_bind]
  rfl

theorem replay_acknowledgement {lineageId : String}
    {acknowledgement : SignedAcknowledgement} (hmirror : MirrorsAuthority tables db)
    (hlogged : DelegationsLogged P db) (hkept : seen.AuthorityKept db)
    (hchecked : checkAcknowledgement P acknowledgement checkedAt seen = .ok lineageId)
    (hcurrent : ∀ row, db.delegation? acknowledgement.delegationId = some row →
      row.revokedSequence = none)
    (hcursor : acknowledgement.cursor ≤ 2 ^ 53)
    (henvelope : Envelope P (acknowledgementInput P lineageId acknowledgement) appendedAt
      accepted.sequence (acknowledgement.toJson P) event)
    (hyear : FourDigitYear appendedAt)
    (hauthored : ceilToMillis (acknowledgement.createdAt - clockSkew) ≤ appendedAt)
    (hexpiry : ∀ row, db.delegation? acknowledgement.delegationId = some row →
      ∀ expiresAt, P.parseTimestamp row.expiresAt = .ok expiresAt →
        appendedAt < expiresAt + clockSkew + nanosPerMilli) :
    authorizeAcknowledgement P event tables = .ok acknowledgement := by
  simp only [checkAcknowledgement, bind_eq_ok, pure_eq_ok, Except.ok.injEq,
    rejectIf_eq_ok, not_lt] at hchecked
  obtain ⟨⟨⟩, hprotocol, ⟨⟩, hnonce, -, hpositive, ⟨⟩, hmemory, view, hauthorize, key, hkey,
    ⟨⟩, hsignature, rfl⟩ := hchecked
  obtain ⟨htime, hwindow⟩ := (delegated_timeChecks hlogged hkept hauthorize
    appendedAt).mpr ⟨hauthored, hexpiry⟩
  have hmetadata : requireRemoteEventMetadata P event (some view.lineageId)
      (some acknowledgement.delegationId) acknowledgement.createdAt = .ok () :=
    requireRemoteEventMetadata_eq_ok henvelope.lineage henvelope.delegation
      henvelope.created henvelope.received hyear
  have hremote := authorizeRemoteDelegation_of_active hmirror hkept hauthorize hcurrent
    hwindow hlogged
  have hkeeps : KeepsCursor P acknowledgement.cursor :=
    keepsCursor_of_abs_le P (by rw [abs_of_nonneg hpositive]; exact hcursor)
  unfold authorizeAcknowledgement
  simp only [henvelope.canonical, SignedAcknowledgement.ofJson_canon P hkeeps, okOr_some,
    ok_bind, requireRemoteProtocol_eq_ok hprotocol, hnonce, hmemory,
    henvelope.receivedAt hyear, htime, hremote, hmetadata, hkey, hsignature, pure_eq_ok]

end

/-! ## Every run -/

theorem Appended.envelope {input : EventInput} {appendedAt : ℤ} {db next : Db}
    {row : EventRow} {accepted : AcceptedObject}
    (h : Appended P identity input appendedAt db row accepted next) (value : Json)
    (hvalue : input.canonicalJson = P.jcs value) :
    ∃ event, originEvent P row = .ok event ∧
      Envelope P input appendedAt accepted.sequence value event := by
  have hok : isOk (originEvent P row) := by
    obtain ⟨-, -, -, -, -, -, hjson⟩ := h.columns
    simp [originEvent, hjson, hvalue]
  obtain ⟨event, hevent⟩ := hok
  obtain ⟨hsequence, -, hkind, hlineage, hdelegation, hcreated, hreceived, hcanonical⟩ :=
    h.originEvent_eq value hvalue hevent
  have haccepted : event.sequence = accepted.sequence := by
    rw [hsequence, h.accepted_eq]
  exact ⟨event, hevent, haccepted, hkind, hlineage, hdelegation, hcreated, hreceived,
    hcanonical⟩

/-- The log replays, and what an importer derives from it mirrors the tables of
the node. -/
structure ReplaysAuthority (P : Primitives) (db : Db) : Prop where
  logged : DelegationsLogged P db
  replays : ∃ tables, foldState (replayRow P) .empty db.events = .ok tables ∧
    MirrorsAuthority tables db

theorem ReplaysAuthority.congr {db next : Db} (h : ReplaysAuthority P db)
    (hevents : next.events = db.events) (hauthority : next.authority = db.authority) :
    ReplaysAuthority P next := by
  obtain ⟨hlogged, tables, hreplay, hmirror⟩ := h
  refine ⟨?_, tables, by rw [hevents]; exact hreplay, hmirror.congr hauthority⟩
  unfold DelegationsLogged
  rw [hevents, hauthority]
  exact hlogged

theorem foldState_append_singleton {α β ε : Type} {f : α → β → Except ε α}
    {first next last : α} {items : List β} {item : β}
    (h : foldState f first items = .ok next) (hlast : f next item = .ok last) :
    foldState f first (items ++ [item]) = .ok last := by
  rw [foldState_append, h]
  simp [foldState, hlast]

/-- An event of the collector or of an import says nothing about authority. -/
theorem ReplaysAuthority.append {db next : Db} (h : ReplaysAuthority P db)
    {event : OriginEvent} (row : EventRow) (hevents : next.events = db.events ++ [row])
    (hauthority : next.authority = db.authority) (hevent : originEvent P row = .ok event)
    (hkind : isCollected event.kind = true) (hsame : event.kind = row.kind) :
    ReplaysAuthority P next := by
  obtain ⟨hlogged, tables, hreplay, hmirror⟩ := h
  refine ⟨hlogged.append hevents hauthority ?_, tables, ?_, hmirror.congr hauthority⟩
  · intro hregistered
    rw [hsame, hregistered] at hkind
    exact absurd hkind (by decide)
  · rw [hevents]
    refine foldState_append_singleton hreplay ?_
    simp only [isCollected, Bool.or_eq_true, beq_iff_eq] at hkind
    unfold replayRow replayAuthority
    rw [hevent]
    rcases hkind with hkind | hkind
    · simp only [ok_bind, hkind, pure_eq_ok]
    · simp only [ok_bind, hkind, pure_eq_ok]

theorem replayAuthority_contribution {event : OriginEvent} {tables : OriginTables}
    (kind : ContributionKind) (hkind : event.kind = kind.asStr) :
    replayAuthority P event tables = (do
      let _ ← authorizeContribution P event tables
      pure tables) := by
  unfold replayAuthority
  rw [hkind]
  cases kind <;> rfl

/-- The event of a call which found the authority under which it was checked. -/
theorem ReplaysAuthority.commit {call : PendingCall} {db next : Db} {appendedAt : ℤ}
    {row : EventRow} {accepted : AcceptedObject} (h : ReplaysAuthority P db)
    (hsound : call.Sound P db) (htimely : call.Timely P db appendedAt)
    (hcurrent : call.Current db)
    (hcommitted : Committed P identity call.admitted appendedAt db row accepted next) :
    ReplaysAuthority P next := by
  obtain ⟨hlogged, tables, hreplay, hmirror⟩ := h
  obtain ⟨hchecked, hkept⟩ := hsound
  obtain ⟨hyear, hauthored, hexpiry⟩ := htimely
  refine ⟨hlogged.commit hchecked hcommitted, ?_⟩
  obtain ⟨logged, happended, -⟩ := hcommitted.appended
  have heffect := hcommitted.effect
  rw [hcommitted.events]
  have hfold : ∀ event after, originEvent P row = .ok event →
      replayAuthority P event tables = .ok after → MirrorsAuthority after next →
      ∃ tables, foldState (replayRow P) .empty (db.events ++ [row]) = .ok tables ∧
        MirrorsAuthority tables next := by
    intro event after hevent hafter hmirrors
    refine ⟨after, foldState_append_singleton hreplay ?_, hmirrors⟩
    unfold replayRow
    rw [hevent]
    exact hafter
  obtain ⟨admitted, checkedAt, seen⟩ := call
  cases admitted with
  | registerLineage lineageId registration =>
      obtain ⟨event, hevent, henvelope⟩ :=
        happended.envelope (registration.toJson P) rfl
      obtain ⟨after, hafter, hmirrors⟩ := replay_registration hmirror hchecked henvelope
        hyear hauthored heffect
      refine hfold event after hevent ?_ hmirrors
      simp only [replayAuthority, henvelope.kind, Admitted.input, registrationInput, hafter]
  | registerDelegation id delegation =>
      obtain ⟨event, hevent, henvelope⟩ := happended.envelope (delegation.toJson P) rfl
      obtain ⟨after, hafter, hmirrors⟩ := replay_delegation hmirror hchecked hcurrent
        henvelope hyear hauthored heffect
      refine hfold event after hevent ?_ hmirrors
      simp only [replayAuthority, henvelope.kind, Admitted.input, delegationInput, hafter]
  | revokeDelegation revocation =>
      obtain ⟨event, hevent, henvelope⟩ := happended.envelope (revocation.toJson P) rfl
      obtain ⟨after, hafter, hmirrors⟩ := replay_revocation hmirror hchecked hkept hcurrent
        henvelope hyear hauthored heffect
      refine hfold event after hevent ?_ hmirrors
      simp only [replayAuthority, henvelope.kind, Admitted.input, revocationInput, hafter]
  | rotateLineageKey rotation =>
      obtain ⟨event, hevent, henvelope⟩ := happended.envelope (rotation.toJson P) rfl
      obtain ⟨after, hafter, hmirrors⟩ := replay_rotation hmirror hchecked henvelope
        hyear hauthored heffect
      refine hfold event after hevent ?_ hmirrors
      simp only [replayAuthority, henvelope.kind, Admitted.input, rotationInput, hafter]
  | appendContribution lineageId contribution =>
      obtain ⟨event, hevent, henvelope⟩ := happended.envelope (contribution.toJson P) rfl
      obtain ⟨store, hcheck⟩ := hchecked
      have hauthorized := replay_contribution hmirror hlogged hkept hcheck hcurrent
        henvelope hyear hauthored (hexpiry _ rfl)
      have hsame : next.authority = db.authority := by
        generalize next.authority = authority at heffect
        cases heffect
        rfl
      refine hfold event tables hevent ?_ (hmirror.congr hsame)
      rw [replayAuthority_contribution contribution.kind henvelope.kind, hauthorized]
      rfl
  | appendAcknowledgement lineageId acknowledgement =>
      obtain ⟨event, hevent, henvelope⟩ :=
        happended.envelope (acknowledgement.toJson P) rfl
      have hauthorized := replay_acknowledgement hmirror hlogged hkept hchecked hcurrent.1
        hcurrent.2 henvelope hyear hauthored (hexpiry _ rfl)
      generalize hauthority : next.authority = authority at heffect
      cases heffect with
      | appendAcknowledgement _ _ acknowledgements =>
          refine hfold event tables hevent ?_ ?_
          · simp only [replayAuthority, henvelope.kind, Admitted.input,
              acknowledgementInput, hauthorized, ok_bind, pure_eq_ok]
          · constructor
            · rw [hauthority]
              exact hmirror.lineages
            · rw [hauthority]
              exact hmirror.lineageKeys
            · rw [hauthority]
              exact hmirror.delegations
            · rw [hauthority]
              exact hmirror.owned
            · rw [hauthority]
              exact hmirror.distinct

theorem run_replaysAuthority (P : Primitives) (identity : NodeIdentity P)
    (actions : List Action)
    (hmeet : CommitsMeet P identity (fun call db appendedAt =>
      call.Timely P db appendedAt ∧ call.Current db) actions) :
    ReplaysAuthority P (NodeState.run P identity actions).db := by
  induction actions using List.reverseRecOn with
  | nil =>
      refine ⟨rfl, .empty, rfl, rfl, rfl, rfl, ?_, List.nodup_nil⟩
      intro key hkey
      cases hkey
  | append_singleton actions action ih =>
      have hbefore := ih hmeet.of_append
      have hpending := run_pendingSound P identity actions
      have hlast := fun index appendedAt call accepted next hindex =>
        hmeet actions index appendedAt [] call accepted next hindex
      rw [NodeState.run_append_singleton]
      generalize NodeState.run P identity actions = node at hbefore hpending hlast
      have hsteps := node.step_steps identity action
      generalize node.step P identity action = next at hsteps
      cases hsteps with
      | idle => exact hbefore
      | pend => exact hbefore
      | abort => exact hbefore
      | commit index appendedAt call accepted next hcall hcommit =>
          obtain ⟨row, hcommitted⟩ := Admitted.commit_eq_ok hcommit
          obtain ⟨htimely, hcurrent⟩ :=
            hlast index appendedAt call accepted next rfl hcall hcommit
          exact hbefore.commit (hpending call (List.mem_of_getElem? hcall)) htimely hcurrent
            hcommitted
      | observe sourceId languages feed retrievedAt entry appendedAt canonicalUrl
          observation accepted next hurl hobservation hnew happend =>
          obtain ⟨row, logged, happended, hsame⟩ :=
            (Db.appendObservation_logs identity observation appendedAt hnew _
              happend).appended
          obtain ⟨event, hevent, henvelope⟩ := happended.envelope
            ((observationEnvelope (node.db.observationPayload P observation)).toJson P) rfl
          have hevents : next.events = node.db.events ++ [row] := by
            rw [hsame.events, happended.events]
          refine hbefore.append row hevents (Db.appendObservation_authority happend) hevent
            ?_ ?_
          · rw [henvelope.kind]
            rfl
          · rw [henvelope.kind, happended.columns.2.1]
      | markSourceFetch sourceId success => exact hbefore.congr rfl rfl
      | importBundle bundle observedAt now appendedAt =>
          obtain ⟨hsame, hevents⟩ := importFederationBundle_frame identity bundle observedAt
            now appendedAt node.db
          rcases hevents with hkept | ⟨base, accepted, logged, hbase, happend, hnext⟩
          · exact hbefore.congr hkept hsame.authority
          · obtain ⟨row, happended⟩ := appendEvent_eq_ok happend
            obtain ⟨event, hevent, henvelope⟩ := happended.envelope
              ((makeCheckpointWitness P identity bundle observedAt).toJson P) rfl
            refine hbefore.append row ?_ hsame.authority hevent ?_ ?_
            · simp only [hnext, happended.events, hbase]
            · rw [henvelope.kind]
              rfl
            · rw [henvelope.kind, happended.columns.2.1]

/-- In every run whose calls find in their transactions the authority under
which they were checked, an importer which has replayed the log before an
event accepts the authority of the event. -/
theorem run_authorizes (P : Primitives) (identity : NodeIdentity P)
    (actions : List Action)
    (hmeet : CommitsMeet P identity (fun call db appendedAt =>
      call.Timely P db appendedAt ∧ call.Current db) actions) :
    ∀ before row after,
      (NodeState.run P identity actions).db.events = before ++ row :: after →
      ∃ event tables, originEvent P row = .ok event ∧
        foldState (replayRow P) .empty before = .ok tables ∧
        isOk (replayAuthority P event tables) := by
  intro before row after hevents
  obtain ⟨-, final, hreplay, -⟩ := run_replaysAuthority P identity actions hmeet
  rw [hevents, foldState_append] at hreplay
  simp only [bind_eq_ok, foldState, replayRow] at hreplay
  obtain ⟨tables, hbefore, next, ⟨event, hevent, hnext⟩, -⟩ := hreplay
  exact ⟨event, tables, hevent, hbefore, next, hnext⟩

end

namespace Sample

/-- The delegations which a commitment at the instant zero may find. -/
def InForce (db : Db) : Prop :=
  ∀ row ∈ db.authority.delegations, row.revokedSequence = none ∧
    ∀ expiresAt ∈ (library.parseTimestamp row.expiresAt).toOption,
      0 < expiresAt + clockSkew + nanosPerMilli

theorem timely_firstDelegation (id : String) (seen db : Db) :
    PendingCall.Timely library ⟨.registerDelegation id firstDelegation, 0, seen⟩ db 0 := by
  have hcreated : ceilToMillis (firstDelegation.notBefore - clockSkew) ≤ 0 := by decide
  refine ⟨by decide, hcreated, ?_⟩
  intro id hid
  cases hid

theorem commitment_meets (lineageId : String) (seen db : Db) (h : InForce db) :
    PendingCall.Timely library
      ⟨.appendContribution lineageId (commitment oneHour), 0, seen⟩ db 0 ∧
    PendingCall.Current ⟨.appendContribution lineageId (commitment oneHour), 0, seen⟩ db := by
  have hcreated : ceilToMillis ((commitment oneHour).createdAt - clockSkew) ≤ 0 := by decide
  refine ⟨⟨by decide, hcreated, ?_⟩, ?_⟩
  · intro id _ row hrow expiresAt hexpires
    refine (h row (List.mem_of_find?_eq_some hrow)).2 expiresAt ?_
    rw [hexpires]
    rfl
  · intro row hrow
    exact (h row (List.mem_of_find?_eq_some hrow)).1

instance inForce_firstDelegation : Fact (InForce (NodeState.run library origin
    ([] ++ [.check (.registerLineage firstRegistration) 0, .commit 0 0] ++
      [.check (.registerDelegation firstDelegation) 0, .commit 0 0])).db) :=
  ⟨by unfold InForce; decide +kernel⟩

theorem commitsMeet_commitmentRun :
    CommitsMeet library origin (fun call db appendedAt =>
      call.Timely library db appendedAt ∧ call.Current db) (commitmentRun oneHour) := by
  have hempty : (NodeState.run library origin []).pending = [] := rfl
  unfold commitmentRun
  refine ((CommitsMeet.nil.atOnce hempty ?_).atOnce (pending_atOnce hempty) ?_).atOnce
    (pending_atOnce (pending_atOnce hempty)) ?_
  · intro admitted hcheck
    simp only [Call.check, bind_eq_ok, pure_eq_ok, Except.ok.injEq] at hcheck
    obtain ⟨lineageId, -, rfl⟩ := hcheck
    exact ⟨timely_firstRegistration lineageId _ _, trivial⟩
  · intro admitted hcheck
    simp only [Call.check, bind_eq_ok, pure_eq_ok, Except.ok.injEq] at hcheck
    obtain ⟨id, -, rfl⟩ := hcheck
    refine ⟨timely_firstDelegation id _ _, ?_⟩
    simp only [PendingCall.Current]
  · intro admitted hcheck
    simp only [Call.check, bind_eq_ok, pure_eq_ok, Except.ok.injEq] at hcheck
    obtain ⟨lineageId, -, rfl⟩ := hcheck
    exact commitment_meets lineageId _ _ inForce_firstDelegation.out

instance length_commitmentRun : Fact ((NodeState.run library origin
    (commitmentRun oneHour)).db.events.length = 3) :=
  ⟨by decide +kernel⟩

/-- An importer accepts the commitment. -/
theorem run_authorizes_commitment :
    ∃ before row event tables,
      (NodeState.run library origin (commitmentRun oneHour)).db.events = before ++ [row] ∧
      before.length = 2 ∧ originEvent library row = .ok event ∧
      foldState (replayRow library) .empty before = .ok tables ∧
      isOk (replayAuthority library event tables) := by
  obtain ⟨first, second, row, hrows⟩ := List.length_eq_three.mp length_commitmentRun.out
  have hsplit : (NodeState.run library origin (commitmentRun oneHour)).db.events =
      [first, second] ++ [row] := hrows
  obtain ⟨event, tables, hevent, hbefore, haccepts⟩ := run_authorizes library origin
    (commitmentRun oneHour) commitsMeet_commitmentRun [first, second] row [] hsplit
  exact ⟨[first, second], row, event, tables, hsplit, rfl, hevent, hbefore, haccepts⟩

def firstRevocation : DelegationRevocation :=
  revocation [2] firstDelegation "The session has ended." 0 "fedcba9876543210"

/-- The delegation is revoked between the check of a commitment and its
transaction. -/
def overtakenRun : List Action :=
  atOnce (.registerLineage firstRegistration) 0 ++
    atOnce (.registerDelegation firstDelegation) 0 ++
    [.check (.acceptContribution noArtifacts (commitment oneHour)) 0,
      .check (.revokeDelegation firstRevocation) 0, .commit 1 0, .commit 0 0]

instance replays_overtakenRun : Fact (
    (NodeState.run library origin overtakenRun).db.events.map (·.kind) =
      ["lineage_registered", "delegation_registered", "delegation_revoked",
        "commitment"] ∧
    isOk (foldState (replayRow library) .empty
      ((NodeState.run library origin overtakenRun).db.events.take 3)) ∧
    ¬ isOk (foldState (replayRow library) .empty
      (NodeState.run library origin overtakenRun).db.events)) :=
  ⟨by decide +kernel⟩

/-- The log of four events replays up to the commitment, and no further. -/
theorem run_authorizes_not_overtaken :
    (NodeState.run library origin overtakenRun).db.events.map (·.kind) =
      ["lineage_registered", "delegation_registered", "delegation_revoked",
        "commitment"] ∧
    isOk (foldState (replayRow library) .empty
      ((NodeState.run library origin overtakenRun).db.events.take 3)) ∧
    ¬ isOk (foldState (replayRow library) .empty
      (NodeState.run library origin overtakenRun).db.events) :=
  replays_overtakenRun.out

end Sample

end Commonwake
