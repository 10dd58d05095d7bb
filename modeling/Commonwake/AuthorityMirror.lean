import Commonwake.KeyHistory

/-!
# The history of the keys at an importer

The authority part of `validate_and_project_remote_event` is written
independently of the calls of the node.  Whenever it accepts the events of a
log, it leaves the same lineages, keys and delegations.
-/

namespace Commonwake

open Outcome Table HashChain

section

variable {P : Primitives} {identity : NodeIdentity P} {origin : String}

/-! ## One event of each kind -/

section

variable {tables after : OriginTables} {event : OriginEvent} {appendedAt sequence : ℤ}
  {nonce : Option String}

theorem projectRegistration_tables {lineageId : String} {registration : LineageRegistration}
    {checkedAt : ℤ}
    (henvelope : Envelope P (registrationInput P lineageId registration) appendedAt sequence
      (registration.toJson P) event)
    (hchecked : checkRegisterLineage P registration checkedAt = .ok lineageId)
    (h : projectRegistration P event tables = .ok (nonce, after)) :
    after = { tables with
      lineages := tables.lineages ++
        [{ registeredLineage P lineageId registration sequence with keyVersion := 0 }]
      lineageKeys := tables.lineageKeys ++
        [registeredKey lineageId registration sequence] } := by
  simp only [checkRegisterLineage, bind_eq_ok, pure_eq_ok, Except.ok.injEq] at hchecked
  obtain ⟨⟨⟩, -, ⟨⟩, -, ⟨⟩, -, ⟨⟩, -, key, hkey, ⟨⟩, -, rfl⟩ := hchecked
  unfold projectRegistration at h
  simp only [henvelope.canonical, LineageRegistration.ofJson_canon, okOr_some, ok_bind, hkey,
    henvelope.sequence, bind_eq_ok, insertNew_eq_ok, pure_eq_ok, Except.ok.injEq,
    Prod.mk.injEq] at h
  obtain ⟨-, -, -, -, -, -, -, -, -, -, -, -, -, -, -, -, lineages, ⟨-, rfl⟩, keys,
    ⟨-, rfl⟩, -, rfl⟩ := h
  rfl

theorem projectDelegation_tables {id : String} {delegation : SessionDelegation}
    (henvelope : Envelope P (delegationInput P id delegation) appendedAt sequence
      (delegation.toJson P) event) (hid : delegationId P delegation = id)
    (h : projectDelegation P event tables = .ok (nonce, after)) :
    after = { tables with
      delegations := tables.delegations ++ [delegationRow P id delegation sequence] } := by
  unfold projectDelegation at h
  simp only [henvelope.canonical, SessionDelegation.ofJson_canon, okOr_some, ok_bind,
    henvelope.sequence, bind_eq_ok, insertNew_eq_ok, pure_eq_ok, Except.ok.injEq,
    Prod.mk.injEq] at h
  obtain ⟨-, -, -, -, -, -, -, -, -, -, -, -, delegations, ⟨-, rfl⟩, -, rfl⟩ := h
  rw [hid]

theorem projectRevocation_tables {revocation : DelegationRevocation}
    (henvelope : Envelope P (revocationInput P revocation) appendedAt sequence
      (revocation.toJson P) event)
    (h : projectRevocation P event tables = .ok (nonce, after)) :
    after = { tables with
      delegations := updateWhere (fun row => row.delegationId == revocation.delegationId &&
          row.lineageId == revocation.lineageId && row.revokedSequence.isNone)
        (fun row => { row with revokedSequence := some sequence }) tables.delegations } := by
  unfold projectRevocation at h
  simp only [henvelope.canonical, DelegationRevocation.ofJson_canon, okOr_some, ok_bind,
    henvelope.sequence, bind_eq_ok, pure_eq_ok, Except.ok.injEq, Prod.mk.injEq] at h
  obtain ⟨-, -, -, -, -, -, -, -, -, -, -, -, -, -, -, rfl⟩ := h
  rfl

theorem projectRotation_tables {rotation : SignedKeyRotation}
    (henvelope : Envelope P (rotationInput P rotation) appendedAt sequence
      (rotation.toJson P) event)
    (h : projectRotation P event tables = .ok (nonce, after)) :
    ∃ lineage, tables.lineage? rotation.statement.lineageId = some lineage ∧
      after = { tables with
        lineages := updateWhere (fun row => row.lineageId == rotation.statement.lineageId)
          (fun row => { row with
            publicKey := rotation.statement.newPublicKey
            keyVersion := lineage.keyVersion + 1 }) tables.lineages
        lineageKeys := closeKeys rotation.statement.lineageId sequence tables.lineageKeys ++
          [⟨rotation.statement.lineageId, lineage.keyVersion + 1,
            rotation.statement.newPublicKey, sequence, none⟩]
        delegations :=
          if rotation.statement.revokeExistingDelegations then
            updateWhere (fun row => row.lineageId == rotation.statement.lineageId &&
                row.revokedSequence.isNone)
              (fun row => { row with revokedSequence := some sequence }) tables.delegations
          else tables.delegations } := by
  unfold projectRotation at h
  simp only [henvelope.canonical, SignedKeyRotation.ofJson_canon, okOr_some, ok_bind,
    henvelope.sequence, bind_eq_ok, okOr_eq_ok, insertNew_eq_ok, pure_eq_ok,
    Except.ok.injEq, Prod.mk.injEq] at h
  obtain ⟨-, -, -, -, -, -, -, -, lineage, hlineage, -, -, -, -, -, -, -, -, -, -, -, -, -, -,
    keys, ⟨-, rfl⟩, -, rfl⟩ := h
  exact ⟨lineage, hlineage, rfl⟩

end

/-! ## The log -/

theorem MirrorsAuthority.sameTables {tables next : OriginTables} {db : Db}
    (h : MirrorsAuthority tables db) (hlineages : next.lineages = tables.lineages)
    (hkeys : next.lineageKeys = tables.lineageKeys)
    (hdelegations : next.delegations = tables.delegations) : MirrorsAuthority next db :=
  ⟨hlineages.trans h.lineages, hkeys.trans h.lineageKeys,
    hdelegations.trans h.delegations, h.owned, h.distinct⟩

section

variable {before : OriginTables} {commons : CommonsTables} {db next : Db}
  {imported : ImportState} {row : EventRow} {event : OriginEvent} {appendedAt : ℤ}
  {accepted : AcceptedObject}

/-- An event which an importer records without touching the authority tables. -/
theorem MirrorsAuthority.recorded (h : MirrorsAuthority before db)
    (hauthority : next.authority = db.authority)
    (hsame : ∀ nonce projected,
      validateAndProjectRemoteEvent P origin event ⟨before, commons⟩ =
        .ok (nonce, projected) → before.OnlyContent event.sequence projected.tables)
    (hstore : projectAndStore P origin event ⟨before, commons⟩ = .ok imported) :
    MirrorsAuthority imported.tables next := by
  obtain ⟨nonce, projected, hproject, rfl⟩ := projectAndStore_eq_ok hstore
  have honly := hsame nonce projected hproject
  exact (h.congr hauthority).sameTables honly.lineages honly.lineageKeys honly.delegations

theorem MirrorsAuthority.observation (h : MirrorsAuthority before db)
    (hauthority : next.authority = db.authority) (hkind : event.kind = "observation")
    (hstore : projectAndStore P origin event ⟨before, commons⟩ = .ok imported) :
    MirrorsAuthority imported.tables next := by
  refine h.recorded hauthority ?_ hstore
  intro nonce projected hproject
  unfold validateAndProjectRemoteEvent at hproject
  simp only [hkind, bind_eq_ok, pure_eq_ok, Except.ok.injEq, Prod.mk.injEq] at hproject
  obtain ⟨tables, htables, -, rfl⟩ := hproject
  exact projectObservation_onlyContent event before tables htables

theorem MirrorsAuthority.witness (h : MirrorsAuthority before db)
    (hauthority : next.authority = db.authority)
    (hkind : event.kind = "checkpoint_witnessed")
    (hstore : projectAndStore P origin event ⟨before, commons⟩ = .ok imported) :
    MirrorsAuthority imported.tables next := by
  refine h.recorded hauthority ?_ hstore
  intro nonce projected hproject
  unfold validateAndProjectRemoteEvent at hproject
  simp only [hkind, bind_eq_ok, pure_eq_ok, Except.ok.injEq, Prod.mk.injEq] at hproject
  obtain ⟨⟨⟩, -, -, rfl⟩ := hproject
  exact .refl _ before

/-- The event of a call, when the importer has recorded it. -/
theorem MirrorsAuthority.commit {call : PendingCall} (h : MirrorsAuthority before db)
    (hsound : call.Sound P db)
    (hcommitted : Committed P identity call.admitted appendedAt db row accepted next)
    (hevent : originEvent P row = .ok event)
    (hstore : projectAndStore P origin event ⟨before, commons⟩ = .ok imported) :
    MirrorsAuthority imported.tables next := by
  have hchecked := hsound.checked
  have heffect := hcommitted.effect
  obtain ⟨logged, happended, -⟩ := hcommitted.appended
  obtain ⟨admitted, checkedAt, seen⟩ := call
  have henvelope : ∀ value, (admitted.input P).canonicalJson = P.jcs value →
      Envelope P (admitted.input P) appendedAt accepted.sequence value event := by
    intro value hvalue
    obtain ⟨same, hsame, henvelope⟩ := happended.envelope value hvalue
    rw [hevent, Except.ok.injEq] at hsame
    rw [hsame]
    exact henvelope
  obtain ⟨nonce, projected, hproject, hnext⟩ := projectAndStore_eq_ok hstore
  -- The stored row of the event is no matter here.
  have hstored : MirrorsAuthority projected.tables next →
      MirrorsAuthority imported.tables next := by
    intro hprojected
    rw [hnext]
    exact hprojected.sameTables rfl rfl rfl
  have hkind := happended.event_kind hevent
  cases admitted with
  | registerLineage lineageId registration =>
      unfold validateAndProjectRemoteEvent at hproject
      simp only [hkind, Admitted.input, registrationInput, bind_eq_ok, pure_eq_ok,
        Except.ok.injEq, Prod.mk.injEq, Prod.exists] at hproject
      obtain ⟨_, tables, htables, -, rfl⟩ := hproject
      refine hstored ?_
      simp only [projectRegistration_tables (henvelope _ rfl) hchecked htables]
      exact h.registration heffect
  | registerDelegation id delegation =>
      unfold validateAndProjectRemoteEvent at hproject
      simp only [hkind, Admitted.input, delegationInput, bind_eq_ok, pure_eq_ok,
        Except.ok.injEq, Prod.mk.injEq, Prod.exists] at hproject
      obtain ⟨_, tables, htables, -, rfl⟩ := hproject
      have hid : delegationId P delegation = id := by
        simp only [Admitted.Checked, checkRegisterDelegation, bind_eq_ok, pure_eq_ok,
          Except.ok.injEq] at hchecked
        obtain ⟨-, -, -, -, -, -, -, -, -, -, hid⟩ := hchecked
        exact hid
      refine hstored ?_
      simp only [projectDelegation_tables (henvelope _ rfl) hid htables]
      exact h.delegation heffect
  | revokeDelegation revocation =>
      unfold validateAndProjectRemoteEvent at hproject
      simp only [hkind, Admitted.input, revocationInput, bind_eq_ok, pure_eq_ok,
        Except.ok.injEq, Prod.mk.injEq, Prod.exists] at hproject
      obtain ⟨_, tables, htables, -, rfl⟩ := hproject
      refine hstored ?_
      simp only [projectRevocation_tables (henvelope _ rfl) htables]
      exact h.revocation heffect
  | rotateLineageKey rotation =>
      unfold validateAndProjectRemoteEvent at hproject
      simp only [hkind, Admitted.input, rotationInput, bind_eq_ok, pure_eq_ok,
        Except.ok.injEq, Prod.mk.injEq, Prod.exists] at hproject
      obtain ⟨_, tables, htables, -, rfl⟩ := hproject
      obtain ⟨lineage, hlineage, hafter⟩ := projectRotation_tables (henvelope _ rfl) htables
      refine hstored ?_
      have hversion : lineage.keyVersion + 1 = (rotatedKey db.authority.lineageKeys
          rotation.statement accepted.sequence).keyVersion := by
        rw [h.lineage?, Option.map_eq_some_iff] at hlineage
        obtain ⟨own, hown, rfl⟩ := hlineage
        have hid : own.lineageId = rotation.statement.lineageId := by
          simpa using List.find?_some hown
        simp [LineageRow.federated, rotatedKey, hid]
      simp only [hafter, hversion, h.lineageKeys]
      exact h.rotation heffect
  | appendContribution lineageId contribution =>
      have hsame : next.authority = db.authority := by
        generalize next.authority = authority at heffect
        cases heffect
        rfl
      have honly : before.OnlyContent event.sequence projected.tables := by
        rw [validateAndProjectRemoteEvent_contribution contribution.kind hkind] at hproject
        exact projectContribution_onlyContent origin event _ _ hproject
      exact hstored ((h.congr hsame).sameTables honly.lineages honly.lineageKeys
        honly.delegations)
  | appendAcknowledgement lineageId acknowledgement =>
      unfold validateAndProjectRemoteEvent at hproject
      simp only [hkind, Admitted.input, acknowledgementInput, bind_eq_ok, pure_eq_ok,
        Except.ok.injEq, Prod.mk.injEq] at hproject
      obtain ⟨_, -, -, rfl⟩ := hproject
      refine hstored ?_
      generalize hauthority : next.authority = authority at heffect
      cases heffect with
      | appendAcknowledgement _ _ acknowledgements =>
          constructor
          · rw [hauthority]
            exact h.lineages
          · rw [hauthority]
            exact h.lineageKeys
          · rw [hauthority]
            exact h.delegations
          · rw [hauthority]
            exact h.owned
          · rw [hauthority]
            exact h.distinct

end

theorem MirrorsAuthority.init (checkpoints : List RemoteCheckpointRow) :
    MirrorsAuthority { OriginTables.empty with remoteCheckpoints := checkpoints }
      (Db.init P identity.nodeId) := by
  refine ⟨rfl, rfl, rfl, ?_, List.nodup_nil⟩
  intro key hkey
  cases hkey

/-- An importer which has recorded the log of a node mirrors its authority
tables. -/
theorem History.mirrorsAuthority {commits : PendingCall → Db → ℤ → Prop}
    {entries : FeedEntry → Prop} {db : Db} (h : History P identity commits entries db)
    {events : List OriginEvent} {tables : OriginTables}
    (hevents : db.events.map (originEvent P) = events.map .ok)
    (himported : Imported P origin events tables) : MirrorsAuthority tables db := by
  induction h generalizing events tables with
  | init =>
      have hnil : events = [] := by simpa [Db.init] using hevents.symm
      subst hnil
      rw [himported.nil]
      exact .init _
  | quiet db next _ hquiet ih =>
      rw [hquiet.events] at hevents
      exact (ih hevents himported).congr hquiet.authority
  | commit db next call appendedAt row accepted hbefore hsound _ _ hcommitted ih =>
      rw [hcommitted.events] at hevents
      obtain ⟨front, event, rfl, hfront, hevent⟩ := map_eq_map_ok_append hevents
      obtain ⟨before, commons, imported, hbeforeImported, hstore, htables⟩ :=
        himported.last
      have hmirrors : MirrorsAuthority before db := ih hfront hbeforeImported
      have hnext := hmirrors.commit hsound hcommitted hevent hstore
      rw [htables]
      exact hnext.sameTables rfl rfl rfl
  | observe db next sourceId languages feed retrievedAt entry canonicalUrl appendedAt row
      accepted hbefore _ hobserved ih =>
      rw [hobserved.events] at hevents
      obtain ⟨front, event, rfl, hfront, hevent⟩ := map_eq_map_ok_append hevents
      obtain ⟨before, commons, imported, hbeforeImported, hstore, htables⟩ :=
        himported.last
      have hmirrors : MirrorsAuthority before db := ih hfront hbeforeImported
      obtain ⟨logged, happended, -⟩ := hobserved.appended
      have hnext := hmirrors.observation (Db.appendObservation_authority hobserved.append)
        (happended.event_kind hevent) hstore
      rw [htables]
      exact hnext.sameTables rfl rfl rfl
  | witness db next bundle observedAt appendedAt row _ hwitnessed ih =>
      rw [hwitnessed.events] at hevents
      obtain ⟨front, event, rfl, hfront, hevent⟩ := map_eq_map_ok_append hevents
      obtain ⟨before, commons, imported, hbeforeImported, hstore, htables⟩ :=
        himported.last
      have hmirrors : MirrorsAuthority before db := ih hfront hbeforeImported
      obtain ⟨base, accepted, logged, -, happended⟩ := hwitnessed.appended
      have hnext := hmirrors.witness hwitnessed.same.authority
        (happended.event_kind hevent) hstore
      rw [htables]
      exact hnext.sameTables rfl rfl rfl

/-! ## Every run -/

/-- Every prefix of the log was the log at some moment of the run. -/
theorem run_moment (actions : List Action) {rows : List EventRow}
    (h : rows <+: (NodeState.run P identity actions).db.events) :
    ∃ moment, moment <+: actions ∧ (NodeState.run P identity moment).db.events = rows := by
  induction actions using List.reverseRecOn with
  | nil =>
      refine ⟨[], List.nil_prefix, ?_⟩
      exact (List.prefix_nil.mp h).symm
  | append_singleton actions action ih =>
      rw [NodeState.run_append_singleton] at h
      have hearlier : rows <+: (NodeState.run P identity actions).db.events →
          ∃ moment, moment <+: actions ++ [action] ∧
            (NodeState.run P identity moment).db.events = rows := by
        intro hprefix
        obtain ⟨moment, hmoment, hrows⟩ := ih hprefix
        exact ⟨moment, hmoment.trans (List.prefix_append _ _), hrows⟩
      rcases (NodeState.run P identity actions).step_cursor identity action "" with
        ⟨-, hkept | ⟨row, hevents, -⟩⟩ |
        ⟨index, appendedAt, call, acknowledgement, row, accepted, -, -, -, -, hack⟩
      · rw [hkept] at h
        exact hearlier h
      · rw [hevents, List.prefix_concat_iff] at h
        rcases h with hall | hprefix
        · refine ⟨actions ++ [action], List.prefix_rfl, ?_⟩
          rw [NodeState.run_append_singleton, hevents, hall]
        · exact hearlier hprefix
      · rw [hack.events, List.prefix_concat_iff] at h
        rcases h with hall | hprefix
        · refine ⟨actions ++ [action], List.prefix_rfl, ?_⟩
          rw [NodeState.run_append_singleton, hack.events, hall]
        · exact hearlier hprefix

theorem run_authorityKept (actions rest : List Action) :
    (NodeState.run P identity actions).db.AuthorityKept
      (NodeState.run P identity (actions ++ rest)).db := by
  induction rest using List.reverseRecOn with
  | nil =>
      rw [List.append_nil]
      exact .refl _
  | append_singleton rest action ih =>
      rw [← List.append_assoc, NodeState.run_append_singleton]
      exact ih.trans (NodeState.step_authorityKept identity _ action)

/-- A later log has the same first revocation. -/
theorem firstRevocation_of_append {events added : List EventRow} {delegation : DelegationRow}
    {sequence : ℤ} (h : firstRevocation P events delegation = some sequence) :
    firstRevocation P (events ++ added) delegation = some sequence := by
  unfold firstRevocation at h ⊢
  rw [Option.map_eq_some_iff] at h
  obtain ⟨row, hrow, hsequence⟩ := h
  rw [List.find?_append, hrow]
  exact congrArg some hsequence

/-- A revoked delegation stays revoked by the same event. -/
theorem run_revoked_kept (actions rest : List Action) {delegation : LocalDelegationRow}
    (hdelegation : delegation ∈ (NodeState.run P identity actions).db.authority.delegations)
    (hrevoked : delegation.revokedSequence ≠ none) :
    delegation ∈ (NodeState.run P identity (actions ++ rest)).db.authority.delegations := by
  obtain ⟨sequence, hsequence⟩ := Option.ne_none_iff_exists'.mp hrevoked
  have hbefore := (run_history_any P identity actions).keyHistory
  have hafter := (run_history_any P identity (actions ++ rest)).keyHistory
  have hfound : (NodeState.run P identity actions).db.delegation? delegation.delegationId =
      some delegation := find?_eq_some_of_nodup hbefore.delegations hdelegation
  obtain ⟨revoked, hlater⟩ := (run_authorityKept (P := P) actions rest).delegation _ _ hfound
  have hmem := List.mem_of_find?_eq_some hlater
  obtain ⟨added, hadded⟩ : ∃ added, (NodeState.run P identity (actions ++ rest)).db.events =
      (NodeState.run P identity actions).db.events ++ added := run_events_append actions rest
  have hfirst := hbefore.revocations delegation hdelegation
  rw [hsequence] at hfirst
  have hlast : firstRevocation P (NodeState.run P identity (actions ++ rest)).db.events
      delegation.toDelegationRow = some sequence := by
    rw [hadded]
    exact firstRevocation_of_append hfirst.symm
  -- The revocation is no part of what an event must match.
  have hsame : revoked = some sequence := (hafter.revocations _ hmem).trans hlast
  rw [hsame, ← hsequence] at hmem
  exact hmem

/-- The history of the keys and the delegations of a node, which every importer
of a prefix of its log shares. -/
theorem run_keyHistory (P : Primitives) (identity : NodeIdentity P) (actions : List Action) :
    KeyHistory P (NodeState.run P identity actions).db ∧
    (∀ before, before <+: actions →
      ∀ delegation ∈ (NodeState.run P identity before).db.authority.delegations,
        delegation.revokedSequence ≠ none →
        delegation ∈ (NodeState.run P identity actions).db.authority.delegations) ∧
    ∀ (importer : NodeIdentity P) (imports : List Action) (rows : List EventRow),
      rows <+: (NodeState.run P identity actions).db.events →
      (NodeState.run P importer imports).db.Holds P identity.nodeId rows →
      (∃ moment, moment <+: actions ∧ (NodeState.run P identity moment).db.events = rows) ∧
      ∀ moment, moment <+: actions → (NodeState.run P identity moment).db.events = rows →
        MirrorsAuthority ((NodeState.run P importer imports).db.origins identity.nodeId)
          (NodeState.run P identity moment).db := by
  refine ⟨(run_history_any P identity actions).keyHistory, ?_, ?_⟩
  · rintro before ⟨rest, rfl⟩ delegation hdelegation hrevoked
    exact run_revoked_kept before rest hdelegation hrevoked
  · intro importer imports rows hrows hholds
    refine ⟨run_moment actions hrows, ?_⟩
    rintro moment - rfl
    obtain ⟨events, hevents, himported⟩ := hholds.imported
    exact (run_history_any P identity moment).mirrorsAuthority hevents himported

end

end Commonwake
