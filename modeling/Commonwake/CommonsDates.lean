import Commonwake.CommonsReplay
import Commonwake.StoredInstants

/-!
# The dates of the commons

A contribution is accepted only within the validity of its delegation, and the
bounds of the validity are read back from the row of the delegation.  They can
be read only if they are instants of four-digit years, so the commons never
hold an instant which cannot be read.
-/

namespace Commonwake

open Outcome Table

section

variable (P : Primitives)

/-- The validity of the delegation is kept as the texts of two instants. -/
def DelegationRow.Written (row : DelegationRow) : Prop :=
  (∃ t, row.notBefore = P.timestamp t) ∧ ∃ t, row.expiresAt = P.timestamp t

/-- Every delegation is kept with the texts of its validity, and everything in
the commons can be read. -/
structure Db.CommonsDated (db : Db) : Prop where
  own : ∀ row ∈ db.authority.delegations, row.toDelegationRow.Written P
  others : ∀ origin, ∀ row ∈ (db.origins origin).delegations, row.Written P
  commons : db.commons.Readable P

end

section

variable {P : Primitives}

theorem four_digit_year_of_timestamp {t bound : ℤ}
    (h : P.parseTimestamp (P.timestamp t) = .ok bound) :
    FourDigitYear t ∧ bound = truncateToMillis t := by
  have hyear : FourDigitYear t := (P.isOk_parseTimestamp_timestamp t).mp ⟨bound, h⟩
  rw [P.parseTimestamp_timestamp hyear, Except.ok.injEq] at h
  exact ⟨hyear, h.symm⟩

/-- What lies within a validity which can be read is in a four-digit year. -/
theorem DelegationRow.Written.four_digit_year {row : DelegationRow} (h : row.Written P)
    {notBefore expiresAt t : ℤ} (hnotBefore : P.parseTimestamp row.notBefore = .ok notBefore)
    (hexpiresAt : P.parseTimestamp row.expiresAt = .ok expiresAt) (hstart : notBefore ≤ t)
    (hend : t ≤ expiresAt) : FourDigitYear t := by
  obtain ⟨⟨first, hfirst⟩, last, hlast⟩ := h
  rw [hfirst] at hnotBefore
  rw [hlast] at hexpiresAt
  have hlow := four_digit_year_of_timestamp hnotBefore
  have hhigh := four_digit_year_of_timestamp hexpiresAt
  have hbefore := truncateToMillis_le last
  have hafter := lt_truncateToMillis_add first
  unfold FourDigitYear truncateToMillis nanosPerMilli at *
  omega

theorem delegationRow_written (id : String) (delegation : SessionDelegation) (sequence : ℤ) :
    (delegationRow P id delegation sequence).Written P :=
  ⟨⟨delegation.notBefore, rfl⟩, delegation.expiresAt, rfl⟩

/-! ## The node -/

theorem revokeWhere_written {condition : LocalDelegationRow → Bool} {sequence : ℤ}
    {rows : List LocalDelegationRow} (h : ∀ row ∈ rows, row.toDelegationRow.Written P) :
    ∀ row ∈ revokeWhere condition sequence rows, row.toDelegationRow.Written P := by
  intro row hrow
  obtain ⟨old, hold, rfl⟩ := mem_updateWhere.mp hrow
  have hkept := h old hold
  split <;> exact hkept

theorem AuthorityEffect.written {db : Db} {accepted : AcceptedObject} {admitted : Admitted}
    {tables : AuthorityTables} (heffect : AuthorityEffect P db accepted admitted tables)
    (h : ∀ row ∈ db.authority.delegations, row.toDelegationRow.Written P) :
    ∀ row ∈ tables.delegations, row.toDelegationRow.Written P := by
  cases heffect with
  | registerLineage => exact h
  | registerDelegation id delegation =>
      rw [List.forall_mem_append, List.forall_mem_singleton]
      exact ⟨h, delegationRow_written id delegation accepted.sequence⟩
  | revokeDelegation => exact revokeWhere_written h
  | rotateLineageKey rotation lineage =>
      simp only
      split
      · exact revokeWhere_written h
      · exact h
  | appendContribution => exact h
  | appendAcknowledgement => exact h

/-- The node accepts a contribution within the validity of its delegation. -/
theorem PendingCall.Sound.four_digit_year {call : PendingCall} {db : Db} {lineageId : String}
    {contribution : SignedContribution} (h : call.Sound P db)
    (hcall : call.admitted = .appendContribution lineageId contribution)
    (hwritten : ∀ row ∈ db.authority.delegations, row.toDelegationRow.Written P) :
    FourDigitYear contribution.createdAt := by
  have hchecked := h.checked
  rw [hcall] at hchecked
  obtain ⟨store, hcheck⟩ := hchecked
  simp only [checkContribution, bind_eq_ok, pure_eq_ok] at hcheck
  obtain ⟨_, -, _, -, _, -, view, hauthorize, -⟩ := hcheck
  obtain ⟨seen, expiresAt, hseen, -, ⟨hexpiresAt, scopes, notBefore, -, hnotBefore, -, hstart,
    hend⟩, -⟩ := authorizeDelegation_eq_ok hauthorize
  -- The delegation may have been revoked since, its validity is as it was.
  obtain ⟨revoked, hrow⟩ := h.kept.delegation _ seen hseen
  have hkept := hwritten _ (List.mem_of_find?_eq_some hrow)
  exact hkept.four_digit_year hnotBefore hexpiresAt hstart hend

/-! ## The importer -/

section

variable {origin : String} {event : OriginEvent} {state next : ImportState}

theorem projectDelegation_written (tables : OriginTables)
    (h : ∀ row ∈ tables.delegations, row.Written P) :
    Ensures (projectDelegation P event tables)
      fun result => ∀ row ∈ result.2.delegations, row.Written P := by
  intro result hresult
  simp only [projectDelegation, bind_eq_ok, okOr_eq_ok, insertNew_eq_ok, pure_eq_ok,
    Except.ok.injEq] at hresult
  obtain ⟨delegation, -, _, -, _, -, _, -, _, -, _, -, _, -, _, ⟨-, rfl⟩, rfl⟩ := hresult
  rw [List.forall_mem_append, List.forall_mem_singleton]
  exact ⟨h, delegationRow_written _ delegation event.sequence⟩

theorem updateWhere_written {condition : DelegationRow → Bool} {sequence : ℤ}
    {rows : List DelegationRow} (h : ∀ row ∈ rows, row.Written P) :
    ∀ row ∈ updateWhere condition (fun row => { row with revokedSequence := some sequence })
      rows, row.Written P := by
  intro row hrow
  obtain ⟨old, hold, rfl⟩ := mem_updateWhere.mp hrow
  have hkept := h old hold
  split <;> exact hkept

theorem projectRegistration_written (tables : OriginTables)
    (h : ∀ row ∈ tables.delegations, row.Written P) :
    Ensures (projectRegistration P event tables)
      fun result => ∀ row ∈ result.2.delegations, row.Written P := by
  unfold projectRegistration
  repeat refine Ensures.bind fun _ => ?_
  exact .pure h

theorem projectRevocation_written (tables : OriginTables)
    (h : ∀ row ∈ tables.delegations, row.Written P) :
    Ensures (projectRevocation P event tables)
      fun result => ∀ row ∈ result.2.delegations, row.Written P := by
  unfold projectRevocation
  repeat refine Ensures.bind fun _ => ?_
  exact .pure (updateWhere_written h)

theorem projectRotation_written (tables : OriginTables)
    (h : ∀ row ∈ tables.delegations, row.Written P) :
    Ensures (projectRotation P event tables)
      fun result => ∀ row ∈ result.2.delegations, row.Written P := by
  unfold projectRotation
  repeat refine Ensures.bind fun _ => ?_
  refine .pure ?_
  simp only
  split
  · exact updateWhere_written h
  · exact h

/-- What is kept of the delegations after an event. -/
theorem validateAndProjectRemoteEvent_written {nonce : Option String}
    (h : validateAndProjectRemoteEvent P origin event state = .ok (nonce, next))
    (hwritten : ∀ row ∈ state.tables.delegations, row.Written P) :
    ∀ row ∈ next.tables.delegations, row.Written P := by
  unfold validateAndProjectRemoteEvent at h
  split at h
  case h_6 =>
    simp only [bind_eq_ok, pure_eq_ok, Except.ok.injEq, Prod.mk.injEq] at h
    obtain ⟨tables, htables, -, rfl⟩ := h
    rw [(projectObservation_onlyContent event state.tables tables htables).delegations]
    exact hwritten
  case h_8 =>
    rw [(projectContribution_onlyContent origin event state _ h).delegations]
    exact hwritten
  all_goals
    simp only [bind_eq_ok, pure_eq_ok, Except.ok.injEq, Prod.mk.injEq, Prod.exists] at h
  case h_1 =>
    obtain ⟨_, tables, htables, -, rfl⟩ := h
    exact projectRegistration_written state.tables hwritten _ htables
  case h_2 =>
    obtain ⟨_, tables, htables, -, rfl⟩ := h
    exact projectDelegation_written state.tables hwritten _ htables
  case h_3 =>
    obtain ⟨_, tables, htables, -, rfl⟩ := h
    exact projectRevocation_written state.tables hwritten _ htables
  case h_4 =>
    obtain ⟨_, tables, htables, -, rfl⟩ := h
    exact projectRotation_written state.tables hwritten _ htables
  all_goals
    obtain ⟨_, -, -, rfl⟩ := h
    exact hwritten

/-- An importer records a contribution to the commons within the validity of its
delegation. -/
theorem validateAndProjectRemoteEvent_four_digit_year {nonce : Option String}
    {record : CommonsRecord}
    (h : validateAndProjectRemoteEvent P origin event state = .ok (nonce, next))
    (hrecord : event.commonsRecord P origin = some record)
    (hwritten : ∀ row ∈ state.tables.delegations, row.Written P) :
    FourDigitYear record.contribution.createdAt := by
  simp only [OriginEvent.commonsRecord, Option.bind_eq_bind, Option.bind_eq_some_iff,
    Option.ite_none_right_eq_some, Option.some.injEq] at hrecord
  obtain ⟨contribution, hcontribution, lineageId, -, ⟨hkind, -⟩, rfl⟩ := hrecord
  rw [validateAndProjectRemoteEvent_contribution contribution.kind hkind,
    projectContribution_eq] at h
  simp only [bind_eq_ok, Prod.exists] at h
  obtain ⟨author, signed, hauthorize, -⟩ := h
  simp only [authorizeContribution, hcontribution, okOr_some, ok_bind, bind_eq_ok, pure_eq_ok,
    Except.ok.injEq, Prod.mk.injEq, Prod.exists] at hauthorize
  obtain ⟨_, -, _, -, _, -, _, -, receivedAt, -, _, -, lineage, sessionKey, hdelegation, -⟩ :=
    hauthorize
  simp only [authorizeRemoteDelegation, bind_eq_ok, okOr_eq_ok, rejectIf_eq_ok, not_or,
    not_lt, gt_iff_lt] at hdelegation
  obtain ⟨row, hrow, _, -, notBefore, hnotBefore, expiresAt, hexpiresAt, _, ⟨-, hstart, hend,
    -⟩, -⟩ := hdelegation
  exact (hwritten row (List.mem_of_find?_eq_some hrow)).four_digit_year hnotBefore hexpiresAt
    hstart hend

theorem projectAndStore_dated (h : projectAndStore P origin event state = .ok next)
    (hwritten : ∀ row ∈ state.tables.delegations, row.Written P)
    (hcommons : state.commons.Readable P) :
    (∀ row ∈ next.tables.delegations, row.Written P) ∧ next.commons.Readable P := by
  have hreplay := projectAndStore_commons h
  obtain ⟨nonce, projected, hproject, rfl⟩ := projectAndStore_eq_ok h
  have hkept := validateAndProjectRemoteEvent_written hproject hwritten
  refine ⟨hkept, ?_⟩
  cases hrecord : event.commonsRecord P origin with
  | none =>
      rw [hrecord, Option.toList_none, foldState, Except.ok.injEq] at hreplay
      rwa [← hreplay]
  | some record =>
      rw [hrecord] at hreplay
      simp only [Option.toList_some, foldState, bind_eq_ok, Except.ok.injEq, exists_eq_right]
        at hreplay
      have hyear := validateAndProjectRemoteEvent_four_digit_year hproject hrecord hwritten
      exact hcommons.record hyear hreplay

theorem projectEvents_dated {events : List OriginEvent}
    (h : projectEvents P origin state events = .ok next)
    (hwritten : ∀ row ∈ state.tables.delegations, row.Written P)
    (hcommons : state.commons.Readable P) :
    (∀ row ∈ next.tables.delegations, row.Written P) ∧ next.commons.Readable P := by
  have hinvariant : ∀ (before : ImportState) (event : OriginEvent) (after : ImportState),
      ((∀ row ∈ before.tables.delegations, row.Written P) ∧ before.commons.Readable P) →
      projectAndStore P origin event before = .ok after →
      (∀ row ∈ after.tables.delegations, row.Written P) ∧ after.commons.Readable P := by
    intro before event after hbefore hstore
    exact projectAndStore_dated hstore hbefore.1 hbefore.2
  exact foldState_invariant hinvariant ⟨hwritten, hcommons⟩ h

end

/-! ## Every run -/

section

variable {identity : NodeIdentity P} {db next : Db} {appendedAt : ℤ} {row : EventRow}
  {accepted : AcceptedObject}

theorem Db.CommonsDated.commit {call : PendingCall} (h : db.CommonsDated P)
    (hnode : db.nodeId = some identity.nodeId) (hsound : call.Sound P db)
    (hcommit : call.admitted.commit P identity appendedAt db = .ok (accepted, next))
    (hcommitted : Committed P identity call.admitted appendedAt db row accepted next) :
    next.CommonsDated P := by
  obtain ⟨logged, hlogged, hsame⟩ := hcommitted.appended
  refine ⟨hcommitted.effect.written h.own, ?_, ?_⟩
  · rw [hsame.origins, hlogged.next_eq]
    exact h.others
  · rcases Admitted.commit_frame hcommit with ⟨lineageId, contribution, hadmitted⟩ |
      ⟨-, hnext⟩
    · have hyear := hsound.four_digit_year hadmitted h.own
      rw [hadmitted] at hcommit
      exact h.commons.contribution hnode hyear hcommit hcommitted.events
    · rw [hnext]
      exact h.commons

theorem Db.CommonsDated.observe {observation : IngestedObservation} (h : db.CommonsDated P)
    (hobserved : Observed P identity observation appendedAt db row accepted next) :
    next.CommonsDated P := by
  obtain ⟨logged, hlogged, hsame⟩ := hobserved.appended
  refine ⟨?_, ?_, ?_⟩
  · rw [Db.appendObservation_authority hobserved.append]
    exact h.own
  · rw [hsame.origins, hlogged.next_eq]
    exact h.others
  · rw [Db.appendObservation_commons hobserved]
    exact h.commons

theorem ImportResult.commonsDated {bundle : FederationBundle} {witness : CheckpointWitness}
    {now : ℤ} {opened : Db} {report : FederationImportReport} {key : Bytes} {head : String}
    {loop : ImportLoop} {fresh : List OriginEvent} {state : ImportState}
    (hresult : ImportResult P identity bundle witness now appendedAt db report next key head
      opened loop fresh state) (h : db.CommonsDated P) : next.CommonsDated P := by
  have hproject := hresult.looped.projected
  rw [hresult.opens.importState] at hproject
  obtain ⟨hwritten, hcommons⟩ := projectEvents_dated hproject
    (h.others bundle.originNodeId) h.commons
  refine ⟨?_, ?_, ?_⟩
  · rw [hresult.authority]
    exact h.own
  · intro origin
    by_cases hsame : origin = bundle.originNodeId
    · rw [hsame, hresult.tables.1]
      exact hwritten
    · rw [hresult.other_origins hsame]
      exact h.others origin
  · rw [hresult.commons]
    exact hcommons

theorem Advance.commonsDated (hadvance : Advance P identity db next)
    (hnode : db.nodeId = some identity.nodeId) (h : db.CommonsDated P) :
    next.CommonsDated P := by
  cases hadvance with
  | quiet hquiet =>
      refine ⟨?_, ?_, ?_⟩
      · rw [hquiet.authority]
        exact h.own
      · rw [hquiet.origins]
        exact h.others
      · rw [hquiet.commons]
        exact h.commons
  | commit call appendedAt row accepted hsound hcommit hcommitted =>
      exact h.commit hnode hsound hcommit hcommitted
  | observe observation appendedAt row accepted hobserved => exact h.observe hobserved
  | imported bundle observedAt now appendedAt report key head opened loop fresh state
      hresult => exact hresult.commonsDated h

theorem Db.CommonsDated.init (own : String) : (Db.init P own).CommonsDated P :=
  ⟨nofun, fun _ => nofun, nofun, nofun, nofun⟩

theorem run_commonsDated (identity : NodeIdentity P) (actions : List Action) :
    (NodeState.run P identity actions).db.CommonsDated P := by
  have hboth : (NodeState.run P identity actions).db.nodeId = some identity.nodeId ∧
      (NodeState.run P identity actions).db.CommonsDated P := by
    refine @run_advance_induction P identity
      (fun db => db.nodeId = some identity.nodeId ∧ db.CommonsDated P) ?_ ?_ actions
    · exact ⟨rfl, .init identity.nodeId⟩
    · intro db next h hadvance
      exact ⟨hadvance.nodeId.trans h.1, hadvance.commonsDated h.1 h.2⟩
  exact hboth.2

/-- Whatever a node accepts and imports, the views of its topics do not fail
because of a stored instant. -/
theorem run_commons_readable (identity : NodeIdentity P) (actions : List Action) :
    (NodeState.run P identity actions).db.commons.Readable P :=
  (run_commonsDated identity actions).commons

end

end

end Commonwake
