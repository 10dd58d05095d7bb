import Commonwake.AuthorityMirror
import Commonwake.CommonsRows
import Commonwake.ReplaySafety

/-!
# Who speaks in the commons

The id of an event is the digest of its object, and the id of a delegation is
the digest of the delegation.  So the lineage for which a contribution is
recorded can be read off the id of its event, at every node and whatever logs
the node has imported.
-/

namespace Commonwake

open Outcome Table HashChain Serde

section

variable (P : Primitives)

/-- The event registers the delegation with the given id, from the given lineage. -/
def OriginEvent.Delegates (event : OriginEvent) (id lineageId : String) : Prop :=
  ∃ delegation, SessionDelegation.ofJson P event.canonical = some delegation ∧
    Commonwake.delegationId P delegation = id ∧ delegation.lineageId = lineageId

/-- The delegations of a table, each with its lineage. -/
def OriginTables.delegationIds (tables : OriginTables) : List (String × String) :=
  tables.delegations.map fun row => (row.delegationId, row.lineageId)

/-- The ids of the delegations which are kept for an origin, with their lineages. -/
def Db.delegationIds (db : Db) (own origin : String) : List (String × String) :=
  if origin = own then
    db.authority.delegations.map fun row => (row.delegationId, row.lineageId)
  else (db.origins origin).delegationIds

/-- The known log of an origin accounts for its delegations and for the
lineages of its contributions to the commons. -/
structure Authored (origin : String) (events : List OriginEvent)
    (delegations : List (String × String)) : Prop where
  ids : ∀ event ∈ events,
    event.eventId = P.prefixedId "cwevt_" (utf8 (P.jcs event.canonical))
  delegations : ∀ row ∈ delegations, ∃ event ∈ events, event.Delegates P row.1 row.2
  records : ∀ event ∈ events, ∀ record, event.commonsRecord P origin = some record →
    ∃ earlier ∈ events, earlier.Delegates P record.contribution.delegationId record.lineageId

end

section

variable {P : Primitives} {origin : String} {event : OriginEvent}

theorem Authored.init (origin : String) : Authored P origin [] [] := by
  refine ⟨?_, ?_, ?_⟩
  · intro event hevent
    cases hevent
  · intro row hrow
    cases hrow
  · intro event hevent
    cases hevent

theorem Authored.append {events : List OriginEvent} {delegations added : List (String × String)}
    (h : Authored P origin events delegations)
    (hid : event.eventId = P.prefixedId "cwevt_" (utf8 (P.jcs event.canonical)))
    (hadded : ∀ row ∈ added, row ∈ delegations ∨ event.Delegates P row.1 row.2)
    (hrecord : ∀ record, event.commonsRecord P origin = some record →
      (record.contribution.delegationId, record.lineageId) ∈ delegations) :
    Authored P origin (events ++ [event]) added := by
  refine ⟨?_, ?_, ?_⟩
  · rw [List.forall_mem_append, List.forall_mem_singleton]
    exact ⟨h.ids, hid⟩
  · intro row hrow
    rcases hadded row hrow with hold | hnew
    · obtain ⟨earlier, hearlier, hdelegates⟩ := h.delegations row hold
      exact ⟨earlier, List.mem_append_left _ hearlier, hdelegates⟩
    · exact ⟨event, List.mem_append_right _ List.mem_cons_self, hnew⟩
  · rw [List.forall_mem_append, List.forall_mem_singleton]
    refine ⟨?_, ?_⟩
    · intro other hother record hsome
      obtain ⟨earlier, hearlier, hdelegates⟩ := h.records other hother record hsome
      exact ⟨earlier, List.mem_append_left _ hearlier, hdelegates⟩
    · intro record hsome
      obtain ⟨earlier, hearlier, hdelegates⟩ := h.delegations _ (hrecord record hsome)
      exact ⟨earlier, List.mem_append_left _ hearlier, hdelegates⟩

/-! ## The importer -/

section

variable (tables : OriginTables)

theorem projectRegistration_delegationIds :
    Ensures (projectRegistration P event tables)
      fun result => result.2.delegationIds = tables.delegationIds := by
  unfold projectRegistration
  repeat refine Ensures.bind fun _ => ?_
  exact .pure rfl

theorem projectRevocation_delegationIds :
    Ensures (projectRevocation P event tables)
      fun result => result.2.delegationIds = tables.delegationIds := by
  unfold projectRevocation
  repeat refine Ensures.bind fun _ => ?_
  refine .pure (map_updateWhere ?_ tables.delegations)
  intro row _
  rfl

theorem projectRotation_delegationIds :
    Ensures (projectRotation P event tables)
      fun result => result.2.delegationIds = tables.delegationIds := by
  unfold projectRotation
  repeat refine Ensures.bind fun _ => ?_
  refine .pure ?_
  unfold OriginTables.delegationIds
  simp only
  split
  · refine map_updateWhere ?_ tables.delegations
    intro row _
    rfl
  · rfl

theorem projectDelegation_delegationIds :
    Ensures (projectDelegation P event tables)
      fun result => ∀ row ∈ result.2.delegationIds,
        row ∈ tables.delegationIds ∨ event.Delegates P row.1 row.2 := by
  intro result h
  simp only [projectDelegation, bind_eq_ok, okOr_eq_ok, insertNew_eq_ok, pure_eq_ok,
    Except.ok.injEq] at h
  obtain ⟨delegation, hdelegation, _, -, _, -, _, -, _, -, _, -, _, -, _, ⟨-, rfl⟩, rfl⟩ := h
  simp only [OriginTables.delegationIds, List.map_append, List.map_cons, List.map_nil]
  rw [List.forall_mem_append, List.forall_mem_singleton]
  exact ⟨fun row hrow => .inl hrow, .inr ⟨delegation, hdelegation, rfl, rfl⟩⟩

end

/-- The delegations after an event: those before it, and the one which the event
registers. -/
theorem validateAndProjectRemoteEvent_delegationIds {state next : ImportState}
    {nonce : Option String}
    (h : validateAndProjectRemoteEvent P origin event state = .ok (nonce, next)) :
    ∀ row ∈ next.tables.delegationIds,
      row ∈ state.tables.delegationIds ∨ event.Delegates P row.1 row.2 := by
  have hkept : next.tables.delegationIds = state.tables.delegationIds →
      ∀ row ∈ next.tables.delegationIds,
        row ∈ state.tables.delegationIds ∨ event.Delegates P row.1 row.2 := by
    intro hsame row hrow
    rw [hsame] at hrow
    exact .inl hrow
  unfold validateAndProjectRemoteEvent at h
  split at h
  case h_1 =>
    simp only [bind_eq_ok, pure_eq_ok, Except.ok.injEq, Prod.mk.injEq, Prod.exists] at h
    obtain ⟨_, tables, htables, -, rfl⟩ := h
    exact hkept (projectRegistration_delegationIds state.tables _ htables)
  case h_2 =>
    simp only [bind_eq_ok, pure_eq_ok, Except.ok.injEq, Prod.mk.injEq, Prod.exists] at h
    obtain ⟨_, tables, htables, -, rfl⟩ := h
    exact projectDelegation_delegationIds state.tables _ htables
  case h_3 =>
    simp only [bind_eq_ok, pure_eq_ok, Except.ok.injEq, Prod.mk.injEq, Prod.exists] at h
    obtain ⟨_, tables, htables, -, rfl⟩ := h
    exact hkept (projectRevocation_delegationIds state.tables _ htables)
  case h_4 =>
    simp only [bind_eq_ok, pure_eq_ok, Except.ok.injEq, Prod.mk.injEq, Prod.exists] at h
    obtain ⟨_, tables, htables, -, rfl⟩ := h
    exact hkept (projectRotation_delegationIds state.tables _ htables)
  case h_5 =>
    simp only [bind_eq_ok, pure_eq_ok, Except.ok.injEq, Prod.mk.injEq] at h
    obtain ⟨_, -, -, rfl⟩ := h
    exact hkept rfl
  case h_6 =>
    simp only [bind_eq_ok, pure_eq_ok, Except.ok.injEq, Prod.mk.injEq] at h
    obtain ⟨tables, htables, -, rfl⟩ := h
    have honly := projectObservation_onlyContent event state.tables tables htables
    refine hkept ?_
    unfold OriginTables.delegationIds
    rw [honly.delegations]
  case h_7 =>
    simp only [bind_eq_ok, pure_eq_ok, Except.ok.injEq, Prod.mk.injEq] at h
    obtain ⟨⟨⟩, -, -, rfl⟩ := h
    exact hkept rfl
  case h_8 =>
    have honly := projectContribution_onlyContent origin event state _ h
    refine hkept ?_
    unfold OriginTables.delegationIds
    rw [honly.delegations]

/-- A contribution to the commons is made under a delegation which is kept. -/
theorem validateAndProjectRemoteEvent_author {state next : ImportState}
    {nonce : Option String} {record : CommonsRecord}
    (h : validateAndProjectRemoteEvent P origin event state = .ok (nonce, next))
    (hrecord : event.commonsRecord P origin = some record) :
    (record.contribution.delegationId, record.lineageId) ∈ state.tables.delegationIds := by
  simp only [OriginEvent.commonsRecord, Option.bind_eq_bind, Option.bind_eq_some_iff,
    Option.ite_none_right_eq_some, Option.some.injEq] at hrecord
  obtain ⟨contribution, hcontribution, lineageId, hlineage, ⟨hkind, -⟩, rfl⟩ := hrecord
  rw [validateAndProjectRemoteEvent_contribution contribution.kind hkind,
    projectContribution_eq] at h
  simp only [bind_eq_ok, Prod.exists] at h
  obtain ⟨author, signed, hauthorize, -⟩ := h
  simp only [authorizeContribution, hcontribution, okOr_some, ok_bind, bind_eq_ok, pure_eq_ok,
    Except.ok.injEq, Prod.mk.injEq, Prod.exists] at hauthorize
  obtain ⟨_, -, _, -, _, -, _, -, receivedAt, -, _, -, lineage, sessionKey, hdelegation, ⟨⟩,
    hmetadata, _, -, _, -, rfl, rfl⟩ := hauthorize
  have hsame := requireRemoteEventMetadata_lineage hmetadata
  rw [hlineage, Option.some.injEq] at hsame
  simp only [authorizeRemoteDelegation, bind_eq_ok, okOr_eq_ok, pure_eq_ok, Except.ok.injEq,
    Prod.mk.injEq] at hdelegation
  obtain ⟨row, hrow, _, -, _, -, _, -, _, -, howner, -⟩ := hdelegation
  have hid : row.delegationId = contribution.delegationId := by
    simpa using List.find?_some hrow
  rw [hsame]
  refine List.mem_map.mpr ⟨row, List.mem_of_find?_eq_some hrow, ?_⟩
  rw [hid, howner]

theorem Authored.project {events : List OriginEvent} {state next : ImportState}
    (h : Authored P origin events state.tables.delegationIds)
    (hid : event.eventId = P.prefixedId "cwevt_" (utf8 (P.jcs event.canonical)))
    (hstore : projectAndStore P origin event state = .ok next) :
    Authored P origin (events ++ [event]) next.tables.delegationIds := by
  obtain ⟨nonce, projected, hproject, rfl⟩ := projectAndStore_eq_ok hstore
  have hadded := validateAndProjectRemoteEvent_delegationIds hproject
  exact h.append hid hadded fun record hrecord =>
    validateAndProjectRemoteEvent_author hproject hrecord

theorem Authored.projectEvents {events fresh : List OriginEvent} {state next : ImportState}
    (h : Authored P origin events state.tables.delegationIds)
    (hids : ∀ event ∈ fresh,
      event.eventId = P.prefixedId "cwevt_" (utf8 (P.jcs event.canonical)))
    (hproject : projectEvents P origin state fresh = .ok next) :
    Authored P origin (events ++ fresh) next.tables.delegationIds := by
  unfold Commonwake.projectEvents at hproject
  induction fresh generalizing events state with
  | nil =>
      simp only [foldState, Except.ok.injEq] at hproject
      rw [← hproject, List.append_nil]
      exact h
  | cons event rest ih =>
      simp only [foldState, bind_eq_ok] at hproject
      obtain ⟨middle, hstore, hrest⟩ := hproject
      obtain ⟨hid, hids⟩ := List.forall_mem_cons.mp hids
      have hmiddle := ih (h.project hid hstore) hids hrest
      rw [List.append_assoc] at hmiddle
      exact hmiddle

/-! ## The node -/

section

variable {identity : NodeIdentity P} {db next : Db} {row : EventRow}
  {accepted : AcceptedObject} {appendedAt : ℤ}

theorem Appended.event_contentId {input : EventInput} {logged : Db} {value : Json}
    (h : Appended P identity input appendedAt db row accepted logged)
    (hvalue : input.canonicalJson = P.jcs value) (hevent : originEvent P row = .ok event) :
    event.eventId = P.prefixedId "cwevt_" (utf8 (P.jcs event.canonical)) := by
  obtain ⟨-, hid, -, -, -, -, -, hcanonical⟩ := h.originEvent_eq value hvalue hevent
  obtain ⟨previous, canonical, -, -, -, hrow⟩ := h.row_eq
  rw [hid, hcanonical, P.jcs_canon', ← hvalue, hrow]
  rfl

theorem Admitted.canonicalJson_eq (admitted : Admitted) :
    ∃ value, (admitted.input P).canonicalJson = P.jcs value := by
  cases admitted <;> exact ⟨_, rfl⟩

theorem revokeWhere_ids (condition : LocalDelegationRow → Bool) (sequence : ℤ)
    (rows : List LocalDelegationRow) :
    (revokeWhere condition sequence rows).map (fun row => (row.delegationId, row.lineageId)) =
      rows.map fun row => (row.delegationId, row.lineageId) := by
  refine map_updateWhere ?_ rows
  intro row _
  rfl

/-- The delegations after a call: those before it, and the one which it registers. -/
theorem AuthorityEffect.delegationIds {admitted : Admitted} {authority : AuthorityTables}
    (h : AuthorityEffect P db accepted admitted authority) :
    ∀ row ∈ authority.delegations.map fun row => (row.delegationId, row.lineageId),
      (row ∈ db.authority.delegations.map fun row => (row.delegationId, row.lineageId)) ∨
        ∃ delegation, admitted = .registerDelegation row.1 delegation ∧
          delegation.lineageId = row.2 := by
  cases h with
  | registerDelegation id delegation hnew hlineage =>
      simp only [List.map_append, List.map_cons, List.map_nil]
      rw [List.forall_mem_append, List.forall_mem_singleton]
      exact ⟨fun row hrow => .inl hrow, .inr ⟨delegation, rfl, rfl⟩⟩
  | revokeDelegation revocation owner howner hlineage hactive =>
      simp only [revokeWhere_ids]
      exact fun row hrow => .inl hrow
  | rotateLineageKey rotation lineage hlineage hkey hnew hother hclash =>
      cases rotation.statement.revokeExistingDelegations with
      | true =>
          simp only [if_true, revokeWhere_ids]
          exact fun row hrow => .inl hrow
      | false => exact fun row hrow => .inl hrow
  | registerLineage => exact fun row hrow => .inl hrow
  | appendContribution => exact fun row hrow => .inl hrow
  | appendAcknowledgement => exact fun row hrow => .inl hrow

/-- The lineage of a checked contribution holds its delegation. -/
theorem PendingCall.Sound.author {call : PendingCall} {lineageId : String}
    {contribution : SignedContribution} (h : call.Sound P db)
    (hcall : call.admitted = .appendContribution lineageId contribution) :
    (contribution.delegationId, lineageId) ∈
      db.authority.delegations.map fun row => (row.delegationId, row.lineageId) := by
  have hchecked := h.checked
  rw [hcall] at hchecked
  obtain ⟨store, hcheck⟩ := hchecked
  simp only [checkContribution, authorizeDelegation, Db.delegation, bind_eq_ok, okOr_eq_ok,
    pure_eq_ok, Except.ok.injEq] at hcheck
  obtain ⟨_, -, _, -, _, -, view, ⟨_, ⟨seen, hseen, _, -, _, -, _, -, rfl⟩, _, -, _, -, _, -, _,
    -, _, -, rfl⟩, _, -, _, -, _, -, rfl⟩ := hcheck
  obtain ⟨revoked, hrow⟩ := h.kept.delegation _ seen hseen
  have hid : seen.delegationId = contribution.delegationId := by
    simpa using List.find?_some hseen
  refine List.mem_map.mpr ⟨_, List.mem_of_find?_eq_some hrow, ?_⟩
  simp only [hid]

/-- The log of the node after one more event. -/
theorem Authored.logged {own : String}
    (h : Authored P own (db.knownEvents P own own) (db.delegationIds own own))
    (hevents : next.events = db.events ++ [row]) (hevent : originEvent P row = .ok event)
    (hid : event.eventId = P.prefixedId "cwevt_" (utf8 (P.jcs event.canonical)))
    (hadded : ∀ row ∈ next.delegationIds own own,
      row ∈ db.delegationIds own own ∨ event.Delegates P row.1 row.2)
    (hrecord : ∀ record, event.commonsRecord P own = some record →
      (record.contribution.delegationId, record.lineageId) ∈ db.delegationIds own own) :
    Authored P own (next.knownEvents P own own) (next.delegationIds own own) := by
  rw [Db.knownEvents_own hevents, toOption_of_ok hevent]
  exact h.append hid hadded hrecord

/-- An event of another kind says nothing about the commons. -/
theorem Authored.logged_other {own : String} {input : EventInput} {base logged : Db}
    {value : Json}
    (h : Authored P own (db.knownEvents P own own) (db.delegationIds own own))
    (happended : Appended P identity input appendedAt base row accepted logged)
    (hvalue : input.canonicalJson = P.jcs value)
    (hkind : ∀ kind : ContributionKind, input.kind ≠ kind.asStr)
    (hevents : next.events = db.events ++ [row])
    (hauthority : next.authority = db.authority) :
    Authored P own (next.knownEvents P own own) (next.delegationIds own own) := by
  obtain ⟨event, hevent, henvelope⟩ := happended.envelope value hvalue
  refine h.logged hevents hevent (happended.event_contentId hvalue hevent) ?_ ?_
  · unfold Db.delegationIds
    rw [if_pos rfl, if_pos rfl, hauthority]
    exact fun row hrow => .inl hrow
  · intro record hrecord
    rw [commonsRecord_eq_none] at hrecord
    · cases hrecord
    · intro kind _
      rw [henvelope.kind]
      exact hkind kind

theorem Authored.commit {call : PendingCall}
    (h : Authored P identity.nodeId (db.knownEvents P identity.nodeId identity.nodeId)
      (db.delegationIds identity.nodeId identity.nodeId)) (hsound : call.Sound P db)
    (hcommitted : Committed P identity call.admitted appendedAt db row accepted next) :
    Authored P identity.nodeId (next.knownEvents P identity.nodeId identity.nodeId)
      (next.delegationIds identity.nodeId identity.nodeId) := by
  obtain ⟨logged, happended, -⟩ := hcommitted.appended
  obtain ⟨value, hvalue⟩ := call.admitted.canonicalJson_eq (P := P)
  obtain ⟨event, hevent, henvelope⟩ := happended.envelope value hvalue
  refine h.logged hcommitted.events hevent (happended.event_contentId hvalue hevent) ?_ ?_
  · have hdelegations := hcommitted.effect.delegationIds
    unfold Db.delegationIds
    rw [if_pos rfl, if_pos rfl]
    intro row hrow
    refine (hdelegations row hrow).imp_right ?_
    rintro ⟨delegation, hadmitted, hlineage⟩
    have hchecked := hsound.checked
    rw [hadmitted] at hchecked
    have hcanonical : event.canonical = P.canon (delegation.toJson P) := by
      obtain ⟨_, hsame, hlogged⟩ := happended.envelope (delegation.toJson P) (by
        rw [hadmitted]
        rfl)
      rw [hevent, Except.ok.injEq] at hsame
      rw [hsame]
      exact hlogged.canonical
    refine ⟨delegation, ?_, delegationId_of_checked hchecked, hlineage⟩
    rw [hcanonical]
    exact SessionDelegation.ofJson_canon P delegation
  · intro record hrecord
    unfold Db.delegationIds
    rw [if_pos rfl]
    cases hadmitted : call.admitted with
    | appendContribution lineageId contribution =>
        have hauthor := hsound.author hadmitted
        rw [hadmitted] at henvelope happended
        obtain ⟨_, hsame, hlogged⟩ := happended.envelope (contribution.toJson P) rfl
        rw [hevent, Except.ok.injEq] at hsame
        have hdecode : SignedContribution.ofJson P event.canonical =
            some (contribution.canonical P) := by
          rw [hsame, hlogged.canonical]
          exact SignedContribution.ofJson_canon P contribution
        rw [commonsRecord_eq hdecode henvelope.lineage henvelope.kind] at hrecord
        obtain ⟨-, hsome⟩ := Option.ite_none_right_eq_some.mp hrecord
        rw [← Option.some.inj hsome]
        exact hauthor
    | _ =>
        rw [hadmitted] at henvelope
        rw [commonsRecord_eq_none] at hrecord
        · cases hrecord
        · intro kind _
          rw [henvelope.kind]
          exact isAdministrative_ne rfl kind

/-! ## Every run -/

theorem ImportResult.authority {bundle : FederationBundle} {witness : CheckpointWitness}
    {now : ℤ} {opened : Db} {report : FederationImportReport} {key : Bytes} {head : String}
    {loop : ImportLoop} {fresh : List OriginEvent} {state : ImportState}
    (h : ImportResult P identity bundle witness now appendedAt db report next key head
      opened loop fresh state) : next.authority = db.authority := by
  obtain ⟨events, witnesses, imports, hnext⟩ :=
    witnessImport_frame _ _ _ _ _ _ _ _ h.witnessed
  have hopens := h.opens
  simp only at hnext
  rw [hnext, h.looped.result]
  cases hopens <;> rfl

theorem ImportResult.authored {bundle : FederationBundle} {witness : CheckpointWitness}
    {now : ℤ} {opened : Db} {report : FederationImportReport} {key : Bytes} {head : String}
    {loop : ImportLoop} {fresh : List OriginEvent} {state : ImportState}
    (hresult : ImportResult P identity bundle witness now appendedAt db report next key head
      opened loop fresh state)
    (h : ∀ origin, Authored P origin (db.knownEvents P identity.nodeId origin)
      (db.delegationIds identity.nodeId origin)) (origin : String) :
    Authored P origin (next.knownEvents P identity.nodeId origin)
      (next.delegationIds identity.nodeId origin) := by
  by_cases hbundle : origin = bundle.originNodeId
  · subst hbundle
    have hproject := hresult.looped.projected
    rw [hresult.opens.importState] at hproject
    have hbefore := h bundle.originNodeId
    unfold Db.delegationIds at hbefore ⊢
    rw [if_neg hresult.notOwn] at hbefore ⊢
    rw [hresult.knownEvents, hresult.tables.1]
    have hids : ∀ event ∈ fresh,
        event.eventId = P.prefixedId "cwevt_" (utf8 (P.jcs event.canonical)) := by
      intro event hevent
      obtain ⟨⟨overlap, hsplit, -⟩, -, -, -, -⟩ := hresult.looped
      have hmem : event ∈ bundle.events := by
        rw [hsplit]
        exact List.mem_append_right _ hevent
      exact (hresult.verified.chain.authentic event hmem).contentId
    exact Authored.projectEvents hbefore hids hproject
  · have hsame := hresult.other_origins hbundle
    by_cases hown : origin = identity.nodeId
    · subst hown
      rcases hresult.events with hkept | ⟨base, row, accepted, logged, -, happended, hevents⟩
      · rw [Db.knownEvents_of_same hkept hsame]
        unfold Db.delegationIds
        rw [hresult.authority, hsame]
        exact h identity.nodeId
      · refine (h identity.nodeId).logged_other happended rfl ?_ hevents hresult.authority
        intro kind
        change "checkpoint_witnessed" ≠ kind.asStr
        cases kind <;> decide
    · have hbefore := h origin
      unfold Db.knownEvents Db.delegationIds at hbefore ⊢
      rw [if_neg hown, if_neg hown] at hbefore ⊢
      rw [hsame]
      exact hbefore

/-- A step of the node's own changes its own log only. -/
theorem Authored.other {own : String} (hne : origin ≠ own)
    (h : Authored P origin (db.knownEvents P own origin) (db.delegationIds own origin))
    (horigins : next.origins = db.origins) :
    Authored P origin (next.knownEvents P own origin) (next.delegationIds own origin) := by
  unfold Db.knownEvents Db.delegationIds at h ⊢
  rw [if_neg hne, if_neg hne] at h ⊢
  rw [horigins]
  exact h

theorem Advance.authored (hadvance : Advance P identity db next)
    (h : ∀ origin, Authored P origin (db.knownEvents P identity.nodeId origin)
      (db.delegationIds identity.nodeId origin)) (origin : String) :
    Authored P origin (next.knownEvents P identity.nodeId origin)
      (next.delegationIds identity.nodeId origin) := by
  cases hadvance with
  | quiet hquiet =>
      have hbefore := h origin
      unfold Db.knownEvents Db.delegationIds at hbefore ⊢
      rw [hquiet.events, hquiet.authority, hquiet.origins]
      exact hbefore
  | commit call appendedAt row accepted hsound _ hcommitted =>
      by_cases hown : origin = identity.nodeId
      · subst hown
        exact (h identity.nodeId).commit hsound hcommitted
      · obtain ⟨logged, happended, hsame⟩ := hcommitted.appended
        refine (h origin).other hown ?_
        rw [hsame.origins, happended.next_eq]
  | observe observation appendedAt row accepted hobserved =>
      obtain ⟨logged, happended, hsame⟩ := hobserved.appended
      by_cases hown : origin = identity.nodeId
      · subst hown
        refine (h identity.nodeId).logged_other happended rfl ?_ hobserved.events
          (Db.appendObservation_authority hobserved.append)
        intro kind
        change "observation" ≠ kind.asStr
        cases kind <;> decide
      · refine (h origin).other hown ?_
        rw [hsame.origins, happended.next_eq]
  | imported bundle observedAt now appendedAt report key head opened loop fresh state
      hresult => exact hresult.authored h origin

theorem run_authored (identity : NodeIdentity P) (actions : List Action) (origin : String) :
    Authored P origin
      ((NodeState.run P identity actions).db.knownEvents P identity.nodeId origin)
      ((NodeState.run P identity actions).db.delegationIds identity.nodeId origin) := by
  refine run_advance_induction (fun db =>
    ∀ origin, Authored P origin (db.knownEvents P identity.nodeId origin)
      (db.delegationIds identity.nodeId origin)) ?_ ?_ actions origin
  · intro origin
    unfold Db.knownEvents Db.delegationIds
    split <;> exact .init origin
  · intro db next h hadvance
    exact hadvance.authored h

end

/-! ## What the ids determine -/

section

variable (P)

/-- The bytes which are hashed for the ids of an event, of what it proposes, and of
the delegation which it registers. -/
def OriginEvent.idInputs (event : OriginEvent) : Set Bytes :=
  { bytes | bytes = utf8 (P.jcs event.canonical) ∨ bytes = utf8 event.eventId ∨
    ∃ delegation, SessionDelegation.ofJson P event.canonical = some delegation ∧
      bytes = utf8 (P.canonicalWithoutSignature (delegation.toJson P)) }

/-- The bytes which are hashed for the ids in the known logs. -/
def Db.idInputs (db : Db) (own : String) : Set Bytes :=
  { bytes | ∃ origin, ∃ event ∈ db.knownEvents P own origin, bytes ∈ event.idInputs P }

/-- The record was read from a log: its id is the digest of its object, and its
lineage the one of its delegation. -/
structure CommonsRecord.Known (inputs : Set Bytes) (record : CommonsRecord) : Prop where
  eventId : utf8 record.eventId ∈ inputs
  object : ∃ canonical, utf8 (P.jcs canonical) ∈ inputs ∧
    record.eventId = P.prefixedId "cwevt_" (utf8 (P.jcs canonical)) ∧
    SignedContribution.ofJson P canonical = some record.contribution
  delegation : ∃ delegation : SessionDelegation,
    utf8 (P.canonicalWithoutSignature (delegation.toJson P)) ∈ inputs ∧
    delegationId P delegation = record.contribution.delegationId ∧
    delegation.lineageId = record.lineageId

end

theorem ReportingDeclaration.stable :
    Stable P.canonNumber ReportingDeclaration.ofJson := by
  intro value x h
  simp only [ReportingDeclaration.ofJson, Option.bind_eq_bind, Option.bind_eq_some_iff,
    Option.pure_def, Option.some.injEq] at h ⊢
  obtain ⟨m, hm, mode, hmode, traces, htraces, rfl⟩ := h
  exact ⟨_, fields_mapNumbers hm, mode, (stable_enumeration _).defaulted hmode, traces,
    stable_string.list.defaulted htraces, rfl⟩

theorem required_value {members : List (String × Json)} {key : String} {x : Json}
    (h : required Serde.value members key = some x) :
    required Serde.value (mapMembers P.canonNumber members) key = some (P.canon x) := by
  unfold required at h ⊢
  rw [lookup_mapMembers]
  cases hlookup : members.lookup key with
  | none =>
      rw [hlookup] at h
      cases h
  | some value =>
      rw [hlookup] at h
      simp only [Serde.value_eq, Option.some.injEq] at h
      rw [← h]
      rfl

/-- A contribution is read from the canonical form of its object in its own
canonical form. -/
theorem SignedContribution.ofJson_stable {value : Json} {contribution : SignedContribution}
    (h : SignedContribution.ofJson P value = some contribution) :
    SignedContribution.ofJson P (P.canon value) = some (contribution.canonical P) := by
  simp only [SignedContribution.ofJson, Option.bind_eq_bind, Option.bind_eq_some_iff,
    Option.pure_def, Option.some.injEq] at h ⊢
  obtain ⟨m, hm, protocol, hprotocol, delegationId, hdelegation, kind, hkind, createdAt,
    hcreated, nonce, hnonce, targets, htargets, supersedes, hsupersedes, reporting, hreporting,
    payload, hpayload, signature, hsignature, rfl⟩ := h
  exact ⟨_, fields_mapNumbers hm, protocol, stable_string.required hprotocol, delegationId,
    stable_string.required hdelegation, kind, (stable_enumeration _).required hkind, createdAt,
    (stable_dateTimeOfJson P).required hcreated, nonce, stable_string.required hnonce, targets,
    stable_string.list.defaulted htargets, supersedes,
    stable_string.list.defaulted hsupersedes, reporting,
    ReportingDeclaration.stable.defaulted hreporting, P.canon payload, required_value hpayload,
    signature, stable_string.required hsignature, rfl⟩

theorem SessionDelegation.get?_lineageId (delegation : SessionDelegation) :
    (delegation.toJson P).get? "lineage_id" = some (.string delegation.lineageId) := by
  simp [SessionDelegation.toJson, Json.get?, List.lookup_cons]

theorem CommonsRecord.Known.mono {inputs others : Set Bytes} {record : CommonsRecord}
    (h : record.Known P inputs) (hsub : inputs ⊆ others) : record.Known P others := by
  obtain ⟨canonical, hinput, hobject⟩ := h.object
  obtain ⟨delegation, hdelegation, hauthor⟩ := h.delegation
  exact ⟨hsub h.eventId, ⟨canonical, hsub hinput, hobject⟩,
    ⟨delegation, hsub hdelegation, hauthor⟩⟩

/-- Without collisions the id of an event determines what it says and who says it. -/
theorem CommonsRecord.Known.same {inputs : Set Bytes} {record other : CommonsRecord}
    (h : record.Known P inputs) (hother : other.Known P inputs)
    (hcollision : Set.InjOn P.sha256 inputs) (hid : record.eventId = other.eventId) :
    record.contribution.canonical P = other.contribution.canonical P ∧
      record.lineageId = other.lineageId := by
  obtain ⟨canonical, hinput, hdigest, hdecode⟩ := h.object
  obtain ⟨value, hvalueInput, hvalueDigest, hvalueDecode⟩ := hother.object
  have htext : P.canon canonical = P.canon value := by
    rw [hdigest, hvalueDigest] at hid
    have hbytes := hcollision hinput hvalueInput (P.sha256_eq_of_prefixedId_eq hid)
    exact P.jcs_eq_iff.mp (utf8_injective hbytes)
  have hsame : record.contribution.canonical P = other.contribution.canonical P := by
    have hfirst := SignedContribution.ofJson_stable hdecode
    rw [htext, SignedContribution.ofJson_stable hvalueDecode] at hfirst
    exact (Option.some.inj hfirst).symm
  refine ⟨hsame, ?_⟩
  obtain ⟨delegation, hdelegationInput, hdelegation, hlineage⟩ := h.delegation
  obtain ⟨grant, hgrantInput, hgrant, hgrantLineage⟩ := hother.delegation
  have hdelegationId : delegationId P delegation = delegationId P grant := by
    rw [hdelegation, hgrant]
    have hfields := congrArg SignedContribution.delegationId hsame
    exact hfields
  have hbytes := hcollision hdelegationInput hgrantInput
    (P.sha256_eq_of_prefixedId_eq hdelegationId)
  have hlineages := P.get?_of_canonicalWithoutSignature (utf8_injective hbytes)
    (by decide : "lineage_id" ≠ "signature") (SessionDelegation.get?_lineageId delegation)
    (SessionDelegation.get?_lineageId grant)
  rw [← hlineage, ← hgrantLineage, hlineages]

theorem Authored.known {events : List OriginEvent} {delegations : List (String × String)}
    {record : CommonsRecord} (h : Authored P origin events delegations)
    (hrecord : record ∈ events.filterMap (OriginEvent.commonsRecord P origin)) :
    record.Known P { bytes | ∃ event ∈ events, bytes ∈ event.idInputs P } := by
  obtain ⟨event, hevent, hsome⟩ := List.mem_filterMap.mp hrecord
  obtain ⟨earlier, hearlier, delegation, hdelegation, hid, hlineage⟩ :=
    h.records event hevent record hsome
  have heventId := h.ids event hevent
  simp only [OriginEvent.commonsRecord, Option.bind_eq_bind, Option.bind_eq_some_iff,
    Option.ite_none_right_eq_some, Option.some.injEq] at hsome
  obtain ⟨contribution, hcontribution, lineageId, -, -, rfl⟩ := hsome
  refine ⟨⟨event, hevent, .inr (.inl rfl)⟩, ⟨event.canonical, ⟨event, hevent, .inl rfl⟩,
    heventId, hcontribution⟩, ⟨delegation, ⟨earlier, hearlier, .inr (.inr ?_)⟩, hid, hlineage⟩⟩
  exact ⟨delegation, hdelegation, rfl⟩

/-- What a node has in its commons was read from the logs which it knows. -/
theorem run_recordsKnown (identity : NodeIdentity P) (actions : List Action) (origin : String) :
    ∀ record ∈ (NodeState.run P identity actions).db.commonsLog P identity.nodeId origin,
      record.Known P ((NodeState.run P identity actions).db.idInputs P identity.nodeId) := by
  intro record hrecord
  refine ((run_authored identity actions origin).known hrecord).mono ?_
  rintro bytes ⟨event, hevent, hbytes⟩
  exact ⟨origin, event, hevent, hbytes⟩

end

end Commonwake
