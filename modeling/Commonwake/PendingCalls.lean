import Commonwake.AuthorityEffects

/-!
# Calls between their two critical sections

A pending call has passed its checks in an earlier state.  Of what these
checks read, only the key of a lineage and the revocation of a delegation may
have changed since.
-/

namespace Commonwake

open Outcome Table

/-- The lineages and delegations of one state are still there in another. -/
structure Db.AuthorityKept (first second : Db) : Prop where
  lineage : ∀ id row, first.lineage? id = some row →
    ∃ key, second.lineage? id = some { row with publicKey := key }
  delegation : ∀ id row, first.delegation? id = some row →
    ∃ revoked, second.delegation? id =
      some { row with revokedSequence := revoked }

namespace Db.AuthorityKept

theorem refl (db : Db) : db.AuthorityKept db where
  lineage _ row h := ⟨row.publicKey, h⟩
  delegation _ row h := ⟨row.revokedSequence, h⟩

theorem trans {first second third : Db} (h : first.AuthorityKept second)
    (h' : second.AuthorityKept third) : first.AuthorityKept third where
  lineage id row hrow := by
    obtain ⟨key, hsecond⟩ := h.lineage id row hrow
    obtain ⟨key', hthird⟩ := h'.lineage id _ hsecond
    exact ⟨key', hthird⟩
  delegation id row hrow := by
    obtain ⟨revoked, hsecond⟩ := h.delegation id row hrow
    obtain ⟨revoked', hthird⟩ := h'.delegation id _ hsecond
    exact ⟨revoked', hthird⟩

theorem of_eq {first second : Db} (h : second.authority = first.authority) :
    first.AuthorityKept second where
  lineage id row hrow := by
    refine ⟨row.publicKey, ?_⟩
    unfold Db.lineage? at hrow ⊢
    rw [h]
    exact hrow
  delegation id row hrow := by
    refine ⟨row.revokedSequence, ?_⟩
    unfold Db.delegation? at hrow ⊢
    rw [h]
    exact hrow

end Db.AuthorityKept

section

variable {P : Primitives} {identity : NodeIdentity P}

theorem find?_revokeWhere {condition : LocalDelegationRow → Bool} {sequence : ℤ}
    {rows : List LocalDelegationRow} {id : String} {row : LocalDelegationRow}
    (h : rows.find? (fun row => row.delegationId == id) = some row) :
    ∃ revoked, (revokeWhere condition sequence rows).find?
        (fun row => row.delegationId == id) =
      some { row with revokedSequence := revoked } := by
  unfold revokeWhere
  rw [find?_updateWhere, h]
  · simp only [Option.map_some, Option.some.injEq]
    split
    · exact ⟨some sequence, rfl⟩
    · exact ⟨row.revokedSequence, rfl⟩
  · intro _ _
    rfl

theorem AuthorityEffect.kept {db next : Db} {accepted : AcceptedObject}
    {admitted : Admitted} (h : AuthorityEffect P db accepted admitted next.authority) :
    db.AuthorityKept next := by
  have hlineages : next.authority.lineages = db.authority.lineages →
      ∀ id row, db.lineage? id = some row →
        ∃ key, next.lineage? id = some { row with publicKey := key } := by
    intro hsame id row hrow
    refine ⟨row.publicKey, ?_⟩
    unfold Db.lineage? at hrow ⊢
    rw [hsame]
    exact hrow
  have hdelegations : next.authority.delegations = db.authority.delegations →
      ∀ id row, db.delegation? id = some row →
        ∃ revoked, next.delegation? id =
          some { row with revokedSequence := revoked } := by
    intro hsame id row hrow
    refine ⟨row.revokedSequence, ?_⟩
    unfold Db.delegation? at hrow ⊢
    rw [hsame]
    exact hrow
  generalize hauthority : next.authority = authority at h
  cases h with
  | registerLineage lineageId registration =>
      refine ⟨?_, hdelegations (by rw [hauthority])⟩
      intro id row hrow
      refine ⟨row.publicKey, ?_⟩
      unfold Db.lineage? at hrow ⊢
      rw [hauthority]
      simp only [List.find?_append, hrow, Option.some_or]
  | registerDelegation id delegation =>
      refine ⟨hlineages (by rw [hauthority]), ?_⟩
      intro other row hrow
      refine ⟨row.revokedSequence, ?_⟩
      unfold Db.delegation? at hrow ⊢
      rw [hauthority]
      simp only [List.find?_append, hrow, Option.some_or]
  | revokeDelegation revocation owner =>
      refine ⟨hlineages (by rw [hauthority]), ?_⟩
      intro id row hrow
      unfold Db.delegation? at hrow ⊢
      rw [hauthority]
      exact find?_revokeWhere hrow
  | rotateLineageKey rotation lineage =>
      refine ⟨?_, ?_⟩
      · intro id row hrow
        unfold Db.lineage? at hrow ⊢
        rw [hauthority]
        simp only
        rw [find?_updateWhere, hrow]
        · simp only [Option.map_some, Option.some.injEq]
          split
          · exact ⟨rotation.statement.newPublicKey, rfl⟩
          · exact ⟨row.publicKey, rfl⟩
        · intro _ _
          rfl
      · intro id row hrow
        unfold Db.delegation? at hrow ⊢
        rw [hauthority]
        simp only
        split
        · exact find?_revokeWhere hrow
        · exact ⟨row.revokedSequence, hrow⟩
  | appendContribution lineageId contribution => exact .of_eq hauthority
  | appendAcknowledgement lineageId acknowledgement =>
      exact ⟨hlineages (by rw [hauthority]), hdelegations (by rw [hauthority])⟩

theorem Db.appendObservation_authority {observation : IngestedObservation} {now : ℤ}
    {db next : Db} {accepted : AcceptedObject}
    (h : db.appendObservation P identity observation now = .ok (accepted, next)) :
    next.authority = db.authority := by
  unfold Db.appendObservation at h
  simp only at h
  cases hstored : db.storedObservation
      (db.observationPayload P observation).observationId with
  | some stored =>
      rw [hstored] at h
      simp only [pure_eq_ok, Except.ok.injEq, Prod.mk.injEq] at h
      rw [h.2]
  | none =>
      rw [hstored] at h
      simp only [bind_eq_ok, pure_eq_ok, Except.ok.injEq, Prod.mk.injEq, Prod.exists] at h
      obtain ⟨-, -, _, logged, happend, content, -, -, rfl⟩ := h
      obtain ⟨row, hrow⟩ := appendEvent_eq_ok happend
      simp only [hrow.next_eq]

/-- No action loses a lineage or a delegation. -/
theorem NodeState.step_authorityKept (identity : NodeIdentity P) (node : NodeState)
    (action : Action) :
    node.db.AuthorityKept (node.step P identity action).db := by
  have hsteps := node.step_steps identity action
  generalize node.step P identity action = next at hsteps
  cases hsteps with
  | idle => exact .refl _
  | pend => exact .refl _
  | abort => exact .refl _
  | commit index appendedAt call accepted next hcall hcommit =>
      obtain ⟨row, hcommitted⟩ := Admitted.commit_eq_ok hcommit
      exact hcommitted.effect.kept
  | observe sourceId languages feed retrievedAt entry appendedAt canonicalUrl observation
      accepted next hurl hobservation hnew happend =>
      exact .of_eq (Db.appendObservation_authority happend)
  | markSourceFetch sourceId success => exact .of_eq rfl
  | importBundle bundle observedAt now appendedAt =>
      exact .of_eq (importFederationBundle_frame identity bundle observedAt now
        appendedAt node.db).same.authority

/-! ## Pending calls -/

/-- The checks by which a call was admitted. -/
def Admitted.Checked (P : Primitives) (checkedAt : ℤ) (seen : Db) : Admitted → Prop
  | .registerLineage lineageId registration =>
      checkRegisterLineage P registration checkedAt = .ok lineageId
  | .registerDelegation id delegation =>
      checkRegisterDelegation P delegation checkedAt seen = .ok id
  | .revokeDelegation revocation => checkRevokeDelegation P revocation checkedAt seen = .ok ()
  | .rotateLineageKey rotation => checkRotateLineageKey P rotation checkedAt seen = .ok ()
  | .appendContribution lineageId contribution =>
      ∃ store, checkContribution P store contribution checkedAt seen = .ok lineageId
  | .appendAcknowledgement lineageId acknowledgement =>
      checkAcknowledgement P acknowledgement checkedAt seen = .ok lineageId

theorem Call.check_checked {call : Call} {checkedAt : ℤ} {db : Db} {admitted : Admitted}
    (h : call.check P checkedAt db = .ok admitted) : admitted.Checked P checkedAt db := by
  cases call with
  | registerLineage registration =>
      simp only [Call.check, bind_eq_ok, pure_eq_ok, Except.ok.injEq] at h
      obtain ⟨lineageId, hcheck, rfl⟩ := h
      exact hcheck
  | registerDelegation delegation =>
      simp only [Call.check, bind_eq_ok, pure_eq_ok, Except.ok.injEq] at h
      obtain ⟨id, hcheck, rfl⟩ := h
      exact hcheck
  | revokeDelegation revocation =>
      simp only [Call.check, bind_eq_ok, pure_eq_ok, Except.ok.injEq] at h
      obtain ⟨⟨⟩, hcheck, rfl⟩ := h
      exact hcheck
  | rotateLineageKey rotation =>
      simp only [Call.check, bind_eq_ok, pure_eq_ok, Except.ok.injEq] at h
      obtain ⟨⟨⟩, hcheck, rfl⟩ := h
      exact hcheck
  | acceptContribution store contribution =>
      simp only [Call.check, bind_eq_ok, pure_eq_ok, Except.ok.injEq] at h
      obtain ⟨lineageId, hcheck, rfl⟩ := h
      exact ⟨store, hcheck⟩
  | acknowledge acknowledgement =>
      simp only [Call.check, bind_eq_ok, pure_eq_ok, Except.ok.injEq] at h
      obtain ⟨lineageId, hcheck, rfl⟩ := h
      exact hcheck

/-- The call has passed its checks, and what they found is still there. -/
structure PendingCall.Sound (P : Primitives) (call : PendingCall) (db : Db) :
    Prop where
  checked : call.admitted.Checked P call.checkedAt call.seen
  kept : call.seen.AuthorityKept db

theorem PendingCall.Sound.step {call : PendingCall} {db next : Db}
    (h : call.Sound P db) (hkept : db.AuthorityKept next) : call.Sound P next :=
  ⟨h.checked, h.kept.trans hkept⟩

theorem run_pendingSound (P : Primitives) (identity : NodeIdentity P)
    (actions : List Action) :
    ∀ call ∈ (NodeState.run P identity actions).pending,
      call.Sound P (NodeState.run P identity actions).db := by
  induction actions using List.reverseRecOn with
  | nil =>
      intro call hcall
      cases hcall
  | append_singleton actions action ih =>
      rw [NodeState.run_append_singleton]
      generalize NodeState.run P identity actions = node at ih
      have hkept := node.step_authorityKept identity action
      have hsteps := node.step_steps identity action
      generalize node.step P identity action = next at hsteps hkept
      have hold : ∀ call ∈ node.pending, call.Sound P next.db := fun call hcall =>
        (ih call hcall).step hkept
      cases hsteps with
      | idle => exact hold
      | pend call checkedAt admitted hcheck =>
          intro pending hmem
          rcases List.mem_append.mp hmem with hbefore | hnew
          · exact hold pending hbefore
          · rw [List.mem_singleton.mp hnew]
            exact ⟨Call.check_checked hcheck, .refl _⟩
      | abort index appendedAt =>
          exact fun call hcall => hold call (List.mem_of_mem_eraseIdx hcall)
      | commit index appendedAt call accepted next hcall hcommit =>
          exact fun other hother => hold other (List.mem_of_mem_eraseIdx hother)
      | observe => exact hold
      | markSourceFetch => exact hold
      | importBundle => exact hold

/-! ## Conditions on the commits of a run -/

/-- The two ways to split a list which ends in a given entry. -/
theorem split_append_singleton {α : Type} {entries before after : List α} {a b : α}
    (h : entries ++ [a] = before ++ b :: after) :
    (before = entries ∧ b = a) ∨ ∃ rest, entries = before ++ b :: rest := by
  rcases List.eq_nil_or_concat after with rfl | ⟨rest, last, rfl⟩
  · obtain ⟨hentries, hlast⟩ := List.append_inj' h rfl
    exact .inl ⟨hentries.symm, (List.cons.inj hlast).1.symm⟩
  · rw [List.concat_eq_append, ← List.cons_append, ← List.append_assoc] at h
    obtain ⟨hentries, -⟩ := List.append_inj' h rfl
    exact .inr ⟨rest, hentries⟩

/-- Every call which a run commits meets the condition in the state before its
transaction. -/
def CommitsMeet (P : Primitives) (identity : NodeIdentity P)
    (condition : PendingCall → Db → ℤ → Prop) (actions : List Action) : Prop :=
  ∀ before index appendedAt after call accepted next,
    actions = before ++ .commit index appendedAt :: after →
    (NodeState.run P identity before).pending[index]? = some call →
    call.admitted.commit P identity appendedAt (NodeState.run P identity before).db =
      .ok (accepted, next) →
    condition call (NodeState.run P identity before).db appendedAt

theorem CommitsMeet.of_append {condition : PendingCall → Db → ℤ → Prop}
    {actions rest : List Action}
    (h : CommitsMeet P identity condition (actions ++ rest)) :
    CommitsMeet P identity condition actions := by
  rintro before index appendedAt after call accepted next rfl hcall hcommit
  exact h before index appendedAt (after ++ rest) call accepted next (by simp) hcall hcommit

theorem CommitsMeet.nil {condition : PendingCall → Db → ℤ → Prop} :
    CommitsMeet P identity condition [] := by
  intro before index appendedAt after call accepted next hsplit
  cases before <;> cases hsplit

theorem CommitsMeet.append_singleton {condition : PendingCall → Db → ℤ → Prop}
    {actions : List Action} {action : Action}
    (h : CommitsMeet P identity condition actions)
    (hlast : ∀ index appendedAt call accepted next, action = .commit index appendedAt →
      (NodeState.run P identity actions).pending[index]? = some call →
      call.admitted.commit P identity appendedAt (NodeState.run P identity actions).db =
        .ok (accepted, next) →
      condition call (NodeState.run P identity actions).db appendedAt) :
    CommitsMeet P identity condition (actions ++ [action]) := by
  intro before index appendedAt after call accepted next hsplit hcall hcommit
  rcases split_append_singleton hsplit with ⟨rfl, rfl⟩ | ⟨rest, hrest⟩
  · exact hlast index appendedAt call accepted next rfl hcall hcommit
  · exact h before index appendedAt rest call accepted next hrest hcall hcommit

theorem CommitsMeet.mono {condition weaker : PendingCall → Db → ℤ → Prop}
    {actions : List Action} (h : CommitsMeet P identity condition actions)
    (hweaker : ∀ call db appendedAt, condition call db appendedAt →
      weaker call db appendedAt) : CommitsMeet P identity weaker actions := by
  intro before index appendedAt after call accepted next hsplit hcall hcommit
  exact hweaker _ _ _ (h before index appendedAt after call accepted next hsplit hcall hcommit)

/-- Walk through a run, and look at every call at its commit. -/
def CommitsMeetFrom (P : Primitives) (identity : NodeIdentity P)
    (condition : PendingCall → Db → ℤ → Prop) (node : NodeState) : List Action → Prop
  | [] => True
  | .commit index appendedAt :: rest =>
      (∀ call ∈ node.pending[index]?, condition call node.db appendedAt) ∧
        CommitsMeetFrom P identity condition
          (node.step P identity (.commit index appendedAt)) rest
  | action :: rest =>
      CommitsMeetFrom P identity condition (node.step P identity action) rest

instance decidableCommitsMeetFrom {condition : PendingCall → Db → ℤ → Prop}
    [∀ call db appendedAt, Decidable (condition call db appendedAt)] :
    ∀ (actions : List Action) (node : NodeState),
      Decidable (CommitsMeetFrom P identity condition node actions)
  | [], _ => isTrue trivial
  | .commit index appendedAt :: rest, node =>
      let next := decidableCommitsMeetFrom rest (node.step P identity (.commit index appendedAt))
      @instDecidableAnd _ _ inferInstance next
  | .check _ _ :: rest, _ => decidableCommitsMeetFrom rest _
  | .observe _ _ _ _ _ _ :: rest, _ => decidableCommitsMeetFrom rest _
  | .markSourceFetch _ _ :: rest, _ => decidableCommitsMeetFrom rest _
  | .importBundle _ _ _ _ :: rest, _ => decidableCommitsMeetFrom rest _

theorem CommitsMeet.append_of_from {condition : PendingCall → Db → ℤ → Prop}
    {actions rest : List Action} (h : CommitsMeet P identity condition actions)
    (hrest : CommitsMeetFrom P identity condition (NodeState.run P identity actions) rest) :
    CommitsMeet P identity condition (actions ++ rest) := by
  induction rest generalizing actions with
  | nil =>
      rw [List.append_nil]
      exact h
  | cons action rest ih =>
      have hfrom : CommitsMeet P identity condition (actions ++ [action]) ∧
          CommitsMeetFrom P identity condition
            (NodeState.run P identity (actions ++ [action])) rest := by
        rw [NodeState.run_append_singleton]
        cases action with
        | commit index appendedAt =>
            refine ⟨h.append_singleton ?_, hrest.2⟩
            intro index appendedAt call accepted next haction hcall _
            cases haction
            exact hrest.1 call hcall
        | check call checkedAt =>
            exact ⟨h.append_singleton (by intros; contradiction), hrest⟩
        | observe sourceId languages feed retrievedAt entry appendedAt =>
            exact ⟨h.append_singleton (by intros; contradiction), hrest⟩
        | markSourceFetch sourceId success =>
            exact ⟨h.append_singleton (by intros; contradiction), hrest⟩
        | importBundle bundle observedAt now appendedAt =>
            exact ⟨h.append_singleton (by intros; contradiction), hrest⟩
      have happend := ih hfrom.1 hfrom.2
      rw [List.append_assoc, List.singleton_append] at happend
      exact happend

theorem commitsMeet_of_from {condition : PendingCall → Db → ℤ → Prop} {actions : List Action}
    (h : CommitsMeetFrom P identity condition (.init P identity) actions) :
    CommitsMeet P identity condition actions :=
  CommitsMeet.nil.append_of_from h

/-- A call which commits right after its checks. -/
theorem CommitsMeet.atOnce {condition : PendingCall → Db → ℤ → Prop}
    {actions : List Action} {call : Call} {now : ℤ}
    (h : CommitsMeet P identity condition actions)
    (hpending : (NodeState.run P identity actions).pending = [])
    (hcall : ∀ admitted,
      call.check P now (NodeState.run P identity actions).db = .ok admitted →
      condition ⟨admitted, now, (NodeState.run P identity actions).db⟩
        (NodeState.run P identity actions).db now) :
    CommitsMeet P identity condition (actions ++ [.check call now, .commit 0 now]) := by
  rw [show actions ++ [Action.check call now, .commit 0 now] =
    (actions ++ [.check call now]) ++ [.commit 0 now] by simp]
  refine (h.append_singleton ?_).append_singleton ?_
  · intro index appendedAt pending accepted next haction
    cases haction
  · intro index appendedAt pending accepted next haction hindex hcommit
    cases haction
    rw [NodeState.run_append_singleton] at hindex hcommit ⊢
    generalize NodeState.run P identity actions = node at *
    unfold NodeState.step at hindex hcommit ⊢
    simp only at hindex hcommit ⊢
    cases hcheck : call.check P now node.db with
    | ok admitted =>
        simp only [hcheck, hpending, List.nil_append, List.getElem?_cons_zero,
          Option.some.injEq] at hindex ⊢
        subst hindex
        exact hcall admitted hcheck
    | error reason =>
        simp [hcheck, hpending] at hindex

theorem pending_atOnce {actions : List Action} {call : Call} {now : ℤ}
    (hpending : (NodeState.run P identity actions).pending = []) :
    (NodeState.run P identity (actions ++ [.check call now, .commit 0 now])).pending = [] := by
  rw [show actions ++ [Action.check call now, .commit 0 now] =
    (actions ++ [.check call now]) ++ [.commit 0 now] by simp,
    NodeState.run_append_singleton, NodeState.run_append_singleton]
  generalize NodeState.run P identity actions = node at *
  unfold NodeState.step
  simp only
  cases call.check P now node.db with
  | ok admitted => simp [hpending]
  | error reason => simp [hpending]

end

end Commonwake
