import Commonwake.NodeHistory

/-!
# Replay safety

Every event of an author carries what its author signed, which is the object
without its signature.  Nobody can make a node log the same signed bytes
twice: a registration and a rotation use up a public key, a delegation its id,
a revocation the delegation, and every other object a nonce of its
delegation.
-/

namespace Commonwake

open Outcome Table HashChain

section

variable (P : Primitives)

/-! ## What an author signed -/

/-- The bytes which the author of a call signed. -/
def Admitted.signedBytes : Admitted → Bytes
  | .registerLineage _ registration =>
      P.signingPreimage lineageDomain (registration.toJson P)
  | .registerDelegation _ delegation =>
      P.signingPreimage delegationDomain (delegation.toJson P)
  | .revokeDelegation revocation =>
      P.signingPreimage revocationDomain (revocation.toJson P)
  | .rotateLineageKey rotation =>
      P.signingPreimage keyRotationDomain (rotation.statement.toJson P)
  | .appendContribution _ contribution =>
      P.signingPreimage contributionDomain (contribution.toJson P)
  | .appendAcknowledgement _ acknowledgement =>
      P.signingPreimage ackDomain (acknowledgement.toJson P)

/-- The bytes which the author of a logged event signed.  Observations and
witnesses come from the node itself. -/
def EventRow.signedBytes (row : EventRow) : Option Bytes := do
  let canonical ← P.parse row.canonicalJson
  match row.kind with
  | "observation" | "checkpoint_witnessed" => none
  | "lineage_registered" => some (P.signingPreimage lineageDomain canonical)
  | "delegation_registered" => some (P.signingPreimage delegationDomain canonical)
  | "delegation_revoked" => some (P.signingPreimage revocationDomain canonical)
  | "lineage_key_rotated" =>
      (canonical.get? "statement").map (P.signingPreimage keyRotationDomain)
  | "acknowledgement" => some (P.signingPreimage ackDomain canonical)
  | _ => some (P.signingPreimage contributionDomain canonical)

/-- The delegation and the nonce of an event. -/
def EventRow.authorKey (row : EventRow) : Option (String × String) := do
  let delegationId ← row.delegationId
  let nonce ← row.authorNonce
  pure (delegationId, nonce)

/-! ## What a call uses up -/

inductive Spent where
  | publicKey (key : String)
  | delegation (id : String)
  | revocation (id : String)
  | nonce (delegationId nonce : String)

def Admitted.spends : Admitted → Spent
  | .registerLineage _ registration => .publicKey registration.publicKey
  | .registerDelegation _ delegation => .delegation (delegationId P delegation)
  | .revokeDelegation revocation => .revocation revocation.delegationId
  | .rotateLineageKey rotation => .publicKey rotation.statement.newPublicKey
  | .appendContribution _ contribution =>
      .nonce contribution.delegationId contribution.nonce
  | .appendAcknowledgement _ acknowledgement =>
      .nonce acknowledgement.delegationId acknowledgement.nonce

/-- The tables show that it was used. -/
def Spent.In (db : Db) : Spent → Prop
  | .publicKey key => ∃ row ∈ db.authority.lineageKeys, row.publicKey = key
  | .delegation id => db.delegation? id ≠ none
  | .revocation id => ∃ row, db.delegation? id = some row ∧ row.revokedSequence ≠ none
  | .nonce id text => ∃ row ∈ db.events, row.delegationId = some id ∧
      row.authorNonce = some text

end

section

variable {P : Primitives}

/-! ## Signed bytes determine what is used up -/

/-- The signed bytes name their domain and their object. -/
theorem Primitives.signingPreimage_inj {domain other : String} {value object : Json}
    (hdomain : (0 : UInt8) ∉ utf8 domain) (hother : (0 : UInt8) ∉ utf8 other)
    (h : P.signingPreimage domain value = P.signingPreimage other object) :
    domain = other ∧
      P.canonicalWithoutSignature value = P.canonicalWithoutSignature object := by
  obtain ⟨hbytes, htext⟩ := append_zero_inj hdomain hother h
  exact ⟨TextBytes.utf8_injective hbytes, TextBytes.utf8_injective htext⟩

theorem Json.get?_remove {key name : String} (h : key ≠ name) (value : Json) :
    (value.remove name).get? key = value.get? key := by
  cases value with
  | object members =>
      simp only [Json.remove, Json.get?]
      induction members with
      | nil => rfl
      | cons member rest ih =>
          obtain ⟨first, v⟩ := member
          by_cases hfirst : first = name
          · have hskip : (key == first) = false := by
              rw [hfirst, beq_eq_false_iff_ne]
              exact h
            rw [List.filter_cons_of_neg (by simpa using hfirst), List.lookup_cons, hskip]
            exact ih
          · rw [List.filter_cons_of_pos (by simpa using hfirst), List.lookup_cons,
              List.lookup_cons, ih]
  | _ => rfl

/-- Objects with the same text apart from their signatures agree on every
other text in them. -/
theorem Primitives.get?_of_canonicalWithoutSignature {value object : Json}
    (h : P.canonicalWithoutSignature value = P.canonicalWithoutSignature object)
    {key first second : String} (hkey : key ≠ "signature")
    (hfirst : value.get? key = some (.string first))
    (hsecond : object.get? key = some (.string second)) : first = second := by
  have hcanon := congrArg (fun object => object.get? key) (P.jcs_eq_iff.mp h)
  simp only [Primitives.canon, Json.get?_mapNumbers, Json.get?_remove hkey, hfirst, hsecond,
    Option.map_some, Json.mapNumbers_string, Option.some.injEq, Json.string.injEq] at hcanon
  exact hcanon

/-- The domain of a call. -/
def Admitted.domain : Admitted → String
  | .registerLineage _ _ => lineageDomain
  | .registerDelegation _ _ => delegationDomain
  | .revokeDelegation _ => revocationDomain
  | .rotateLineageKey _ => keyRotationDomain
  | .appendContribution _ _ => contributionDomain
  | .appendAcknowledgement _ _ => ackDomain

/-- The object which the author of a call signed. -/
def Admitted.signedObject (P : Primitives) : Admitted → Json
  | .registerLineage _ registration => registration.toJson P
  | .registerDelegation _ delegation => delegation.toJson P
  | .revokeDelegation revocation => revocation.toJson P
  | .rotateLineageKey rotation => rotation.statement.toJson P
  | .appendContribution _ contribution => contribution.toJson P
  | .appendAcknowledgement _ acknowledgement => acknowledgement.toJson P

theorem Admitted.signedBytes_eq (admitted : Admitted) :
    admitted.signedBytes P = P.signingPreimage admitted.domain (admitted.signedObject P) := by
  cases admitted <;> rfl

theorem Admitted.zero_notMem_domain (admitted : Admitted) :
    (0 : UInt8) ∉ utf8 admitted.domain := by
  cases admitted with
  | registerLineage => exact (by decide : (0 : UInt8) ∉ utf8 lineageDomain)
  | registerDelegation => exact (by decide : (0 : UInt8) ∉ utf8 delegationDomain)
  | revokeDelegation => exact (by decide : (0 : UInt8) ∉ utf8 revocationDomain)
  | rotateLineageKey => exact (by decide : (0 : UInt8) ∉ utf8 keyRotationDomain)
  | appendContribution => exact (by decide : (0 : UInt8) ∉ utf8 contributionDomain)
  | appendAcknowledgement => exact (by decide : (0 : UInt8) ∉ utf8 ackDomain)

theorem SignedContribution.get?_delegationId (contribution : SignedContribution) :
    (contribution.toJson P).get? "delegation_id" =
      some (.string contribution.delegationId) := by
  cases hunverified : contribution.reporting.isUnverified with
  | true => simp [SignedContribution.toJson, hunverified, Json.get?, List.lookup_cons]
  | false => simp [SignedContribution.toJson, hunverified, Json.get?, List.lookup_cons]

theorem SignedContribution.get?_nonce (contribution : SignedContribution) :
    (contribution.toJson P).get? "nonce" = some (.string contribution.nonce) := by
  cases hunverified : contribution.reporting.isUnverified with
  | true => simp [SignedContribution.toJson, hunverified, Json.get?, List.lookup_cons]
  | false => simp [SignedContribution.toJson, hunverified, Json.get?, List.lookup_cons]

/-- Calls whose authors signed the same bytes use up the same thing. -/
theorem Admitted.spends_eq {first second : Admitted}
    (h : first.signedBytes P = second.signedBytes P) : first.spends P = second.spends P := by
  rw [first.signedBytes_eq, second.signedBytes_eq] at h
  obtain ⟨hdomain, htext⟩ := P.signingPreimage_inj first.zero_notMem_domain
    second.zero_notMem_domain h
  -- The domains keep the six kinds of objects apart.
  cases first <;> cases second <;>
    simp only [Admitted.domain, lineageDomain, delegationDomain, revocationDomain,
      keyRotationDomain, contributionDomain, ackDomain, String.reduceEq] at hdomain
  case registerLineage.registerLineage =>
    have hkey := Primitives.get?_of_canonicalWithoutSignature htext
      (by decide : "public_key" ≠ "signature") rfl rfl
    exact congrArg Spent.publicKey hkey
  case registerDelegation.registerDelegation =>
    exact congrArg (fun text => Spent.delegation (P.prefixedId "cwdel_" (utf8 text))) htext
  case revokeDelegation.revokeDelegation =>
    have hid := Primitives.get?_of_canonicalWithoutSignature htext
      (by decide : "delegation_id" ≠ "signature") rfl rfl
    exact congrArg Spent.revocation hid
  case rotateLineageKey.rotateLineageKey =>
    have hkey := Primitives.get?_of_canonicalWithoutSignature htext
      (by decide : "new_public_key" ≠ "signature") rfl rfl
    exact congrArg Spent.publicKey hkey
  case appendContribution.appendContribution _ contribution _ other =>
    have hid := Primitives.get?_of_canonicalWithoutSignature htext
      (by decide : "delegation_id" ≠ "signature") contribution.get?_delegationId
      other.get?_delegationId
    have hnonce := Primitives.get?_of_canonicalWithoutSignature htext
      (by decide : "nonce" ≠ "signature") contribution.get?_nonce other.get?_nonce
    exact congrArg₂ Spent.nonce hid hnonce
  case appendAcknowledgement.appendAcknowledgement =>
    have hid := Primitives.get?_of_canonicalWithoutSignature htext
      (by decide : "delegation_id" ≠ "signature") rfl rfl
    have hnonce := Primitives.get?_of_canonicalWithoutSignature htext
      (by decide : "nonce" ≠ "signature") rfl rfl
    exact congrArg₂ Spent.nonce hid hnonce

/-! ## The event of a call -/

theorem signedBytes_of_canonical {row : EventRow} {canonical : Json}
    (hcanonical : P.parse row.canonicalJson = some canonical) (kind : ContributionKind)
    (hkind : row.kind = kind.asStr) :
    row.signedBytes P = some (P.signingPreimage contributionDomain canonical) := by
  unfold EventRow.signedBytes
  rw [hcanonical, hkind]
  cases kind <;> rfl

/-- The event of a call carries the bytes which its author signed. -/
theorem Appended.signedBytes {identity : NodeIdentity P} {admitted : Admitted}
    {appendedAt : ℤ} {db logged : Db} {row : EventRow} {accepted : AcceptedObject}
    (h : Appended P identity (admitted.input P) appendedAt db row accepted logged) :
    row.signedBytes P = some (admitted.signedBytes P) := by
  obtain ⟨-, hkind, -, -, -, -, hjson⟩ := h.columns
  have hread : ∀ value, (admitted.input P).canonicalJson = P.jcs value →
      P.parse row.canonicalJson = some (P.canon value) := by
    intro value hvalue
    rw [hjson, hvalue]
    exact P.parse_jcs' value
  cases admitted with
  | registerLineage lineageId registration =>
      unfold EventRow.signedBytes
      rw [hread _ rfl, hkind]
      exact congrArg some (P.signingPreimage_canon _ _)
  | registerDelegation id delegation =>
      unfold EventRow.signedBytes
      rw [hread _ rfl, hkind]
      exact congrArg some (P.signingPreimage_canon _ _)
  | revokeDelegation revocation =>
      unfold EventRow.signedBytes
      rw [hread _ rfl, hkind]
      exact congrArg some (P.signingPreimage_canon _ _)
  | rotateLineageKey rotation =>
      have hstatement : (P.canon (rotation.toJson P)).get? "statement" =
          some (P.canon (rotation.statement.toJson P)) := by
        unfold Primitives.canon
        rw [Json.get?_mapNumbers]
        rfl
      unfold EventRow.signedBytes
      rw [hread _ rfl, hkind]
      change ((P.canon (rotation.toJson P)).get? "statement").map _ = _
      rw [hstatement]
      exact congrArg some (P.signingPreimage_canon _ _)
  | appendContribution lineageId contribution =>
      rw [signedBytes_of_canonical (hread _ rfl) contribution.kind hkind]
      exact congrArg some (P.signingPreimage_canon _ _)
  | appendAcknowledgement lineageId acknowledgement =>
      unfold EventRow.signedBytes
      rw [hread _ rfl, hkind]
      exact congrArg some (P.signingPreimage_canon _ _)

theorem Appended.authorNonce {identity : NodeIdentity P} {input : EventInput}
    {appendedAt : ℤ} {db logged : Db} {row : EventRow} {accepted : AcceptedObject}
    (h : Appended P identity input appendedAt db row accepted logged) :
    row.authorNonce = input.authorNonce := by
  obtain ⟨previous, canonical, -, -, -, rfl⟩ := h.row_eq
  rfl

/-- The nonce of a new event is new under its delegation. -/
theorem Appended.fresh_nonce {identity : NodeIdentity P} {input : EventInput}
    {appendedAt : ℤ} {db logged : Db} {row : EventRow} {accepted : AcceptedObject}
    (h : Appended P identity input appendedAt db row accepted logged) {key : String × String}
    (hkey : row.authorKey = some key) : ∀ stored ∈ db.events, stored.authorKey ≠ some key := by
  intro stored hstored hsame
  obtain ⟨id, nonce⟩ := key
  have hclash := h.fresh stored hstored
  simp only [EventRow.authorKey, Option.bind_eq_bind, Option.bind_eq_some_iff, Option.pure_def,
    Option.some.injEq, Prod.mk.injEq] at hkey hsame
  obtain ⟨_, hid, _, hnonce, rfl, rfl⟩ := hkey
  obtain ⟨_, hstoredId, _, hstoredNonce, rfl, rfl⟩ := hsame
  simp [EventRow.clashes, hid, hnonce, hstoredId, hstoredNonce] at hclash

/-! ## Using up -/

section

variable {identity : NodeIdentity P} {admitted : Admitted} {appendedAt : ℤ} {db next : Db}
  {row : EventRow} {accepted : AcceptedObject}

theorem authorKey_eq_some {id nonce : String} :
    row.authorKey = some (id, nonce) ↔
      row.delegationId = some id ∧ row.authorNonce = some nonce := by
  simp [EventRow.authorKey, Option.bind_eq_some_iff]

theorem delegationId_of_checked {id : String} {delegation : SessionDelegation}
    {checkedAt : ℤ} {seen : Db}
    (h : (Admitted.registerDelegation id delegation).Checked P checkedAt seen) :
    delegationId P delegation = id := by
  simp only [Admitted.Checked, checkRegisterDelegation, bind_eq_ok, pure_eq_ok,
    Except.ok.injEq] at h
  obtain ⟨-, -, -, -, -, -, -, -, -, -, hid⟩ := h
  exact hid

/-- A call is not committed when what it uses up was used before. -/
theorem Committed.unspent
    (h : Committed P identity admitted appendedAt db row accepted next)
    {checkedAt : ℤ} {seen : Db} (hchecked : admitted.Checked P checkedAt seen) :
    ¬ (admitted.spends P).In db := by
  obtain ⟨logged, happended, -⟩ := h.appended
  have heffect := h.effect
  obtain ⟨-, -, -, hdelegation, -, -, -⟩ := happended.columns
  have hnonce := happended.authorNonce
  generalize next.authority = tables at heffect
  cases heffect with
  | registerLineage lineageId registration _ hkey _ =>
      rintro ⟨stored, hstored, hsame⟩
      exact hkey stored hstored hsame
  | registerDelegation id delegation hnew _ =>
      have hid : delegationId P delegation = id := delegationId_of_checked hchecked
      intro hused
      exact hused (by rw [hid]; exact hnew)
  | revokeDelegation revocation owner howner _ hactive =>
      rintro ⟨stored, hstored, hrevoked⟩
      rw [howner, Option.some.injEq] at hstored
      rw [← hstored] at hrevoked
      exact hrevoked hactive
  | rotateLineageKey rotation lineage _ _ hnew _ _ =>
      rintro ⟨stored, hstored, hsame⟩
      exact hnew stored hstored hsame
  | appendContribution lineageId contribution =>
      rintro ⟨stored, hstored, hsame⟩
      exact happended.fresh_nonce (authorKey_eq_some.mpr ⟨hdelegation, hnonce⟩) stored hstored
        (authorKey_eq_some.mpr hsame)
  | appendAcknowledgement lineageId acknowledgement _ _ _ =>
      rintro ⟨stored, hstored, hsame⟩
      exact happended.fresh_nonce (authorKey_eq_some.mpr ⟨hdelegation, hnonce⟩) stored hstored
        (authorKey_eq_some.mpr hsame)

/-- A committed call has used it up. -/
theorem Committed.spent
    (h : Committed P identity admitted appendedAt db row accepted next)
    {checkedAt : ℤ} {seen : Db} (hchecked : admitted.Checked P checkedAt seen) :
    (admitted.spends P).In next := by
  obtain ⟨logged, happended, -⟩ := h.appended
  have heffect := h.effect
  have hrow : row ∈ next.events := by
    rw [h.events]
    exact List.mem_append_right _ List.mem_cons_self
  obtain ⟨-, -, -, hdelegation, -, -, -⟩ := happended.columns
  have hnonce := happended.authorNonce
  generalize htables : next.authority = tables at heffect
  cases heffect with
  | registerLineage lineageId registration _ _ _ =>
      refine ⟨registeredKey lineageId registration accepted.sequence, ?_, rfl⟩
      rw [htables]
      exact List.mem_append_right _ List.mem_cons_self
  | registerDelegation id delegation hnew _ =>
      have hid : delegationId P delegation = id := delegationId_of_checked hchecked
      change next.delegation? (delegationId P delegation) ≠ none
      unfold Db.delegation? at hnew ⊢
      rw [hid, htables]
      simp [List.find?_append, hnew, registeredDelegation, delegationRow]
  | revokeDelegation revocation owner howner _ hactive =>
      unfold Db.delegation? at howner
      refine ⟨{ owner with revokedSequence := some accepted.sequence }, ?_, by simp⟩
      unfold Db.delegation?
      rw [htables, revokeWhere, find?_updateWhere, howner]
      · have hid := List.find?_some howner
        simp [hactive, eq_of_beq hid]
      · intro _ _
        rfl
  | rotateLineageKey rotation lineage _ _ _ _ _ =>
      refine ⟨rotatedKey db.authority.lineageKeys rotation.statement accepted.sequence, ?_,
        rfl⟩
      rw [htables]
      exact List.mem_append_right _ List.mem_cons_self
  | appendContribution lineageId contribution => exact ⟨row, hrow, hdelegation, hnonce⟩
  | appendAcknowledgement lineageId acknowledgement _ _ _ =>
      exact ⟨row, hrow, hdelegation, hnonce⟩

/-! ## Once used, always used -/

/-- What was used in one state is used in another. -/
structure Db.SpentKept (first second : Db) : Prop where
  keys : ∀ key ∈ first.authority.lineageKeys, ∃ kept ∈ second.authority.lineageKeys,
    kept.publicKey = key.publicKey
  delegations : ∀ id row, first.delegation? id = some row →
    ∃ kept, second.delegation? id = some kept ∧
      (row.revokedSequence ≠ none → kept.revokedSequence ≠ none)
  events : first.events ⊆ second.events

theorem Spent.In.kept {first second : Db} {spent : Spent} (h : spent.In first)
    (hkept : first.SpentKept second) : spent.In second := by
  cases spent with
  | publicKey key =>
      obtain ⟨row, hrow, rfl⟩ := h
      exact hkept.keys row hrow
  | delegation id =>
      obtain ⟨row, hrow⟩ := Option.ne_none_iff_exists'.mp h
      obtain ⟨kept, hfound, -⟩ := hkept.delegations id row hrow
      exact Option.ne_none_iff_exists'.mpr ⟨kept, hfound⟩
  | revocation id =>
      obtain ⟨row, hrow, hrevoked⟩ := h
      obtain ⟨kept, hfound, hstill⟩ := hkept.delegations id row hrow
      exact ⟨kept, hfound, hstill hrevoked⟩
  | nonce id text =>
      obtain ⟨row, hrow, hsame⟩ := h
      exact ⟨row, hkept.events hrow, hsame⟩

theorem Db.SpentKept.of_authority {first second : Db}
    (h : second.authority = first.authority) (hevents : first.events ⊆ second.events) :
    first.SpentKept second := by
  refine ⟨?_, ?_, hevents⟩
  · intro key hkey
    exact ⟨key, by rw [h]; exact hkey, rfl⟩
  · intro id row hrow
    unfold Db.delegation? at hrow ⊢
    rw [h]
    exact ⟨row, hrow, fun hrevoked => hrevoked⟩

theorem find?_revokeWhere_revoked {condition : LocalDelegationRow → Bool} {sequence : ℤ}
    {rows : List LocalDelegationRow} {id : String} {row : LocalDelegationRow}
    (h : rows.find? (fun row => row.delegationId == id) = some row) :
    ∃ kept, (revokeWhere condition sequence rows).find?
        (fun row => row.delegationId == id) = some kept ∧
      (row.revokedSequence ≠ none → kept.revokedSequence ≠ none) := by
  unfold revokeWhere
  rw [find?_updateWhere, h]
  · refine ⟨_, rfl, ?_⟩
    intro hrevoked
    simp only
    split
    · simp
    · exact hrevoked
  · intro _ _
    rfl

theorem Committed.spentKept
    (h : Committed P identity admitted appendedAt db row accepted next) :
    db.SpentKept next := by
  have hevents : db.events ⊆ next.events := by
    rw [h.events]
    exact List.subset_append_left _ _
  have heffect := h.effect
  have hsame : ∀ rows : List LocalDelegationRow, (∀ id row, db.delegation? id = some row →
      rows.find? (fun row => row.delegationId == id) = some row) →
      ∀ id row, db.delegation? id = some row →
        ∃ kept, rows.find? (fun row => row.delegationId == id) = some kept ∧
          (row.revokedSequence ≠ none → kept.revokedSequence ≠ none) :=
    fun rows hfound id row hrow => ⟨row, hfound id row hrow, fun hrevoked => hrevoked⟩
  generalize htables : next.authority = tables at heffect
  have hdelegation : ∀ id, next.delegation? id =
      tables.delegations.find? fun row => row.delegationId == id := by
    intro id
    unfold Db.delegation?
    rw [htables]
  cases heffect with
  | registerLineage lineageId registration _ _ _ =>
      refine ⟨?_, ?_, hevents⟩
      · intro key hkey
        exact ⟨key, by rw [htables]; exact List.mem_append_left _ hkey, rfl⟩
      · simp only [hdelegation]
        exact hsame _ fun _ _ hrow => hrow
  | registerDelegation id delegation _ _ =>
      refine ⟨?_, ?_, hevents⟩
      · intro key hkey
        exact ⟨key, by rw [htables]; exact hkey, rfl⟩
      · simp only [hdelegation]
        refine hsame _ fun other row hrow => ?_
        unfold Db.delegation? at hrow
        rw [List.find?_append, hrow, Option.some_or]
  | revokeDelegation revocation owner _ _ _ =>
      refine ⟨?_, ?_, hevents⟩
      · intro key hkey
        exact ⟨key, by rw [htables]; exact hkey, rfl⟩
      · simp only [hdelegation]
        exact fun _ _ hrow => find?_revokeWhere_revoked hrow
  | rotateLineageKey rotation lineage _ _ _ _ _ =>
      refine ⟨?_, ?_, hevents⟩
      · intro key hkey
        rw [htables]
        have hmap : (closeKeys rotation.statement.lineageId accepted.sequence
            db.authority.lineageKeys).map LineageKeyRow.publicKey =
              db.authority.lineageKeys.map LineageKeyRow.publicKey := by
          apply map_updateWhere
          intro _ _
          rfl
        have hmem : key.publicKey ∈ (closeKeys rotation.statement.lineageId accepted.sequence
            db.authority.lineageKeys).map LineageKeyRow.publicKey := by
          rw [hmap]
          exact List.mem_map_of_mem hkey
        obtain ⟨kept, hkept, hpublic⟩ := List.mem_map.mp hmem
        exact ⟨kept, List.mem_append_left _ hkept, hpublic⟩
      · simp only [hdelegation]
        intro id row hrow
        by_cases hrevoke : rotation.statement.revokeExistingDelegations = true
        · rw [if_pos hrevoke]
          exact find?_revokeWhere_revoked hrow
        · rw [if_neg hrevoke]
          exact ⟨row, hrow, fun hrevoked => hrevoked⟩
  | appendContribution lineageId contribution =>
      exact .of_authority htables hevents
  | appendAcknowledgement lineageId acknowledgement _ _ _ =>
      refine ⟨?_, ?_, hevents⟩
      · intro key hkey
        exact ⟨key, by rw [htables]; exact hkey, rfl⟩
      · simp only [hdelegation]
        exact hsame _ fun _ _ hrow => hrow

/-! ## Every run -/

/-- No two events carry the same signed bytes or the same nonce of a
delegation, and what the authors of the log have signed is used up. -/
structure ReplaySafe (P : Primitives) (db : Db) : Prop where
  statements : (db.events.filterMap (EventRow.signedBytes P)).Nodup
  nonces : (db.events.filterMap EventRow.authorKey).Nodup
  spent : ∀ row ∈ db.events, ∀ bytes, row.signedBytes P = some bytes →
    ∃ admitted : Admitted, admitted.signedBytes P = bytes ∧ (admitted.spends P).In db

theorem nodup_filterMap_append {α β : Type} {f : α → Option β} {entries : List α} {entry : α}
    (h : (entries.filterMap f).Nodup)
    (hnew : ∀ b, f entry = some b → ∀ old ∈ entries, f old ≠ some b) :
    ((entries ++ [entry]).filterMap f).Nodup := by
  rw [List.filterMap_append, List.nodup_append]
  refine ⟨h, ?_, ?_⟩
  · cases hentry : f entry <;> simp [hentry]
  · intro b hb other hother hsame
    obtain ⟨old, hold, hfold⟩ := List.mem_filterMap.mp hb
    simp only [List.filterMap_cons, List.filterMap_nil] at hother
    cases hentry : f entry with
    | none => simp [hentry] at hother
    | some value =>
        simp only [hentry, List.mem_singleton] at hother
        subst hother hsame
        exact hnew _ hentry old hold hfold

/-- An event of the node itself carries no signed bytes and no nonce. -/
theorem ReplaySafe.append_own (h : ReplaySafe P db) (hevents : next.events = db.events ++ [row])
    (hbytes : row.signedBytes P = none) (hkey : row.authorKey = none)
    (hkept : db.SpentKept next) : ReplaySafe P next := by
  refine ⟨?_, ?_, ?_⟩
  · rw [hevents]
    refine nodup_filterMap_append h.statements ?_
    rw [hbytes]
    intro b hb
    cases hb
  · rw [hevents]
    refine nodup_filterMap_append h.nonces ?_
    rw [hkey]
    intro b hb
    cases hb
  · intro stored hstored bytes hsigned
    rw [hevents] at hstored
    rcases List.mem_append.mp hstored with hold | hnew
    · obtain ⟨admitted, hsame, hspent⟩ := h.spent stored hold bytes hsigned
      exact ⟨admitted, hsame, hspent.kept hkept⟩
    · rw [List.mem_singleton.mp hnew, hbytes] at hsigned
      cases hsigned

theorem ReplaySafe.commit (h : ReplaySafe P db)
    (hcommitted : Committed P identity admitted appendedAt db row accepted next)
    {checkedAt : ℤ} {seen : Db} (hchecked : admitted.Checked P checkedAt seen) :
    ReplaySafe P next := by
  obtain ⟨logged, happended, -⟩ := hcommitted.appended
  have hbytes := happended.signedBytes
  refine ⟨?_, ?_, ?_⟩
  · rw [hcommitted.events]
    refine nodup_filterMap_append h.statements ?_
    intro bytes hnew old hold hsame
    -- The author of an old event signed the same, and used up what this call needs.
    obtain ⟨other, hother, hspent⟩ := h.spent old hold bytes hsame
    rw [hbytes, Option.some.injEq] at hnew
    rw [Admitted.spends_eq (hother.trans hnew.symm)] at hspent
    exact hcommitted.unspent hchecked hspent
  · rw [hcommitted.events]
    exact nodup_filterMap_append h.nonces fun _ hkey => happended.fresh_nonce hkey
  · intro stored hstored bytes hsigned
    rw [hcommitted.events] at hstored
    rcases List.mem_append.mp hstored with hold | hnew
    · obtain ⟨other, hsame, hspent⟩ := h.spent stored hold bytes hsigned
      exact ⟨other, hsame, hspent.kept hcommitted.spentKept⟩
    · rw [List.mem_singleton.mp hnew, hbytes, Option.some.injEq] at hsigned
      exact ⟨admitted, hsigned, hcommitted.spent hchecked⟩

theorem signedBytes_eq_none {stored : EventRow}
    (h : stored.kind = "observation" ∨ stored.kind = "checkpoint_witnessed") :
    stored.signedBytes P = none := by
  unfold EventRow.signedBytes
  rcases h with h | h
  · rw [h]
    cases P.parse stored.canonicalJson <;> rfl
  · rw [h]
    cases P.parse stored.canonicalJson <;> rfl

theorem History.replaySafe {commits : PendingCall → Db → ℤ → Prop}
    {entries : FeedEntry → Prop} (h : History P identity commits entries db) :
    ReplaySafe P db := by
  induction h with
  | init => exact ⟨List.nodup_nil, List.nodup_nil, by intro row hrow; cases hrow⟩
  | quiet db next _ hquiet ih =>
      obtain ⟨hstatements, hnonces, hspent⟩ := ih
      have hkept : db.SpentKept next :=
        .of_authority hquiet.authority (by rw [hquiet.events]; exact List.Subset.refl _)
      refine ⟨by rw [hquiet.events]; exact hstatements, by rw [hquiet.events]; exact hnonces, ?_⟩
      intro row hrow bytes hsigned
      rw [hquiet.events] at hrow
      obtain ⟨admitted, hsame, hused⟩ := hspent row hrow bytes hsigned
      exact ⟨admitted, hsame, hused.kept hkept⟩
  | commit db next call appendedAt row accepted _ hsound _ _ hcommitted ih =>
      exact ih.commit hcommitted hsound.checked
  | observe db next sourceId languages feed retrievedAt entry canonicalUrl appendedAt row
      accepted _ _ hobserved ih =>
      obtain ⟨logged, happended, -⟩ := hobserved.appended
      have hkey : row.authorKey = none := by
        have hnonce := happended.authorNonce
        simp only [EventRow.authorKey, hnonce, observationInput]
        cases row.delegationId <;> rfl
      refine ih.append_own hobserved.events
        (signedBytes_eq_none (.inl happended.columns.2.1)) hkey ?_
      refine .of_authority (Db.appendObservation_authority hobserved.append) ?_
      rw [hobserved.events]
      exact List.subset_append_left _ _
  | witness db next bundle observedAt appendedAt row _ hwitnessed ih =>
      obtain ⟨base, accepted, logged, hbase, happended⟩ := hwitnessed.appended
      have hkey : row.authorKey = none := by
        have hnonce := happended.authorNonce
        simp only [EventRow.authorKey, hnonce, witnessInput]
        cases row.delegationId <;> rfl
      refine ih.append_own hwitnessed.events
        (signedBytes_eq_none (.inr happended.columns.2.1)) hkey ?_
      refine .of_authority hwitnessed.same.authority ?_
      rw [hwitnessed.events]
      exact List.subset_append_left _ _

/-- In every run, an accepted object becomes one event which carries what its
author signed, no other event carries the same signed bytes, and no other event
under the same delegation has its nonce. -/
theorem run_replaySafe (P : Primitives) (identity : NodeIdentity P) (actions : List Action) :
    (∀ before index appendedAt after call accepted next,
      actions = before ++ .commit index appendedAt :: after →
      (NodeState.run P identity before).pending[index]? = some call →
      call.admitted.commit P identity appendedAt (NodeState.run P identity before).db =
        .ok (accepted, next) →
      ∃ row, next.events = (NodeState.run P identity before).db.events ++ [row] ∧
        row.signedBytes P = some (call.admitted.signedBytes P)) ∧
    ((NodeState.run P identity actions).db.events.filterMap
      (EventRow.signedBytes P)).Nodup ∧
    ((NodeState.run P identity actions).db.events.filterMap EventRow.authorKey).Nodup := by
  have hsafe := (run_history_any P identity actions).replaySafe
  refine ⟨?_, hsafe.statements, hsafe.nonces⟩
  intro before index appendedAt after call accepted next _ _ hcommit
  obtain ⟨row, hcommitted⟩ := Admitted.commit_eq_ok hcommit
  obtain ⟨logged, happended, -⟩ := hcommitted.appended
  exact ⟨row, hcommitted.events, happended.signedBytes⟩

end

end

end Commonwake
