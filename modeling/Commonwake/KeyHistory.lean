import Commonwake.AuthorityReplay
import Commonwake.ContentMirror
import Commonwake.Continuity

/-!
# The history of the keys of a lineage

Every lineage has one key at a time.  Its keys are numbered from zero, each of
them is in force from the event which introduced it to the event which
replaced it, and no key is ever used twice.  A delegation ends with the first
event which revokes it.  An importer of the log keeps the same history.
-/

namespace Commonwake

open Outcome Table HashChain

/-! ## Consecutive keys -/

/-- Keys with consecutive versions and validity intervals.  Only the last one
is open, and it is the current key. -/
def KeyChain (current : String) : ℤ → ℤ → List LineageKeyRow → Prop
  | _, _, [] => False
  | version, start, [key] =>
      key.keyVersion = version ∧ key.validFromSequence = start ∧
        key.validToSequence = none ∧ key.publicKey = current
  | version, start, key :: next :: rest =>
      key.keyVersion = version ∧ key.validFromSequence = start ∧
        key.validToSequence = some next.validFromSequence ∧
        start < next.validFromSequence ∧
        KeyChain current (version + 1) next.validFromSequence (next :: rest)

/-- The key is closed, unless it was closed before. -/
def LineageKeyRow.closed (sequence : ℤ) (row : LineageKeyRow) : LineageKeyRow :=
  if row.validToSequence.isNone then { row with validToSequence := some sequence } else row

namespace KeyChain

variable {current : String} {version start : ℤ} {keys : List LineageKeyRow}

/-- The versions end where the number of keys says. -/
theorem max?_versions (h : KeyChain current version start keys) :
    (keys.map LineageKeyRow.keyVersion).max? = some (version + keys.length - 1) := by
  induction keys generalizing version start with
  | nil => exact h.elim
  | cons key rest ih =>
      cases rest with
      | nil =>
          obtain ⟨hversion, -, -, -⟩ := h
          simp [hversion]
      | cons next rest =>
          obtain ⟨hversion, -, -, -, hrest⟩ := h
          have hmax := ih hrest
          rw [List.map_cons, List.max?_cons, hmax, hversion, Option.elim_some,
            Option.some.injEq]
          simp only [List.length_cons]
          push_cast
          omega

/-- A rotation closes the last key and adds one. -/
theorem rotate (h : KeyChain current version start keys) {sequence : ℤ}
    (hpast : ∀ key ∈ keys, key.validFromSequence < sequence) (lineageId newKey : String) :
    KeyChain newKey version start (keys.map (LineageKeyRow.closed sequence) ++
      [⟨lineageId, version + keys.length, newKey, sequence, none⟩]) := by
  induction keys generalizing version start with
  | nil => exact h.elim
  | cons key rest ih =>
      have hlast : key.validFromSequence < sequence := hpast key List.mem_cons_self
      cases rest with
      | nil =>
          obtain ⟨hversion, hstart, hopen, -⟩ := h
          have hclosed : key.closed sequence = { key with validToSequence := some sequence } := by
            simp [LineageKeyRow.closed, hopen]
          rw [List.map_cons, List.map_nil, hclosed]
          refine ⟨hversion, hstart, rfl, hstart ▸ hlast, ?_⟩
          simp [KeyChain]
      | cons next rest =>
          obtain ⟨hversion, hstart, hclosedAt, hbefore, hrest⟩ := h
          have hkept : key.closed sequence = key := by
            simp [LineageKeyRow.closed, hclosedAt]
          have hnext : (next.closed sequence).validFromSequence = next.validFromSequence := by
            unfold LineageKeyRow.closed
            split <;> rfl
          have htail := ih hrest fun other hother => hpast other (List.mem_cons_of_mem _ hother)
          have hcount : version + ((key :: next :: rest).length : ℤ) =
              version + 1 + ((next :: rest).length : ℤ) := by
            simp only [List.length_cons]
            push_cast
            omega
          rw [List.map_cons, hkept, hcount]
          refine ⟨hversion, hstart, ?_, ?_, ?_⟩
          · rw [hnext]
            exact hclosedAt
          · rw [hnext]
            exact hbefore
          · rw [hnext]
            exact htail

end KeyChain

section

variable (P : Primitives)

/-! ## What the log says about authority -/

/-- The lineage which an event registers. -/
def EventRow.registers (row : EventRow) (lineageId : String) : Prop :=
  row.kind = "lineage_registered" ∧ ∃ canonical registration key,
    P.parse row.canonicalJson = some canonical ∧
    LineageRegistration.ofJson P canonical = some registration ∧
    P.verifyingKeyFromB64 registration.publicKey = .ok key ∧ P.lineageId key = lineageId

/-- The event revokes the delegation: it names the delegation, or it rotates the
key of its lineage together with its delegations. -/
def EventRow.revokes (row : EventRow) (delegation : DelegationRow) : Bool :=
  match P.parse row.canonicalJson with
  | none => false
  | some canonical =>
      match row.kind with
      | "delegation_revoked" => (DelegationRevocation.ofJson P canonical).any
          fun revocation => revocation.delegationId == delegation.delegationId
      | "lineage_key_rotated" => (SignedKeyRotation.ofJson P canonical).any
          fun rotation => rotation.statement.revokeExistingDelegations &&
            rotation.statement.lineageId == delegation.lineageId
      | _ => false

/-- The first event after its registration which revokes a delegation. -/
def firstRevocation (events : List EventRow) (delegation : DelegationRow) : Option ℤ :=
  (events.find? fun row => decide (delegation.registeredSequence < row.sequence) &&
    row.revokes P delegation).map EventRow.sequence

/-- The keys of a lineage, in the order in which they were introduced. -/
def Db.keysOf (db : Db) (lineageId : String) : List LineageKeyRow :=
  db.authority.lineageKeys.filter fun row => row.lineageId == lineageId

/-- The history of the lineages and their keys. -/
structure LineageHistory (db : Db) : Prop where
  lineages : (db.authority.lineages.map LineageRow.lineageId).Nodup
  registered : ∀ lineage ∈ db.authority.lineages, ∃ row ∈ db.events,
    row.sequence = lineage.registeredSequence ∧ row.registers P lineage.lineageId
  chains : ∀ lineage ∈ db.authority.lineages,
    KeyChain lineage.publicKey 0 lineage.registeredSequence (db.keysOf lineage.lineageId)
  owned : ∀ key ∈ db.authority.lineageKeys,
    ∃ lineage ∈ db.authority.lineages, lineage.lineageId = key.lineageId
  past : ∀ key ∈ db.authority.lineageKeys, key.validFromSequence ≤ db.head
  publicKeys : (db.authority.lineageKeys.map LineageKeyRow.publicKey).Nodup

/-- The history of the delegations: each of them ends with the first event which
revokes it. -/
structure DelegationHistory (db : Db) : Prop where
  delegations : (db.authority.delegations.map fun row => row.delegationId).Nodup
  since : ∀ delegation ∈ db.authority.delegations, delegation.registeredSequence ≤ db.head
  revocations : ∀ delegation ∈ db.authority.delegations,
    delegation.revokedSequence = firstRevocation P db.events delegation.toDelegationRow

structure KeyHistory (db : Db) : Prop extends LineageHistory P db, DelegationHistory P db

end

section

variable {P : Primitives} {identity : NodeIdentity P}

/-! ## Revocations -/

theorem firstRevocation_append (events : List EventRow) (row : EventRow)
    (delegation : DelegationRow) :
    firstRevocation P (events ++ [row]) delegation =
      (firstRevocation P events delegation).or
        (if delegation.registeredSequence < row.sequence ∧ row.revokes P delegation = true then
          some row.sequence else none) := by
  unfold firstRevocation
  rw [List.find?_append]
  cases events.find? fun row => decide (delegation.registeredSequence < row.sequence) &&
      row.revokes P delegation with
  | some first => rfl
  | none =>
      by_cases hrevokes : delegation.registeredSequence < row.sequence ∧
          row.revokes P delegation = true
      · simp [hrevokes]
      · have htest : (decide (delegation.registeredSequence < row.sequence) &&
            row.revokes P delegation) = false := by
          rw [← Bool.not_eq_true, Bool.and_eq_true, decide_eq_true_eq]
          exact hrevokes
        simp [htest, hrevokes]

/-- No event revokes a delegation which is registered after it. -/
theorem firstRevocation_eq_none {events : List EventRow} {delegation : DelegationRow}
    (h : ∀ row ∈ events, row.sequence ≤ delegation.registeredSequence) :
    firstRevocation P events delegation = none := by
  unfold firstRevocation
  rw [Option.map_eq_none_iff, List.find?_eq_none]
  intro row hrow
  have hle := h row hrow
  simp [not_lt.mpr hle]

/-- The delegations which the event of a call revokes. -/
def Admitted.revokes (delegation : DelegationRow) : Admitted → Bool
  | .revokeDelegation revocation => revocation.delegationId == delegation.delegationId
  | .rotateLineageKey rotation => rotation.statement.revokeExistingDelegations &&
      rotation.statement.lineageId == delegation.lineageId
  | _ => false

theorem Appended.revokes {admitted : Admitted} {appendedAt : ℤ} {db logged : Db}
    {row : EventRow} {accepted : AcceptedObject}
    (h : Appended P identity (admitted.input P) appendedAt db row accepted logged)
    (delegation : DelegationRow) : row.revokes P delegation = admitted.revokes delegation := by
  obtain ⟨-, hkind, -, -, -, -, hjson⟩ := h.columns
  have hread : ∀ value, (admitted.input P).canonicalJson = P.jcs value →
      P.parse row.canonicalJson = some (P.canon value) := by
    intro value hvalue
    rw [hjson, hvalue]
    exact P.parse_jcs' value
  unfold EventRow.revokes
  cases admitted with
  | registerLineage lineageId registration =>
      rw [hread _ rfl, hkind]
      rfl
  | registerDelegation id delegation =>
      rw [hread _ rfl, hkind]
      rfl
  | revokeDelegation revocation =>
      rw [hread _ rfl, hkind]
      simp only [Admitted.input, revocationInput, DelegationRevocation.ofJson_canon,
        Option.any_some]
      rfl
  | rotateLineageKey rotation =>
      rw [hread _ rfl, hkind]
      simp only [Admitted.input, rotationInput, SignedKeyRotation.ofJson_canon,
        Option.any_some]
      rfl
  | appendContribution lineageId contribution =>
      rw [hread _ rfl, hkind]
      change (match contribution.kind.asStr with
        | "delegation_revoked" => _
        | "lineage_key_rotated" => _
        | _ => false) = false
      cases contribution.kind <;> rfl
  | appendAcknowledgement lineageId acknowledgement =>
      rw [hread _ rfl, hkind]
      rfl

section

variable {admitted : Admitted} {appendedAt : ℤ} {db next : Db} {row : EventRow}
  {accepted : AcceptedObject}

theorem AuthorityEffect.delegations_nodup
    (h : AuthorityEffect P db accepted admitted next.authority)
    (hnodup : (db.authority.delegations.map fun row => row.delegationId).Nodup) :
    (next.authority.delegations.map fun row => row.delegationId).Nodup := by
  have hrevoke : ∀ condition : LocalDelegationRow → Bool,
      ((revokeWhere condition accepted.sequence db.authority.delegations).map
        fun row => row.delegationId).Nodup := by
    intro condition
    unfold revokeWhere
    rw [map_updateWhere]
    · exact hnodup
    · intro _ _
      rfl
  generalize next.authority = authority at h
  cases h with
  | registerLineage => exact hnodup
  | registerDelegation id statement hnew =>
      rw [List.map_append, List.nodup_append]
      refine ⟨hnodup, List.nodup_singleton _, ?_⟩
      intro stored hstored other hother
      obtain ⟨old, hold, rfl⟩ := List.mem_map.mp hstored
      rw [List.mem_singleton.mp hother]
      change old.delegationId ≠ id
      simpa using List.find?_eq_none.mp hnew old hold
  | revokeDelegation => exact hrevoke _
  | rotateLineageKey rotation =>
      simp only
      split
      · exact hrevoke _
      · exact hnodup
  | appendContribution => exact hnodup
  | appendAcknowledgement => exact hnodup

/-- Every delegation after a call is new, or was there and is revoked by the
call when it was not before. -/
theorem AuthorityEffect.delegation_cases
    (h : AuthorityEffect P db accepted admitted next.authority) :
    ∀ delegation ∈ next.authority.delegations,
      (∃ id statement, admitted = .registerDelegation id statement ∧
        delegation = registeredDelegation P id statement accepted.sequence) ∨
      ∃ old ∈ db.authority.delegations, delegation = { old with
        revokedSequence := old.revokedSequence.or
          (if admitted.revokes old.toDelegationRow then some accepted.sequence else none) } := by
  have hkept : ∀ old : LocalDelegationRow,
      old = { old with revokedSequence := old.revokedSequence.or none } := by
    intro old
    rw [Option.or_none]
  have hrevoke : ∀ (condition : LocalDelegationRow → Bool),
      (∀ old, condition old = admitted.revokes old.toDelegationRow) →
      ∀ delegation ∈ revokeWhere condition accepted.sequence db.authority.delegations,
        ∃ old ∈ db.authority.delegations, delegation = { old with
          revokedSequence := old.revokedSequence.or
            (if admitted.revokes old.toDelegationRow then some accepted.sequence
              else none) } := by
    intro condition hcondition delegation hdelegation
    obtain ⟨old, hold, rfl⟩ := mem_updateWhere.mp hdelegation
    refine ⟨old, hold, ?_⟩
    rw [hcondition old]
    by_cases hrevokes : admitted.revokes old.toDelegationRow = true
    · cases hrevoked : old.revokedSequence with
      | none => simp [hrevokes]
      | some sequence =>
          simp only [hrevokes, Option.isNone_some, Bool.and_false, Bool.false_eq_true,
            if_false, Option.some_or]
          rw [← hrevoked]
    · rw [Bool.not_eq_true] at hrevokes
      simp only [hrevokes, Bool.false_and, Bool.false_eq_true, if_false]
      exact hkept old
  generalize next.authority = authority at h
  intro delegation hdelegation
  cases h with
  | registerLineage lineageId registration =>
      exact .inr ⟨delegation, hdelegation, hkept delegation⟩
  | registerDelegation id statement =>
      rcases List.mem_append.mp hdelegation with hold | hnew
      · exact .inr ⟨delegation, hold, hkept delegation⟩
      · exact .inl ⟨id, statement, rfl, List.mem_singleton.mp hnew⟩
  | revokeDelegation revocation =>
      refine .inr (hrevoke _ ?_ delegation hdelegation)
      intro old
      exact Bool.beq_comm
  | rotateLineageKey rotation =>
      simp only at hdelegation
      split at hdelegation
      · rename_i hrevokes
        refine .inr (hrevoke _ ?_ delegation hdelegation)
        intro old
        simp only [Admitted.revokes, hrevokes, Bool.true_and]
        exact Bool.beq_comm
      · rename_i hkeeps
        refine .inr ⟨delegation, hdelegation, ?_⟩
        simp only [Admitted.revokes, hkeeps, Bool.false_and, Bool.false_eq_true, if_false]
        exact hkept delegation
  | appendContribution lineageId contribution =>
      exact .inr ⟨delegation, hdelegation, hkept delegation⟩
  | appendAcknowledgement lineageId acknowledgement =>
      exact .inr ⟨delegation, hdelegation, hkept delegation⟩

theorem Committed.accepted_sequence
    (h : Committed P identity admitted appendedAt db row accepted next) :
    accepted.sequence = row.sequence ∧ row.sequence = db.head + 1 := by
  obtain ⟨logged, happended, -⟩ := h.appended
  exact ⟨by rw [happended.accepted_eq], happended.columns.1⟩

theorem LogSound.sequence_le (h : LogSound P db.events) :
    ∀ stored ∈ db.events, stored.sequence ≤ db.head := by
  intro stored hstored
  rw [h.head_eq]
  have hbounds := h.numbered.mem_bounds hstored
  omega

theorem DelegationHistory.commit (h : DelegationHistory P db) (hlog : LogSound P db.events)
    (hcommitted : Committed P identity admitted appendedAt db row accepted next) :
    DelegationHistory P next := by
  obtain ⟨haccepted, hsequence⟩ := hcommitted.accepted_sequence
  have hcases := hcommitted.effect.delegation_cases
  obtain ⟨logged, happended, -⟩ := hcommitted.appended
  have hhead := happended.head_next hcommitted.events
  refine ⟨?_, ?_, ?_⟩
  · exact hcommitted.effect.delegations_nodup h.delegations
  · intro delegation hdelegation
    rcases hcases delegation hdelegation with ⟨id, statement, -, rfl⟩ | ⟨old, hold, rfl⟩
    · change accepted.sequence ≤ next.head
      omega
    · have hle := h.since old hold
      change old.registeredSequence ≤ next.head
      omega
  · intro delegation hdelegation
    rw [hcommitted.events]
    rcases hcases delegation hdelegation with ⟨id, statement, -, rfl⟩ | ⟨old, hold, rfl⟩
    · -- Nothing is logged after the registration.
      rw [firstRevocation_eq_none]
      · rfl
      · intro stored hstored
        change stored.sequence ≤ accepted.sequence
        rcases List.mem_append.mp hstored with hbefore | hlast
        · have hle := hlog.sequence_le stored hbefore
          omega
        · rw [List.mem_singleton.mp hlast, haccepted]
    · have hsince := h.since old hold
      have hlater : old.registeredSequence < row.sequence := by omega
      have hrevokes := happended.revokes old.toDelegationRow
      rw [firstRevocation_append]
      change old.revokedSequence.or _ =
        (firstRevocation P db.events old.toDelegationRow).or
          (if old.registeredSequence < row.sequence ∧
            row.revokes P old.toDelegationRow = true then some row.sequence else none)
      rw [h.revocations old hold, hrevokes, haccepted]
      simp only [hlater, true_and]

/-! ## Keys -/

theorem closeKeys_cons (lineageId : String) (sequence : ℤ) (key : LineageKeyRow)
    (rest : List LineageKeyRow) :
    closeKeys lineageId sequence (key :: rest) =
      (if key.lineageId = lineageId then key.closed sequence else key) ::
        closeKeys lineageId sequence rest := by
  unfold closeKeys updateWhere
  rw [List.map_cons]
  congr 1
  unfold LineageKeyRow.closed
  by_cases hid : key.lineageId = lineageId
  · simp [hid]
  · simp [hid]

theorem LineageKeyRow.closed_lineageId (sequence : ℤ) (key : LineageKeyRow) :
    (key.closed sequence).lineageId = key.lineageId := by
  unfold LineageKeyRow.closed
  split <;> rfl

theorem filter_closeKeys_self (lineageId : String) (sequence : ℤ)
    (keys : List LineageKeyRow) :
    (closeKeys lineageId sequence keys).filter (fun row => row.lineageId == lineageId) =
      (keys.filter fun row => row.lineageId == lineageId).map
        (LineageKeyRow.closed sequence) := by
  induction keys with
  | nil => rfl
  | cons key rest ih =>
      rw [closeKeys_cons]
      by_cases hid : key.lineageId = lineageId
      · rw [if_pos hid, List.filter_cons_of_pos (by simp [key.closed_lineageId, hid]),
          List.filter_cons_of_pos (by simp [hid]), List.map_cons, ih]
      · rw [if_neg hid, List.filter_cons_of_neg (by simp [hid]),
          List.filter_cons_of_neg (by simp [hid]), ih]

theorem filter_closeKeys_of_ne {lineageId other : String} (h : other ≠ lineageId)
    (sequence : ℤ) (keys : List LineageKeyRow) :
    (closeKeys lineageId sequence keys).filter (fun row => row.lineageId == other) =
      keys.filter fun row => row.lineageId == other := by
  induction keys with
  | nil => rfl
  | cons key rest ih =>
      rw [closeKeys_cons]
      by_cases hid : key.lineageId = lineageId
      · have hskip : key.lineageId ≠ other := fun hsame => h (hsame.symm.trans hid)
        rw [if_pos hid, List.filter_cons_of_neg (by simpa [key.closed_lineageId] using hskip),
          List.filter_cons_of_neg (by simpa using hskip), ih]
      · rw [if_neg hid, List.filter_cons, List.filter_cons, ih]

theorem LineageHistory.of_same (h : LineageHistory P db)
    (hlineages : next.authority.lineages = db.authority.lineages)
    (hkeys : next.authority.lineageKeys = db.authority.lineageKeys)
    (hevents : ∀ row ∈ db.events, row ∈ next.events) (hhead : db.head ≤ next.head) :
    LineageHistory P next := by
  refine ⟨?_, ?_, ?_, ?_, ?_, ?_⟩
  · rw [hlineages]
    exact h.lineages
  · rw [hlineages]
    intro lineage hlineage
    obtain ⟨row, hrow, hregisters⟩ := h.registered lineage hlineage
    exact ⟨row, hevents row hrow, hregisters⟩
  · unfold Db.keysOf
    rw [hlineages, hkeys]
    exact h.chains
  · rw [hlineages, hkeys]
    exact h.owned
  · rw [hkeys]
    exact fun key hkey => (h.past key hkey).trans hhead
  · rw [hkeys]
    exact h.publicKeys

/-- The row of a registration registers its lineage. -/
theorem Appended.registers {lineageId : String} {registration : LineageRegistration}
    {checkedAt : ℤ} {logged : Db}
    (h : Appended P identity (registrationInput P lineageId registration) appendedAt db row
      accepted logged)
    (hchecked : checkRegisterLineage P registration checkedAt = .ok lineageId) :
    row.registers P lineageId := by
  simp only [checkRegisterLineage, bind_eq_ok, pure_eq_ok, Except.ok.injEq] at hchecked
  obtain ⟨⟨⟩, -, ⟨⟩, -, ⟨⟩, -, ⟨⟩, -, key, hkey, ⟨⟩, -, rfl⟩ := hchecked
  obtain ⟨-, hkind, -, -, -, -, hjson⟩ := h.columns
  refine ⟨hkind, P.canon (registration.toJson P), registration, key, ?_,
    LineageRegistration.ofJson_canon P registration, hkey, rfl⟩
  rw [hjson]
  exact P.parse_jcs' _

theorem LineageHistory.register {lineageId : String} {registration : LineageRegistration}
    {checkedAt : ℤ} (h : LineageHistory P db)
    (hchecked : checkRegisterLineage P registration checkedAt = .ok lineageId)
    (hcommitted : Committed P identity (.registerLineage lineageId registration) appendedAt
      db row accepted next) :
    LineageHistory P next := by
  obtain ⟨haccepted, hsequence⟩ := hcommitted.accepted_sequence
  have hevents := hcommitted.events
  have heffect := hcommitted.effect
  obtain ⟨logged, happended, -⟩ := hcommitted.appended
  have hhead := happended.head_next hcommitted.events
  have hregisters : row.registers P lineageId := happended.registers hchecked
  generalize hauthority : next.authority = authority at heffect
  cases heffect with
  | registerLineage _ _ hlineage hnewKey hclash =>
  have hunowned : db.keysOf lineageId = [] := by
    unfold Db.keysOf
    rw [List.filter_eq_nil_iff]
    intro key hkey hsame
    obtain ⟨owner, howner, hid⟩ := h.owned key hkey
    exact (hlineage owner howner).1 (hid.trans (by simpa using hsame))
  refine ⟨?_, ?_, ?_, ?_, ?_, ?_⟩
  · rw [hauthority, List.map_append, List.nodup_append]
    refine ⟨h.lineages, List.nodup_singleton _, ?_⟩
    intro stored hstored other hother
    obtain ⟨old, hold, rfl⟩ := List.mem_map.mp hstored
    rw [List.mem_singleton.mp hother]
    exact (hlineage old hold).1
  · rw [hauthority, hevents]
    intro lineage hmem
    rcases List.mem_append.mp hmem with hold | hnew
    · obtain ⟨stored, hstored, hregistered⟩ := h.registered lineage hold
      exact ⟨stored, List.mem_append_left _ hstored, hregistered⟩
    · rw [List.mem_singleton.mp hnew]
      exact ⟨row, List.mem_append_right _ List.mem_cons_self, haccepted.symm, hregisters⟩
  · unfold Db.keysOf
    rw [hauthority]
    intro lineage hmem
    rcases List.mem_append.mp hmem with hold | hnew
    · have hother : lineage.lineageId ≠ lineageId := (hlineage lineage hold).1
      rw [List.filter_append, List.filter_cons_of_neg, List.filter_nil, List.append_nil]
      · exact h.chains lineage hold
      · simpa [registeredKey] using hother.symm
    · rw [List.mem_singleton.mp hnew, List.filter_append, List.filter_cons_of_pos,
        List.filter_nil]
      · change KeyChain registration.publicKey 0 accepted.sequence (db.keysOf lineageId ++ _)
        rw [hunowned]
        exact ⟨rfl, rfl, rfl, rfl⟩
      · simp [registeredKey, registeredLineage]
  · rw [hauthority]
    intro key hkey
    rcases List.mem_append.mp hkey with hold | hnew
    · obtain ⟨owner, howner, hid⟩ := h.owned key hold
      exact ⟨owner, List.mem_append_left _ howner, hid⟩
    · rw [List.mem_singleton.mp hnew]
      exact ⟨_, List.mem_append_right _ List.mem_cons_self, rfl⟩
  · rw [hauthority]
    intro key hkey
    rcases List.mem_append.mp hkey with hold | hnew
    · have hle := h.past key hold
      omega
    · rw [List.mem_singleton.mp hnew]
      change accepted.sequence ≤ next.head
      omega
  · rw [hauthority, List.map_append, List.nodup_append]
    refine ⟨h.publicKeys, List.nodup_singleton _, ?_⟩
    intro stored hstored other hother
    obtain ⟨old, hold, rfl⟩ := List.mem_map.mp hstored
    rw [List.mem_singleton.mp hother]
    exact hnewKey old hold

theorem LineageHistory.rotate {rotation : SignedKeyRotation} (h : LineageHistory P db)
    (hcommitted : Committed P identity (.rotateLineageKey rotation) appendedAt db row
      accepted next) :
    LineageHistory P next := by
  obtain ⟨haccepted, hsequence⟩ := hcommitted.accepted_sequence
  have hevents := hcommitted.events
  have heffect := hcommitted.effect
  obtain ⟨logged, happended, -⟩ := hcommitted.appended
  have hhead := happended.head_next hcommitted.events
  generalize hauthority : next.authority = authority at heffect
  cases heffect with
  | rotateLineageKey _ rotated hrotated hkey hnew hother hclash =>
  -- Only the public key of the row changes.
  have hlineages : ∀ lineage ∈ next.authority.lineages, ∃ old ∈ db.authority.lineages,
      lineage.lineageId = old.lineageId ∧
      lineage.registeredSequence = old.registeredSequence ∧
      lineage.publicKey = if old.lineageId = rotation.statement.lineageId then
        rotation.statement.newPublicKey else old.publicKey := by
    rw [hauthority]
    intro lineage hmem
    obtain ⟨old, hold, rfl⟩ := mem_updateWhere.mp hmem
    refine ⟨old, hold, ?_⟩
    by_cases hid : old.lineageId = rotation.statement.lineageId
    · simp [hid]
    · simp [hid]
  have hids : next.authority.lineages.map LineageRow.lineageId =
      db.authority.lineages.map LineageRow.lineageId := by
    rw [hauthority]
    refine map_updateWhere ?_ db.authority.lineages
    intro _ _
    rfl
  have hcloses : ∀ key ∈ closeKeys rotation.statement.lineageId accepted.sequence
      db.authority.lineageKeys, ∃ old ∈ db.authority.lineageKeys,
        key.lineageId = old.lineageId ∧ key.validFromSequence = old.validFromSequence := by
    intro key hmem
    obtain ⟨old, hold, rfl⟩ := mem_updateWhere.mp hmem
    refine ⟨old, hold, ?_⟩
    split
    · exact ⟨rfl, rfl⟩
    · exact ⟨rfl, rfl⟩
  have howner : ∀ old ∈ db.authority.lineages,
      ∃ lineage ∈ next.authority.lineages, lineage.lineageId = old.lineageId := by
    intro old hold
    have hmem : old.lineageId ∈ next.authority.lineages.map LineageRow.lineageId := by
      rw [hids]
      exact List.mem_map_of_mem hold
    obtain ⟨lineage, hlineage, hid⟩ := List.mem_map.mp hmem
    exact ⟨lineage, hlineage, hid⟩
  refine ⟨?_, ?_, ?_, ?_, ?_, ?_⟩
  · rw [hids]
    exact h.lineages
  · intro lineage hmem
    obtain ⟨old, hold, hid, hregistered, -⟩ := hlineages lineage hmem
    obtain ⟨stored, hstored, hregisters⟩ := h.registered old hold
    rw [hid, hregistered, hevents]
    exact ⟨stored, List.mem_append_left _ hstored, hregisters⟩
  · intro lineage hmem
    obtain ⟨old, hold, hid, hregistered, hpublic⟩ := hlineages lineage hmem
    have hchain := h.chains old hold
    rw [hid, hregistered, hpublic]
    unfold Db.keysOf
    rw [hauthority, List.filter_append]
    by_cases hsame : old.lineageId = rotation.statement.lineageId
    · have hpast : ∀ key ∈ db.keysOf old.lineageId,
          key.validFromSequence < accepted.sequence := by
        intro key hkeyMem
        have hle := h.past key (List.mem_filter.mp hkeyMem).1
        omega
      have hversion : (maxKeyVersion db.authority.lineageKeys
          rotation.statement.lineageId).getD (-1) + 1 =
          0 + ((db.keysOf old.lineageId).length : ℤ) := by
        have hmax : maxKeyVersion db.authority.lineageKeys rotation.statement.lineageId =
            some (0 + ((db.keysOf old.lineageId).length : ℤ) - 1) := by
          rw [← hchain.max?_versions, hsame]
          rfl
        rw [hmax, Option.getD_some]
        omega
      have hfilter : (closeKeys rotation.statement.lineageId accepted.sequence
          db.authority.lineageKeys).filter (fun row => row.lineageId == old.lineageId) =
          (db.keysOf old.lineageId).map (LineageKeyRow.closed accepted.sequence) := by
        rw [hsame]
        exact filter_closeKeys_self _ _ _
      have hadded : [rotatedKey db.authority.lineageKeys rotation.statement
          accepted.sequence].filter (fun row => row.lineageId == old.lineageId) =
          [⟨rotation.statement.lineageId, 0 + ((db.keysOf old.lineageId).length : ℤ),
            rotation.statement.newPublicKey, accepted.sequence, none⟩] := by
        rw [List.filter_cons_of_pos (by simp [rotatedKey, hsame]), List.filter_nil,
          ← hversion]
        rfl
      rw [if_pos hsame, hfilter, hadded]
      exact hchain.rotate hpast _ _
    · rw [if_neg hsame, filter_closeKeys_of_ne hsame, List.filter_cons_of_neg,
        List.filter_nil, List.append_nil]
      · exact hchain
      · simpa [rotatedKey] using fun hid => hsame hid.symm
  · rw [hauthority]
    intro key hmem
    rw [← hauthority]
    rcases List.mem_append.mp hmem with hclosed | hadded
    · obtain ⟨old, hold, hid, -⟩ := hcloses key hclosed
      obtain ⟨owner, hmemOwner, howns⟩ := h.owned old hold
      obtain ⟨lineage, hlineage, hsame⟩ := howner owner hmemOwner
      exact ⟨lineage, hlineage, hsame.trans (howns.trans hid.symm)⟩
    · obtain ⟨lineage, hlineage, hsame⟩ := howner rotated (List.mem_of_find?_eq_some hrotated)
      refine ⟨lineage, hlineage, ?_⟩
      rw [List.mem_singleton.mp hadded, hsame]
      change rotated.lineageId = rotation.statement.lineageId
      simpa using List.find?_some hrotated
  · rw [hauthority]
    intro key hmem
    rcases List.mem_append.mp hmem with hclosed | hadded
    · obtain ⟨old, hold, -, hfrom⟩ := hcloses key hclosed
      have hle := h.past old hold
      omega
    · rw [List.mem_singleton.mp hadded]
      change accepted.sequence ≤ next.head
      omega
  · rw [hauthority, List.map_append, closeKeys, map_updateWhere, List.nodup_append]
    · refine ⟨h.publicKeys, List.nodup_singleton _, ?_⟩
      intro stored hstored other hother
      obtain ⟨old, hold, rfl⟩ := List.mem_map.mp hstored
      rw [List.mem_singleton.mp hother]
      exact hnew old hold
    · intro _ _
      rfl

/-- Every call keeps the history. -/
theorem KeyHistory.commit {call : PendingCall} (h : KeyHistory P db)
    (hlog : LogSound P db.events) (hsound : call.Sound P db)
    (hcommitted : Committed P identity call.admitted appendedAt db row accepted next) :
    KeyHistory P next := by
  refine ⟨?_, h.toDelegationHistory.commit hlog hcommitted⟩
  have hchecked := hsound.checked
  obtain ⟨admitted, checkedAt, seen⟩ := call
  obtain ⟨logged, happended, -⟩ := hcommitted.appended
  have hhead := happended.head_next hcommitted.events
  have hsame : next.authority.lineages = db.authority.lineages →
      next.authority.lineageKeys = db.authority.lineageKeys → LineageHistory P next := by
    intro hlineages hkeys
    refine h.toLineageHistory.of_same hlineages hkeys ?_ (by omega)
    rw [hcommitted.events]
    exact fun stored hstored => List.mem_append_left _ hstored
  have heffect := hcommitted.effect
  cases admitted with
  | registerLineage lineageId registration =>
      exact h.toLineageHistory.register hchecked hcommitted
  | rotateLineageKey rotation => exact h.toLineageHistory.rotate hcommitted
  | registerDelegation id delegation =>
      generalize next.authority = authority at heffect hsame
      cases heffect
      exact hsame rfl rfl
  | revokeDelegation revocation =>
      generalize next.authority = authority at heffect hsame
      cases heffect
      exact hsame rfl rfl
  | appendContribution lineageId contribution =>
      generalize next.authority = authority at heffect hsame
      cases heffect
      exact hsame rfl rfl
  | appendAcknowledgement lineageId acknowledgement =>
      generalize next.authority = authority at heffect hsame
      cases heffect
      exact hsame rfl rfl

/-- An event which revokes nothing, and after which the tables are the same. -/
theorem KeyHistory.append_other (h : KeyHistory P db)
    (hevents : next.events = db.events ++ [row]) (hsequence : row.sequence = db.head + 1)
    (hauthority : next.authority = db.authority)
    (hrevokes : ∀ delegation, row.revokes P delegation = false) : KeyHistory P next := by
  have hhead : next.head = db.head + 1 := by
    rw [next.head_eq, hevents, lastHash_append_singleton, hsequence]
  refine ⟨h.toLineageHistory.of_same (by rw [hauthority]) (by rw [hauthority]) ?_ (by omega),
    ?_, ?_, ?_⟩
  · rw [hevents]
    exact fun stored hstored => List.mem_append_left _ hstored
  · rw [hauthority]
    exact h.delegations
  · rw [hauthority]
    intro delegation hdelegation
    have hsince := h.since delegation hdelegation
    omega
  · rw [hauthority, hevents]
    intro delegation hdelegation
    rw [firstRevocation_append, hrevokes, h.revocations delegation hdelegation]
    simp

end

/-- The kinds of events which revoke nothing. -/
theorem EventRow.revokes_of_collected {row : EventRow} (h : isCollected row.kind = true)
    (delegation : DelegationRow) : row.revokes P delegation = false := by
  simp only [isCollected, Bool.or_eq_true, beq_iff_eq] at h
  unfold EventRow.revokes
  cases P.parse row.canonicalJson with
  | none => rfl
  | some canonical =>
      rcases h with h | h
      · rw [h]
        rfl
      · rw [h]
        rfl

theorem History.keyHistory {commits : PendingCall → Db → ℤ → Prop}
    {entries : FeedEntry → Prop} {db : Db} (h : History P identity commits entries db) :
    KeyHistory P db := by
  induction h with
  | init =>
      refine ⟨⟨List.nodup_nil, ?_, ?_, ?_, ?_, List.nodup_nil⟩, List.nodup_nil, ?_, ?_⟩
      · intro lineage hlineage
        cases hlineage
      · intro lineage hlineage
        cases hlineage
      · intro key hkey
        cases hkey
      · intro key hkey
        cases hkey
      · intro delegation hdelegation
        cases hdelegation
      · intro delegation hdelegation
        cases hdelegation
  | quiet db next _ hquiet ih =>
      have hhead : next.head = db.head := by
        rw [next.head_eq, db.head_eq, hquiet.events]
      refine ⟨ih.toLineageHistory.of_same (by rw [hquiet.authority]) (by rw [hquiet.authority])
        ?_ hhead.ge, ?_, ?_, ?_⟩
      · rw [hquiet.events]
        exact fun row hrow => hrow
      · rw [hquiet.authority]
        exact ih.delegations
      · rw [hquiet.authority, hhead]
        exact ih.since
      · rw [hquiet.authority, hquiet.events]
        exact ih.revocations
  | commit db next call appendedAt row accepted hbefore hsound _ _ hcommitted ih =>
      exact ih.commit hbefore.logSound hsound hcommitted
  | observe db next sourceId languages feed retrievedAt entry canonicalUrl appendedAt row
      accepted _ _ hobserved ih =>
      obtain ⟨logged, happended, -⟩ := hobserved.appended
      refine ih.append_other hobserved.events happended.columns.1
        (Db.appendObservation_authority hobserved.append) ?_
      refine EventRow.revokes_of_collected ?_
      rw [happended.columns.2.1]
      rfl
  | witness db next bundle observedAt appendedAt row _ hwitnessed ih =>
      obtain ⟨base, accepted, logged, hbase, happended⟩ := hwitnessed.appended
      have hhead : base.head = db.head := by
        rw [base.head_eq, db.head_eq, hbase]
      refine ih.append_other hwitnessed.events ?_ hwitnessed.same.authority ?_
      · rw [happended.columns.1, hhead]
      · refine EventRow.revokes_of_collected ?_
        rw [happended.columns.2.1]
        rfl

end

end Commonwake
