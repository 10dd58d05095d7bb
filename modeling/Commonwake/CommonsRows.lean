import Commonwake.CommonsHistory

/-!
# The rows of the commons

What one record does to the tables, with the rows which it may write.  A
revocation of an OpenPGP key is never undone.
-/

namespace Commonwake

open Outcome Table

def TopicVoteRow.key (row : TopicVoteRow) : String × String × String :=
  (row.topicId, row.voterLineageId, row.originNodeId)

def OpenPgpKeyRow.key (row : OpenPgpKeyRow) : String × String × String :=
  (row.lineageId, row.originNodeId, row.fingerprint)

section

variable (P : Primitives)

namespace CommonsRecord

variable (record : CommonsRecord)

def topicRow (payload : TopicProposalPayload) : ForumTopicRow where
  topicId := P.prefixedId "cwtopic_" (utf8 record.eventId)
  originNodeId := record.origin
  originSequence := record.sequence
  proposalEventId := record.eventId
  proposerLineageId := record.lineageId
  parentTopicId := payload.parentTopicId
  slug := payload.slug
  title := payload.title
  summary := payload.summary
  charter := payload.charter
  tagsJson := P.toText (Serde.strings payload.tags)
  languagesJson := P.toText (Serde.strings payload.languages)
  archiveAfterDays := payload.archiveAfterDays
  createdAt := P.timestamp record.contribution.createdAt

def voteRow (payload : TopicVotePayload) : TopicVoteRow where
  topicId := payload.topicId
  voterLineageId := record.lineageId
  originNodeId := record.origin
  originSequence := record.sequence
  eventId := record.eventId
  choice := payload.choice
  rationale := payload.rationale
  createdAt := P.timestamp record.contribution.createdAt

def postRow (payload : ForumPostPayload) : ForumPostRow where
  postId := P.prefixedId "cwpost_" (utf8 record.eventId)
  originNodeId := record.origin
  originSequence := record.sequence
  eventId := record.eventId
  topicId := payload.topicId
  parentPostId := payload.parentPostId
  authorLineageId := record.lineageId
  subject := payload.subject
  body := payload.body
  language := payload.language
  mentionsJson := P.toText (Serde.strings payload.mentions)
  referencesJson := P.toText (Serde.strings payload.references)
  createdAt := P.timestamp record.contribution.createdAt

def keyRow (payload : OpenPgpKeyPayload) : OpenPgpKeyRow where
  lineageId := record.lineageId
  originNodeId := record.origin
  fingerprint := payload.fingerprint
  originSequence := record.sequence
  eventId := record.eventId
  action := payload.action
  armoredPublicKey := payload.armoredPublicKey
  note := payload.note
  createdAt := P.timestamp record.contribution.createdAt

def messageRow (payload : DirectMessagePayload) : DirectMessageRow where
  messageId := P.prefixedId "cwdm_" (utf8 record.eventId)
  originNodeId := record.origin
  originSequence := record.sequence
  eventId := record.eventId
  senderLineageId := record.lineageId
  recipientLineageId := payload.recipientLineageId
  recipientKeyFingerprint := payload.recipientKeyFingerprint
  ciphertextFormat := payload.ciphertextFormat
  ciphertext := payload.ciphertext
  createdAt := P.timestamp record.contribution.createdAt

end CommonsRecord

/-- What one record does to the tables. -/
inductive Recorded (record : CommonsRecord) (tables : CommonsTables) : CommonsTables → Prop
  | topic (payload : TopicProposalPayload) (row : ForumTopicRow)
      (hkind : record.contribution.kind = .topicProposal)
      (hpayload : TopicProposalPayload.ofJson record.contribution.payload = some payload)
      (hrow : row = record.topicRow P payload) :
      Recorded record tables { tables with
        topics := insertOrIgnore
          (fun stored => stored.topicId == row.topicId ||
            (stored.originNodeId == record.origin &&
              stored.proposalEventId == record.eventId)) row tables.topics }
  | vote (payload : TopicVotePayload) (row : TopicVoteRow) (same : TopicVoteRow → Bool)
      (hkind : record.contribution.kind = .topicVote)
      (hpayload : TopicVotePayload.ofJson record.contribution.payload = some payload)
      (hrow : row = record.voteRow P payload)
      (hsame : ∀ stored, same stored = true ↔ stored.key = row.key)
      (hfresh : ∀ stored ∈ tables.votes, stored.key ≠ row.key →
        stored.originNodeId = record.origin → stored.eventId ≠ record.eventId) :
      Recorded record tables { tables with
        votes := upsert same
          (fun stored => if stored.originSequence < record.sequence then row else stored)
          row tables.votes }
  | post (payload : ForumPostPayload) (row : ForumPostRow)
      (hkind : record.contribution.kind = .forumPost)
      (hpayload : ForumPostPayload.ofJson record.contribution.payload = some payload)
      (hrow : row = record.postRow P payload) :
      Recorded record tables { tables with
        posts := insertOrIgnore
          (fun stored => stored.postId == row.postId ||
            (stored.originNodeId == record.origin && stored.eventId == record.eventId))
          row tables.posts }
  | key (payload : OpenPgpKeyPayload) (row : OpenPgpKeyRow) (same : OpenPgpKeyRow → Bool)
      (hkind : record.contribution.kind = .openPgpKey)
      (hpayload : OpenPgpKeyPayload.ofJson record.contribution.payload = some payload)
      (hrow : row = record.keyRow P payload)
      (hsame : ∀ stored, same stored = true ↔ stored.key = row.key)
      (hkept : ∀ stored,
        tables.previousKey record.lineageId record.origin payload.fingerprint =
          some stored → stored.action = .revoke → payload.action = .revoke)
      (hfresh : ∀ stored ∈ tables.openPgpKeys, stored.key ≠ row.key →
        stored.originNodeId = record.origin → stored.eventId ≠ record.eventId) :
      Recorded record tables { tables with
        openPgpKeys := upsert same
          (fun stored => if stored.originSequence < record.sequence then row else stored)
          row tables.openPgpKeys }
  | message (payload : DirectMessagePayload) (row : DirectMessageRow)
      (hkind : record.contribution.kind = .directMessage)
      (hpayload : DirectMessagePayload.ofJson record.contribution.payload = some payload)
      (hrow : row = record.messageRow P payload) :
      Recorded record tables { tables with
        directMessages := insertOrIgnore
          (fun stored => stored.messageId == row.messageId ||
            (stored.originNodeId == record.origin && stored.eventId == record.eventId))
          row tables.directMessages }
  | other (hkind : record.contribution.kind.isCommons = false) :
      Recorded record tables tables

end

section

variable {P : Primitives} {record : CommonsRecord} {tables next : CommonsTables}

theorem CommonsTables.record_recorded (h : tables.record P record = .ok next) :
    Recorded P record tables next := by
  unfold CommonsTables.record projectCommonsContribution at h
  cases hkind : record.contribution.kind with
  | topicProposal =>
      simp only [hkind, bind_eq_ok, decodePayload_eq_ok, pure_eq_ok, Except.ok.injEq] at h
      obtain ⟨payload, hpayload, rfl⟩ := h
      exact .topic payload _ hkind hpayload rfl
  | topicVote =>
      simp only [hkind, bind_eq_ok, decodePayload_eq_ok, pure_eq_ok, Except.ok.injEq,
        rejectIf_eq_ok, Bool.not_eq_true] at h
      obtain ⟨payload, hpayload, ⟨⟩, hfresh, rfl⟩ := h
      have hsame : ∀ stored : TopicVoteRow, (stored.topicId == payload.topicId &&
          stored.voterLineageId == record.lineageId &&
          stored.originNodeId == record.origin) = true ↔
            stored.key = (record.voteRow P payload).key := by
        intro stored
        simp only [Bool.and_eq_true, beq_iff_eq, TopicVoteRow.key, CommonsRecord.voteRow,
          Prod.mk.injEq, and_assoc]
      refine .vote payload _ _ hkind hpayload rfl hsame ?_
      intro stored hstored hkey horigin hevent
      have hother := mt (hsame stored).mp hkey
      rw [Bool.not_eq_true] at hother
      refine List.any_eq_false.mp hfresh stored hstored ?_
      rw [hother, horigin, hevent, beq_self_eq_true, beq_self_eq_true]
      rfl
  | forumPost =>
      simp only [hkind, bind_eq_ok, decodePayload_eq_ok, pure_eq_ok, Except.ok.injEq] at h
      obtain ⟨payload, hpayload, rfl⟩ := h
      exact .post payload _ hkind hpayload rfl
  | openPgpKey =>
      simp only [hkind, bind_eq_ok, decodePayload_eq_ok, pure_eq_ok, Except.ok.injEq,
        rejectIf_eq_ok, Bool.not_eq_true] at h
      obtain ⟨payload, hpayload, ⟨⟩, hkept, ⟨⟩, hfresh, rfl⟩ := h
      have hsame : ∀ stored : OpenPgpKeyRow, (stored.lineageId == record.lineageId &&
          stored.originNodeId == record.origin &&
          stored.fingerprint == payload.fingerprint) = true ↔
            stored.key = (record.keyRow P payload).key := by
        intro stored
        simp only [Bool.and_eq_true, beq_iff_eq, OpenPgpKeyRow.key, CommonsRecord.keyRow,
          Prod.mk.injEq, and_assoc]
      refine .key payload _ _ hkind hpayload rfl hsame ?_ ?_
      · intro stored hprevious haction
        cases hpublish : payload.action with
        | revoke => rfl
        | publish =>
            rw [hprevious, Option.map_some, haction] at hkept
            exact absurd ⟨rfl, hpublish⟩ hkept
      · intro stored hstored hkey horigin hevent
        have hother := mt (hsame stored).mp hkey
        rw [Bool.not_eq_true] at hother
        refine List.any_eq_false.mp hfresh stored hstored ?_
        rw [hother, horigin, hevent, beq_self_eq_true, beq_self_eq_true]
        rfl
  | directMessage =>
      simp only [hkind, bind_eq_ok, decodePayload_eq_ok, pure_eq_ok, Except.ok.injEq] at h
      obtain ⟨payload, hpayload, rfl⟩ := h
      exact .message payload _ hkind hpayload rfl
  | _ =>
      simp only [hkind, pure_eq_ok, Except.ok.injEq] at h
      subst h
      exact .other (by rw [hkind]; rfl)

/-! ## Revocations of OpenPGP keys -/

/-- An announcement of the origin revokes the fingerprint of the lineage. -/
def CommonsTables.RevokedBy (tables : CommonsTables)
    (key : String × String × String) : Prop :=
  ∃ row ∈ tables.openPgpKeys, row.key = key ∧ row.action = .revoke

theorem Recorded.keys_nodup (h : Recorded P record tables next)
    (hnodup : (tables.openPgpKeys.map (·.key)).Nodup) :
    (next.openPgpKeys.map (·.key)).Nodup := by
  cases h with
  | key payload row same hkind hpayload hrow hsame hkept hfresh =>
      refine nodup_upsert hsame ?_ hnodup
      intro stored hstored
      split
      · exact ((hsame stored).mp hstored).symm
      · rfl
  | _ => exact hnodup

/-- The announcement which follows a revocation is a revocation. -/
theorem Recorded.revokedBy {key : String × String × String}
    (h : Recorded P record tables next) (hnodup : (tables.openPgpKeys.map (·.key)).Nodup)
    (hrevoked : tables.RevokedBy key) : next.RevokedBy key := by
  obtain ⟨old, hold, hkey, haction⟩ := hrevoked
  cases h with
  | key payload row same hkind hpayload hrow hsame hkept hfresh =>
      by_cases htest : same old = true
      · have hsamekey : old.key = row.key := (hsame old).mp htest
        have hprevious : tables.previousKey record.lineageId record.origin
            payload.fingerprint = some old := by
          have hfind := find?_eq_some_of_nodup hnodup hold
          rw [← hfind]
          unfold CommonsTables.previousKey
          refine congrFun (congrArg _ (funext fun stored => ?_)) _
          rw [hsamekey, Bool.eq_iff_iff, hrow]
          simp only [Bool.and_eq_true, beq_iff_eq, OpenPgpKeyRow.key, CommonsRecord.keyRow,
            Prod.mk.injEq, and_assoc]
        have hrevoke : row.action = .revoke := by
          rw [hrow]
          exact hkept old hprevious haction
        have hmem : (if old.originSequence < record.sequence then row else old) ∈
            upsert same (fun stored =>
              if stored.originSequence < record.sequence then row else stored) row
              tables.openPgpKeys := by
          unfold upsert
          rw [if_pos (List.any_eq_true.mpr ⟨old, hold, htest⟩)]
          exact List.mem_map.mpr ⟨old, hold, if_pos htest⟩
        refine ⟨_, hmem, ?_, ?_⟩
        · split
          · exact hsamekey.symm.trans hkey
          · exact hkey
        · split
          · exact hrevoke
          · exact haction
      · rw [Bool.not_eq_true] at htest
        exact ⟨old, mem_upsert_of_old hold htest, hkey, haction⟩
  | _ => exact ⟨old, hold, hkey, haction⟩

theorem CommonsTables.RevokedBy.action_eq {key : String × String × String}
    (h : tables.RevokedBy key) (hnodup : (tables.openPgpKeys.map (·.key)).Nodup)
    {row : OpenPgpKeyRow} (hrow : row ∈ tables.openPgpKeys) (hkey : row.key = key) :
    row.action = .revoke := by
  obtain ⟨old, hold, holdkey, haction⟩ := h
  rw [List.inj_on_of_nodup_map hnodup hrow hold (hkey.trans holdkey.symm)]
  exact haction

theorem CommonsTables.RevokedBy.inactive {lineageId origin fingerprint : String}
    (h : tables.RevokedBy (lineageId, origin, fingerprint)) :
    tables.openPgpKeyIsActive lineageId fingerprint = false := by
  obtain ⟨row, hrow, hkey, haction⟩ := h
  simp only [OpenPgpKeyRow.key, Prod.mk.injEq] at hkey
  have hany : ((tables.openPgpKeys.filter fun row =>
      row.lineageId == lineageId && row.fingerprint == fingerprint).any
        fun row => row.action == .revoke) = true := by
    refine List.any_eq_true.mpr ⟨row, List.mem_filter.mpr ⟨hrow, ?_⟩, ?_⟩
    · simp [hkey]
    · simp [haction]
  unfold openPgpKeyIsActive
  simp only [hany, Bool.not_true, Bool.and_false]

end

section

variable {P : Primitives} {identity : NodeIdentity P}

section

variable {db : Db} {lineageId : String} {contribution : SignedContribution}
  {appendedAt : ℤ} {result : AcceptedObject × Db}

/-- What a node has checked of a contribution which it logs. -/
theorem Db.appendContribution_valid
    (h : db.appendContribution P identity lineageId contribution appendedAt = .ok result) :
    validateContributionContent P contribution = .ok () ∧
      db.validateLocalReporting P contribution = .ok () ∧
      db.validateKind P lineageId contribution appendedAt = .ok () := by
  simp only [Db.appendContribution, Db.validateProjection, bind_eq_ok] at h
  obtain ⟨⟨⟩, ⟨⟨⟩, hcontent, ⟨⟩, hreporting, hkind⟩, -⟩ := h
  exact ⟨hcontent, hreporting, hkind⟩

/-- A direct message needs an active key of its recipient. -/
theorem Db.appendContribution_directMessage {message : DirectMessagePayload}
    (hkind : contribution.kind = .directMessage)
    (hpayload : DirectMessagePayload.ofJson contribution.payload = some message)
    (h : db.appendContribution P identity lineageId contribution appendedAt = .ok result) :
    db.commons.openPgpKeyIsActive message.recipientLineageId
      message.recipientKeyFingerprint = true := by
  obtain ⟨-, -, hvalid⟩ := Db.appendContribution_valid h
  simp only [Db.validateKind, hkind, bind_eq_ok, decodePayload_eq_ok, hpayload,
    Option.some.injEq, exists_eq_left', Db.validateDirectMessage, rejectIf_eq_ok,
    Bool.not_eq_false] at hvalid
  obtain ⟨_, -, hactive⟩ := hvalid
  exact hactive

end

variable (P) (identity)

/-- What was revoked in the first database stays revoked in the second, for
the origin which revoked it and for the node. -/
structure Db.KeepsRevocations (first later : Db) : Prop where
  kept : ∀ key, first.commons.RevokedBy key → later.commons.RevokedBy key
  final : ∀ key, first.commons.RevokedBy key →
    ∀ row ∈ later.commons.openPgpKeys, row.key = key → row.action = .revoke
  inactive : ∀ lineageId origin fingerprint,
    first.commons.RevokedBy (lineageId, origin, fingerprint) →
    later.commons.openPgpKeyIsActive lineageId fingerprint = false
  refused : ∀ lineageId origin fingerprint,
    first.commons.RevokedBy (lineageId, origin, fingerprint) →
    ∀ sender contribution message appendedAt result,
      contribution.kind = .directMessage →
      DirectMessagePayload.ofJson contribution.payload = some message →
      message.recipientLineageId = lineageId →
      message.recipientKeyFingerprint = fingerprint →
      later.appendContribution P identity sender contribution appendedAt ≠ .ok result

theorem run_keys_nodup (actions : List Action) :
    ((NodeState.run P identity actions).db.commons.openPgpKeys.map (·.key)).Nodup := by
  obtain ⟨records, hreplay, -⟩ := run_commons identity actions
  have hstep : ∀ (tables : CommonsTables) record next,
      (tables.openPgpKeys.map (·.key)).Nodup → CommonsTables.record P tables record = .ok next →
        (next.openPgpKeys.map (·.key)).Nodup := by
    intro tables record next hnodup hrecord
    exact (CommonsTables.record_recorded hrecord).keys_nodup hnodup
  refine foldState_invariant hstep ?_ hreplay
  exact List.nodup_nil

/-- A revocation of an OpenPGP key is final. -/
theorem run_keepsRevocations (actions rest : List Action) :
    (NodeState.run P identity actions).db.KeepsRevocations P identity
      (NodeState.run P identity (actions ++ rest)).db := by
  have hkept : ∀ key, (NodeState.run P identity actions).db.commons.RevokedBy key →
      (NodeState.run P identity (actions ++ rest)).db.commons.RevokedBy key := by
    intro key hrevoked
    obtain ⟨records, hextends⟩ := run_commonsExtends identity actions rest
    have hstep : ∀ (tables : CommonsTables) record next,
        (tables.openPgpKeys.map (·.key)).Nodup ∧ tables.RevokedBy key →
          CommonsTables.record P tables record = .ok next →
            (next.openPgpKeys.map (·.key)).Nodup ∧ next.RevokedBy key := by
      intro tables record next hstate hrecord
      have hrecorded := CommonsTables.record_recorded hrecord
      exact ⟨hrecorded.keys_nodup hstate.1, hrecorded.revokedBy hstate.1 hstate.2⟩
    have hboth := foldState_invariant hstep
      ⟨run_keys_nodup P identity actions, hrevoked⟩ hextends.replay
    exact hboth.2
  refine ⟨hkept, ?_, ?_, ?_⟩
  · intro key hrevoked row hrow hkey
    exact (hkept key hrevoked).action_eq (run_keys_nodup P identity _) hrow hkey
  · intro lineageId origin fingerprint hrevoked
    exact (hkept _ hrevoked).inactive
  · intro lineageId origin fingerprint hrevoked sender contribution message appendedAt result
      hkind hpayload hlineage hfingerprint haccepted
    have hactive := Db.appendContribution_directMessage hkind hpayload haccepted
    rw [hlineage, hfingerprint, (hkept _ hrevoked).inactive] at hactive
    cases hactive

end

end Commonwake
