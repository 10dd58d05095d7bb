import Commonwake.ContentReplay
import Commonwake.CommonsRows

/-!
# Forge records

A code review, a build attestation, a release and its review refer to earlier
records of the same log.  The node checks them against its own log, and an
importer checks them against what it has stored of that log.  Both read the
canonical texts of the earlier events, and find the same.
-/

namespace Commonwake

open Outcome Table HashChain

section

variable (P : Primitives)

/-! ## Consistent records -/

/-- The event holds a contribution of the kind, whose payload reads as given. -/
def OriginEvent.Carries {α : Type} (event : OriginEvent) (kind : ContributionKind)
    (decode : Json → Option α) (payload : α) : Prop :=
  event.kind = kind.asStr ∧ ∃ contribution,
    SignedContribution.ofJson P event.canonical = some contribution ∧
    decode contribution.payload = some payload

/-- A record of one kind agrees with an earlier record, to which it refers. -/
def RefersTo {α β : Type} (kind earlierKind : ContributionKind) (decode : Json → Option α)
    (decodeEarlier : Json → Option β) (reference : α → String) (agree : α → β → Prop)
    (authors : OriginEvent → OriginEvent → Prop) (before : List OriginEvent)
    (event : OriginEvent) : Prop :=
  ∃ payload proposal proposed, event.Carries P kind decode payload ∧
    proposal ∈ before ∧ proposal.eventId = reference payload ∧
    proposal.Carries P earlierKind decodeEarlier proposed ∧
    agree payload proposed ∧ authors proposal event

/-- The two events have different authors. -/
def Independent (proposal event : OriginEvent) : Prop :=
  ∃ proposer author, proposal.lineageId = some proposer ∧ event.lineageId = some author ∧
    proposer ≠ author

def ReviewsPatch : List OriginEvent → OriginEvent → Prop :=
  RefersTo P .codeReview .repositoryPatch CodeReviewPayload.ofJson RepositoryPatchPayload.ofJson
    (·.proposalEventId)
    (fun review patch => patch.repositoryId = review.repositoryId ∧
      patch.proposedRevision = review.reviewedRevision ∧
      patch.artifact.sha256 = review.artifactSha256)
    Independent

def AttestsPatch : List OriginEvent → OriginEvent → Prop :=
  RefersTo P .buildAttestation .repositoryPatch BuildAttestationPayload.ofJson
    RepositoryPatchPayload.ofJson (·.proposalEventId)
    (fun attestation patch => patch.repositoryId = attestation.repositoryId ∧
      patch.proposedRevision = attestation.sourceRevision ∧
      patch.artifact.sha256 = attestation.artifactSha256)
    fun _ _ => True

def ReviewsRelease : List OriginEvent → OriginEvent → Prop :=
  RefersTo P .releaseReview .releaseProposal ReleaseReviewPayload.ofJson
    ReleaseProposalPayload.ofJson (·.releaseProposalEventId)
    (fun review release => release.repositoryId = review.repositoryId ∧
      release.candidateRevision = review.reviewedRevision ∧
      release.sourceArtifact.sha256 = review.artifactSha256)
    Independent

/-- The patches of a release are earlier patches of its repository. -/
def IncludesPatches (before : List OriginEvent) (event : OriginEvent) : Prop :=
  ∃ release, event.Carries P .releaseProposal ReleaseProposalPayload.ofJson release ∧
    ∀ eventId ∈ release.includedPatchEventIds, ∃ proposal ∈ before,
      proposal.eventId = eventId ∧ ∃ patch,
        proposal.Carries P .repositoryPatch RepositoryPatchPayload.ofJson patch ∧
        patch.repositoryId = release.repositoryId

/-- The record names an earlier trace about one of its targets. -/
def IsTraced (before : List OriginEvent) (event : OriginEvent) : Prop :=
  ∃ contribution, SignedContribution.ofJson P event.canonical = some contribution ∧
    ∃ proof ∈ before, proof.eventId ∈ contribution.reporting.traceEventIds ∧
      ∃ payload, proof.Carries P .verificationTrace (VerificationTracePayload.ofJson P) payload ∧
        payload.subjectId ∈ contribution.targets

/-- An event agrees with the log before it, when it is a forge record. -/
structure ForgeConsistent (before : List OriginEvent) (event : OriginEvent) : Prop where
  codeReview : event.kind = ContributionKind.codeReview.asStr → ReviewsPatch P before event
  buildAttestation : event.kind = ContributionKind.buildAttestation.asStr →
    AttestsPatch P before event
  releaseProposal : event.kind = ContributionKind.releaseProposal.asStr →
    IncludesPatches P before event
  releaseReview : event.kind = ContributionKind.releaseReview.asStr →
    ReviewsRelease P before event
  traced : ∀ kind : ContributionKind, kind.isForge = true → kind ≠ .repositoryPatch →
    event.kind = kind.asStr → IsTraced P before event

/-- Every forge record of the log agrees with the log before it. -/
def ForgeLog (log : List OriginEvent) : Prop :=
  ∀ before event after, log = before ++ event :: after → ForgeConsistent P before event

end

section

variable {P : Primitives}

theorem asStr_injective : Function.Injective ContributionKind.asStr := by
  intro first second h
  cases first <;> cases second <;> first | rfl | exact absurd h (by decide)

/-- An event of another kind is no forge record. -/
theorem ForgeConsistent.of_other {before : List OriginEvent} {event : OriginEvent}
    (h : ∀ kind : ContributionKind, kind.isForge = true → event.kind ≠ kind.asStr) :
    ForgeConsistent P before event :=
  ⟨fun hkind => absurd hkind (h _ rfl), fun hkind => absurd hkind (h _ rfl),
    fun hkind => absurd hkind (h _ rfl), fun hkind => absurd hkind (h _ rfl),
    fun kind hforge _ hkind => absurd hkind (h kind hforge)⟩

theorem ForgeConsistent.of_kind {before : List OriginEvent} {event : OriginEvent}
    (h : ∀ kind : ContributionKind, event.kind ≠ kind.asStr) : ForgeConsistent P before event :=
  .of_other fun kind _ => h kind

theorem forgeLog_nil : ForgeLog P [] := by
  intro before event after hsplit
  cases before <;> cases hsplit

theorem ForgeLog.append {log : List OriginEvent} {event : OriginEvent} (h : ForgeLog P log)
    (hevent : ForgeConsistent P log event) : ForgeLog P (log ++ [event]) := by
  intro before other after hsplit
  rcases List.eq_nil_or_concat after with rfl | ⟨rest, last, rfl⟩
  · obtain ⟨rfl, hlast⟩ := List.append_inj' hsplit rfl
    cases hlast
    exact hevent
  · rw [List.concat_eq_append, ← List.cons_append, ← List.append_assoc] at hsplit
    obtain ⟨hlog, -⟩ := List.append_inj' hsplit rfl
    exact h before other rest hlog

/-! ## What an importer accepts -/

variable (P) in
/-- The checks of an importer which concern the earlier records of the log. -/
structure AcceptsReferences (tables : OriginTables) (sequence : ℤ) (lineageId : String)
    (contribution : SignedContribution) : Prop where
  reporting : validateRemoteReporting P tables sequence contribution = .ok ()
  forge : contribution.kind.isForge = true →
    validateCommonsRouting lineageId contribution = .ok () ∧
      validateRemoteForgeState P tables lineageId contribution = .ok ()

theorem storedContribution_toText {value : Json} {contribution : SignedContribution} :
    storedContribution P (P.toText value) = .ok contribution ↔
      SignedContribution.ofJson P value = some contribution := by
  simp only [storedContribution, P.parse_toText, okOr_some, ok_bind, okOr_eq_ok]

section

variable {events : List OriginEvent} {tables : OriginTables} {event : OriginEvent}
  {contribution : SignedContribution} {lineageId : String}

/-- A stored record which an importer finds is a record of the log. -/
theorem exists_event_of_find {eventId : String} (kind : ContributionKind) {row : RemoteEventRow}
    (hrows : List.Forall₂ (fun event row => ∃ nonce, row = remoteRow P event nonce) events
      tables.remoteEvents)
    (hfound : tables.remoteEvents.find? (fun row => row.eventId == eventId &&
      row.kind == kind.asStr) = some row) :
    ∃ earlier ∈ events, earlier.eventId = eventId ∧ earlier.kind = kind.asStr ∧
      row.lineageId = earlier.lineageId ∧ row.canonicalJson = P.toText earlier.canonical := by
  obtain ⟨earlier, hmem, nonce, rfl⟩ :=
    exists_left_of_mem hrows (List.mem_of_find?_eq_some hfound)
  have htest := List.find?_some hfound
  simp only [Bool.and_eq_true, beq_iff_eq] at htest
  exact ⟨earlier, hmem, htest.1, htest.2, rfl, rfl⟩

/-- The record to which a review refers is by another author. -/
theorem exists_subject {eventId canonicalJson proposer : String} (kind : ContributionKind)
    {error : CommonwakeError}
    (hrows : List.Forall₂ (fun event row => ∃ nonce, row = remoteRow P event nonce) events
      tables.remoteEvents)
    (h : tables.forgeSubject eventId kind.asStr error = .ok (proposer, canonicalJson)) :
    ∃ earlier ∈ events, earlier.eventId = eventId ∧ earlier.kind = kind.asStr ∧
      earlier.lineageId = some proposer ∧ canonicalJson = P.toText earlier.canonical := by
  simp only [OriginTables.forgeSubject, bind_eq_ok, okOr_eq_ok, pure_eq_ok, Except.ok.injEq,
    Prod.mk.injEq] at h
  obtain ⟨row, hfound, _, hlineage, rfl, rfl⟩ := h
  obtain ⟨earlier, hmem, hid, hkind, hsame, htext⟩ := exists_event_of_find kind hrows hfound
  rw [hsame] at hlineage
  exact ⟨earlier, hmem, hid, hkind, hlineage, htext⟩

theorem exists_canonical {eventId canonicalJson : String} (kind : ContributionKind)
    (hrows : List.Forall₂ (fun event row => ∃ nonce, row = remoteRow P event nonce) events
      tables.remoteEvents)
    (h : remoteForgeCanonical tables eventId kind.asStr = .ok canonicalJson) :
    ∃ earlier ∈ events, earlier.eventId = eventId ∧ earlier.kind = kind.asStr ∧
      canonicalJson = P.toText earlier.canonical := by
  simp only [remoteForgeCanonical, bind_eq_ok, okOr_eq_ok, pure_eq_ok, Except.ok.injEq] at h
  obtain ⟨row, hfound, rfl⟩ := h
  obtain ⟨earlier, hmem, hid, hkind, -, htext⟩ := exists_event_of_find kind hrows hfound
  exact ⟨earlier, hmem, hid, hkind, htext⟩

theorem OriginEvent.carries_of_ofJson {α : Type} {decode : Json → Option α} {payload : α}
    {kind : ContributionKind} (hkind : event.kind = kind.asStr)
    (hcontribution : SignedContribution.ofJson P event.canonical = some contribution)
    (hpayload : decodePayload decode contribution.payload = .ok payload) :
    event.Carries P kind decode payload :=
  ⟨hkind, contribution, hcontribution, decodePayload_eq_ok.mp hpayload⟩

theorem reviewsPatch_of_accepts
    (hrows : List.Forall₂ (fun event row => ∃ nonce, row = remoteRow P event nonce) events
      tables.remoteEvents)
    (hcontribution : SignedContribution.ofJson P event.canonical = some contribution)
    (hevent : event.kind = contribution.kind.asStr) (hlineage : event.lineageId = some lineageId)
    (hkind : contribution.kind = .codeReview)
    (h : validateRemoteForgeState P tables lineageId contribution = .ok ()) :
    ReviewsPatch P events event := by
  simp only [validateRemoteForgeState, validateCodeReviewSubject, hkind, bind_eq_ok,
    rejectIf_eq_ok, not_or, not_not, Prod.exists] at h
  obtain ⟨review, hreview, proposer, canonicalJson, hsubject, ⟨⟩, hother, proposal, hproposal,
    patch, hpatch, hagree⟩ := h
  obtain ⟨earlier, hmem, hid, hearlier, hproposer, rfl⟩ :=
    exists_subject .repositoryPatch hrows hsubject
  rw [hkind] at hevent
  exact ⟨review, earlier, patch, event.carries_of_ofJson hevent hcontribution hreview, hmem, hid,
    earlier.carries_of_ofJson hearlier (storedContribution_toText.mp hproposal) hpatch, hagree,
    proposer, lineageId, hproposer, hlineage, hother⟩

theorem reviewsRelease_of_accepts
    (hrows : List.Forall₂ (fun event row => ∃ nonce, row = remoteRow P event nonce) events
      tables.remoteEvents)
    (hcontribution : SignedContribution.ofJson P event.canonical = some contribution)
    (hevent : event.kind = contribution.kind.asStr) (hlineage : event.lineageId = some lineageId)
    (hkind : contribution.kind = .releaseReview)
    (h : validateRemoteForgeState P tables lineageId contribution = .ok ()) :
    ReviewsRelease P events event := by
  simp only [validateRemoteForgeState, validateReleaseReviewSubject, hkind, bind_eq_ok,
    rejectIf_eq_ok, not_or, not_not, Prod.exists] at h
  obtain ⟨review, hreview, proposer, canonicalJson, hsubject, ⟨⟩, hother, proposal, hproposal,
    release, hrelease, hagree⟩ := h
  obtain ⟨earlier, hmem, hid, hearlier, hproposer, rfl⟩ :=
    exists_subject .releaseProposal hrows hsubject
  rw [hkind] at hevent
  exact ⟨review, earlier, release, event.carries_of_ofJson hevent hcontribution hreview, hmem,
    hid, earlier.carries_of_ofJson hearlier (storedContribution_toText.mp hproposal) hrelease,
    hagree, proposer, lineageId, hproposer, hlineage, hother⟩

theorem attestsPatch_of_accepts
    (hrows : List.Forall₂ (fun event row => ∃ nonce, row = remoteRow P event nonce) events
      tables.remoteEvents)
    (hcontribution : SignedContribution.ofJson P event.canonical = some contribution)
    (hevent : event.kind = contribution.kind.asStr)
    (hkind : contribution.kind = .buildAttestation)
    (h : validateRemoteForgeState P tables lineageId contribution = .ok ()) :
    AttestsPatch P events event := by
  simp only [validateRemoteForgeState, validateBuildAttestationSubject, hkind, bind_eq_ok,
    rejectIf_eq_ok, not_or, not_not] at h
  obtain ⟨attestation, hattestation, canonicalJson, hsubject, proposal, hproposal, patch, hpatch,
    hagree⟩ := h
  obtain ⟨earlier, hmem, hid, hearlier, rfl⟩ :=
    exists_canonical .repositoryPatch hrows hsubject
  rw [hkind] at hevent
  exact ⟨attestation, earlier, patch, event.carries_of_ofJson hevent hcontribution hattestation,
    hmem, hid, earlier.carries_of_ofJson hearlier (storedContribution_toText.mp hproposal) hpatch,
    hagree, trivial⟩

theorem includesPatches_of_accepts
    (hrows : List.Forall₂ (fun event row => ∃ nonce, row = remoteRow P event nonce) events
      tables.remoteEvents)
    (hcontribution : SignedContribution.ofJson P event.canonical = some contribution)
    (hevent : event.kind = contribution.kind.asStr)
    (hkind : contribution.kind = .releaseProposal)
    (h : validateRemoteForgeState P tables lineageId contribution = .ok ()) :
    IncludesPatches P events event := by
  simp only [validateRemoteForgeState, hkind, bind_eq_ok, forEach_eq_ok] at h
  obtain ⟨release, hrelease, hpatches⟩ := h
  rw [hkind] at hevent
  refine ⟨release, event.carries_of_ofJson hevent hcontribution hrelease, ?_⟩
  intro eventId hincluded
  obtain ⟨canonicalJson, hsubject, hvalid⟩ := hpatches eventId hincluded
  simp only [validateIncludedPatch, bind_eq_ok, rejectIf_eq_ok, not_not] at hvalid
  obtain ⟨proposal, hproposal, patch, hpatch, hsame⟩ := hvalid
  obtain ⟨earlier, hmem, hid, hearlier, rfl⟩ :=
    exists_canonical .repositoryPatch hrows hsubject
  exact ⟨earlier, hmem, hid, patch,
    earlier.carries_of_ofJson hearlier (storedContribution_toText.mp hproposal) hpatch, hsame⟩

/-- A trace which an importer finds is a trace of the log. -/
theorem exists_trace {sequence : ℤ} {traceId subject : String}
    (hrows : List.Forall₂ (fun event row => ∃ nonce, row = remoteRow P event nonce) events
      tables.remoteEvents)
    (h : remoteTraceSubject P tables sequence traceId = .ok (some subject)) :
    ∃ earlier ∈ events, earlier.eventId = traceId ∧ ∃ payload,
      earlier.Carries P .verificationTrace (VerificationTracePayload.ofJson P) payload ∧
      payload.subjectId = subject := by
  unfold remoteTraceSubject traceSubject at h
  cases htext : tables.traceText? sequence traceId with
  | none =>
      rw [htext] at h
      cases h
  | some text =>
      obtain ⟨row, hfound, rfl⟩ := Option.map_eq_some_iff.mp htext
      have htest := List.find?_some hfound
      simp only [Bool.and_eq_true, beq_iff_eq] at htest
      obtain ⟨earlier, hmem, nonce, rfl⟩ :=
        exists_left_of_mem hrows (List.mem_of_find?_eq_some hfound)
      rw [htext] at h
      simp only [traceSubjectFromCanonical, bind_eq_ok, pure_eq_ok, Except.ok.injEq,
        Option.some.injEq] at h
      obtain ⟨_, ⟨proof, hproof, ⟨⟩, -, payload, hpayload, rfl⟩, rfl⟩ := h
      exact ⟨earlier, hmem, htest.1.1, payload,
        earlier.carries_of_ofJson htest.1.2 (storedContribution_toText.mp hproof) hpayload, rfl⟩

/-- A forge record is about its targets. -/
theorem reportSubjectIds_forge (contribution : SignedContribution)
    (hkind : contribution.kind.isForge = true) :
    reportSubjectIds P contribution = .ok contribution.targets := by
  unfold reportSubjectIds
  cases hcase : contribution.kind <;> simp_all [ContributionKind.isForge]

theorem isTraced_of_accepts {sequence : ℤ}
    (hrows : List.Forall₂ (fun event row => ∃ nonce, row = remoteRow P event nonce) events
      tables.remoteEvents)
    (hcontribution : SignedContribution.ofJson P event.canonical = some contribution)
    (hforge : contribution.kind.isForge = true) (hkind : contribution.kind ≠ .repositoryPatch)
    (h : validateRemoteReporting P tables sequence contribution = .ok ()) :
    IsTraced P events event := by
  have hnottrace : contribution.kind ≠ .verificationTrace := by
    intro htrace
    rw [htrace] at hforge
    cases hforge
  have hrequires : contribution.kind.requiresTraceableReporting = true := by
    cases hcase : contribution.kind <;> simp_all [ContributionKind.isForge,
      ContributionKind.requiresTraceableReporting]
  unfold validateRemoteReporting at h
  rw [if_neg hnottrace] at h
  by_cases htraceable : contribution.reporting.isTraceable = false
  · rw [if_pos htraceable, rejectIf_eq_ok] at h
    exact absurd ⟨hforge, hrequires⟩ h
  · rw [if_neg htraceable, reportSubjectIds_forge contribution hforge] at h
    simp only [ok_bind, bind_eq_ok, rejectIf_eq_ok, forEach_eq_ok, okOr_eq_ok, not_not] at h
    obtain ⟨⟨⟩, -, htraces⟩ := h
    have hnonempty : contribution.reporting.traceEventIds ≠ [] := by
      intro hempty
      simp [ReportingDeclaration.isTraceable, hempty] at htraceable
    obtain ⟨traceId, htraceId⟩ := List.exists_mem_of_ne_nil _ hnonempty
    obtain ⟨found, hfound, subject, rfl, hsubject⟩ := htraces traceId htraceId
    obtain ⟨proof, hproof, hid, payload, hpayload, rfl⟩ := exists_trace hrows hfound
    exact ⟨contribution, hcontribution, proof, hproof, hid ▸ htraceId, payload, hpayload,
      hsubject⟩

/-- What an importer accepts agrees with the log before it. -/
theorem AcceptsReferences.consistent
    (h : AcceptsReferences P tables event.sequence lineageId contribution)
    (hrows : List.Forall₂ (fun event row => ∃ nonce, row = remoteRow P event nonce) events
      tables.remoteEvents)
    (hcontribution : SignedContribution.ofJson P event.canonical = some contribution)
    (hevent : event.kind = contribution.kind.asStr)
    (hlineage : event.lineageId = some lineageId) : ForgeConsistent P events event := by
  have hkind : ∀ kind : ContributionKind, event.kind = kind.asStr → contribution.kind = kind := by
    intro kind hsame
    exact asStr_injective (hevent.symm.trans hsame)
  constructor
  · intro hsame
    have hcase := hkind _ hsame
    exact reviewsPatch_of_accepts hrows hcontribution hevent hlineage hcase
      (h.forge (by rw [hcase]; rfl)).2
  · intro hsame
    have hcase := hkind _ hsame
    exact attestsPatch_of_accepts hrows hcontribution hevent hcase
      (h.forge (by rw [hcase]; rfl)).2
  · intro hsame
    have hcase := hkind _ hsame
    exact includesPatches_of_accepts hrows hcontribution hevent hcase
      (h.forge (by rw [hcase]; rfl)).2
  · intro hsame
    have hcase := hkind _ hsame
    exact reviewsRelease_of_accepts hrows hcontribution hevent hlineage hcase
      (h.forge (by rw [hcase]; rfl)).2
  · intro kind hforge hother hsame
    have hcase := hkind kind hsame
    rw [← hcase] at hforge hother
    exact isTraced_of_accepts hrows hcontribution hforge hother h.reporting

end

/-! ## What a node accepts -/

section

variable {db : Db} {tables : OriginTables} {contribution : SignedContribution}
  {lineageId : String}

/-- An importer which holds the log finds the record which the node finds. -/
theorem find_remote {eventId kind : String} {row : EventRow}
    (hentries : tables.remoteEvents.map (RemoteEventRow.entry P) =
      db.events.map (EventRow.entry P))
    (hfound : db.events.find? (fun row => row.eventId == eventId && row.kind == kind) =
      some row) :
    ∃ stored, tables.remoteEvents.find? (fun row => row.eventId == eventId &&
        row.kind == kind) = some stored ∧ stored.lineageId = row.lineageId ∧
      P.parse stored.canonicalJson = P.parse row.canonicalJson := by
  have hlist := congrArg (List.find? fun entry : LogEntry =>
    entry.eventId == eventId && entry.kind == kind) hentries
  rw [List.find?_map, List.find?_map] at hlist
  have hlocal : db.events.find? ((fun entry : LogEntry => entry.eventId == eventId &&
      entry.kind == kind) ∘ EventRow.entry P) = some row := hfound
  rw [hlocal, Option.map_some, Option.map_eq_some_iff] at hlist
  obtain ⟨stored, hstored, hentry⟩ := hlist
  exact ⟨stored, hstored, congrArg LogEntry.lineageId hentry,
    congrArg LogEntry.canonical hentry⟩

theorem forgeSubject_of_local {eventId kind label proposer canonicalJson : String}
    {error : CommonwakeError}
    (hentries : tables.remoteEvents.map (RemoteEventRow.entry P) =
      db.events.map (EventRow.entry P))
    (h : db.localForgeSubject eventId kind label = .ok (proposer, canonicalJson)) :
    ∃ text, tables.forgeSubject eventId kind error = .ok (proposer, text) ∧
      storedContribution P text = storedContribution P canonicalJson := by
  simp only [Db.localForgeSubject, bind_eq_ok, okOr_eq_ok, pure_eq_ok, Except.ok.injEq,
    Prod.mk.injEq] at h
  obtain ⟨row, hfound, _, hlineage, rfl, rfl⟩ := h
  obtain ⟨stored, hstored, hsame, hparse⟩ := find_remote hentries hfound
  refine ⟨stored.canonicalJson, ?_, storedContribution_congr hparse⟩
  rw [hlineage] at hsame
  simp only [OriginTables.forgeSubject, hstored, hsame, okOr_some, ok_bind, pure_eq_ok]

theorem remoteForgeCanonical_of_local {eventId kind label canonicalJson : String}
    (hentries : tables.remoteEvents.map (RemoteEventRow.entry P) =
      db.events.map (EventRow.entry P))
    (h : db.localForgeCanonical eventId kind label = .ok canonicalJson) :
    ∃ text, remoteForgeCanonical tables eventId kind = .ok text ∧
      storedContribution P text = storedContribution P canonicalJson := by
  simp only [Db.localForgeCanonical, Db.canonicalOfKind, okOr_eq_ok, Option.map_eq_some_iff] at h
  obtain ⟨row, hfound, rfl⟩ := h
  obtain ⟨stored, hstored, -, hparse⟩ := find_remote hentries hfound
  refine ⟨stored.canonicalJson, ?_, storedContribution_congr hparse⟩
  simp only [remoteForgeCanonical, hstored, okOr_some, ok_bind, pure_eq_ok]

/-- The artifact of a record which a node accepts has a bounded size. -/
theorem validateArtifactPurpose_size {purpose : ForgeArtifactPurpose}
    {artifact : ForgeArtifactRef} (h : validateArtifactPurpose purpose artifact = .ok ()) :
    artifact.sizeBytes ≤ maxForgeArtifactBytes := by
  simp only [validateArtifactPurpose, validateArtifactRef, bind_eq_ok, rejectIf_eq_ok, not_or,
    gt_iff_lt, not_lt] at h
  obtain ⟨⟨⟩, ⟨⟨⟩, -, ⟨⟩, ⟨-, hsize⟩, -⟩, -⟩ := h
  exact hsize

theorem decode_repositoryPatch_canon {patch : RepositoryPatchPayload}
    (hkind : contribution.kind = .repositoryPatch)
    (hvalid : validateContributionContent P contribution = .ok ())
    (h : decodePayload RepositoryPatchPayload.ofJson contribution.payload = .ok patch) :
    decodePayload RepositoryPatchPayload.ofJson (P.canon contribution.payload) = .ok patch := by
  simp only [validateContributionContent, validatePayloadContent, hkind, bind_eq_ok, h,
    Except.ok.injEq, exists_eq_left', validateRepositoryPatch] at hvalid
  obtain ⟨⟨⟩, -, ⟨⟩, -, ⟨⟩, -, ⟨⟩, -, ⟨⟩, -, ⟨⟩, hartifact, -⟩ := hvalid
  rw [decodePayload_eq_ok] at h ⊢
  exact RepositoryPatchPayload.ofJson_canon P h (validateArtifactPurpose_size hartifact)

theorem decode_releaseProposal_canon {release : ReleaseProposalPayload}
    (hkind : contribution.kind = .releaseProposal)
    (hvalid : validateContributionContent P contribution = .ok ())
    (h : decodePayload ReleaseProposalPayload.ofJson contribution.payload = .ok release) :
    decodePayload ReleaseProposalPayload.ofJson (P.canon contribution.payload) =
      .ok release := by
  simp only [validateContributionContent, validatePayloadContent, hkind, bind_eq_ok, h,
    Except.ok.injEq, exists_eq_left', validateReleaseProposal] at hvalid
  obtain ⟨⟨⟩, -, ⟨⟩, -, ⟨⟩, -, ⟨⟩, -, ⟨⟩, -, ⟨⟩, hartifact, -⟩ := hvalid
  rw [decodePayload_eq_ok] at h ⊢
  exact ReleaseProposalPayload.ofJson_canon P h (validateArtifactPurpose_size hartifact)

/-- The routing which the node has checked. -/
theorem validateCommonsRouting_of_valid {now : ℤ} (hkind : contribution.kind.isForge = true)
    (hcontent : validateContributionContent P contribution = .ok ())
    (hvalid : db.validateKind P lineageId contribution now = .ok ()) :
    validateCommonsRouting lineageId (contribution.canonical P) = .ok () := by
  unfold validateCommonsRouting
  simp only [SignedContribution.canonical]
  cases hcase : contribution.kind with
  | repositoryPatch =>
      simp only [Db.validateKind, hcase, bind_eq_ok] at hvalid ⊢
      obtain ⟨patch, hpatch, hrouting⟩ := hvalid
      exact ⟨patch, decode_repositoryPatch_canon hcase hcontent hpatch, hrouting⟩
  | codeReview =>
      simp only [Db.validateKind, Db.validateCodeReviewTarget, hcase, bind_eq_ok] at hvalid ⊢
      obtain ⟨review, hreview, ⟨⟩, hrouting, -⟩ := hvalid
      exact ⟨review, decodePayload_canon (CodeReviewPayload.stable P) hreview, hrouting⟩
  | buildAttestation =>
      simp only [Db.validateKind, hcase, bind_eq_ok] at hvalid ⊢
      obtain ⟨attestation, hattestation, ⟨⟩, hrouting, -⟩ := hvalid
      exact ⟨attestation, decodePayload_canon (BuildAttestationPayload.stable P) hattestation,
        hrouting⟩
  | releaseProposal =>
      simp only [Db.validateKind, Db.validateReleaseProposalTargets, hcase, bind_eq_ok]
        at hvalid ⊢
      obtain ⟨release, hrelease, ⟨⟩, hrouting, -⟩ := hvalid
      exact ⟨release, decode_releaseProposal_canon hcase hcontent hrelease, hrouting⟩
  | releaseReview =>
      simp only [Db.validateKind, Db.validateReleaseReviewTarget, hcase, bind_eq_ok] at hvalid ⊢
      obtain ⟨review, hreview, ⟨⟩, hrouting, -⟩ := hvalid
      exact ⟨review, decodePayload_canon (ReleaseReviewPayload.stable P) hreview, hrouting⟩
  | _ =>
      rw [hcase] at hkind
      cases hkind

/-- The earlier records which the node has checked. -/
theorem validateRemoteForgeState_of_valid {now : ℤ}
    (hentries : tables.remoteEvents.map (RemoteEventRow.entry P) =
      db.events.map (EventRow.entry P))
    (hkind : contribution.kind.isForge = true)
    (hcontent : validateContributionContent P contribution = .ok ())
    (hvalid : db.validateKind P lineageId contribution now = .ok ()) :
    validateRemoteForgeState P tables lineageId (contribution.canonical P) = .ok () := by
  unfold validateRemoteForgeState
  simp only [SignedContribution.canonical]
  cases hcase : contribution.kind with
  | repositoryPatch => rfl
  | codeReview =>
      simp only [Db.validateKind, Db.validateCodeReviewTarget, validateCodeReviewSubject, hcase,
        bind_eq_ok, rejectIf_eq_ok, Prod.exists] at hvalid ⊢
      obtain ⟨review, hreview, ⟨⟩, -, proposer, canonicalJson, hsubject, ⟨⟩, hother, proposal,
        hproposal, hagree⟩ := hvalid
      obtain ⟨text, htext, hsame⟩ := forgeSubject_of_local hentries hsubject
      rw [← hsame] at hproposal
      exact ⟨review, decodePayload_canon (CodeReviewPayload.stable P) hreview, proposer, text,
        htext, (), hother, proposal, hproposal, hagree⟩
  | buildAttestation =>
      simp only [Db.validateKind, validateBuildAttestationSubject, hcase, bind_eq_ok]
        at hvalid ⊢
      obtain ⟨attestation, hattestation, ⟨⟩, -, canonicalJson, hsubject, proposal, hproposal,
        hagree⟩ := hvalid
      obtain ⟨text, htext, hsame⟩ := remoteForgeCanonical_of_local hentries hsubject
      rw [← hsame] at hproposal
      exact ⟨attestation, decodePayload_canon (BuildAttestationPayload.stable P) hattestation,
        text, htext, proposal, hproposal, hagree⟩
  | releaseProposal =>
      simp only [Db.validateKind, Db.validateReleaseProposalTargets, validateIncludedPatch,
        hcase, bind_eq_ok, forEach_eq_ok, rejectIf_eq_ok] at hvalid ⊢
      obtain ⟨release, hrelease, ⟨⟩, -, hpatches⟩ := hvalid
      refine ⟨release, decode_releaseProposal_canon hcase hcontent hrelease, ?_⟩
      intro eventId hincluded
      obtain ⟨canonicalJson, hsubject, proposal, hproposal, hagree⟩ :=
        hpatches eventId hincluded
      obtain ⟨text, htext, hsame⟩ := remoteForgeCanonical_of_local hentries hsubject
      rw [← hsame] at hproposal
      exact ⟨text, htext, proposal, hproposal, hagree⟩
  | releaseReview =>
      simp only [Db.validateKind, Db.validateReleaseReviewTarget, validateReleaseReviewSubject,
        hcase, bind_eq_ok, rejectIf_eq_ok, Prod.exists] at hvalid ⊢
      obtain ⟨review, hreview, ⟨⟩, -, proposer, canonicalJson, hsubject, ⟨⟩, hother, proposal,
        hproposal, hagree⟩ := hvalid
      obtain ⟨text, htext, hsame⟩ := forgeSubject_of_local hentries hsubject
      rw [← hsame] at hproposal
      exact ⟨review, decodePayload_canon (ReleaseReviewPayload.stable P) hreview, proposer, text,
        htext, (), hother, proposal, hproposal, hagree⟩
  | _ =>
      rw [hcase] at hkind
      cases hkind

/-- The importers which hold the log accept a forge record of the node. -/
theorem acceptsReferences_of_accepted {identity : NodeIdentity P} {appendedAt sequence : ℤ}
    {result : AcceptedObject × Db}
    (hentries : tables.remoteEvents.map (RemoteEventRow.entry P) =
      db.events.map (EventRow.entry P))
    (hbefore : ∀ row ∈ db.events, row.sequence < sequence)
    (hkind : contribution.kind.isForge = true)
    (h : db.appendContribution P identity lineageId contribution appendedAt = .ok result) :
    AcceptsReferences P tables sequence lineageId (contribution.canonical P) := by
  obtain ⟨hcontent, hreporting, hvalid⟩ := Db.appendContribution_valid h
  refine ⟨?_, fun _ => ⟨validateCommonsRouting_of_valid hkind hcontent hvalid,
    validateRemoteForgeState_of_valid hentries hkind hcontent hvalid⟩⟩
  refine validateRemoteReporting_of_report ?_ ?_ hentries hbefore hreporting
  · intro htrace
    rw [htrace] at hkind
    cases hkind
  · intro subjects hsubjects
    rw [reportSubjectIds_forge contribution hkind] at hsubjects
    rw [reportSubjectIds_forge (contribution.canonical P) hkind]
    exact hsubjects

end

/-! ## Logs -/

section

variable {origin : String} {events : List OriginEvent} {event : OriginEvent}

theorem projectContribution_forgeConsistent {state next : ImportState} {nonce : Option String}
    (hrows : List.Forall₂ (fun event row => ∃ nonce, row = remoteRow P event nonce) events
      state.tables.remoteEvents)
    (h : projectContribution P origin event state = .ok (nonce, next)) :
    ForgeConsistent P events event := by
  rw [projectContribution_eq] at h
  simp only [bind_eq_ok, pure_eq_ok, Except.ok.injEq, Prod.mk.injEq, Prod.exists] at h
  obtain ⟨lineageId, contribution, hauthorize, applied, happly, -, rfl⟩ := h
  simp only [authorizeContribution, bind_eq_ok, okOr_eq_ok, rejectIf_eq_ok, not_not,
    pure_eq_ok, Except.ok.injEq, Prod.mk.injEq, Prod.exists] at hauthorize
  obtain ⟨contribution, hcontribution, -, -, -, -, -, -, -, hkind, receivedAt, -, -, -, lineage,
    sessionKey, -, ⟨⟩, hmetadata, key, -, ⟨⟩, -, rfl, rfl⟩ := hauthorize
  have hlineage := requireRemoteEventMetadata_lineage hmetadata
  simp only [applyFederatedContribution, bind_eq_ok] at happly
  obtain ⟨⟨⟩, -, ⟨⟩, hreporting, hfederate⟩ := happly
  have haccepts : AcceptsReferences P state.tables event.sequence lineage contribution := by
    refine ⟨hreporting, ?_⟩
    intro hforge
    unfold federateKind at hfederate
    cases hcase : contribution.kind with
    | repositoryPatch | codeReview | buildAttestation | releaseProposal | releaseReview =>
        simp only [hcase, bind_eq_ok] at hfederate
        obtain ⟨⟨⟩, hrouting, ⟨⟩, hstate, -⟩ := hfederate
        exact ⟨hrouting, hstate⟩
    | _ =>
        rw [hcase] at hforge
        cases hforge
  exact haccepts.consistent hrows hcontribution hkind hlineage

theorem projectAndStore_forgeConsistent {state next : ImportState}
    (hrows : List.Forall₂ (fun event row => ∃ nonce, row = remoteRow P event nonce) events
      state.tables.remoteEvents)
    (h : projectAndStore P origin event state = .ok next) : ForgeConsistent P events event := by
  obtain ⟨nonce, projected, hproject, -⟩ := projectAndStore_eq_ok h
  have hother : ∀ kind, event.kind = kind →
      (∀ other : ContributionKind, kind ≠ other.asStr) → ForgeConsistent P events event := by
    intro kind hkind hnot
    refine .of_kind ?_
    rw [hkind]
    exact hnot
  unfold validateAndProjectRemoteEvent at hproject
  split at hproject
  case h_8 => exact projectContribution_forgeConsistent hrows hproject
  all_goals
    rename_i hkind
    refine hother _ hkind ?_
    intro other
    cases other <;> decide

/-- What is stored about an origin is a forge log. -/
theorem Imported.forgeLog {tables : OriginTables} (h : Imported P origin events tables) :
    ForgeLog P events := by
  induction h with
  | empty => exact forgeLog_nil
  | checkpoints events tables checkpoints _ ih => exact ih
  | store events event tables commons next himported hstore ih =>
      exact ih.append (projectAndStore_forgeConsistent himported.rows hstore)

end

section

variable {identity : NodeIdentity P}

/-- The forge records of a node agree with its log. -/
theorem History.forgeLog {commits : PendingCall → Db → ℤ → Prop} {entries : FeedEntry → Prop}
    {db : Db} (h : History P identity commits entries db) :
    ∃ log, db.events.map (originEvent P) = log.map .ok ∧ ForgeLog P log := by
  induction h with
  | init => exact ⟨[], rfl, forgeLog_nil⟩
  | quiet db next _ hquiet ih =>
      rw [hquiet.events]
      exact ih
  | commit db next call appendedAt row accepted hbefore hsound hmeets hcommit hcommitted ih =>
      obtain ⟨log, hlog, hforge⟩ := ih
      have hafter := History.commit db next call appendedAt row accepted hbefore hsound hmeets
        hcommit hcommitted
      obtain ⟨event, hevent⟩ : ∃ event, originEvent P row = .ok event := by
        refine hafter.logSound.event ?_
        rw [hcommitted.events]
        exact List.mem_append_right _ List.mem_cons_self
      have hrows : next.events.map (originEvent P) = (log ++ [event]).map .ok := by
        rw [hcommitted.events, List.map_append, List.map_append, hlog, List.map_singleton,
          List.map_singleton, hevent]
      refine ⟨log ++ [event], hrows, hforge.append ?_⟩
      obtain ⟨logged, happended, -⟩ := hcommitted.appended
      rcases Admitted.commit_content hcommit with ⟨lineageId, contribution, hadmitted⟩ |
        ⟨hkind, -, -⟩
      · rw [hadmitted] at hcommit
        obtain ⟨henvelope, -⟩ :=
          Db.appendContribution_envelope hcommit hcommitted.events hevent
        have hcontribution : SignedContribution.ofJson P event.canonical =
            some (contribution.canonical P) := by
          rw [henvelope.canonical]
          exact SignedContribution.ofJson_canon P contribution
        by_cases hforgeKind : contribution.kind.isForge = true
        · -- An importer with the same log accepts the record.
          let tables : OriginTables :=
            { OriginTables.empty with remoteEvents := log.map fun event => remoteRow P event none }
          have hstored : List.Forall₂ (fun event row => ∃ nonce, row = remoteRow P event nonce)
              log tables.remoteEvents := by
            rw [List.forall₂_map_right_iff, List.forall₂_same]
            exact fun event _ => ⟨none, rfl⟩
          have hearlier : ∀ stored ∈ db.events, stored.sequence < event.sequence := by
            intro stored hstored
            have hbounds := hbefore.logSound.numbered.mem_bounds hstored
            have hsequence : accepted.sequence = db.events.length + 1 := by
              rw [happended.accepted_eq, ← hbefore.logSound.head_eq]
              exact happended.columns.1
            rw [henvelope.sequence, hsequence]
            omega
          have haccepts := acceptsReferences_of_accepted (entries_of_rows hstored hlog) hearlier
            hforgeKind hcommit
          exact haccepts.consistent hstored hcontribution henvelope.kind henvelope.lineage
        · refine .of_other ?_
          intro kind hkind hsame
          have hcase : contribution.kind = kind := by
            refine asStr_injective ?_
            rw [← hsame, henvelope.kind]
            rfl
          rw [hcase] at hforgeKind
          exact hforgeKind hkind
      · refine .of_kind ?_
        rw [happended.event_kind hevent]
        exact isAdministrative_ne hkind
  | observe db next sourceId languages feed retrievedAt entry canonicalUrl appendedAt row
      accepted hbefore hmeets hobserved ih =>
      obtain ⟨log, hlog, hforge⟩ := ih
      obtain ⟨logged, happended, -⟩ := hobserved.appended
      obtain ⟨event, hevent, -⟩ := happended.envelope _ rfl
      refine ⟨log ++ [event], ?_, hforge.append (.of_kind ?_)⟩
      · rw [hobserved.events, List.map_append, List.map_append, hlog, List.map_singleton,
          List.map_singleton, hevent]
      · rw [happended.event_kind hevent]
        intro kind
        change "observation" ≠ kind.asStr
        cases kind <;> decide
  | witness db next bundle observedAt appendedAt row hbefore hwitnessed ih =>
      obtain ⟨log, hlog, hforge⟩ := ih
      obtain ⟨base, accepted, logged, -, happended⟩ := hwitnessed.appended
      obtain ⟨event, hevent, -⟩ := happended.envelope _ rfl
      refine ⟨log ++ [event], ?_, hforge.append (.of_kind ?_)⟩
      · rw [hwitnessed.events, List.map_append, List.map_append, hlog, List.map_singleton,
          List.map_singleton, hevent]
      · rw [happended.event_kind hevent]
        intro kind
        change "checkpoint_witnessed" ≠ kind.asStr
        cases kind <;> decide

/-- The forge records of a node agree with its log, those which it has imported
with the logs of their origins, and an importer which has recorded the log of a
node accepts its next forge record. -/
theorem run_forgeRecords (P : Primitives) (identity : NodeIdentity P)
    (actions : List Action) :
    (∃ log, (NodeState.run P identity actions).db.events.map (originEvent P) = log.map .ok ∧
      ForgeLog P log) ∧
    (∀ origin, ∃ log, ((NodeState.run P identity actions).db.origins origin).remoteEvents.map
        (remoteOriginEventFromRow P) = log.map .ok ∧ ForgeLog P log) ∧
    ∀ (importer : NodeIdentity P) (imports : List Action) (fresh : List OriginEvent)
      (state : ImportState) (lineageId : String) (contribution : SignedContribution)
      (appendedAt : ℤ) (accepted : AcceptedObject) (next : Db),
      ((NodeState.run P importer imports).db.origins identity.nodeId).remoteEvents.map
          (remoteOriginEventFromRow P) ++ fresh.map .ok =
        (NodeState.run P identity actions).db.events.map (originEvent P) →
      projectEvents P identity.nodeId
        ((NodeState.run P importer imports).db.importState identity.nodeId) fresh = .ok state →
      contribution.kind.isForge = true →
      (NodeState.run P identity actions).db.appendContribution P identity lineageId contribution
        appendedAt = .ok (accepted, next) →
      ∃ row event received,
        next.events = (NodeState.run P identity actions).db.events ++ [row] ∧
        originEvent P row = .ok event ∧
        SignedContribution.ofJson P event.canonical = some received ∧
        event.kind = received.kind.asStr ∧ received.kind = contribution.kind ∧
        event.lineageId = some lineageId ∧
        validateRemoteReporting P state.tables event.sequence received = .ok () ∧
        validateCommonsRouting lineageId received = .ok () ∧
        validateRemoteForgeState P state.tables lineageId received = .ok () := by
  have hhistory := run_history_any P identity actions
  refine ⟨hhistory.forgeLog, ?_, ?_⟩
  · intro origin
    obtain ⟨events, hevents⟩ := run_recorded P identity actions origin
    exact ⟨events, hevents.map_rows, hevents.forgeLog⟩
  · intro importer imports fresh state lineageId contribution appendedAt accepted next hprefix
      hproject hkind haccepted
    obtain ⟨-, logged, hlogged, happly⟩ := Db.appendContribution_eq_ok haccepted
    obtain ⟨row, happended⟩ := appendEvent_eq_ok hlogged
    have hrow : next.events = (NodeState.run P identity actions).db.events ++ [row] := by
      have hsame := logged.applyProjection_onlyProjected lineageId contribution accepted _ happly
      rw [hsame.events, happended.events]
    obtain ⟨event, hevent, -⟩ := happended.envelope (contribution.toJson P) rfl
    obtain ⟨henvelope, -⟩ := Db.appendContribution_envelope haccepted hrow hevent
    have hreceived : SignedContribution.ofJson P event.canonical =
        some (contribution.canonical P) := by
      rw [henvelope.canonical]
      exact SignedContribution.ofJson_canon P contribution
    -- The importer has recorded the log, and nothing else of this origin.
    obtain ⟨events, hevents⟩ := run_recorded P importer imports identity.nodeId
    have himported : Imported P identity.nodeId (events ++ fresh) state.tables :=
      Imported.projectEvents hevents hproject
    have hlog : (NodeState.run P identity actions).db.events.map (originEvent P) =
        (events ++ fresh).map .ok := by
      rw [← hprefix, hevents.map_rows, List.map_append]
    have hearlier : ∀ stored ∈ (NodeState.run P identity actions).db.events,
        stored.sequence < event.sequence := by
      intro stored hstored
      have hbounds := hhistory.logSound.numbered.mem_bounds hstored
      have hsequence : accepted.sequence =
          (NodeState.run P identity actions).db.events.length + 1 := by
        rw [happended.accepted_eq, ← hhistory.logSound.head_eq]
        exact happended.columns.1
      rw [henvelope.sequence, hsequence]
      omega
    have haccepts := acceptsReferences_of_accepted (himported.entries hlog) hearlier hkind
      haccepted
    obtain ⟨hrouting, hforge⟩ := haccepts.forge hkind
    exact ⟨row, event, contribution.canonical P, hrow, hevent, hreceived, henvelope.kind, rfl,
      henvelope.lineage, haccepts.reporting, hrouting, hforge⟩

end

end

namespace Sample

/-! ## A patch and its review -/

def forgeDelegation (secret session : Bytes) : SessionDelegation :=
  delegation secret session [.contribute, .forge] 0 (minutes 60) "0123456789abcdef"

def repositoryId : String := library.prefixedId "cwrepo_" [1]

def revision : String := library.sha256Hex [2]

def patchArtifact : ForgeArtifactRef :=
  ⟨library.sha256Hex [3], 10, "text/x-diff"⟩

/-- A node which holds the artifact of the patch. -/
def withArtifact : ArtifactStore where
  hasForgeArtifact := fun _ => .ok true
  artifactReceipts := fun _ => .ok [(repositoryId, patchArtifact, .patch)]

def repositoryPatch : SignedContribution :=
  contribution [12] (forgeDelegation [2] [12]) .repositoryPatch "fedcba9876543210"
    [repositoryId] .default 0
    (.object [("repository_id", .string repositoryId), ("base_revision", .string revision),
      ("proposed_revision", .string revision),
      ("artifact", .object [("sha256", .string patchArtifact.sha256),
        ("size_bytes", Serde.int 10), ("media_type", .string patchArtifact.mediaType)]),
      ("title", .string "A patch"), ("summary", .string "It mends what was broken."),
      ("changed_paths", Serde.strings ["a"]),
      ("compatibility_notes", .string "It changes no format."),
      ("risk_notes", .string "It carries no risk."),
      ("test_plan", .string "Run all the tests.")])

def patchTrace : SignedContribution :=
  trace [13] (forgeDelegation [3] [13]) "fedcba9876543210" (eventIdOf repositoryPatch)

def codeReview : SignedContribution :=
  contribution [13] (forgeDelegation [3] [13]) .codeReview "0123456789abcdee"
    [eventIdOf repositoryPatch] ⟨.traceable, [eventIdOf patchTrace]⟩ 0
    (.object [("repository_id", .string repositoryId),
      ("proposal_event_id", .string (eventIdOf repositoryPatch)),
      ("reviewed_revision", .string revision),
      ("artifact_sha256", .string patchArtifact.sha256),
      ("recommendation", .string "approve"),
      ("summary", .string "It mends what was broken.")])

/-- A lineage proposes a patch, which another lineage has tested. -/
def forgeRun : List Action :=
  atOnce (.registerLineage firstRegistration) 0 ++
    atOnce (.registerDelegation (forgeDelegation [2] [12])) 0 ++
    atOnce (.registerLineage (registration [3] "Second" "0123456789abcdef" 0)) 0 ++
    atOnce (.registerDelegation (forgeDelegation [3] [13])) 0 ++
    atOnce (.acceptContribution withArtifact repositoryPatch) 0 ++ accept patchTrace

instance forgeRun_accepts : Fact (
    (NodeState.run library origin forgeRun).db.events.length = 6 ∧
    isOk ((NodeState.run library origin forgeRun).db.appendContribution library origin
      (lineageOf [3]) codeReview 0) ∧
    (NodeState.run library importer (importLog forgeRun)).db.Holds library origin.nodeId
      (NodeState.run library origin forgeRun).db.events) :=
  ⟨by decide +kernel⟩

/-- An importer which holds the patch and its trace accepts the review. -/
theorem run_forgeRecords_codeReview : ∃ (event : OriginEvent) (received : SignedContribution),
    SignedContribution.ofJson library event.canonical = some received ∧
    event.kind = received.kind.asStr ∧ received.kind = .codeReview ∧
    event.lineageId = some (lineageOf [3]) ∧
    validateRemoteReporting library ((NodeState.run library importer
      (importLog forgeRun)).db.origins origin.nodeId) event.sequence received = .ok () ∧
    validateRemoteForgeState library ((NodeState.run library importer
      (importLog forgeRun)).db.origins origin.nodeId) (lineageOf [3]) received = .ok () := by
  obtain ⟨-, ⟨⟨accepted, next⟩, haccepted⟩, hholds⟩ := forgeRun_accepts.out
  have hprefix : ((NodeState.run library importer (importLog forgeRun)).db.origins
        origin.nodeId).remoteEvents.map (remoteOriginEventFromRow library) ++
      ([] : List OriginEvent).map .ok =
      (NodeState.run library origin forgeRun).db.events.map (originEvent library) := by
    rw [List.map_nil, List.append_nil]
    exact hholds
  have hkind : codeReview.kind.isForge = true := rfl
  have himporter := (run_forgeRecords library origin forgeRun).2.2 importer
    (importLog forgeRun) [] _ (lineageOf [3]) codeReview 0 accepted next hprefix
    (projectEvents_nil _) hkind haccepted
  rw [Db.importState_tables] at himporter
  obtain ⟨row, event, received, -, -, hreceived, hevent, hsame, hlineage, hreporting, -,
    hforge⟩ := himporter
  exact ⟨event, received, hreceived, hevent, hsame, hlineage, hreporting, hforge⟩

end Sample

end Commonwake
