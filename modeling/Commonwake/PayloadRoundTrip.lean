import Commonwake.Content
import Commonwake.ModelRoundTrip

/-!
# Reading a payload again

A node reads the payload of a contribution as it was sent, an importer reads
it from the canonical text of the log.  The canonical text writes some
numbers differently, but none which the fields of these payloads can hold, so
both read the same.
-/

namespace Commonwake

open Serde Outcome

variable (P : Primitives)

theorem stable_dateTimeOfJson : Stable P.canonNumber (dateTimeOfJson P) := by
  intro value x h
  cases value with
  | string s => exact h
  | _ => cases h

theorem stable_u32 : Stable P.canonNumber u32 := by
  refine stable_bounded fun n hlow hhigh => P.canonNumber_int n ?_
  rw [abs_of_nonneg hlow]
  omega

theorem EvidenceRef.stable : Stable P.canonNumber (EvidenceRef.ofJson P) := by
  intro value x h
  simp only [EvidenceRef.ofJson, Option.bind_eq_bind, Option.bind_eq_some_iff,
    Option.pure_def, Option.some.injEq] at h ⊢
  obtain ⟨m, hm, url, hurl, title, htitle, observedAt, hobservedAt, digest, hdigest,
    rfl⟩ := h
  exact ⟨_, fields_mapNumbers hm, url, stable_string.required hurl, title,
    stable_string.optional htitle, observedAt,
    (stable_dateTimeOfJson P).optional hobservedAt, digest,
    stable_string.optional hdigest, rfl⟩

theorem SourceProposalPayload.stable :
    Stable P.canonNumber SourceProposalPayload.ofJson := by
  intro value x h
  simp only [SourceProposalPayload.ofJson, Option.bind_eq_bind, Option.bind_eq_some_iff,
    Option.pure_def, Option.some.injEq] at h ⊢
  obtain ⟨m, hm, name, hname, feedUrl, hfeedUrl, homepageUrl, hhomepageUrl, medium, hmedium,
    regions, hregions, languages, hlanguages, ownership, hownership, notes, hnotes, interval,
    hinterval, rationale, hrationale, rfl⟩ := h
  exact ⟨_, fields_mapNumbers hm, name, stable_string.required hname, feedUrl,
    stable_string.required hfeedUrl, homepageUrl, stable_string.optional hhomepageUrl,
    medium, stable_string.required hmedium, regions, stable_string.list.defaulted hregions,
    languages, stable_string.list.defaulted hlanguages, ownership,
    stable_string.optional hownership, notes, stable_string.optional hnotes, interval,
    (stable_u32 P).defaulted hinterval, rationale, stable_string.required hrationale, rfl⟩

theorem SourceReviewPayload.stable :
    Stable P.canonNumber (SourceReviewPayload.ofJson P) := by
  intro value x h
  simp only [SourceReviewPayload.ofJson, Option.bind_eq_bind, Option.bind_eq_some_iff,
    Option.pure_def, Option.some.injEq] at h ⊢
  obtain ⟨m, hm, sourceId, hsourceId, recommendation, hrecommendation, evidence, hevidence,
    notes, hnotes, rfl⟩ := h
  exact ⟨_, fields_mapNumbers hm, sourceId, stable_string.required hsourceId,
    recommendation, (stable_enumeration _).required hrecommendation, evidence,
    (EvidenceRef.stable P).list.defaulted hevidence, notes, stable_string.required hnotes,
    rfl⟩

theorem ObservationVerificationPayload.stable :
    Stable P.canonNumber (ObservationVerificationPayload.ofJson P) := by
  intro value x h
  simp only [ObservationVerificationPayload.ofJson, Option.bind_eq_bind,
    Option.bind_eq_some_iff, Option.pure_def, Option.some.injEq] at h ⊢
  obtain ⟨m, hm, observationId, hobservationId, outcome, houtcome, notes, hnotes, evidence,
    hevidence, rfl⟩ := h
  exact ⟨_, fields_mapNumbers hm, observationId, stable_string.required hobservationId,
    outcome, (stable_enumeration _).required houtcome, notes, stable_string.required hnotes,
    evidence, (EvidenceRef.stable P).list.defaulted hevidence, rfl⟩

theorem StoryLinkPayload.stable : Stable P.canonNumber (StoryLinkPayload.ofJson P) := by
  intro value x h
  simp only [StoryLinkPayload.ofJson, Option.bind_eq_bind, Option.bind_eq_some_iff,
    Option.pure_def, Option.some.injEq] at h ⊢
  obtain ⟨m, hm, storyId, hstoryId, observationIds, hobservationIds, rationale, hrationale,
    evidence, hevidence, rfl⟩ := h
  exact ⟨_, fields_mapNumbers hm, storyId, stable_string.required hstoryId,
    observationIds, stable_string.list.required hobservationIds, rationale,
    stable_string.required hrationale, evidence,
    (EvidenceRef.stable P).list.defaulted hevidence, rfl⟩

theorem Claim.stable : Stable P.canonNumber (Claim.ofJson P) := by
  intro value x h
  simp only [Claim.ofJson, Option.bind_eq_bind, Option.bind_eq_some_iff, Option.pure_def,
    Option.some.injEq] at h ⊢
  obtain ⟨m, hm, text, htext, status, hstatus, evidence, hevidence, rfl⟩ := h
  exact ⟨_, fields_mapNumbers hm, text, stable_string.required htext, status,
    (stable_enumeration _).required hstatus, evidence,
    (EvidenceRef.stable P).list.defaulted hevidence, rfl⟩

theorem AssessmentPayload.stable : Stable P.canonNumber (AssessmentPayload.ofJson P) := by
  intro value x h
  simp only [AssessmentPayload.ofJson, Option.bind_eq_bind, Option.bind_eq_some_iff,
    Option.pure_def, Option.some.injEq] at h ⊢
  obtain ⟨m, hm, storyId, hstoryId, summary, hsummary, significance, hsignificance,
    confidence, hconfidence, perspective, hperspective, claims, hclaims, evidence, hevidence,
    rfl⟩ := h
  exact ⟨_, fields_mapNumbers hm, storyId, stable_string.required hstoryId, summary,
    stable_string.required hsummary, significance, stable_string.required hsignificance,
    confidence, stable_string.required hconfidence, perspective,
    stable_string.required hperspective, claims, (Claim.stable P).list.defaulted hclaims,
    evidence, (EvidenceRef.stable P).list.defaulted hevidence, rfl⟩

/-! ## Topic commons -/

theorem TopicProposalPayload.stable :
    Stable P.canonNumber TopicProposalPayload.ofJson := by
  intro value x h
  simp only [TopicProposalPayload.ofJson, Option.bind_eq_bind, Option.bind_eq_some_iff,
    Option.pure_def, Option.some.injEq] at h ⊢
  obtain ⟨m, hm, parent, hparent, slug, hslug, title, htitle, summary, hsummary, charter,
    hcharter, tags, htags, languages, hlanguages, archive, harchive, rfl⟩ := h
  exact ⟨_, fields_mapNumbers hm, parent, stable_string.optional hparent, slug,
    stable_string.required hslug, title, stable_string.required htitle, summary,
    stable_string.required hsummary, charter, stable_string.required hcharter, tags,
    stable_string.list.defaulted htags, languages, stable_string.list.defaulted hlanguages,
    archive, (stable_u32 P).defaulted harchive, rfl⟩

theorem TopicVotePayload.stable : Stable P.canonNumber TopicVotePayload.ofJson := by
  intro value x h
  simp only [TopicVotePayload.ofJson, Option.bind_eq_bind, Option.bind_eq_some_iff,
    Option.pure_def, Option.some.injEq] at h ⊢
  obtain ⟨m, hm, topicId, htopicId, choice, hchoice, rationale, hrationale, rfl⟩ := h
  exact ⟨_, fields_mapNumbers hm, topicId, stable_string.required htopicId, choice,
    (stable_enumeration _).required hchoice, rationale,
    stable_string.required hrationale, rfl⟩

theorem ForumPostPayload.stable : Stable P.canonNumber ForumPostPayload.ofJson := by
  intro value x h
  simp only [ForumPostPayload.ofJson, Option.bind_eq_bind, Option.bind_eq_some_iff,
    Option.pure_def, Option.some.injEq] at h ⊢
  obtain ⟨m, hm, topicId, htopicId, parent, hparent, subject, hsubject, body, hbody,
    language, hlanguage, mentions, hmentions, references, hreferences, rfl⟩ := h
  exact ⟨_, fields_mapNumbers hm, topicId, stable_string.required htopicId, parent,
    stable_string.optional hparent, subject, stable_string.optional hsubject, body,
    stable_string.required hbody, language, stable_string.required hlanguage, mentions,
    stable_string.list.defaulted hmentions, references,
    stable_string.list.defaulted hreferences, rfl⟩

theorem OpenPgpKeyPayload.stable : Stable P.canonNumber OpenPgpKeyPayload.ofJson := by
  intro value x h
  simp only [OpenPgpKeyPayload.ofJson, Option.bind_eq_bind, Option.bind_eq_some_iff,
    Option.pure_def, Option.some.injEq] at h ⊢
  obtain ⟨m, hm, action, haction, fingerprint, hfingerprint, key, hkey, note, hnote, rfl⟩ := h
  exact ⟨_, fields_mapNumbers hm, action, (stable_enumeration _).required haction,
    fingerprint, stable_string.required hfingerprint, key, stable_string.optional hkey, note,
    stable_string.defaulted hnote, rfl⟩

theorem DirectMessagePayload.stable : Stable P.canonNumber DirectMessagePayload.ofJson := by
  intro value x h
  simp only [DirectMessagePayload.ofJson, Option.bind_eq_bind, Option.bind_eq_some_iff,
    Option.pure_def, Option.some.injEq] at h ⊢
  obtain ⟨m, hm, recipient, hrecipient, fingerprint, hfingerprint, format, hformat,
    ciphertext, hciphertext, rfl⟩ := h
  exact ⟨_, fields_mapNumbers hm, recipient, stable_string.required hrecipient,
    fingerprint, stable_string.required hfingerprint, format,
    stable_string.required hformat, ciphertext, stable_string.required hciphertext, rfl⟩

/-! ## Verification traces -/

/-- A trace holds arbitrary values and sizes; the checks which are made of it
do not depend on how these are written. -/
structure VerificationCheck.Same (first second : VerificationCheck) : Prop where
  name : second.name = first.name
  outcome : second.outcome = first.outcome
  observed : second.observed = .null ↔ first.observed = .null
  evidence : second.evidence = first.evidence

structure VerificationArtifact.Same (first second : VerificationArtifact) : Prop where
  name : second.name = first.name
  sha256 : second.sha256 = first.sha256
  mediaType : second.mediaType = first.mediaType

/-- The trace as an importer reads it. -/
def VerificationTracePayload.Same (first second : VerificationTracePayload) : Prop :=
  ∃ checks artifacts, second = { first with checks := checks, artifacts := artifacts } ∧
    List.Forall₂ VerificationCheck.Same first.checks checks ∧
    List.Forall₂ VerificationArtifact.Same first.artifacts artifacts

theorem TraceOutcome.stable : Stable P.canonNumber TraceOutcome.ofJson :=
  stable_enumeration _

theorem VerificationTool.stable : Stable P.canonNumber VerificationTool.ofJson := by
  intro value x h
  simp only [VerificationTool.ofJson, Option.bind_eq_bind, Option.bind_eq_some_iff,
    Option.pure_def, Option.some.injEq] at h ⊢
  obtain ⟨m, hm, name, hname, version, hversion, invocation, hinvocation, rfl⟩ := h
  exact ⟨_, fields_mapNumbers hm, name, stable_string.required hname, version,
    stable_string.optional hversion, invocation, stable_string.optional hinvocation, rfl⟩

theorem VerificationArtifact.agrees :
    Agrees P.canonNumber VerificationArtifact.Same VerificationArtifact.ofJson := by
  intro value x y hx hy
  simp only [VerificationArtifact.ofJson, Option.bind_eq_bind, Option.bind_eq_some_iff,
    Option.pure_def, Option.some.injEq] at hx hy
  obtain ⟨m, hm, name, hname, sha256, hsha256, _, -, mediaType, hmediaType, rfl⟩ := hx
  obtain ⟨m', hm', name', hname', sha256', hsha256', _, -, mediaType', hmediaType', rfl⟩ := hy
  rw [fields_mapNumbers hm, Option.some.injEq] at hm'
  subst hm'
  rw [stable_string.required hname, Option.some.injEq] at hname'
  rw [stable_string.required hsha256, Option.some.injEq] at hsha256'
  rw [stable_string.optional hmediaType, Option.some.injEq] at hmediaType'
  exact ⟨hname'.symm, hsha256'.symm, hmediaType'.symm⟩

theorem agrees_value : Agrees P.canonNumber (fun x y => y = .null ↔ x = .null) value := by
  intro v x y hx hy
  cases hx
  cases hy
  cases v <;> simp

theorem VerificationCheck.agrees :
    Agrees P.canonNumber VerificationCheck.Same (VerificationCheck.ofJson P) := by
  intro value x y hx hy
  simp only [VerificationCheck.ofJson, Option.bind_eq_bind, Option.bind_eq_some_iff,
    Option.pure_def, Option.some.injEq] at hx hy
  obtain ⟨m, hm, name, hname, outcome, houtcome, _, -, observed, hobserved, evidence,
    hevidence, rfl⟩ := hx
  obtain ⟨m', hm', name', hname', outcome', houtcome', _, -, observed', hobserved',
    evidence', hevidence', rfl⟩ := hy
  rw [fields_mapNumbers hm, Option.some.injEq] at hm'
  subst hm'
  rw [stable_string.required hname, Option.some.injEq] at hname'
  rw [(TraceOutcome.stable P).required houtcome, Option.some.injEq] at houtcome'
  rw [(EvidenceRef.stable P).list.defaulted hevidence, Option.some.injEq] at hevidence'
  exact ⟨hname'.symm, houtcome'.symm, (agrees_value P).required hobserved hobserved',
    hevidence'.symm⟩

theorem VerificationTracePayload.agrees :
    Agrees P.canonNumber VerificationTracePayload.Same
      (VerificationTracePayload.ofJson P) := by
  intro value x y hx hy
  unfold VerificationTracePayload.ofJson at hx hy
  obtain ⟨m, hm, hx⟩ := Option.bind_eq_some_iff.mp hx
  obtain ⟨subjectId, hsubjectId, hx⟩ := Option.bind_eq_some_iff.mp hx
  obtain ⟨assertion, hassertion, hx⟩ := Option.bind_eq_some_iff.mp hx
  obtain ⟨method, hmethod, hx⟩ := Option.bind_eq_some_iff.mp hx
  obtain ⟨outcome, houtcome, hx⟩ := Option.bind_eq_some_iff.mp hx
  obtain ⟨startedAt, hstartedAt, hx⟩ := Option.bind_eq_some_iff.mp hx
  obtain ⟨completedAt, hcompletedAt, hx⟩ := Option.bind_eq_some_iff.mp hx
  obtain ⟨tools, htools, hx⟩ := Option.bind_eq_some_iff.mp hx
  obtain ⟨checks, hchecks, hx⟩ := Option.bind_eq_some_iff.mp hx
  obtain ⟨evidence, hevidence, hx⟩ := Option.bind_eq_some_iff.mp hx
  obtain ⟨artifacts, hartifacts, hx⟩ := Option.bind_eq_some_iff.mp hx
  obtain ⟨outputDigest, houtputDigest, hx⟩ := Option.bind_eq_some_iff.mp hx
  obtain ⟨parents, hparents, hx⟩ := Option.bind_eq_some_iff.mp hx
  obtain ⟨limitations, hlimitations, hx⟩ := Option.bind_eq_some_iff.mp hx
  cases hx
  obtain ⟨m', hm', hy⟩ := Option.bind_eq_some_iff.mp hy
  obtain ⟨subjectId', hsubjectId', hy⟩ := Option.bind_eq_some_iff.mp hy
  obtain ⟨assertion', hassertion', hy⟩ := Option.bind_eq_some_iff.mp hy
  obtain ⟨method', hmethod', hy⟩ := Option.bind_eq_some_iff.mp hy
  obtain ⟨outcome', houtcome', hy⟩ := Option.bind_eq_some_iff.mp hy
  obtain ⟨startedAt', hstartedAt', hy⟩ := Option.bind_eq_some_iff.mp hy
  obtain ⟨completedAt', hcompletedAt', hy⟩ := Option.bind_eq_some_iff.mp hy
  obtain ⟨tools', htools', hy⟩ := Option.bind_eq_some_iff.mp hy
  obtain ⟨checks', hchecks', hy⟩ := Option.bind_eq_some_iff.mp hy
  obtain ⟨evidence', hevidence', hy⟩ := Option.bind_eq_some_iff.mp hy
  obtain ⟨artifacts', hartifacts', hy⟩ := Option.bind_eq_some_iff.mp hy
  obtain ⟨outputDigest', houtputDigest', hy⟩ := Option.bind_eq_some_iff.mp hy
  obtain ⟨parents', hparents', hy⟩ := Option.bind_eq_some_iff.mp hy
  obtain ⟨limitations', hlimitations', hy⟩ := Option.bind_eq_some_iff.mp hy
  cases hy
  rw [fields_mapNumbers hm, Option.some.injEq] at hm'
  subst hm'
  rw [stable_string.required hsubjectId, Option.some.injEq] at hsubjectId'
  rw [stable_string.required hassertion, Option.some.injEq] at hassertion'
  rw [stable_string.required hmethod, Option.some.injEq] at hmethod'
  rw [(TraceOutcome.stable P).required houtcome, Option.some.injEq] at houtcome'
  rw [(stable_dateTimeOfJson P).required hstartedAt, Option.some.injEq] at hstartedAt'
  rw [(stable_dateTimeOfJson P).required hcompletedAt, Option.some.injEq] at hcompletedAt'
  rw [(VerificationTool.stable P).list.defaulted htools, Option.some.injEq] at htools'
  rw [(EvidenceRef.stable P).list.defaulted hevidence, Option.some.injEq] at hevidence'
  rw [stable_string.optional houtputDigest, Option.some.injEq] at houtputDigest'
  rw [stable_string.list.defaulted hparents, Option.some.injEq] at hparents'
  rw [stable_string.list.defaulted hlimitations, Option.some.injEq] at hlimitations'
  subst hsubjectId' hassertion' hmethod' houtcome' hstartedAt' hcompletedAt' htools'
    hevidence' houtputDigest' hparents' hlimitations'
  exact ⟨checks', artifacts', rfl, (VerificationCheck.agrees P).list.required hchecks hchecks',
    (VerificationArtifact.agrees P).list.defaulted .nil hartifacts hartifacts'⟩

/-! ## Forge records -/

theorem CodeReviewPayload.stable : Stable P.canonNumber CodeReviewPayload.ofJson := by
  intro value x h
  simp only [CodeReviewPayload.ofJson, Option.bind_eq_bind, Option.bind_eq_some_iff,
    Option.pure_def, Option.some.injEq] at h ⊢
  obtain ⟨m, hm, repositoryId, hrepositoryId, proposal, hproposal, revision, hrevision, digest,
    hdigest, recommendation, hrecommendation, summary, hsummary, findings, hfindings, rfl⟩ := h
  exact ⟨_, fields_mapNumbers hm, repositoryId, stable_string.required hrepositoryId,
    proposal, stable_string.required hproposal, revision, stable_string.required hrevision,
    digest, stable_string.required hdigest, recommendation,
    (stable_enumeration _).required hrecommendation, summary,
    stable_string.required hsummary, findings, stable_string.list.defaulted hfindings, rfl⟩

theorem BuildAttestationPayload.stable :
    Stable P.canonNumber BuildAttestationPayload.ofJson := by
  intro value x h
  simp only [BuildAttestationPayload.ofJson, Option.bind_eq_bind, Option.bind_eq_some_iff,
    Option.pure_def, Option.some.injEq] at h ⊢
  obtain ⟨m, hm, repositoryId, hrepositoryId, proposal, hproposal, revision, hrevision, digest,
    hdigest, outcome, houtcome, environment, henvironment, summary, hsummary, commands,
    hcommands, limitations, hlimitations, rfl⟩ := h
  exact ⟨_, fields_mapNumbers hm, repositoryId, stable_string.required hrepositoryId,
    proposal, stable_string.required hproposal, revision, stable_string.required hrevision,
    digest, stable_string.required hdigest, outcome, (TraceOutcome.stable P).required houtcome,
    environment, stable_string.required henvironment, summary,
    stable_string.required hsummary, commands, stable_string.list.defaulted hcommands,
    limitations, stable_string.list.defaulted hlimitations, rfl⟩

theorem ReleaseReviewPayload.stable : Stable P.canonNumber ReleaseReviewPayload.ofJson := by
  intro value x h
  simp only [ReleaseReviewPayload.ofJson, Option.bind_eq_bind, Option.bind_eq_some_iff,
    Option.pure_def, Option.some.injEq] at h ⊢
  obtain ⟨m, hm, repositoryId, hrepositoryId, proposal, hproposal, revision, hrevision, digest,
    hdigest, recommendation, hrecommendation, summary, hsummary, rollback, hrollback,
    rfl⟩ := h
  exact ⟨_, fields_mapNumbers hm, repositoryId, stable_string.required hrepositoryId,
    proposal, stable_string.required hproposal, revision, stable_string.required hrevision,
    digest, stable_string.required hdigest, recommendation,
    (stable_enumeration _).required hrecommendation, summary,
    stable_string.required hsummary, rollback, stable_string.required hrollback, rfl⟩

theorem bounded_eq_some {low high n : ℤ} {value : Json} :
    bounded low high value = some n ↔ value = int n ∧ low ≤ n ∧ n < high := by
  unfold bounded
  split
  · rename_i m
    rw [Option.ite_none_right_eq_some, Option.some.injEq]
    constructor
    · rintro ⟨hrange, rfl⟩
      exact ⟨rfl, hrange⟩
    · rintro ⟨hvalue, hrange⟩
      cases hvalue
      exact ⟨hrange, rfl⟩
  · rename_i hother
    constructor
    · intro hnone
      cases hnone
    · rintro ⟨rfl, -⟩
      exact absurd rfl (hother n)

theorem required_imp {α : Type} {decode other : Json → Option α}
    {members : List (String × Json)} {key : String} {x : α}
    (h : ∀ value, decode value = some x → other value = some x)
    (hx : required decode members key = some x) : required other members key = some x := by
  unfold Serde.required at hx ⊢
  cases hlookup : members.lookup key with
  | none =>
      rw [hlookup] at hx
      cases hx
  | some value =>
      rw [hlookup] at hx
      exact h value hx

/-- The decoder of an artifact whose size a forge record may state. -/
def boundedArtifact (value : Json) : Option ForgeArtifactRef := do
  let m ← fields ["sha256", "size_bytes", "media_type"] value
  pure {
    sha256 := ← required string m "sha256"
    sizeBytes := ← required (bounded 0 (maxForgeArtifactBytes + 1)) m "size_bytes"
    mediaType := ← required string m "media_type" }

theorem boundedArtifact_stable : Stable P.canonNumber boundedArtifact := by
  intro value x h
  have hsize : Stable P.canonNumber (bounded 0 (maxForgeArtifactBytes + 1)) := by
    refine stable_bounded fun n hlow hhigh => P.canonNumber_int n ?_
    unfold maxForgeArtifactBytes at hhigh
    rw [abs_of_nonneg hlow]
    omega
  simp only [boundedArtifact, Option.bind_eq_bind, Option.bind_eq_some_iff, Option.pure_def,
    Option.some.injEq] at h ⊢
  obtain ⟨m, hm, sha256, hsha256, size, hread, mediaType, hmediaType, rfl⟩ := h
  exact ⟨_, fields_mapNumbers hm, sha256, stable_string.required hsha256, size,
    hsize.required hread, mediaType, stable_string.required hmediaType, rfl⟩

theorem boundedArtifact_eq_some {value : Json} {x : ForgeArtifactRef} :
    boundedArtifact value = some x ↔
      ForgeArtifactRef.ofJson value = some x ∧ x.sizeBytes ≤ maxForgeArtifactBytes := by
  simp only [boundedArtifact, ForgeArtifactRef.ofJson, Option.bind_eq_bind,
    Option.bind_eq_some_iff, Option.pure_def, Option.some.injEq]
  constructor
  · rintro ⟨m, hm, sha256, hsha256, size, hread, mediaType, hmediaType, rfl⟩
    obtain ⟨_, hnumber⟩ := required_eq_some hread
    obtain ⟨-, -, hsize⟩ := bounded_eq_some.mp hnumber
    refine ⟨⟨m, hm, sha256, hsha256, size, required_imp ?_ hread, mediaType, hmediaType, rfl⟩,
      Int.le_of_lt_add_one hsize⟩
    intro number hread
    obtain ⟨hvalue, hlow, hhigh⟩ := bounded_eq_some.mp hread
    unfold maxForgeArtifactBytes at hhigh
    exact bounded_eq_some.mpr ⟨hvalue, hlow, by omega⟩
  · rintro ⟨⟨m, hm, sha256, hsha256, size, hread, mediaType, hmediaType, rfl⟩, hsize⟩
    refine ⟨m, hm, sha256, hsha256, size, required_imp ?_ hread, mediaType, hmediaType, rfl⟩
    intro number hnumber
    obtain ⟨hvalue, hlow, -⟩ := bounded_eq_some.mp hnumber
    exact bounded_eq_some.mpr ⟨hvalue, hlow, Int.lt_add_one_of_le hsize⟩

theorem RepositoryPatchPayload.ofJson_canon {value : Json} {x : RepositoryPatchPayload}
    (h : RepositoryPatchPayload.ofJson value = some x)
    (hsize : x.artifact.sizeBytes ≤ maxForgeArtifactBytes) :
    RepositoryPatchPayload.ofJson (P.canon value) = some x := by
  simp only [RepositoryPatchPayload.ofJson, Option.bind_eq_bind, Option.bind_eq_some_iff,
    Option.pure_def, Option.some.injEq] at h ⊢
  obtain ⟨m, hm, repositoryId, hrepositoryId, base, hbase, proposed, hproposed, artifact,
    hartifact, title, htitle, summary, hsummary, paths, hpaths, compatibility, hcompatibility,
    risk, hrisk, plan, hplan, rfl⟩ := h
  have hbounded : required boundedArtifact m "artifact" = some artifact :=
    required_imp (fun _ hread => boundedArtifact_eq_some.mpr ⟨hread, hsize⟩) hartifact
  have hread := (boundedArtifact_stable P).required hbounded
  exact ⟨_, fields_mapNumbers hm, repositoryId, stable_string.required hrepositoryId, base,
    stable_string.required hbase, proposed, stable_string.required hproposed, artifact,
    required_imp (fun _ hsmall => (boundedArtifact_eq_some.mp hsmall).1) hread, title,
    stable_string.required htitle, summary, stable_string.required hsummary, paths,
    stable_string.list.defaulted hpaths, compatibility,
    stable_string.required hcompatibility, risk, stable_string.required hrisk, plan,
    stable_string.required hplan, rfl⟩

theorem ReleaseProposalPayload.ofJson_canon {value : Json} {x : ReleaseProposalPayload}
    (h : ReleaseProposalPayload.ofJson value = some x)
    (hsize : x.sourceArtifact.sizeBytes ≤ maxForgeArtifactBytes) :
    ReleaseProposalPayload.ofJson (P.canon value) = some x := by
  simp only [ReleaseProposalPayload.ofJson, Option.bind_eq_bind, Option.bind_eq_some_iff,
    Option.pure_def, Option.some.injEq] at h ⊢
  obtain ⟨m, hm, repositoryId, hrepositoryId, candidate, hcandidate, artifact, hartifact,
    channel, hchannel, version, hversion, patches, hpatches, rollback, hrollback, delay, hdelay,
    summary, hsummary, notes, hnotes, rfl⟩ := h
  have hbounded : required boundedArtifact m "source_artifact" = some artifact :=
    required_imp (fun _ hread => boundedArtifact_eq_some.mpr ⟨hread, hsize⟩) hartifact
  have hread := (boundedArtifact_stable P).required hbounded
  exact ⟨_, fields_mapNumbers hm, repositoryId, stable_string.required hrepositoryId,
    candidate, stable_string.required hcandidate, artifact,
    required_imp (fun _ hsmall => (boundedArtifact_eq_some.mp hsmall).1) hread, channel,
    stable_string.required hchannel, version, stable_string.required hversion, patches,
    stable_string.list.defaulted hpatches, rollback, stable_string.required hrollback, delay,
    (stable_u32 P).required hdelay, summary, stable_string.required hsummary, notes,
    stable_string.required hnotes, rfl⟩

variable {P}

/-- An importer decodes what the node has decoded. -/
theorem decodePayload_canon {α : Type} {decode : Json → Option α} {payload : Json} {x : α}
    (hstable : Stable P.canonNumber decode) (h : decodePayload decode payload = .ok x) :
    decodePayload decode (P.canon payload) = .ok x := by
  unfold decodePayload at h ⊢
  rw [okOr_eq_ok] at h ⊢
  exact hstable payload x h

end Commonwake
