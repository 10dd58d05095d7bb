import Commonwake.SampleNode

/-!
# The targets which a payload requires

A contribution of some kinds must name as its targets exactly the identifiers
which its payload routes to.  The payload is bounded by the checks of its kind,
the targets by the check of the envelope, and the two bounds do not always fit.
-/

namespace Commonwake

open Outcome

section

variable (P : Primitives)

/-- The targets which the routing rule of a kind requires. -/
def routedTargets (contribution : SignedContribution) : Result (List String) :=
  let payload := contribution.payload
  match contribution.kind with
  | .topicProposal => do
      let proposal ← decodePayload TopicProposalPayload.ofJson payload
      pure proposal.parentTopicId.toList
  | .topicVote => do
      let vote ← decodePayload TopicVotePayload.ofJson payload
      pure [vote.topicId]
  | .forumPost => do
      let post ← decodePayload ForumPostPayload.ofJson payload
      pure (post.topicId :: (post.mentions ++ post.references))
  | .directMessage => do
      let message ← decodePayload DirectMessagePayload.ofJson payload
      pure [message.recipientLineageId]
  | .repositoryPatch => do
      let patch ← decodePayload RepositoryPatchPayload.ofJson payload
      pure [patch.repositoryId]
  | .codeReview => do
      let review ← decodePayload CodeReviewPayload.ofJson payload
      pure [review.proposalEventId]
  | .buildAttestation => do
      let attestation ← decodePayload BuildAttestationPayload.ofJson payload
      pure [attestation.proposalEventId]
  | .releaseProposal => do
      let release ← decodePayload ReleaseProposalPayload.ofJson payload
      pure (release.repositoryId :: release.includedPatchEventIds)
  | .releaseReview => do
      let review ← decodePayload ReleaseReviewPayload.ofJson payload
      pure [review.releaseProposalEventId]
  | .verificationTrace => do
      let trace ← decodePayload (VerificationTracePayload.ofJson P) payload
      pure (trace.subjectId :: trace.parentTraceEventIds)
  | _ => throw (.internal "targets of this kind are not routed")

/-- The payloads whose targets fit into an envelope. -/
def FitsEnvelope (contribution : SignedContribution) : Prop :=
  match contribution.kind with
  | .forumPost => ∀ post,
      decodePayload ForumPostPayload.ofJson contribution.payload = .ok post →
        post.mentions.length + post.references.length ≤ 31
  | .releaseProposal => ∀ release,
      decodePayload ReleaseProposalPayload.ofJson contribution.payload = .ok release →
        release.includedPatchEventIds.length ≤ 31
  | .verificationTrace => ∀ trace,
      decodePayload (VerificationTracePayload.ofJson P) contribution.payload = .ok trace →
        byteLen trace.subjectId ≤ 160
  | _ => True

end

/-! ## Identifiers -/

theorem stripTag_eq_some {tag text rest : String} (h : stripTag tag text = some rest) :
    text = tag ++ rest := by
  unfold stripTag at h
  rw [Option.ite_none_right_eq_some, Option.some.injEq] at h
  obtain ⟨hstart, rfl⟩ := h
  obtain ⟨tail, htail⟩ := List.isPrefixOf_iff_prefix.mp hstart
  simp only [chars_eq] at htail ⊢
  refine String.toList_inj.mp ?_
  rw [String.toList_append, String.toList_ofList, ← htail, List.drop_left]

theorem byteLen_of_sha256Hex {digest : String} (h : isSha256Hex digest = true) :
    byteLen digest = 64 := by
  simp only [isSha256Hex, Bool.and_eq_true, beq_iff_eq] at h
  exact h.1

/-- An identifier is a tag and a digest. -/
theorem byteLen_of_prefixedIdentifier {value tag label : String}
    (h : validatePrefixedIdentifier value tag label = .ok ()) :
    byteLen value = byteLen tag + 64 := by
  simp only [validatePrefixedIdentifier, bind_eq_ok, okOr_eq_ok, rejectIf_eq_ok,
    Bool.not_eq_false] at h
  obtain ⟨digest, hstrip, hdigest⟩ := h
  rw [stripTag_eq_some hstrip, byteLen_append, byteLen_of_sha256Hex hdigest]

theorem byteLen_of_forumReference {value : String} (h : validateForumReference value = .ok ()) :
    byteLen value ≤ 160 := by
  simp only [validateForumReference, bind_eq_ok, okOr_eq_ok] at h
  obtain ⟨tag, htag, hvalue⟩ := h
  have hmem := List.mem_of_find?_eq_some htag
  have hshort : ∀ tag ∈ ["cwevt_", "cwsrc_", "cwobs_", "cwstory_", "cwwork_", "cwtopic_",
      "cwpost_"], byteLen tag ≤ 8 := by
    decide
  have hlength := byteLen_of_prefixedIdentifier hvalue
  have htagLength := hshort tag hmem
  omega

theorem byteLen_of_repositoryId {value : String} (h : validateRepositoryId value = .ok ()) :
    byteLen value ≤ 160 := by
  simp only [validateRepositoryId, validateSha256, bind_eq_ok, okOr_eq_ok, rejectIf_eq_ok,
    Bool.not_eq_false] at h
  obtain ⟨digest, hstrip, hdigest⟩ := h
  have htag : byteLen "cwrepo_" = 7 := by decide
  rw [stripTag_eq_some hstrip, byteLen_append, byteLen_of_sha256Hex hdigest, htag]
  decide

/-! ## Limits of the envelope -/

theorem validateLists_eq_ok {targets : List String} :
    validateLists targets [] = .ok () ↔
      targets.length ≤ 32 ∧ ∀ value ∈ targets, byteLen value ≤ 160 := by
  simp [validateLists]

/-- A single target which is short. -/
theorem validateLists_singleton {value : String} (h : byteLen value ≤ 160) :
    validateLists [value] [] = .ok () := by
  rw [validateLists_eq_ok]
  refine ⟨by simp, ?_⟩
  intro other hother
  rw [List.mem_singleton.mp hother]
  exact h

section

variable {P : Primitives} {contribution : SignedContribution} {targets : List String}

theorem validateLists_cons {value : String} {rest : List String} (h : byteLen value ≤ 160)
    (hrest : ∀ other ∈ rest, byteLen other ≤ 160) :
    validateLists (value :: rest) [] = .ok () ↔ rest.length ≤ 31 := by
  rw [validateLists_eq_ok, List.length_cons]
  constructor
  · intro hlists
    have hcount := hlists.1
    omega
  · intro hcount
    have hall : ∀ other ∈ value :: rest, byteLen other ≤ 160 := by
      intro other hother
      cases hother with
      | head => exact h
      | tail _ hother => exact hrest other hother
    exact ⟨by omega, hall⟩

theorem validatePayloadContent_of_content
    (h : validateContributionContent P contribution = .ok ()) :
    validatePayloadContent P contribution = .ok () := by
  simp only [validateContributionContent, bind_eq_ok] at h
  obtain ⟨⟨⟩, -, ⟨⟩, -, hpayload⟩ := h
  exact hpayload

/-! ## Bounds of the payload against bounds of the envelope -/

/-- The identifier to which a payload of one target routes is checked to be short. -/
theorem byteLen_of_identifier {value tag label : String}
    (h : validatePrefixedIdentifier value tag label = .ok ()) (htag : byteLen tag ≤ 96) :
    byteLen value ≤ 160 := by
  have hlength := byteLen_of_prefixedIdentifier h
  omega

/-- A proposed topic has at most one parent, which is named by a short identifier. -/
theorem validateLists_parentTopic {proposal : TopicProposalPayload}
    (h : validateTopicProposalContent P proposal = .ok ()) :
    validateLists proposal.parentTopicId.toList [] = .ok () := by
  cases hparent : proposal.parentTopicId with
  | none => rfl
  | some parentTopicId =>
      simp only [validateTopicProposalContent, hparent, bind_eq_ok] at h
      obtain ⟨⟨⟩, hidentifier, -⟩ := h
      exact validateLists_singleton (byteLen_of_identifier hidentifier (by decide))

theorem validateForumPostContent_identifiers {post : ForumPostPayload}
    (h : validateForumPostContent post = .ok ()) :
    byteLen post.topicId ≤ 160 ∧
      ∀ other ∈ post.mentions ++ post.references, byteLen other ≤ 160 := by
  have hall : validatePrefixedIdentifier post.topicId "cwtopic_" "topic" = .ok () ∧
      (∀ lineageId ∈ post.mentions,
        validatePrefixedIdentifier lineageId "cwlin_" "mentioned lineage" = .ok ()) ∧
      ∀ reference ∈ post.references, validateForumReference reference = .ok () := by
    unfold validateForumPostContent at h
    cases hparent : post.parentPostId <;>
      simp only [hparent, bind_eq_ok, forEach_eq_ok] at h
    · obtain ⟨⟨⟩, htopic, ⟨⟩, -, ⟨⟩, -, ⟨⟩, -, ⟨⟩, -, ⟨⟩, hmentions, ⟨⟩, -, ⟨⟩, -,
        hreferences⟩ := h
      exact ⟨htopic, hmentions, hreferences⟩
    · obtain ⟨⟨⟩, htopic, ⟨⟩, -, ⟨⟩, -, ⟨⟩, -, ⟨⟩, -, ⟨⟩, -, ⟨⟩, hmentions, ⟨⟩, -, ⟨⟩, -,
        hreferences⟩ := h
      exact ⟨htopic, hmentions, hreferences⟩
  obtain ⟨htopic, hmentions, hreferences⟩ := hall
  refine ⟨byteLen_of_identifier htopic (by decide), ?_⟩
  intro other hother
  cases List.mem_append.mp hother with
  | inl hmention => exact byteLen_of_identifier (hmentions other hmention) (by decide)
  | inr hreference => exact byteLen_of_forumReference (hreferences other hreference)

theorem validateLists_forumPost {post : ForumPostPayload}
    (h : validateForumPostContent post = .ok ()) :
    validateLists (post.topicId :: (post.mentions ++ post.references)) [] = .ok () ↔
      post.mentions.length + post.references.length ≤ 31 := by
  obtain ⟨htopic, hrest⟩ := validateForumPostContent_identifiers h
  rw [validateLists_cons htopic hrest, List.length_append]

theorem validateLists_releaseProposal {release : ReleaseProposalPayload}
    (h : validateReleaseProposal release = .ok ()) :
    validateLists (release.repositoryId :: release.includedPatchEventIds) [] = .ok () ↔
      release.includedPatchEventIds.length ≤ 31 := by
  simp only [validateReleaseProposal, bind_eq_ok, forEach_eq_ok] at h
  obtain ⟨⟨⟩, hrepository, ⟨⟩, -, ⟨⟩, -, ⟨⟩, -, ⟨⟩, -, ⟨⟩, -, ⟨⟩, -, ⟨⟩, -, ⟨⟩, -, ⟨⟩,
    hpatches, -⟩ := h
  apply validateLists_cons (byteLen_of_repositoryId hrepository)
  intro other hother
  exact byteLen_of_identifier (hpatches other hother) (by decide)

/-- The subject of a trace may be longer than a target; its parents may not. -/
theorem validateLists_verificationTrace {trace : VerificationTracePayload}
    (h : validateVerificationTrace P contribution trace = .ok ()) :
    validateLists (trace.subjectId :: trace.parentTraceEventIds) [] = .ok () ↔
      byteLen trace.subjectId ≤ 160 := by
  simp only [validateVerificationTrace, bind_eq_ok, forEach_eq_ok, rejectIf_eq_ok] at h
  obtain ⟨⟨⟩, -, ⟨⟩, -, ⟨⟩, -, ⟨⟩, -, ⟨⟩, -, ⟨⟩, -, ⟨⟩, -, ⟨⟩, -, ⟨⟩, -, ⟨⟩, -, ⟨⟩, -, ⟨⟩,
    -, ⟨⟩, -, ⟨⟩, -, ⟨⟩, hcount, ⟨⟩, -, ⟨⟩, hparents, -⟩ := h
  have hrest : ∀ other ∈ trace.parentTraceEventIds, byteLen other ≤ 160 := by
    intro other hother
    exact byteLen_of_identifier (hparents other hother) (by decide)
  constructor
  · intro hlists
    exact (validateLists_eq_ok.mp hlists).2 trace.subjectId List.mem_cons_self
  · intro hsubject
    rw [validateLists_cons hsubject hrest]
    omega

/-- The targets which a valid payload requires fit exactly under the condition. -/
theorem routedTargets_fit (htargets : routedTargets P contribution = .ok targets)
    (hcontent : validateContributionContent P contribution = .ok ()) :
    validateLists targets [] = .ok () ↔ FitsEnvelope P contribution := by
  have hpayload := validatePayloadContent_of_content hcontent
  unfold routedTargets at htargets
  unfold FitsEnvelope
  cases hkind : contribution.kind <;>
    simp only [hkind, bind_eq_ok, pure_eq_ok, throw_eq_error, Except.ok.injEq, reduceCtorEq,
      validatePayloadContent] at htargets hpayload ⊢
  all_goals
    obtain ⟨payload, hdecode, rfl⟩ := htargets
    obtain ⟨other, hother, hvalid⟩ := hpayload
    rw [hdecode, Except.ok.injEq] at hother
    subst hother
  all_goals simp only [hdecode, Except.ok.injEq, forall_eq', iff_true]
  case topicProposal =>
    apply validateLists_parentTopic
    exact hvalid
  case forumPost => exact validateLists_forumPost hvalid
  case releaseProposal => exact validateLists_releaseProposal hvalid
  case verificationTrace => exact validateLists_verificationTrace hvalid
  all_goals apply validateLists_singleton
  case topicVote =>
    simp only [validateTopicVoteContent, bind_eq_ok] at hvalid
    obtain ⟨⟨⟩, htopic, -⟩ := hvalid
    exact byteLen_of_identifier htopic (by decide)
  case directMessage =>
    simp only [validateDirectMessageContent, bind_eq_ok] at hvalid
    obtain ⟨⟨⟩, hrecipient, -⟩ := hvalid
    exact byteLen_of_identifier hrecipient (by decide)
  case repositoryPatch =>
    simp only [validateRepositoryPatch, bind_eq_ok] at hvalid
    obtain ⟨⟨⟩, hrepository, -⟩ := hvalid
    exact byteLen_of_repositoryId hrepository
  case codeReview =>
    simp only [validateCodeReview, bind_eq_ok] at hvalid
    obtain ⟨⟨⟩, -, ⟨⟩, hproposal, -⟩ := hvalid
    exact byteLen_of_identifier hproposal (by decide)
  case buildAttestation =>
    simp only [validateBuildAttestation, bind_eq_ok] at hvalid
    obtain ⟨⟨⟩, -, ⟨⟩, hproposal, -⟩ := hvalid
    exact byteLen_of_identifier hproposal (by decide)
  case releaseReview =>
    simp only [validateReleaseReview, bind_eq_ok] at hvalid
    obtain ⟨⟨⟩, -, ⟨⟩, hrelease, -⟩ := hvalid
    exact byteLen_of_identifier hrelease (by decide)

/-! ## Contributions which are routed -/

/-- The routing rule of a commons or forge record, and the check of a trace, both
ask for the routed targets. -/
theorem requireExactTargets_of_routing {lineageId : String}
    (htargets : routedTargets P contribution = .ok targets)
    (hcontent : validateContributionContent P contribution = .ok ())
    (hrouting : validateCommonsRouting lineageId contribution = .ok ()) :
    ∃ label, requireExactTargets contribution.targets targets label = .ok () := by
  have hpayload := validatePayloadContent_of_content hcontent
  unfold routedTargets at htargets
  unfold validateCommonsRouting at hrouting
  cases hkind : contribution.kind <;>
    simp only [hkind, bind_eq_ok, pure_eq_ok, throw_eq_error, Except.ok.injEq, reduceCtorEq,
      validatePayloadContent] at htargets hrouting hpayload
  case verificationTrace =>
    obtain ⟨trace, hdecode, rfl⟩ := htargets
    obtain ⟨other, hother, hvalid⟩ := hpayload
    rw [hdecode, Except.ok.injEq] at hother
    subst hother
    simp only [validateVerificationTrace, bind_eq_ok] at hvalid
    obtain ⟨⟨⟩, -, ⟨⟩, -, ⟨⟩, -, ⟨⟩, -, ⟨⟩, -, ⟨⟩, -, ⟨⟩, -, ⟨⟩, -, ⟨⟩, -, ⟨⟩, -, ⟨⟩, -, ⟨⟩,
      -, ⟨⟩, -, ⟨⟩, -, ⟨⟩, -, ⟨⟩, -, ⟨⟩, -, ⟨⟩, -, hexact⟩ := hvalid
    exact ⟨_, hexact⟩
  all_goals
    obtain ⟨payload, hdecode, rfl⟩ := htargets
    obtain ⟨other, hother, hrouting⟩ := hrouting
    rw [hdecode, Except.ok.injEq] at hother
    subst hother
  case topicVote => exact ⟨_, hrouting⟩
  all_goals
    simp only [requireImmutableRouting, bind_eq_ok] at hrouting
    obtain ⟨⟨⟩, hexact, -⟩ := hrouting
    exact ⟨_, hexact⟩

theorem allDistinct_iff_nodup {values : List String} :
    allDistinct values = true ↔ values.Nodup := by
  simp only [allDistinct, beq_iff_eq]
  constructor
  · intro hlength
    have hsame := values.dedup_sublist.eq_of_length hlength
    rw [← hsame]
    exact values.nodup_dedup
  · intro hnodup
    rw [hnodup.dedup]

/-- Targets which match the routed ones exactly are the same in another order. -/
theorem requireExactTargets_perm {actual expected : List String} {label : String}
    (h : requireExactTargets actual expected label = .ok ()) : actual.Perm expected := by
  simp only [requireExactTargets, rejectIf_eq_ok, not_or, Bool.not_eq_false,
    allDistinct_iff_nodup, Bool.and_eq_true, List.all_eq_true, List.contains_iff_mem] at h
  obtain ⟨hactual, hexpected, hforth, hback⟩ := h
  rw [List.perm_ext_iff_of_nodup hactual hexpected]
  intro target
  exact ⟨hforth target, hback target⟩

theorem validateLists_perm {first second : List String} (h : first.Perm second) :
    validateLists first [] = .ok () ↔ validateLists second [] = .ok () := by
  rw [validateLists_eq_ok, validateLists_eq_ok, h.length_eq]
  simp only [h.mem_iff]

/-- A contribution whose targets are routed as its payload asks can be submitted
exactly if its payload fits. -/
theorem validateLists_of_routing {lineageId : String}
    (htargets : routedTargets P contribution = .ok targets)
    (hcontent : validateContributionContent P contribution = .ok ())
    (hrouting : validateCommonsRouting lineageId contribution = .ok ()) :
    validateLists contribution.targets [] = .ok () ↔ FitsEnvelope P contribution := by
  obtain ⟨label, hexact⟩ := requireExactTargets_of_routing htargets hcontent hrouting
  rw [validateLists_perm (requireExactTargets_perm hexact)]
  exact routedTargets_fit htargets hcontent

end

namespace Sample

/-- The identifier with the given tag whose digest begins with `count` letters a. -/
def identifier (tag : String) (count : ℕ) : String :=
  tag ++ String.ofList (List.replicate count 'a' ++ List.replicate (64 - count) 'b')

/-- The targets of a post which mentions and references as many objects as given. -/
def postTargets (mentions references : ℕ) : List String :=
  identifier "cwtopic_" 0 ::
    ((List.range mentions).map (identifier "cwlin_") ++
      (List.range references).map (identifier "cwevt_"))

def mentioningPost (mentions references : ℕ) : SignedContribution :=
  contribution [12] firstDelegation .forumPost "fedcba9876543210"
    (postTargets mentions references) .default 0
    (.object [("topic_id", .string (identifier "cwtopic_" 0)),
      ("body", .string "To everybody."), ("language", .string "en"),
      ("mentions", Serde.strings ((List.range mentions).map (identifier "cwlin_"))),
      ("references", Serde.strings ((List.range references).map (identifier "cwevt_")))])

/-- A post within the limits of its kind, with its required targets. -/
def ValidPost (mentions references : ℕ) : Prop :=
  routedTargets library (mentioningPost mentions references) =
    .ok (postTargets mentions references) ∧
  validateContributionContent library (mentioningPost mentions references) = .ok () ∧
  allDistinct (postTargets mentions references) = true

instance (mentions references : ℕ) : Decidable (ValidPost mentions references) :=
  inferInstanceAs (Decidable (_ ∧ _ ∧ _))

instance mentioningPost_valid : Fact (ValidPost 1 1 ∧ ValidPost 16 16) :=
  ⟨by decide +kernel⟩

theorem routedTargets_fit_small :
    validateLists (postTargets 1 1) [] = .ok () ↔ FitsEnvelope library (mentioningPost 1 1) :=
  routedTargets_fit mentioningPost_valid.out.1.1 mentioningPost_valid.out.1.2.1

/-- A post may mention 16 lineages and reference 16 objects, and then has 33 targets. -/
theorem mentioningPost_impossible :
    routedTargets library (mentioningPost 16 16) = .ok (postTargets 16 16) ∧
    validateContributionContent library (mentioningPost 16 16) = .ok () ∧
    allDistinct (postTargets 16 16) = true ∧
    validateLists (postTargets 16 16) [] ≠ .ok () := by
  obtain ⟨hrouted, hcontent, hdistinct⟩ := mentioningPost_valid.out.2
  refine ⟨hrouted, hcontent, hdistinct, ?_⟩
  rw [ne_eq, validateLists_eq_ok]
  rintro ⟨hcount, -⟩
  revert hcount
  simp [postTargets]

end Sample

end Commonwake
