import Commonwake.CommonsAdmission
import Commonwake.Counting
import Mathlib.Data.String.Basic

/-!
# What a tally counts

The tally of a topic is computed from the vote rows of all origins.  The
reference counts the voters of the logs: the choices of a voter are those of
its last votes, one for every origin.
-/

namespace Commonwake

open Outcome Table LastWriter Counting

/-- The choice of the record, when it is a vote of the voter on the topic. -/
def CommonsRecord.choiceOn (record : CommonsRecord) (topicId voter : String) :
    Option TopicVoteChoice := do
  let vote ← if record.contribution.kind = .topicVote then
      TopicVotePayload.ofJson record.contribution.payload
    else none
  if vote.topicId = topicId ∧ record.lineageId = voter then some vote.choice else none

/-- The choice of the last vote in a log. -/
def lastChoice (log : List CommonsRecord) (topicId voter : String) : Option TopicVoteChoice :=
  (log.filterMap fun record => record.choiceOn topicId voter).getLast?

def VoterChoices (logs : String → List CommonsRecord) (topicId voter : String) :
    Set TopicVoteChoice :=
  { choice | ∃ origin, lastChoice (logs origin) topicId voter = some choice }

/-- Every voter but the proposer counts once when all its choices agree, and is
conflicted otherwise. -/
structure ReferenceTally (logs : String → List CommonsRecord) (topicId proposer : String)
    (tally : TopicVoteTally) : Prop where
  approvals : tally.approvals = { voter | voter ≠ proposer ∧
    VoterChoices logs topicId voter = {TopicVoteChoice.approve} }.ncard
  rejections : tally.rejections = { voter | voter ≠ proposer ∧
    VoterChoices logs topicId voter = {TopicVoteChoice.reject} }.ncard
  needsRevision : tally.needsRevision = { voter | voter ≠ proposer ∧
    VoterChoices logs topicId voter = {TopicVoteChoice.needsRevision} }.ncard
  conflicted : ∀ voter, voter ∈ tally.conflictedLineages ↔
    voter ≠ proposer ∧ (VoterChoices logs topicId voter).Nontrivial
  sorted : tally.conflictedLineages.Pairwise fun first second => first < second

/-- There is one reference. -/
theorem ReferenceTally.unique {logs : String → List CommonsRecord} {topicId proposer : String}
    {first second : TopicVoteTally} (h : ReferenceTally logs topicId proposer first)
    (hsecond : ReferenceTally logs topicId proposer second) : first = second := by
  have hconflicted : first.conflictedLineages = second.conflictedLineages := by
    have hperm : first.conflictedLineages.Perm second.conflictedLineages := by
      rw [List.perm_ext_iff_of_nodup (h.sorted.imp ne_of_lt) (hsecond.sorted.imp ne_of_lt)]
      intro voter
      rw [h.conflicted, hsecond.conflicted]
    refine hperm.eq_of_pairwise ?_ h.sorted hsecond.sorted
    intro x y _ _ hless hmore
    exact absurd hless (lt_asymm hmore)
  cases first
  cases second
  simp only [TopicVoteTally.mk.injEq]
  exact ⟨h.approvals.trans hsecond.approvals.symm, h.rejections.trans hsecond.rejections.symm,
    h.needsRevision.trans hsecond.needsRevision.symm, hconflicted⟩

section

variable {P : Primitives} {records : List CommonsRecord} {tables : CommonsTables}
  {logs : String → List CommonsRecord} {topicId voter proposer origin : String}

/-! ## The choices of a voter -/

theorem filter_map_eq_filterMap {α β : Type} (test : α → Bool) (f : α → β) (rows : List α) :
    (rows.filter test).map f =
      rows.filterMap fun row => if test row then some (f row) else none := by
  induction rows with
  | nil => rfl
  | cons row rest ih =>
      by_cases htest : test row = true
      · rw [List.filter_cons_of_pos htest, List.map_cons, ih, List.filterMap_cons, if_pos htest]
      · rw [List.filter_cons_of_neg htest, ih, List.filterMap_cons, if_neg htest]

/-- The last choice in the log of an origin is the one of its last row. -/
theorem lastChoice_eq {log : List CommonsRecord}
    (hlog : ∀ record ∈ log, record.origin = origin) :
    lastChoice log topicId voter =
      (lastOf TopicVoteRow.key (topicId, voter, origin)
        (log.filterMap (CommonsRecord.vote? P))).map TopicVoteRow.choice := by
  unfold lastChoice lastOf
  rw [← List.getLast?_map, filter_map_eq_filterMap, List.filterMap_filterMap]
  congr 1
  refine List.filterMap_congr ?_
  intro record hrecord
  have horigin := hlog record hrecord
  unfold CommonsRecord.choiceOn CommonsRecord.vote? CommonsRecord.writes
  by_cases hkind : record.contribution.kind = .topicVote
  · rw [if_pos hkind, if_pos hkind]
    cases TopicVotePayload.ofJson record.contribution.payload with
    | none => rfl
    | some vote =>
        simp only [Option.bind_eq_bind, Option.bind_some, Option.map_some,
          CommonsRecord.voteRow, TopicVoteRow.key, Prod.mk.injEq, decide_eq_true_eq, horigin,
          and_true]
  · rw [if_neg hkind, if_neg hkind]
    rfl

theorem CommonsTables.ReplayOf.mem_choicesOf (h : tables.ReplayOf P records)
    (hlogs : ∀ origin, logs origin = records.filter fun record => record.origin == origin)
    (choice : TopicVoteChoice) :
    choice ∈ tables.choicesOf topicId voter ↔ choice ∈ VoterChoices logs topicId voter := by
  have hlast : ∀ origin, lastChoice (logs origin) topicId voter =
      (lastOf TopicVoteRow.key (topicId, voter, origin)
        (records.filterMap (CommonsRecord.vote? P))).map TopicVoteRow.choice := by
    intro origin
    rw [lastOf_vote, ← hlogs]
    refine lastChoice_eq ?_
    intro record hrecord
    rw [hlogs, List.mem_filter, beq_iff_eq] at hrecord
    exact hrecord.2
  unfold CommonsTables.choicesOf VoterChoices
  rw [List.mem_dedup, List.mem_map, Set.mem_ofPred_eq]
  constructor
  · rintro ⟨row, hrow, rfl⟩
    rw [List.mem_filter, Bool.and_eq_true, beq_iff_eq, beq_iff_eq] at hrow
    obtain ⟨hmem, rfl, rfl⟩ := hrow
    refine ⟨row.originNodeId, ?_⟩
    have hrow : lastOf TopicVoteRow.key (row.topicId, row.voterLineageId, row.originNodeId)
        (records.filterMap (CommonsRecord.vote? P)) = some row := (h.votes.mem row).mp hmem
    rw [hlast, hrow, Option.map_some]
  · rintro ⟨origin, hchoice⟩
    rw [hlast, Option.map_eq_some_iff] at hchoice
    obtain ⟨row, hrow, hchoice⟩ := hchoice
    have hkey := (mem_of_lastOf hrow).2
    have hmem : row ∈ tables.votes := by
      rw [h.votes.mem row, hkey]
      exact hrow
    simp only [TopicVoteRow.key, Prod.mk.injEq] at hkey
    refine ⟨row, ?_, hchoice⟩
    rw [List.mem_filter, Bool.and_eq_true, beq_iff_eq, beq_iff_eq]
    exact ⟨hmem, hkey.1, hkey.2.1⟩

/-! ## Counting -/

theorem nodup_choicesOf : (tables.choicesOf topicId voter).Nodup := List.nodup_dedup _

theorem mem_votersOf : voter ∈ tables.votersOf topicId proposer ↔
    voter ≠ proposer ∧ ∃ choice, choice ∈ tables.choicesOf topicId voter := by
  unfold CommonsTables.votersOf CommonsTables.choicesOf
  simp only [List.mem_mergeSort, List.mem_dedup, List.mem_map, List.mem_filter,
    Bool.and_eq_true, beq_iff_eq, bne_iff_ne]
  constructor
  · rintro ⟨row, ⟨hrow, htopic, hother⟩, rfl⟩
    exact ⟨hother, row.choice, row, ⟨hrow, htopic, rfl⟩, rfl⟩
  · rintro ⟨hother, choice, row, ⟨hrow, htopic, rfl⟩, -⟩
    exact ⟨row, ⟨hrow, htopic, hother⟩, rfl⟩

theorem sorted_votersOf : (tables.votersOf topicId proposer).Pairwise
    fun first second => first < second := by
  have hnodup : (tables.votersOf topicId proposer).Nodup := by
    unfold CommonsTables.votersOf
    rw [(List.mergeSort_perm _ _).nodup_iff]
    exact List.nodup_dedup _
  have hsorted : (tables.votersOf topicId proposer).Pairwise
      fun first second => decide (first ≤ second) = true := by
    refine List.pairwise_mergeSort ?_ ?_ _
    · intro a b c hab hbc
      rw [decide_eq_true_eq] at hab hbc ⊢
      exact le_trans hab hbc
    · intro a b
      rw [Bool.or_eq_true, decide_eq_true_eq, decide_eq_true_eq]
      exact le_total a b
  refine (hsorted.and hnodup).imp ?_
  rintro a b ⟨hle, hne⟩
  exact lt_of_le_of_ne (decide_eq_true_eq.mp hle) hne

/-- The tally of the tables is the reference on the logs. -/
theorem CommonsTables.ReplayOf.referenceTally (h : tables.ReplayOf P records)
    (hlogs : ∀ origin, logs origin = records.filter fun record => record.origin == origin)
    (topicId proposer : String) :
    ReferenceTally logs topicId proposer (tables.topicVoteTally topicId proposer) := by
  have hchoices : ∀ voter choice, choice ∈ tables.choicesOf topicId voter ↔
      choice ∈ VoterChoices logs topicId voter := fun voter => h.mem_choicesOf hlogs
  have hnodup : (tables.votersOf topicId proposer).Nodup := sorted_votersOf.imp ne_of_lt
  have hcount : ∀ choice : TopicVoteChoice,
      ((tables.votersOf topicId proposer).filter fun voter =>
        tables.choicesOf topicId voter == [choice]).length =
      { voter | voter ≠ proposer ∧ VoterChoices logs topicId voter = {choice} }.ncard := by
    intro choice
    refine length_eq_ncard (hnodup.filter _) ?_
    intro voter
    rw [List.mem_filter, beq_iff_eq, mem_votersOf,
      eq_singleton_iff nodup_choicesOf (hchoices voter), Set.mem_ofPred_eq, and_assoc]
    refine and_congr_right fun _ => ⟨And.right, fun hsingle => ⟨⟨choice, ?_⟩, hsingle⟩⟩
    rw [hchoices, hsingle]
    exact Set.mem_singleton choice
  refine ⟨hcount .approve, hcount .reject, hcount .needsRevision, ?_, ?_⟩
  · intro voter
    rw [nontrivial_iff nodup_choicesOf (hchoices voter)]
    change voter ∈ (tables.votersOf topicId proposer).filter _ ↔ _
    rw [List.mem_filter, bne_iff_ne, mem_votersOf, and_assoc]
    refine and_congr_right fun _ => and_congr_left fun _ => ?_
    exact exists_congr fun choice => hchoices voter choice
  · exact sorted_votersOf.filter _

end

end Commonwake
