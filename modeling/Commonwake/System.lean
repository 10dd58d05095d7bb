import Commonwake.Orientation
import Commonwake.ImportAtomicity

/-!
# The runs of a node

A node serves calls concurrently.  Every call takes the database lock twice,
once for its checks and once for its transaction, so that the transactions of
other calls may run in between.  The state of a node is therefore its
database together with the calls which have passed their checks and not yet
run their transaction; an action is one critical section.
-/

namespace Commonwake

open Outcome Table

/-- A call of the service. -/
inductive Call where
  | registerLineage (registration : LineageRegistration)
  | registerDelegation (delegation : SessionDelegation)
  | revokeDelegation (revocation : DelegationRevocation)
  | rotateLineageKey (rotation : SignedKeyRotation)
  | acceptContribution (store : ArtifactStore) (contribution : SignedContribution)
  | acknowledge (acknowledgement : SignedAcknowledgement)

/-- A call which has passed its checks, with what they computed. -/
inductive Admitted where
  | registerLineage (lineageId : String) (registration : LineageRegistration)
  | registerDelegation (id : String) (delegation : SessionDelegation)
  | revokeDelegation (revocation : DelegationRevocation)
  | rotateLineageKey (rotation : SignedKeyRotation)
  | appendContribution (lineageId : String) (contribution : SignedContribution)
  | appendAcknowledgement (lineageId : String) (acknowledgement : SignedAcknowledgement)

/-- One critical section of a node. -/
inductive Action where
  /-- The checks of a call. -/
  | check (call : Call) (checkedAt : ℤ)
  /-- The transaction of the pending call with the given index. -/
  | commit (index : ℕ) (appendedAt : ℤ)
  /-- The transaction of the collector for one entry of a feed. -/
  | observe (sourceId : String) (languages : List String) (feed : Feed)
      (retrievedAt : ℤ) (entry : FeedEntry) (appendedAt : ℤ)
  /-- The bookkeeping after a fetch. -/
  | markSourceFetch (sourceId : String) (success : Bool)
  | importBundle (bundle : FederationBundle) (observedAt now appendedAt : ℤ)

/-- A call in flight: what it was admitted with, and the reading of the clock
and the database at its checks. -/
structure PendingCall where
  admitted : Admitted
  checkedAt : ℤ
  seen : Db

structure NodeState where
  db : Db
  pending : List PendingCall

section

variable (P : Primitives)

/-- The checks of a call, under the first lock. -/
def Call.check (call : Call) (checkedAt : ℤ) (db : Db) : Result Admitted :=
  match call with
  | .registerLineage registration => do
      let lineageId ← checkRegisterLineage P registration checkedAt
      pure (.registerLineage lineageId registration)
  | .registerDelegation delegation => do
      let id ← checkRegisterDelegation P delegation checkedAt db
      pure (.registerDelegation id delegation)
  | .revokeDelegation revocation => do
      checkRevokeDelegation P revocation checkedAt db
      pure (.revokeDelegation revocation)
  | .rotateLineageKey rotation => do
      checkRotateLineageKey P rotation checkedAt db
      pure (.rotateLineageKey rotation)
  | .acceptContribution store contribution => do
      let lineageId ← checkContribution P store contribution checkedAt db
      pure (.appendContribution lineageId contribution)
  | .acknowledge acknowledgement => do
      let lineageId ← checkAcknowledgement P acknowledgement checkedAt db
      pure (.appendAcknowledgement lineageId acknowledgement)

/-- The transaction of a call, under the second lock. -/
def Admitted.commit (identity : NodeIdentity P) (admitted : Admitted)
    (appendedAt : ℤ) (db : Db) : Result (AcceptedObject × Db) :=
  match admitted with
  | .registerLineage lineageId registration =>
      db.registerLineage P identity lineageId registration appendedAt
  | .registerDelegation id delegation =>
      db.registerDelegation P identity id delegation appendedAt
  | .revokeDelegation revocation => db.revokeDelegation P identity revocation appendedAt
  | .rotateLineageKey rotation => db.rotateLineageKey P identity rotation appendedAt
  | .appendContribution lineageId contribution =>
      db.appendContribution P identity lineageId contribution appendedAt
  | .appendAcknowledgement lineageId acknowledgement =>
      db.appendAcknowledgement P identity lineageId acknowledgement appendedAt

/-- What a call logs. -/
def Admitted.input (admitted : Admitted) : EventInput :=
  match admitted with
  | .registerLineage lineageId registration => registrationInput P lineageId registration
  | .registerDelegation id delegation => delegationInput P id delegation
  | .revokeDelegation revocation => revocationInput P revocation
  | .rotateLineageKey rotation => rotationInput P rotation
  | .appendContribution lineageId contribution => contributionInput P lineageId contribution
  | .appendAcknowledgement lineageId acknowledgement =>
      acknowledgementInput P lineageId acknowledgement

/-- The database after a transaction: one which fails changes nothing. -/
def settle {α : Type} (db : Db) (result : Result (α × Db)) : Db :=
  match result with
  | .ok (_, next) => next
  | .error _ => db

namespace NodeState

def init (identity : NodeIdentity P) : NodeState :=
  ⟨Db.init P identity.nodeId, []⟩

def step (identity : NodeIdentity P) (node : NodeState) : Action → NodeState
  | .check call checkedAt =>
      match call.check P checkedAt node.db with
      | .ok admitted =>
          { node with pending := node.pending ++ [⟨admitted, checkedAt, node.db⟩] }
      | .error _ => node
  | .commit index appendedAt =>
      match node.pending[index]? with
      | some call => {
          db := settle node.db (call.admitted.commit P identity appendedAt node.db)
          pending := node.pending.eraseIdx index }
      | none => node
  | .observe sourceId languages feed retrievedAt entry appendedAt =>
      match entryUrl P entry with
      | some canonicalUrl =>
          let observation := entryObservation P sourceId languages feed retrievedAt entry
            canonicalUrl
          { node with
            db := settle node.db
              (node.db.appendObservation P identity observation appendedAt) }
      | none => node
  | .markSourceFetch sourceId success =>
      { node with db := node.db.markSourceFetch sourceId success }
  | .importBundle bundle observedAt now appendedAt =>
      { node with
        db := (importFederationBundle P identity bundle observedAt now appendedAt
          node.db).2 }

/-- The state of a new node after a list of actions. -/
def run (identity : NodeIdentity P) (actions : List Action) : NodeState :=
  actions.foldl (step P identity) (init P identity)

variable {P} {identity : NodeIdentity P}

@[simp] theorem run_nil : run P identity [] = init P identity := rfl

@[simp] theorem run_append_singleton (actions : List Action) (action : Action) :
    run P identity (actions ++ [action]) =
      step P identity (run P identity actions) action := by
  simp [run]

theorem run_append (actions rest : List Action) :
    run P identity (actions ++ rest) = rest.foldl (step P identity) (run P identity actions) :=
  List.foldl_append

/-- A property of the initial state which every step keeps holds after every
run. -/
theorem run_induction {property : NodeState → Prop}
    (hinit : property (init P identity))
    (hstep : ∀ node action, property node → property (step P identity node action))
    (actions : List Action) : property (run P identity actions) := by
  induction actions using List.reverseRecOn with
  | nil => exact hinit
  | append_singleton actions action ih =>
      rw [run_append_singleton]
      exact hstep _ action ih

end NodeState

end

/-! ## What a transaction does to the log -/

/-- Everything but the tables which are derived from the node's own log is
the same. -/
structure Db.SameRecords (first second : Db) : Prop where
  nodeId : second.nodeId = first.nodeId
  events : second.events = first.events
  peers : second.peers = first.peers
  origins : second.origins = first.origins
  equivocationEvidence : second.equivocationEvidence = first.equivocationEvidence
  checkpointWitnesses : second.checkpointWitnesses = first.checkpointWitnesses
  federationImports : second.federationImports = first.federationImports

theorem Db.SameRecords.refl (db : Db) : db.SameRecords db :=
  ⟨rfl, rfl, rfl, rfl, rfl, rfl, rfl⟩

theorem Db.SameRecords.trans {first second third : Db} (h : first.SameRecords second)
    (h' : second.SameRecords third) : first.SameRecords third :=
  ⟨h'.nodeId.trans h.nodeId, h'.events.trans h.events, h'.peers.trans h.peers,
    h'.origins.trans h.origins, h'.equivocationEvidence.trans h.equivocationEvidence,
    h'.checkpointWitnesses.trans h.checkpointWitnesses,
    h'.federationImports.trans h.federationImports⟩

/-- Recording a contribution: the authority tables stay as well. -/
structure Db.OnlyProjected (first second : Db) : Prop extends
    first.SameRecords second where
  authority : second.authority = first.authority

theorem Db.OnlyProjected.refl (db : Db) : db.OnlyProjected db :=
  ⟨.refl db, rfl⟩

theorem Db.OnlyProjected.trans {first second third : Db}
    (h : first.OnlyProjected second) (h' : second.OnlyProjected third) :
    first.OnlyProjected third :=
  ⟨h.toSameRecords.trans h'.toSameRecords, h'.authority.trans h.authority⟩

/-- A transaction which logs one event and then updates derived tables. -/
def Logs (P : Primitives) (identity : NodeIdentity P) (input : EventInput)
    (appendedAt : ℤ) (db : Db) (result : AcceptedObject × Db) : Prop :=
  ∃ logged, appendEvent P identity input appendedAt db = .ok (result.1, logged) ∧
    logged.SameRecords result.2

section

variable {P : Primitives} (identity : NodeIdentity P)

/-- The rule for a transaction of that form. -/
theorem Ensures.logs {input : EventInput} {appendedAt : ℤ} {db : Db}
    {rest : AcceptedObject × Db → Result (AcceptedObject × Db)}
    (h : ∀ accepted logged, Ensures (rest (accepted, logged))
      fun result => result.1 = accepted ∧ logged.SameRecords result.2) :
    Ensures (appendEvent P identity input appendedAt db >>= rest)
      (Logs P identity input appendedAt db) := by
  intro result hresult
  obtain ⟨⟨accepted, logged⟩, happend, hrest⟩ := bind_eq_ok.mp hresult
  obtain ⟨haccepted, hsame⟩ := h accepted logged result hrest
  exact ⟨logged, by rw [happend, haccepted], hsame⟩

theorem Db.registerLineage_logs (lineageId : String)
    (registration : LineageRegistration) (now : ℤ) (db : Db) :
    Ensures (db.registerLineage P identity lineageId registration now)
      (Logs P identity (registrationInput P lineageId registration) now db) := by
  unfold Db.registerLineage
  refine Ensures.bind fun _ => Ensures.logs identity fun accepted logged => ?_
  exact Ensures.bind fun _ => .pure ⟨rfl, rfl, rfl, rfl, rfl, rfl, rfl, rfl⟩

theorem Db.registerDelegation_logs (id : String) (delegation : SessionDelegation)
    (now : ℤ) (db : Db) :
    Ensures (db.registerDelegation P identity id delegation now)
      (Logs P identity (delegationInput P id delegation) now db) := by
  unfold Db.registerDelegation
  refine Ensures.bind fun _ => Ensures.bind fun _ =>
    Ensures.logs identity fun accepted logged => ?_
  exact Ensures.bind fun _ => .pure ⟨rfl, rfl, rfl, rfl, rfl, rfl, rfl, rfl⟩

theorem Db.revokeDelegation_logs (revocation : DelegationRevocation) (now : ℤ)
    (db : Db) :
    Ensures (db.revokeDelegation P identity revocation now)
      (Logs P identity (revocationInput P revocation) now db) := by
  unfold Db.revokeDelegation
  refine Ensures.bind fun _ => Ensures.bind fun _ => Ensures.bind fun _ =>
    Ensures.logs identity fun accepted logged => ?_
  exact .pure ⟨rfl, rfl, rfl, rfl, rfl, rfl, rfl, rfl⟩

theorem Db.rotateLineageKey_logs (rotation : SignedKeyRotation) (now : ℤ) (db : Db) :
    Ensures (db.rotateLineageKey P identity rotation now)
      (Logs P identity (rotationInput P rotation) now db) := by
  unfold Db.rotateLineageKey
  refine Ensures.bind fun _ => Ensures.bind fun _ => Ensures.bind fun _ =>
    Ensures.logs identity fun accepted logged => ?_
  refine Ensures.bind fun _ => Ensures.bind fun _ => ?_
  exact .pure ⟨rfl, rfl, rfl, rfl, rfl, rfl, rfl, rfl⟩

theorem Db.appendAcknowledgement_logs (lineageId : String)
    (acknowledgement : SignedAcknowledgement) (now : ℤ) (db : Db) :
    Ensures (db.appendAcknowledgement P identity lineageId acknowledgement now)
      (Logs P identity (acknowledgementInput P lineageId acknowledgement) now db) := by
  unfold Db.appendAcknowledgement
  refine Ensures.bind fun _ => Ensures.bind fun _ =>
    Ensures.logs identity fun accepted logged => ?_
  exact .pure ⟨rfl, rfl, rfl, rfl, rfl, rfl, rfl, rfl⟩

/-! ## Contributions and observations -/

theorem Db.applyStoryLink_onlyProjected (db : Db) (accepted : AcceptedObject)
    (payload : StoryLinkPayload) :
    Ensures (db.applyStoryLink accepted payload) fun next => db.OnlyProjected next := by
  have hstep : ∀ state observationId next, db.OnlyProjected state →
      Db.linkObservation payload.storyId accepted state observationId = .ok next →
      db.OnlyProjected next := by
    intro state observationId next hstate hnext
    unfold Db.linkObservation at hnext
    obtain ⟨oldStory, -, hlink⟩ := bind_eq_ok.mp hnext
    split at hlink
    · cases hlink
      exact hstate
    · cases hlink
      exact hstate.trans ⟨⟨rfl, rfl, rfl, rfl, rfl, rfl, rfl⟩, rfl⟩
  intro next hnext
  exact foldState_invariant hstep (.refl db) hnext

/-- Recording a contribution updates derived tables only. -/
theorem Db.applyProjection_onlyProjected (db : Db) (lineageId : String)
    (contribution : SignedContribution) (accepted : AcceptedObject) :
    Ensures (db.applyProjection P lineageId contribution accepted)
      fun next => db.OnlyProjected next := by
  unfold Db.applyProjection
  cases contribution.kind with
  | sourceProposal =>
      refine Ensures.bind fun payload => ?_
      unfold Db.applySourceProposal
      repeat refine Ensures.bind fun _ => ?_
      exact .pure ⟨⟨rfl, rfl, rfl, rfl, rfl, rfl, rfl⟩, rfl⟩
  | sourceReview =>
      refine Ensures.bind fun payload => ?_
      unfold Db.applySourceReview
      repeat refine Ensures.bind fun _ => ?_
      exact .pure ⟨⟨rfl, rfl, rfl, rfl, rfl, rfl, rfl⟩, rfl⟩
  | observationVerification =>
      refine Ensures.bind fun payload => ?_
      unfold Db.applyVerification
      repeat refine Ensures.bind fun _ => ?_
      exact .pure ⟨⟨rfl, rfl, rfl, rfl, rfl, rfl, rfl⟩, rfl⟩
  | storyLink =>
      exact Ensures.bind fun payload => db.applyStoryLink_onlyProjected accepted payload
  | assessment =>
      refine Ensures.bind fun payload => ?_
      unfold Db.applyAssessment
      repeat refine Ensures.bind fun _ => ?_
      exact .pure ⟨⟨rfl, rfl, rfl, rfl, rfl, rfl, rfl⟩, rfl⟩
  | workClaim =>
      exact Ensures.bind fun payload => .pure ⟨⟨rfl, rfl, rfl, rfl, rfl, rfl, rfl⟩, rfl⟩
  | workResult =>
      refine Ensures.bind fun payload => ?_
      unfold Db.applyWorkResult
      repeat refine Ensures.bind fun _ => ?_
      exact .pure ⟨⟨rfl, rfl, rfl, rfl, rfl, rfl, rfl⟩, rfl⟩
  | topicProposal | topicVote | forumPost | openPgpKey | directMessage =>
      unfold Db.applyCommons
      repeat refine Ensures.bind fun _ => ?_
      exact .pure ⟨⟨rfl, rfl, rfl, rfl, rfl, rfl, rfl⟩, rfl⟩
  | verificationTrace | correction | perspectiveGap | translation | commitment
  | position | continuityCheckpoint | repositoryPatch | codeReview | buildAttestation
  | releaseProposal | releaseReview => exact .pure (.refl db)

theorem Db.appendContribution_logs (lineageId : String)
    (contribution : SignedContribution) (now : ℤ) (db : Db) :
    Ensures (db.appendContribution P identity lineageId contribution now)
      (Logs P identity (contributionInput P lineageId contribution) now db) := by
  unfold Db.appendContribution
  refine Ensures.bind fun _ => Ensures.logs identity fun accepted logged => ?_
  exact (logged.applyProjection_onlyProjected lineageId contribution accepted).seq
    fun _ h => .pure ⟨rfl, h.toSameRecords⟩

/-- The transaction of every call logs the event of the call. -/
theorem Admitted.commit_logs (admitted : Admitted) (appendedAt : ℤ) (db : Db) :
    Ensures (admitted.commit P identity appendedAt db)
      (Logs P identity (admitted.input P) appendedAt db) := by
  cases admitted with
  | registerLineage lineageId registration => exact db.registerLineage_logs identity _ _ _
  | registerDelegation id delegation => exact db.registerDelegation_logs identity _ _ _
  | revokeDelegation revocation => exact db.revokeDelegation_logs identity _ _
  | rotateLineageKey rotation => exact db.rotateLineageKey_logs identity _ _
  | appendContribution lineageId contribution =>
      exact db.appendContribution_logs identity _ _ _
  | appendAcknowledgement lineageId acknowledgement =>
      exact db.appendAcknowledgement_logs identity _ _ _

/-- The event of an observation which is not yet stored is logged. -/
theorem Db.appendObservation_logs (observation : IngestedObservation) (now : ℤ)
    {db : Db} (hnew : db.storedObservation
      (db.observationPayload P observation).observationId = none) :
    Ensures (db.appendObservation P identity observation now)
      (Logs P identity (observationInput P (db.observationPayload P observation)) now
        db) := by
  unfold Db.appendObservation
  simp only [hnew]
  refine Ensures.bind fun _ => Ensures.logs identity fun accepted logged => ?_
  exact Ensures.bind fun _ => .pure ⟨rfl, rfl, rfl, rfl, rfl, rfl, rfl, rfl⟩

theorem Db.appendObservation_stored {observation : IngestedObservation} {now : ℤ}
    {db : Db} {accepted : AcceptedObject}
    (hstored : db.storedObservation
      (db.observationPayload P observation).observationId = some accepted) :
    db.appendObservation P identity observation now = .ok (accepted, db) := by
  unfold Db.appendObservation
  simp only [hstored]
  rfl

/-! ## What an action does -/

/-- The two outcomes of a transaction. -/
theorem settle_cases {α : Type} (db : Db) (result : Result (α × Db)) :
    settle db result = db ∨ ∃ a, result = .ok (a, settle db result) := by
  cases result with
  | error e => exact .inl rfl
  | ok pair => exact .inr ⟨pair.1, rfl⟩

/-- What an action can do to a node. -/
inductive Steps (P : Primitives) (identity : NodeIdentity P) (node : NodeState) :
    Action → NodeState → Prop
  | idle (action : Action) : Steps P identity node action node
  | pend (call : Call) (checkedAt : ℤ) (admitted : Admitted)
      (hcheck : call.check P checkedAt node.db = .ok admitted) :
      Steps P identity node (.check call checkedAt)
        { node with pending := node.pending ++ [⟨admitted, checkedAt, node.db⟩] }
  | abort (index : ℕ) (appendedAt : ℤ) :
      Steps P identity node (.commit index appendedAt)
        { node with pending := node.pending.eraseIdx index }
  | commit (index : ℕ) (appendedAt : ℤ) (call : PendingCall)
      (accepted : AcceptedObject) (next : Db) (hcall : node.pending[index]? = some call)
      (hcommit : call.admitted.commit P identity appendedAt node.db =
        .ok (accepted, next)) :
      Steps P identity node (.commit index appendedAt)
        ⟨next, node.pending.eraseIdx index⟩
  | observe (sourceId : String) (languages : List String) (feed : Feed)
      (retrievedAt : ℤ) (entry : FeedEntry) (appendedAt : ℤ) (canonicalUrl : String)
      (observation : IngestedObservation) (accepted : AcceptedObject) (next : Db)
      (hurl : entryUrl P entry = some canonicalUrl)
      (hobservation : observation = entryObservation P sourceId languages feed
        retrievedAt entry canonicalUrl)
      (hnew : node.db.storedObservation
        (node.db.observationPayload P observation).observationId = none)
      (happend : node.db.appendObservation P identity observation appendedAt =
        .ok (accepted, next)) :
      Steps P identity node
        (.observe sourceId languages feed retrievedAt entry appendedAt)
        { node with db := next }
  | markSourceFetch (sourceId : String) (success : Bool) :
      Steps P identity node (.markSourceFetch sourceId success)
        { node with db := node.db.markSourceFetch sourceId success }
  | importBundle (bundle : FederationBundle) (observedAt now appendedAt : ℤ) :
      Steps P identity node (.importBundle bundle observedAt now appendedAt)
        { node with
          db := (importFederationBundle P identity bundle observedAt now appendedAt
            node.db).2 }

theorem NodeState.step_steps (node : NodeState) (action : Action) :
    Steps P identity node action (node.step P identity action) := by
  cases action with
  | check call checkedAt =>
      simp only [NodeState.step]
      cases hcheck : call.check P checkedAt node.db with
      | error e => exact .idle _
      | ok admitted => exact .pend call checkedAt admitted hcheck
  | commit index appendedAt =>
      simp only [NodeState.step]
      cases hcall : node.pending[index]? with
      | none => exact .idle _
      | some call =>
          simp only
          rcases settle_cases node.db
            (call.admitted.commit P identity appendedAt node.db) with hsame |
            ⟨accepted, hok⟩
          · rw [hsame]
            exact .abort index appendedAt
          · exact .commit index appendedAt call accepted _ hcall hok
  | observe sourceId languages feed retrievedAt entry appendedAt =>
      simp only [NodeState.step]
      cases hurl : entryUrl P entry with
      | none => exact .idle _
      | some canonicalUrl =>
          simp only
          generalize hobservation : entryObservation P sourceId languages feed retrievedAt
            entry canonicalUrl = observation
          cases hstored : node.db.storedObservation
              (node.db.observationPayload P observation).observationId with
          | some accepted =>
              rw [Db.appendObservation_stored identity hstored]
              exact .idle _
          | none =>
              rcases settle_cases node.db
                (node.db.appendObservation P identity observation appendedAt) with hsame |
                ⟨accepted, hok⟩
              · rw [hsame]
                exact .idle _
              · exact .observe sourceId languages feed retrievedAt entry appendedAt
                  canonicalUrl observation accepted _ hurl hobservation.symm hstored hok
  | markSourceFetch sourceId success => exact .markSourceFetch sourceId success
  | importBundle bundle observedAt now appendedAt => exact .importBundle _ _ _ _

/-- What an action can do to the database, when only the log and the tables
of other origins matter. -/
inductive Moves (P : Primitives) (identity : NodeIdentity P) (db : Db) :
    Action → Db → Prop
  | stay (action : Action) : Moves P identity db action db
  | log (action : Action) (input : EventInput) (appendedAt : ℤ)
      (accepted : AcceptedObject) (next : Db)
      (hlogs : Logs P identity input appendedAt db (accepted, next)) :
      Moves P identity db action next
  | derive (action : Action) (next : Db) (hsame : db.SameRecords next) :
      Moves P identity db action next
  | importBundle (bundle : FederationBundle) (observedAt now appendedAt : ℤ) :
      Moves P identity db (.importBundle bundle observedAt now appendedAt)
        (importFederationBundle P identity bundle observedAt now appendedAt db).2

theorem NodeState.step_moves (node : NodeState) (action : Action) :
    Moves P identity node.db action (node.step P identity action).db := by
  have hsteps := node.step_steps identity action
  generalize node.step P identity action = next at hsteps
  cases hsteps with
  | idle => exact .stay _
  | pend => exact .stay _
  | abort => exact .stay _
  | commit index appendedAt call accepted next hcall hcommit =>
      exact .log _ _ appendedAt accepted next
        (call.admitted.commit_logs identity appendedAt node.db _ hcommit)
  | observe sourceId languages feed retrievedAt entry appendedAt canonicalUrl observation
      accepted next hurl hobservation hnew happend =>
      exact .log _ _ appendedAt accepted next
        (Db.appendObservation_logs identity observation appendedAt hnew _ happend)
  | markSourceFetch sourceId success =>
      exact .derive _ _ ⟨rfl, rfl, rfl, rfl, rfl, rfl, rfl⟩
  | importBundle bundle observedAt now appendedAt => exact .importBundle _ _ _ _

/-! ## The loop of the collector -/

/-- One iteration is an action, or skips its entry. -/
theorem ingestEntry_step {sourceId : String} {languages : List String} {feed : Feed}
    {retrievedAt : ℤ} {loop next : IngestLoop} {entry : FeedEntry}
    (pending : List PendingCall)
    (h : ingestEntry P identity sourceId languages feed retrievedAt loop entry =
      .ok next) :
    (NodeState.step P identity ⟨loop.db, pending⟩ (.observe sourceId languages feed
      retrievedAt entry (loop.readings.headD retrievedAt))) = ⟨next.db, pending⟩ := by
  unfold ingestEntry at h
  simp only [NodeState.step]
  cases hurl : entryUrl P entry with
  | none =>
      rw [hurl] at h
      cases h
      rfl
  | some canonicalUrl =>
      simp only [hurl, bind_eq_ok, pure_eq_ok, Except.ok.injEq, Prod.exists] at h
      obtain ⟨accepted, db, happend, rfl⟩ := h
      simp only [happend, settle]

/-- Ingesting a document runs the collector on entries of its feed. -/
theorem ingestEntries_run {sourceId : String} {languages : List String} {feed : Feed}
    {retrievedAt : ℤ} (pending : List PendingCall) (loop : IngestLoop)
    (entries : List FeedEntry) :
    ∃ observes : List Action,
      (∀ action ∈ observes, ∃ entry ∈ entries, ∃ appendedAt,
        action = .observe sourceId languages feed retrievedAt entry appendedAt) ∧
      (⟨(ingestEntries P identity sourceId languages feed retrievedAt loop entries).2.db,
        pending⟩ : NodeState) =
        observes.foldl (NodeState.step P identity) ⟨loop.db, pending⟩ := by
  induction entries generalizing loop with
  | nil => exact ⟨[], by simp, rfl⟩
  | cons entry rest ih =>
      unfold ingestEntries
      cases hentry : ingestEntry P identity sourceId languages feed retrievedAt loop
          entry with
      | error e => exact ⟨[], by simp, rfl⟩
      | ok next =>
          obtain ⟨observes, hobserves, hrun⟩ := ih next
          refine ⟨.observe sourceId languages feed retrievedAt entry
            (loop.readings.headD retrievedAt) :: observes, ?_, ?_⟩
          · intro action haction
            rcases List.mem_cons.mp haction with rfl | hrest
            · exact ⟨entry, List.mem_cons_self, _, rfl⟩
            · obtain ⟨other, hother, appendedAt, rfl⟩ := hobserves action hrest
              exact ⟨other, List.mem_cons_of_mem _ hother, appendedAt, rfl⟩
          · rw [List.foldl_cons, ingestEntry_step identity pending hentry]
            exact hrun

/-- What a node does when it ingests a document is a run of the collector. -/
theorem ingestFeedBytes_run (parseFeed : Bytes → Except String Feed) (actions : List Action)
    (sourceId : String) (languages : List String) (bytes : Bytes) (retrievedAt : ℤ)
    (readings : List ℤ) :
    ∃ observes : List Action,
      (∀ action ∈ observes, ∃ feed entry appendedAt, parseFeed bytes = .ok feed ∧
        entry ∈ feed.entries ∧
        action = .observe sourceId languages feed retrievedAt entry appendedAt) ∧
      (ingestFeedBytes P parseFeed identity sourceId languages bytes retrievedAt readings
        (NodeState.run P identity actions).db).2 =
        (NodeState.run P identity (actions ++ observes)).db := by
  unfold ingestFeedBytes
  split
  · exact ⟨[], by simp, by rw [List.append_nil]⟩
  · cases hfeed : parseFeed bytes with
    | error message => exact ⟨[], by simp, by rw [List.append_nil]⟩
    | ok feed =>
        simp only [ingestFeed]
        split
        · exact ⟨[], by simp, by rw [List.append_nil]⟩
        · obtain ⟨observes, hobserves, hrun⟩ := ingestEntries_run identity
            (NodeState.run P identity actions).pending
            ⟨readings, 0, (NodeState.run P identity actions).db⟩ feed.entries
          refine ⟨observes, ?_, ?_⟩
          · intro action haction
            obtain ⟨entry, hentry, appendedAt, rfl⟩ := hobserves action haction
            exact ⟨feed, entry, appendedAt, rfl, hentry, rfl⟩
          · rw [NodeState.run_append]
            exact congrArg NodeState.db hrun

end

end Commonwake
