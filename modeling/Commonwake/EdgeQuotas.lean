import Commonwake.Guarded
import Commonwake.Lifetime
import Commonwake.PublicEdge

/-!
# The quotas of the public edge

A request awaits its guard, reads the database, decides, and writes, in accesses of
its own.  Requests of both guards interleave with one another and with whatever else
the node does.  The guards and the quotas are those of a policy which is enabled.
-/

namespace Commonwake

open Outcome Table

/-- The requests which are counted against a quota, with the header of the caller. -/
inductive EdgeRequest
  | importBundle (authorization : Option String) (bundle : FederationBundle)
  | publishBundle (authorization : Option String) (bundle : FederationBundle)
  | volunteerResult (submission : VolunteerSubmission)

inductive AdmissionGuard
  | federation
  | volunteer
  deriving DecidableEq

def EdgeRequest.guard : EdgeRequest → AdmissionGuard
  | .importBundle _ _ => .federation
  | .publishBundle _ _ => .federation
  | .volunteerResult _ => .volunteer

/-- What a request has done while it holds its guard. -/
inductive Progress
  | guarded
  | looked (known : Bool)
  | admitted
  | imported
  | reviewed (receipt : VolunteerReceipt)

/-- The readings of the clock during one access. -/
structure Readings where
  observedAt : ℤ
  now : ℤ
  appendedAt : ℤ

structure EdgeStore where
  node : NodeState
  submissions : List VolunteerSubmissionRow

/-- The actions of a node besides the imports. -/
def Action.ImportsNothing : Action → Prop
  | .importBundle _ _ _ _ => False
  | _ => True

section

variable (P : Primitives) (policy : PublicEdgePolicy) (identity : NodeIdentity P)
  (parse : String → Option HostUrl) (instructions : String → String)

/-- One access of `import_federation_bundle` or, when it answers with a receipt, of
`publish_federation_bundle`. -/
def accessBundle (publishes : Bool) (authorization : Option String)
    (bundle : FederationBundle) (readings : Readings) (store : EdgeStore) :
    Progress → Option Progress × EdgeStore
  | .guarded =>
      (some (.looked (store.node.db.hasFederationOrigin bundle.originNodeId)), store)
  | .looked known =>
      match policy.authorizeFederationBundle P authorization bundle.originNodeId
          bundle.checkpoint.cursor known store.node.db.federationOriginCount with
      | .ok () => (some .admitted, store)
      | .error _ => (none, store)
  | .admitted =>
      let (result, db) := importFederationBundle P identity bundle readings.observedAt
        readings.now readings.appendedAt store.node.db
      let store := { store with node := { store.node with db := db } }
      match result with
      | .ok _ => (if publishes then some .imported else none, store)
      | .error _ => (none, store)
  -- The receipt is signed; the database is not read for it.
  | .imported => (none, store)
  | .reviewed _ => (none, store)

/-- One access of `submit_volunteer_result`. -/
def accessResult (submission : VolunteerSubmission) (readings : Readings)
    (store : EdgeStore) : Progress → Option Progress × EdgeStore
  | .guarded =>
      match policy.authorizeVolunteerSubmission store.submissions.length with
      | .ok () => (some .admitted, store)
      | .error _ => (none, store)
  | .admitted =>
      match reviewVolunteerSubmission P parse identity instructions submission readings.now
          store.node.db.work.items with
      | .ok receipt => (some (.reviewed receipt), store)
      | .error _ => (none, store)
  | .reviewed receipt =>
      match storeVolunteerSubmission P submission receipt store.submissions with
      | .ok submissions => (none, { store with submissions := submissions })
      | .error _ => (none, store)
  | .looked _ => (none, store)
  | .imported => (none, store)

def EdgeRequest.access (readings : Readings) (request : EdgeRequest) (progress : Progress)
    (store : EdgeStore) : Option Progress × EdgeStore :=
  match request with
  | .importBundle authorization bundle =>
      accessBundle P policy identity false authorization bundle readings store progress
  | .publishBundle authorization bundle =>
      accessBundle P policy identity true authorization bundle readings store progress
  | .volunteerResult submission =>
      accessResult P policy identity parse instructions submission readings store progress

def edgeSystem : Guarded.System EdgeStore EdgeRequest Progress Readings
    {action : Action // action.ImportsNothing} AdmissionGuard where
  lane := EdgeRequest.guard
  first := .guarded
  access := EdgeRequest.access P policy identity parse instructions
  other := fun action store => { store with node := store.node.step P identity action.1 }

abbrev EdgeEvent :=
  Guarded.Event EdgeRequest Readings {action : Action // action.ImportsNothing}

/-- The store after a run of requests and of actions of the node. -/
def EdgeStore.run (store : EdgeStore) (events : List EdgeEvent) : EdgeStore :=
  ((Guarded.Config.mk store []).run
    (edgeSystem P policy identity parse instructions) events).shared

/-- The three quotas. -/
structure EdgeStore.WithinQuota (store : EdgeStore) : Prop where
  origins : store.node.db.peers.length ≤ policy.maxOrigins
  originEvents : ∀ peer ∈ store.node.db.peers, peer.cursor ≤ policy.maxOriginEvents
  submissions : store.submissions.length ≤ policy.maxVolunteerSubmissions

/-- The callers who present a bundle of the origin with a request of the run. -/
def EdgeRequest.Presents (originNodeId : String) (authorization : Option String)
    (request : EdgeRequest) : Prop :=
  ∃ bundle, bundle.originNodeId = originNodeId ∧
    (request = .importBundle authorization bundle ∨
      request = .publishBundle authorization bundle)

/-- No request of the run may import the origin. -/
def Refused (events : List EdgeEvent) (originNodeId : String) : Prop :=
  ∀ authorization request, .arrive request ∈ events →
    request.Presents originNodeId authorization →
    policy.admitsOrigin P authorization originNodeId = false

/-- Nothing was imported of the origin. -/
structure EdgeStore.SameOrigin (originNodeId : String) (first second : EdgeStore) :
    Prop where
  tables : second.node.db.origins originNodeId = first.node.db.origins originNodeId
  peers : ∀ peer ∈ second.node.db.peers, peer.nodeId = originNodeId →
    peer ∈ first.node.db.peers

/-- What a request which holds its guard has established. -/
def EdgeRequest.Knows (request : EdgeRequest) (progress : Progress) (store : EdgeStore) :
    Prop :=
  match request, progress with
  | .importBundle authorization bundle, .admitted
  | .publishBundle authorization bundle, .admitted =>
      policy.admitsOrigin P authorization bundle.originNodeId = true ∧
        bundle.checkpoint.cursor ≤ policy.maxOriginEvents ∧
        (store.node.db.hasFederationOrigin bundle.originNodeId = true ∨
          store.node.db.peers.length < policy.maxOrigins)
  | .importBundle _ bundle, .looked known
  | .publishBundle _ bundle, .looked known =>
      known = true → store.node.db.hasFederationOrigin bundle.originNodeId = true
  | .volunteerResult _, .admitted
  | .volunteerResult _, .reviewed _ =>
      store.submissions.length < policy.maxVolunteerSubmissions
  | _, _ => True

end

section

variable {P : Primitives} {policy : PublicEdgePolicy} {identity : NodeIdentity P}
  {parse : String → Option HostUrl} {instructions : String → String}

/-! ## What an import does to the peers -/

section

variable {bundle : FederationBundle} {witness : CheckpointWitness} {now appendedAt : ℤ}
  {db next opened : Db} {report : FederationImportReport} {key : Bytes} {head : String}
  {loop : ImportLoop} {fresh : List OriginEvent} {state : ImportState}

theorem peer?_eq_none {originNodeId : String} :
    db.peer? originNodeId = none ↔ db.hasFederationOrigin originNodeId = false := by
  unfold Db.peer? Db.hasFederationOrigin
  rw [List.find?_eq_none, List.any_eq_false]

theorem ImportResult.peers_length
    (h : ImportResult P identity bundle witness now appendedAt db report next key head
      opened loop fresh state) {maximum : ℕ} (hlength : db.peers.length ≤ maximum)
    (hroom : db.hasFederationOrigin bundle.originNodeId = true ∨
      db.peers.length < maximum) : next.peers.length ≤ maximum := by
  have hsame := congrArg List.length h.peers.1
  rw [List.length_map, List.length_map] at hsame
  rw [hsame]
  have hopens := h.opens
  cases hopens with
  | known => exact hlength
  | first hnone =>
      rw [peer?_eq_none] at hnone
      cases hroom with
      | inl hknown =>
          rw [hnone] at hknown
          cases hknown
      | inr hlt =>
          rw [List.length_append, List.length_singleton]
          exact hlt

/-- The new head of an origin is the checkpoint of the bundle, or the old head. -/
theorem ImportResult.cursor_le
    (h : ImportResult P identity bundle witness now appendedAt db report next key head
      opened loop fresh state) {maximum : ℤ}
    (hold : ∀ peer ∈ db.peers, peer.cursor ≤ maximum)
    (hcheckpoint : bundle.checkpoint.cursor ≤ maximum) :
    ∀ peer ∈ next.peers, peer.cursor ≤ maximum := by
  intro peer hpeer
  cases h.peers.2 peer hpeer with
  | inl hother => exact hold peer hother.2
  | inr hself =>
      rw [hself.2.1]
      by_cases hfresh : fresh = []
      · have hcursor : loop.cursor = (db.knownHead bundle.originNodeId).1 := by
          have hloop := h.looped
          rw [hfresh] at hloop
          rw [hloop.result]
          simp
        rw [hcursor]
        unfold Db.knownHead
        cases hfind : db.peer? bundle.originNodeId with
        | some known =>
            exact hold known (Db.mem_of_peer? hfind).1
        | none =>
            have hcheck := h.verified.checkpointCursor
            have hthrough := h.verified.throughCursor
            have hfrom := h.verified.fromCursor
            simp only
            omega
      · rw [cursor_of_fresh h.verified h.looped hfresh, ← h.verified.checkpointCursor]
        exact hcheckpoint

end

/-! ## One access -/

/-- The invariant of a run from a given store. -/
structure EdgeStore.Sound (P : Primitives) (policy : PublicEdgePolicy)
    (events : List EdgeEvent) (start store : EdgeStore) : Prop where
  quota : store.WithinQuota policy
  refused : ∀ originNodeId, Refused P policy events originNodeId →
    start.SameOrigin originNodeId store

section

variable {events : List EdgeEvent} {start store : EdgeStore}

/-- A step of the node which imports nothing. -/
theorem EdgeStore.Sound.ownStep (h : EdgeStore.Sound P policy events start store)
    {node : NodeState} (hpeers : node.db.peers = store.node.db.peers)
    (horigins : node.db.origins = store.node.db.origins) :
    EdgeStore.Sound P policy events start { store with node := node } := by
  refine ⟨⟨?_, ?_, h.quota.submissions⟩, ?_⟩
  · rw [hpeers]
    exact h.quota.origins
  · rw [hpeers]
    exact h.quota.originEvents
  · intro originNodeId hrefused
    obtain ⟨htables, hold⟩ := h.refused originNodeId hrefused
    refine ⟨?_, ?_⟩
    · rw [horigins]
      exact htables
    · rw [hpeers]
      exact hold

variable (identity) in
/-- An import which was admitted. -/
theorem EdgeStore.Sound.import (h : EdgeStore.Sound P policy events start store)
    {authorization : Option String} {bundle : FederationBundle} {request : EdgeRequest}
    (harrived : .arrive request ∈ events)
    (hpresents : request.Presents bundle.originNodeId authorization)
    (hadmits : policy.admitsOrigin P authorization bundle.originNodeId = true)
    (hcursor : bundle.checkpoint.cursor ≤ policy.maxOriginEvents)
    (hroom : store.node.db.hasFederationOrigin bundle.originNodeId = true ∨
      store.node.db.peers.length < policy.maxOrigins)
    (observedAt now appendedAt : ℤ) :
    EdgeStore.Sound P policy events start { store with
      node := store.node.step P identity (.importBundle bundle observedAt now appendedAt) } := by
  have hstep := @NodeState.step_synchronizes P identity store.node
    (.importBundle bundle observedAt now appendedAt)
  generalize store.node.step P identity (.importBundle bundle observedAt now appendedAt) =
    node at hstep
  cases hstep with
  | inl hown => exact h.ownStep hown.peers hown.origins
  | inr himported =>
      obtain ⟨bundle, observedAt, now, appendedAt, report, key, head, opened, loop, fresh, state,
        haction, hresult⟩ := himported
      cases haction
      refine ⟨⟨?_, ?_, h.quota.submissions⟩, ?_⟩
      · exact hresult.peers_length h.quota.origins hroom
      · exact hresult.cursor_le h.quota.originEvents hcursor
      · intro originNodeId hrefused
        have hother : originNodeId ≠ bundle.originNodeId := by
          intro hsame
          rw [hsame] at hrefused
          have hfalse := hrefused authorization request harrived hpresents
          rw [hadmits] at hfalse
          cases hfalse
        obtain ⟨htables, hold⟩ := h.refused originNodeId hrefused
        refine ⟨?_, ?_⟩
        · rw [← htables]
          exact hresult.other_origins hother
        · intro peer hpeer hid
          cases hresult.peers.2 peer hpeer with
          | inl hkept => exact hold peer hkept.2 hid
          | inr hself => exact absurd (hid.symm.trans hself.1) hother

theorem EdgeStore.Sound.accessBundle (h : EdgeStore.Sound P policy events start store)
    (henabled : policy.enabled = true) {publishes : Bool} {authorization : Option String}
    {bundle : FederationBundle} {request : EdgeRequest}
    (hrequest : request = .importBundle authorization bundle ∨
      request = .publishBundle authorization bundle)
    (harrived : .arrive request ∈ events) {progress : Progress}
    (hknows : request.Knows P policy progress store) (readings : Readings) :
    EdgeStore.Sound P policy events start
        (accessBundle P policy identity publishes authorization bundle readings store
          progress).2 ∧
      ∀ next, (accessBundle P policy identity publishes authorization bundle readings store
          progress).1 = some next →
        request.Knows P policy next
          (accessBundle P policy identity publishes authorization bundle readings store
            progress).2 := by
  cases progress with
  | guarded =>
      refine ⟨h, ?_⟩
      rintro next ⟨⟩
      cases hrequest with
      | inl heq => subst heq; exact fun hknown => hknown
      | inr heq => subst heq; exact fun hknown => hknown
  | looked known =>
      simp only [Commonwake.accessBundle]
      cases hauthorize : policy.authorizeFederationBundle P authorization
          bundle.originNodeId bundle.checkpoint.cursor known
          store.node.db.federationOriginCount with
      | error e => exact ⟨h, by simp⟩
      | ok done =>
          refine ⟨h, ?_⟩
          rintro next ⟨⟩
          obtain ⟨hadmits, hcursor, hroom⟩ :=
            PublicEdgePolicy.authorizeFederationBundle_eq_ok henabled hauthorize
          have hfits : store.node.db.hasFederationOrigin bundle.originNodeId = true ∨
              store.node.db.peers.length < policy.maxOrigins := by
            cases hroom with
            | inr hlt => exact .inr hlt
            | inl hknown =>
                left
                cases hrequest with
                | inl heq => subst heq; exact hknows hknown
                | inr heq => subst heq; exact hknows hknown
          cases hrequest with
          | inl heq => subst heq; exact ⟨hadmits, hcursor, hfits⟩
          | inr heq => subst heq; exact ⟨hadmits, hcursor, hfits⟩
  | admitted =>
      have hchecks : policy.admitsOrigin P authorization bundle.originNodeId = true ∧
          bundle.checkpoint.cursor ≤ policy.maxOriginEvents ∧
          (store.node.db.hasFederationOrigin bundle.originNodeId = true ∨
            store.node.db.peers.length < policy.maxOrigins) := by
        cases hrequest with
        | inl heq => subst heq; exact hknows
        | inr heq => subst heq; exact hknows
      obtain ⟨hadmits, hcursor, hroom⟩ := hchecks
      have himport := h.import identity harrived ⟨bundle, rfl, hrequest⟩ hadmits
        hcursor hroom readings.observedAt readings.now readings.appendedAt
      simp only [Commonwake.accessBundle]
      simp only [NodeState.step] at himport
      generalize importFederationBundle P identity bundle readings.observedAt readings.now
        readings.appendedAt store.node.db = outcome at himport
      obtain ⟨result, db⟩ := outcome
      cases result with
      | error e => exact ⟨himport, by simp⟩
      | ok report =>
          refine ⟨himport, ?_⟩
          intro next hnext
          cases publishes with
          | false => cases hnext
          | true =>
              cases hnext
              cases hrequest with
              | inl heq => subst heq; trivial
              | inr heq => subst heq; trivial
  | imported => exact ⟨h, by simp [Commonwake.accessBundle]⟩
  | reviewed receipt => exact ⟨h, by simp [Commonwake.accessBundle]⟩

theorem EdgeStore.Sound.accessResult (h : EdgeStore.Sound P policy events start store)
    (henabled : policy.enabled = true) {submission : VolunteerSubmission}
    {progress : Progress}
    (hknows : (EdgeRequest.volunteerResult submission).Knows P policy progress store)
    (readings : Readings) :
    EdgeStore.Sound P policy events start
        (accessResult P policy identity parse instructions submission readings store
          progress).2 ∧
      ∀ next, (accessResult P policy identity parse instructions submission readings store
          progress).1 = some next →
        (EdgeRequest.volunteerResult submission).Knows P policy next
          (accessResult P policy identity parse instructions submission readings store
            progress).2 := by
  cases progress with
  | guarded =>
      simp only [Commonwake.accessResult]
      cases hauthorize : policy.authorizeVolunteerSubmission store.submissions.length with
      | error e => exact ⟨h, by simp⟩
      | ok done =>
          refine ⟨h, ?_⟩
          rintro next ⟨⟩
          exact PublicEdgePolicy.authorizeVolunteerSubmission_eq_ok henabled hauthorize
  | admitted =>
      simp only [Commonwake.accessResult]
      cases reviewVolunteerSubmission P parse identity instructions submission readings.now
          store.node.db.work.items with
      | error e => exact ⟨h, by simp⟩
      | ok receipt =>
          refine ⟨h, ?_⟩
          rintro next ⟨⟩
          exact hknows
  | reviewed receipt =>
      simp only [Commonwake.accessResult]
      cases hstore : storeVolunteerSubmission P submission receipt store.submissions with
      | error e => exact ⟨h, by simp⟩
      | ok submissions =>
          obtain ⟨-, rfl⟩ := insertNew_eq_ok.mp hstore
          refine ⟨⟨⟨h.quota.origins, h.quota.originEvents, ?_⟩, ?_⟩, by simp⟩
          · rw [List.length_append, List.length_singleton]
            exact hknows
          · intro originNodeId hrefused
            obtain ⟨htables, hold⟩ := h.refused originNodeId hrefused
            exact ⟨htables, hold⟩
  | looked known => exact ⟨h, by simp [Commonwake.accessResult]⟩
  | imported => exact ⟨h, by simp [Commonwake.accessResult]⟩

/-- The requests of one guard leave alone what those of the other have seen. -/
theorem EdgeRequest.Knows.access {request other : EdgeRequest}
    (hlane : request.guard ≠ other.guard) {progress otherProgress : Progress}
    (hknows : other.Knows P policy otherProgress store) (readings : Readings) :
    other.Knows P policy otherProgress
      (request.access P policy identity parse instructions readings progress store).2 := by
  have hbundle : ∀ publishes authorization bundle,
      (accessBundle P policy identity publishes authorization bundle readings store
        progress).2.submissions = store.submissions := by
    intro publishes authorization bundle
    cases progress with
    | guarded => rfl
    | looked known =>
        simp only [accessBundle]
        split
        · rfl
        · rfl
    | admitted =>
        simp only [accessBundle]
        split
        · rfl
        · rfl
    | imported => rfl
    | reviewed receipt => rfl
  have hresult : ∀ submission,
      (accessResult P policy identity parse instructions submission readings store
        progress).2.node = store.node := by
    intro submission
    cases progress with
    | looked known => rfl
    | imported => rfl
    | guarded | admitted | reviewed _ =>
        simp only [accessResult]
        split
        · rfl
        · rfl
  cases request with
  | importBundle authorization bundle =>
      cases other with
      | volunteerResult submission =>
          have hsame := hbundle false authorization bundle
          cases otherProgress with
          | guarded | looked _ | imported => trivial
          | admitted | reviewed _ =>
              simp only [Knows, EdgeRequest.access, hsame] at hknows ⊢
              exact hknows
      | _ => exact absurd rfl hlane
  | publishBundle authorization bundle =>
      cases other with
      | volunteerResult submission =>
          have hsame := hbundle true authorization bundle
          cases otherProgress with
          | guarded | looked _ | imported => trivial
          | admitted | reviewed _ =>
              simp only [Knows, EdgeRequest.access, hsame] at hknows ⊢
              exact hknows
      | _ => exact absurd rfl hlane
  | volunteerResult submission =>
      have hsame := hresult submission
      cases other with
      | volunteerResult _ => exact absurd rfl hlane
      | importBundle _ _ | publishBundle _ _ =>
          cases otherProgress with
          | guarded | imported | reviewed _ => trivial
          | admitted | looked _ =>
              simp only [Knows, EdgeRequest.access, hsame] at hknows ⊢
              exact hknows

variable (identity parse instructions) in
/-- The guards keep what a request has established until it writes. -/
theorem edgeSystem_rely (henabled : policy.enabled = true) :
    Guarded.Rely (edgeSystem P policy identity parse instructions)
      (fun request => .arrive request ∈ events) (EdgeStore.Sound P policy events start)
      (EdgeRequest.Knows P policy) := by
  refine ⟨?_, ?_, ?_, ?_⟩
  · intro request store _ _
    cases request with
    | importBundle | publishBundle | volunteerResult => trivial
  · intro readings request progress store harrived hsound hknows
    cases request with
    | importBundle authorization bundle =>
        exact hsound.accessBundle henabled (.inl rfl) harrived hknows readings
    | publishBundle authorization bundle =>
        exact hsound.accessBundle henabled (.inr rfl) harrived hknows readings
    | volunteerResult submission =>
        exact hsound.accessResult henabled hknows readings
  · intro readings request progress store other otherProgress _ _ hlane _ hknows
    exact hknows.access hlane readings
  · intro action store hsound
    have hstep := @NodeState.step_synchronizes P identity store.node action.1
    cases hstep with
    | inr himported =>
        obtain ⟨bundle, observedAt, now, appendedAt, -, -, -, -, -, -, -, haction, -⟩ :=
          himported
        have himports := action.2
        rw [haction] at himports
        exact absurd himports not_false
    | inl hown =>
        refine ⟨hsound.ownStep hown.peers hown.origins, ?_⟩
        intro request progress _ hknows
        have hhas : ∀ originNodeId,
            (store.node.step P identity action.1).db.hasFederationOrigin originNodeId =
              store.node.db.hasFederationOrigin originNodeId := by
          intro originNodeId
          unfold Db.hasFederationOrigin
          rw [hown.peers]
        cases request with
        | volunteerResult submission =>
            cases progress with
            | guarded | looked _ | imported => trivial
            | admitted | reviewed _ => exact hknows
        | importBundle authorization bundle | publishBundle authorization bundle =>
            cases progress with
            | guarded | imported | reviewed _ => trivial
            | looked known =>
                simp only [EdgeRequest.Knows, edgeSystem, hhas] at hknows ⊢
                exact hknows
            | admitted =>
                simp only [EdgeRequest.Knows, edgeSystem, hhas, hown.peers] at hknows ⊢
                exact hknows

end

/-- Whatever the order of the accesses, the quotas of an enabled edge hold after every
run from a store within them, and nothing is imported of an origin which no request
of the run may import. -/
theorem run_edgeQuotas (P : Primitives) (policy : PublicEdgePolicy)
    (identity : NodeIdentity P) (parse : String → Option HostUrl)
    (instructions : String → String) (henabled : policy.enabled = true) (store : EdgeStore)
    (hquota : store.WithinQuota policy) (events : List EdgeEvent) :
    (store.run P policy identity parse instructions events).WithinQuota policy ∧
      ∀ originNodeId, Refused P policy events originNodeId →
        store.SameOrigin originNodeId
          (store.run P policy identity parse instructions events) := by
  have hstart : EdgeStore.Sound P policy events store store := by
    refine ⟨hquota, ?_⟩
    intro originNodeId _
    exact ⟨rfl, fun _ hpeer _ => hpeer⟩
  have hfinal := Guarded.run_good (edgeSystem_rely identity parse instructions henabled)
    hstart (fun request hrequest => hrequest)
  exact ⟨hfinal.quota, hfinal.refused⟩

end

namespace Sample

/-- A relay with room for one origin, which admits the first node. -/
def relayPolicy : PublicEdgePolicy where
  enabled := true
  writeTokenHash := none
  allowedPublishers := [origin.nodeId]
  maxOrigins := 1
  maxOriginEvents := 100
  volunteerIntakeEnabled := true
  maxVolunteerSubmissions := 0

def relayStart : EdgeStore := ⟨.init library importer, []⟩

/-- Two callers bring the same page at once; the second one has to wait. -/
def crowdedRun : List EdgeEvent :=
  match federationBundle library origin 0 maxFederationEvents 0
    (NodeState.run library origin openRun).db with
  | .ok bundle =>
      [.arrive (.publishBundle none bundle), .arrive (.importBundle none bundle), .acquire 0,
        .acquire 1, .access 0 ⟨0, 0, 0⟩, .access 1 ⟨0, 0, 0⟩, .access 0 ⟨0, 0, 0⟩,
        .access 0 ⟨0, 0, 0⟩, .access 0 ⟨0, 0, 0⟩, .acquire 1, .access 1 ⟨0, 0, 0⟩,
        .access 1 ⟨0, 0, 0⟩, .access 1 ⟨0, 0, 0⟩]
  | .error _ => []

instance crowdedRun_imports : Fact ((relayStart.run library relayPolicy importer
    (fun _ => none) (fun _ => "") crowdedRun).node.db.peers.map PeerRow.nodeId =
      [origin.nodeId]) := ⟨by decide +kernel⟩

/-- The relay has one origin afterwards, and is within its quotas. -/
theorem run_edgeQuotas_crowdedRun :
    (relayStart.run library relayPolicy importer (fun _ => none) (fun _ => "")
      crowdedRun).node.db.peers.map PeerRow.nodeId = [origin.nodeId] ∧
    (relayStart.run library relayPolicy importer (fun _ => none) (fun _ => "")
      crowdedRun).WithinQuota relayPolicy := by
  have hquota : relayStart.WithinQuota relayPolicy := by
    refine ⟨Nat.zero_le 1, ?_, Nat.le_refl 0⟩
    intro peer hpeer
    cases hpeer
  exact ⟨crowdedRun_imports.out, (run_edgeQuotas library relayPolicy importer (fun _ => none)
    (fun _ => "") rfl relayStart hquota crowdedRun).1⟩

end Sample

end Commonwake
