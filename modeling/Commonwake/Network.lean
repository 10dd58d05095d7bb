import Commonwake.Relay
import Commonwake.CommonsReplay
import Commonwake.Synchronization
import Commonwake.Counting

/-!
# A network of nodes

Any number of nodes serve their own logs and relay the logs which they have
imported.  A page which was served stays in the network, so that it may be
delivered late, to any node, and more than once.  Every import may log a
witness, which is served to the other nodes in turn; the witnesses of a node
are nevertheless bounded by the events of other kinds which all nodes have
logged.
-/

namespace Commonwake

open Outcome Table HashChain

/-- The nodes, and the pages which were served so far. -/
structure Network (ι : Type) where
  nodes : ι → NodeState
  sent : List FederationBundle

def Action.isImport : Action → Bool
  | .importBundle _ _ _ _ => true
  | _ => false

/-- One critical section of a node of the network. -/
inductive NetworkStep (ι : Type) where
  /-- A critical section which has nothing to do with other nodes. -/
  | act (node : ι) (action : Action) (hown : action.isImport = false)
  /-- A page of the node's own log. -/
  | serve (node : ι) (after : ℤ) (limit : ℕ) (now : ℤ)
  /-- A page of a log which the node has imported. -/
  | relay (node : ι) (origin : String) (after : ℤ) (limit : ℕ)
  /-- The import of the page with the given index. -/
  | deliver (node : ι) (index : ℕ) (observedAt now appendedAt : ℤ)

section

variable (P : Primitives)

/-- The events of an origin which the node has imported. -/
def Db.importedEvents (db : Db) (origin : String) : List OriginEvent :=
  (db.origins origin).remoteEvents.filterMap fun row =>
    (remoteOriginEventFromRow P row).toOption

/-- The witnesses which the node has logged. -/
def Db.witnessTotal (db : Db) : ℕ :=
  db.events.countP fun row => row.kind == "checkpoint_witnessed"

/-- The events of other kinds which the node has logged. -/
def Db.otherTotal (db : Db) : ℕ :=
  db.events.countP fun row => row.kind != "checkpoint_witnessed"

variable {ι : Type} [DecidableEq ι] (identity : ι → NodeIdentity P)

namespace Network

variable (network : Network ι)

def act (node : ι) (action : Action) : Network ι :=
  { network with
    nodes := Function.update network.nodes node
      ((network.nodes node).step P (identity node) action) }

def send (result : Result FederationBundle) : Network ι :=
  match result with
  | .ok bundle => { network with sent := network.sent ++ [bundle] }
  | .error _ => network

def step : NetworkStep ι → Network ι
  | .act node action _ => network.act P identity node action
  | .serve node after limit now =>
      network.send (federationBundle P (identity node) after limit now (network.nodes node).db)
  | .relay node origin after limit =>
      network.send (relayedFederationBundle P origin after limit (network.nodes node).db)
  | .deliver node index observedAt now appendedAt =>
      match network.sent[index]? with
      | some bundle =>
          network.act P identity node (.importBundle bundle observedAt now appendedAt)
      | none => network

/-- New nodes, and nothing on the way. -/
def init : Network ι := ⟨fun node => .init P (identity node), []⟩

/-- The network after the first steps of a schedule. -/
def run (schedule : ℕ → NetworkStep ι) : ℕ → Network ι
  | 0 => init P identity
  | n + 1 => (run schedule n).step P identity (schedule n)

/-- The event stands in the log of a node with the id of the origin. -/
def Wrote (origin : String) (event : OriginEvent) : Prop :=
  ∃ node, (identity node).nodeId = origin ∧
    event ∈ (network.nodes node).db.knownEvents P origin origin

/-- Whatever is on the way or was imported was written by its origin, and every
witness is about a node of the network. -/
structure Genuine : Prop where
  sent : ∀ bundle ∈ network.sent, ∀ event ∈ bundle.events,
    network.Wrote P identity bundle.originNodeId event
  imported : ∀ node origin, ∀ event ∈ (network.nodes node).db.importedEvents P origin,
    network.Wrote P identity origin event
  witnesses : ∀ node, ∀ row ∈ (network.nodes node).db.events,
    row.kind = "checkpoint_witnessed" →
      ∃ other, row.witnesses P (identity other).nodeId = true

end Network

/-- What a step of a node has to do with the logs of other nodes. -/
inductive Hears (identity : NodeIdentity P) (node : NodeState) (action : Action)
    (next : NodeState) : Prop
  | own (added : List EventRow) (hevents : next.db.events = node.db.events ++ added)
      (hkinds : ∀ row ∈ added, row.kind ≠ "checkpoint_witnessed")
      (hquiet : action.isImport = true → added = [])
      (horigins : next.db.origins = node.db.origins) : Hears identity node action next
  | imported (bundle : FederationBundle) (observedAt now appendedAt : ℤ)
      (fresh : List OriginEvent) (added : List EventRow)
      (haction : action = .importBundle bundle observedAt now appendedAt)
      (hfresh : ∀ event ∈ fresh, event ∈ bundle.events)
      (hevents : next.db.events = node.db.events ++ added)
      (hwitnesses : ∀ row ∈ added, fresh ≠ [] ∧ row.kind = "checkpoint_witnessed" ∧
        row.witnesses P bundle.originNodeId = true)
      (himported : next.db.importedEvents P bundle.originNodeId =
        node.db.importedEvents P bundle.originNodeId ++ fresh)
      (hothers : ∀ origin, origin ≠ bundle.originNodeId →
        next.db.origins origin = node.db.origins origin) : Hears identity node action next

end

section

variable {P : Primitives}

/-! ## One node -/

section

variable {identity : NodeIdentity P} {bundle : FederationBundle}
  {witness : CheckpointWitness} {now appendedAt : ℤ} {db next opened : Db}
  {report : FederationImportReport} {key : Bytes} {head : String} {loop : ImportLoop}
  {fresh : List OriginEvent} {state : ImportState}

theorem ImportResult.importedEvents
    (h : ImportResult P identity bundle witness now appendedAt db report next key head
      opened loop fresh state) :
    next.importedEvents P bundle.originNodeId =
      db.importedEvents P bundle.originNodeId ++ fresh := by
  have hknown := h.knownEvents
  unfold Db.knownEvents at hknown
  rw [if_neg h.notOwn, if_neg h.notOwn] at hknown
  exact hknown

/-- An import logs a witness of the bundle, or nothing. -/
theorem ImportResult.logged
    (h : ImportResult P identity bundle witness now appendedAt db report next key head
      opened loop fresh state) :
    ∃ added, next.events = db.events ++ added ∧
      ∀ row ∈ added, fresh ≠ [] ∧ row.kind = "checkpoint_witnessed" ∧
        row.witnesses P bundle.originNodeId = true := by
  obtain ⟨-, hevents, -, -, -⟩ := h.advanced
  have houtcome := h.outcome
  have hdue := h.witness_due
  generalize advancePeer P bundle (P.timestamp now) loop = base at houtcome hevents
  cases houtcome with
  | none => exact ⟨[], by rw [hevents, List.append_nil], fun row hrow => by cases hrow⟩
  | again => exact ⟨[], by rw [List.append_nil]; exact hevents, fun row hrow => by cases hrow⟩
  | logged row accepted logged hshould _ happended =>
      refine ⟨[row], ?_, ?_⟩
      · simp only [recordImport]
        rw [happended.events, hevents]
      · intro other hother
        rw [List.mem_singleton.mp hother]
        refine ⟨?_, happended.columns.2.1, (happended.witnesses _).mpr rfl⟩
        rintro rfl
        rw [hdue] at hshould
        cases hshould

end

theorem NodeState.step_hears (identity : NodeIdentity P) (node : NodeState)
    (action : Action) : Hears P identity node action (node.step P identity action) := by
  have hresulted : ∀ {bundle observedAt now appendedAt report key head opened loop fresh state},
      action = .importBundle bundle observedAt now appendedAt →
      ImportResult P identity bundle (makeCheckpointWitness P identity bundle observedAt) now
        appendedAt node.db report (node.step P identity action).db key head opened loop fresh
        state →
      Hears P identity node action (node.step P identity action) := by
    intro bundle observedAt now appendedAt report key head opened loop fresh state haction hresult
    obtain ⟨overlap, hsplit, -⟩ := hresult.looped.split
    obtain ⟨added, hevents, hadded⟩ := hresult.logged
    refine .imported bundle observedAt now appendedAt fresh added haction ?_ hevents hadded
      hresult.importedEvents fun origin hne => hresult.other_origins hne
    intro event hevent
    rw [hsplit]
    exact List.mem_append_right _ hevent
  cases himport : action.isImport with
  | true =>
      cases action with
      | importBundle bundle observedAt now appendedAt =>
          rcases importFederationBundle_cases identity bundle observedAt now appendedAt node.db
            with hquiet | ⟨report, key, head, opened, loop, fresh, state, hresult⟩
          · refine .own [] ?_ (fun row hrow => by cases hrow) (fun _ => rfl) hquiet.origins
            rw [List.append_nil]
            exact hquiet.events
          · exact hresulted rfl hresult
      | _ => cases himport
  | false =>
      rcases node.step_synchronizes identity action with hown |
        ⟨bundle, observedAt, now, appendedAt, report, key, head, opened, loop, fresh, state,
          haction, hresult⟩
      · have hquiet : ∀ {added : List EventRow}, action.isImport = true → added = [] := by
          intro added htrue
          rw [himport] at htrue
          cases htrue
        rcases hown.events with hkept | ⟨input, receivedAt, row, accepted, logged, hkind,
          happended, hrow⟩
        · exact .own [] (by rw [hkept, List.append_nil]) (fun row hrow => by cases hrow) hquiet
            hown.origins
        · refine .own [row] hrow ?_ hquiet hown.origins
          intro other hother
          rw [List.mem_singleton.mp hother, happended.columns.2.1]
          exact hkind
      · exact hresulted haction hresult

theorem Hears.events {identity : NodeIdentity P} {node next : NodeState} {action : Action}
    (h : Hears P identity node action next) :
    ∃ added, next.db.events = node.db.events ++ added := by
  cases h with
  | own added hevents => exact ⟨added, hevents⟩
  | imported _ _ _ _ _ added _ _ hevents => exact ⟨added, hevents⟩

/-- The own log only grows. -/
theorem Hears.own_mono {identity : NodeIdentity P} {node next : NodeState} {action : Action}
    (h : Hears P identity node action next) {origin : String} {event : OriginEvent}
    (hevent : event ∈ node.db.knownEvents P origin origin) :
    event ∈ next.db.knownEvents P origin origin := by
  obtain ⟨added, hadded⟩ := h.events
  unfold Db.knownEvents at hevent ⊢
  rw [if_pos rfl] at hevent ⊢
  rw [hadded, List.filterMap_append]
  exact List.mem_append_left _ hevent

/-- Importing logs nothing but witnesses. -/
theorem Hears.otherTotal_of_import {identity : NodeIdentity P} {node next : NodeState}
    {action : Action} (h : Hears P identity node action next)
    (himport : action.isImport = true) : next.db.otherTotal = node.db.otherTotal := by
  unfold Db.otherTotal
  cases h with
  | own added hevents _ hquiet =>
      rw [hevents, hquiet himport, List.append_nil]
  | imported _ _ _ _ _ added _ _ hevents hwitnesses =>
      rw [hevents, List.countP_append, Nat.add_eq_left, List.countP_eq_zero]
      intro row hrow
      simp [(hwitnesses row hrow).2.1]

/-! ## Pages -/

/-- A node serves its own events. -/
theorem federationBundle_knownEvents {identity : NodeIdentity P} {after : ℤ} {limit : ℕ}
    {now : ℤ} {db : Db} {bundle : FederationBundle}
    (h : federationBundle P identity after limit now db = .ok bundle) :
    bundle.originNodeId = identity.nodeId ∧
      ∀ event ∈ bundle.events, event ∈ db.knownEvents P identity.nodeId identity.nodeId := by
  simp only [federationBundle, bind_eq_ok, pure_eq_ok, Except.ok.injEq] at h
  obtain ⟨-, -, -, -, events, hevents, checkpoint, -, rfl⟩ := h
  refine ⟨rfl, fun event hevent => ?_⟩
  obtain ⟨row, hrow, hread⟩ := (mem_traverse hevents).mp hevent
  unfold Db.knownEvents
  rw [if_pos rfl, List.mem_filterMap]
  exact ⟨row, List.mem_of_mem_filter (List.mem_of_mem_take hrow), toOption_of_ok hread⟩

/-- A relay serves events which it has imported. -/
theorem relayedFederationBundle_importedEvents {origin : String} {after : ℤ} {limit : ℕ}
    {db : Db} {bundle : FederationBundle}
    (h : relayedFederationBundle P origin after limit db = .ok bundle) :
    bundle.originNodeId = origin ∧
      ∀ event ∈ bundle.events, event ∈ db.importedEvents P origin := by
  simp only [relayedFederationBundle, bind_eq_ok, pure_eq_ok, Except.ok.injEq] at h
  obtain ⟨-, -, peer, -, -, -, through, -, row, -, checkpoint, -, events, hevents, -, -, rfl⟩ := h
  refine ⟨rfl, fun event hevent => ?_⟩
  obtain ⟨row, hrow, hread⟩ := (mem_traverse hevents).mp hevent
  unfold Db.importedEvents
  rw [List.mem_filterMap]
  exact ⟨row, List.mem_of_mem_filter hrow, toOption_of_ok hread⟩

/-! ## One step of the network -/

namespace Network

section

variable {ι : Type} [DecidableEq ι] {identity : ι → NodeIdentity P} {network : Network ι}

/-- A step of the network: nothing, the step of one node, or one more page. -/
inductive Moves (identity : ι → NodeIdentity P) (network : Network ι) (step : NetworkStep ι) :
    Network ι → Prop
  | idle : Moves identity network step network
  | act (node : ι) (action : Action)
      (hbundle : ∀ bundle observedAt now appendedAt,
        action = .importBundle bundle observedAt now appendedAt → bundle ∈ network.sent)
      (hexchange : (∀ node action hown, step ≠ .act node action hown) →
        action.isImport = true) :
      Moves identity network step (network.act P identity node action)
  | send (node : ι) (bundle : FederationBundle)
      (hevents : (bundle.originNodeId = (identity node).nodeId ∧
          ∀ event ∈ bundle.events, event ∈ (network.nodes node).db.knownEvents P
            (identity node).nodeId (identity node).nodeId) ∨
        ∀ event ∈ bundle.events,
          event ∈ (network.nodes node).db.importedEvents P bundle.originNodeId) :
      Moves identity network step { network with sent := network.sent ++ [bundle] }

theorem step_moves (identity : ι → NodeIdentity P) (network : Network ι)
    (step : NetworkStep ι) : Moves identity network step (network.step P identity step) := by
  cases step with
  | act node action hown =>
      refine .act node action ?_ fun hother => absurd rfl (hother node action hown)
      rintro bundle observedAt now appendedAt rfl
      cases hown
  | serve node after limit now =>
      simp only [Network.step]
      cases hserved : federationBundle P (identity node) after limit now
          (network.nodes node).db with
      | error e => exact .idle
      | ok bundle => exact .send node bundle (.inl (federationBundle_knownEvents hserved))
  | relay node origin after limit =>
      simp only [Network.step]
      cases hrelayed : relayedFederationBundle P origin after limit (network.nodes node).db with
      | error e => exact .idle
      | ok bundle =>
          obtain ⟨horigin, hevents⟩ := relayedFederationBundle_importedEvents hrelayed
          rw [← horigin] at hevents
          exact .send node bundle (.inr hevents)
  | deliver node index observedAt now appendedAt =>
      simp only [Network.step]
      cases hsent : network.sent[index]? with
      | none => exact .idle
      | some bundle =>
          refine .act node _ ?_ fun _ => rfl
          intro other otherObserved otherNow otherAppended haction
          cases haction
          exact List.mem_of_getElem? hsent

theorem act_nodes (node other : ι) (action : Action) :
    (network.act P identity node action).nodes other =
      if other = node then (network.nodes node).step P (identity node) action
      else network.nodes other := by
  unfold Network.act
  simp only
  rw [Function.update_apply]

/-- A node of the network steps as its actions say, or stays. -/
theorem Moves.node {step : NetworkStep ι} {next : Network ι}
    (h : Moves identity network step next) (other : ι) :
    next.nodes other = network.nodes other ∨ ∃ action,
      next.nodes other = (network.nodes other).step P (identity other) action ∧
      ((∀ node action hown, step ≠ .act node action hown) → action.isImport = true) := by
  cases h with
  | idle => exact .inl rfl
  | send => exact .inl rfl
  | act node action _ hexchange =>
      rw [act_nodes]
      by_cases hother : other = node
      · subst hother
        rw [if_pos rfl]
        exact .inr ⟨action, rfl, hexchange⟩
      · rw [if_neg hother]
        exact .inl rfl

theorem Moves.wrote {step : NetworkStep ι} {next : Network ι}
    (h : Moves identity network step next) {origin : String} {event : OriginEvent}
    (hwrote : network.Wrote P identity origin event) : next.Wrote P identity origin event := by
  obtain ⟨node, hnode, hevent⟩ := hwrote
  refine ⟨node, hnode, ?_⟩
  rcases h.node node with hsame | ⟨action, hstep, -⟩
  · rw [hsame]
    exact hevent
  · rw [hstep]
    exact ((network.nodes node).step_hears (identity node) action).own_mono hevent

/-- The pages, the imported events and the witnesses stay genuine. -/
theorem Moves.genuine {step : NetworkStep ι} {next : Network ι}
    (h : Moves identity network step next) (hgenuine : network.Genuine P identity) :
    next.Genuine P identity := by
  have hwrote := @Moves.wrote P ι _ identity network step next h
  cases h with
  | idle => exact hgenuine
  | send node bundle hevents =>
      refine ⟨?_, fun node origin event hevent => hwrote (hgenuine.imported node origin event
        hevent), hgenuine.witnesses⟩
      intro other hother event hevent
      rcases List.mem_append.mp hother with hold | hnew
      · exact hwrote (hgenuine.sent other hold event hevent)
      · rw [List.mem_singleton.mp hnew] at hevent ⊢
        rcases hevents with ⟨horigin, hown⟩ | himported
        · refine ⟨node, horigin.symm, ?_⟩
          rw [horigin]
          exact hown event hevent
        · exact hwrote (hgenuine.imported node _ event (himported event hevent))
  | act node action hbundle hexchange =>
      have hhears := (network.nodes node).step_hears (identity node) action
      refine ⟨fun bundle hmem event hevent => hwrote (hgenuine.sent bundle hmem event hevent),
        ?_, ?_⟩
      · intro other origin event hevent
        rw [act_nodes] at hevent
        by_cases hother : other = node
        · subst hother
          rw [if_pos rfl] at hevent
          cases hhears with
          | own added _ _ _ horigins =>
              unfold Db.importedEvents at hevent
              rw [horigins] at hevent
              exact hwrote (hgenuine.imported other origin event hevent)
          | imported bundle observedAt now appendedAt fresh added haction hfresh _ _ himported
              hothers =>
              by_cases horigin : origin = bundle.originNodeId
              · rw [horigin, himported] at hevent
                rw [horigin]
                rcases List.mem_append.mp hevent with hold | hnew
                · exact hwrote (hgenuine.imported other _ event hold)
                · exact hwrote (hgenuine.sent bundle (hbundle _ _ _ _ haction) event
                    (hfresh event hnew))
              · unfold Db.importedEvents at hevent
                rw [hothers origin horigin] at hevent
                exact hwrote (hgenuine.imported other origin event hevent)
        · rw [if_neg hother] at hevent
          exact hwrote (hgenuine.imported other origin event hevent)
      · intro other row hrow hkind
        rw [act_nodes] at hrow
        by_cases hother : other = node
        · subst hother
          rw [if_pos rfl] at hrow
          cases hhears with
          | own added hevents hkinds _ _ =>
              rw [hevents] at hrow
              rcases List.mem_append.mp hrow with hold | hnew
              · exact hgenuine.witnesses other row hold hkind
              · exact absurd hkind (hkinds row hnew)
          | imported bundle observedAt now appendedAt fresh added haction hfresh hevents
              hwitnesses _ _ =>
              rw [hevents] at hrow
              rcases List.mem_append.mp hrow with hold | hnew
              · exact hgenuine.witnesses other row hold hkind
              · -- A witness answers an event, whose origin is a node of the network.
                obtain ⟨hsome, -, habout⟩ := hwitnesses row hnew
                obtain ⟨event, hevent⟩ := List.exists_mem_of_ne_nil fresh hsome
                obtain ⟨origin, horigin, -⟩ := hgenuine.sent bundle (hbundle _ _ _ _ haction)
                  event (hfresh event hevent)
                refine ⟨origin, ?_⟩
                rw [horigin]
                exact habout
        · rw [if_neg hother] at hrow
          exact hgenuine.witnesses other row hrow hkind

/-! ## Every schedule -/

theorem run_moves (identity : ι → NodeIdentity P) (schedule : ℕ → NetworkStep ι) (n : ℕ) :
    Moves identity (run P identity schedule n) (schedule n) (run P identity schedule (n + 1)) :=
  step_moves identity _ _

theorem run_genuine (identity : ι → NodeIdentity P) (schedule : ℕ → NetworkStep ι) (n : ℕ) :
    (run P identity schedule n).Genuine P identity := by
  induction n with
  | zero =>
      refine ⟨fun bundle hbundle => ?_, fun node origin event hevent => ?_,
        fun node row hrow => ?_⟩
      · cases hbundle
      · cases hevent
      · cases hrow
  | succ n ih => exact (run_moves identity schedule n).genuine ih

/-- Every node of a network is after a run of its own. -/
theorem run_node (identity : ι → NodeIdentity P) (schedule : ℕ → NetworkStep ι) (n : ℕ)
    (node : ι) :
    ∃ actions, (run P identity schedule n).nodes node =
      NodeState.run P (identity node) actions := by
  induction n with
  | zero => exact ⟨[], rfl⟩
  | succ n ih =>
      obtain ⟨actions, hactions⟩ := ih
      rcases (run_moves identity schedule n).node node with hsame | ⟨action, hstep, -⟩
      · exact ⟨actions, hsame.trans hactions⟩
      · refine ⟨actions ++ [action], ?_⟩
        rw [NodeState.run_append_singleton, hstep, hactions]

/-! ## Counting witnesses -/

/-- The imported events of an origin are all different, and each row holds one. -/
theorem run_importedEvents (identity : NodeIdentity P) (actions : List Action)
    (origin : String) :
    ((NodeState.run P identity actions).db.importedEvents P origin).Nodup ∧
      (NodeState.run P identity actions).db.importedCount origin =
        ((NodeState.run P identity actions).db.importedEvents P origin).countP fun event =>
          event.kind != "checkpoint_witnessed" := by
  obtain ⟨events, himported⟩ := run_recorded P identity actions origin
  have hrows := himported.rows
  have hevents : (NodeState.run P identity actions).db.importedEvents P origin = events :=
    filterMap_rows hrows
  refine ⟨?_, ?_⟩
  · rw [hevents]
    have hchains := run_storedChains P identity actions
    cases hpeer : (NodeState.run P identity actions).db.peer? origin with
    | none =>
        have hnone := (hchains.unknown origin hpeer).1
        rw [hnone] at hrows
        cases hrows
        exact List.nodup_nil
    | some peer =>
        obtain ⟨hmem, hnode⟩ := Db.mem_of_peer? hpeer
        obtain ⟨key, -, -, hlog⟩ := (hchains.chain peer hmem).log
        rw [hnode] at hlog
        refine (pairwise_of_numbered (hlog.chain hrows).numbered).imp ?_
        rintro first second hless rfl
        exact lt_irrefl _ hless
  · rw [hevents]
    unfold Db.importedCount
    exact countP_remoteRows hrows

theorem knownEvents_countP_le (db : Db) (own : String) :
    ((db.knownEvents P own own).countP fun event => event.kind != "checkpoint_witnessed") ≤
      db.otherTotal := by
  unfold Db.knownEvents Db.otherTotal
  rw [if_pos rfl, List.countP_filterMap]
  apply List.countP_mono_left
  intro row _ hread
  cases hevent : originEvent P row with
  | error e =>
      rw [hevent] at hread
      cases hread
  | ok event =>
      have hkind : event.kind = row.kind := by
        unfold originEvent at hevent
        obtain ⟨canonical, -, hmade⟩ := bind_eq_ok.mp hevent
        cases hmade
        rfl
      rw [hevent] at hread
      rw [← hkind]
      exact hread

variable {schedule : ℕ → NetworkStep ι}

theorem run_witnessCount_le (n : ℕ) (node : ι) (origin : String) :
    ((run P identity schedule n).nodes node).db.witnessCount P origin ≤
      ((run P identity schedule n).nodes node).db.importedCount origin := by
  obtain ⟨actions, hactions⟩ := run_node identity schedule n node
  rw [hactions]
  exact run_witnessCount (identity node) actions origin

/-- No node forgets a witness. -/
theorem run_witnessTotal_mono (n : ℕ) (node : ι) :
    ((run P identity schedule n).nodes node).db.witnessTotal ≤
      ((run P identity schedule (n + 1)).nodes node).db.witnessTotal := by
  rcases (run_moves identity schedule n).node node with hsame | ⟨action, hstep, -⟩
  · rw [hsame]
  · obtain ⟨added, hadded⟩ := (((run P identity schedule n).nodes node).step_hears
      (identity node) action).events
    rw [hstep]
    unfold Db.witnessTotal
    rw [hadded, List.countP_append]
    exact Nat.le_add_right _ _

/-- Nodes which only exchange pages log nothing but witnesses. -/
theorem run_otherTotal {n : ℕ} (hexchange : ∀ node action hown,
    schedule n ≠ .act node action hown) (node : ι) :
    ((run P identity schedule (n + 1)).nodes node).db.otherTotal =
      ((run P identity schedule n).nodes node).db.otherTotal := by
  rcases (run_moves identity schedule n).node node with hsame | ⟨action, hstep, himport⟩
  · rw [hsame]
  · rw [hstep]
    exact (((run P identity schedule n).nodes node).step_hears (identity node)
      action).otherTotal_of_import (himport hexchange)

variable [Fintype ι]

/-- A node imports no more events of other kinds than the network has logged. -/
theorem run_importedCount_le (n : ℕ) (node : ι) (origin : String) :
    ((run P identity schedule n).nodes node).db.importedCount origin ≤
      ∑ other with (identity other).nodeId = origin,
        ((run P identity schedule n).nodes other).db.otherTotal := by
  obtain ⟨actions, hactions⟩ := run_node identity schedule n node
  obtain ⟨hnodup, hcount⟩ := run_importedEvents (identity node) actions origin
  rw [← hactions] at hnodup hcount
  rw [hcount, List.countP_eq_length_filter]
  have hcovered : (((((run P identity schedule n).nodes node).db.importedEvents P
        origin).filter fun event => event.kind != "checkpoint_witnessed").length) ≤
      ∑ other with (identity other).nodeId = origin,
        ((((run P identity schedule n).nodes other).db.knownEvents P origin origin).filter
          fun event => event.kind != "checkpoint_witnessed").length := by
    apply Counting.length_le_sum (hnodup.filter _)
    intro event hevent
    obtain ⟨hmem, hkind⟩ := List.mem_filter.mp hevent
    obtain ⟨other, hother, hwrote⟩ :=
      (run_genuine identity schedule n).imported node origin event hmem
    exact ⟨other, by simpa using hother, List.mem_filter.mpr ⟨hwrote, hkind⟩⟩
  refine hcovered.trans (Finset.sum_le_sum fun other _ => ?_)
  rw [← List.countP_eq_length_filter]
  exact knownEvents_countP_le _ _

/-- A node logs no more witnesses than the network has logged events of other
kinds. -/
theorem run_witnessTotal_le (n : ℕ) (node : ι) :
    ((run P identity schedule n).nodes node).db.witnessTotal ≤
      ∑ other, ((run P identity schedule n).nodes other).db.otherTotal := by
  have hlabelled : ((run P identity schedule n).nodes node).db.witnessTotal ≤
      ∑ origin ∈ Finset.univ.image fun other => (identity other).nodeId,
        ((run P identity schedule n).nodes node).db.witnessCount P origin := by
    apply Counting.countP_le_sum
    intro row hrow hkind
    obtain ⟨other, hother⟩ := (run_genuine identity schedule n).witnesses node row hrow (by simpa using hkind)
    exact ⟨_, Finset.mem_image_of_mem _ (Finset.mem_univ other), hother⟩
  calc
    ((run P identity schedule n).nodes node).db.witnessTotal ≤
        ∑ origin ∈ Finset.univ.image fun other => (identity other).nodeId,
          ((run P identity schedule n).nodes node).db.witnessCount P origin := hlabelled
    _ ≤ ∑ origin ∈ Finset.univ.image fun other => (identity other).nodeId,
          ∑ other with (identity other).nodeId = origin,
            ((run P identity schedule n).nodes other).db.otherTotal :=
      Finset.sum_le_sum fun origin _ =>
        (run_witnessCount_le n node origin).trans (run_importedCount_le n node origin)
    _ = ∑ other, ((run P identity schedule n).nodes other).db.otherTotal :=
      Finset.sum_fiberwise_of_maps_to (fun other _ =>
        Finset.mem_image_of_mem _ (Finset.mem_univ other)) _

end

end Network

/-- A node logs no more witnesses about an origin than it has imported events of
other kinds from there.  When the nodes log no more events of other kinds, they
log finitely many more witnesses, however long they go on exchanging pages. -/
theorem network_witnesses {ι : Type} [DecidableEq ι] [Fintype ι] (identity : ι → NodeIdentity P)
    (schedule : ℕ → NetworkStep ι) :
    (∀ n node origin,
      ((Network.run P identity schedule n).nodes node).db.witnessCount P origin ≤
        ((Network.run P identity schedule n).nodes node).db.importedCount origin) ∧
    ∀ start, (∀ n, start ≤ n → ∀ node,
        ((Network.run P identity schedule n).nodes node).db.otherTotal =
          ((Network.run P identity schedule start).nodes node).db.otherTotal) →
      {n | ∃ node, ((Network.run P identity schedule n).nodes node).db.witnessTotal <
        ((Network.run P identity schedule (n + 1)).nodes node).db.witnessTotal}.Finite := by
  refine ⟨fun n node origin => Network.run_witnessCount_le n node origin, ?_⟩
  intro start hquiet
  have hmono : ∀ n, ∑ node, ((Network.run P identity schedule n).nodes node).db.witnessTotal ≤
      ∑ node, ((Network.run P identity schedule (n + 1)).nodes node).db.witnessTotal := fun n =>
    Finset.sum_le_sum fun node _ => Network.run_witnessTotal_mono n node
  have hbound : ∀ n, ∑ node, ((Network.run P identity schedule n).nodes node).db.witnessTotal ≤
      ∑ _node : ι, ∑ other,
        ((Network.run P identity schedule start).nodes other).db.otherTotal := by
    intro n
    refine (monotone_nat_of_le_succ hmono (le_max_left n start)).trans ?_
    refine Finset.sum_le_sum fun node _ => (Network.run_witnessTotal_le _ node).trans ?_
    exact (Finset.sum_congr rfl fun other _ => hquiet _ (le_max_right n start) other).le
  refine (Counting.finite_rises hmono hbound).subset ?_
  rintro n ⟨node, hrises⟩
  exact Finset.sum_lt_sum (fun other _ => Network.run_witnessTotal_mono n other)
    ⟨node, Finset.mem_univ node, hrises⟩

end

namespace Sample

/-- A node registers a lineage and serves its log; the other one imports the
page again and again. -/
def exchange : ℕ → NetworkStep Bool
  | 0 => .act true (.check (.registerLineage firstRegistration) 0) rfl
  | 1 => .act true (.commit 0 0) rfl
  | 2 => .serve true 0 500 0
  | _ => .deliver false 0 0 0 0

def exchangeIdentity (node : Bool) : NodeIdentity library := if node then origin else importer

theorem exchange_ne_act (n : ℕ) (hn : 2 ≤ n) (node : Bool) (action : Action)
    (hown : action.isImport = false) : exchange n ≠ .act node action hown :=
  match n, hn with
  | 2, _ => nofun
  | _ + 3, _ => nofun

theorem exchange_otherTotal (n : ℕ) (hn : 2 ≤ n) (node : Bool) :
    ((Network.run library exchangeIdentity exchange n).nodes node).db.otherTotal =
      ((Network.run library exchangeIdentity exchange 2).nodes node).db.otherTotal := by
  induction n, hn using Nat.le_induction with
  | base => rfl
  | succ n hn ih =>
      exact (Network.run_otherTotal (exchange_ne_act n hn) node).trans ih

instance exchange_witness : Fact (
    ((Network.run library exchangeIdentity exchange 4).nodes false).db.witnessTotal = 1) :=
  ⟨by decide +kernel⟩

/-- The importer logs a witness, and the repeated imports log finitely many. -/
theorem network_witnesses_exchange :
    ((Network.run library exchangeIdentity exchange 4).nodes false).db.witnessTotal = 1 ∧
    {n | ∃ node,
      ((Network.run library exchangeIdentity exchange n).nodes node).db.witnessTotal <
        ((Network.run library exchangeIdentity exchange (n + 1)).nodes node).db.witnessTotal
      }.Finite :=
  ⟨exchange_witness.out, (network_witnesses exchangeIdentity exchange).2 2 exchange_otherTotal⟩

end Sample

end Commonwake
