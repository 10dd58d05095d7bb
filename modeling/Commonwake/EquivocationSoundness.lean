import Commonwake.BundleAuthenticity

/-!
# Evidence against an honest origin

A node which imports pages of one signed log stores a prefix of that log, so
nothing which a relay can offer contradicts what is stored, with one
exception.  The link of the first event of a page is decoded for the check of
the hash, but compared as a text with the stored head, and hexadecimal text
is decoded in either case.  A relay which spells this one field in upper case
makes the node record a fork of an honest origin.
-/

namespace Commonwake

open Outcome HashChain

section

variable (P : Primitives)

/-- The link of the first event is spelled in lower case, when the bundle
starts at the stored head. -/
def LinkIsLower (db : Db) (bundle : FederationBundle) : Prop :=
  bundle.fromCursor = (db.knownHead bundle.originNodeId).1 → 0 < bundle.fromCursor →
    ∀ event ∈ bundle.events.head?,
      HexText.lower event.previousHash = event.previousHash

/-- The bundles of a run which name an origin meet it as an honest one. -/
structure HonestRun (key : Bytes) (log : List OriginEvent) (actions : List Action) :
    Prop where
  honest : ∀ bundle observedAt now appendedAt,
    .importBundle bundle observedAt now appendedAt ∈ actions →
    bundle.originNodeId = P.prefixedId "cwnode_" key → HonestOrigin P key log bundle
  /-- SHA-256: no other key has the id of the origin. -/
  keyCollisionFree : ∀ bundle observedAt now appendedAt,
    .importBundle bundle observedAt now appendedAt ∈ actions →
    ∀ other, P.verifyingKeyFromB64 bundle.originNodePublicKey = .ok other →
      P.sha256 other = P.sha256 key → other = key

/-- Every import of a run from the stored head of an origin spells the link
of its first event in lower case. -/
def LinksAreLower (identity : NodeIdentity P) (origin : String)
    (actions : List Action) : Prop :=
  ∀ before bundle observedAt now appendedAt after,
    actions = before ++ .importBundle bundle observedAt now appendedAt :: after →
    bundle.originNodeId = origin →
    LinkIsLower (NodeState.run P identity before).db bundle

/-- What is stored about an origin is a prefix of its log, and there is no
evidence against it. -/
structure Vindicated (origin : String) (log : List OriginEvent) (db : Db) : Prop where
  chains : StoredChains P db
  hashes : (db.origins origin).remoteEvents.map RemoteEventRow.eventHash <+:
    log.map OriginEvent.eventHash
  noEvidence : ∀ row ∈ db.equivocationEvidence, row.originNodeId ≠ origin

end

section

variable {P : Primitives} {key : Bytes} {log : List OriginEvent}

/-! ## Stored hashes -/

theorem storedHashAt_eq_lastHash {origin : String} {db : Db} {n : ℕ}
    (hnumbered : Numbered RemoteEventRow.originSequence 0
      (db.origins origin).remoteEvents)
    (hn : n ≤ (db.origins origin).remoteEvents.length) :
    storedHashAt origin n db = some (lastHash RemoteEventRow.eventHash zeroHash
      ((db.origins origin).remoteEvents.take n)) := by
  unfold storedHashAt
  cases n with
  | zero => simp
  | succ n =>
      have hne : ((n + 1 : ℕ) : ℤ) ≠ 0 := by omega
      have hlt : n < (db.origins origin).remoteEvents.length := by omega
      rw [if_neg hne, hnumbered.find?_eq (k := n) (by push_cast; ring),
        List.getElem?_eq_getElem hlt, List.take_succ_eq_append_getElem hlt,
        lastHash_append_singleton]
      rfl

/-- The stored head of an origin is the end of its stored log, also when
there is no peer. -/
theorem StoredChains.stored_head {db : Db} (h : StoredChains P db) (origin : String) :
    Numbered RemoteEventRow.originSequence 0 (db.origins origin).remoteEvents ∧
    db.knownHead origin =
      (((db.origins origin).remoteEvents.length : ℤ),
        lastHash RemoteEventRow.eventHash zeroHash
          (db.origins origin).remoteEvents) := by
  unfold Db.knownHead
  cases hpeer : db.peer? origin with
  | none =>
      obtain ⟨hevents, -⟩ := h.unknown origin hpeer
      rw [hevents]
      exact ⟨trivial, rfl⟩
  | some peer =>
      obtain ⟨hmem, hnode⟩ := Db.mem_of_peer? hpeer
      obtain ⟨⟨_, _, _, hlog⟩, hcursor, hhash, -, -⟩ := h.chain peer hmem
      rw [hnode] at hlog hcursor hhash
      exact ⟨hlog.numbered, by simp only [hcursor, hhash]⟩

/-- The stored hash at a cursor is the one of the log. -/
theorem Vindicated.storedHashAt {origin : String} {db : Db}
    (h : Vindicated P origin log db) {cursor : ℤ} (hfrom : 0 ≤ cursor)
    (hcursor : cursor ≤ (db.knownHead origin).1) :
    Commonwake.storedHashAt origin cursor db = some (hashAt log cursor) := by
  obtain ⟨hnumbered, hknown⟩ := h.chains.stored_head origin
  rw [hknown] at hcursor
  obtain ⟨n, rfl⟩ := Int.eq_ofNat_of_zero_le hfrom
  have hn : n ≤ (db.origins origin).remoteEvents.length := by
    simp only at hcursor
    omega
  rw [storedHashAt_eq_lastHash hnumbered hn, hashAt, lastHash_eq_map,
    lastHash_eq_map OriginEvent.eventHash, List.map_take, List.map_take, Int.toNat_natCast]
  obtain ⟨tail, htail⟩ := h.hashes
  rw [← htail, List.take_append_of_le_length (by simpa using hn)]

theorem Vindicated.knownHead_hash {origin : String} {db : Db}
    (h : Vindicated P origin log db) :
    (db.knownHead origin).2 = hashAt log (db.knownHead origin).1 := by
  obtain ⟨-, hknown⟩ := h.chains.stored_head origin
  obtain ⟨tail, htail⟩ := h.hashes
  rw [hknown, hashAt, lastHash_eq_map, lastHash_eq_map OriginEvent.eventHash,
    List.map_take, ← htail, Int.toNat_natCast]
  rw [List.take_append_of_le_length (by simp), List.take_of_length_le (by simp)]

/-! ## A bundle of an honest origin -/

theorem SameEvent.map_eventHash {events logged : List OriginEvent}
    (h : List.Forall₂ (SameEvent P) events logged) :
    events.map OriginEvent.eventHash = logged.map OriginEvent.eventHash := by
  induction h with
  | nil => rfl
  | cons hsame _ ih => rw [List.map_cons, List.map_cons, ih, hsame.eventHash]

theorem SameEvent.exists_logged {events logged : List OriginEvent}
    (h : List.Forall₂ (SameEvent P) events logged) {event : OriginEvent}
    (hevent : event ∈ events) : ∃ entry ∈ logged, SameEvent P event entry := by
  induction h with
  | nil => cases hevent
  | @cons first entry _ _ hsame _ ih =>
      rcases List.mem_cons.mp hevent with rfl | hmem
      · exact ⟨entry, List.mem_cons_self, hsame⟩
      · obtain ⟨other, hother, hrest⟩ := ih hmem
        exact ⟨other, List.mem_cons_of_mem _ hother, hrest⟩

/-- The hash of an event of a bundle is the one of the log at its number. -/
theorem HonestOrigin.eventHash_eq {bundle : FederationBundle} {head : String}
    (honest : HonestOrigin P key log bundle)
    (hverified : VerifiedBundle P bundle key head) {event : OriginEvent}
    (hevent : event ∈ bundle.events) :
    event.eventHash = hashAt log event.sequence := by
  obtain ⟨before, after, hsplit, -, hforall, -⟩ := honest.page hverified
  obtain ⟨logged, hlogged, hsame⟩ := SameEvent.exists_logged hforall hevent
  have hmem : logged ∈ log := by
    have htake : logged ∈ log.take bundle.throughCursor.toNat := by
      rw [hsplit]
      exact List.mem_append_right _ hlogged
    exact List.mem_of_mem_take htake
  have hlast := honest.chain.numbered.lastHash_take hmem OriginEvent.eventHash zeroHash
  rw [sub_zero] at hlast
  rw [hsame.eventHash, hsame.sequence, hashAt, hlast]

/-- The link of an event of a bundle is the hash of the log before it, up to
the case of its letters when it is the first one. -/
theorem HonestOrigin.previousHash_eq {bundle : FederationBundle} {head : String}
    (honest : HonestOrigin P key log bundle)
    (hverified : VerifiedBundle P bundle key head) {event : OriginEvent}
    (hevent : event ∈ bundle.events)
    (hfirst : event.sequence = bundle.fromCursor + 1 →
      head = hashAt log bundle.fromCursor) :
    event.previousHash = hashAt log (event.sequence - 1) := by
  obtain ⟨front, rest, hsplit⟩ := List.append_of_mem hevent
  have hnumbered := hverified.chain.numbered
  have hlinked := hverified.chain.linked
  rw [hsplit] at hnumbered hlinked
  have hsequence := (Numbered.append.mp hnumbered).2.1
  have hlink := (Linked.append.mp hlinked).2.1
  rcases List.eq_nil_or_concat front with hnil | ⟨init, last, heq⟩
  · subst hnil
    simp only [List.length_nil, Nat.cast_zero, add_zero] at hsequence
    rw [lastHash_nil] at hlink
    rw [hlink, hfirst hsequence, hsequence]
    congr 1
    ring
  · rw [List.concat_eq_append] at heq
    subst heq
    rw [lastHash_append_singleton] at hlink
    have hlast : last ∈ bundle.events := by
      rw [hsplit]
      simp
    have hlastSequence : last.sequence = event.sequence - 1 := by
      have hinit := (Numbered.append.mp hnumbered).1
      have hfinal := (Numbered.append.mp hinit).2.1
      rw [List.length_append, List.length_singleton] at hsequence
      push_cast at hsequence
      omega
    rw [hlink, honest.eventHash_eq hverified hlast, hlastSequence]

/-! ## Nothing contradicts what is stored -/

/-- A bundle of an honest origin does not contradict what is stored about
it, unless its first link is spelled in upper case. -/
theorem Vindicated.not_contradicts {bundle : FederationBundle} {head : String} {db : Db}
    (h : Vindicated P bundle.originNodeId log db)
    (honest : HonestOrigin P key log bundle)
    (hverified : VerifiedBundle P bundle key head) (hlower : LinkIsLower db bundle) :
    ¬ Contradicts bundle db := by
  intro hcontradicts
  cases hcontradicts with
  | event event row hevent hrow hknown hhash =>
      have hbounds := hverified.chain.numbered.mem_bounds hevent
      have hfrom := hverified.fromCursor
      have hstored := h.storedHashAt (by omega) hknown
      have hne : event.sequence ≠ 0 := by omega
      rw [Commonwake.storedHashAt, if_neg hne, hrow, Option.map_some,
        Option.some.injEq] at hstored
      rw [hstored, honest.eventHash_eq hverified hevent] at hhash
      exact hhash rfl
  | head event hevent hnext hlink =>
      apply hlink
      have hprevious := honest.previousHash_eq hverified hevent (fun hfirst => by
        -- The first event: its link is the head of the page.
        have hstart : bundle.fromCursor = (db.knownHead bundle.originNodeId).1 := by
          omega
        have hlinkHead : event.previousHash = head :=
          hverified.chain.previousHash_of_first hevent hfirst
        by_cases hzero : bundle.fromCursor = 0
        · rw [hverified.genesis hzero, hzero]
          rfl
        · have hfrom := hverified.fromCursor
          obtain ⟨first, rest, heq⟩ :=
            List.exists_cons_of_ne_nil (List.ne_nil_of_mem hevent)
          have hfirstLink : first.previousHash = head := by
            have hlinked := hverified.chain.linked
            rw [heq] at hlinked
            exact hlinked.head_eq
          have hspelled := hlower hstart (by omega) first (by simp [heq])
          rw [hfirstLink] at hspelled
          rw [← hspelled]
          exact honest.lower_head hverified (List.ne_nil_of_mem hevent))
      rw [hprevious, h.knownHead_hash, hnext]
      congr 1
      ring
  | checkpoint hash hknown hstored hhash =>
      have hfrom := hverified.fromCursor
      have hthrough := hverified.throughCursor
      rw [h.storedHashAt (by omega) hknown, Option.some.injEq] at hstored
      rw [← hstored, (honest.checkpoint hverified).2] at hhash
      exact hhash rfl

/-! ## What an import adds is a part of the log -/

theorem map_eventHash_of_rows {events : List OriginEvent} {rows : List RemoteEventRow}
    (hrows : List.Forall₂ (fun event row => ∃ nonce, row = remoteRow P event nonce)
      events rows) :
    rows.map RemoteEventRow.eventHash = events.map OriginEvent.eventHash := by
  induction hrows with
  | nil => rfl
  | cons hrow _ ih =>
      obtain ⟨nonce, rfl⟩ := hrow
      rw [List.map_cons, List.map_cons, ih]
      rfl

section

variable {identity : NodeIdentity P} {bundle : FederationBundle}
  {witness : CheckpointWitness} {now appendedAt : ℤ} {db next opened : Db}
  {report : FederationImportReport} {head : String} {loop : ImportLoop}
  {fresh : List OriginEvent} {state : ImportState}

/-- The stored hashes after an import are still the first ones of the log. -/
theorem Vindicated.hashes_of_import (h : Vindicated P bundle.originNodeId log db)
    (honest : HonestOrigin P key log bundle)
    (hresult : ImportResult P identity bundle witness now appendedAt db report next key
      head opened loop fresh state) :
    (next.origins bundle.originNodeId).remoteEvents.map RemoteEventRow.eventHash <+:
      log.map OriginEvent.eventHash := by
  obtain ⟨rows, hrows, hevents⟩ := hresult.remoteEvents
  rw [hevents, List.map_append, map_eventHash_of_rows hrows]
  by_cases hnil : fresh = []
  · rw [hnil, List.map_nil, List.append_nil]
    exact h.hashes
  obtain ⟨-, hknown⟩ := h.chains.stored_head bundle.originNodeId
  obtain ⟨⟨overlap, hsplit, -⟩, hnumbered, -, -, -⟩ := hresult.looped
  obtain ⟨before, after, hpage, hbefore, hforall, -⟩ := honest.page hresult.verified
  have hlogged := SameEvent.map_eventHash hforall
  rw [hsplit, List.map_append] at hlogged
  -- The new events begin where the stored ones end.
  have hlength : (db.origins bundle.originNodeId).remoteEvents.length =
      before.length + overlap.length := by
    have hchain := hresult.verified.chain.numbered
    rw [hsplit] at hchain
    obtain ⟨first, rest, heq⟩ := List.exists_cons_of_ne_nil hnil
    rw [heq] at hnumbered hchain
    have hfirst := (Numbered.append.mp hchain).2.1
    have hfresh := hnumbered.1
    rw [hknown] at hfresh
    simp only at hfresh
    omega
  have hlog : log.map OriginEvent.eventHash =
      (before.map OriginEvent.eventHash ++ overlap.map OriginEvent.eventHash) ++
        (fresh.map OriginEvent.eventHash ++
          (log.drop bundle.throughCursor.toNat).map OriginEvent.eventHash) := by
    conv_lhs => rw [← List.take_append_drop bundle.throughCursor.toNat log, hpage]
    rw [List.map_append, List.map_append, ← hlogged]
    simp only [List.append_assoc]
  have hstored : (db.origins bundle.originNodeId).remoteEvents.map
      RemoteEventRow.eventHash =
      before.map OriginEvent.eventHash ++ overlap.map OriginEvent.eventHash := by
    have hhashes := h.hashes
    rw [hlog] at hhashes
    refine List.IsPrefix.eq_of_length (List.prefix_of_prefix_length_le hhashes
      (List.prefix_append _ _) ?_) ?_ <;> simp [hlength]
  rw [hstored, hlog, ← List.append_assoc]
  exact List.prefix_append _ _

/-- An import which succeeds records no evidence. -/
theorem ImportResult.equivocationEvidence
    (hresult : ImportResult P identity bundle witness now appendedAt db report next key
      head opened loop fresh state) :
    next.equivocationEvidence = db.equivocationEvidence := by
  obtain ⟨events, witnesses, imports, hnext⟩ :=
    witnessImport_frame _ _ _ _ _ _ _ _ hresult.witnessed
  have hopened : opened.equivocationEvidence = db.equivocationEvidence := by
    have hopens := hresult.opens
    cases hopens <;> rfl
  simp only at hnext
  rw [hnext, hresult.looped.result, ← hopened]
  rfl

end

/-! ## Runs -/

theorem Vindicated.congr {origin : String} {db next : Db}
    (h : Vindicated P origin log db) (hchains : StoredChains P next)
    (horigin : (next.origins origin).remoteEvents = (db.origins origin).remoteEvents)
    (hevidence : next.equivocationEvidence = db.equivocationEvidence) :
    Vindicated P origin log next :=
  ⟨hchains, by rw [horigin]; exact h.hashes, by rw [hevidence]; exact h.noEvidence⟩

/-- One import keeps an honest origin free of evidence. -/
theorem importFederationBundle_vindicated (identity : NodeIdentity P)
    (bundle : FederationBundle) (observedAt now appendedAt : ℤ) {origin : String}
    {db : Db} (h : Vindicated P origin log db)
    (honest : bundle.originNodeId = origin → HonestOrigin P key log bundle)
    (hkey : ∀ other head, bundle.originNodeId = origin →
      VerifiedBundle P bundle other head → other = key)
    (hlower : bundle.originNodeId = origin → LinkIsLower db bundle) :
    Vindicated P origin log
      (importFederationBundle P identity bundle observedAt now appendedAt db).2 := by
  have hchains := importFederationBundle_storedChains identity bundle observedAt now
    appendedAt h.chains
  unfold importFederationBundle at hchains ⊢
  cases hverify : verifyBundle P bundle with
  | error e => exact h
  | ok =>
      have houtcome := importTransaction_outcome identity bundle
        (makeCheckpointWitness P identity bundle observedAt) now appendedAt db
      rw [hverify] at hchains
      simp only [Db.importFederationBundle] at hchains ⊢
      generalize importTransaction P identity bundle
        (makeCheckpointWitness P identity bundle observedAt) now appendedAt db = outcome
        at houtcome hchains
      cases houtcome with
      | rolledBack e => exact h
      | committed other head message input hverified _ hinput hcontradicts =>
          obtain ⟨rows, heq, hrows⟩ := recordEquivocation_eq (P := P) input db
          have hne : bundle.originNodeId ≠ origin := by
            rintro rfl
            obtain rfl := hkey other head rfl hverified
            exact h.not_contradicts (honest rfl) hverified (hlower rfl) hcontradicts
          refine ⟨hchains, ?_, ?_⟩
          · simp only [heq]
            exact h.hashes
          · simp only [heq]
            intro row hrow
            rcases List.mem_append.mp hrow with hold | hnew
            · exact h.noEvidence row hold
            · rw [hrows row hnew, hinput]
              exact hne
      | done report next other head opened loop fresh state hresult =>
          by_cases horigin : bundle.originNodeId = origin
          · subst horigin
            obtain rfl := hkey other head rfl hresult.verified
            exact ⟨hchains, h.hashes_of_import (honest rfl) hresult,
              by rw [hresult.equivocationEvidence]; exact h.noEvidence⟩
          · exact h.congr hchains
              (by rw [hresult.other_origins (Ne.symm horigin)])
              hresult.equivocationEvidence

theorem Logs.equivocationEvidence {identity : NodeIdentity P} {input : EventInput}
    {appendedAt : ℤ} {db : Db} {result : AcceptedObject × Db}
    (h : Logs P identity input appendedAt db result) :
    result.2.equivocationEvidence = db.equivocationEvidence := by
  obtain ⟨logged, happend, hsame⟩ := h
  obtain ⟨row, hrow⟩ := appendEvent_frame identity input appendedAt db _ happend
  simp only at hrow
  rw [hsame.equivocationEvidence, hrow]

theorem vindicated_init (nodeId origin : String) :
    Vindicated P origin log (Db.init P nodeId) where
  chains := storedChains_init nodeId
  hashes := List.nil_prefix
  noEvidence := by
    intro row hrow
    cases hrow

theorem HonestRun.of_append {actions : List Action} {rest : List Action}
    (h : HonestRun P key log (actions ++ rest)) : HonestRun P key log actions where
  honest bundle observedAt now appendedAt hmem :=
    h.honest bundle observedAt now appendedAt (List.mem_append_left _ hmem)
  keyCollisionFree bundle observedAt now appendedAt hmem :=
    h.keyCollisionFree bundle observedAt now appendedAt (List.mem_append_left _ hmem)

theorem LinksAreLower.of_append {identity : NodeIdentity P} {origin : String}
    {actions rest : List Action}
    (h : LinksAreLower P identity origin (actions ++ rest)) :
    LinksAreLower P identity origin actions := by
  rintro before bundle observedAt now appendedAt after rfl
  exact h before bundle observedAt now appendedAt (after ++ rest) (by simp)

/-- No sequence of imports records evidence against an honest origin, as
long as the links at the stored head are spelled in lower case. -/
theorem run_noEvidence (P : Primitives) (identity : NodeIdentity P) (key : Bytes)
    (log : List OriginEvent) (actions : List Action)
    (honest : HonestRun P key log actions)
    (hlower : LinksAreLower P identity (P.prefixedId "cwnode_" key) actions) :
    ∀ row ∈ (NodeState.run P identity actions).db.equivocationEvidence,
      row.originNodeId ≠ P.prefixedId "cwnode_" key := by
  suffices hvindicated : Vindicated P (P.prefixedId "cwnode_" key) log
      (NodeState.run P identity actions).db from hvindicated.noEvidence
  induction actions using List.reverseRecOn with
  | nil => exact vindicated_init identity.nodeId _
  | append_singleton actions action ih =>
      have hbefore := ih (honest.of_append) (hlower.of_append)
      rw [NodeState.run_append_singleton]
      have hmoves := (NodeState.run P identity actions).step_moves identity action
      generalize ((NodeState.run P identity actions).step P identity action).db = next
        at hmoves
      cases hmoves with
      | stay => exact hbefore
      | log _ input appendedAt accepted next hlogs =>
          obtain ⟨hpeers, horigins⟩ := hlogs.federation
          exact hbefore.congr (hbefore.chains.congr hpeers horigins)
            (by rw [horigins]) hlogs.equivocationEvidence
      | derive _ next hsame =>
          exact hbefore.congr (hbefore.chains.congr hsame.peers hsame.origins)
            (by rw [hsame.origins]) hsame.equivocationEvidence
      | importBundle bundle observedAt now appendedAt =>
          refine importFederationBundle_vindicated identity bundle observedAt now
            appendedAt hbefore
            (honest.honest bundle observedAt now appendedAt (by simp)) ?_ ?_
          · intro other head horigin hverified
            have hid : P.prefixedId "cwnode_" other = P.prefixedId "cwnode_" key := by
              rw [hverified.nodeId, horigin]
            exact honest.keyCollisionFree bundle observedAt now appendedAt (by simp) other
              hverified.publicKey (P.sha256_eq_of_prefixedId_eq hid)
          · exact hlower actions bundle observedAt now appendedAt [] rfl

end

/-! ## A fork which is none -/

namespace Sample

theorem verifyingKey_origin {other : Bytes}
    (h : library.verifyingKeyFromB64 origin.publicKey = .ok other) :
    other = library.publicKey origin.secret := by
  have horigin : library.verifyingKeyFromB64 origin.publicKey =
      .ok (library.publicKey origin.secret) :=
    library.verifyingKeyFromB64_publicKey origin.secret
  rw [horigin] at h
  exact (Except.ok.inj h).symm

/-- The first page of the log is imported without evidence. -/
theorem run_noEvidence_firstBundle :
    verifyBundle library firstBundle = .ok () ∧
    ∀ row ∈ (NodeState.run library importer
        [.importBundle firstBundle 0 0 0]).db.equivocationEvidence,
      row.originNodeId ≠ library.prefixedId "cwnode_" (library.publicKey origin.secret) := by
  refine ⟨verifyBundle_firstBundle.out, run_noEvidence library importer _ [firstEvent] _
    ⟨?_, ?_⟩ ?_⟩
  · intro bundle observedAt now appendedAt hmem _
    cases List.mem_singleton.mp hmem
    exact firstBundle_honest
  · intro bundle observedAt now appendedAt hmem other hkey _
    cases List.mem_singleton.mp hmem
    exact verifyingKey_origin hkey
  · intro before bundle observedAt now appendedAt after heq _ _ hpositive
    have hmem : Action.importBundle bundle observedAt now appendedAt ∈
        [Action.importBundle firstBundle 0 0 0] := by
      rw [heq]
      simp
    cases List.mem_singleton.mp hmem
    exact absurd hpositive (by decide)

/-- A second registration in the log of the origin. -/
def secondEvent : OriginEvent :=
  registrationEvent 2
    (library.eventHash zeroBytes (canonicalOriginRecord library firstEvent))
    (registration [3] "Second" "fedcba9876543210" 0)

/-- The text in upper case. -/
def shout (text : String) : String :=
  TextBytes.ofChars ((TextBytes.chars text).map Char.toUpper)

def bothBundle : FederationBundle :=
  ⟨protocolVersion, origin.nodeId, origin.publicKey, 0, 2, [firstEvent, secondEvent],
    checkpointOf origin 2 secondEvent.eventHash⟩

/-- The second page of the log, whose only link is spelled in upper case. -/
def shoutedBundle : FederationBundle :=
  ⟨protocolVersion, origin.nodeId, origin.publicKey, 1, 2,
    [{ secondEvent with previousHash := shout secondEvent.previousHash }],
    checkpointOf origin 2 secondEvent.eventHash⟩

/-- Both events verify, the shouted link is read as the link, the events have two digests,
and the importer records the second page as a fork. -/
instance fork_shoutedBundle : Fact (
    verifyBundle library bothBundle = .ok () ∧
    HexText.decode (shout secondEvent.previousHash) =
      HexText.decode secondEvent.previousHash ∧
    library.sha256 (eventHashInput library firstEvent) ≠
      library.sha256 (eventHashInput library secondEvent) ∧
    (NodeState.run library importer
      [.importBundle firstBundle 0 0 0,
        .importBundle shoutedBundle 0 0 0]).db.equivocationEvidence.map
          EquivocationRow.originNodeId = [origin.nodeId]) :=
  ⟨by decide +kernel⟩

/-- The spelling of a link is not hashed. -/
theorem eventHashInput_congr (event : OriginEvent) {link : String}
    (h : HexText.decode link = HexText.decode event.previousHash) :
    eventHashInput library { event with previousHash := link } =
      eventHashInput library event := by
  unfold eventHashInput
  rw [h]
  rfl

theorem bothEvents_collisionFree : Set.InjOn library.sha256
    {bytes | ∃ logged ∈ [firstEvent, secondEvent],
      bytes = eventHashInput library logged} := by
  rintro first ⟨event, hevent, rfl⟩ second ⟨logged, hlogged, rfl⟩ hdigest
  simp only [List.mem_cons, List.not_mem_nil, or_false] at hevent hlogged
  rcases hevent with rfl | rfl <;> rcases hlogged with rfl | rfl
  · rfl
  · exact absurd hdigest fork_shoutedBundle.out.2.2.1
  · exact absurd hdigest.symm fork_shoutedBundle.out.2.2.1
  · rfl

/-- The relay of this run frames an honest origin. -/
theorem run_records_fork :
    HonestRun library (library.publicKey origin.secret) [firstEvent, secondEvent]
      [.importBundle firstBundle 0 0 0, .importBundle shoutedBundle 0 0 0] ∧
    ∃ row ∈ (NodeState.run library importer [.importBundle firstBundle 0 0 0,
        .importBundle shoutedBundle 0 0 0]).db.equivocationEvidence,
      row.originNodeId = library.prefixedId "cwnode_" (library.publicKey origin.secret) := by
  have hchain : AuthenticChain library (library.publicKey origin.secret) 0 zeroHash
      [firstEvent, secondEvent] := chain_of_verifyBundle fork_shoutedBundle.out.1 rfl rfl
  refine ⟨⟨?_, ?_⟩, ?_⟩
  · intro bundle observedAt now appendedAt hmem _
    simp only [List.mem_cons, List.not_mem_nil, or_false] at hmem
    rcases hmem with heq | heq
    · cases heq
      refine honestOrigin_of_page hchain (by decide) rfl ?_ bothEvents_collisionFree
      intro event hevent
      rw [List.mem_singleton.mp hevent]
      exact ⟨firstEvent, by simp, rfl⟩
    · cases heq
      refine honestOrigin_of_page hchain (by decide) rfl ?_ bothEvents_collisionFree
      intro event hevent
      rw [List.mem_singleton.mp hevent]
      refine ⟨secondEvent, by simp, ?_⟩
      exact eventHashInput_congr secondEvent fork_shoutedBundle.out.2.1
  · intro bundle observedAt now appendedAt hmem other hkey _
    simp only [List.mem_cons, List.not_mem_nil, or_false] at hmem
    rcases hmem with heq | heq
    · cases heq
      exact verifyingKey_origin hkey
    · cases heq
      exact verifyingKey_origin hkey
  · have hmem : origin.nodeId ∈ (NodeState.run library importer
        [.importBundle firstBundle 0 0 0,
          .importBundle shoutedBundle 0 0 0]).db.equivocationEvidence.map
          EquivocationRow.originNodeId := by
      rw [fork_shoutedBundle.out.2.2.2]
      exact List.mem_singleton_self _
    obtain ⟨row, hrow, horigin⟩ := List.mem_map.mp hmem
    exact ⟨row, hrow, horigin⟩

end Sample

end Commonwake
