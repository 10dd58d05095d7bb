import Commonwake.OriginChain
import Commonwake.SampleNode

/-!
# A verified bundle is a page of the origin's log

The number of an event is not part of what is hashed.  Its place is bound
only by the signed checkpoint at the end of the bundle, from which the hash
chain is followed backwards: entries with the same hash have the same content
and the same predecessor.

The assumptions on the origin are those of the threat model.  Its key has
signed nothing but the hashes of one log, checkpoints of that log, and
witnesses of other logs; and no signature in the bundle is a forgery.  Since
the digest has only finitely many values, it is assumed to be free of
collisions on the texts which are hashed here, and not on all texts.
-/

namespace Commonwake

open Outcome HashChain

section

variable (P : Primitives)

/-- The hash of a log at a cursor. -/
def hashAt (log : List OriginEvent) (cursor : ℤ) : String :=
  lastHash OriginEvent.eventHash zeroHash (log.take cursor.toNat)

/-- What the key of an origin has signed. -/
inductive OriginSigned (log : List OriginEvent) : Bytes → Prop
  | event (event : OriginEvent) (hash : Bytes) (hevent : event ∈ log)
      (hhash : event.eventHash = HexText.encode hash) : OriginSigned log hash
  | checkpoint (checkpoint : Checkpoint) (hfrom : 0 ≤ checkpoint.cursor)
      (hthrough : checkpoint.cursor ≤ log.length)
      (hhash : checkpoint.eventHash = hashAt log checkpoint.cursor) :
      OriginSigned log (P.signingPreimage checkpointDomain (checkpoint.toJson P))
  | witness (value : Json) : OriginSigned log (P.signingPreimage witnessDomain value)

/-- The bytes which are hashed for an event. -/
def eventHashInput (event : OriginEvent) : Bytes :=
  logDomain ++ (HexText.decode event.previousHash).getD [] ++
    canonicalOriginRecord P event

/-- The messages of a bundle with the signatures it presents for them. -/
def FederationBundle.presented (bundle : FederationBundle) : List (Bytes × String) :=
  (P.signingPreimage checkpointDomain (bundle.checkpoint.toJson P),
      bundle.checkpoint.signature) ::
    bundle.events.map fun event =>
      (P.sha256 (eventHashInput P event), event.nodeSignature)

/-- An origin with one log, as a bundle which names it meets it. -/
structure HonestOrigin (key : Bytes) (log : List OriginEvent)
    (bundle : FederationBundle) : Prop where
  /-- The log is numbered, linked and signed. -/
  chain : AuthenticChain P key 0 zeroHash log
  /-- Ed25519: a presented signature which verifies was made by the origin. -/
  unforgeable : ∀ message text, (message, text) ∈ bundle.presented P →
    ∀ signature, P.signatureFromB64 text = .ok signature →
      P.verify key message signature = true → OriginSigned P log message
  /-- SHA-256: the events of the log and of the bundle do not collide. -/
  collisionFree : Set.InjOn P.sha256
    {bytes | ∃ event ∈ log ++ bundle.events, bytes = eventHashInput P event}
  /-- RFC 8785: the cursor of the bundle is written apart from the cursors of
  the log, as all cursors below 2^53 are. -/
  cursorsApart : ∀ cursor : ℤ, 0 ≤ cursor → cursor ≤ log.length →
    P.canonNumber (.int bundle.throughCursor) = P.canonNumber (.int cursor) →
    bundle.throughCursor = cursor

/-- The event of a bundle is the one which was logged, up to the canonical
form of its object. -/
structure SameEvent (event logged : OriginEvent) : Prop where
  sequence : event.sequence = logged.sequence
  eventId : event.eventId = logged.eventId
  kind : event.kind = logged.kind
  lineageId : event.lineageId = logged.lineageId
  delegationId : event.delegationId = logged.delegationId
  createdAt : event.createdAt = logged.createdAt
  receivedAt : event.receivedAt = logged.receivedAt
  canonical : P.canon event.canonical = P.canon logged.canonical
  eventHash : event.eventHash = logged.eventHash

end

section

variable {P : Primitives} {key : Bytes}

/-! ## What a hash determines -/

/-- The fields of a record are determined by its bytes. -/
theorem logRecord_inj {kind kind' createdAt createdAt' receivedAt receivedAt' : String}
    {lineageId lineageId' delegationId delegationId' : Option String}
    {canonical canonical' : Json}
    (h : logRecord P kind lineageId delegationId createdAt receivedAt canonical =
      logRecord P kind' lineageId' delegationId' createdAt' receivedAt' canonical') :
    kind = kind' ∧ lineageId = lineageId' ∧ delegationId = delegationId' ∧
      createdAt = createdAt' ∧ receivedAt = receivedAt' ∧
      P.canon canonical = P.canon canonical' := by
  have hcanon := P.jcs_eq_iff.mp (utf8_injective h)
  have hnull : ∀ text : Option String,
      P.canon (Serde.nullOr Json.string text) = Serde.nullOr Json.string text :=
    canon_nullOr P fun _ => rfl
  have hinj : ∀ a b : Option String,
      Serde.nullOr Json.string a = Serde.nullOr Json.string b → a = b := by
    intro a b hab
    cases a <;> cases b <;> simp_all [Serde.nullOr]
  simp only [Primitives.canon_object, List.map_cons, List.map_nil, hnull,
    Primitives.canon_string, Json.object.injEq, List.cons.injEq, Prod.mk.injEq,
    Json.string.injEq, and_true, true_and] at hcanon
  obtain ⟨hcanonical, hcreated, hdelegation, hkind, hlineage, hreceived⟩ := hcanon
  exact ⟨hkind, hinj _ _ hlineage, hinj _ _ hdelegation, hcreated, hreceived,
    hcanonical⟩

theorem AuthenticEvent.decode_eq {event : OriginEvent}
    (h : AuthenticEvent P key event) :
    HexText.decode event.eventHash = some (P.sha256 (eventHashInput P event)) := by
  obtain ⟨previous, hdecode, -, hhash, -⟩ := h.hash
  rw [hhash, HexText.decode_encode]
  simp [Primitives.eventHash, eventHashInput, hdecode]

/-- Two authentic events with the same digest have the same content and the
same predecessor. -/
theorem AuthenticEvent.eq_of_digest {event logged : OriginEvent}
    (hevent : AuthenticEvent P key event) (hlogged : AuthenticEvent P key logged)
    (hcollision : P.sha256 (eventHashInput P event) =
      P.sha256 (eventHashInput P logged) →
      eventHashInput P event = eventHashInput P logged)
    (hhash : HexText.decode event.eventHash = HexText.decode logged.eventHash) :
    (event.sequence = logged.sequence → SameEvent P event logged) ∧
      HexText.decode event.previousHash = HexText.decode logged.previousHash := by
  rw [hevent.decode_eq, hlogged.decode_eq, Option.some.injEq] at hhash
  have hinput := hcollision hhash
  obtain ⟨previous, hprevious, hlength, heventHash, -⟩ := hevent.hash
  obtain ⟨previous', hprevious', hlength', hloggedHash, -⟩ := hlogged.hash
  have hsplit : previous = previous' ∧
      canonicalOriginRecord P event = canonicalOriginRecord P logged := by
    simp only [eventHashInput, hprevious, hprevious', Option.getD_some,
      List.append_assoc, List.append_cancel_left_eq] at hinput
    exact List.append_inj hinput (hlength.trans hlength'.symm)
  obtain ⟨hprev, hrecord⟩ := hsplit
  obtain ⟨hkind, hlineage, hdelegation, hcreated, hreceived, hcanonical⟩ :=
    logRecord_inj hrecord
  refine ⟨fun hsequence => ⟨hsequence, ?_, hkind, hlineage, hdelegation, hcreated,
    hreceived, hcanonical, ?_⟩, ?_⟩
  · rw [hevent.contentId, hlogged.contentId, P.jcs_eq_iff.mpr hcanonical]
  · rw [heventHash, hloggedHash, hprev, hrecord]
  · rw [hprevious, hprevious', hprev]

/-! ## What a checkpoint determines -/

theorem signingPreimage_checkpoint_inj {first second : Checkpoint}
    (h : P.signingPreimage checkpointDomain (first.toJson P) =
      P.signingPreimage checkpointDomain (second.toJson P)) :
    P.canonNumber (.int first.cursor) = P.canonNumber (.int second.cursor) ∧
      first.eventHash = second.eventHash := by
  have htext := List.append_cancel_left h
  rw [List.cons.injEq] at htext
  have hcanon := P.jcs_eq_iff.mp (utf8_injective htext.2)
  simp only [Checkpoint.toJson, Json.remove, List.filter, String.reduceBNe,
    Primitives.canon_object, List.map_cons, List.map_nil, Serde.int,
    Primitives.canon_number, Primitives.canon_string, canon_dateTime,
    Json.object.injEq, List.cons.injEq, Prod.mk.injEq, Json.string.injEq,
    Json.number.injEq, and_true, true_and] at hcanon
  exact ⟨hcanon.2.1, hcanon.2.2.1⟩

/-- The id of a node is longer than its prefix. -/
theorem length_nodeId (key : Bytes) :
    8 ≤ (utf8 (P.prefixedId "cwnode_" key)).length := by
  have hdigest : (utf8 (P.sha256Hex key)).length ≠ 0 := by
    intro hzero
    have htext : P.sha256Hex key = "" :=
      utf8_injective (List.eq_nil_of_length_eq_zero hzero)
    have hbytes : P.sha256 key = [] := HexText.encode_injective htext
    have hlength := P.sha256_length key
    rw [hbytes] at hlength
    cases hlength
  have htag : (utf8 "cwnode_").length = 7 := by decide
  rw [Primitives.prefixedId, utf8_append, List.length_append, htag]
  omega

/-- The preimage of a checkpoint is longer than a digest. -/
theorem length_signingPreimage_checkpoint (checkpoint : Checkpoint)
    (hnode : 8 ≤ (utf8 checkpoint.nodeId).length) :
    32 < (P.signingPreimage checkpointDomain (checkpoint.toJson P)).length := by
  have hmem : ("node_id", Json.string checkpoint.nodeId) ∈
      [("created_at", dateTime P checkpoint.createdAt),
        ("cursor", Serde.int checkpoint.cursor),
        ("event_hash", Json.string checkpoint.eventHash),
        ("node_id", Json.string checkpoint.nodeId),
        ("node_public_key", Json.string checkpoint.nodePublicKey)] := by
    simp
  have hlength := P.length_jcs _ _ _ hmem
  have htext : P.canonicalWithoutSignature (checkpoint.toJson P) =
      P.jcs (.object [("created_at", dateTime P checkpoint.createdAt),
        ("cursor", Serde.int checkpoint.cursor),
        ("event_hash", Json.string checkpoint.eventHash),
        ("node_id", Json.string checkpoint.nodeId),
        ("node_public_key", Json.string checkpoint.nodePublicKey)]) := rfl
  have hdomain : (utf8 checkpointDomain).length = 24 := by decide
  rw [Primitives.signingPreimage, List.length_append, List.length_cons, htext, hdomain]
  omega

/-- A checkpoint and a witness are signed in different domains. -/
theorem signingPreimage_checkpoint_ne_witness (first second : Json) :
    P.signingPreimage checkpointDomain first ≠
      P.signingPreimage witnessDomain second := by
  intro h
  have hbyte := congrArg (fun bytes => bytes[21]?) h
  simp only [Primitives.signingPreimage] at hbyte
  rw [List.getElem?_append_left (by decide), List.getElem?_append_left (by decide)]
    at hbyte
  exact absurd hbyte (by decide)

/-- The checkpoint of a verified bundle is one of the log. -/
theorem HonestOrigin.checkpoint {log : List OriginEvent} {bundle : FederationBundle}
    {head : String} (honest : HonestOrigin P key log bundle)
    (hverified : VerifiedBundle P bundle key head) :
    bundle.throughCursor ≤ log.length ∧
      bundle.checkpoint.eventHash = hashAt log bundle.throughCursor := by
  have hcheck := hverified.checkpointVerified
  unfold verifyCheckpoint Primitives.verifyObject at hcheck
  simp only [bind_eq_ok, rejectIf_eq_ok, not_not, Bool.not_eq_false] at hcheck
  obtain ⟨key', hkey, -, hnode, signature, hsignature, hverify⟩ := hcheck
  rw [hverified.checkpointKey, hverified.publicKey] at hkey
  cases hkey
  have hsigned := honest.unforgeable _ _ List.mem_cons_self signature hsignature hverify
  generalize hpreimage : P.signingPreimage checkpointDomain
    (bundle.checkpoint.toJson P) = message at hsigned
  cases hsigned with
  | event event hash hevent hhash =>
      -- A digest is shorter than the preimage of a checkpoint.
      exfalso
      obtain ⟨previous, -, -, heventHash, -⟩ := (honest.chain.authentic event hevent).hash
      have hdigest : message.length = 32 := by
        rw [heventHash] at hhash
        rw [← HexText.encode_injective hhash]
        exact P.eventHash_length _ _
      have hid : 8 ≤ (utf8 bundle.checkpoint.nodeId).length := by
        rw [← hnode]
        exact length_nodeId key
      have hlong : 32 < (P.signingPreimage checkpointDomain
          (bundle.checkpoint.toJson P)).length :=
        length_signingPreimage_checkpoint bundle.checkpoint hid
      rw [hpreimage] at hlong
      omega
  | witness value =>
      exact absurd hpreimage (signingPreimage_checkpoint_ne_witness _ _)
  | checkpoint checkpoint hfrom hthrough hhash =>
      obtain ⟨hcursor, heventHash⟩ := signingPreimage_checkpoint_inj hpreimage
      rw [hverified.checkpointCursor] at hcursor
      have hsame := honest.cursorsApart checkpoint.cursor hfrom hthrough hcursor
      rw [hsame, heventHash]
      exact ⟨hthrough, hhash⟩

/-! ## Positions -/

/-- The events of a verified bundle of an honest origin, as the lists before
and after them in the log. -/
theorem HonestOrigin.page {log : List OriginEvent} {bundle : FederationBundle}
    {head : String} (honest : HonestOrigin P key log bundle)
    (hverified : VerifiedBundle P bundle key head) :
    ∃ before after, log.take bundle.throughCursor.toNat = before ++ after ∧
      (before.length : ℤ) = bundle.fromCursor ∧
      List.Forall₂ (SameEvent P) bundle.events after ∧
      (bundle.events ≠ [] → HexText.decode head =
        HexText.decode (lastHash OriginEvent.eventHash zeroHash before)) := by
  obtain ⟨hthrough, hcheckpoint⟩ := honest.checkpoint hverified
  have hfrom := hverified.fromCursor
  have hlength := hverified.throughCursor
  have hlower : AuthenticChain P key 0 zeroHash (log.take bundle.throughCursor.toNat) := by
    have hsplit := honest.chain
    rw [← List.take_append_drop bundle.throughCursor.toNat log] at hsplit
    obtain ⟨hnumbered, hlinked, hauthentic⟩ := hsplit
    exact ⟨(Numbered.append.mp hnumbered).1, (Linked.append.mp hlinked).1,
      fun event hmem => hauthentic event (List.mem_append_left _ hmem)⟩
  have htake : (log.take bundle.throughCursor.toNat).length =
      bundle.throughCursor.toNat := by
    rw [List.length_take]
    omega
  -- Follow the chain backwards from the checkpoint, comparing digests.
  obtain ⟨before, after, hsplit, hforall, hhead⟩ :=
    (hverified.chain.linked.map HexText.decode).suffix_of_lastHash_eq
      (hlower.linked.map HexText.decode)
      (R := fun event logged => event.sequence = logged.sequence →
        SameEvent P event logged)
      (by
        intro event hevent logged hlogged hhash
        refine (hverified.chain.authentic event hevent).eq_of_digest
          (hlower.authentic logged hlogged) ?_ hhash
        intro hdigest
        refine honest.collisionFree ⟨event, List.mem_append_right _ hevent, rfl⟩
          ⟨logged, ?_, rfl⟩ hdigest
        exact List.mem_append_left _ (List.mem_of_mem_take hlogged))
      (by rw [htake]; omega)
      (by
        intro hne
        rw [lastHash_map, lastHash_map, ← hverified.checkpointHash (.inl hne),
          hcheckpoint, hashAt])
  have hbefore : (before.length : ℤ) = bundle.fromCursor := by
    have hsum := congrArg List.length hsplit
    rw [htake, List.length_append, ← hforall.length_eq] at hsum
    omega
  refine ⟨before, after, hsplit, hbefore, ?_, ?_⟩
  · refine Numbered.forall₂ hforall hverified.chain.numbered ?_
    have hnumbered := hlower.numbered
    rw [hsplit] at hnumbered
    have hafter := (Numbered.append.mp hnumbered).2
    rwa [zero_add, hbefore] at hafter
  · intro hne
    rw [hhead hne, lastHash_map]

/-- The hash of a log at a cursor is the text of a digest. -/
theorem AuthenticChain.hashAt_eq_encode {log : List OriginEvent}
    (hchain : AuthenticChain P key 0 zeroHash log) (cursor : ℤ) :
    ∃ bytes, hashAt log cursor = HexText.encode bytes := by
  unfold hashAt
  rcases List.eq_nil_or_concat (log.take cursor.toNat) with hnil | ⟨front, last, heq⟩
  · rw [hnil, lastHash_nil, ← encode_zeroBytes]
    exact ⟨zeroBytes, rfl⟩
  · have hmem : last ∈ log := by
      apply List.mem_of_mem_take (i := cursor.toNat)
      rw [heq]
      simp
    obtain ⟨previous, -, -, hhash, -⟩ := (hchain.authentic last hmem).hash
    rw [heq, List.concat_eq_append, lastHash_append_singleton]
    exact ⟨_, hhash⟩

/-- The link of the first event is the hash of the log before the bundle, up
to the case of its letters. -/
theorem HonestOrigin.lower_head {log : List OriginEvent} {bundle : FederationBundle}
    {head : String} (honest : HonestOrigin P key log bundle)
    (hverified : VerifiedBundle P bundle key head) (hevents : bundle.events ≠ []) :
    HexText.lower head = hashAt log bundle.fromCursor := by
  obtain ⟨before, after, hsplit, hbefore, -, hhead⟩ := honest.page hverified
  have htake : log.take bundle.fromCursor.toNat = before := by
    have hlog : log = before ++ (after ++ log.drop bundle.throughCursor.toNat) := by
      rw [← List.append_assoc, ← hsplit, List.take_append_drop]
    have hfrom : bundle.fromCursor.toNat = before.length := by omega
    rw [hlog, hfrom, List.take_left]
  have hdecode : HexText.decode head =
      HexText.decode (hashAt log bundle.fromCursor) := by
    rw [hhead hevents, hashAt, htake]
  exact HexText.lower_eq_of_decode_eq hdecode (honest.chain.hashAt_eq_encode _)

/-- The events of a verified bundle of an honest origin are the events of its
log with these numbers, and the first one links to the event before them. -/
theorem verifyBundle_authentic {log : List OriginEvent} {bundle : FederationBundle}
    (honest : HonestOrigin P key log bundle)
    (hkey : P.verifyingKeyFromB64 bundle.originNodePublicKey = .ok key)
    (hverify : verifyBundle P bundle = .ok ()) (hevents : bundle.events ≠ []) :
    bundle.throughCursor ≤ log.length ∧
    List.Forall₂ (SameEvent P) bundle.events
      ((log.drop bundle.fromCursor.toNat).take bundle.events.length) ∧
    (bundle.throughCursor = bundle.fromCursor + bundle.events.length) ∧
    HexText.lower (bundle.events.head hevents).previousHash =
      hashAt log bundle.fromCursor := by
  obtain ⟨key', head, hverified⟩ := verifyBundle_eq_ok hverify
  rw [hverified.publicKey] at hkey
  cases hkey
  obtain ⟨before, after, hsplit, hbefore, hforall, -⟩ := honest.page hverified
  obtain ⟨hthrough, -⟩ := honest.checkpoint hverified
  have hdrop : (log.drop bundle.fromCursor.toNat).take bundle.events.length = after := by
    have hlog : log = before ++ (after ++ log.drop bundle.throughCursor.toNat) := by
      rw [← List.append_assoc, ← hsplit, List.take_append_drop]
    have hfrom : bundle.fromCursor.toNat = before.length := by omega
    rw [hlog, hfrom, List.drop_left, hforall.length_eq, List.take_left]
  refine ⟨hthrough, by rw [hdrop]; exact hforall, hverified.throughCursor, ?_⟩
  have hlink : (bundle.events.head hevents).previousHash = head := by
    have hlinked := hverified.chain.linked
    obtain ⟨first, rest, heq⟩ := List.exists_cons_of_ne_nil hevents
    simp only [heq, List.head_cons]
    rw [heq] at hlinked
    exact hlinked.1
  rw [hlink]
  exact honest.lower_head hverified hevents

end

/-! ## A page with one event -/

namespace Sample

/-- An event with its hash, its id and its signature. -/
def sealed (identity : NodeIdentity library) (previous : Bytes) (event : OriginEvent) :
    OriginEvent :=
  let hash := library.eventHash previous (canonicalOriginRecord library event)
  { event with
    eventId := library.prefixedId "cwevt_" (utf8 (library.jcs event.canonical))
    previousHash := HexText.encode previous
    eventHash := HexText.encode hash
    nodeSignature := identity.signHash hash }

def registrationEvent (sequence : ℤ) (previous : Bytes)
    (registration : LineageRegistration) : OriginEvent :=
  sealed origin previous ⟨sequence, "", "lineage_registered", none, none,
    timestamp registration.createdAt, timestamp registration.createdAt,
    registration.toJson library, "", "", ""⟩

def firstEvent : OriginEvent :=
  registrationEvent 1 zeroBytes firstRegistration

def checkpointOf (identity : NodeIdentity library) (cursor : ℤ) (hash : String) :
    Checkpoint :=
  let checkpoint := unsignedCheckpoint library identity cursor hash 0
  { checkpoint with
    signature := library.signObject identity.secret checkpointDomain
      (checkpoint.toJson library) }

/-- The bundle of a log with one event. -/
def firstBundle : FederationBundle :=
  ⟨protocolVersion, origin.nodeId, origin.publicKey, 0, 1, [firstEvent],
    checkpointOf origin 1 firstEvent.eventHash⟩

instance verifyBundle_firstBundle : Fact (verifyBundle library firstBundle = .ok ()) :=
  ⟨by decide +kernel⟩

/-- The bundle of a log from its beginning is evidence for the log. -/
theorem chain_of_verifyBundle {bundle : FederationBundle}
    (hverify : verifyBundle library bundle = .ok ())
    (hkey : bundle.originNodePublicKey = origin.publicKey) (hfrom : bundle.fromCursor = 0) :
    AuthenticChain library (library.publicKey origin.secret) 0 zeroHash bundle.events := by
  obtain ⟨key, head, hverified⟩ := verifyBundle_eq_ok hverify
  have hpublicKey := hverified.publicKey
  have horigin : library.verifyingKeyFromB64 origin.publicKey =
      .ok (library.publicKey origin.secret) :=
    library.verifyingKeyFromB64_publicKey origin.secret
  rw [hkey, horigin] at hpublicKey
  cases hpublicKey
  have hchain := hverified.chain
  rwa [hverified.genesis hfrom, hfrom] at hchain

/-- A bundle which presents events and a checkpoint of a log meets its origin
as an honest one. -/
theorem honestOrigin_of_page {key : Bytes} {log : List OriginEvent}
    {bundle : FederationBundle} (hchain : AuthenticChain library key 0 zeroHash log)
    (hcursor : 0 ≤ bundle.checkpoint.cursor ∧ bundle.checkpoint.cursor ≤ log.length)
    (hcheckpoint : bundle.checkpoint.eventHash = hashAt log bundle.checkpoint.cursor)
    (hevents : ∀ event ∈ bundle.events, ∃ logged ∈ log,
      eventHashInput library event = eventHashInput library logged)
    (hcollision : Set.InjOn library.sha256
      {bytes | ∃ logged ∈ log, bytes = eventHashInput library logged}) :
    HonestOrigin library key log bundle where
  chain := hchain
  unforgeable := by
    intro message text hmem _ _ _
    rcases List.mem_cons.mp hmem with heq | hevent
    · rw [Prod.mk.injEq] at heq
      rw [heq.1]
      exact .checkpoint bundle.checkpoint hcursor.1 hcursor.2 hcheckpoint
    · obtain ⟨event, hmem, heq⟩ := List.mem_map.mp hevent
      obtain ⟨logged, hlogged, hinput⟩ := hevents event hmem
      rw [Prod.mk.injEq] at heq
      rw [← heq.1, hinput]
      have hauthentic := hchain.authentic logged hlogged
      obtain ⟨previous, -, -, hhash, -⟩ := hauthentic.hash
      have hdecode := hauthentic.decode_eq
      rw [hhash, HexText.decode_encode, Option.some.injEq] at hdecode
      exact .event logged _ hlogged (by rw [hhash, hdecode])
  collisionFree := by
    have hlogged : ∀ event ∈ log ++ bundle.events, ∃ logged ∈ log,
        eventHashInput library event = eventHashInput library logged := by
      intro event hevent
      rcases List.mem_append.mp hevent with hmem | hmem
      · exact ⟨event, hmem, rfl⟩
      · exact hevents event hmem
    rintro first ⟨event, hevent, rfl⟩ second ⟨other, hother, rfl⟩ hdigest
    exact hcollision (hlogged event hevent) (hlogged other hother) hdigest
  cursorsApart := by
    intro cursor _ _ hcanon
    exact JsonNumber.int.inj hcanon

theorem firstBundle_honest :
    HonestOrigin library (library.publicKey origin.secret) [firstEvent] firstBundle := by
  refine honestOrigin_of_page (chain_of_verifyBundle verifyBundle_firstBundle.out rfl rfl)
    (by decide) rfl ?_ ?_
  · intro event hevent
    exact ⟨event, hevent, rfl⟩
  · rintro first ⟨event, hevent, rfl⟩ second ⟨logged, hlogged, rfl⟩ _
    rw [List.mem_singleton.mp hevent, List.mem_singleton.mp hlogged]

/-- The bundle is accepted, and its event is the one of the log. -/
theorem verifyBundle_authentic_firstBundle :
    verifyBundle library firstBundle = .ok () ∧
      List.Forall₂ (SameEvent library) firstBundle.events [firstEvent] ∧
      HexText.lower firstEvent.previousHash = zeroHash := by
  have hkey : library.verifyingKeyFromB64 firstBundle.originNodePublicKey =
      .ok (library.publicKey origin.secret) :=
    library.verifyingKeyFromB64_publicKey origin.secret
  obtain ⟨-, hevents, -, hlink⟩ := verifyBundle_authentic firstBundle_honest hkey
    verifyBundle_firstBundle.out (by simp [firstBundle])
  exact ⟨verifyBundle_firstBundle.out, hevents, hlink⟩

end Sample

end Commonwake
