import Commonwake.Federation
import Commonwake.HashChain

/-!
# What a verified bundle is

`verify_bundle` is a sequence of checks on a page of a remote log.  The
structure `VerifiedBundle` says what they establish together: the events
are numbered and linked, each carries its own hash and a signature of the
origin over that hash, and the signed checkpoint commits to the last one.
-/

namespace Commonwake

open Outcome HashChain

section

variable (P : Primitives)

/-- The hash of an event follows from its fields, is signed by the origin,
and the id of the event is the digest of its object. -/
structure AuthenticEvent (key : Bytes) (event : OriginEvent) : Prop where
  hash : ∃ previous, HexText.decode event.previousHash = some previous ∧
    previous.length = 32 ∧
    event.eventHash =
      HexText.encode (P.eventHash previous (canonicalOriginRecord P event)) ∧
    ∃ signature, P.signatureFromB64 event.nodeSignature = .ok signature ∧
      P.verify key (P.eventHash previous (canonicalOriginRecord P event)) signature =
        true
  contentId : event.eventId = P.prefixedId "cwevt_" (utf8 (P.jcs event.canonical))

/-- The events carry the numbers after `start` and the hashes of their
predecessors, and each of them is authentic. -/
structure AuthenticChain (key : Bytes) (start : ℤ) (head : String)
    (events : List OriginEvent) : Prop where
  numbered : Numbered OriginEvent.sequence start events
  linked : Linked OriginEvent.previousHash OriginEvent.eventHash head events
  authentic : ∀ event ∈ events, AuthenticEvent P key event

structure VerifiedBundle (bundle : FederationBundle) (key : Bytes) (head : String) :
    Prop where
  publicKey : P.verifyingKeyFromB64 bundle.originNodePublicKey = .ok key
  nodeId : P.prefixedId "cwnode_" key = bundle.originNodeId
  fromCursor : 0 ≤ bundle.fromCursor
  throughCursor : bundle.throughCursor = bundle.fromCursor + bundle.events.length
  checkpointVerified : verifyCheckpoint P bundle.checkpoint = .ok ()
  checkpointNode : bundle.checkpoint.nodeId = bundle.originNodeId
  checkpointKey : bundle.checkpoint.nodePublicKey = bundle.originNodePublicKey
  checkpointCursor : bundle.checkpoint.cursor = bundle.throughCursor
  chain : AuthenticChain P key bundle.fromCursor head bundle.events
  genesis : bundle.fromCursor = 0 → head = zeroHash
  checkpointHash : bundle.events ≠ [] ∨ bundle.throughCursor = 0 →
    bundle.checkpoint.eventHash = lastHash OriginEvent.eventHash head bundle.events

end

section

variable {P : Primitives} {key : Bytes}

theorem decodeHash_eq_ok {value label : String} {bytes : Bytes} :
    decodeHash value label = .ok bytes ↔
      HexText.decode value = some bytes ∧ bytes.length = 32 := by
  unfold decodeHash
  simp only [bind_eq_ok, okOr_eq_ok, rejectIf_eq_ok, pure_eq_ok, Except.ok.injEq,
    not_not]
  constructor
  · rintro ⟨a, hdecode, -, hlength, rfl⟩
    exact ⟨hdecode, hlength⟩
  · rintro ⟨hdecode, hlength⟩
    exact ⟨bytes, hdecode, (), hlength, rfl⟩

theorem verifyBundleEvent_eq_ok {fromCursor expectedSequence : ℤ}
    {previousHash : Option String} {event : OriginEvent}
    (h : verifyBundleEvent P key fromCursor expectedSequence previousHash event =
      .ok ()) :
    event.sequence = expectedSequence ∧
      verifyLink fromCursor previousHash event = .ok () ∧
      AuthenticEvent P key event := by
  unfold verifyBundleEvent at h
  simp only [bind_eq_ok, rejectIf_eq_ok, decodeHash_eq_ok, not_not,
    Bool.not_eq_false] at h
  obtain ⟨-, -, -, hsequence, ⟨⟩, hlink, previous, ⟨hdecode, hlength⟩, -, hhash, -,
    hid, signature, hsignature, hverify⟩ := h
  exact ⟨hsequence, hlink, ⟨previous, hdecode, hlength, hhash, signature, hsignature,
    hverify⟩, hid⟩

/-- The hash to which the first event of a list must link, when one is
prescribed. -/
theorem verifyLink_eq_ok {fromCursor : ℤ} {previousHash : Option String}
    {event : OriginEvent}
    (h : verifyLink fromCursor previousHash event = .ok ()) :
    (∀ previous, previousHash = some previous → event.previousHash = previous) ∧
      (previousHash = none → fromCursor = 0 → event.previousHash = zeroHash) := by
  cases previousHash with
  | none =>
      simp only [verifyLink, rejectIf_eq_ok, not_and, not_not] at h
      exact ⟨by simp, fun _ => h⟩
  | some previous =>
      simp only [verifyLink, rejectIf_eq_ok, not_not] at h
      refine ⟨?_, by simp⟩
      intro other hother
      rw [h]
      exact Option.some.inj hother

theorem verifyBundleEvents_eq_ok {fromCursor start : ℤ}
    {previousHash : Option String} {events : List OriginEvent}
    (h : verifyBundleEvents P key fromCursor (start + 1) previousHash events =
      .ok ()) :
    ∃ head, AuthenticChain P key start head events ∧
      (∀ previous, previousHash = some previous → head = previous) ∧
      (previousHash = none → fromCursor = 0 → head = zeroHash) := by
  -- Induction on the events; the hash of each is the one the rest must carry.
  induction events generalizing start previousHash with
  | nil =>
      refine ⟨previousHash.getD zeroHash, ⟨trivial, trivial, by simp⟩, ?_, ?_⟩
      · rintro previous rfl
        rfl
      · rintro rfl -
        rfl
  | cons event rest ih =>
      simp only [verifyBundleEvents, bind_eq_ok] at h
      obtain ⟨⟨⟩, hevent, hrest⟩ := h
      obtain ⟨hsequence, hlink, hauthentic⟩ := verifyBundleEvent_eq_ok hevent
      obtain ⟨hsome, hnone⟩ := verifyLink_eq_ok hlink
      obtain ⟨head, hchain, hhead, -⟩ := ih hrest
      have hhash : head = event.eventHash := hhead event.eventHash rfl
      subst hhash
      refine ⟨event.previousHash, ⟨⟨hsequence, hchain.numbered⟩,
        ⟨rfl, hchain.linked⟩, ?_⟩, hsome, hnone⟩
      intro other hother
      rcases List.mem_cons.mp hother with rfl | hmem
      · exact hauthentic
      · exact hchain.authentic other hmem

/-- Everything that the acceptance of a bundle establishes. -/
theorem verifyBundle_eq_ok {bundle : FederationBundle}
    (h : verifyBundle P bundle = .ok ()) :
    ∃ key head, VerifiedBundle P bundle key head := by
  unfold verifyBundle at h
  simp only [bind_eq_ok, rejectIf_eq_ok, not_or, not_not, not_lt] at h
  obtain ⟨-, -, -, ⟨hfrom, -⟩, -, -, key, hkey, -, hnode, ⟨⟩, hverified, -,
    ⟨hcheckpointNode, hcheckpointKey, hcursor⟩, -, hcount, ⟨⟩, hevents, hlast⟩ := h
  obtain ⟨head, hchain, -, hstart⟩ := verifyBundleEvents_eq_ok hevents
  refine ⟨key, head, hkey, hnode, hfrom, by omega, hverified, hcheckpointNode,
    hcheckpointKey, hcursor, hchain, hstart rfl, ?_⟩
  intro hcase
  by_cases hnil : bundle.events = []
  · have hthrough : bundle.throughCursor = 0 := by
      rcases hcase with hne | hzero
      · exact absurd hnil hne
      · exact hzero
    have hzero : bundle.fromCursor = 0 := by
      rw [hnil] at hcount
      simp only [List.length_nil, Nat.cast_zero] at hcount
      omega
    rw [hnil, List.getLast?_nil] at hlast
    simp only [rejectIf_eq_ok, not_and, not_not] at hlast
    rw [hnil, lastHash_nil, hstart rfl hzero]
    exact hlast hthrough
  · obtain ⟨front, event, heq⟩ : ∃ front event, bundle.events = front ++ [event] :=
      ⟨_, _, (List.dropLast_append_getLast hnil).symm⟩
    rw [heq, List.getLast?_concat] at hlast
    simp only [bind_eq_ok, rejectIf_eq_ok, not_not] at hlast
    obtain ⟨-, hhash, -⟩ := hlast
    rw [heq, lastHash_append_singleton]
    exact hhash

/-- The hash of an authentic event is text of a digest. -/
theorem AuthenticEvent.decode_eventHash {event : OriginEvent}
    (h : AuthenticEvent P key event) :
    ∃ bytes, HexText.decode event.eventHash = some bytes ∧ bytes.length = 32 := by
  obtain ⟨previous, -, -, hhash, -⟩ := h.hash
  refine ⟨P.eventHash previous (canonicalOriginRecord P event), ?_,
    P.eventHash_length _ _⟩
  rw [hhash, HexText.decode_encode]

end

end Commonwake
