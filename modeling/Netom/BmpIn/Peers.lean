import Netom.BmpOut.Message

/-!
# The peers of a monitored router

A router reports on its peers over one BMP connection.  Every message but the first and the last
has a per-peer header; its flags tell the views of one peer apart, which share `Header.identity`.

* `Header`  a per-peer header, without its time stamp;
* `SessionConfig`  how the UPDATEs of a peer are parsed;
* `PeerState`  what is kept for a header that is up;
* `PeerStates`  the peers of a connection, and the operations on them.

The header of the RIB modules (`Netom.PerPeerHeader`) is the part of this one that is stored.
-/

namespace Netom.Bmp

/-! ## per-peer headers -/

inductive RibType where
  | adjRibIn
  | adjRibOut
  | locRib
  deriving DecidableEq, Repr

/-- the number under which a register entry keeps it -/
def RibType.code : RibType → Nat
  | .adjRibIn => 0
  | .adjRibOut => 1
  | .locRib => 2

def peerRibType (postPolicy : Bool) : RibType → PeerRibType
  | .adjRibIn => if postPolicy then .inPost else .inPre
  | .adjRibOut => if postPolicy then .outPost else .outPre
  | .locRib => .loc

structure Header where
  peerType : BitVec 8
  flags : BitVec 8
  distinguisher : BitVec 64
  rawAddress : BitVec 128
  asn : BitVec 32
  bgpId : BitVec 32
  deriving DecidableEq, Repr

namespace Header
variable (h : Header)

/-- the V flag tells how the address is read -/
def address : IpAddr :=
  if h.flags &&& 0x80 = 0 then .v4 (h.rawAddress.setWidth 32) else .v6 h.rawAddress

def isPostPolicy : Bool := h.flags &&& 0x40 ≠ 0

/-- by the O flag alone -/
def adjRibType : RibType := if h.flags &&& 0x10 = 0 then .adjRibIn else .adjRibOut

def ribType : RibType := if h.peerType = 3 then .locRib else h.adjRibType

/-- what a Peer Down takes down together -/
def identity : BitVec 8 × BitVec 64 × IpAddr × BitVec 32 × BitVec 32 :=
  (h.peerType, h.distinguisher, h.address, h.asn, h.bgpId)

/-- the header without the flags for the RIB and the policy -/
def nulledFlags : Header := { h with flags := h.flags &&& 0b10101111 }

/-- big-endian bytes -/
def be (n : Nat) {w : Nat} (x : BitVec w) : Bytes :=
  (List.range n).map fun i => (x >>> (8 * (n - 1 - i))).setWidth 8

/-- the 42 bytes on the wire -/
def encode (timestamp : BitVec 64) : Bytes :=
  h.peerType :: h.flags :: (be 8 h.distinguisher ++ be 16 h.rawAddress ++ be 4 h.asn ++
    be 4 h.bgpId ++ be 8 timestamp)

end Header

/-! ## session configurations -/

inductive AddpathDirection where
  | receive
  | send
  | sendReceive
  deriving DecidableEq, Repr

def AddpathDirection.code : AddpathDirection → Nat
  | .receive => 1
  | .send => 2
  | .sendReceive => 3

def AddpathDirection.swap : AddpathDirection → AddpathDirection
  | .receive => .send
  | .send => .receive
  | .sendReceive => .sendReceive

structure SessionConfig where
  fourOctetEnabled : Bool
  enabledAddpaths : List (AfiSafiType × AddpathDirection)
  deriving DecidableEq, Repr

namespace SessionConfig
variable (config : SessionConfig)

def rxAddpath (fam : AfiSafiType) : Bool :=
  config.enabledAddpaths.any fun e => e.1 = fam && e.2 ≠ .send

/-- four bytes a family that carries path ids -/
def encodeAddpathFamilies : List Nat :=
  (config.enabledAddpaths.filter fun e => config.rxAddpath e.1).flatMap fun e =>
    let (afi, safi) := afiSafiCodes e.1
    [afi / 256, afi % 256, safi, e.2.code]

/-- the UPDATEs of an Adj-RIB-Out were sent by the router -/
def forBmpRib (ribType : RibType) : SessionConfig :=
  if ribType ≠ .adjRibOut then config
  else { config with
    enabledAddpaths := config.enabledAddpaths.map fun e => (e.1, e.2.swap) }

def encodeAddpathFamiliesForBmpRib (ribType : RibType) : List Nat :=
  (config.forBmpRib ribType).encodeAddpathFamilies

def alternate : SessionConfig := { config with fourOctetEnabled := !config.fourOctetEnabled }

end SessionConfig

/-! ## peers -/

structure EoRProperties where
  afiSafi : AfiSafiType
  postPolicy : Bool
  adjRibOut : Bool
  deriving DecidableEq, Repr

def EoRProperties.new (h : Header) (afiSafi : AfiSafiType) : EoRProperties :=
  ⟨afiSafi, h.isPostPolicy, h.adjRibType = .adjRibOut⟩

structure PeerState where
  sessionConfig : SessionConfig
  eorCapable : Bool
  pendingEors : Finset EoRProperties
  ingressId : IngressId
  /-- made up for a Route Monitoring message whose header had no Peer Up -/
  synthesized : Bool
  pathChildren : PathCache

/-- the ingress of the peer and those of its path children -/
def PeerState.ids (peer : PeerState) : List IngressId :=
  peer.ingressId :: peer.pathChildren.children.entries.map (·.2)

abbrev PeerStates := Assoc Header PeerState

namespace PeerStates
variable (peers : PeerStates)

/-- a view of the same peer under another header; which one a hash map finds is not known -/
def findSibling (pick h : Header) : Option Header :=
  let ok : Header → Bool := fun k => k ≠ h && k.identity = h.identity
  if ok pick && (peers.lookup pick).isSome then some pick else Assoc.findKey (fun k _ => ok k) peers

/-- clone the peer of `source` for `dst`, with an ingress of its own and no path children; `false`
if `dst` was there -/
def addClonedPeerConfig (source : PeerState) (dst : Header) (id : IngressId) : Bool × PeerStates :=
  ((peers.lookup dst).isNone, peers.insert dst
    { source with
      ingressId := id, synthesized := true
      pathChildren := ⟨∅, source.pathChildren.minted⟩ })

/-- the peers of one identity, and what is left -/
def removePeerIdentitySiblings (h : Header) : List (Header × PeerState) × PeerStates :=
  let removed := peers.entries.filter fun e => e.1.identity = h.identity
  (removed.map fun e => (e.1, e.2), Assoc.eraseAll (removed.map (·.1)) peers)

def updatePeerConfig (h : Header) (config : SessionConfig) : PeerStates :=
  Assoc.modify h (fun peer => { peer with sessionConfig := config }) peers

def setPathChildren (h : Header) (cache : PathCache) : PeerStates :=
  Assoc.modify h (fun peer => { peer with pathChildren := cache }) peers

def addPendingEor (h : Header) (afiSafi : AfiSafiType) : PeerStates :=
  Assoc.modify h (fun peer =>
    { peer with pendingEors := insert (.new h afiSafi) peer.pendingEors }) peers

/-- also whether no peer waits for an End-of-RIB any more -/
def removePendingEor (h : Header) (afiSafi : AfiSafiType) : Bool × PeerStates :=
  let peers := Assoc.modify h (fun peer =>
    { peer with pendingEors := peer.pendingEors.erase (.new h afiSafi) }) peers
  (peers.entries.all fun e => e.2.pendingEors = ∅, peers)

lemma lookup_siblings (h k : Header) : (peers.removePeerIdentitySiblings h).2.lookup k =
    if k.identity = h.identity then none else peers.lookup k := by
  show (Assoc.eraseAll ((peers.entries.filter fun e => e.1.identity = h.identity).map (·.1))
    peers).lookup k = _
  rw [Assoc.lookup_eraseAll]
  by_cases hk : k.identity = h.identity
  · rw [if_pos hk]
    split
    · rfl
    · rename_i hm
      cases hl : peers.lookup k with
      | none => rfl
      | some p =>
        have he : (⟨k, p⟩ : Sigma fun _ : Header => PeerState) ∈
            peers.entries.filter fun e => e.1.identity = h.identity :=
          List.mem_filter.mpr ⟨AList.mem_lookup_iff.mp hl, decide_eq_true hk⟩
        exact absurd (List.mem_map.mpr ⟨_, he, rfl⟩) hm
  · rw [if_neg hk, if_neg]
    intro hm
    obtain ⟨e, he, rfl⟩ := List.mem_map.mp hm
    exact hk (of_decide_eq_true (List.mem_filter.mp he).2)

end PeerStates

end Netom.Bmp
