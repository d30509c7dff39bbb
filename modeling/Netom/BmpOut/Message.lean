import Netom.Ingest.Update

/-!
# Messages of a bmp-out client

A bmp-out unit re-streams what it gets from the gate to its clients as BMP messages.  Every message
but the Initiation has a per-peer header, which is built from the entry of the peer in the ingress
register.

* `Update`  what the gate delivers;
* `PeerInfo`  the data of a per-peer header, `PeerInfo.header` what identifies the peer;
* `BmpMessage`  what a client is sent.

The body of a Peer Up and the time stamps are left out.  The encoding of a BGP UPDATE and the hash
of an ingress id are parameters (`BmpOutConfig`).
-/

namespace Netom

abbrev Bytes := List (BitVec 8)

/-- the updates of the gate; `other` are those that bmp-out ignores -/
inductive Update where
  | single (payload : Payload)
  | bulk (payloads : List Payload)
  | withdraw (id : IngressId) (afisafi : Option AfiSafiType)
  | withdrawBulk (entries : List (IngressId × Option IngressInfo))
  | ingressReappeared (id : IngressId)
  | peerStats (id : IngressId) (body : Bytes)
  | routeMonitoringRaw (id : IngressId) (body : Bytes)
  | other
  deriving DecidableEq, Repr

/-! ## per-peer headers -/

structure PeerInfo where
  peerType : Nat
  peerFlags : BitVec 8
  peerDistinguisher : BitVec 64
  peerAddress : IpAddr
  peerAsn : Asn
  peerBgpId : BgpId
  deriving DecidableEq, Repr

/-- the L and O bits of a peer flag -/
def ribFlags : Option PeerRibType → BitVec 8
  | some .inPost => 0x40
  | some .inPre => 0
  | some .outPost => 0x40 ||| 0x10
  | some .outPre => 0x10
  | some .loc | none => 0x40

def PeerInfo.fromIngressInfo (info : IngressInfo) : PeerInfo :=
  let peerAddress := info.remoteAddr.getD (.v4 0)
  { peerType := info.peerType.getD 0
    peerFlags := (if peerAddress.version = 6 then 0x80 else 0) ||| ribFlags info.peerRibType
    peerDistinguisher := info.distinguisher.getD 0
    peerAddress := peerAddress
    peerAsn := info.remoteAsn.getD 0
    peerBgpId := info.bgpId.getD 0 }

/-- a distinguisher that is there is left alone -/
def PeerInfo.applyFanInDistinguisher (peer : PeerInfo) (tag : BitVec 64) : PeerInfo :=
  if peer.peerDistinguisher = 0 then { peer with peerDistinguisher := tag } else peer

/-- the A bit is about the AS paths of one message, not about the peer -/
def PeerInfo.header (peer : PeerInfo) : PeerInfo :=
  { peer with peerFlags := peer.peerFlags &&& ~~~0x20 }

inductive FanInPeerDistinguisher where
  | ingressHash
  | off
  deriving DecidableEq, Repr

structure BmpOutConfig where
  fanInPeerDistinguisher : FanInPeerDistinguisher
  hash : IngressId → BitVec 64
  /-- the BGP UPDATE of a route, whether it is a withdrawal, and its path id -/
  buildBgpUpdate : RotondaRoute → Bool → Option Nat → Option Bytes

section config
variable (cfg : BmpOutConfig)

/-- never zero -/
def fanInDistinguisherTag (parent : IngressId) : BitVec 64 :=
  if cfg.hash parent = 0 then 1 else cfg.hash parent

def buildPeerInfoForEmit (info : IngressInfo) : PeerInfo :=
  let peerInfo := PeerInfo.fromIngressInfo info
  match cfg.fanInPeerDistinguisher, info.parentIngress with
  | .ingressHash, some parent => peerInfo.applyFanInDistinguisher (fanInDistinguisherTag cfg parent)
  | _, _ => peerInfo

/-! ## messages -/

inductive BmpMessage where
  | initiation
  | peerUp (peer : PeerInfo)
  | peerDown (peer : PeerInfo)
  | routeMonitoring (peer : PeerInfo) (bgpUpdate : Bytes)
  | statisticsReport (peer : PeerInfo) (body : Bytes)
  deriving DecidableEq, Repr

def buildRouteMonitoringFromRoute (peer : PeerInfo) (route : RotondaRoute) (isWithdrawal : Bool)
    (pathId : Option Nat) : Option BmpMessage :=
  (cfg.buildBgpUpdate route isWithdrawal pathId).map (.routeMonitoring peer)

def bmpPerPeerHeaderLen : Nat := 42
def bgpUpdateMinLen : Nat := 23
def bgpMsgUpdate : BitVec 8 := 2
def maxBgpUpdateLen : Nat := 65535

/-- the UPDATE of an upstream message as it is, under our header with the A bit of its own; nothing
if it is cut short, is not framed as one UPDATE, or is too long -/
def buildRouteMonitoringRaw (peer : PeerInfo) (body : Bytes) : Option BmpMessage :=
  if body.length < bmpPerPeerHeaderLen + bgpUpdateMinLen then none
  else
    let origPph := body.take bmpPerPeerHeaderLen
    let bgpUpdate := body.drop bmpPerPeerHeaderLen
    let declaredLen := (bgpUpdate.getD 16 0).toNat * 256 + (bgpUpdate.getD 17 0).toNat
    if bgpUpdate.getD 18 0 ≠ bgpMsgUpdate ∨ declaredLen ≠ bgpUpdate.length ∨
        declaredLen > maxBgpUpdateLen then none
    else some (.routeMonitoring
      { peer with
        peerFlags := peer.peerFlags ||| (origPph.getD 1 0 &&& 0x20) } bgpUpdate)

end config

/-! ## headers of the messages -/

lemma PeerInfo.header_setA (peer : PeerInfo) (f : BitVec 8) :
    { peer with
      peerFlags := peer.peerFlags ||| (f &&& 0x20) }.header = peer.header := by
  have h : (peer.peerFlags ||| (f &&& 0x20)) &&& ~~~0x20 = peer.peerFlags &&& ~~~0x20 := by
    ext i hi
    simp only [BitVec.getElem_and, BitVec.getElem_or, BitVec.getElem_not]
    cases (0x20#8)[i] <;> simp
  simp only [PeerInfo.header, h]

/-- the header of a message about a peer that has to be up -/
def BmpMessage.reports : BmpMessage → Option PeerInfo
  | .routeMonitoring peer _ | .statisticsReport peer _ => some peer.header
  | .initiation | .peerUp _ | .peerDown _ => none

lemma reports_fromRoute {cfg : BmpOutConfig} {peer : PeerInfo} {route : RotondaRoute}
    {isWithdrawal : Bool} {pathId : Option Nat} {msg : BmpMessage}
    (h : buildRouteMonitoringFromRoute cfg peer route isWithdrawal pathId = some msg) :
    msg.reports = some peer.header := by
  obtain ⟨bgpUpdate, -, rfl⟩ := Option.map_eq_some_iff.mp h
  rfl

lemma reports_raw {peer : PeerInfo} {body : Bytes} {msg : BmpMessage}
    (h : buildRouteMonitoringRaw peer body = some msg) : msg.reports = some peer.header := by
  unfold buildRouteMonitoringRaw at h
  obtain ⟨-, h⟩ := Option.ite_none_left_eq_some.mp h
  obtain ⟨-, h⟩ := Option.ite_none_left_eq_some.mp h
  cases h
  show some _ = some peer.header
  rw [PeerInfo.header_setA]

end Netom
