import Netom.Rib.Rib
import Netom.Ingest.PathChildren

/-!
# From a BGP UPDATE to the RIB

Three inputs turn an UPDATE into a list of payloads: a native BGP session, a BMP Route Monitoring
message and an MRT file.  Each explodes the announcements and the withdrawals into storable
routes, resolves the ingress each is stored under, and queues the announcements before the
withdrawals; the RIB unit then inserts the payloads one after the other.

* `buildPayloads`  the loops that the three share, over a `Resolver` of path ids;
* `Feed.process`  the payloads of one UPDATE on each input;
* `insertPayloads`  the loop of the RIB unit over them.
-/

namespace Netom

/-! ## the UPDATE -/

/-- one NLRI; the path id is there for ADD-PATH families -/
inductive Nlri where
  | route (multicast : Bool) (p : Prefix) (pathId : Option Nat)
  | flowSpec (family : AddrFamily) (raw : List (BitVec 8)) (pathId : Option Nat)
  | unsupported (nlriType : Nat)
  deriving DecidableEq, Repr

inductive UpdateTreatment where
  | normal
  | attributeDiscard
  | treatAsWithdraw
  deriving DecidableEq, Repr

/-- A parsed UPDATE.  `none` stands for a parse error, of a whole field or of one NLRI. -/
structure UpdateMessage where
  fourOctet : Bool
  treatment : UpdateTreatment
  pathAttributes : Option (List (Option PathAttribute))
  announcements : Option (List (Option Nlri))
  withdrawals : Option (List (Option Nlri))
  deriving DecidableEq, Repr

/-- a storable route -/
inductive RotondaRoute where
  | route (multicast : Bool) (p : Prefix) (pamap : RotondaPaMap)
  | flowSpec (family : AddrFamily) (raw : List (BitVec 8)) (pamap : RotondaPaMap)
  deriving DecidableEq, Repr

abbrev Exploded := RotondaRoute × Option Nat

/-- the route and the stripped path id, unless the NLRI type has no representation -/
def convertNlri (pamap : RotondaPaMap) : Nlri → Option Exploded
  | .route mc p pathId => some (.route mc p pamap, pathId)
  | .flowSpec family raw pathId => some (.flowSpec family raw pamap, pathId)
  | .unsupported _ => none

def explodeAnnouncements (u : UpdateMessage) : Option (List Exploded) := do
  let pas ← u.pathAttributes
  let nlris ← (← u.announcements).mapM id
  return nlris.filterMap (convertNlri ⟨.notChecked, u.fourOctet, pas⟩)

def explodeWithdrawals (u : UpdateMessage) : Option (List Exploded) := do
  let nlris ← (← u.withdrawals).mapM id
  return nlris.filterMap (convertNlri ⟨.notChecked, u.fourOctet, []⟩)

/-! ## payloads -/

structure Payload where
  rxValue : RotondaRoute
  ingressId : IngressId
  routeStatus : RouteStatus
  deriving DecidableEq, Repr

/-- how an input resolves the ingress of a route: announcements may create a path child,
withdrawals only look one up -/
structure Resolver (σ : Type) where
  announce : σ → RotondaRoute → Option Nat → IngressId × σ
  withdraw : σ → Option Nat → Option IngressId

section payloads
variable {σ : Type} (res : Resolver σ)

def announcePayloads : σ → List Exploded → List Payload × σ
  | s, [] => ([], s)
  | s, (rr, pathId) :: reach =>
    let (id, s) := res.announce s rr pathId
    let (rest, s) := announcePayloads s reach
    (⟨rr, id, .active⟩ :: rest, s)

/-- a withdrawal for a path id that was never announced is dropped -/
def withdrawPayloads (s : σ) (unreach : List Exploded) : List Payload :=
  unreach.filterMap fun e => (res.withdraw s e.2).map fun id => ⟨e.1, id, .withdrawn⟩

def buildPayloads (s : σ) (reach unreach : List Exploded) : List Payload × σ :=
  let (announced, s) := announcePayloads res s reach
  (announced ++ withdrawPayloads res s unreach, s)

end payloads

/-! ## native BGP -/

structure BgpIn where
  ingresses : Register
  pathChildren : PathCache

/-- the child's entry copies the identity of its session -/
def bgpChildInfo (sessionId : IngressId) (pathId : Nat) (reg : Register) : IngressInfo :=
  match reg.get sessionId with
  | none => pathChildInfo sessionId pathId
  | some session =>
    { pathChildInfo sessionId pathId with
      remoteAddr := session.remoteAddr, remoteAsn := session.remoteAsn, bgpId := session.bgpId }

def bgpResolver (ingressId : IngressId) : Resolver BgpIn where
  announce st _
    | none => (ingressId, st)
    | some pathId =>
      let (id, cache, reg) := getOrCreatePathChild (bgpChildInfo ingressId pathId)
        st.pathChildren st.ingresses ingressId pathId
      (id, ⟨reg, cache⟩)
  withdraw st
    | none => some ingressId
    | some pathId => st.pathChildren.children.lookup pathId

/-- RFC 7606 treat-as-withdraw moves the announcements behind the withdrawals -/
def applyUpdateTreatment (treatment : UpdateTreatment) (reach unreach : List Exploded) :
    List Exploded × List Exploded :=
  if treatment = .treatAsWithdraw then ([], unreach ++ reach) else (reach, unreach)

def BgpIn.processUpdate (st : BgpIn) (u : UpdateMessage) (ingressId : IngressId) :
    Option (List Payload × BgpIn) := do
  let reach ← explodeAnnouncements u
  let unreach ← explodeWithdrawals u
  let (reach, unreach) := applyUpdateTreatment u.treatment reach unreach
  return buildPayloads (bgpResolver ingressId) st reach unreach

/-! ## BMP -/

structure PerPeerHeader where
  peerType : Nat
  distinguisher : BitVec 64
  address : IpAddr
  asn : Asn
  bgpId : BgpId
  deriving DecidableEq, Repr

structure PeerState where
  ingressId : IngressId
  pathChildren : PathCache

structure BmpIn where
  ingressRegister : Register
  peers : Assoc PerPeerHeader PeerState

/-- the child's entry takes the identity from the per-peer header -/
def bmpChildInfo (pph : PerPeerHeader) (sessionId : IngressId) (pathId : Nat) (_ : Register) :
    IngressInfo :=
  { pathChildInfo sessionId pathId with
    remoteAddr := some pph.address, remoteAsn := some pph.asn, bgpId := some pph.bgpId }

/-- over the state of the one peer the message is for, which is known to be there -/
def bmpResolver (pph : PerPeerHeader) (sessionId : IngressId) :
    Resolver (PathCache × Register) where
  announce st _
    | none => (sessionId, st)
    | some pathId =>
      getOrCreatePathChild (bmpChildInfo pph sessionId pathId) st.1 st.2 sessionId pathId
  withdraw st
    | none => some sessionId
    | some pathId => st.1.children.lookup pathId

def BmpIn.extractRouteMonitoringRoutes (st : BmpIn) (pph : PerPeerHeader) (u : UpdateMessage) :
    Option (List Payload × BmpIn) := do
  let reach ← explodeAnnouncements u
  let unreach ← explodeWithdrawals u
  let peer ← st.peers.lookup pph
  let (payloads, cache, reg) :=
    buildPayloads (bmpResolver pph peer.ingressId) (peer.pathChildren, st.ingressRegister)
      reach unreach
  return (payloads, ⟨reg, st.peers.insert pph ⟨peer.ingressId, cache⟩⟩)

/-! ## MRT -/

structure MrtImportState where
  pathChildren : Assoc (IngressId × Nat) IngressId
  addpathFamilies : Assoc (IpAddr × Asn) (List AfiSafiType)

structure MrtIn where
  ingresses : Register
  importState : MrtImportState

def routeAfisafi : RotondaRoute → AfiSafiType
  | .route false p _ => match p.family with
    | .v4 => .ipv4Unicast
    | .v6 => .ipv6Unicast
  | .route true p _ => match p.family with
    | .v4 => .ipv4Multicast
    | .v6 => .ipv6Multicast
  | .flowSpec .v4 _ _ => .ipv4FlowSpec
  | .flowSpec .v6 _ _ => .ipv6FlowSpec

def isSupportedAfisafi : AfiSafiType → Bool
  | .ipv4Unicast | .ipv6Unicast | .ipv4FlowSpec | .ipv6FlowSpec => true
  | _ => false

def isSupportedRoute (rr : RotondaRoute) : Bool := isSupportedAfisafi (routeAfisafi rr)

def afiSafiCodes : AfiSafiType → Nat × Nat
  | .ipv4Unicast => (1, 1)
  | .ipv6Unicast => (2, 1)
  | .ipv4Multicast => (1, 2)
  | .ipv6Multicast => (2, 2)
  | .ipv4FlowSpec => (1, 133)
  | .ipv6FlowSpec => (2, 133)
  | .other afi safi => (afi, safi)

namespace MrtImportState

def noteAddpathFamily (st : MrtImportState) (peer : IpAddr × Asn) (afisafi : AfiSafiType) :
    MrtImportState :=
  if !isSupportedAfisafi afisafi then st
  else
    let families := (st.addpathFamilies.lookup peer).getD []
    let families := if families.contains afisafi then families else families ++ [afisafi]
    { st with addpathFamilies := st.addpathFamilies.insert peer families }

/-- four bytes a family: AFI, SAFI and the direction "both" -/
def encodedAddpathFamilies (st : MrtImportState) (peer : IpAddr × Asn) : List Nat :=
  ((st.addpathFamilies.lookup peer).getD []).flatMap fun afisafi =>
    let (afi, safi) := afiSafiCodes afisafi
    [afi / 256, afi % 256, safi, 3]

end MrtImportState

def MrtIn.noteIngressAddpathFamily (st : MrtIn) (id : IngressId) (afisafi : AfiSafiType) : MrtIn :=
  match st.ingresses.get id with
  | none => st
  | some info => match info.remoteAddr, info.remoteAsn with
    | some addr, some asn =>
      let importState := st.importState.noteAddpathFamily (addr, asn) afisafi
      let families := importState.encodedAddpathFamilies (addr, asn)
      { importState := importState
        ingresses := st.ingresses.updateInfo id
          { IngressInfo.new with addpathFamilies := some families } }
    | _, _ => st

/-- the entry of an MRT child, which belongs to no connection -/
def mrtChildInfo (parentId : IngressId) (pathId : Nat) (reg : Register) : IngressInfo :=
  let base := { pathChildInfo parentId pathId with state := some .nonNetwork }
  match reg.get parentId with
  | none => base
  | some parent =>
    { base with
      remoteAddr := parent.remoteAddr, remoteAsn := parent.remoteAsn, bgpId := parent.bgpId }

def MrtIn.mrtPathIngress (st : MrtIn) (parentId : IngressId) (pathId : Nat)
    (afisafi : AfiSafiType) : IngressId × MrtIn :=
  let st := st.noteIngressAddpathFamily parentId afisafi
  match st.importState.pathChildren.lookup (parentId, pathId) with
  | some id => (id, st)
  | none =>
    let (childId, reg) := st.ingresses.register
    (childId,
      { ingresses := reg.updateInfo childId (mrtChildInfo parentId pathId reg)
        importState := { st.importState with
          pathChildren := st.importState.pathChildren.insert (parentId, pathId) childId } })

def mrtResolver (ingressId : IngressId) : Resolver MrtIn where
  announce st rr
    | none => (ingressId, st)
    | some pathId => st.mrtPathIngress ingressId pathId (routeAfisafi rr)
  withdraw st
    | none => some ingressId
    | some pathId => st.importState.pathChildren.lookup (ingressId, pathId)

def mrtPeerQuery (parentId : IngressId) (peerAddr : IpAddr) (peerAsn : Asn) : IngressInfo :=
  { IngressInfo.new with
    parentIngress := some parentId, remoteAddr := some peerAddr, remoteAsn := some peerAsn,
    ingressType := some .mrt }

/-- the ingress of the peer, found or registered -/
def MrtIn.peerIngress (st : MrtIn) (parentId : IngressId) (peerAddr : IpAddr) (peerAsn : Asn) :
    IngressId × MrtIn :=
  let query := mrtPeerQuery parentId peerAddr peerAsn
  let families := st.importState.encodedAddpathFamilies (peerAddr, peerAsn)
  let families := if families.isEmpty then none else some families
  match st.ingresses.findExistingPeer query with
  | some id =>
    (id, { st with
      ingresses := st.ingresses.updateInfo id
        { IngressInfo.new with addpathFamilies := families } })
  | none =>
    let (id, reg) := st.ingresses.register
    (id, { st with ingresses := reg.updateInfo id { query with addpathFamilies := families } })

/-- `process_message` on an UPDATE; also the ingress of the peer, if it was resolved -/
def MrtIn.processMessage (st : MrtIn) (parentId : IngressId) (peerAddr : IpAddr) (peerAsn : Asn)
    (u : UpdateMessage) : Option (List Payload × Option IngressId × MrtIn) := do
  let reach := (← explodeAnnouncements u).filter fun e => isSupportedRoute e.1
  let unreach := (← explodeWithdrawals u).filter fun e => isSupportedRoute e.1
  if reach.isEmpty && unreach.isEmpty then return ([], none, st)
  let existing := st.ingresses.findExistingPeer (mrtPeerQuery parentId peerAddr peerAsn)
  if existing.isNone && reach.isEmpty && unreach.all (·.2.isSome) then return ([], none, st)
  let (ingressId, st) := st.peerIngress parentId peerAddr peerAsn
  let (payloads, st) := buildPayloads (mrtResolver ingressId) st reach unreach
  return (payloads, some ingressId, st)

/-! ## one UPDATE on any input -/

/-- an input in some state, with what identifies the peer there -/
inductive Feed where
  | bgp (st : BgpIn) (ingressId : IngressId)
  | bmp (st : BmpIn) (pph : PerPeerHeader)
  | mrt (st : MrtIn) (parentId : IngressId) (peerAddr : IpAddr) (peerAsn : Asn)

/-- The payloads of an UPDATE, and the ingress that each path id (or none) resolves to once they
are built. -/
def Feed.process (feed : Feed) (u : UpdateMessage) :
    Option (List Payload × (Option Nat → Option IngressId)) :=
  match feed with
  | .bgp st ingressId => do
    let (payloads, st) ← st.processUpdate u ingressId
    return (payloads, (bgpResolver ingressId).withdraw st)
  | .bmp st pph => do
    let (payloads, st) ← st.extractRouteMonitoringRoutes pph u
    let peer ← st.peers.lookup pph
    return (payloads, (bmpResolver pph peer.ingressId).withdraw
      (peer.pathChildren, st.ingressRegister))
  | .mrt st parentId peerAddr peerAsn => do
    let (payloads, ingressId, st) ← st.processMessage parentId peerAddr peerAsn u
    return (payloads, fun pathId => ingressId.bind fun id => (mrtResolver id).withdraw st pathId)

/-- insert a payload in the RIB; flowspec rules have a store of their own -/
def Rib.insertPayload (retain : Bool) (rib : Rib) (payload : Payload) : Rib :=
  match payload.rxValue with
  | .route mc p pamap =>
    rib.insertPrefix p mc pamap payload.routeStatus payload.ingressId retain
  | .flowSpec _ _ _ => rib

def Rib.insertPayloads (rib : Rib) (retain : Bool) (payloads : List Payload) : Rib :=
  payloads.foldl (Rib.insertPayload retain) rib

end Netom
