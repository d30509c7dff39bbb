import Netom.Lib.Atomic
import Netom.Ingress.Claims
import Netom.BmpIn.Peers

/-!
# The state machine of a BMP connection

Every connection has a task that reads BMP messages and changes the register, which all connections
share, one operation at a time.  Other tasks may come in between two operations, so what a message
does is a program of register operations (`Atomic.Prog`).

* `accept`, `lost`  a TCP connection comes up and goes away;
* `Conn.processMsg`  one message in the phases of a connection;
* `peerUp`, `peerDown`, `routeMonitoring`, `terminate`  the messages that change something;
* `Link.handle`  the handler of a connection around the state machine.

Which of several entries a hash map finds first is an input (`Pick`).  The parser of UPDATEs is a
parameter.
-/

namespace Netom.Bmp
open Atomic

/-- what is met first in the register and among the peers -/
structure Pick where
  id : IngressId
  header : Header

abbrev Task := Prog Register Pick

/-! ## operations on the register -/

def getInfo (id : IngressId) : Task (Option IngressInfo) := .call fun _ reg => (reg.get id, reg)

def register : Task IngressId := .call fun _ reg => reg.fetchAdd

def updateInfo (id : IngressId) (info : IngressInfo) : Task Unit :=
  .call fun _ reg => ((), reg.updateInfo id info)

def removeInfo (id : IngressId) : Task Unit := .call fun _ reg => ((), reg.remove id)

/-- whether there was an entry to mark -/
def markDisconnected (id : IngressId) : Task Bool :=
  .call fun _ reg => ((reg.get id).isSome, reg.markDisconnected id)

def claim (c : Claim) : Task (Option IngressId) := .call fun pick reg => reg.claim c pick.id

def refreshPathChild (id parent : IngressId) (pathId : Nat) : Task Bool :=
  .call fun _ reg => reg.refreshPathChild id parent pathId

def pruneMissing (children : Assoc Nat IngressId) : Task (Assoc Nat IngressId) :=
  .call fun _ reg => (reg.pruneMissing children, reg)

/-- claim an entry that was left behind, or take a fresh id; also whether it was claimed -/
def claimOrRegister (c : Claim) : Task (IngressId × Bool) :=
  (claim c).bind fun
    | some id => .ret (id, true)
    | none => register.bind fun id => .ret (id, false)

/-- mark each id, and return those that had an entry -/
def markAll : List IngressId → Task (List IngressId)
  | [] => .ret []
  | id :: ids => (markDisconnected id).bind fun found =>
      (markAll ids).bind fun rest => .ret (if found then id :: rest else rest)

/-! ## path children -/

def childInfo (h : Header) (sessionId : IngressId) (pathId : Nat) : IngressInfo :=
  { pathChildInfo sessionId pathId with
    remoteAddr := some h.address, remoteAsn := some h.asn.toNat, bgpId := some h.bgpId }

/-- a child that is not in the cache -/
def mintPathChild (h : Header) (sessionId : IngressId) (cache : PathCache) (pathId : Nat) :
    Task (IngressId × PathCache) :=
  (claimOrRegister (.pathChild sessionId pathId)).bind fun (childId, _) =>
  (updateInfo childId (childInfo h sessionId pathId)).bind fun _ =>
    let children := cache.children.insert pathId childId
    let minted := cache.minted + 1
    if minted % pruneEvery = 0 then
      (pruneMissing children).bind fun children => .ret (childId, ⟨children, minted⟩)
    else .ret (childId, ⟨children, minted⟩)

def getOrCreatePathChild (h : Header) (sessionId : IngressId) (cache : PathCache) (pathId : Nat) :
    Task (IngressId × PathCache) :=
  match cache.children.lookup pathId with
  | some childId => (refreshPathChild childId sessionId pathId).bind fun
    | true => .ret (childId, cache)
    | false =>
      mintPathChild h sessionId { cache with children := cache.children.erase pathId } pathId
  | none => mintPathChild h sessionId cache pathId

/-- the payloads of the announcements -/
def announced (h : Header) (sessionId : IngressId) :
    PathCache → List Exploded → Task (List Payload × PathCache)
  | cache, [] => .ret ([], cache)
  | cache, (rr, none) :: reach => (announced h sessionId cache reach).bind fun (rest, cache) =>
      .ret (⟨rr, sessionId, .active⟩ :: rest, cache)
  | cache, (rr, some pathId) :: reach =>
    (getOrCreatePathChild h sessionId cache pathId).bind fun (id, cache) =>
    (announced h sessionId cache reach).bind fun (rest, cache) =>
      .ret (⟨rr, id, .active⟩ :: rest, cache)

/-- the payloads of the withdrawals; one for a path id that was never announced is dropped -/
def withdrawn (sessionId : IngressId) (cache : PathCache) (unreach : List Exploded) :
    List Payload :=
  unreach.filterMap fun e =>
    (match e.2 with
    | none => some sessionId
    | some pathId => cache.children.lookup pathId).map fun id => ⟨e.1, id, .withdrawn⟩

/-! ## connections -/

inductive Phase where
  | initiating
  | dumping
  | updating
  | terminated
  deriving DecidableEq, Repr

structure Conn where
  phase : Phase
  ingressId : IngressId
  peers : PeerStates

inductive MessageType where
  | invalidMessage
  | stateTransition
  | routingUpdate (update : Update) (raw : Option Update)
  | other

/-- the next state and what comes of the message; `none` if the task panics -/
abbrev Processed := Option (Conn × MessageType)

structure PeerUpNotification where
  header : Header
  sessionConfig : SessionConfig
  eorCapable : Bool
  localAsn : Asn
  vrfName : Option String

structure RouteMonitoring where
  header : Header
  timestamp : BitVec 64
  /-- the encapsulated BGP message -/
  update : Bytes

/-- the message after its common header -/
def RouteMonitoring.body (msg : RouteMonitoring) : Bytes :=
  msg.header.encode msg.timestamp ++ msg.update

inductive BmpMsg where
  | initiation (sysName : Option String)
  | peerUp (msg : PeerUpNotification)
  | peerDown (header : Header)
  | routeMonitoring (msg : RouteMonitoring)
  | statisticsReport (header : Header) (body : Bytes)
  | termination
  | routeMirroring

structure Parser where
  bgpUpdate : SessionConfig → Bytes → Option UpdateMessage
  isEor : UpdateMessage → Option AfiSafiType

namespace Conn
variable (c : Conn)

/-! ## Peer Up and Peer Down -/

def peerInfo (msg : PeerUpNotification) : IngressInfo :=
  let h := msg.header
  { IngressInfo.new with
    ingressType := some .bgpViaBmp, parentIngress := some c.ingressId, state := some .connected
    remoteAddr := some h.address, remoteAsn := some h.asn.toNat, bgpId := some h.bgpId
    ribType := some h.ribType.code, peerRibType := some (peerRibType h.isPostPolicy h.ribType)
    peerType := some h.peerType.toNat, localAsn := some msg.localAsn
    addpathFamilies := some (msg.sessionConfig.encodeAddpathFamiliesForBmpRib h.ribType)
    distinguisher := if h.peerType = 1 ∨ h.peerType = 2 ∨ h.peerType = 3 then some h.distinguisher
      else none
    vrfName := msg.vrfName }

/-- the ingress of a peer: the one that an earlier session of it left, or a fresh one -/
def peerIngress (info : IngressInfo) : Task (IngressId × Bool) :=
  (claimOrRegister (.peer info)).bind fun (id, existing) =>
  (updateInfo id info).bind fun _ => .ret (id, existing)

def newPeer (msg : PeerUpNotification) (id : IngressId) : PeerState :=
  { sessionConfig := msg.sessionConfig, eorCapable := msg.eorCapable, pendingEors := ∅
    ingressId := id, synthesized := false, pathChildren := .empty }

def peerUp (msg : PeerUpNotification) : Task Processed :=
  if (c.peers.lookup msg.header).isSome then .ret (some (c, .invalidMessage))
  else
    (peerIngress (c.peerInfo msg)).bind fun (id, existing) =>
      .ret (some ({ c with peers := c.peers.insert msg.header (newPeer msg id) },
        if existing then .routingUpdate (.ingressReappeared id) none else .other))

/-- one peer that had a Peer Up and no path children is withdrawn by itself -/
def downUpdate (removed : List (Header × PeerState)) (ids : List IngressId) : Update :=
  match removed with
  | [(_, peer)] =>
    if !peer.synthesized && peer.pathChildren.children.entries.isEmpty then
      .withdraw peer.ingressId none
    else .withdrawBulk (ids.map fun id => (id, none))
  | _ => .withdrawBulk (ids.map fun id => (id, none))

/-- a peer that comes down with all its views and path children -/
def peerDown (h : Header) : Task Processed :=
  let removed := (c.peers.removePeerIdentitySiblings h).1
  if removed.isEmpty then .ret (some (c, .invalidMessage))
  else
    (markAll (removed.flatMap (·.2.ids))).bind fun ids =>
      .ret (some ({ c with peers := (c.peers.removePeerIdentitySiblings h).2 },
        .routingUpdate (downUpdate removed ids) none))

/-! ## Route Monitoring -/

/-- the entry of a view that had no Peer Up, from that of another view -/
def adaptedInfo (info : IngressInfo) (h : Header) (config : SessionConfig) : IngressInfo :=
  { info with
    ribType := some h.ribType.code, peerRibType := some (peerRibType h.isPostPolicy h.ribType)
    addpathFamilies := some (config.encodeAddpathFamiliesForBmpRib h.ribType)
    state := some .connected }

/-- a view for `h`, made up from the view `source`; `false` if there was one -/
def synthesize (source : PeerState) (h : Header) : Task (Option (Bool × Conn)) :=
  (getInfo source.ingressId).bind fun
    | none => .ret none
    | some info =>
      (peerIngress (adaptedInfo info h source.sessionConfig)).bind fun (id, _) =>
        let (added, peers) := c.peers.addClonedPeerConfig source h id
        .ret (some (added, { c with peers := peers }))

/-- the view of a Route Monitoring message, which may be made up; `false` if there is none -/
def resolveView (h : Header) : Task (Option (Bool × Conn)) :=
  match c.peers.lookup h with
  | some _ => .ret (some (true, c))
  | none =>
    match c.peers.lookup h.nulledFlags with
    | some source => c.synthesize source h
    | none =>
      (Prog.call fun pick reg => (c.peers.findSibling pick.header h, reg)).bind fun sibling =>
        match sibling.bind c.peers.lookup with
        | some source => c.synthesize source h
        | none => .ret (some (false, c))

variable (parser : Parser)

/-- the UPDATE and the configuration it was parsed with: the given one, or its alternate, whose own
alternate has been tried then -/
def parseUpdate (config : SessionConfig) (update : Bytes) :
    Option (SessionConfig × Bool × UpdateMessage) :=
  match parser.bgpUpdate config update with
  | some u => some (config, false, u)
  | none => (parser.bgpUpdate config.alternate update).map fun u => (config.alternate, true, u)

/-- the phase decides what an End-of-RIB does; `true` if that is all the message does -/
def preprocess (h : Header) (u : UpdateMessage) : Bool × Conn :=
  match parser.isEor u with
  | none => (false, c)
  | some afiSafi =>
    let (done, peers) := c.peers.removePendingEor h afiSafi
    if done ∧ c.phase = .dumping then (true, { c with phase := .updating, peers := peers })
    else (false, { c with peers := peers })

def nlriFamily : Nlri → AfiSafiType
  | .route false p _ => match p.family with
    | .v4 => .ipv4Unicast
    | .v6 => .ipv6Unicast
  | .route true p _ => match p.family with
    | .v4 => .ipv4Multicast
    | .v6 => .ipv6Multicast
  | .flowSpec .v4 _ _ => .ipv4FlowSpec
  | .flowSpec .v6 _ _ => .ipv6FlowSpec
  | .unsupported n => .other (n / 256) (n % 256)

/-- the message as it came, with the A flag by how it was parsed -/
def rawBody (fourOctet : Bool) (body : Bytes) : Bytes :=
  body.modify 1 fun flags => if fourOctet then flags &&& ~~~0x20 else flags ||| 0x20

/-- the routes of the message; `none` if a part of it does not parse -/
def extractRouteMonitoringRoutes (h : Header) (u : UpdateMessage) :
    Task (Option (List Payload × Nat × Conn)) :=
  match explodeAnnouncements u, explodeWithdrawals u, c.peers.lookup h with
  | some reach, some unreach, some peer =>
    (announced h peer.ingressId peer.pathChildren reach).bind fun (payloads, cache) =>
      .ret (some (payloads ++ withdrawn peer.ingressId cache unreach, reach.length,
        { c with peers := c.peers.setPathChildren h cache }))
  | _, _, _ => .ret none

/-- an announcement makes the peer owe an End-of-RIB -/
def notePendingEor (h : Header) (announcements : List Nlri) (nValid : Nat) : Conn :=
  match c.peers.lookup h, announcements with
  | some peer, first :: _ =>
    if 0 < nValid ∧ peer.eorCapable then
      { c with peers := c.peers.addPendingEor h (nlriFamily first) }
    else c
  | _, _ => c

/-- the routes of an UPDATE and the message it came in -/
def forwardUpdate (msg : RouteMonitoring) (config : SessionConfig) (u : UpdateMessage) :
    Task Processed :=
  (c.extractRouteMonitoringRoutes msg.header u).bind fun
    | none => .ret (some (c, .invalidMessage))
    | some (payloads, nValid, c) =>
      match u.announcements.bind (·.mapM id) with
      | none => .ret (some (c, .invalidMessage))
      | some announcements =>
        let c := c.notePendingEor msg.header announcements nValid
        let raw := (c.peers.lookup msg.header).map fun peer =>
          Update.routeMonitoringRaw peer.ingressId (rawBody config.fourOctetEnabled msg.body)
        .ret (some (c, .routingUpdate (.bulk payloads) raw))

/-- an UPDATE of a view that is there -/
def processUpdate (msg : RouteMonitoring) (config : SessionConfig) (u : UpdateMessage) :
    Task Processed :=
  let pre := c.preprocess parser msg.header u
  if pre.1 then .ret (some (pre.2, .stateTransition)) else pre.2.forwardUpdate msg config u

def routeMonitoring (msg : RouteMonitoring) : Task Processed :=
  let h := msg.header
  (c.resolveView h).bind fun
    | none => .ret none
    | some (false, c) => .ret (some (c, .invalidMessage))
    | some (true, c) =>
      match c.peers.lookup h with
      | none => .ret none
      | some peer =>
        match parseUpdate parser (peer.sessionConfig.forBmpRib h.ribType) msg.update with
        | none => .ret (some (c, .invalidMessage))
        | some (config, retried, u) =>
          let c := if retried then
            { c with peers := c.peers.updatePeerConfig h (config.forBmpRib h.ribType) } else c
          c.processUpdate parser msg config u

/-! ## the other messages -/

/-- all peers go down -/
def disconnectIntoRegister : Task (List IngressId) :=
  match c.phase with
  | .dumping | .updating => markAll (c.peers.entries.flatMap (·.2.ids))
  | .initiating | .terminated => .ret []

def terminate : Task Processed :=
  c.disconnectIntoRegister.bind fun ids =>
    .ret (some (⟨.terminated, c.ingressId, ∅⟩,
      if ids.isEmpty then .stateTransition
      else .routingUpdate (.withdrawBulk (ids.map fun id => (id, none))) none))

def statisticsReport (h : Header) (body : Bytes) : MessageType :=
  match c.peers.lookup h with
  | none => .other
  | some peer => .routingUpdate (.peerStats peer.ingressId body) none

/-- The router tells its name, by which the ingress of an earlier connection of it is found.  The
handler then frees the one of this connection. -/
def initiate (sysName : Option String) : Task (Conn × List Update) :=
  (getInfo c.ingressId).bind fun info =>
    let identity := { info.getD IngressInfo.new with
      state := some .connected, name := some (sysName.getD "no-sysname") }
    (claim (.bmpRouter identity)).bind fun found =>
      match found.filter (· ≠ c.ingressId) with
      | some id =>
        (updateInfo id identity).bind fun _ =>
        (removeInfo c.ingressId).bind fun _ =>
          .ret (⟨.dumping, id, c.peers⟩, [.ingressReappeared id])
      | none =>
        (updateInfo c.ingressId identity).bind fun _ =>
          .ret (⟨.dumping, c.ingressId, c.peers⟩, [])

/-- a message after the Initiation -/
def processMsg : BmpMsg → Task Processed
  | .initiation _ => .ret (some (c, .other))
  | .peerUp msg => c.peerUp msg
  | .peerDown h => c.peerDown h
  | .routeMonitoring msg => c.routeMonitoring parser msg
  | .statisticsReport h body => .ret (some (c, c.statisticsReport h body))
  | .termination => c.terminate
  | .routeMirroring => .ret (some (c, .other))

end Conn

/-! ## the handler -/

inductive Link where
  | closed
  | connected (c : Conn)

/-- what reaches the task of a connection -/
inductive Wire where
  | accept (unit : IngressId) (remoteAddr : IpAddr)
  /-- a message, and whether the filter lets it through -/
  | message (msg : BmpMsg) (accepted : Bool)
  | lost

structure HandlerConfig where
  parser : Parser
  ignorePostPolicyRoutes : Bool
  forwardRawUpdates : Bool

def MessageType.updates (cfg : HandlerConfig) : MessageType → List Update
  | .routingUpdate update raw =>
    (if cfg.forwardRawUpdates then raw.toList else []) ++ [update]
  | .invalidMessage | .stateTransition | .other => []

/-- post-policy routes may be dropped before they are looked at -/
def BmpMsg.ignored (cfg : HandlerConfig) : BmpMsg → Bool
  | .routeMonitoring msg => cfg.ignorePostPolicyRoutes && msg.header.isPostPolicy
  | _ => false

def routerInfo (unit : IngressId) (remoteAddr : IpAddr) : IngressInfo :=
  { IngressInfo.new with
    parentIngress := some unit, remoteAddr := some remoteAddr, ingressType := some .bmp }

/-- a provisional ingress, until the router tells its name -/
def accept (unit : IngressId) (remoteAddr : IpAddr) : Task (Link × List Update) :=
  register.bind fun id =>
  (updateInfo id (routerInfo unit remoteAddr)).bind fun _ =>
    .ret (.connected ⟨.initiating, id, ∅⟩, [])

def stateInfo (state : IngressState) : IngressInfo := { IngressInfo.new with state := some state }

def lost (c : Conn) : Task (Link × List Update) :=
  (updateInfo c.ingressId (stateInfo .disconnected)).bind fun _ =>
  c.disconnectIntoRegister.bind fun ids =>
    .ret (.closed, [.withdrawBulk (ids.map fun id => (id, none)), .other])

def Conn.handle (cfg : HandlerConfig) (c : Conn) (msg : BmpMsg) : Task (Link × List Update) :=
  match c.phase with
  | .initiating => match msg with
    | .initiation sysName => (c.initiate sysName).bind fun (c, updates) =>
        .ret (.connected c, updates)
    | _ => .ret (.connected c, [])
  | .terminated => .ret (.connected c, [])
  | .dumping | .updating => (c.processMsg cfg.parser msg).bind fun
    | none => .ret (.closed, [])
    | some (c, mt) => .ret (.connected c, mt.updates cfg)

def Link.handle (cfg : HandlerConfig) : Link → Wire → Task (Link × List Update)
  | .closed, .accept unit remoteAddr => accept unit remoteAddr
  | .connected c, .message msg accepted =>
    if msg.ignored cfg || !accepted then .ret (.connected c, []) else c.handle cfg msg
  | .connected c, .lost => lost c
  | link, _ => .ret (link, [])

end Netom.Bmp
