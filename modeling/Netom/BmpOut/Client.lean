import Netom.BmpOut.Message

/-!
# A bmp-out client: the table dump and the send paths

A client is dumped the table first, then the updates that came in meanwhile are replayed to it, and
then it is live.  Both the replay and the live path go through `sendUpdateToClient`, which keeps in
`knownPeers` the peers that a Peer Up was sent for.

A message goes to the task of the client over a bounded channel.  A send from the client's own task
waits for room (`blocking`), a live one does not, and asks for a disconnect if there is none.

* `dumped`  the dump;
* `sendUpdateToClient`  the send paths;
* `ClientState.step`  one update, replayed or live, with the register as it is then.
-/

namespace Netom

/-- what the channel of a client answers: `full n` at the `n`-th send, and closed for good from
`closedFrom` on -/
structure Channel where
  full : Nat → Bool
  closedFrom : Option Nat

def Channel.closed (ch : Channel) (n : Nat) : Bool := ch.closedFrom.any (· ≤ n)

inductive ClientPhase where
  | dumping
  | live
  deriving DecidableEq, Repr

structure ClientState where
  phase : ClientPhase
  dumpBuffer : List Update
  bufferedBytes : Nat
  knownPeers : Finset IngressId
  peerInfoCache : Assoc IngressId PeerInfo
  emitTargetCache : Assoc IngressId (IngressId × Option Nat)
  disconnectPending : Bool
  /-- the task of the dump and the replay has given up -/
  dumpFailed : Bool
  sends : Nat
  /-- the messages that the channel took, with the ingress each is about -/
  queued : List (Option IngressId × BmpMessage)

def ClientState.new : ClientState where
  phase := .dumping
  dumpBuffer := []
  bufferedBytes := 0
  knownPeers := ∅
  peerInfoCache := ∅
  emitTargetCache := ∅
  disconnectPending := false
  dumpFailed := false
  sends := 0
  queued := []

def ingressCacheCapacity : Nat := 65536

namespace ClientState
variable (c : ClientState)

def requestDisconnect : ClientState := { c with disconnectPending := true }

def addKnownPeer (id : IngressId) : ClientState := { c with knownPeers := insert id c.knownPeers }

/-- the peer, its header and the emit targets of it and its path children are forgotten -/
def removeKnownPeer (id : IngressId) : ClientState :=
  { c with
    peerInfoCache := c.peerInfoCache.erase id
    emitTargetCache := Assoc.filterMapVals
      (fun i target => if i ≠ id ∧ target.1 ≠ id then some target else none) c.emitTargetCache
    knownPeers := c.knownPeers.erase id }

def cachePeerInfo (id : IngressId) (peer : PeerInfo) : ClientState :=
  { c with peerInfoCache := c.peerInfoCache.insert id peer }

/-- a full cache is started over -/
def cacheEmitTarget (id : IngressId) (target : IngressId × Option Nat) : ClientState :=
  if c.emitTargetCache.entries.length ≥ ingressCacheCapacity ∧ id ∉ c.emitTargetCache then
    { c with emitTargetCache := (∅ : Assoc IngressId (IngressId × Option Nat)).insert id target }
  else { c with emitTargetCache := c.emitTargetCache.insert id target }

def sendMessageMode (ch : Channel) (id : Option IngressId) (msg : BmpMessage) (blocking : Bool) :
    Bool × ClientState :=
  if ch.closed c.sends then (false, { c with sends := c.sends + 1 })
  else if blocking || !ch.full c.sends then
    (true, { c with sends := c.sends + 1, queued := c.queued ++ [(id, msg)] })
  else (false, { c with sends := c.sends + 1, disconnectPending := true })

/-- a path child is emitted as its session, with its path id -/
def emitTarget (id : IngressId) (info : IngressInfo) : IngressId × Option Nat :=
  if info.ingressType = some .bgpPath then (info.parentIngress.getD id, info.pathId)
  else (id, none)

def resolveEmitTarget (reg : Register) (id : IngressId) :
    Option (IngressId × Option Nat) × ClientState :=
  match c.emitTargetCache.lookup id with
  | some target => (some target, c)
  | none =>
    match reg.get id with
    | none => (none, c.requestDisconnect)
    | some info => (some (emitTarget id info), c.cacheEmitTarget id (emitTarget id info))

end ClientState

/-! ## the send paths -/

section paths
variable (cfg : BmpOutConfig) (ch : Channel) (reg : Register) (blocking : Bool)

/-- the block that three of the send paths share: a peer that is not known yet is made known, and
gets its Peer Up if the register has an entry for it -/
def ensurePeerUp (c : ClientState) (id : IngressId) : Bool × ClientState :=
  if id ∈ c.knownPeers then (true, c)
  else
    match reg.get id with
    | none => (true, c.addKnownPeer id)
    | some info =>
      match (c.addKnownPeer id).sendMessageMode ch (some id)
          (.peerUp (buildPeerInfoForEmit cfg info)) blocking with
      | (true, c) => (true, c)
      | (false, c) => (false, c.removeKnownPeer id)

/-- a message that could not be built is skipped -/
def sendBuilt (c : ClientState) (id : IngressId) : Option BmpMessage → Bool × ClientState
  | some msg => c.sendMessageMode ch (some id) msg blocking
  | none => (true, c)

def sendRawRouteMonitoring (c : ClientState) (id : IngressId) (body : Bytes) :
    Bool × ClientState :=
  match c.peerInfoCache.lookup id with
  | some peer => sendBuilt ch blocking c id (buildRouteMonitoringRaw peer body)
  | none =>
    match ensurePeerUp cfg ch reg blocking c id with
    | (false, c) => (false, c)
    | (true, c) =>
      match reg.get id with
      | none => (true, c)
      | some info =>
        let peer := buildPeerInfoForEmit cfg info
        sendBuilt ch blocking (c.cachePeerInfo id peer) id (buildRouteMonitoringRaw peer body)

def sendPeerStats (c : ClientState) (id : IngressId) (body : Bytes) : Bool × ClientState :=
  match ensurePeerUp cfg ch reg blocking c id with
  | (false, c) => (false, c)
  | (true, c) =>
    match reg.get id with
    | none => (true, c)
    | some info => c.sendMessageMode ch (some id)
        (.statisticsReport (buildPeerInfoForEmit cfg info) body) blocking

def sendPayloadToClient (c : ClientState) (payload : Payload) : Bool × ClientState :=
  let build peer pathId := buildRouteMonitoringFromRoute cfg peer payload.rxValue
    (payload.routeStatus = .withdrawn) pathId
  match c.resolveEmitTarget reg payload.ingressId with
  | (none, c) => (false, c)
  | (some (id, pathId), c) =>
    match c.peerInfoCache.lookup id with
    | some peer => sendBuilt ch blocking c id (build peer pathId)
    | none =>
      match ensurePeerUp cfg ch reg blocking c id with
      | (false, c) => (false, c)
      | (true, c) =>
        match reg.get id with
        | none => (false, c.requestDisconnect)
        | some info =>
          let peer := buildPeerInfoForEmit cfg info
          sendBuilt ch blocking (c.cachePeerInfo id peer) id (build peer pathId)

/-- the entry a Peer Down is built from: the snapshot, the register's, or one with nothing set -/
def peerDownInfo (id : IngressId) (snapshotInfo : Option IngressInfo) : IngressInfo :=
  (snapshotInfo.or (reg.get id)).getD IngressInfo.new

def sendPeerDown (c : ClientState) (entry : IngressId × Option IngressInfo) : Bool × ClientState :=
  if entry.1 ∈ c.knownPeers then
    let msg := .peerDown (buildPeerInfoForEmit cfg (peerDownInfo reg entry.1 entry.2))
    let (sent, c) := c.sendMessageMode ch (some entry.1) msg blocking
    (sent, c.removeKnownPeer entry.1)
  else (true, c)

def sendPeerReappeared (c : ClientState) (id : IngressId) : Bool × ClientState :=
  match c.resolveEmitTarget reg id with
  | (none, c) => (false, c)
  | (some (id, _), c) =>
    match reg.get id with
    | none => (true, c)
    | some _ => ensurePeerUp cfg ch reg blocking c id

def sendUpdateToClient (c : ClientState) : Update → Bool × ClientState
  | .single payload => sendPayloadToClient cfg ch reg blocking c payload
  | .bulk payloads => Run.loop (sendPayloadToClient cfg ch reg blocking) c payloads
  | .withdraw id _ => sendPeerDown cfg ch reg blocking c (id, none)
  | .withdrawBulk entries => Run.loop (sendPeerDown cfg ch reg blocking) c entries
  | .ingressReappeared id => sendPeerReappeared cfg ch reg blocking c id
  | .peerStats id body => sendPeerStats cfg ch reg blocking c id body
  | .routeMonitoringRaw id body => sendRawRouteMonitoring cfg ch reg blocking c id body
  | .other => (true, c)

end paths

/-! ## the dump -/

/-- the entries of a type, in a state if one is given -/
def Register.search (reg : Register) (ingressType : IngressType) (state : Option IngressState) :
    List (IngressId × IngressInfo) :=
  (reg.info.entries.filter fun e => e.2.ingressType = some ingressType &&
    (state.isNone || e.2.state = state)).map fun e => (e.1, e.2)

def dumpPeers (reg : Register) : List (IngressId × IngressInfo) :=
  reg.search .bgpViaBmp (some .connected) ++ reg.search .bgp (some .connected) ++
    reg.search .mrt none

/-- what happens during the walk of the store -/
inductive DumpEvent where
  /-- a record that is emitted under `id`, and the register at that time -/
  | record (reg : Register) (id : IngressId)
  /-- a Route Monitoring message for a peer: aggregated routes, or an End-of-RIB marker -/
  | message (id : IngressId) (bgpUpdate : Bytes)

structure DumpState where
  client : ClientState
  peerInfoMap : Assoc IngressId PeerInfo
  discovered : List IngressId

def isPeerType (info : IngressInfo) : Bool :=
  info.ingressType = some .bgpViaBmp || info.ingressType = some .bgp ||
    info.ingressType = some .mrt

section dump
variable (cfg : BmpOutConfig) (ch : Channel)

def dumpPeerUp (d : DumpState) (entry : IngressId × IngressInfo) : Bool × DumpState :=
  let peer := buildPeerInfoForEmit cfg entry.2
  match d.client.sendMessageMode ch (some entry.1) (.peerUp peer) true with
  | (true, c) => (true,
    { d with
      client := c.addKnownPeer entry.1, peerInfoMap := d.peerInfoMap.insert entry.1 peer })
  | (false, c) => (false, { d with client := c })

def walkStep (d : DumpState) : DumpEvent → Bool × DumpState
  | .record reg id =>
    if (d.peerInfoMap.lookup id).isSome then (true, d)
    else
      match (reg.get id).filter isPeerType with
      | none => (true, d)
      | some info =>
        let peer := buildPeerInfoForEmit cfg info
        match d.client.sendMessageMode ch (some id) (.peerUp peer) true with
        | (true, c) => (true, ⟨c, d.peerInfoMap.insert id peer, d.discovered ++ [id]⟩)
        | (false, c) => (false, { d with client := c })
  | .message id bgpUpdate =>
    match d.peerInfoMap.lookup id with
    | none => (true, d)
    | some peer =>
      let (sent, c) :=
        d.client.sendMessageMode ch (some id) (.routeMonitoring peer bgpUpdate) true
      (sent, { d with client := c })

/-- the Initiation, and nothing known yet -/
def beginDump (c : ClientState) : Bool × DumpState :=
  let (sent, c) := c.sendMessageMode ch none .initiation true
  (sent, ⟨c, ∅, []⟩)

/-- the peers that the walk found become known at its end -/
def DumpState.finish (d : DumpState) : ClientState :=
  d.discovered.foldl ClientState.addKnownPeer d.client

def performInitialDump (reg : Register) (walk : List DumpEvent) : Bool × ClientState :=
  match beginDump ch ClientState.new with
  | (false, d) => (false, d.client)
  | (true, d) =>
    match Run.loop (dumpPeerUp cfg ch) d (dumpPeers reg) with
    | (false, d) => (false, d.client)
    | (true, d) =>
      match Run.loop (walkStep cfg ch) d walk with
      | (false, d) => (false, d.client)
      | (true, d) => (true, d.finish)

/-- the client when its replay begins; without a RIB there is only the Initiation -/
def dumped : Option (Register × List DumpEvent) → ClientState
  | some (reg, walk) =>
    let (sent, c) := performInitialDump cfg ch reg walk
    { c with dumpFailed := !sent }
  | none => (beginDump ch ClientState.new).2.client

end dump

/-! ## after the dump -/

inductive ClientEvent where
  /-- an update, out of the dump buffer or live, and the register at that time -/
  | deliver (reg : Register) (update : Update)
  /-- also after a failed replay, as it is without a RIB -/
  | goLive
  | disconnect

/-- a replay ends at the first update that fails; a live update passes a client by that was asked to
disconnect -/
def ClientState.step (cfg : BmpOutConfig) (ch : Channel) (c : ClientState) :
    ClientEvent → ClientState
  | .deliver reg update =>
    match c.phase with
    | .dumping =>
      if c.dumpFailed then c
      else
        let (sent, c) := sendUpdateToClient cfg ch reg true c update
        { c with dumpFailed := !sent }
    | .live =>
      if c.disconnectPending then c else (sendUpdateToClient cfg ch reg false c update).2
  | .goLive => { c with phase := .live }
  | .disconnect => c.requestDisconnect

/-! ## a neighbor -/

/-- no distinguishers, and every UPDATE is encoded as no bytes -/
def plainOut : BmpOutConfig := ⟨.off, fun _ => 0, fun _ _ _ => some []⟩

def roomy : Channel := ⟨fun _ => false, none⟩

def neighborInfo : IngressInfo :=
  { IngressInfo.new with
    ingressType := some .bgpViaBmp, state := some .connected, remoteAddr := some (.v4 0xc0000201#32),
    remoteAsn := some 64500 }

/-- ingress 1 is a neighbor -/
def neighborRegister : Register := ⟨2, (∅ : Assoc IngressId IngressInfo).insert 1 neighborInfo⟩

def neighborPayload : Payload :=
  ⟨.route false (defaultRoute .v4) ⟨.notChecked, true, [some (.origin .igp)]⟩, 1, .active⟩

end Netom
