import Netom.BmpIn.Exclusive
import Netom.Session.Process

/-!
# The tasks that feed the register

BMP connections, native BGP sessions and MRT imports share the register, and take turns on it one
operation at a time.  The programs of a BMP connection are those of `Netom.Bmp`; those of a native
session and of an MRT import are here.

* `negotiate`, `processUpdate`, `exit`  a native session;
* `peerIngress`, `mrtPathIngress`  an MRT import;
* `Source.start`  what a task does with what reaches it;
* `Intake.step`  all of them with the register.

Whether a session still is the one in `live_sessions`, and which one it replaces there, are inputs.
-/

namespace Netom.Ingest
open Atomic Bmp

/-! ## native BGP -/

/-- a connection, with the ingress it was given when it was accepted or the one it took over -/
structure Session where
  ingressId : IngressId
  peer : Option PeerKey
  pathChildren : PathCache

/-- what the two OPENs agree on -/
structure Negotiated where
  peer : PeerKey
  localAsn : Asn
  bgpId : BgpId
  addpathFamilies : List Nat

def Negotiated.info (n : Negotiated) : IngressInfo :=
  { IngressInfo.new with
    ingressType := some .bgp, state := some .connected, remoteAddr := some n.peer.1
    remoteAsn := some n.peer.2, localAsn := some n.localAsn, bgpId := some n.bgpId
    peerRibType := some .inPost, addpathFamilies := some n.addpathFamilies }

def idsForParent (parent : IngressId) : Bmp.Task (List IngressId) :=
  .call fun _ reg => (reg.idsForParent parent, reg)

/-- the path children that an earlier session left go down -/
def disconnectChildren (parent : IngressId) : Bmp.Task (List IngressId) :=
  (idsForParent parent).bind markAll

/-- a live session under another ingress goes down with its path children -/
def replaceOld (id : IngressId) : Option IngressId → Bmp.Task (List IngressId)
  | some old =>
    if old ≠ id then (idsForParent old).bind fun children => markAll (old :: children) else .ret []
  | none => .ret []

def negotiate (s : Session) (n : Negotiated) (old : Option IngressId) : Bmp.Task Session :=
  (claim (.bgpSession (Sessions.bgpQuery n.peer))).bind fun
    | some id =>
      (disconnectChildren id).bind fun _ =>
      (replaceOld id old).bind fun _ =>
      (updateInfo id n.info).bind fun _ =>
        .ret ⟨id, some n.peer, { s.pathChildren with children := ∅ }⟩
    | none =>
      (replaceOld s.ingressId old).bind fun _ =>
      (updateInfo s.ingressId n.info).bind fun _ =>
        .ret ⟨s.ingressId, some n.peer, { s.pathChildren with children := ∅ }⟩

/-- a child that is not in the cache; its entry copies the peer of the session -/
def mintPathChild (sessionId : IngressId) (cache : PathCache) (pathId : Nat) :
    Bmp.Task (IngressId × PathCache) :=
  (Bmp.claimOrRegister (.pathChild sessionId pathId)).bind fun (childId, _) =>
  (Prog.call fun _ reg => (bgpChildInfo sessionId pathId reg, reg)).bind fun info =>
  (updateInfo childId info).bind fun _ =>
    let children := cache.children.insert pathId childId
    let minted := cache.minted + 1
    if minted % pruneEvery = 0 then
      (pruneMissing children).bind fun children => .ret (childId, ⟨children, minted⟩)
    else .ret (childId, ⟨children, minted⟩)

def getOrCreatePathChild (sessionId : IngressId) (cache : PathCache) (pathId : Nat) :
    Bmp.Task (IngressId × PathCache) :=
  match cache.children.lookup pathId with
  | some childId => (refreshPathChild childId sessionId pathId).bind fun
    | true => .ret (childId, cache)
    | false =>
      mintPathChild sessionId { cache with children := cache.children.erase pathId } pathId
  | none => mintPathChild sessionId cache pathId

/-- the payloads of the announcements -/
def announced (sessionId : IngressId) :
    PathCache → List Exploded → Bmp.Task (List Payload × PathCache)
  | cache, [] => .ret ([], cache)
  | cache, (rr, none) :: reach => (announced sessionId cache reach).bind fun (rest, cache) =>
      .ret (⟨rr, sessionId, .active⟩ :: rest, cache)
  | cache, (rr, some pathId) :: reach =>
    (getOrCreatePathChild sessionId cache pathId).bind fun (id, cache) =>
    (announced sessionId cache reach).bind fun (rest, cache) =>
      .ret (⟨rr, id, .active⟩ :: rest, cache)

/-- the payloads of an UPDATE; `none` if a part of it does not parse -/
def processUpdate (s : Session) (u : UpdateMessage) : Bmp.Task (Option (List Payload) × Session) :=
  match explodeAnnouncements u, explodeWithdrawals u with
  | some reach, some unreach =>
    let lists := applyUpdateTreatment u.treatment reach unreach
    (announced s.ingressId s.pathChildren lists.1).bind fun (payloads, cache) =>
      .ret (some (payloads ++ withdrawn s.ingressId cache lists.2), { s with pathChildren := cache })
  | _, _ => .ret (none, s)

/-- only the session in `live_sessions` takes its ingress down -/
def exit (s : Session) (live : Bool) : Bmp.Task (List IngressId) :=
  if s.peer.isSome && live then
    markAll (s.ingressId :: s.pathChildren.children.entries.map (·.2))
  else .ret []

/-! ## MRT -/

structure MrtImport where
  unitId : IngressId
  /-- the ingresses of the peers that were resolved -/
  peers : List IngressId
  importState : MrtImportState

def findExistingPeer (query : IngressInfo) : Bmp.Task (Option IngressId) :=
  .call fun pick reg => (Assoc.findFrom pick.id (Claim.peer query).accepts reg.info, reg)

def peerIngress (m : MrtImport) (peer : PeerKey) : Bmp.Task MrtImport :=
  let query := mrtPeerQuery m.unitId peer.1 peer.2
  let families := m.importState.encodedAddpathFamilies peer
  let families := if families.isEmpty then none else some families
  (findExistingPeer query).bind fun
    | some id =>
      (updateInfo id { IngressInfo.new with addpathFamilies := families }).bind fun _ =>
        .ret { m with peers := id :: m.peers }
    | none =>
      register.bind fun id =>
      (updateInfo id { query with addpathFamilies := families }).bind fun _ =>
        .ret { m with peers := id :: m.peers }

def noteIngressAddpathFamily (st : MrtImportState) (id : IngressId) (afisafi : AfiSafiType) :
    Bmp.Task MrtImportState :=
  (getInfo id).bind fun
    | none => .ret st
    | some info => match info.remoteAddr, info.remoteAsn with
      | some addr, some asn =>
        let st := st.noteAddpathFamily (addr, asn) afisafi
        let families := st.encodedAddpathFamilies (addr, asn)
        (updateInfo id { IngressInfo.new with addpathFamilies := some families }).bind fun _ =>
          .ret st
      | _, _ => .ret st

def mrtPathIngress (m : MrtImport) (parentId : IngressId) (pathId : Nat) (afisafi : AfiSafiType) :
    Bmp.Task (IngressId × MrtImport) :=
  (noteIngressAddpathFamily m.importState parentId afisafi).bind fun st =>
    match st.pathChildren.lookup (parentId, pathId) with
    | some id => .ret (id, { m with importState := st })
    | none =>
      register.bind fun childId =>
      (Prog.call fun _ reg => (mrtChildInfo parentId pathId reg, reg)).bind fun info =>
      (updateInfo childId info).bind fun _ =>
        .ret (childId, { m with importState :=
          { st with pathChildren := st.pathChildren.insert (parentId, pathId) childId } })

/-! ## all together -/

inductive Source where
  | closed
  | bmp (link : Link)
  | bgp (s : Session)
  | mrt (m : MrtImport)

inductive BgpInput where
  | accepted
  /-- with the ingress of the live session that it replaces -/
  | negotiated (n : Negotiated) (old : Option IngressId)
  | update (u : UpdateMessage)
  | exit (live : Bool)

inductive MrtInput where
  | started
  | peer (peer : PeerKey)
  | path (parentId : IngressId) (pathId : Nat) (afisafi : AfiSafiType)

inductive Message where
  | bmp (cfg : HandlerConfig) (wire : Wire)
  | bgp (input : BgpInput)
  | mrt (input : MrtInput)

def startBmp (link : Link) (cfg : HandlerConfig) (wire : Wire) : Source × Bmp.Task Source :=
  (.bmp (link.begin cfg wire).1, (link.begin cfg wire).2.bind fun link => .ret (.bmp link))

def Session.handle (s : Session) : BgpInput → Bmp.Task Source
  | .negotiated n old =>
    if s.peer.isNone then (negotiate s n old).bind fun s => .ret (.bgp s) else .ret (.bgp s)
  | .update u =>
    if s.peer.isSome then (processUpdate s u).bind fun r => .ret (.bgp r.2) else .ret (.bgp s)
  | .exit live => (exit s live).bind fun _ => .ret .closed
  | .accepted => .ret (.bgp s)

def MrtImport.handle (m : MrtImport) : MrtInput → Bmp.Task Source
  | .peer peer => (peerIngress m peer).bind fun m => .ret (.mrt m)
  | .path parentId pathId afisafi =>
    if m.peers.contains parentId then
      (mrtPathIngress m parentId pathId afisafi).bind fun r => .ret (.mrt r.2)
    else .ret (.mrt m)
  | .started => .ret (.mrt m)

/-- what reaches a task that is not for it has no effect -/
def Source.start : Source → Message → Source × Bmp.Task Source
  | .closed, .bmp cfg wire => startBmp .closed cfg wire
  | .closed, .bgp .accepted =>
    (.closed, register.bind fun id => .ret (.bgp ⟨id, none, .empty⟩))
  | .closed, .mrt .started =>
    (.closed, register.bind fun id =>
      (updateInfo id IngressInfo.new).bind fun _ => .ret (.mrt ⟨id, [], ⟨∅, ∅⟩⟩))
  | .bmp link, .bmp cfg wire => startBmp link cfg wire
  | .bgp s, .bgp input => (.bgp s, s.handle input)
  | .mrt m, .mrt input => (.mrt m, m.handle input)
  | source, _ => (source, .ret source)

/-- the tasks `T` with the register -/
abbrev Intake (T : Type) := Sys T Register Pick Source

abbrev IntakeEvent (T : Type) := Event T Pick Message Upkeep

variable {T : Type}

def Intake.new : Intake T := ⟨Register.new, fun _ => .idle .closed⟩

def Intake.step [DecidableEq T] (s : Intake T) (e : IntakeEvent T) : Intake T :=
  Sys.step Source.start Upkeep.effect s e

end Netom.Ingest
