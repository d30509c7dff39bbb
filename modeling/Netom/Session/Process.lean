import Netom.Ingest.Update

/-!
# Native BGP sessions

Every accepted connection runs `process` in a task of its own: it waits for the session to be
negotiated, takes over the ingress id of an earlier session with the peer, replaces that session
in `live_sessions`, feeds UPDATEs to the gate, and withdraws its routes at the end.  The tasks
share the ingress register, the map of live sessions and the gate.

A step is one critical section of a lock, one emission through the gate, or one command sent to
another task.  The accesses of the register while one UPDATE is processed are taken together.

* `SessionPc`  where a task stands;
* `Sessions.step`  one step of one task;
* `Emission`  what the gate gets, in the order of `trace`.
-/

namespace Netom

/-- the updates a session sends through the gate -/
inductive Emission where
  | withdraw (id : IngressId)
  | withdrawBulk (ids : List IngressId)
  | bulk (payloads : List Payload)
  deriving DecidableEq, Repr

abbrev PeerKey := IpAddr × Asn

/-- the entry of a live session; `conn` is the owner of its command channel -/
structure LiveEntry (C : Type) where
  sid : Nat
  conn : C
  ingressId : IngressId

inductive SessionPc (C : Type) where
  | accepted
  /-- an earlier id is claimed; `ids_for_parent` is next -/
  | listChildren
  | markChildren (todo children : List IngressId)
  | withdrawStale (children : List IngressId)
  /-- `live_sessions`: remove the entry of the peer -/
  | takeOld
  /-- ask the task of the old entry to disconnect -/
  | disconnectOld (old : LiveEntry C)
  | listOld (oldId : IngressId)
  | withdrawOld (oldId : IngressId) (children : List IngressId)
  | markOld (todo : List IngressId)
  /-- `live_sessions`: insert our own entry -/
  | insertSelf
  | updateInfo
  /-- in the loop, waiting for a message -/
  | established
  /-- an UPDATE is processed and goes to the gate next -/
  | emit (payloads : List Payload)
  /-- out of `live_sessions`; the withdrawal goes to the gate next -/
  | withdraw
  | closed

structure SessionLocal (C : Type) where
  pc : SessionPc C
  peer : PeerKey
  /-- what the negotiation tells the register -/
  negotiated : IngressInfo
  sessionIngressId : IngressId
  sid : Option Nat
  pathChildren : PathCache
  disconnectAsked : Bool

structure Sessions (C : Type) where
  ingresses : Register
  liveSessions : Assoc PeerKey (LiveEntry C)
  sessionIdCounter : Nat
  conns : C → SessionLocal C
  trace : List (C × Emission)

/-- what happens to a task; `tick` is its next step where that is determined -/
inductive SessionInput where
  | negotiate
  | update (u : UpdateMessage)
  | exit
  | tick

section sessions
variable {C : Type} [DecidableEq C]

namespace Sessions
variable (s : Sessions C) (c : C)

def modifyConn (f : SessionLocal C → SessionLocal C) : Sessions C :=
  { s with conns := Function.update s.conns c (f (s.conns c)) }

def goto (pc : SessionPc C) : Sessions C := s.modifyConn c fun l => { l with pc := pc }

def emitUpdate (e : Emission) : Sessions C := { s with trace := s.trace ++ [(c, e)] }

def setIngresses (reg : Register) : Sessions C := { s with ingresses := reg }

def bgpQuery (peer : PeerKey) : IngressInfo :=
  { IngressInfo.new with
    remoteAddr := some peer.1, remoteAsn := some peer.2, ingressType := some .bgp }

/-- `SessionNegotiated`: a fresh session id, no path children, and a claim on an earlier id -/
def negotiate : Sessions C :=
  let l := s.conns c
  let fresh : SessionLocal C :=
    { l with
      sid := some s.sessionIdCounter
      pathChildren := { l.pathChildren with children := ∅ } }
  let s := { s with sessionIdCounter := s.sessionIdCounter + 1 }
  match s.ingresses.findExistingBgpSessionAndClaim (bgpQuery l.peer) with
  | (some existingId, reg) =>
    (s.setIngresses reg).modifyConn c fun _ =>
      { fresh with sessionIngressId := existingId, pc := .listChildren }
  | (none, reg) => (s.setIngresses reg).modifyConn c fun _ => { fresh with pc := .takeOld }

def processUpdate (u : UpdateMessage) : Sessions C :=
  let l := s.conns c
  match BgpIn.processUpdate ⟨s.ingresses, l.pathChildren⟩ u l.sessionIngressId with
  | some (payloads, st) =>
    (s.setIngresses st.ingresses).modifyConn c fun l =>
      { l with pathChildren := st.pathChildren, pc := .emit payloads }
  | none => s

def pathChildIds (l : SessionLocal C) : List IngressId :=
  l.pathChildren.children.entries.map (·.2)

/-- the end of `process`: only the owner of the entry leaves and withdraws -/
def teardown : Sessions C :=
  let l := s.conns c
  if l.sid.isSome ∧ (s.liveSessions.lookup l.peer).map (·.sid) = l.sid then
    let reg := (l.sessionIngressId :: pathChildIds l).foldl Register.markDisconnected s.ingresses
    ({ s with liveSessions := s.liveSessions.erase l.peer }.setIngresses reg).goto c .withdraw
  else s.goto c .closed

/-- a withdrawal of a session's id, with its path children if there are any -/
def withdrawal (id : IngressId) (children : List IngressId) : Emission :=
  if children.isEmpty then .withdraw id else .withdrawBulk (id :: children)

def tick : Sessions C :=
  let l := s.conns c
  match l.pc with
  | .listChildren =>
    let children := s.ingresses.idsForParent l.sessionIngressId
    s.goto c (.markChildren children children)
  | .markChildren [] children => s.goto c (.withdrawStale children)
  | .markChildren (id :: todo) children =>
    (s.setIngresses (s.ingresses.markDisconnected id)).goto c (.markChildren todo children)
  | .withdrawStale children =>
    (s.emitUpdate c (withdrawal l.sessionIngressId children)).goto c .takeOld
  | .takeOld =>
    let s' := { s with liveSessions := s.liveSessions.erase l.peer }
    match s.liveSessions.lookup l.peer with
    | some old => s'.goto c (.disconnectOld old)
    | none => s'.goto c .insertSelf
  | .disconnectOld old =>
    (s.modifyConn old.conn fun l => { l with disconnectAsked := true }).goto c
      (if old.ingressId ≠ l.sessionIngressId then .listOld old.ingressId else .insertSelf)
  | .listOld oldId => s.goto c (.withdrawOld oldId (s.ingresses.idsForParent oldId))
  | .withdrawOld oldId children =>
    (s.emitUpdate c (.withdrawBulk (oldId :: children))).goto c (.markOld (oldId :: children))
  | .markOld [] => s.goto c .insertSelf
  | .markOld (id :: todo) =>
    (s.setIngresses (s.ingresses.markDisconnected id)).goto c (.markOld todo)
  | .insertSelf =>
    { s with
      liveSessions := s.liveSessions.insert l.peer
        ⟨l.sid.getD 0, c, l.sessionIngressId⟩ }.goto c .updateInfo
  | .updateInfo =>
    (s.setIngresses (s.ingresses.updateInfo l.sessionIngressId l.negotiated)).goto c .established
  | .emit payloads => (s.emitUpdate c (.bulk payloads)).goto c .established
  | .withdraw => (s.emitUpdate c (withdrawal l.sessionIngressId (pathChildIds l))).goto c .closed
  | .accepted | .established | .closed => s

/-- an input that does not fit where the task stands has no effect -/
def step (s : Sessions C) (e : C × SessionInput) : Sessions C :=
  match e.2, (s.conns e.1).pc with
  | .negotiate, .accepted => s.negotiate e.1
  | .update u, .established => s.processUpdate e.1 u
  | .exit, .established => s.teardown e.1
  | .exit, .accepted => s.goto e.1 .closed
  | .tick, _ => s.tick e.1
  | _, _ => s

/-! ## what the small changes leave alone -/

variable {s c}

@[simp] lemma modifyConn_self (f : SessionLocal C → SessionLocal C) :
    (s.modifyConn c f).conns c = f (s.conns c) := Function.update_self ..
@[simp] lemma modifyConn_ne {c' : C} (h : c' ≠ c) (f : SessionLocal C → SessionLocal C) :
    (s.modifyConn c f).conns c' = s.conns c' := Function.update_of_ne h ..
@[simp] lemma goto_self (pc : SessionPc C) :
    (s.goto c pc).conns c = { s.conns c with pc := pc } := modifyConn_self _
@[simp] lemma goto_ne {c' : C} (h : c' ≠ c) (pc : SessionPc C) :
    (s.goto c pc).conns c' = s.conns c' := modifyConn_ne h _
@[simp] lemma goto_counter (pc : SessionPc C) :
    (s.goto c pc).sessionIdCounter = s.sessionIdCounter := rfl

end Sessions

end sessions

end Netom
