import Netom.BmpIn.Keeps

/-!
# A live peer has its ingress id to itself

The connections of all routers share one register.  Their tasks take turns, one register operation
at a time, and in between the RIB reaps idle path children, collects entries that are down and
marks ingresses it has routes for as connected.

* `Upkeep`  what else happens to the register;
* `Monitor.step`  the connections with the register;
* `Live`  a header that is up on a connection;
* `live_exclusive`  **two live headers have different ids, and the entry of each is connected**, as
  long as fewer than 2^32 ids are issued;
* `live_wrap`  after that an id is issued again while a live peer has it.
-/

namespace Netom.Bmp
open Atomic Function Run

/-! ## the rest of the system -/

inductive Upkeep where
  /-- another component takes an id -/
  | issue
  /-- the reaper retires a path child that is idle -/
  | retire (id : IngressId) (activity : Nat)
  /-- the garbage collector removes an entry that is down -/
  | collect (id : IngressId)
  /-- the RIB has a route of an ingress that it took for withdrawn -/
  | reactivate (id : IngressId)

def Upkeep.effect : Upkeep → Register → Register
  | .issue, reg => reg.fetchAdd.2
  | .retire id activity, reg => (reg.retirePathChild id activity).2
  | .collect id, reg => (reg.removeIfDisconnected id).2
  | .reactivate id, reg =>
    -- ids reach the RIB in payloads, so they were issued
    if reg.Issued id then reg.updateInfo id (stateInfo .connected) else reg

section upkeep
variable {g : Share} {reg : Register}

lemma holds_retire (hg : g.Holds reg) (id : IngressId) (activity : Nat) :
    g.Holds (reg.retirePathChild id activity).2 := by
  rcases reg.retirePathChild_cases id activity with hr | ⟨info, reg', hr, he, ht, hs, hl⟩
  · rw [hr]
    exact hg
  · rw [hr]
    have hk : reg'.info.lookup id = some info.down := (hl id).trans (if_pos rfl)
    refine holds_at hg hs (fun j hj => (hl j).trans (if_neg hj)) (hg.sane.issued id info he) ?_ ?_ ?_
    · intro info' h'
      rw [hk] at h'
      cases h'
      exact hg.sane.entry id info he
    · -- no owned id is that of a path child
      intro r h'
      rw [he] at h'
      cases r with
      | fresh =>
        rw [(h' info rfl).1] at ht
        cases ht
      | claimed =>
        obtain ⟨_, hi, _, hn⟩ := h'
        cases hi
        exact absurd ht hn
      | router | peer _ =>
        obtain ⟨_, hi, hb, _⟩ := h'
        cases hi
        rw [hb] at ht
        cases ht
    · intro h'
      rw [he] at h'
      rw [hk]
      exact childLike_map (f := IngressInfo.down) (fun _ => rfl) (fun _ => rfl) h'

lemma holds_collect (hg : g.Holds reg) (id : IngressId) :
    g.Holds (reg.removeIfDisconnected id).2 := by
  rcases reg.removeIfDisconnected_cases id with hr | ⟨info, hr, he, hd⟩
  · rw [hr]
    exact hg
  · rw [hr]
    have hk : (reg.remove id).info.lookup id = none := (reg.lookup_remove id id).trans (if_pos rfl)
    refine holds_at hg rfl (fun j hj => (reg.lookup_remove id j).trans (if_neg hj))
      (hg.sane.issued id info he) ?_ ?_ ?_
    · intro info' h'
      rw [hk] at h'
      cases h'
    · -- no owned id is down
      intro r h'
      rw [he] at h'
      have hr' : ¬ Role.router.Suits (some info) := by
        intro h'
        obtain ⟨_, hi, _, _, hst⟩ := h'
        cases hi
        rw [hd] at hst
        rcases hst with hst | ⟨hst, _⟩ <;> cases hst
      exact absurd h' (not_suits (by rw [hd]; decide) hr' r)
    · intro _ info' h'
      rw [hk] at h'
      cases h'

lemma holds_reactivate (hg : g.Holds reg) {id : IngressId} (hid : reg.Issued id) :
    g.Holds (reg.updateInfo id (stateInfo .connected)) := by
  have hk := reg.lookup_updateInfo id (stateInfo .connected) id
  rw [if_pos rfl] at hk
  refine holds_at hg (reg.serial_updateInfo id _)
    (fun j hj => (reg.lookup_updateInfo id _ j).trans (if_neg hj)) hid ?_ ?_ ?_
  · intro info h'
    rw [hk] at h'
    cases h'
    cases he : reg.info.lookup id with
    | none => exact ⟨fun _ => rfl, fun _ => rfl⟩
    | some old => exact hg.sane.entry id old he
  · intro r h'
    rw [hk]
    cases he : reg.info.lookup id with
    | none =>
      rw [he] at h'
      cases r with
      | fresh =>
        intro info hi
        cases hi
        exact ⟨rfl, rfl, rfl, rfl⟩
      | claimed | router | peer _ => obtain ⟨_, hi, _⟩ := h'; cases hi
    | some old =>
      rw [he] at h'
      cases r with
      | fresh =>
        intro info hi
        cases hi
        obtain ⟨h1, h2, h3, _⟩ := h' old rfl
        exact ⟨h1, h2, h3, rfl⟩
      | claimed =>
        obtain ⟨_, hi, _, hn⟩ := h'
        cases hi
        exact ⟨_, rfl, rfl, hn⟩
      | router =>
        obtain ⟨_, hi, ht, hasn, _⟩ := h'
        cases hi
        exact ⟨_, rfl, ht, hasn, Or.inl rfl⟩
      | peer _ =>
        obtain ⟨_, hi, ht, _⟩ := h'
        cases hi
        exact ⟨_, rfl, ht, rfl⟩
  · intro h'
    rw [hk]
    intro info hi
    cases hi
    cases he : reg.info.lookup id with
    | none => exact ⟨Or.inl rfl, rfl⟩
    | some old => exact h' old he

lemma holds_upkeep (e : Upkeep) (hg : g.Holds reg) : g.Holds (e.effect reg) := by
  cases e with
  | issue => exact holds_fetchAdd hg
  | retire id activity => exact holds_retire hg id activity
  | collect id => exact holds_collect hg id
  | reactivate id =>
    show g.Holds (if _ then _ else _)
    split
    · rename_i hid
      exact holds_reactivate hg hid
    · exact hg

end upkeep

/-! ## live peers -/

section live
variable {T : Type}

/-- the connections `T` with their register -/
abbrev Monitor (T : Type) := Sys T Register Pick Link

def Monitor.new : Monitor T := ⟨Register.new, fun _ => .idle .closed⟩

/-- a connection takes up what reaches it, under the configuration of its unit -/
def Link.start (link : Link) (m : HandlerConfig × Wire) : Link × Task Link := link.begin m.1 m.2

def Monitor.step [DecidableEq T] (s : Monitor T)
    (e : Event T Pick (HandlerConfig × Wire) Upkeep) : Monitor T :=
  Sys.step Link.start Upkeep.effect s e

def Live (s : Monitor T) (t : T) (h : Header) (id : IngressId) : Prop :=
  ∃ c peer, (s.task t).kept = .connected c ∧ c.peers.lookup h = some peer ∧ peer.ingressId = id

def Share.nil : Share := ⟨fun _ => none, ∅⟩

lemma inv_new : Sys.Inv shares LinkOk (Monitor.new : Monitor T) fun _ => Share.nil where
  holds _ := by
    refine ⟨⟨Nat.le_refl 1, ?_, ?_⟩, ?_, ?_⟩
    · intro id info h
      cases h
    · intro id info h
      cases h
    · intro id r h
      cases h
    · intro id h
      cases h
  apart _ _ _ := ⟨fun _ h => absurd rfl h, fun _ h => absurd rfl h⟩
  task _ := trivial

/-- **A live peer has its ingress to itself**: whatever the connections receive and in whatever order
their register operations and the upkeep come, as long as fewer than 2^32 ids are issued, two
headers that are live do not share an id, and the entry of the id is there and connected. -/
theorem live_exclusive [DecidableEq T] {es : List (Event T Pick (HandlerConfig × Wire) Upkeep)}
    (hf : Run.Along Monitor.step (fun s e => (Monitor.step s e).shared.serial ≤ 2 ^ 32)
      Monitor.new es) :
    let s := run Monitor.step (Monitor.new : Monitor T) es
    (∀ t h t' h' id, Live s t h id → Live s t' h' id → t = t' ∧ h = h') ∧
    ∀ t h id, Live s t h id →
      ∃ info, s.shared.get id = some info ∧ info.state = some .connected := by
  intro s
  obtain ⟨share, hinv⟩ := Sys.run_inv (fun l m g h => keeps_begin h) (fun e g reg => holds_upkeep e)
    (inv_new : Sys.Inv shares LinkOk (Monitor.new : Monitor T) _) hf
  have howns : ∀ t h id, Live s t h id → (share t).owns id = some (.peer h) := by
    intro t h id hlive
    obtain ⟨c, peer, hk, hl, rfl⟩ := hlive
    have hok : LinkOk (s.task t).kept (share t) := hinv.ok t
    rw [hk] at hok
    exact (hok.peer h peer hl).1
  constructor
  · intro t h t' h' id hl hl'
    have ho := howns t h id hl
    have ho' := howns t' h' id hl'
    have ht : t = t' := by
      by_contra hne
      have hnone := ((hinv.apart t t' hne).1 id (by rw [ho]; exact Option.some_ne_none _)).1
      rw [ho'] at hnone
      cases hnone
    subst ht
    rw [ho] at ho'
    cases ho'
    exact ⟨rfl, rfl⟩
  · intro t h id hl
    obtain ⟨info, he, _, hst⟩ := ((hinv.holds t).owned id _ (howns t h id hl)).2
    exact ⟨info, he, hst⟩

end live

/-! ## two peers of a router -/

/-- a global peer at 192.0.2.`host` -/
def neighborHeader (host : BitVec 128) : Header :=
  ⟨0, 0, 0, 0xc0000200 ||| host, 64500, 1⟩

def neighborUp (host : BitVec 128) : PeerUpNotification :=
  ⟨neighborHeader host, ⟨true, []⟩, false, 64501, none⟩

/-- nothing parses -/
def deafHandler : HandlerConfig := ⟨⟨fun _ _ => none, fun _ => none⟩, false, false⟩

def firstPick : Pick := ⟨0, neighborHeader 1⟩

/-- a router connects and reports a peer; the register is used eight times -/
def firstPeerUp : List (Event Bool Pick (HandlerConfig × Wire) Upkeep) :=
  [.recv false (deafHandler, .accept 0 (.v4 0xc6336401)), .go false firstPick, .go false firstPick,
    .recv false (deafHandler, .message (.initiation none) true), .go false firstPick,
    .go false firstPick, .go false firstPick,
    .recv false (deafHandler, .message (.peerUp (neighborUp 1)) true), .go false firstPick,
    .go false firstPick, .go false firstPick]

def twoPeersUp : List (Event Bool Pick (HandlerConfig × Wire) Upkeep) :=
  firstPeerUp ++ [.recv false (deafHandler, .message (.peerUp (neighborUp 2)) true),
    .go false firstPick, .go false firstPick, .go false firstPick]

theorem live_exclusive_twoPeers :
    let s := run Monitor.step Monitor.new twoPeersUp
    Live s false (neighborHeader 1) 2 ∧ Live s false (neighborHeader 2) 3 ∧
      ¬ Live s false (neighborHeader 2) 2 ∧
      ∃ info, s.shared.get 3 = some info ∧ info.state = some .connected := by
  have hone : Live (run Monitor.step Monitor.new twoPeersUp) false (neighborHeader 1) 2 :=
    ⟨_, _, rfl, rfl, rfl⟩
  have htwo : Live (run Monitor.step Monitor.new twoPeersUp) false (neighborHeader 2) 3 :=
    ⟨_, _, rfl, rfl, rfl⟩
  have hf : Run.Along Monitor.step (fun s e => (Monitor.step s e).shared.serial ≤ 2 ^ 32)
      Monitor.new twoPeersUp := by
    decide +kernel
  refine ⟨hone, htwo, fun h => ?_, (live_exclusive hf).2 false (neighborHeader 2) 3 htwo⟩
  exact absurd ((live_exclusive hf).1 _ _ _ _ 2 hone h).2 (by decide)

/-! ## the serial number wraps around -/

/-- what a connection that comes and goes leaves in the register -/
def afterFlap (reg : Register) : Register :=
  (reg.fetchAdd.2.updateInfo reg.fetchAdd.1 (routerInfo 0 (.v4 0xc6336401))).updateInfo
    reg.fetchAdd.1 (stateInfo .disconnected)

/-- only the entry 2 is one of a peer, and it is connected -/
structure Tame (reg : Register) : Prop where
  peer : ∀ info, reg.info.lookup 2 = some info → info.state = some .connected
  other : ∀ id info, id ≠ 2 → reg.info.lookup id = some info → info.remoteAsn = none

lemma tame_updateInfo {reg : Register} {k : IngressId} {new : IngressInfo} (h : Tame reg)
    (hk : k ≠ 2) (hn : new.remoteAsn = none) : Tame (reg.updateInfo k new) := by
  constructor
  · intro info he
    rw [reg.lookup_updateInfo, if_neg (Ne.symm hk)] at he
    exact h.peer info he
  · intro id info h2 he
    rw [reg.lookup_updateInfo] at he
    by_cases hid : id = k
    · rw [if_pos hid] at he
      cases he
      rw [unset_written (fun _ _ => rfl) hn]
      cases hold : reg.info.lookup k with
      | none => rfl
      | some old => exact h.other k old hk hold
    · rw [if_neg hid] at he
      exact h.other id info h2 he

lemma tame_afterFlap {reg : Register} (h : Tame reg) (hid : reg.fetchAdd.1 ≠ 2) :
    Tame (afterFlap reg) := by
  have hissue : Tame reg.fetchAdd.2 := ⟨h.peer, h.other⟩
  exact tame_updateInfo (tame_updateInfo hissue hid rfl) hid rfl

lemma serial_afterFlap (reg : Register) : (afterFlap reg).serial = reg.serial + 1 := by
  unfold afterFlap
  rw [Register.serial_updateInfo, Register.serial_updateInfo]
  rfl

lemma reach {T : Type} [DecidableEq T] {s : Monitor T} {t : T} {link : Link} (wire : Wire)
    {r : Link × List Update} {reg : Register} (hk : s.task t = .idle link)
    (h : (link.handle deafHandler wire).Runs (fun _ => True) s.shared r reg) :
    ∃ es, run Monitor.step s es = ⟨reg, Function.update s.task t (.idle r.1)⟩ := by
  have hbegin : (link.start (deafHandler, wire)).2.Runs (fun _ => True) s.shared r.1 reg :=
    Prog.runs_bind_iff.mpr ⟨r, reg, h, .ret _ _⟩
  have hrun : ∃ is : List Pick, run Monitor.step s
      (.recv t (deafHandler, wire) :: is.map (Event.go t)) =
        ⟨reg, update s.task t (.idle r.1)⟩ := Sys.recv_alone hbegin hk
  obtain ⟨is, his⟩ := hrun
  exact ⟨_, his⟩

lemma reach_flap {s : Monitor Bool} (hk : s.task true = .idle .closed) :
    ∃ es, run Monitor.step s es = ⟨afterFlap s.shared, s.task⟩ := by
  have haccept : (Link.handle deafHandler .closed (.accept 0 (.v4 0xc6336401))).Runs (fun _ => True)
      s.shared (.connected ⟨.initiating, s.shared.fetchAdd.1, ∅⟩, [])
      (s.shared.fetchAdd.2.updateInfo s.shared.fetchAdd.1 (routerInfo 0 (.v4 0xc6336401))) :=
    .step firstPick trivial (.step firstPick trivial (.ret _ _))
  obtain ⟨es, hes⟩ := reach _ hk haccept
  have hk' : (run Monitor.step s es).task true =
      .idle (.connected ⟨.initiating, s.shared.fetchAdd.1, ∅⟩) := by
    rw [hes]
    simp only [update_self]
  obtain ⟨es', hes'⟩ := reach .lost hk' (.step firstPick trivial (.ret _ _))
  refine ⟨es ++ es', ?_⟩
  rw [run_append, hes', hes]
  have htask : update s.task true (.idle .closed) = s.task := by
    rw [← hk, update_eq_self]
  show (⟨afterFlap s.shared, update (update s.task true _) true _⟩ :
    Monitor Bool) = _
  rw [update_idem, htask]

/-- connections come and go until the next id is 2 again -/
lemma reach_flaps (n : Nat) (hn : n < 2 ^ 32) :
    ∃ es, (run Monitor.step Monitor.new (firstPeerUp ++ es)).shared.serial = 3 + n ∧
      Tame (run Monitor.step Monitor.new (firstPeerUp ++ es)).shared ∧
      (run Monitor.step Monitor.new (firstPeerUp ++ es)).task =
        (run Monitor.step Monitor.new firstPeerUp).task := by
  induction n with
  | zero =>
    refine ⟨[], rfl, ⟨?_, ?_⟩, rfl⟩
    · intro info he
      cases he
      rfl
    · intro id info h2 he
      have hmem := AList.mem_lookup_iff.mp he
      have hall : ∀ e ∈ (run Monitor.step Monitor.new
          (firstPeerUp ++ [])).shared.info.entries, e.1 ≠ 2 → e.2.remoteAsn = none := by
        decide
      exact hall _ hmem h2
  | succ n ih =>
    obtain ⟨es, hserial, htame, htask⟩ := ih (by omega)
    have hk : (run Monitor.step Monitor.new (firstPeerUp ++ es)).task true = .idle .closed := by
      rw [htask]
      rfl
    obtain ⟨es', hes'⟩ := reach_flap hk
    refine ⟨es ++ es', ?_⟩
    rw [← List.append_assoc, run_append, hes']
    refine ⟨?_, tame_afterFlap htame ?_, htask⟩
    · rw [serial_afterFlap, hserial]
      omega
    · show (run Monitor.step Monitor.new (firstPeerUp ++ es)).shared.serial % 2 ^ 32 ≠ 2
      rw [hserial]
      omega

lemma runs_peerUp {c : Conn} {msg : PeerUpNotification} {reg : Register}
    (hl : c.peers.lookup msg.header = none)
    (hc : (reg.claim (.peer (c.peerInfo msg)) firstPick.id) = (none, reg)) :
    (c.peerUp msg).Runs (fun _ => True) reg
      (some ({ c with peers := c.peers.insert msg.header (Conn.newPeer msg reg.fetchAdd.1) }, .other))
      (reg.fetchAdd.2.updateInfo reg.fetchAdd.1 (c.peerInfo msg)) := by
  have hid : (claimOrRegister (.peer (c.peerInfo msg))).Runs (fun _ => True) reg
      (reg.fetchAdd.1, false) reg.fetchAdd.2 :=
    Prog.runs_bind_iff.mpr ⟨none, reg, Prog.runs_call_iff.mpr ⟨trivial, firstPick, hc⟩,
      .step firstPick trivial (.ret _ _)⟩
  have hwrite : (Conn.peerIngress (c.peerInfo msg)).Runs (fun _ => True) reg
      (reg.fetchAdd.1, false) (reg.fetchAdd.2.updateInfo reg.fetchAdd.1 (c.peerInfo msg)) :=
    Prog.runs_bind_iff.mpr ⟨_, _, hid, .step firstPick trivial (.ret _ _)⟩
  unfold Conn.peerUp
  rw [hl]
  exact Prog.runs_bind_iff.mpr ⟨_, _, hwrite, .ret _ _⟩

lemma tame_claim {reg : Register} {query : IngressInfo} (h : Tame reg) (pick : IngressId) :
    reg.claim (.peer query) pick = (none, reg) := by
  rcases reg.claim_cases (.peer query) pick with hc | ⟨id, info, _, _, hl, ha, _⟩
  · exact hc
  · exfalso
    have hst := not_connected_of_accepts (fun _ => by simp) ha
    unfold Claim.accepts matchesPeer Register.mandatory at ha
    simp only [Bool.and_eq_true, decide_eq_true_eq, Option.isSome_iff_ne_none] at ha
    have hasn : info.remoteAsn ≠ none := ha.2.1.1.1.1.1.2.1
    by_cases h2 : id = 2
    · exact hst (h.peer info (h2 ▸ hl))
    · exact hasn (h.other id info h2 hl)

/-- the router's connection with one peer, and with two -/
def firstConn : Conn where
  phase := .dumping
  ingressId := 1
  peers := (∅ : PeerStates).insert (neighborHeader 1) (Conn.newPeer (neighborUp 1) 2)

def secondConn : Conn :=
  { firstConn with
    peers := firstConn.peers.insert (neighborHeader 2) (Conn.newPeer (neighborUp 2) 2) }

/-- after 2^32 ids the second peer of a router gets the id of the first, which is still up -/
theorem live_wrap : ∃ es, let s := run Monitor.step (Monitor.new : Monitor Bool) es
    Live s false (neighborHeader 1) 2 ∧ Live s false (neighborHeader 2) 2 ∧
      neighborHeader 1 ≠ neighborHeader 2 := by
  obtain ⟨es, hserial, htame, htask⟩ := reach_flaps (2 ^ 32 - 1) (by decide)
  have hk : (run Monitor.step Monitor.new (firstPeerUp ++ es)).task false =
      .idle (.connected firstConn) := by
    rw [htask]
    rfl
  have hup : (firstConn.peerUp (neighborUp 2)).Runs _ _ _ _ :=
    runs_peerUp rfl (tame_claim htame firstPick.id)
  have hhandle : (Link.handle deafHandler (.connected firstConn)
      (.message (.peerUp (neighborUp 2)) true)).Runs _ _ _ _ :=
    Prog.runs_bind_iff.mpr ⟨_, _, hup, .ret _ _⟩
  obtain ⟨es', hes'⟩ := reach _ hk hhandle
  refine ⟨(firstPeerUp ++ es) ++ es', ?_⟩
  rw [run_append, hes']
  have hid : (run Monitor.step Monitor.new (firstPeerUp ++ es)).shared.fetchAdd.1 = 2 := by
    show (run Monitor.step Monitor.new (firstPeerUp ++ es)).shared.serial % 2 ^ 32 = 2
    rw [hserial]
    rfl
  rw [hid]
  refine ⟨⟨secondConn, Conn.newPeer (neighborUp 1) 2, ?_, rfl, rfl⟩,
    ⟨secondConn, Conn.newPeer (neighborUp 2) 2, ?_, rfl, rfl⟩, by decide⟩
  · simp only [update_self]
    rfl
  · simp only [update_self]
    rfl

end Netom.Bmp
