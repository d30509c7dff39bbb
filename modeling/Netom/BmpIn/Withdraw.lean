import Netom.BmpIn.Tracking

/-!
# A Peer Down withdraws what was emitted

Routes are emitted under the id of a view or of one of its path children.  A Peer Down takes all the
views of a peer down.

* `Track`, `Track.Step`  a connection and the register, and the ids that routes of each peer were
  emitted under since the peer came up;
* `peerDown_withdraws`  a Peer Down withdraws these, and touches no id of another peer.

A message is worked on without interruption; the reaper, the garbage collector and the RIB come in
between messages.
-/

namespace Netom.Bmp
open Atomic Prog

/-! ## a connection -/

def Link.table : Link → Table
  | .closed => fun _ => none
  | .connected c => c.peers.table

structure Track where
  reg : Register
  link : Link
  emitted : Emitted

def Track.new : Track := ⟨Register.new, .closed, fun _ => ∅⟩

/-- a Route Monitoring message emits routes of its peer -/
def Wire.emits (wire : Wire) (updates : List Update) (emitted : Emitted) : Emitted :=
  match wire with
  | .message (.routeMonitoring msg) _ =>
    emitted.add msg.header.identity (updates.flatMap Update.routeIds)
  | _ => emitted

/-- the RIB hears of an ingress before its next message, so the entry is still there -/
def Upkeep.Known (reg : Register) : Upkeep → Prop
  | .reactivate id => reg.info.lookup id ≠ none
  | _ => True

inductive Track.Step : Track → Track → Prop
  | wire {s : Track} (cfg : HandlerConfig) (wire : Wire) {link : Link} {updates : List Update}
      {reg : Register}
      (hr : (s.link.handle cfg wire).Runs shares.Fits s.reg (link, updates) reg) :
      Step s ⟨reg, link, Emitted.since (wire.emits updates s.emitted) link.table⟩
  | upkeep {s : Track} (e : Upkeep) (hk : e.Known s.reg) (hf : shares.Fits (e.effect s.reg)) :
      Step s ⟨e.effect s.reg, s.link, s.emitted⟩

structure Track.Inv (s : Track) : Prop where
  share : ∃ g : Share, g.Holds s.reg ∧ LinkOk s.link g
  fits : shares.Fits s.reg
  tracked : Tracked s.link.table s.reg s.emitted
  /-- before the Initiation and after the Termination there are no peers -/
  quiet : ∀ c, s.link = .connected c → c.Running ∨ c.peers = ∅

lemma tracked_none {reg : Register} (hs : Sane reg) {tab : Table} (hn : tab = fun _ => none)
    (emitted : Emitted) : Tracked tab reg (Emitted.since emitted tab) := by
  subst hn
  refine ⟨hs, ?_, ?_, ?_, ?_, ?_, ?_, ?_⟩
  · intro h v hv
    cases hv
  · intro h v h' v' hv
    cases hv
  · intro h v q id hv
    cases hv
  · intro h v q h' v' q' id hv
    cases hv
  · intro J id hid
    obtain ⟨h, v, hv, _⟩ := hid.2
    cases hv
  · intro J id hid
    obtain ⟨h, v, hv, _⟩ := hid.2
    cases hv
  · intro J id h v _ hv
    cases hv

lemma table_empty : PeerStates.table ∅ = fun _ => none := by
  funext h
  rfl

lemma tracked_since {tab : Table} {reg : Register} {emitted : Emitted}
    (ht : Tracked tab reg emitted) : Tracked tab reg (Emitted.since emitted tab) :=
  ht.restrict (fun _ _ h => h) fun _ _ hid => ⟨hid.1, fun _ _ h _ => h⟩

/-! ## upkeep -/

lemma tracked_upkeep {tab : Table} {reg : Register} {emitted : Emitted} (e : Upkeep)
    (hk : e.Known reg) (ht : Tracked tab reg emitted) : Tracked tab (e.effect reg) emitted := by
  have hsame : ∀ info : IngressInfo, SameKind info info := fun _ => ⟨rfl, rfl, rfl, rfl, rfl⟩
  cases e with
  | issue =>
    refine ht.evolve (Nat.le_succ reg.serial) (fun id info hi => ⟨info, hi, hsame info⟩) ?_
    intro h v hv
    obtain ⟨info, hi, _, hst⟩ := ht.session h v hv
    exact ⟨info, hi, hst⟩
  | retire id activity =>
    show Tracked tab (reg.retirePathChild id activity).2 emitted
    rcases reg.retirePathChild_cases id activity with hr | ⟨info, reg', hr, hi, htype, hs, hl⟩
    · rw [hr]
      exact ht
    · rw [hr]
      refine ht.evolve (Nat.le_of_eq hs.symm) ?_ ?_
      · intro j info' hj
        rw [hl] at hj
        by_cases hji : j = id
        · rw [if_pos hji] at hj
          cases hj
          exact ⟨info, hji ▸ hi, ⟨rfl, rfl, rfl, rfl, rfl⟩⟩
        · rw [if_neg hji] at hj
          exact ⟨info', hj, hsame info'⟩
      · intro h v hv
        obtain ⟨info', hi', htype', hst⟩ := ht.session h v hv
        have hne : v.session ≠ id := by
          intro he
          rw [he, hi] at hi'
          cases hi'
          rw [htype] at htype'
          cases htype'
        rw [hl, if_neg hne]
        exact ⟨info', hi', hst⟩
  | collect id =>
    show Tracked tab (reg.removeIfDisconnected id).2 emitted
    rcases reg.removeIfDisconnected_cases id with hr | ⟨info, hr, hi, hdown⟩
    · rw [hr]
      exact ht
    · rw [hr]
      refine ht.evolve (Nat.le_refl reg.serial) ?_ ?_
      · intro j info' hj
        rw [Register.lookup_remove] at hj
        by_cases hji : j = id
        · rw [if_pos hji] at hj
          cases hj
        · rw [if_neg hji] at hj
          exact ⟨info', hj, hsame info'⟩
      · intro h v hv
        obtain ⟨info', hi', _, hst⟩ := ht.session h v hv
        have hne : v.session ≠ id := by
          intro he
          rw [he, hi] at hi'
          cases hi'
          rw [hdown] at hst
          cases hst
        rw [Register.lookup_remove, if_neg hne]
        exact ⟨info', hi', hst⟩
  | reactivate id =>
    show Tracked tab (if reg.Issued id then reg.updateInfo id (stateInfo .connected) else reg) emitted
    split
    · obtain ⟨old, ho⟩ := Option.ne_none_iff_exists'.mp hk
      have hl : ∀ j, (reg.updateInfo id (stateInfo .connected)).info.lookup j =
          if j = id then some (old.merge (stateInfo .connected)) else reg.info.lookup j := by
        intro j
        rw [Register.lookup_updateInfo, ho]
        rfl
      refine ht.evolve (Nat.le_of_eq (reg.serial_updateInfo id _).symm) ?_ ?_
      · intro j info' hj
        rw [hl] at hj
        by_cases hji : j = id
        · rw [if_pos hji] at hj
          cases hj
          exact ⟨old, hji ▸ ho, ⟨rfl, rfl, rfl, rfl, rfl⟩⟩
        · rw [if_neg hji] at hj
          exact ⟨info', hj, hsame info'⟩
      · intro h v hv
        obtain ⟨info', hi', _, hst⟩ := ht.session h v hv
        rw [hl]
        by_cases hji : v.session = id
        · rw [if_pos hji]
          exact ⟨_, rfl, rfl⟩
        · rw [if_neg hji]
          exact ⟨info', hi', hst⟩
    · exact ht

/-! ## messages -/

section wire
variable {c c' : Conn} {reg reg' : Register} {emitted : Emitted}

lemma emits_nil (wire : Wire) (emitted : Emitted) : wire.emits [] emitted = emitted := by
  unfold Wire.emits
  split
  · exact Emitted.add_nil emitted _
  · rfl

variable {updates : List Update}

lemma peers_initiate {sysName : Option String}
    (hr : (c.initiate sysName).Runs shares.Fits reg (c', updates) reg') : c'.peers = c.peers := by
  obtain ⟨info, reg₁, _, hr⟩ := runs_bind_iff.mp hr
  obtain ⟨found, reg₂, _, hr⟩ := runs_bind_iff.mp hr
  cases hf : found.filter (· ≠ c.ingressId) with
  | some id =>
    simp only [hf] at hr
    obtain ⟨_, reg₃, _, hr⟩ := runs_bind_iff.mp hr
    obtain ⟨_, reg₄, _, hr⟩ := runs_bind_iff.mp hr
    cases hr
    rfl
  | none =>
    simp only [hf] at hr
    obtain ⟨_, reg₃, _, hr⟩ := runs_bind_iff.mp hr
    cases hr
    rfl

/-- the state after a message -/
structure Settled (link : Link) (reg : Register) (emitted : Emitted) : Prop where
  tracked : Tracked link.table reg (Emitted.since emitted link.table)
  quiet : ∀ c, link = .connected c → c.Running ∨ c.peers = ∅

lemma settled_connected (ht : Tracked c.peers.table reg (Emitted.since emitted c.peers.table))
    (hq : c.Running ∨ c.peers = ∅) : Settled (.connected c) reg emitted := by
  refine ⟨ht, ?_⟩
  intro c' hc
  cases hc
  exact hq

lemma settled_closed (hs : Sane reg) : Settled .closed reg emitted := by
  refine ⟨tracked_none hs rfl _, ?_⟩
  intro c' hc
  cases hc

lemma settled_empty (hs : Sane reg) (hp : c.peers = ∅) : Settled (.connected c) reg emitted := by
  refine settled_connected ?_ (.inr hp)
  rw [hp]
  exact tracked_none hs table_empty _

lemma settled_tracking (ht : Tracking c reg emitted) : Settled (.connected c) reg emitted :=
  settled_connected (tracked_since ht.tracked) (.inl ht.running)

lemma settled_processMsg (cfg : HandlerConfig) {msg : BmpMsg} (b : Bool) {mt : MessageType}
    (ht : Tracking c reg emitted) (hs : Sane reg')
    (hr : (c.processMsg cfg.parser msg).Runs shares.Fits reg (some (c', mt)) reg') :
    Settled (.connected c') reg' (Wire.emits (.message msg b) (mt.updates cfg) emitted) := by
  -- the messages that leave the connection alone
  have hsame : ∀ mt', (ret (some (c, mt')) : Task Processed).Runs shares.Fits reg
      (some (c', mt)) reg' → Settled (.connected c') reg' emitted := by
    intro mt' hr
    cases hr
    exact settled_tracking ht
  cases msg with
  | initiation sysName | statisticsReport h body | routeMirroring => exact hsame _ hr
  | peerUp msg => exact settled_tracking (tracking_peerUp ht hr)
  | peerDown h =>
    have ht' := tracking_peerDown ht hr
    exact settled_connected ht'.tracked (.inl ht'.running)
  | routeMonitoring msg =>
    obtain ⟨ids, hids, ht'⟩ := tracking_routeMonitoring ht hr
    show Settled _ _ (emitted.add msg.header.identity ((mt.updates cfg).flatMap Update.routeIds))
    rw [hids cfg]
    exact settled_tracking ht'
  | termination =>
    obtain ⟨ids, reg₁, _, hr⟩ := runs_bind_iff.mp hr
    cases hr
    exact settled_empty hs rfl

lemma settled_conn {cfg : HandlerConfig} {msg : BmpMsg} {b : Bool} {link : Link}
    (ht : Tracked c.peers.table reg emitted) (hq : c.Running ∨ c.peers = ∅) (hs : Sane reg')
    (hr : (c.handle cfg msg).Runs shares.Fits reg (link, updates) reg') :
    Settled link reg' (Wire.emits (.message msg b) updates emitted) := by
  have hsame : (ret (.connected c, []) : Task (Link × List Update)).Runs shares.Fits reg
      (link, updates) reg' → Settled link reg' (Wire.emits (.message msg b) updates emitted) := by
    intro hr
    cases hr
    rw [emits_nil]
    exact settled_connected (tracked_since ht) hq
  unfold Conn.handle at hr
  cases hphase : c.phase with
  | initiating =>
    rw [hphase] at hr
    have hnone : c.peers = ∅ := by
      rcases hq with hrun | hnone
      · unfold Conn.Running at hrun
        rw [hphase] at hrun
        rcases hrun with h | h <;> cases h
      · exact hnone
    cases msg with
    | initiation sysName =>
      obtain ⟨⟨c₁, us⟩, reg₁, hi, hr⟩ := runs_bind_iff.mp hr
      cases hr
      exact settled_empty hs ((peers_initiate hi).trans hnone)
    | _ => exact hsame hr
  | terminated =>
    rw [hphase] at hr
    exact hsame hr
  | dumping | updating =>
    have hrun : c.Running := by simp [Conn.Running, hphase]
    rw [hphase] at hr
    obtain ⟨r, reg₁, hp, hr⟩ := runs_bind_iff.mp hr
    cases r with
    | none =>
      cases hr
      exact settled_closed hs
    | some r =>
      cases hr
      exact settled_processMsg cfg b ⟨hrun, ht⟩ hs hp

lemma settled_wire {s : Track} (hi : s.Inv) {cfg : HandlerConfig} {wire : Wire} {link : Link}
    (hs : Sane reg') (hr : (s.link.handle cfg wire).Runs shares.Fits s.reg (link, updates) reg') :
    Settled link reg' (wire.emits updates s.emitted) := by
  obtain ⟨reg, l, emitted⟩ := s
  have ht : Tracked l.table reg emitted := hi.tracked
  cases l with
  | closed =>
    cases wire with
    | accept unit remoteAddr =>
      obtain ⟨id, reg₁, _, hr⟩ := runs_bind_iff.mp hr
      obtain ⟨_, reg₂, _, hr⟩ := runs_bind_iff.mp hr
      cases hr
      exact settled_empty hs rfl
    | message msg accepted | lost =>
      cases hr
      exact settled_closed hs
  | connected c =>
    cases wire with
    | accept unit remoteAddr =>
      cases hr
      exact settled_connected (tracked_since ht) (hi.quiet c rfl)
    | lost =>
      obtain ⟨_, reg₁, _, hr⟩ := runs_bind_iff.mp hr
      obtain ⟨_, reg₂, _, hr⟩ := runs_bind_iff.mp hr
      cases hr
      exact settled_closed hs
    | message msg accepted =>
      have hr' : (if msg.ignored cfg || !accepted then .ret (.connected c, [])
          else c.handle cfg msg : Task (Link × List Update)).Runs shares.Fits reg
            (link, updates) reg' := hr
      split at hr'
      · cases hr'
        rw [emits_nil]
        exact settled_connected (tracked_since ht) (hi.quiet c rfl)
      · exact settled_conn ht (hi.quiet c rfl) hs hr'

end wire

/-! ## runs -/

lemma Track.inv_start : Track.new.Inv := by
  have hnil : Share.nil.Holds Register.new := (inv_new (T := Unit)).holds ()
  refine ⟨⟨Share.nil, hnil, trivial⟩, ?_, ?_, ?_⟩
  · show 1 ≤ 2 ^ 32
    decide
  · refine (tracked_none hnil.sane rfl fun _ => ∅).restrict (fun _ _ h => h) ?_
    intro J id hid
    exact absurd hid (Set.notMem_empty id)
  · intro c hc
    cases hc

lemma Track.inv_step {s s' : Track} (hi : s.Inv) (h : Track.Step s s') : s'.Inv := by
  cases h with
  | @wire cfg wire link updates reg hr =>
    obtain ⟨g, hg, hl⟩ := hi.share
    have hbegin : (s.link.begin cfg wire).2.Runs shares.Fits s.reg link reg :=
      runs_bind_iff.mpr ⟨(link, updates), reg, hr, .ret link reg⟩
    obtain ⟨g', hg', hl'⟩ := (keeps_begin hl).runs hg hbegin
    have hset := settled_wire hi hg'.sane hr
    exact ⟨⟨g', hg', hl'⟩, hr.ok_last hi.fits, hset.tracked, hset.quiet⟩
  | upkeep e hk hf =>
    obtain ⟨g, hg, hl⟩ := hi.share
    exact ⟨⟨g, holds_upkeep e hg, hl⟩, hf, tracked_upkeep e hk hi.tracked, hi.quiet⟩

lemma Track.inv_reach {s : Track} (h : Relation.ReflTransGen Track.Step Track.new s) : s.Inv := by
  induction h with
  | refl => exact Track.inv_start
  | tail _ hs ih => exact Track.inv_step ih hs

/-! ## Peer Down -/

lemma exists_runs_peerDown {c : Conn} {h : Header} {reg : Register} (hf : shares.Fits reg) :
    ∃ r reg', (c.peerDown h).Runs shares.Fits reg r reg' := by
  unfold Conn.peerDown
  by_cases he : (c.peers.removePeerIdentitySiblings h).1.isEmpty = true
  · simp only [he, if_true]
    exact ⟨_, reg, .ret _ reg⟩
  · simp only [he]
    obtain ⟨found, reg', hr⟩ := exists_runs_markAll
      ((c.peers.removePeerIdentitySiblings h).1.flatMap (·.2.ids)) hf
    exact ⟨_, reg', runs_bind_iff.mpr ⟨found, reg', hr, .ret _ reg'⟩⟩

/-- a Peer Down reaches a connection that is running, or nothing happens and no peer is up -/
lemma peerDown_handled {s : Track} (hi : s.Inv) (cfg : HandlerConfig) (h : Header) :
    (∃ c, s.link = .connected c ∧ c.Running ∧
      s.link.handle cfg (.message (.peerDown h) true) = (c.peerDown h).bind fun
        | none => .ret (.closed, [])
        | some (c, mt) => .ret (.connected c, mt.updates cfg)) ∨
    (∀ J, ¬ Table.Up s.link.table J) ∧
      s.link.handle cfg (.message (.peerDown h) true) = .ret (s.link, []) := by
  have hquiet : ∀ c : Conn, c.peers = ∅ → ∀ J, ¬ Table.Up c.peers.table J := by
    intro c hc J hup
    obtain ⟨k, v, hv, _⟩ := hup
    rw [hc, table_empty] at hv
    cases hv
  cases hl : s.link with
  | closed =>
    refine .inr ⟨?_, rfl⟩
    intro J hup
    obtain ⟨k, v, hv, _⟩ := hup
    cases hv
  | connected c =>
    have hhandle : (Link.connected c).handle cfg (.message (.peerDown h) true) =
      c.handle cfg (.peerDown h) := rfl
    rw [hhandle]
    unfold Conn.handle
    have hq := hi.quiet c hl
    unfold Conn.Running at hq
    cases hp : c.phase with
    | dumping => exact .inl ⟨c, rfl, .inl hp, rfl⟩
    | updating => exact .inl ⟨c, rfl, .inr hp, rfl⟩
    | initiating | terminated =>
      rw [hp] at hq
      exact .inr ⟨hquiet c (hq.resolve_left (by simp)), rfl⟩

/-- **A Peer Down withdraws what was emitted**: in every state that messages and upkeep lead to,
with fewer than 2^32 ids issued, a Peer Down is processed; every id that a route of any view of the
peer was emitted under since the peer came up, and that has an entry, is withdrawn and disconnected
then; and no id of another peer is withdrawn or changed. -/
theorem peerDown_withdraws {s : Track} (hs : Relation.ReflTransGen Track.Step Track.new s)
    (cfg : HandlerConfig) (h : Header) :
    (∃ link updates reg, (s.link.handle cfg (.message (.peerDown h) true)).Runs shares.Fits s.reg
      (link, updates) reg) ∧
    ∀ link updates reg, (s.link.handle cfg (.message (.peerDown h) true)).Runs shares.Fits s.reg
      (link, updates) reg →
      (∀ id ∈ s.emitted h.identity, s.reg.get id ≠ none →
        id ∈ updates.flatMap Update.withdrawnIds ∧
        ∃ info, reg.get id = some info ∧ info.state = some .disconnected) ∧
      ∀ J id, J ≠ h.identity →
        (id ∈ s.emitted J ∨ ∃ k v, s.link.table k = some v ∧ k.identity = J ∧ v.Has id) →
        id ∉ updates.flatMap Update.withdrawnIds ∧ reg.get id = s.reg.get id := by
  have hi := Track.inv_reach hs
  rcases peerDown_handled hi cfg h with ⟨c, hl, hrun, hh⟩ | ⟨hup, hh⟩
  · rw [hh]
    have ht : Tracked c.peers.table s.reg s.emitted := by
      have ht := hi.tracked
      rw [hl] at ht
      exact ht
    constructor
    · obtain ⟨r, reg', hr⟩ := exists_runs_peerDown (c := c) (h := h) hi.fits
      cases r with
      | none => exact ⟨_, _, reg', runs_bind_iff.mpr ⟨none, reg', hr, .ret _ reg'⟩⟩
      | some r => exact ⟨_, _, reg', runs_bind_iff.mpr ⟨some r, reg', hr, .ret _ reg'⟩⟩
    · intro link updates reg hr
      obtain ⟨r, reg₁, hr, hret⟩ := runs_bind_iff.mp hr
      rcases peerDown_cases hr with ⟨hno, rfl, rfl⟩ | ⟨ids, update, hids, hmark, rfl, hin, hout⟩
      · cases hret
        refine ⟨?_, fun _ _ _ _ => ⟨List.not_mem_nil, rfl⟩⟩
        intro id hid hentry
        obtain ⟨k, v, hv, hk, _⟩ := ht.kept _ id hid hentry
        exact absurd hk (hno k v hv)
      · cases hret
        have hupd : (MessageType.updates cfg (.routingUpdate update none)).flatMap
            Update.withdrawnIds = Update.withdrawnIds update := by
          show ((if cfg.forwardRawUpdates then [] else []) ++ [update]).flatMap _ = _
          split <;> exact List.append_nil _
        rw [hupd]
        constructor
        · intro id hid hentry
          have hm : id ∈ ids := (hids id).mpr (ht.kept _ id hid hentry)
          refine ⟨hin id hm hentry, ?_⟩
          obtain ⟨info, hinfo⟩ := Option.ne_none_iff_exists'.mp (hmark.stays id hentry)
          obtain ⟨_, _, _, hdown⟩ := hmark.entry id info hinfo
          exact ⟨info, hinfo, hdown hm⟩
        · intro J id hJ hid
          have hnm : id ∉ ids := by
            intro hm
            obtain ⟨k, v, hv, hk, hhas⟩ := (hids id).mp hm
            rcases hid with hid | ⟨k', v', hv', rfl, hhas'⟩
            · exact hJ ((ht.only J id k v hid hv hhas).symm.trans hk)
            · rw [hl] at hv'
              exact hJ (ht.disjoint hv' hv hhas' hhas ▸ hk)
          exact ⟨fun hm => hnm (hout id hm), hmark.other id hnm⟩
  · rw [hh]
    refine ⟨⟨_, _, s.reg, .ret _ s.reg⟩, ?_⟩
    intro link updates reg hr
    cases hr
    refine ⟨?_, fun _ _ _ _ => ⟨List.not_mem_nil, rfl⟩⟩
    intro id hid hentry
    obtain ⟨k, v, hv, hk, _⟩ := hi.tracked.kept _ id hid hentry
    exact absurd ⟨k, v, hv, rfl⟩ (hup k.identity)

/-! ## a peer with path children -/

/-- one announcement of 0.0.0.0/0 with the path id `q` -/
def pathUpdate (q : Nat) : UpdateMessage :=
  ⟨true, .normal, some [], some [some (.route false (defaultRoute .v4) (some q))], some []⟩

/-- an UPDATE is its path id -/
def pathHandler : HandlerConfig :=
  ⟨⟨fun _ update => update.head?.map fun b => pathUpdate b.toNat, fun _ => none⟩, false, false⟩

def pathMonitoring (q : BitVec 8) : Wire :=
  .message (.routeMonitoring ⟨neighborHeader 1, 0, [q]⟩) true

def neighborDown (host : BitVec 128) : Wire := .message (.peerDown (neighborHeader host)) true

/-- a router connects, and reports a peer -/
def firstWires : List Wire :=
  [.accept 0 (.v4 0xc6336401), .message (.initiation none) true,
    .message (.peerUp (neighborUp 1)) true]

def handled (s : Link × Register) (wire : Wire) : (Link × List Update) × Register :=
  (s.1.handle pathHandler wire).exec firstPick s.2

def after (s : Link × Register) (wires : List Wire) : Link × Register :=
  wires.foldl (fun s wire => ((handled s wire).1.1, (handled s wire).2)) s

def Track.after (s : Track) (wire : Wire) : Track :=
  let r := handled (s.link, s.reg) wire
  ⟨r.2, r.1.1, Emitted.since (wire.emits r.1.2 s.emitted) r.1.1.table⟩

lemma Track.step_after {s : Track} {w : Wire}
    (h : (s.link.handle pathHandler w).Along shares.Fits firstPick s.reg) :
    Track.Step s (s.after w) :=
  .wire pathHandler w (runs_exec h)

/-- the peer has announced the path 7 -/
def pathTrack : Track :=
  (((Track.new.after (.accept 0 (.v4 0xc6336401))).after (.message (.initiation none) true)).after
    (.message (.peerUp (neighborUp 1)) true)).after (pathMonitoring 7)

lemma reach_pathTrack : Relation.ReflTransGen Track.Step Track.new pathTrack := by
  have hle : ∀ {n : Nat}, n.ble (2 ^ 32) = true → n ≤ 2 ^ 32 := Nat.le_of_ble_eq_true
  have haccept := Track.step_after (s := Track.new) (w := .accept 0 (.v4 0xc6336401))
    ⟨hle rfl, hle rfl, trivial⟩
  have hinit := Track.step_after (s := Track.new.after (.accept 0 (.v4 0xc6336401)))
    (w := .message (.initiation none) true) ⟨hle rfl, hle rfl, hle rfl, trivial⟩
  refine (((Relation.ReflTransGen.single haccept).tail hinit).tail (Track.step_after ?_)).tail
    (Track.step_after ?_)
  · exact ⟨hle rfl, hle rfl, hle rfl, trivial⟩
  · exact ⟨hle rfl, hle rfl, hle rfl, trivial⟩

/-- the first path child has the id 3 -/
theorem peerDown_withdraws_pathChild :
    3 ∈ pathTrack.emitted (neighborHeader 1).identity ∧ ∃ link updates reg,
      (pathTrack.link.handle pathHandler (neighborDown 1)).Runs shares.Fits pathTrack.reg
        (link, updates) reg ∧ 3 ∈ updates.flatMap Update.withdrawnIds := by
  have hid : 3 ∈ pathTrack.emitted (neighborHeader 1).identity :=
    ⟨.inr ⟨rfl, by decide⟩, neighborHeader 1, _, rfl, rfl⟩
  have hentry : pathTrack.reg.get 3 ≠ none := by
    intro h
    cases h
  obtain ⟨⟨link, updates, reg, hr⟩, hall⟩ :=
    peerDown_withdraws reach_pathTrack pathHandler (neighborHeader 1)
  exact ⟨hid, link, updates, reg, hr, ((hall link updates reg hr).1 3 hid hentry).1⟩

lemma serial_issue (n : Nat) (reg : Register) :
    (Upkeep.effect .issue)^[n] reg = { reg with serial := reg.serial + n } := by
  induction n generalizing reg with
  | zero => rfl
  | succ n ih =>
    rw [Function.iterate_succ_apply, ih]
    show (⟨reg.serial + 1 + n, reg.info⟩ : Register) = ⟨reg.serial + (n + 1), reg.info⟩
    congr 1
    omega

def firstUp : Link × Register := after (.closed, Register.new) firstWires

/-- a router with a peer, after 2^32 ids -/
def wrapped : Link × Register := (firstUp.1, (Upkeep.effect .issue)^[2 ^ 32 - 1] firstUp.2)

/-- A path child of an earlier session keeps its entry and is not withdrawn again; and once the
serial number has wrapped around, another peer may share the id. -/
theorem peerDown_forgets :
    (let s := after firstUp [pathMonitoring 7, neighborDown 1,
      .message (.peerUp (neighborUp 1)) true, pathMonitoring 8]
    (handled firstUp (pathMonitoring 7)).1.2.flatMap Update.routeIds = [3] ∧ (s.2.get 3).isSome = true ∧
      (handled s (neighborDown 1)).1.2.flatMap Update.withdrawnIds = [2, 4]) ∧
    let s := after wrapped [.message (.peerUp (neighborUp 2)) true]
    (s.1.table (neighborHeader 2)).map View.session = some 2 ∧
      (neighborHeader 2).identity ≠ (neighborHeader 1).identity ∧
      (handled s (neighborDown 1)).1.2.flatMap Update.withdrawnIds = [2] := by
  constructor
  · exact ⟨by decide, by decide, by decide⟩
  · rw [wrapped, serial_issue]
    exact ⟨by decide, by decide, by decide⟩

end Netom.Bmp
