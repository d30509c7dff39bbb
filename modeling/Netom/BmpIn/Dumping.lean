import Netom.BmpIn.Effects

/-!
# The end of the table dump

A router dumps its tables when a BMP connection comes up, and an End-of-RIB ends the dump of one
family of one peer.  Whether all dumps are over is read off the sets of End-of-RIBs that the peers
owe; a peer owes one for the family of the first announcement of an UPDATE, if it advertised
Graceful Restart.

* `Dump`  a connection, and what its router has told of its peers;
* `Dump.Ends`  the dump is over when it should be: at an End-of-RIB, with nothing owed and no
  peer up that cannot send one;
* `dump_ends`  **so it is if every peer can send one, and every UPDATE with announcements has
  them in one family, and one that is stored**;
* `dump_ends_early`  and not otherwise.
-/

namespace Netom.Bmp
open Atomic Prog Finset

/-! ## a connection and what its router has told -/

/-- the UPDATE of a message, as its view reads it -/
def Conn.heard (parser : Parser) (c : Conn) (msg : RouteMonitoring) : Option UpdateMessage :=
  (c.peers.lookup msg.header).bind fun peer =>
    parser.bgpUpdate (peer.sessionConfig.forBmpRib msg.header.ribType) msg.update

structure Dump where
  conn : Conn
  /-- the headers with a Peer Up and no Peer Down since, and whether it had Graceful Restart -/
  up : Header → Option Bool
  /-- the families with announcements and no End-of-RIB since -/
  owed : Header → Finset AfiSafiType

namespace Dump

/-- the Initiation has come -/
def new (ingressId : IngressId) : Dump := ⟨⟨.dumping, ingressId, ∅⟩, fun _ => none, fun _ => ∅⟩

def upAfter (up : Header → Option Bool) : BmpMsg → Header → Option Bool
  | .peerUp msg => fun k =>
    if k = msg.header ∧ up k = none then some msg.eorCapable else up k
  | .peerDown h => fun k => if k.identity = h.identity then none else up k
  | .termination => fun _ => none
  | _ => up

def owedBy (parser : Parser) (u : UpdateMessage) (owed : Finset AfiSafiType) : Finset AfiSafiType :=
  (match parser.isEor u with
    | none => owed
    | some afiSafi => owed.erase afiSafi) ∪ (announcedFamilies u).toFinset

def owedAfter (parser : Parser) (c' : Conn) (owed : Header → Finset AfiSafiType) :
    BmpMsg → Header → Finset AfiSafiType
  | .peerDown h => fun k => if k.identity = h.identity then ∅ else owed k
  | .termination => fun _ => ∅
  | .routeMonitoring msg => fun k => match c'.heard parser msg with
    | some u => if k = msg.header then owedBy parser u (owed k) else owed k
    | none => owed k
  | _ => owed

/-- a message is worked on; what the register answers is left open -/
inductive Step (parser : Parser) (d : Dump) (msg : BmpMsg) : Dump → Prop
  | processed {c' : Conn} {mt : MessageType}
      (hphase : d.conn.phase = .dumping ∨ d.conn.phase = .updating)
      (h : (d.conn.processMsg parser msg).Returns (some (c', mt))) :
      Step parser d msg ⟨c', upAfter d.up msg, owedAfter parser c' d.owed msg⟩

/-- if the dump is over, an End-of-RIB has come; no family is owed one, and every peer that is up can
send it -/
def Ends (parser : Parser) (d : Dump) (msg : BmpMsg) (d' : Dump) : Prop :=
  d.conn.phase = .dumping → d'.conn.phase = .updating →
    (∃ rm u, msg = .routeMonitoring rm ∧ d'.conn.heard parser rm = some u ∧
      (parser.isEor u).isSome = true) ∧
    (∀ h, d'.owed h = ∅) ∧ ∀ h gr, d'.up h = some gr → gr = true

/-- peers have Graceful Restart, and an UPDATE announces routes of one family -/
def Orderly (parser : Parser) : BmpMsg → Prop
  | .peerUp msg => msg.eorCapable = true
  | .routeMonitoring msg => ∀ config u, parser.bgpUpdate config msg.update = some u → OneFamily u
  | _ => True

inductive Reach (parser : Parser) (ingressId : IngressId) : Dump → Prop
  | new : Reach parser ingressId (new ingressId)
  | step {d d' : Dump} {msg : BmpMsg} (h : Reach parser ingressId d) (hs : d.Step parser msg d')
      (hok : Orderly parser msg) : Reach parser ingressId d'

/-! ## the invariant -/

structure Inv (d : Dump) : Prop where
  capable : ∀ h peer, d.conn.peers.lookup h = some peer → peer.eorCapable = true
  owes : ∀ h peer, d.conn.peers.lookup h = some peer → ∀ f ∈ d.owed h,
    EoRProperties.new h f ∈ peer.pendingEors
  gone : ∀ h, d.conn.peers.lookup h = none → d.owed h = ∅
  up : ∀ h gr, d.up h = some gr → gr = true

lemma inv_new (ingressId : IngressId) : (new ingressId).Inv where
  capable h peer hl := by cases hl
  owes h peer hl := by cases hl
  gone h hl := rfl
  up h gr hu := by cases hu

variable {d : Dump} {parser : Parser}

variable {c' : Conn} {h : Header}

lemma inv_view (hi : d.Inv) (hv : d.conn.View h c') : ({ d with conn := c' } : Dump).Inv := by
  cases hv with
  | known hc =>
    rw [hc]
    exact hi
  | cloned k source peer hn hs he hp hph =>
    have hl : ∀ k', ({ d with conn := c' } : Dump).conn.peers.lookup k' =
        if k' = h then some peer else d.conn.peers.lookup k' := by
      intro k'
      rw [hp]
      exact Assoc.lookup_insert_eq k' h peer d.conn.peers
    constructor
    · intro k' peer' hl'
      rw [hl] at hl'
      by_cases hk : k' = h
      · rw [if_pos hk] at hl'
        cases hl'
        rw [he]
        exact hi.capable k source hs
      · rw [if_neg hk] at hl'
        exact hi.capable k' peer' hl'
    · intro k' peer' hl' f hf
      rw [hl] at hl'
      by_cases hk : k' = h
      · have hnone : d.owed k' = ∅ := hi.gone k' (hk ▸ hn)
        rw [show ({ d with conn := c' } : Dump).owed k' = d.owed k' from rfl, hnone] at hf
        cases hf
      · rw [if_neg hk] at hl'
        exact hi.owes k' peer' hl' f hf
    · intro k' hl'
      rw [hl] at hl'
      by_cases hk : k' = h
      · rw [if_pos hk] at hl'
        cases hl'
      · rw [if_neg hk] at hl'
        exact hi.gone k' hl'
    · exact hi.up

variable {peer : PeerState}

lemma inv_config (hi : d.Inv) {peer2 : PeerState} {c2 : Conn}
    (hl : d.conn.peers.lookup h = some peer) (he : peer2.eorCapable = peer.eorCapable)
    (hpend : peer2.pendingEors = peer.pendingEors)
    (hother : ∀ k, k ≠ h → c2.peers.lookup k = d.conn.peers.lookup k)
    (hl2 : c2.peers.lookup h = some peer2) : ({ d with conn := c2 } : Dump).Inv := by
  constructor
  · intro k p hk
    by_cases hkh : k = h
    · subst hkh
      cases hl2.symm.trans hk
      rw [he]
      exact hi.capable k peer hl
    · exact hi.capable k p ((hother k hkh).symm.trans hk)
  · intro k p hk f hf
    by_cases hkh : k = h
    · subst hkh
      cases hl2.symm.trans hk
      rw [hpend]
      exact hi.owes k peer hl f hf
    · exact hi.owes k p ((hother k hkh).symm.trans hk) f hf
  · intro k hk
    by_cases hkh : k = h
    · subst hkh
      cases hl2.symm.trans hk
    · exact hi.gone k ((hother k hkh).symm.trans hk)
  · exact hi.up

variable {u : UpdateMessage}

lemma explode_of_accepted {first : Nlri} {rest : List Nlri}
    (h : acceptedAnnouncements u = first :: rest) :
    ∃ reach, explodeAnnouncements u = some reach := by
  unfold acceptedAnnouncements at h
  cases hr : explodeAnnouncements u with
  | none =>
    rw [hr] at h
    cases h
  | some reach => exact ⟨reach, rfl⟩

/-- what a view owes after an UPDATE, it owed before or owes for the first announcement -/
lemma owes_update {peer' : PeerState} {owed : Finset AfiSafiType} (hcap : peer.eorCapable = true)
    (howed : ∀ f ∈ owed, EoRProperties.new h f ∈ peer.pendingEors)
    (hleft : eorsLeft parser h u peer.pendingEors ⊆ peer'.pendingEors)
    (hnew : parser.isEor u = none → ∀ first rest reach, acceptedAnnouncements u = first :: rest →
      explodeAnnouncements u = some reach → reach ≠ [] → peer.eorCapable = true →
      EoRProperties.new h (Conn.nlriFamily first) ∈ peer'.pendingEors)
    (heor : (parser.isEor u).isSome = true → announcedFamilies u = []) (hone : OneFamily u) :
    ∀ f ∈ owedBy parser u owed, EoRProperties.new h f ∈ peer'.pendingEors := by
  intro f hf
  rcases mem_union.mp hf with hold | hann
  · apply hleft
    unfold eorsLeft
    cases he : parser.isEor u with
    | none =>
      rw [he] at hold
      exact howed f hold
    | some afiSafi =>
      rw [he] at hold
      obtain ⟨hne, hmem⟩ := mem_erase.mp hold
      refine mem_erase.mpr ⟨?_, howed f hmem⟩
      intro heq
      exact hne (congrArg EoRProperties.afiSafi heq)
  · have hann' : f ∈ announcedFamilies u := List.mem_toFinset.mp hann
    cases he : parser.isEor u with
    | some afiSafi =>
      rw [heor (by rw [he]; rfl)] at hann'
      cases hann'
    | none =>
      cases hacc : acceptedAnnouncements u with
      | nil =>
        rw [announcedFamilies, hacc] at hann'
        cases hann'
      | cons first rest =>
        obtain ⟨reach, hreach⟩ := explode_of_accepted hacc
        obtain ⟨hne, hrest⟩ := hone first rest reach hacc hreach
        have hfirst : f = Conn.nlriFamily first := by
          rw [announcedFamilies, hacc] at hann'
          rcases List.mem_cons.mp hann' with hf1 | hf1
          · exact hf1
          · obtain ⟨n, hn, rfl⟩ := List.mem_map.mp hf1
            exact hrest n hn
        rw [hfirst]
        exact hnew he first rest reach hacc hreach hne hcap

lemma inv_update (hi : d.Inv) (hl : d.conn.peers.lookup h = some peer)
    (hu : UpdateEffect parser d.conn h u c')
    (heor : (parser.isEor u).isSome = true → announcedFamilies u = []) (hone : OneFamily u) :
    (⟨c', d.up, fun k => if k = h then owedBy parser u (d.owed k) else d.owed k⟩ : Dump).Inv := by
  obtain ⟨peer', hl', hcfg, hcap, hleft, hnew⟩ := hu.own peer hl
  constructor
  · intro k p hk
    by_cases hkh : k = h
    · subst hkh
      cases hl'.symm.trans hk
      rw [hcap]
      exact hi.capable k peer hl
    · exact hi.capable k p ((hu.others k hkh).symm.trans hk)
  · intro k p hk f hf
    have hf' : f ∈ if k = h then owedBy parser u (d.owed k) else d.owed k := hf
    by_cases hkh : k = h
    · subst hkh
      cases hl'.symm.trans hk
      rw [if_pos rfl] at hf'
      exact owes_update (hi.capable k peer hl) (hi.owes k peer hl) hleft hnew heor hone f hf'
    · rw [if_neg hkh] at hf'
      exact hi.owes k p ((hu.others k hkh).symm.trans hk) f hf'
  · intro k hk
    by_cases hkh : k = h
    · subst hkh
      cases hl'.symm.trans hk
    · show (if k = h then _ else d.owed k) = ∅
      rw [if_neg hkh]
      exact hi.gone k ((hu.others k hkh).symm.trans hk)
  · exact hi.up

lemma phase_of_view {c : Conn} (hv : c.View h c') : c'.phase = c.phase := by
  cases hv with
  | known hc => rw [hc]
  | cloned k source peer hn hs he hp hph => exact hph

/-! ## each message -/

lemma ends_of_phase {msg : BmpMsg} {d' : Dump} (h : d'.conn.phase = d.conn.phase) :
    d.Ends parser msg d' := by
  intro hd hu
  rw [h, hd] at hu
  cases hu

variable {msg : RouteMonitoring}

lemma owedAfter_unheard (h : c'.heard parser msg = none) :
    owedAfter parser c' d.owed (.routeMonitoring msg) = d.owed := by
  funext k
  simp only [owedAfter, h]

lemma heard_of_effect {c : Conn} (hl : c.peers.lookup msg.header = some peer)
    (hp : parser.bgpUpdate (peer.sessionConfig.forBmpRib msg.header.ribType) msg.update = some u)
    (hu : UpdateEffect parser c msg.header u c') : c'.heard parser msg = some u := by
  obtain ⟨peer', hl', hcfg, _⟩ := hu.own peer hl
  unfold Conn.heard
  rw [hl', Option.bind_some, hcfg, hp]

variable {mt : MessageType}

lemma routeMonitoring_step (hi : d.Inv)
    (hEor : ∀ u, (parser.isEor u).isSome = true → announcedFamilies u = [])
    (hok : Orderly parser (.routeMonitoring msg))
    (hr : (d.conn.routeMonitoring parser msg).Returns (some (c', mt))) :
    (⟨c', d.up, owedAfter parser c' d.owed (.routeMonitoring msg)⟩ : Dump).Inv ∧
      d.Ends parser (.routeMonitoring msg)
        ⟨c', d.up, owedAfter parser c' d.owed (.routeMonitoring msg)⟩ := by
  cases Conn.routeMonitoring_effect hr with
  | unknown hc hl =>
    have hh : c'.heard parser msg = none := by
      unfold Conn.heard
      rw [hc, hl]
      rfl
    rw [owedAfter_unheard hh, hc]
    exact ⟨hi, ends_of_phase rfl⟩
  | unparsed hv peer hl hp =>
    have hh : c'.heard parser msg = none := by
      unfold Conn.heard
      rw [hl]
      exact hp
    rw [owedAfter_unheard hh]
    exact ⟨inv_view hi hv, ends_of_phase (phase_of_view hv)⟩
  | update c1 hv peer peer2 c2 hl he hpend hother hl2 hph u hp hu =>
    have hh := heard_of_effect hl2 hp hu
    have hi2 : ({ d with conn := c2 } : Dump).Inv :=
      inv_config (inv_view hi hv) hl he hpend hother hl2
    have hi' := inv_update hi2 hl2 hu (hEor u) (hok _ u hp)
    simp only [owedAfter, hh]
    refine ⟨hi', ?_⟩
    intro hd hupd
    have hd2 : c2.phase = .dumping := by rw [hph, phase_of_view hv, hd]
    rcases hu.phase with hsame | ⟨_, _, hsome, hempty⟩
    · have hupd' : c'.phase = .updating := hupd
      rw [hsame, hd2] at hupd'
      cases hupd'
    · refine ⟨⟨msg, u, rfl, hh, hsome⟩, ?_, hi'.up⟩
      intro k
      cases hk : c'.peers.lookup k with
      | none => exact hi'.gone k hk
      | some p =>
        -- what is owed is pending, and nothing is
        refine eq_empty_of_forall_notMem fun f hf => ?_
        have hmem := hi'.owes k p hk f hf
        rw [hempty k p hk] at hmem
        cases hmem

lemma peerUp_step (hi : d.Inv) {msg : PeerUpNotification} (hok : msg.eorCapable = true)
    (hr : (d.conn.peerUp msg).Returns (some (c', mt))) :
    (⟨c', upAfter d.up (.peerUp msg), d.owed⟩ : Dump).Inv ∧ c'.phase = d.conn.phase := by
  have hup : ∀ h gr, upAfter d.up (.peerUp msg) h = some gr → gr = true := by
    intro h gr hu
    have hu' : (if h = msg.header ∧ d.up h = none then some msg.eorCapable else d.up h) = some gr := hu
    by_cases hc : h = msg.header ∧ d.up h = none
    · rw [if_pos hc] at hu'
      cases hu'
      exact hok
    · rw [if_neg hc] at hu'
      exact hi.up h gr hu'
  unfold Conn.peerUp at hr
  by_cases hk : (d.conn.peers.lookup msg.header).isSome = true
  · rw [if_pos hk] at hr
    cases returns_ret_iff.mp hr
    exact ⟨⟨hi.capable, hi.owes, hi.gone, hup⟩, rfl⟩
  · rw [if_neg hk] at hr
    obtain ⟨⟨id, existing⟩, _, hr⟩ := returns_bind_iff.mp hr
    cases returns_ret_iff.mp hr
    have hnone : d.conn.peers.lookup msg.header = none := Option.not_isSome_iff_eq_none.mp hk
    have hl : ∀ k, (d.conn.peers.insert msg.header (Conn.newPeer msg id)).lookup k =
        if k = msg.header then some (Conn.newPeer msg id) else d.conn.peers.lookup k :=
      fun k => Assoc.lookup_insert_eq k msg.header _ d.conn.peers
    refine ⟨⟨?_, ?_, ?_, hup⟩, rfl⟩
    · intro k p hkp
      have hkp' := (hl k).symm.trans hkp
      by_cases hkh : k = msg.header
      · rw [if_pos hkh] at hkp'
        cases hkp'
        exact hok
      · rw [if_neg hkh] at hkp'
        exact hi.capable k p hkp'
    · intro k p hkp f hf
      have hkp' := (hl k).symm.trans hkp
      by_cases hkh : k = msg.header
      · have hf' : f ∈ d.owed k := hf
        rw [hi.gone k (hkh ▸ hnone)] at hf'
        cases hf'
      · rw [if_neg hkh] at hkp'
        exact hi.owes k p hkp' f hf
    · intro k hkn
      have hkn' := (hl k).symm.trans hkn
      by_cases hkh : k = msg.header
      · rw [if_pos hkh] at hkn'
        cases hkn'
      · rw [if_neg hkh] at hkn'
        exact hi.gone k hkn'

lemma peerDown_step (parser : Parser) (hi : d.Inv)
    (hr : (d.conn.peerDown h).Returns (some (c', mt))) :
    (⟨c', upAfter d.up (.peerDown h), owedAfter parser c' d.owed (.peerDown h)⟩ : Dump).Inv ∧
      c'.phase = d.conn.phase := by
  -- whatever is left of the peers, the views of this one owe nothing
  have hkeep : ∀ c2 : Conn, (∀ k p, c2.peers.lookup k = some p → d.conn.peers.lookup k = some p) →
      (∀ k, k.identity ≠ h.identity → c2.peers.lookup k = d.conn.peers.lookup k) →
      (⟨c2, upAfter d.up (.peerDown h), owedAfter parser c2 d.owed (.peerDown h)⟩ : Dump).Inv := by
    intro c2 hsub hother
    constructor
    · intro k p hk
      exact hi.capable k p (hsub k p hk)
    · intro k p hk f hf
      have hf' : f ∈ if k.identity = h.identity then ∅ else d.owed k := hf
      by_cases hid : k.identity = h.identity
      · rw [if_pos hid] at hf'
        cases hf'
      · rw [if_neg hid] at hf'
        exact hi.owes k p (hsub k p hk) f hf'
    · intro k hk
      show (if k.identity = h.identity then ∅ else d.owed k) = ∅
      by_cases hid : k.identity = h.identity
      · rw [if_pos hid]
      · rw [if_neg hid]
        exact hi.gone k ((hother k hid).symm.trans hk)
    · intro k gr hu
      have hu' : (if k.identity = h.identity then none else d.up k) = some gr := hu
      by_cases hid : k.identity = h.identity
      · rw [if_pos hid] at hu'
        cases hu'
      · rw [if_neg hid] at hu'
        exact hi.up k gr hu'
  unfold Conn.peerDown at hr
  by_cases he : (d.conn.peers.removePeerIdentitySiblings h).1.isEmpty = true
  · rw [if_pos he] at hr
    cases returns_ret_iff.mp hr
    exact ⟨hkeep d.conn (fun _ _ hk => hk) (fun _ _ => rfl), rfl⟩
  · rw [if_neg he] at hr
    obtain ⟨ids, _, hr⟩ := returns_bind_iff.mp hr
    cases returns_ret_iff.mp hr
    refine ⟨hkeep _ ?_ ?_, rfl⟩
    · intro k p hk
      have hk' := (PeerStates.lookup_siblings d.conn.peers h k).symm.trans hk
      by_cases hid : k.identity = h.identity
      · rw [if_pos hid] at hk'
        cases hk'
      · rwa [if_neg hid] at hk'
    · intro k hid
      exact (PeerStates.lookup_siblings d.conn.peers h k).trans (if_neg hid)

lemma terminate_step (parser : Parser) (hr : d.conn.terminate.Returns (some (c', mt))) :
    (⟨c', upAfter d.up .termination, owedAfter parser c' d.owed .termination⟩ : Dump).Inv ∧
      c'.phase = .terminated := by
  obtain ⟨ids, _, hr⟩ := returns_bind_iff.mp hr
  cases returns_ret_iff.mp hr
  refine ⟨⟨?_, ?_, fun h _ => rfl, ?_⟩, rfl⟩
  · intro k p hk
    cases hk
  · intro k p hk
    cases hk
  · intro k gr hu
    cases hu

lemma step_ok (hEor : ∀ u, (parser.isEor u).isSome = true → announcedFamilies u = [])
    (hi : d.Inv) {msg : BmpMsg} {d' : Dump} (hs : d.Step parser msg d') (hok : Orderly parser msg) :
    d'.Inv ∧ d.Ends parser msg d' := by
  cases hs with
  | processed hphase hr =>
    cases msg with
    | initiation sysName | statisticsReport h body | routeMirroring =>
      cases returns_ret_iff.mp hr
      exact ⟨hi, ends_of_phase rfl⟩
    | peerUp m =>
      obtain ⟨hinv, hph⟩ := peerUp_step hi hok hr
      exact ⟨hinv, ends_of_phase hph⟩
    | peerDown h =>
      obtain ⟨hinv, hph⟩ := peerDown_step parser hi hr
      exact ⟨hinv, ends_of_phase hph⟩
    | termination =>
      obtain ⟨hinv, hph⟩ := terminate_step parser hr
      refine ⟨hinv, ?_⟩
      intro _ hupd
      rw [show (_ : Dump).conn.phase = _ from hph] at hupd
      cases hupd
    | routeMonitoring m => exact routeMonitoring_step hi hEor hok hr

lemma inv_reach (hEor : ∀ u, (parser.isEor u).isSome = true → announcedFamilies u = [])
    {ingressId : IngressId} (hr : Reach parser ingressId d) : d.Inv := by
  induction hr with
  | new => exact inv_new ingressId
  | step h hs hok ih => exact (step_ok hEor ih hs hok).1

end Dump

/-- **The dump is over only at an End-of-RIB after which no view of a peer owes one, and while every
peer that is up has Graceful Restart**, on every connection whose peers have it and whose UPDATEs
announce routes of one family each. -/
theorem dump_ends (parser : Parser)
    (hEor : ∀ u, (parser.isEor u).isSome = true → announcedFamilies u = []) (ingressId : IngressId)
    {d d' : Dump} (hr : Dump.Reach parser ingressId d) {msg : BmpMsg} (hs : d.Step parser msg d')
    (hok : Dump.Orderly parser msg) : d.Ends parser msg d' :=
  (Dump.step_ok hEor (Dump.inv_reach hEor hr) hs hok).2

/-! ## dumps that end, rightly and too early -/

namespace Dump

/-- a message that is worked on alone -/
def play (parser : Parser) (x : Dump × Register) (msg : BmpMsg) : Dump × Register :=
  match (x.1.conn.processMsg parser msg).exec ⟨0, ⟨0, 0, 0, 0, 0, 0⟩⟩ x.2 with
  | (some (c', _), reg) =>
    (⟨c', upAfter x.1.up msg, owedAfter parser c' x.1.owed msg⟩, reg)
  | (none, reg) => (x.1, reg)

lemma step_play {parser : Parser} {x : Dump × Register} {msg : BmpMsg}
    (hphase : x.1.conn.phase = .dumping ∨ x.1.conn.phase = .updating)
    (h : ((x.1.conn.processMsg parser msg).exec ⟨0, ⟨0, 0, 0, 0, 0, 0⟩⟩ x.2).1.isSome = true) :
    x.1.Step parser msg (play parser x msg).1 := by
  have hret := returns_exec ⟨0, ⟨0, 0, 0, 0, 0, 0⟩⟩ (x.1.conn.processMsg parser msg) x.2
  unfold play
  cases hx : (x.1.conn.processMsg parser msg).exec ⟨0, ⟨0, 0, 0, 0, 0, 0⟩⟩ x.2 with
  | mk result reg =>
    rw [hx] at hret h
    cases result with
    | none => cases h
    | some y => exact .processed hphase hret

end Dump

/-- announces 10.0.0.0/8, and 2000::/4 if `both` -/
def dumpUpdate (both : Bool) : UpdateMessage where
  fourOctet := true
  treatment := .normal
  pathAttributes := some [some (.origin .igp)]
  announcements := some (some (.route false tenNet none) ::
    if both then [some (.route false ⟨.v6, [false, false, true, false], by decide⟩ none)] else [])
  withdrawals := some []

/-- the End-of-RIB of IPv4 unicast is an UPDATE with nothing in it -/
def emptyUpdate : UpdateMessage where
  fourOctet := true
  treatment := .normal
  pathAttributes := some []
  announcements := some []
  withdrawals := some []

/-- a parser for these three -/
def dumpParser : Parser where
  bgpUpdate _ b :=
    if b = [0] then some emptyUpdate
    else if b = [1] then some (dumpUpdate false)
    else if b = [2] then some (dumpUpdate true)
    else none
  isEor u := if u.announcements = some [] ∧ u.withdrawals = some [] then some .ipv4Unicast else none

lemma dumpParser_isEor (u : UpdateMessage) (h : (dumpParser.isEor u).isSome = true) :
    announcedFamilies u = [] := by
  have h' : (if u.announcements = some [] ∧ u.withdrawals = some [] then some AfiSafiType.ipv4Unicast
    else none).isSome = true := h
  by_cases hu : u.announcements = some [] ∧ u.withdrawals = some []
  · unfold announcedFamilies acceptedAnnouncements
    rw [hu.1]
    split
    · rename_i heq
      cases heq
      rfl
    · rfl
  · rw [if_neg hu] at h'
    cases h'

def dumpHeader : Header := ⟨0, 0, 0, 0x0a000001, 65001, 0x0a000001⟩

def dumpPeerUp (gracefulRestart : Bool) : BmpMsg :=
  .peerUp ⟨dumpHeader, ⟨true, []⟩, gracefulRestart, 65000, none⟩

def dumpRoutes (update : Bytes) : BmpMsg := .routeMonitoring ⟨dumpHeader, 0, update⟩

def dumpAfter (msgs : List BmpMsg) : Dump × Register :=
  msgs.foldl (Dump.play dumpParser) (.new 1, ⟨2, ∅⟩)

theorem dump_ends_oneFamily :
    (dumpAfter [dumpPeerUp true, dumpRoutes [1]]).1.Ends dumpParser (dumpRoutes [0])
      (dumpAfter [dumpPeerUp true, dumpRoutes [1], dumpRoutes [0]]).1 ∧
    (dumpAfter [dumpPeerUp true, dumpRoutes [1], dumpRoutes [0]]).1.conn.phase = .updating := by
  have hempty : ∀ config u, dumpParser.bgpUpdate config [0] = some u → OneFamily u := by
    intro config u hu
    cases hu
    intro first rest reach hf
    cases hf
  have hroutes : ∀ config u, dumpParser.bgpUpdate config [1] = some u → OneFamily u := by
    intro config u hu
    cases hu
    intro first rest reach hf hr
    cases hf
    cases hr
    exact ⟨List.cons_ne_nil _ _, fun n hn => nomatch hn⟩
  have hs1 : (Dump.new 1).Step dumpParser (dumpPeerUp true) (dumpAfter [dumpPeerUp true]).1 :=
    Dump.step_play (x := (.new 1, ⟨2, ∅⟩)) (.inl rfl) rfl
  have hs2 : (dumpAfter [dumpPeerUp true]).1.Step dumpParser (dumpRoutes [1])
      (dumpAfter [dumpPeerUp true, dumpRoutes [1]]).1 :=
    Dump.step_play (x := dumpAfter [dumpPeerUp true]) (.inl rfl) rfl
  have h2 : Dump.Reach dumpParser 1 (dumpAfter [dumpPeerUp true, dumpRoutes [1]]).1 :=
    .step (.step .new hs1 rfl) hs2 hroutes
  refine ⟨dump_ends dumpParser dumpParser_isEor 1 h2
    (Dump.step_play (x := dumpAfter [dumpPeerUp true, dumpRoutes [1]]) (.inl rfl) rfl) hempty, rfl⟩

/-- A peer without Graceful Restart is up, and its End-of-RIB ends the dump; so does that of IPv4
unicast of a peer which announced IPv4 and IPv6 routes in one UPDATE. -/
theorem dump_ends_early :
    ((dumpAfter [dumpPeerUp false]).1.Step dumpParser (dumpRoutes [0])
        (dumpAfter [dumpPeerUp false, dumpRoutes [0]]).1 ∧
      ¬ (dumpAfter [dumpPeerUp false]).1.Ends dumpParser (dumpRoutes [0])
        (dumpAfter [dumpPeerUp false, dumpRoutes [0]]).1) ∧
    ((dumpAfter [dumpPeerUp true, dumpRoutes [2]]).1.Step dumpParser (dumpRoutes [0])
        (dumpAfter [dumpPeerUp true, dumpRoutes [2], dumpRoutes [0]]).1 ∧
      ¬ (dumpAfter [dumpPeerUp true, dumpRoutes [2]]).1.Ends dumpParser (dumpRoutes [0])
        (dumpAfter [dumpPeerUp true, dumpRoutes [2], dumpRoutes [0]]).1) := by
  refine ⟨⟨Dump.step_play (x := dumpAfter [dumpPeerUp false]) (.inl rfl) rfl, ?_⟩,
    ⟨Dump.step_play (x := dumpAfter [dumpPeerUp true, dumpRoutes [2]]) (.inl rfl) rfl, ?_⟩⟩
  · intro h
    cases (h rfl rfl).2.2 dumpHeader false rfl
  · intro h
    exact absurd ((h rfl rfl).2.1 dumpHeader) (by decide)

end Netom.Bmp
