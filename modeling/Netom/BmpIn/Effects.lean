import Netom.BmpIn.Machine

/-!
# What a Route Monitoring message does to the peers

The task of a connection works on a message with the register in between; of what it leaves of the
peers, the views, the configurations and the End-of-RIBs that are owed do not depend on what the
register answers.

* `acceptedAnnouncements`  what an UPDATE announces, if it is taken in;
* `UpdateEffect`  what an UPDATE does to its peer and to the phase;
* `RouteMonitoringEffect`  what a whole message does: its view may be made up, and the configuration of
  its session corrected.
-/

namespace Netom.Bmp
open Atomic Prog Option Assoc

/-! ## what an UPDATE announces -/

def acceptedAnnouncements (u : UpdateMessage) : List Nlri :=
  match explodeAnnouncements u, explodeWithdrawals u, u.announcements.bind (·.mapM id) with
  | some _, some _, some announcements => announcements
  | _, _, _ => []

def announcedFamilies (u : UpdateMessage) : List AfiSafiType :=
  (acceptedAnnouncements u).map Conn.nlriFamily

/-- one of the announcements can be stored, and all are of one family -/
def OneFamily (u : UpdateMessage) : Prop :=
  ∀ first rest reach, acceptedAnnouncements u = first :: rest → explodeAnnouncements u = some reach →
    reach ≠ [] ∧ ∀ n ∈ rest, Conn.nlriFamily n = Conn.nlriFamily first

/-! ## what an UPDATE does -/

/-- what is left of the End-of-RIBs owed once the UPDATE is looked at -/
def eorsLeft (parser : Parser) (h : Header) (u : UpdateMessage) (owed : Finset EoRProperties) :
    Finset EoRProperties :=
  match parser.isEor u with
  | none => owed
  | some afiSafi => owed.erase (.new h afiSafi)

structure UpdateEffect (parser : Parser) (c : Conn) (h : Header) (u : UpdateMessage) (c' : Conn) :
    Prop where
  others : ∀ k, k ≠ h → c'.peers.lookup k = c.peers.lookup k
  own : ∀ peer, c.peers.lookup h = some peer → ∃ peer', c'.peers.lookup h = some peer' ∧
    peer'.sessionConfig = peer.sessionConfig ∧ peer'.eorCapable = peer.eorCapable ∧
    eorsLeft parser h u peer.pendingEors ⊆ peer'.pendingEors ∧
    (parser.isEor u = none → ∀ first rest reach, acceptedAnnouncements u = first :: rest →
      explodeAnnouncements u = some reach → reach ≠ [] → peer.eorCapable = true →
      EoRProperties.new h (Conn.nlriFamily first) ∈ peer'.pendingEors)
  phase : c'.phase = c.phase ∨ (c.phase = .dumping ∧ c'.phase = .updating ∧
    (parser.isEor u).isSome = true ∧
    ∀ k peer, c'.peers.lookup k = some peer → peer.pendingEors = ∅)

namespace Conn
variable {c : Conn} {parser : Parser}

lemma lookup_setPathChildren (peers : PeerStates) (h k : Header) (cache : PathCache) :
    (peers.setPathChildren h cache).lookup k =
      if k = h then (peers.lookup k).map fun peer => { peer with pathChildren := cache }
      else peers.lookup k :=
  lookup_modify k h _ peers

lemma lookup_addPendingEor (peers : PeerStates) (h k : Header) (afiSafi : AfiSafiType) :
    (peers.addPendingEor h afiSafi).lookup k =
      if k = h then (peers.lookup k).map fun peer =>
        { peer with pendingEors := insert (.new h afiSafi) peer.pendingEors }
      else peers.lookup k :=
  lookup_modify k h _ peers

lemma lookup_removePendingEor (peers : PeerStates) (h k : Header) (afiSafi : AfiSafiType) :
    (peers.removePendingEor h afiSafi).2.lookup k =
      if k = h then (peers.lookup k).map fun peer =>
        { peer with pendingEors := peer.pendingEors.erase (.new h afiSafi) }
      else peers.lookup k :=
  lookup_modify k h _ peers

variable {h : Header}

lemma pendingEors_of_removed {peers : PeerStates} {afiSafi : AfiSafiType}
    (hd : (peers.removePendingEor h afiSafi).1 = true) {k : Header} {peer : PeerState}
    (hl : (peers.removePendingEor h afiSafi).2.lookup k = some peer) : peer.pendingEors = ∅ := by
  have hmem : (⟨k, peer⟩ : Sigma fun _ : Header => PeerState) ∈
      (peers.removePendingEor h afiSafi).2.entries := AList.mem_lookup_iff.mp hl
  exact of_decide_eq_true (List.all_eq_true.mp hd _ hmem)

/-! ### the parts -/

/-- the End-of-RIB of an UPDATE, without the announcements -/
structure EorEffect (parser : Parser) (c : Conn) (h : Header) (u : UpdateMessage) (c' : Conn) :
    Prop where
  others : ∀ k, k ≠ h → c'.peers.lookup k = c.peers.lookup k
  own : ∀ peer, c.peers.lookup h = some peer → c'.peers.lookup h =
    some { peer with pendingEors := eorsLeft parser h u peer.pendingEors }

lemma preprocess_eor (c : Conn) (parser : Parser) (h : Header) (u : UpdateMessage) :
    EorEffect parser c h u (c.preprocess parser h u).2 := by
  unfold preprocess
  cases he : parser.isEor u with
  | none =>
    constructor
    · intro k _
      rfl
    · intro peer hl
      show c.peers.lookup h = _
      rw [hl, eorsLeft, he]
  | some afiSafi =>
    have hpeers : ∀ b : Bool × Conn, b.2.peers = (c.peers.removePendingEor h afiSafi).2 →
        EorEffect parser c h u b.2 := by
      intro b hb
      constructor
      · intro k hk
        rw [hb, lookup_removePendingEor, if_neg hk]
      · intro peer hl
        rw [hb, lookup_removePendingEor, if_pos rfl, hl, eorsLeft, he]
        rfl
    apply hpeers
    show (if _ then _ else _ : Bool × Conn).2.peers = _
    split <;> rfl

/-- `preprocess` is all the message does when the last End-of-RIB that is owed comes in the dump -/
lemma preprocess_phase (c : Conn) (parser : Parser) (h : Header) (u : UpdateMessage) :
    ((c.preprocess parser h u).1 = false ∧ (c.preprocess parser h u).2.phase = c.phase) ∨
    ((c.preprocess parser h u).1 = true ∧ c.phase = .dumping ∧
      (c.preprocess parser h u).2.phase = .updating ∧ (parser.isEor u).isSome = true ∧
      ∀ k peer, (c.preprocess parser h u).2.peers.lookup k = some peer → peer.pendingEors = ∅) := by
  cases he : parser.isEor u with
  | none =>
    have hpre : c.preprocess parser h u = (false, c) := by simp only [preprocess, he]
    rw [hpre]
    exact .inl ⟨rfl, rfl⟩
  | some afiSafi =>
    by_cases hd : (c.peers.removePendingEor h afiSafi).1 = true ∧ c.phase = .dumping
    · have hpre : c.preprocess parser h u = (true, { c with
          phase := .updating, peers := (c.peers.removePendingEor h afiSafi).2 }) := by
        simp only [preprocess, he, if_pos hd]
      rw [hpre]
      exact .inr ⟨rfl, hd.2, rfl, rfl, fun k peer hl => pendingEors_of_removed hd.1 hl⟩
    · have hpre : c.preprocess parser h u = (false, { c with
          peers := (c.peers.removePendingEor h afiSafi).2 }) := by
        simp only [preprocess, he, if_neg hd]
      rw [hpre]
      exact .inl ⟨rfl, rfl⟩

structure RouteEffect (c : Conn) (h : Header) (u : UpdateMessage) (c' : Conn) : Prop where
  others : ∀ k, k ≠ h → c'.peers.lookup k = c.peers.lookup k
  own : ∀ peer, c.peers.lookup h = some peer → ∃ peer', c'.peers.lookup h = some peer' ∧
    peer'.sessionConfig = peer.sessionConfig ∧ peer'.eorCapable = peer.eorCapable ∧
    peer.pendingEors ⊆ peer'.pendingEors ∧
    (∀ first rest reach, acceptedAnnouncements u = first :: rest →
      explodeAnnouncements u = some reach → reach ≠ [] → peer.eorCapable = true →
      EoRProperties.new h (nlriFamily first) ∈ peer'.pendingEors)
  phase : c'.phase = c.phase

variable {u : UpdateMessage}

lemma RouteEffect.of_rejected (hu : acceptedAnnouncements u = []) : RouteEffect c h u c where
  others k _ := rfl
  own peer hl := by
    refine ⟨peer, hl, rfl, rfl, subset_refl _, ?_⟩
    intro first rest reach hf
    rw [hu] at hf
    cases hf
  phase := rfl

/-- an End-of-RIB is owed only for valid announcements of a peer that sends them -/
lemma notePendingEor_cases (c : Conn) (h : Header) (ns : List Nlri) (n : Nat) :
    (c.notePendingEor h ns n = c ∧ ∀ peer first rest, c.peers.lookup h = some peer →
      ns = first :: rest → ¬ (0 < n ∧ peer.eorCapable = true)) ∨
    ∃ first rest, ns = first :: rest ∧ c.notePendingEor h ns n =
      { c with peers := c.peers.addPendingEor h (nlriFamily first) } := by
  unfold notePendingEor
  split
  · next peer first rest hl =>
    split
    · exact .inr ⟨first, rest, rfl, rfl⟩
    · next hv =>
      refine .inl ⟨rfl, ?_⟩
      intro peer' _ _ hl' _
      rw [hl] at hl'
      cases hl'
      exact hv
  · next hno =>
    exact .inl ⟨rfl, fun peer first rest hl hns => (hno peer first rest hl hns).elim⟩

lemma RouteEffect.of_accepted {reach unreach : List Exploded} {announcements : List Nlri}
    (hr : explodeAnnouncements u = some reach) (hu : explodeWithdrawals u = some unreach)
    (ha : u.announcements.bind (·.mapM id) = some announcements) (cache : PathCache) :
    RouteEffect c h u (({ c with peers := c.peers.setPathChildren h cache } : Conn).notePendingEor h
      announcements reach.length) := by
  have hacc : acceptedAnnouncements u = announcements := by
    simp only [acceptedAnnouncements, hr, hu, ha]
  have hl' : ∀ peer, c.peers.lookup h = some peer →
      (c.peers.setPathChildren h cache).lookup h = some { peer with pathChildren := cache } := by
    intro peer hl
    rw [lookup_setPathChildren, if_pos rfl, hl]
    rfl
  rcases notePendingEor_cases { c with peers := c.peers.setPathChildren h cache } h announcements
    reach.length with ⟨hnote, hno⟩ | ⟨first, rest, hann, hnote⟩
  · rw [hnote]
    constructor
    · intro k hk
      exact (lookup_setPathChildren ..).trans (if_neg hk)
    · intro peer hl
      refine ⟨{ peer with pathChildren := cache }, hl' peer hl, rfl, rfl, subset_refl _, ?_⟩
      intro first rest reach' hf hr' hne hcap
      rw [hr] at hr'
      cases hr'
      exact absurd ⟨List.length_pos_iff.mpr hne, hcap⟩
        (hno _ first rest (hl' peer hl) (hacc.symm.trans hf))
    · rfl
  · rw [hnote]
    constructor
    · intro k hk
      show ((c.peers.setPathChildren h cache).addPendingEor h _).lookup k = _
      rw [lookup_addPendingEor, if_neg hk, lookup_setPathChildren, if_neg hk]
    · intro peer hl
      refine ⟨{ peer with
        pathChildren := cache
        pendingEors := insert (.new h (nlriFamily first)) peer.pendingEors }, ?_, rfl, rfl,
        Finset.subset_insert _ _, ?_⟩
      · show ((c.peers.setPathChildren h cache).addPendingEor h _).lookup h = _
        rw [lookup_addPendingEor, if_pos rfl, hl' peer hl]
        rfl
      · intro first' rest' _ hf _ _ _
        rw [hacc, hann] at hf
        cases hf
        exact Finset.mem_insert_self _ _
    · rfl

lemma announcements_of_explode {reach : List Exploded} (h : explodeAnnouncements u = some reach) :
    ∃ announcements, u.announcements.bind (·.mapM id) = some announcements := by
  unfold explodeAnnouncements at h
  cases hp : u.pathAttributes with
  | none =>
    rw [hp] at h
    cases h
  | some pas =>
    cases ha : u.announcements with
    | none =>
      rw [hp, ha] at h
      cases h
    | some nlris =>
      cases hm : nlris.mapM id with
      | none =>
        rw [hp, ha] at h
        simp only [bind_eq_bind, bind_some, hm, bind_none] at h
        cases h
      | some announcements => exact ⟨announcements, hm⟩

variable {c' : Conn} {msg : RouteMonitoring} {mt : MessageType}

lemma forwardUpdate_effect {config : SessionConfig}
    (hr : (c.forwardUpdate msg config u).Returns (some (c', mt))) :
    RouteEffect c msg.header u c' := by
  obtain ⟨routes, hex, hk⟩ := returns_bind_iff.mp hr
  cases hreach : explodeAnnouncements u with
  | none =>
    have hacc : acceptedAnnouncements u = [] := by simp only [acceptedAnnouncements, hreach]
    simp only [extractRouteMonitoringRoutes, hreach] at hex
    rw [returns_ret_iff.mp hex] at hk
    cases returns_ret_iff.mp hk
    exact RouteEffect.of_rejected hacc
  | some reach =>
    cases hunreach : explodeWithdrawals u with
    | none =>
      have hacc : acceptedAnnouncements u = [] := by
        simp only [acceptedAnnouncements, hreach, hunreach]
      simp only [extractRouteMonitoringRoutes, hreach, hunreach] at hex
      rw [returns_ret_iff.mp hex] at hk
      cases returns_ret_iff.mp hk
      exact RouteEffect.of_rejected hacc
    | some unreach =>
      cases hl : c.peers.lookup msg.header with
      | none =>
        simp only [extractRouteMonitoringRoutes, hreach, hunreach, hl] at hex
        rw [returns_ret_iff.mp hex] at hk
        cases returns_ret_iff.mp hk
        constructor
        · intro k _
          rfl
        · intro peer hl'
          rw [hl] at hl'
          cases hl'
        · rfl
      | some peer =>
        simp only [extractRouteMonitoringRoutes, hreach, hunreach, hl] at hex
        obtain ⟨⟨payloads, cache⟩, _, hex⟩ := returns_bind_iff.mp hex
        rw [returns_ret_iff.mp hex] at hk
        obtain ⟨announcements, hann⟩ := announcements_of_explode hreach
        simp only [hann] at hk
        cases returns_ret_iff.mp hk
        exact RouteEffect.of_accepted hreach hunreach hann cache

lemma processUpdate_effect {config : SessionConfig}
    (hr : (c.processUpdate parser msg config u).Returns (some (c', mt))) :
    UpdateEffect parser c msg.header u c' := by
  have heor := preprocess_eor c parser msg.header u
  unfold processUpdate at hr
  rcases preprocess_phase c parser msg.header u with
    ⟨hf, hph⟩ | ⟨ht, hdump, hupd, hsome, hempty⟩
  · rw [if_neg (by rw [hf]; exact Bool.false_ne_true)] at hr
    have hroute := forwardUpdate_effect hr
    constructor
    · intro k hk
      rw [hroute.others k hk, heor.others k hk]
    · intro peer hl
      obtain ⟨peer', hl', hcfg, hcap, hsub, hnew⟩ := hroute.own _ (heor.own peer hl)
      exact ⟨peer', hl', hcfg, hcap, hsub, fun _ => hnew⟩
    · exact .inl (hroute.phase.trans hph)
  · rw [if_pos ht] at hr
    cases returns_ret_iff.mp hr
    constructor
    · exact heor.others
    · intro peer hl
      refine ⟨_, heor.own peer hl, rfl, rfl, subset_refl _, ?_⟩
      intro hnone
      rw [hnone] at hsome
      cases hsome
    · exact .inr ⟨hdump, hupd, hsome, hempty⟩

/-- the view of a message: it is there, or made up from another view -/
inductive View (c : Conn) (h : Header) (c' : Conn) : Prop
  | known (hc : c' = c)
  | cloned (k : Header) (source peer : PeerState) (hn : c.peers.lookup h = none)
      (hs : c.peers.lookup k = some source) (he : peer.eorCapable = source.eorCapable)
      (hp : c'.peers = c.peers.insert h peer) (hph : c'.phase = c.phase)

lemma synthesize_view {k : Header} {source : PeerState} {ok : Bool} (hn : c.peers.lookup h = none)
    (hs : c.peers.lookup k = some source) (hr : (c.synthesize source h).Returns (some (ok, c'))) :
    ok = true ∧ View c h c' := by
  obtain ⟨info, _, hk⟩ := returns_bind_iff.mp hr
  cases info with
  | none => cases returns_ret_iff.mp hk
  | some info =>
    obtain ⟨⟨id, existing⟩, _, hk⟩ := returns_bind_iff.mp hk
    cases returns_ret_iff.mp hk
    refine ⟨?_, .cloned k source { source with
      ingressId := id, synthesized := true, pathChildren := ⟨∅, source.pathChildren.minted⟩ }
      hn hs rfl rfl rfl⟩
    show (c.peers.lookup h).isNone = true
    rw [hn]
    rfl

lemma resolveView_view {ok : Bool} (hr : (c.resolveView h).Returns (some (ok, c'))) :
    (ok = true ∧ View c h c') ∨ (ok = false ∧ c' = c ∧ c.peers.lookup h = none) := by
  unfold resolveView at hr
  cases hl : c.peers.lookup h with
  | some peer =>
    rw [hl] at hr
    cases returns_ret_iff.mp hr
    exact .inl ⟨rfl, .known rfl⟩
  | none =>
    rw [hl] at hr
    cases hl2 : c.peers.lookup h.nulledFlags with
    | some source =>
      simp only [hl2] at hr
      exact .inl (synthesize_view hl hl2 hr)
    | none =>
      simp only [hl2] at hr
      obtain ⟨sibling, _, hk⟩ := returns_bind_iff.mp hr
      cases sibling with
      | none =>
        cases returns_ret_iff.mp hk
        exact .inr ⟨rfl, rfl, rfl⟩
      | some k =>
        cases hl3 : c.peers.lookup k with
        | some source =>
          simp only [bind_some, hl3] at hk
          exact .inl (synthesize_view hl hl3 hk)
        | none =>
          simp only [bind_some, hl3] at hk
          cases returns_ret_iff.mp hk
          exact .inr ⟨rfl, rfl, rfl⟩

/-- a Route Monitoring message is for no known peer, does not parse, or is an UPDATE of its view -/
inductive RouteMonitoringEffect (parser : Parser) (c : Conn) (msg : RouteMonitoring) (c' : Conn) : Prop
  | unknown (hc : c' = c) (hl : c.peers.lookup msg.header = none)
  | unparsed (hv : View c msg.header c') (peer : PeerState)
      (hl : c'.peers.lookup msg.header = some peer)
      (hp : parser.bgpUpdate (peer.sessionConfig.forBmpRib msg.header.ribType) msg.update = none)
  | update (c1 : Conn) (hv : View c msg.header c1) (peer peer2 : PeerState) (c2 : Conn)
      (hl : c1.peers.lookup msg.header = some peer) (he : peer2.eorCapable = peer.eorCapable)
      (hpend : peer2.pendingEors = peer.pendingEors)
      (hother : ∀ k, k ≠ msg.header → c2.peers.lookup k = c1.peers.lookup k)
      (hl2 : c2.peers.lookup msg.header = some peer2) (hph : c2.phase = c1.phase)
      (u : UpdateMessage)
      (hp : parser.bgpUpdate (peer2.sessionConfig.forBmpRib msg.header.ribType) msg.update = some u)
      (hu : UpdateEffect parser c2 msg.header u c')

lemma forBmpRib_forBmpRib (config : SessionConfig) (r : RibType) :
    (config.forBmpRib r).forBmpRib r = config := by
  by_cases hr : r ≠ .adjRibOut
  · simp only [SessionConfig.forBmpRib, if_pos hr]
  · have hswap : ∀ l : List (AfiSafiType × AddpathDirection),
        (l.map fun e => (e.1, e.2.swap)).map (fun e => (e.1, e.2.swap)) = l := by
      intro l
      rw [List.map_map]
      have hid : ((fun e => (e.1, e.2.swap)) ∘ fun e => (e.1, e.2.swap) :
          AfiSafiType × AddpathDirection → _) = id := by
        funext e
        obtain ⟨f, d⟩ := e
        cases d <;> rfl
      rw [hid, List.map_id]
    simp only [SessionConfig.forBmpRib, if_neg hr, hswap]

lemma routeMonitoring_effect (hr : (c.routeMonitoring parser msg).Returns (some (c', mt))) :
    RouteMonitoringEffect parser c msg c' := by
  obtain ⟨view, hview, hk⟩ := returns_bind_iff.mp hr
  cases view with
  | none => cases returns_ret_iff.mp hk
  | some view =>
    obtain ⟨ok, c1⟩ := view
    rcases resolveView_view hview with ⟨rfl, hv⟩ | ⟨rfl, rfl, hl⟩
    · cases hl : c1.peers.lookup msg.header with
      | none =>
        simp only [hl] at hk
        cases returns_ret_iff.mp hk
      | some peer =>
        simp only [hl] at hk
        cases hp : parser.bgpUpdate (peer.sessionConfig.forBmpRib msg.header.ribType) msg.update with
        | some u =>
          simp only [parseUpdate, hp] at hk
          exact .update c1 hv peer peer c1 hl rfl rfl (fun k _ => rfl) hl rfl u hp
            (processUpdate_effect hk)
        | none =>
          cases hp2 : parser.bgpUpdate
              (peer.sessionConfig.forBmpRib msg.header.ribType).alternate msg.update with
          | none =>
            simp only [parseUpdate, hp, hp2] at hk
            cases returns_ret_iff.mp hk
            exact .unparsed hv peer hl hp
          | some u =>
            simp only [parseUpdate, hp, hp2, map_some, if_true] at hk
            let config := (peer.sessionConfig.forBmpRib msg.header.ribType).alternate.forBmpRib
              msg.header.ribType
            refine .update c1 hv peer { peer with sessionConfig := config }
              { c1 with peers := c1.peers.updatePeerConfig msg.header config } hl rfl rfl
              ?_ ?_ rfl u ?_ (processUpdate_effect hk)
            · intro k hk'
              exact (lookup_modify k msg.header _ c1.peers).trans (if_neg hk')
            · show (modify msg.header _ c1.peers).lookup msg.header = _
              rw [lookup_modify, if_pos rfl, hl]
              rfl
            · show parser.bgpUpdate (config.forBmpRib msg.header.ribType) _ = _
              rw [forBmpRib_forBmpRib]
              exact hp2
    · cases returns_ret_iff.mp hk
      exact .unknown rfl hl

end Conn

end Netom.Bmp
