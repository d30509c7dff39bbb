import Netom.BmpIn.Shares

/-!
# The programs of a connection keep to its share

One lemma for each program of the state machine: it takes only steps that no other connection can
notice, and at its end the share covers the peers of the connection.

* `ConnOk`  the share owns the ingress of the router and those of the peers, and has their
  path children;
* `keeps_…`  the programs, up to `keeps_begin` for anything that reaches a connection;
* `Link.meanwhile`  what a connection keeps while it works on a message.
-/

namespace Netom.Bmp
open Atomic Share List Assoc

/-! ## Route Monitoring, under any discipline -/

lemma identity_of_findSibling {peers : PeerStates} {pick h k : Header}
    (hf : peers.findSibling pick h = some k) : k.identity = h.identity := by
  have hok : (k ≠ h && k.identity = h.identity : Bool) = true := by
    unfold PeerStates.findSibling at hf
    simp only at hf
    split at hf
    · rename_i hp
      cases hf
      exact (Bool.and_eq_true_iff.mp hp).1
    · obtain ⟨_, _, hk⟩ := findKey_spec hf
      exact hk
  exact of_decide_eq_true (Bool.and_eq_true_iff.mp hok).2

/-- the views of one peer have its address and its AS number -/
lemma peer_of_identity {h k : Header} (he : k.identity = h.identity) :
    (k.address, k.asn.toNat) = (h.address, h.asn.toNat) := by
  have ha : k.address = h.address := congrArg (fun i => i.2.2.1) he
  have hn : k.asn = h.asn := congrArg (fun i => i.2.2.2.1) he
  rw [ha, hn]

lemma address_nulledFlags (h : Header) : h.nulledFlags.address = h.address := by
  have hv : h.flags &&& 0b10101111 &&& 0x80 = h.flags &&& 0x80 := by
    rw [BitVec.and_assoc]
    rfl
  unfold Header.address
  show (if h.flags &&& 0b10101111 &&& 0x80 = 0 then _ else _) = _
  rw [hv]
  rfl

/-- what is left of a connection after a message is `ok` -/
def Processed.All {G : Type} (ok : Conn → G → Prop) (r : Processed) (g : G) : Prop :=
  ∀ c mt, r = some (c, mt) → ok c g

section tended
variable {G : Type} {D : Discipline Register G} {ok : Conn → G → Prop} {inv : G → Prop} {g : G}
  {c : Conn} {h : Header} {u : UpdateMessage}

lemma Processed.all_some {mt : MessageType} (h : ok c g) : Processed.All ok (some (c, mt)) g := by
  intro c' mt' he
  cases he
  exact h

lemma Processed.all_none : Processed.All ok none g := by
  intro c mt he
  cases he

variable (D ok) in
/-- What a discipline has to say of the connections that it tends: `ok` lasts while the share grows,
does not depend on what a peer owes and how it is parsed, and the views and the path children of a
connection join it. -/
structure Tended where
  Grows : G → G → Prop
  refl : ∀ g, Grows g g
  trans : ∀ {g g' g''}, Grows g g' → Grows g' g'' → Grows g g''
  phase : ∀ {c g} (phase : Phase), ok c g → ok { c with phase := phase } g
  modify : ∀ {c g h} (f : PeerState → PeerState), (∀ p, (f p).ingressId = p.ingressId) →
    (∀ p, (f p).pathChildren = p.pathChildren) → ok c g →
      ok { c with peers := modify h f c.peers } g
  synthesize : ∀ {c g h k source inv post}, (∀ g', Grows g g' → inv g') → ok c g →
    c.peers.lookup k = some source → (k.address, k.asn.toNat) = (h.address, h.asn.toNat) →
    post none g → (∀ b c' g', Grows g g' → ok c' g' → post (some (b, c')) g') →
      (c.synthesize source h).Keeps D inv post g
  announced : ∀ {c g h peer reach inv post}, (∀ g', Grows g g' → inv g') → ok c g →
    c.peers.lookup h = some peer →
    (∀ ps cache g', Grows g g' → ok { c with peers := c.peers.setPathChildren h cache } g' →
      post (ps, cache) g') →
      (announced h peer.ingressId peer.pathChildren reach).Keeps D inv post g

namespace Tended
variable (U : Tended D ok)
include U

lemma resolveView {post : Option (Bool × Conn) → G → Prop} (hi : ∀ g', U.Grows g g' → inv g')
    (hc : ok c g) (hnone : post none g)
    (hp : ∀ b c' g', U.Grows g g' → ok c' g' → post (some (b, c')) g') :
    (c.resolveView h).Keeps D inv post g := by
  unfold Conn.resolveView
  cases c.peers.lookup h with
  | some _ => exact hp _ _ g (U.refl g) hc
  | none =>
    cases hn : c.peers.lookup h.nulledFlags with
    | some source =>
      refine U.synthesize hi hc hn ?_ hnone hp
      rw [address_nulledFlags]
      rfl
    | none =>
      refine .bind (.read (hi g (U.refl g)) ?_)
      intro pick reg _
      cases hf : c.peers.findSibling pick.header h with
      | none => exact hp _ _ g (U.refl g) hc
      | some k =>
        simp only [Option.bind_some]
        cases hk : c.peers.lookup k with
        | none => exact hp _ _ g (U.refl g) hc
        | some source =>
          exact U.synthesize hi hc hk (peer_of_identity (identity_of_findSibling hf)) hnone hp

lemma preprocess {parser : Parser} (hc : ok c g) : ok (c.preprocess parser h u).2 g := by
  unfold Conn.preprocess
  cases parser.isEor u with
  | none => exact hc
  | some afiSafi =>
    have hm : ok { c with peers := (c.peers.removePendingEor h afiSafi).2 } g :=
      U.modify _ (fun _ => rfl) (fun _ => rfl) hc
    show ok (if _ then (_, _) else (_, _)).2 g
    split
    · exact U.phase .updating hm
    · exact hm

lemma notePendingEor {ns : List Nlri} {n : Nat} (hc : ok c g) :
    ok (c.notePendingEor h ns n) g := by
  unfold Conn.notePendingEor
  split
  · split
    · exact U.modify _ (fun _ => rfl) (fun _ => rfl) hc
    · exact hc
  · exact hc

variable {msg : RouteMonitoring}

lemma forwardUpdate {config : SessionConfig} (hi : ∀ g', U.Grows g g' → inv g') (hc : ok c g) :
    (c.forwardUpdate msg config u).Keeps D inv (Processed.All ok) g := by
  unfold Conn.forwardUpdate Conn.extractRouteMonitoringRoutes
  split
  · rename_i reach unreach peer _ _ hl
    refine .bind (.bind (U.announced hi hc hl ?_))
    intro payloads cache g' hg hc'
    cases u.announcements.bind (·.mapM id) with
    | none => exact Processed.all_some hc'
    | some ns => exact Processed.all_some (U.notePendingEor hc')
  · exact Processed.all_some hc

lemma processUpdate {parser : Parser} {config : SessionConfig} (hi : ∀ g', U.Grows g g' → inv g')
    (hc : ok c g) : (c.processUpdate parser msg config u).Keeps D inv (Processed.All ok) g := by
  have hpre : ok (c.preprocess parser msg.header u).2 g := U.preprocess hc
  unfold Conn.processUpdate
  by_cases hdone : (c.preprocess parser msg.header u).1 = true
  · rw [if_pos hdone]
    exact Processed.all_some hpre
  · rw [if_neg hdone]
    exact U.forwardUpdate hi hpre

lemma routeMonitoring {parser : Parser} (hi : ∀ g', U.Grows g g' → inv g') (hc : ok c g) :
    (c.routeMonitoring parser msg).Keeps D inv (Processed.All ok) g := by
  refine .bind (U.resolveView hi hc Processed.all_none ?_)
  intro b c' g' hg hc'
  cases b with
  | false => exact Processed.all_some hc'
  | true =>
    dsimp only
    cases c'.peers.lookup msg.header with
    | none => exact Processed.all_none
    | some peer =>
      dsimp only
      cases Conn.parseUpdate parser (peer.sessionConfig.forBmpRib msg.header.ribType) msg.update with
      | none => exact Processed.all_some hc'
      | some r =>
        obtain ⟨config, retried, u⟩ := r
        refine U.processUpdate (fun g'' hg' => hi g'' (U.trans hg hg')) ?_
        cases retried with
        | false => exact hc'
        | true => exact U.modify _ (fun _ => rfl) (fun _ => rfl) hc'

end Tended

/-- a message, once it is known what is left after it -/
lemma keeps_handle_of {cfg : HandlerConfig} {msg : BmpMsg}
    {post : Link × List Update → G → Prop} (hc : ok c g) (hclosed : ∀ us g, post (.closed, us) g)
    (hconn : ∀ c us g, ok c g → post (.connected c, us) g)
    (hinit : ∀ sysName, msg = .initiation sysName →
      (c.initiate sysName).Keeps D inv (fun r g => ok r.1 g) g)
    (hmsg : (c.processMsg cfg.parser msg).Keeps D inv (Processed.All ok) g) :
    (c.handle cfg msg).Keeps D inv post g := by
  unfold Conn.handle
  cases c.phase with
  | initiating =>
    cases msg with
    | initiation sysName =>
      exact .bind ((hinit sysName rfl).mono fun r g' h => hconn _ _ g' h)
    | _ => exact hconn _ _ g hc
  | terminated => exact hconn _ _ g hc
  | dumping | updating =>
    refine .bind (hmsg.mono ?_)
    intro r g' hr
    cases r with
    | none => exact hclosed _ g'
    | some r => exact hconn _ _ g' (hr r.1 r.2 rfl)

end tended

/-! ## what a connection owns -/

def CacheOk (cache : PathCache) (g : Share) : Prop :=
  ∀ q id, cache.children.lookup q = some id → id ∈ g.kids

structure ConnOk (c : Conn) (g : Share) : Prop where
  router : g.owns c.ingressId = some .router
  peer : ∀ h p, c.peers.lookup h = some p →
    g.owns p.ingressId = some (.peer h) ∧ CacheOk p.pathChildren g

def LinkOk : Link → Share → Prop
  | .closed, _ => True
  | .connected c, g => ConnOk c g

variable {g' : Share}

lemma CacheOk.grows {cache : PathCache} {g : Share} (h : CacheOk cache g)
    (hg : Share.Grows g g') : CacheOk cache g' :=
  fun q id hq => hg.kids id (h q id hq)

lemma ConnOk.grows {c : Conn} {g : Share} (h : ConnOk c g) (hg : Share.Grows g g') :
    ConnOk c g' := by
  refine ⟨hg.owns _ _ h.router, ?_⟩
  intro k p hp
  exact ⟨hg.owns _ _ (h.peer k p hp).1, (h.peer k p hp).2.grows hg⟩

/-- what stays true as the share grows -/
def Stable (inv : Share → Prop) (g : Share) : Prop := ∀ g', Share.Grows g g' → inv g'

lemma Stable.self {inv : Share → Prop} {g : Share} (h : Stable inv g) : inv g :=
  h g (.refl g)

lemma Stable.grows {inv : Share → Prop} {g : Share} (h : Stable inv g) (hg : Share.Grows g g') :
    Stable inv g' :=
  fun _ hg' => h _ (hg.trans hg')

/-! ## path children -/

section programs
variable {g : Share} {inv : Share → Prop}

variable {cache : PathCache} {id : IngressId}

lemma cacheOk_insert (hc : CacheOk cache g) (hid : id ∈ g.kids) (q minted : Nat) :
    CacheOk ⟨cache.children.insert q id, minted⟩ g := by
  intro q' id' hq
  have hq' : (cache.children.insert q id).lookup q' = some id' := hq
  rw [lookup_insert_eq] at hq'
  by_cases he : q' = q
  · rw [if_pos he] at hq'
    cases hq'
    exact hid
  · rw [if_neg he] at hq'
    exact hc q' id' hq'

lemma cacheOk_of_sub {cache' : PathCache} (hc : CacheOk cache g)
    (h : ∀ q id, cache'.children.lookup q = some id → cache.children.lookup q = some id) :
    CacheOk cache' g :=
  fun q id hq => hc q id (h q id hq)

lemma lookup_of_pruneMissing {reg : Register} {children : Assoc Nat IngressId} {q : Nat}
    (h : (reg.pruneMissing children).lookup q = some id) : children.lookup q = some id := by
  unfold Register.pruneMissing at h
  rw [lookup_eraseAll] at h
  split at h
  · cases h
  · exact h

variable {h : Header} {sessionId : IngressId}

lemma keeps_mintPathChild {pathId : Nat} {post : IngressId × PathCache → Share → Prop}
    (hi : Stable inv g) (hc : CacheOk cache g)
    (hp : ∀ id cache' g', Share.Grows g g' → CacheOk cache' g' → post (id, cache') g') :
    (mintPathChild h sessionId cache pathId).Keeps shares inv post g := by
  -- once the child is a kid, the rest is the cache
  have hrest : ∀ id g', Share.Grows g g' → id ∈ g'.kids →
      (let children := cache.children.insert pathId id
      let minted := cache.minted + 1
      if minted % pruneEvery = 0 then
        (pruneMissing children).bind fun children => .ret (id, ⟨children, minted⟩)
      else .ret (id, ⟨children, minted⟩) : Task (IngressId × PathCache)).Keeps
        shares inv post g' := by
    intro id g' hg hid
    have hc' : ∀ minted, CacheOk ⟨cache.children.insert pathId id, minted⟩ g' :=
      cacheOk_insert (hc.grows hg) hid pathId
    by_cases hm : (cache.minted + 1) % pruneEvery = 0
    · simp only [hm, if_true]
      refine .bind (.read (hi g' hg) ?_)
      intro _ reg _
      exact hp _ _ g' hg (cacheOk_of_sub (hc' 0) fun q i => lookup_of_pruneMissing)
    · simp only [hm, if_false]
      exact hp _ _ g' hg (hc' _)
  refine .bind (.bind (keeps_claim_pathChild hi.self ?_ ?_))
  · refine .bind (keeps_register hi.self ?_)
    intro id ho
    have hg := grows_give ho .fresh
    refine .bind (keeps_updateInfo_adopt (hi _ hg) (owns_give id _) rfl rfl ?_)
    rw [adopt_give]
    exact hrest id _ (grows_adopt ho) (Set.mem_insert id _)
  · intro id ho
    have hg := grows_adopt ho
    refine .bind (keeps_updateInfo_kid (hi _ hg) (Set.mem_insert id _) rfl rfl ?_)
    exact hrest id _ hg (Set.mem_insert id _)

lemma keeps_getOrCreatePathChild {pathId : Nat} {post : IngressId × PathCache → Share → Prop}
    (hi : Stable inv g) (hc : CacheOk cache g)
    (hp : ∀ id cache' g', Share.Grows g g' → CacheOk cache' g' → post (id, cache') g') :
    (getOrCreatePathChild h sessionId cache pathId).Keeps shares inv post g := by
  unfold getOrCreatePathChild
  cases hl : cache.children.lookup pathId with
  | none => exact keeps_mintPathChild hi hc hp
  | some childId =>
    refine .bind (keeps_refreshPathChild hi.self (hc pathId childId hl) ?_)
    intro b
    cases b with
    | true => exact hp _ _ g (.refl g) hc
    | false =>
      refine keeps_mintPathChild hi (cacheOk_of_sub hc fun q i h => ?_) hp
      rw [lookup_erase_eq] at h
      exact (Option.ite_none_left_eq_some.mp h).2

lemma keeps_announced {reach : List Exploded} {post : List Payload × PathCache → Share → Prop}
    (hi : Stable inv g) (hc : CacheOk cache g)
    (hp : ∀ payloads cache' g', Share.Grows g g' → CacheOk cache' g' → post (payloads, cache') g') :
    (announced h sessionId cache reach).Keeps shares inv post g := by
  induction reach generalizing cache g post with
  | nil => exact hp _ _ g (.refl g) hc
  | cons e reach ih =>
    obtain ⟨rr, pathId⟩ := e
    cases pathId with
    | none => exact .bind (ih hi hc fun payloads cache' g' hg hc' => hp _ _ g' hg hc')
    | some pathId =>
      refine .bind (keeps_getOrCreatePathChild hi hc ?_)
      intro id cache' g' hg hc'
      refine .bind (ih (hi.grows hg) hc' ?_)
      intro payloads cache'' g'' hg' hc''
      exact hp _ _ g'' (hg.trans hg') hc''

/-! ## peers -/

lemma keeps_peerIngress {info : IngressInfo} {post : IngressId × Bool → Share → Prop}
    (h : Header) (hi : Stable inv g) (ht : info.ingressType = some .bgpViaBmp)
    (hs : info.state = some .connected) (hr : info.ribType ≠ none)
    (hp : ∀ id b, g.owns id = none → post (id, b) (g.give id (.peer h))) :
    (Conn.peerIngress info).Keeps shares inv post g := by
  have hwrite : ∀ id b r, g.owns id = none →
      ((updateInfo id info).bind fun _ => .ret (id, b) : Task (IngressId × Bool)).Keeps
        shares inv post (g.give id r) := by
    intro id b r ho
    refine .bind (keeps_updateInfo_peer h (hi _ (grows_give ho r)) (owns_give id r)
      ht hs ?_)
    rw [give_give]
    exact hp id b ho
  refine .bind (.bind (keeps_claim_peer hi.self hr ?_ ?_))
  · refine .bind (keeps_register hi.self ?_)
    intro id ho
    exact hwrite id false .fresh ho
  · intro id ho
    exact hwrite id true .claimed ho

lemma lookup_insert_cases {peers : PeerStates} {k : Header} {p q : PeerState}
    (hl : (peers.insert h p).lookup k = some q) :
    k = h ∧ q = p ∨ k ≠ h ∧ peers.lookup k = some q := by
  rw [lookup_insert_eq] at hl
  by_cases he : k = h
  · rw [if_pos he] at hl
    cases hl
    exact .inl ⟨he, rfl⟩
  · rw [if_neg he] at hl
    exact .inr ⟨he, hl⟩

variable {c : Conn}

lemma connOk_insert {p : PeerState} (hc : ConnOk c g) (ho : g.owns p.ingressId = none)
    (hempty : p.pathChildren.children = ∅) :
    ConnOk { c with peers := c.peers.insert h p } (g.give p.ingressId (.peer h)) := by
  have hg := grows_give ho (.peer h)
  refine ⟨(hc.grows hg).router, ?_⟩
  intro k q hl
  rcases lookup_insert_cases hl with ⟨rfl, rfl⟩ | ⟨_, hl⟩
  · refine ⟨owns_give _ _, ?_⟩
    intro i id hi
    rw [hempty] at hi
    cases hi
  · exact (hc.grows hg).peer k q hl

/-- what the peers of a connection are changed to, as far as ids are concerned -/
lemma connOk_modify {f : PeerState → PeerState} (hc : ConnOk c g)
    (hid : ∀ p, (f p).ingressId = p.ingressId)
    (hcache : ∀ p, c.peers.lookup h = some p → CacheOk (f p).pathChildren g) :
    ConnOk { c with peers := modify h f c.peers } g := by
  refine ⟨hc.router, ?_⟩
  intro k q hl
  have hl' : (modify h f c.peers).lookup k = some q := hl
  rw [lookup_modify] at hl'
  by_cases he : k = h
  · rw [if_pos he] at hl'
    obtain ⟨p, hp, rfl⟩ := Option.map_eq_some_iff.mp hl'
    rw [hid]
    exact ⟨(hc.peer k p hp).1, hcache p (he ▸ hp)⟩
  · rw [if_neg he] at hl'
    exact hc.peer k q hl'

def ProcessedOk (r : Processed) (g : Share) : Prop := ∀ c mt, r = some (c, mt) → ConnOk c g

lemma processedOk_some {mt : MessageType} (h : ConnOk c g) : ProcessedOk (some (c, mt)) g :=
  Processed.all_some h

lemma keeps_peerUp {msg : PeerUpNotification} (hi : Stable inv g) (hc : ConnOk c g) :
    (c.peerUp msg).Keeps shares inv ProcessedOk g := by
  unfold Conn.peerUp
  by_cases hl : (c.peers.lookup msg.header).isSome
  · rw [if_pos hl]
    exact processedOk_some hc
  · rw [if_neg hl]
    refine .bind (keeps_peerIngress msg.header hi rfl rfl (Option.some_ne_none _) ?_)
    intro id b ho
    exact processedOk_some (connOk_insert hc ho rfl)

/-! ## peers that go down -/

/-- marks along a list: path children, and ids of peers, which are given up -/
def Marking (inv post : Share → Prop) : List IngressId → Share → Prop
  | [], g => post g
  | id :: ids, g => inv g ∧ (id ∈ g.kids ∧ Marking inv post ids g ∨
      (∃ h, g.owns id = some (.peer h)) ∧ Marking inv post ids (g.drop id))

variable {post : Share → Prop}

lemma keeps_markAll {ids : List IngressId} (h : Marking inv post ids g) :
    (markAll ids).Keeps shares inv (fun _ g => post g) g := by
  induction ids generalizing g with
  | nil => exact h
  | cons id ids ih =>
    obtain ⟨hi, ⟨hk, hm⟩ | ⟨⟨k, ho⟩, hm⟩⟩ := h
    · exact .bind (keeps_markDisconnected_kid hi hk fun b => .bind (ih hm))
    · exact .bind (keeps_markDisconnected_peer hi ho fun b => .bind (ih hm))

/-- nothing is lost but ids of the peers `hs` -/
structure Spares (hs : List Header) (g g' : Share) : Prop where
  owns : ∀ id r, g.owns id = some r → (∀ h ∈ hs, r ≠ .peer h) → g'.owns id = some r
  kids : ∀ id, id ∈ g.kids → id ∈ g'.kids

lemma Spares.refl (hs : List Header) (g : Share) : Spares hs g g :=
  ⟨fun _ _ h _ => h, fun _ h => h⟩

variable {g' : Share} {hs : List Header}

lemma spares_drop (ho : g.owns id = some (.peer h)) (hs' : Spares hs (g.drop id) g') :
    Spares (h :: hs) g g' := by
  refine ⟨?_, hs'.kids⟩
  intro j r hr hne
  have hj : j ≠ id := by
    intro he
    rw [he, ho] at hr
    cases hr
    exact hne h mem_cons_self rfl
  refine hs'.owns j r ((owns_drop_ne hj).trans hr) ?_
  intro k hk
  exact hne k (mem_cons_of_mem h hk)

lemma marking_kids {ids rest : List IngressId} (hi : inv g) (hk : ∀ id ∈ ids, id ∈ g.kids)
    (hr : Marking inv post rest g) : Marking inv post (ids ++ rest) g := by
  induction ids with
  | nil => exact hr
  | cons id ids ih =>
    refine ⟨hi, .inl ⟨hk id mem_cons_self, ih ?_⟩⟩
    intro id' hid'
    exact hk id' (mem_cons_of_mem id hid')

lemma marking_peers {es : List (Header × PeerState)} (hnd : (es.map Prod.fst).Nodup)
    (hok : ∀ e ∈ es, g.owns e.2.ingressId = some (.peer e.1) ∧ CacheOk e.2.pathChildren g)
    (hinv : ∀ g', Spares (es.map Prod.fst) g g' → inv g')
    (hpost : ∀ g', Spares (es.map Prod.fst) g g' → post g') :
    Marking inv post (es.flatMap (·.2.ids)) g := by
  induction es generalizing g with
  | nil => exact hpost g (.refl _ g)
  | cons e es ih =>
    obtain ⟨hnot, hnd⟩ := nodup_cons.mp hnd
    obtain ⟨ho, hcache⟩ := hok e mem_cons_self
    refine ⟨hinv g (.refl _ g), .inr ⟨⟨e.1, ho⟩, ?_⟩⟩
    refine marking_kids (hinv _ (spares_drop ho (.refl _ _))) ?_ (ih hnd ?_ ?_ ?_)
    · intro id hid
      obtain ⟨x, hx, rfl⟩ := mem_map.mp hid
      exact hcache x.1 x.2 (AList.mem_lookup_iff.mpr hx)
    · intro e' he'
      obtain ⟨ho', hcache'⟩ := hok e' (mem_cons_of_mem e he')
      have hne : e'.2.ingressId ≠ e.2.ingressId := by
        intro heq
        rw [heq, ho] at ho'
        have hkey : e.1 = e'.1 := Role.peer.inj (Option.some.inj ho')
        exact hnot (hkey ▸ mem_map_of_mem he')
      exact ⟨(owns_drop_ne hne).trans ho', hcache'⟩
    · intro g' hs
      exact hinv g' (spares_drop ho hs)
    · intro g' hs
      exact hpost g' (spares_drop ho hs)

lemma connOk_rest {c' : Conn} (hc : ConnOk c g) (hid : c'.ingressId = c.ingressId)
    (hp : ∀ k p, c'.peers.lookup k = some p → k ∉ hs ∧ c.peers.lookup k = some p)
    (hsp : Spares hs g g') : ConnOk c' g' := by
  have hrouter : g'.owns c.ingressId = some .router := by
    refine hsp.owns _ _ hc.router ?_
    intro h _ he
    cases he
  refine ⟨hid ▸ hrouter, ?_⟩
  intro k p hl
  obtain ⟨hk, hl⟩ := hp k p hl
  obtain ⟨ho, hcache⟩ := hc.peer k p hl
  refine ⟨hsp.owns _ _ ho ?_, fun q id hq => hsp.kids id (hcache q id hq)⟩
  intro h hh he
  cases he
  exact hk hh

lemma mem_peers {peers : PeerStates} {e : Sigma fun _ : Header => PeerState}
    (h : e ∈ peers.entries) : peers.lookup e.1 = some e.2 :=
  AList.mem_lookup_iff.mpr h

lemma marking_siblings (hc : ConnOk c g)
    (hinv : ∀ g', Spares ((c.peers.removePeerIdentitySiblings h).1.map Prod.fst) g g' →
      inv g' ∧ post g') :
    Marking inv post ((c.peers.removePeerIdentitySiblings h).1.flatMap (·.2.ids)) g := by
  refine marking_peers ?_ ?_ (fun g' hs => (hinv g' hs).1) fun g' hs => (hinv g' hs).2
  · unfold PeerStates.removePeerIdentitySiblings
    rw [map_map]
    exact List.Nodup.sublist (filter_sublist.map _) c.peers.nodupKeys
  · intro e he
    obtain ⟨x, hx, rfl⟩ := mem_map.mp he
    exact hc.peer x.1 x.2 (mem_peers (mem_filter.mp hx).1)

lemma connOk_siblings (hc : ConnOk c g)
    (hs : Spares ((c.peers.removePeerIdentitySiblings h).1.map Prod.fst) g g') :
    ConnOk { c with peers := (c.peers.removePeerIdentitySiblings h).2 } g' := by
  refine connOk_rest hc rfl ?_ hs
  intro k p hl
  have hl' : (eraseAll ((c.peers.entries.filter fun e => e.1.identity = h.identity).map
    (·.1)) c.peers).lookup k = some p := hl
  have hkeys : (c.peers.removePeerIdentitySiblings h).1.map Prod.fst =
      (c.peers.entries.filter fun e => e.1.identity = h.identity).map (·.1) := by
    unfold PeerStates.removePeerIdentitySiblings
    rw [map_map]
    rfl
  rw [lookup_eraseAll] at hl'
  rw [hkeys]
  by_cases hk : k ∈ (c.peers.entries.filter fun e => e.1.identity = h.identity).map (·.1)
  · rw [if_pos hk] at hl'
    cases hl'
  · rw [if_neg hk] at hl'
    exact ⟨hk, hl'⟩

lemma keeps_peerDown (hc : ConnOk c g) : (c.peerDown h).Keeps shares
      (LinkOk (.connected { c with peers := (c.peers.removePeerIdentitySiblings h).2 }))
      ProcessedOk g := by
  unfold Conn.peerDown
  by_cases hr : (c.peers.removePeerIdentitySiblings h).1.isEmpty
  · rw [if_pos hr]
    exact processedOk_some hc
  · rw [if_neg hr]
    have hmark : Marking
        (LinkOk (.connected { c with peers := (c.peers.removePeerIdentitySiblings h).2 }))
        (ConnOk { c with peers := (c.peers.removePeerIdentitySiblings h).2 })
        ((c.peers.removePeerIdentitySiblings h).1.flatMap (·.2.ids)) g :=
      marking_siblings hc fun g' hs => ⟨connOk_siblings hc hs, connOk_siblings hc hs⟩
    exact .bind ((keeps_markAll hmark).mono fun _ _ h => processedOk_some h)

lemma keeps_disconnectIntoRegister
    (hok : ∀ k p, c.peers.lookup k = some p →
      g.owns p.ingressId = some (.peer k) ∧ CacheOk p.pathChildren g)
    (hinv : ∀ g', Spares (c.peers.entries.map (·.1)) g g' → inv g' ∧ post g') :
    c.disconnectIntoRegister.Keeps shares inv (fun _ g => post g) g := by
  have hall : (markAll (c.peers.entries.flatMap (·.2.ids))).Keeps shares inv
      (fun _ g => post g) g := by
    have hmap : c.peers.entries.flatMap (·.2.ids) =
        (c.peers.entries.map fun e => (e.1, e.2)).flatMap (·.2.ids) := by
      rw [flatMap_map]
    have hkeys : (c.peers.entries.map fun e => (e.1, e.2)).map Prod.fst =
        c.peers.entries.map (·.1) := by
      rw [map_map]
      rfl
    rw [hmap]
    refine keeps_markAll (marking_peers ?_ ?_ ?_ ?_)
    · rw [hkeys]
      exact c.peers.nodupKeys
    · intro e he
      obtain ⟨x, hx, rfl⟩ := mem_map.mp he
      exact hok x.1 x.2 (mem_peers hx)
    · intro g' hs
      exact (hinv g' (hkeys ▸ hs)).1
    · intro g' hs
      exact (hinv g' (hkeys ▸ hs)).2
  unfold Conn.disconnectIntoRegister
  cases c.phase with
  | dumping | updating => exact hall
  | initiating | terminated => exact (hinv g (.refl _ g)).2

lemma connOk_none {phase : Phase} (hc : ConnOk c g) (hsp : Spares hs g g') :
    ConnOk ⟨phase, c.ingressId, ∅⟩ g' := by
  refine connOk_rest hc rfl ?_ hsp
  intro k p hl
  cases hl

lemma keeps_terminate (hc : ConnOk c g) :
    c.terminate.Keeps shares (LinkOk (.connected { c with peers := ∅ })) ProcessedOk g := by
  have hdown : c.disconnectIntoRegister.Keeps shares (LinkOk (.connected { c with peers := ∅ }))
      (fun _ g => ConnOk ⟨.terminated, c.ingressId, ∅⟩ g) g :=
    keeps_disconnectIntoRegister hc.peer fun g' hs => ⟨connOk_none hc hs, connOk_none hc hs⟩
  exact .bind (hdown.mono fun _ _ h => processedOk_some h)

/-! ## Route Monitoring -/

lemma keeps_getInfo {r : Role} {post : Option IngressInfo → Share → Prop} (hi : inv g)
    (ho : g.owns id = some r) (hp : ∀ e, r.Suits e → post e g) :
    (getInfo id).Keeps shares inv post g := by
  refine .read hi ?_
  intro _ reg hg
  exact hp _ (hg.owned id r ho).2

lemma keeps_synthesize {k : Header} {source : PeerState}
    {post : Option (Bool × Conn) → Share → Prop} (hi : Stable inv g) (hc : ConnOk c g)
    (hl : c.peers.lookup k = some source)
    (hp : ∀ b c' g', Share.Grows g g' → ConnOk c' g' → post (some (b, c')) g') :
    (c.synthesize source h).Keeps shares inv post g := by
  refine .bind (keeps_getInfo hi.self (hc.peer k source hl).1 ?_)
  intro e he
  obtain ⟨info, rfl, ht, _⟩ := he
  refine .bind (keeps_peerIngress h hi ht rfl (Option.some_ne_none _) ?_)
  intro id b ho
  exact hp _ _ _ (grows_give ho _) (connOk_insert hc ho rfl)

/-- shares are such a discipline -/
def tended : Tended shares ConnOk where
  Grows := Share.Grows
  refl := .refl
  trans := .trans
  phase _ hc := ⟨hc.router, hc.peer⟩
  modify f hid hcache hc := connOk_modify hc hid fun p hl => by
    rw [hcache p]
    exact (hc.peer _ p hl).2
  synthesize hi hc hl _ _ hp := keeps_synthesize hi hc hl hp
  announced hi hc hl hp := keeps_announced hi (hc.peer _ _ hl).2 fun ps cache g' hg hcache =>
    hp ps cache g' hg (connOk_modify (hc.grows hg) (fun _ => rfl) fun _ _ => hcache)

/-! ## the connection -/

lemma ConnOk.peer_ne (hc : ConnOk c g) {k : Header} {p : PeerState}
    (hl : c.peers.lookup k = some p) : p.ingressId ≠ c.ingressId := by
  intro he
  have ho := (hc.peer k p hl).1
  rw [he, hc.router] at ho
  cases ho

lemma keeps_initiate {sysName : Option String} (hc : ConnOk c g) :
    (c.initiate sysName).Keeps shares (LinkOk (.connected c)) (fun r g => ConnOk r.1 g) g := by
  refine .bind (keeps_getInfo hc hc.router ?_)
  intro e he
  obtain ⟨info, rfl, ht, hasn, _⟩ := he
  refine .bind (keeps_claim_router hc ht (Option.some_ne_none _) ?_ ?_)
  · refine .bind (keeps_updateInfo_router hc hc.router (.inr ⟨rfl, rfl⟩) ht hasn ?_)
    rw [give_self hc.router]
    exact ⟨hc.router, hc.peer⟩
  · intro id ho
    have hne : id ≠ c.ingressId := by
      intro he
      rw [he, hc.router] at ho
      cases ho
    have hg := grows_give ho .router
    have hc' : ConnOk c (g.give id .router) := hc.grows hg
    simp only [Option.filter_some, hne, ne_eq, not_false_eq_true, decide_true, if_true]
    refine .bind (keeps_updateInfo_router hc' (owns_give id _) (.inr ⟨rfl, rfl⟩) ht hasn ?_)
    rw [give_give]
    refine .bind (keeps_removeInfo hc' hc'.router ⟨?_, ?_⟩)
    · exact (owns_drop_ne hne).trans (owns_give id _)
    · intro k p hl
      exact ⟨(owns_drop_ne (hc'.peer_ne hl)).trans (hc'.peer k p hl).1, (hc'.peer k p hl).2⟩

lemma keeps_accept {unit : IngressId} {remoteAddr : IpAddr} :
    (accept unit remoteAddr).Keeps shares (LinkOk .closed) (fun r g => LinkOk r.1 g) g := by
  refine .bind (keeps_register trivial ?_)
  intro id ho
  refine .bind (keeps_updateInfo_router trivial (owns_give id _) (.inl ⟨rfl, rfl, rfl⟩)
    rfl rfl ⟨owns_give id _, ?_⟩)
  intro k p hl
  cases hl

lemma keeps_lost (hc : ConnOk c g) :
    (lost c).Keeps shares (LinkOk .closed) (fun r g => LinkOk r.1 g) g := by
  refine .bind (keeps_updateInfo_drop trivial hc.router rfl rfl ?_)
  have hdown : c.disconnectIntoRegister.Keeps shares (LinkOk .closed)
      (fun _ g => LinkOk .closed g) (g.drop c.ingressId) := by
    refine keeps_disconnectIntoRegister ?_ fun _ _ => ⟨trivial, trivial⟩
    intro k p hl
    exact ⟨(owns_drop_ne (hc.peer_ne hl)).trans (hc.peer k p hl).1, (hc.peer k p hl).2⟩
  exact .bind (hdown.mono fun _ _ h => h)

end programs

/-- What is kept of a connection while a message is worked on: a peer that goes down is taken off
the map first. -/
def Conn.meanwhile (c : Conn) : BmpMsg → Conn
  | .peerDown h => { c with peers := (c.peers.removePeerIdentitySiblings h).2 }
  | .termination => { c with peers := ∅ }
  | _ => c

def Link.meanwhile : Link → Wire → Link
  | .connected c, .message msg _ => .connected (c.meanwhile msg)
  | .connected _, .lost => .closed
  | link, _ => link

/-- a message that is taken up -/
def Link.begin (cfg : HandlerConfig) (link : Link) (wire : Wire) : Link × Task Link :=
  (link.meanwhile wire, (link.handle cfg wire).bind fun r => .ret r.1)

section begin_
variable {g : Share}

lemma keeps_processMsg {c : Conn} {parser : Parser} {msg : BmpMsg} (hc : ConnOk c g) :
    (c.processMsg parser msg).Keeps shares (LinkOk (.connected (c.meanwhile msg)))
      ProcessedOk g := by
  have hi : Stable (LinkOk (.connected c)) g := fun _ hg => hc.grows hg
  cases msg with
  | initiation sysName | statisticsReport h body | routeMirroring => exact processedOk_some hc
  | peerUp msg => exact keeps_peerUp hi hc
  | peerDown h => exact keeps_peerDown hc
  | routeMonitoring msg => exact tended.routeMonitoring hi hc
  | termination => exact keeps_terminate hc

lemma keeps_handle {c : Conn} {cfg : HandlerConfig} {msg : BmpMsg} (hc : ConnOk c g) :
    (c.handle cfg msg).Keeps shares (LinkOk (.connected (c.meanwhile msg)))
      (fun r g => LinkOk r.1 g) g := by
  refine keeps_handle_of hc (fun _ _ => trivial) (fun _ _ _ h => h) ?_ (keeps_processMsg hc)
  intro sysName he
  cases he
  exact keeps_initiate hc

lemma keeps_begin {link : Link} {cfg : HandlerConfig} {wire : Wire} (hl : LinkOk link g) :
    (link.begin cfg wire).2.Keeps shares (LinkOk (link.begin cfg wire).1) LinkOk g := by
  refine .bind ?_
  show (link.handle cfg wire).Keeps shares (LinkOk (link.meanwhile wire)) (fun r g => LinkOk r.1 g) g
  cases link with
  | closed =>
    cases wire with
    | accept unit remoteAddr => exact keeps_accept
    | message msg accepted | lost => exact trivial
  | connected c =>
    cases wire with
    | accept unit remoteAddr => exact hl
    | lost => exact keeps_lost hl
    | message msg accepted =>
      show (if _ then _ else _ : Task (Link × List Update)).Keeps _ _ _ _
      split
      · exact hl
      · exact keeps_handle hl

end begin_

end Netom.Bmp
