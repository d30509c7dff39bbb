import Netom.Ingest.Operations

/-!
# The programs of the tasks keep the roles

One lemma for each program of a BMP connection, of a native session and of an MRT import: it writes
entries by the roles that the task knows, and what it is issued or claims becomes known.

* `ConnKnown`, `MrtKnown`, `SourceKnown`  what a task knows in each of its states;
* `keeps_…`  the programs;
* `keeps_start`  **every task keeps to the roles**.
-/

namespace Netom.Ingest
open Atomic Bmp Option Role

/-! ## path children -/

section programs
variable {g : Known} {inv : Known → Prop}

variable {post : IngressId × Bool → Known → Prop}

lemma keeps_claimOrRegister {c : Claim} (r : Role) (hr : r.Proper) (hi : Lasting inv g)
    (hc : ∀ info r', c.accepts info = true → r'.Fits (identityOf info) →
      info.ingressType ≠ none ∧ r' = r)
    (hp : ∀ id b g', g.Grows g' → g' id = some r → post (id, b) g') :
    (Bmp.claimOrRegister c).Keeps roles inv post g := by
  refine .bind (keeps_claims r hi hc ?_ ?_)
  · exact .bind (keeps_issue r hr hi fun id g' hg hid => hp id false g' hg hid)
  · intro id g' hg hid
    exact hp id true g' hg hid

variable {pathId : Nat}

lemma keeps_remember {cache : PathCache} {childId : IngressId}
    {post : IngressId × PathCache → Known → Prop} (hi : Lasting inv g) (hp : ∀ a, post a g) :
    (let children := cache.children.insert pathId childId
    let minted := cache.minted + 1
    if minted % pruneEvery = 0 then
      (pruneMissing children).bind fun children => .ret (childId, ⟨children, minted⟩)
    else .ret (childId, ⟨children, minted⟩) : Bmp.Task (IngressId × PathCache)).Keeps
      roles inv post g := by
  by_cases hm : (cache.minted + 1) % pruneEvery = 0
  · simp only [hm, if_true]
    exact .bind (.read hi.self fun _ _ _ => hp _)
  · simp only [hm, if_false]
    exact hp _

lemma fits_pathChildInfo {e : Identity} {p : IngressId} (ht : e.ingressType = some .bgpPath)
    (hp : e.parentIngress = some p) (hr : e.ribType = none) (hpr : e.peerRibType = none) :
    (Role.child p).Fits e :=
  ⟨hr, hpr, .inr ⟨ht, hp⟩⟩

variable {peer : PeerKey}

lemma passed_of_fits {type : IngressType} {e e' : Identity}
    (h : (Role.session type peer).Fits e) (ha : e'.remoteAddr = e.remoteAddr)
    (hn : e'.remoteAsn = e.remoteAsn) : e'.Passed peer := by
  rcases h.1 with hu | ⟨_, hp⟩
  · exact .inr ⟨ha.trans hu.remoteAddr, hn.trans hu.remoteAsn⟩
  · exact .inl ⟨ha.trans hp.remoteAddr, hn.trans hp.remoteAsn⟩

section bmpChild
variable {h : Header} {sessionId : IngressId} {cache : PathCache}
  {post : IngressId × PathCache → Known → Prop} (hi : Lasting inv g)
  (hs : g sessionId = some (.session .bgpViaBmp (h.address, h.asn.toNat)))
  (hp : ∀ a g', g.Grows g' → post a g')
include hi hs hp

lemma keeps_mint_bmp :
    (Bmp.mintPathChild h sessionId cache pathId).Keeps roles inv post g := by
  refine .bind (keeps_claimOrRegister (.child sessionId) trivial hi
    (fun info r' => role_of_pathChild) ?_)
  intro id b g' hg hid
  refine .bind (keeps_write_child (hi.grows hg) hid (hg _ _ hs)
    (fits_pathChildInfo rfl rfl rfl rfl) (.inl ⟨_, _, rfl, .inl ⟨rfl, rfl⟩⟩) ?_)
  exact keeps_remember (hi.grows hg) fun a => hp a g' hg

lemma keeps_child_bmp :
    (Bmp.getOrCreatePathChild h sessionId cache pathId).Keeps roles inv post g := by
  unfold Bmp.getOrCreatePathChild
  cases cache.children.lookup pathId with
  | none => exact keeps_mint_bmp hi hs hp
  | some childId =>
    refine .bind (keeps_quiet hi (fun _ _ => quiet_refreshPathChild childId sessionId pathId) ?_)
    intro pick reg _
    cases (reg.refreshPathChild childId sessionId pathId).1 with
    | true => exact hp _ g (.refl g)
    | false => exact keeps_mint_bmp hi hs hp

omit hp in
lemma keeps_announced_bmp {reach : List Exploded} {post : List Payload × PathCache → Known → Prop}
    (hp : ∀ a g', g.Grows g' → post a g') :
    (Bmp.announced h sessionId cache reach).Keeps roles inv post g := by
  induction reach generalizing cache g post with
  | nil => exact hp _ g (.refl g)
  | cons e reach ih =>
    obtain ⟨rr, pathId⟩ := e
    cases pathId with
    | none => exact .bind (ih hi hs fun a g' hg => hp _ g' hg)
    | some pathId =>
      refine .bind (keeps_child_bmp hi hs ?_)
      intro a g' hg
      refine .bind (ih (hi.grows hg) (hg _ _ hs) ?_)
      intro a' g'' hg'
      exact hp _ g'' (hg.trans hg')

end bmpChild

section bgpChild
variable {sessionId : IngressId} {type : IngressType} {peer : PeerKey}

lemma bgpChildInfo_fits {reg : Register} (pathId : Nat) (hg : g.Holds reg)
    (hs : g sessionId = some (.session type peer)) :
    (Role.child sessionId).Fits (identityOf (bgpChildInfo sessionId pathId reg)) ∧
      (identityOf (bgpChildInfo sessionId pathId reg)).Passed peer := by
  have hfits := (hg.known sessionId _ hs).2.fits
  unfold bgpChildInfo
  cases hl : reg.get sessionId with
  | none => exact ⟨fits_pathChildInfo rfl rfl rfl rfl, .inr ⟨rfl, rfl⟩⟩
  | some info =>
    rw [ident_of_lookup hl] at hfits
    exact ⟨fits_pathChildInfo rfl rfl rfl rfl, passed_of_fits hfits rfl rfl⟩

variable {cache : PathCache} {post : IngressId × PathCache → Known → Prop} (hi : Lasting inv g)
  (hs : g sessionId = some (.session type peer)) (hp : ∀ a g', g.Grows g' → post a g')
include hi hs hp

lemma keeps_mint_bgp :
    (mintPathChild sessionId cache pathId).Keeps roles inv post g := by
  refine .bind (keeps_claimOrRegister (.child sessionId) trivial hi
    (fun info r' => role_of_pathChild) ?_)
  intro id b g' hg hid
  refine .bind (.read (hi _ hg) ?_)
  intro pick reg hreg
  obtain ⟨hfits, hpassed⟩ := bgpChildInfo_fits pathId hreg (hg _ _ hs)
  refine .bind (keeps_write_child (hi.grows hg) hid (hg _ _ hs) hfits
    (.inl ⟨_, _, rfl, hpassed⟩) ?_)
  exact keeps_remember (hi.grows hg) fun a => hp a g' hg

lemma keeps_child_bgp :
    (getOrCreatePathChild sessionId cache pathId).Keeps roles inv post g := by
  unfold getOrCreatePathChild
  cases cache.children.lookup pathId with
  | none => exact keeps_mint_bgp hi hs hp
  | some childId =>
    refine .bind (keeps_quiet hi (fun _ _ => quiet_refreshPathChild childId sessionId pathId) ?_)
    intro pick reg _
    cases (reg.refreshPathChild childId sessionId pathId).1 with
    | true => exact hp _ g (.refl g)
    | false => exact keeps_mint_bgp hi hs hp

omit hp in
lemma keeps_announced_bgp {reach : List Exploded} {post : List Payload × PathCache → Known → Prop}
    (hp : ∀ a g', g.Grows g' → post a g') :
    (announced sessionId cache reach).Keeps roles inv post g := by
  induction reach generalizing cache g post with
  | nil => exact hp _ g (.refl g)
  | cons e reach ih =>
    obtain ⟨rr, pathId⟩ := e
    cases pathId with
    | none => exact .bind (ih hi hs fun a g' hg => hp _ g' hg)
    | some pathId =>
      refine .bind (keeps_child_bgp hi hs ?_)
      intro a g' hg
      refine .bind (ih (hi.grows hg) (hg _ _ hs) ?_)
      intro a' g'' hg'
      exact hp _ g'' (hg.trans hg')

end bgpChild

/-! ## BMP connections -/

structure ConnKnown (c : Bmp.Conn) (g : Known) : Prop where
  router : g c.ingressId = some .router
  peer : ∀ h p, c.peers.lookup h = some p →
    g p.ingressId = some (.session .bgpViaBmp (h.address, h.asn.toNat))

def LinkKnown : Link → Known → Prop
  | .closed, _ => True
  | .connected c, g => ConnKnown c g

variable {c : Bmp.Conn}

lemma ConnKnown.grows {g' : Known} (h : ConnKnown c g) (hg : g.Grows g') : ConnKnown c g' :=
  ⟨hg _ _ h.router, fun k p hp => hg _ _ (h.peer k p hp)⟩

lemma ConnKnown.sub {c' : Bmp.Conn} (h : ConnKnown c g) (hid : c'.ingressId = c.ingressId)
    (hp : ∀ k p, c'.peers.lookup k = some p →
      ∃ p', c.peers.lookup k = some p' ∧ p.ingressId = p'.ingressId) : ConnKnown c' g := by
  refine ⟨hid ▸ h.router, ?_⟩
  intro k p hk
  obtain ⟨p', hk', he⟩ := hp k p hk
  rw [he]
  exact h.peer k p' hk'

lemma ConnKnown.modify {h : Header} {f : Bmp.PeerState → Bmp.PeerState} (hc : ConnKnown c g)
    (hid : ∀ p, (f p).ingressId = p.ingressId) :
    ConnKnown { c with peers := Assoc.modify h f c.peers } g := by
  refine hc.sub rfl ?_
  intro k p hl
  have hl' : (Assoc.modify h f c.peers).lookup k = some p := hl
  rw [Assoc.lookup_modify] at hl'
  by_cases he : k = h
  · rw [if_pos he] at hl'
    obtain ⟨p', hp', rfl⟩ := map_eq_some_iff.mp hl'
    exact ⟨p', hp', hid p'⟩
  · rw [if_neg he] at hl'
    exact ⟨p, hl', rfl⟩

lemma ConnKnown.insert {h : Header} {p : Bmp.PeerState} (hc : ConnKnown c g)
    (hp : g p.ingressId = some (.session .bgpViaBmp (h.address, h.asn.toNat))) :
    ConnKnown { c with peers := c.peers.insert h p } g := by
  refine ⟨hc.router, ?_⟩
  intro k q hl
  rcases lookup_insert_cases hl with ⟨rfl, rfl⟩ | ⟨_, hl⟩
  · exact hp
  · exact hc.peer k q hl

def ProcessedKnown (r : Processed) (g : Known) : Prop := ∀ c mt, r = some (c, mt) → ConnKnown c g

lemma processedKnown_some {mt : MessageType} (h : ConnKnown c g) :
    ProcessedKnown (some (c, mt)) g :=
  Processed.all_some h

variable {info : IngressInfo}

lemma keeps_peerIngress_bmp (hi : Lasting inv g) (hrib : info.ribType ≠ none)
    (hf : (Role.session .bgpViaBmp peer).Fits (identityOf info))
    (hp : ∀ id b g', g.Grows g' → g' id = some (.session .bgpViaBmp peer) → post (id, b) g') :
    (Bmp.Conn.peerIngress info).Keeps roles inv post g := by
  refine .bind (keeps_claimOrRegister (.session .bgpViaBmp peer) (.inr rfl) hi
    (fun info r' => role_of_peer hrib hf) ?_)
  intro id b g' hg hid
  refine .bind (keeps_write (hi.grows hg) hid hf (fun p => Role.noConfusion) ?_)
  exact hp id b g' hg hid

lemma keeps_peerUp_bmp {msg : PeerUpNotification} (hi : Lasting inv g) (hc : ConnKnown c g) :
    (c.peerUp msg).Keeps roles inv ProcessedKnown g := by
  unfold Bmp.Conn.peerUp
  by_cases hl : (c.peers.lookup msg.header).isSome
  · rw [if_pos hl]
    exact processedKnown_some hc
  · rw [if_neg hl]
    have hf : (session .bgpViaBmp (msg.header.address, msg.header.asn.toNat)).Fits
        (identityOf (c.peerInfo msg)) :=
      ⟨.inr ⟨rfl, rfl, rfl⟩, .inr ⟨rfl, fun _ => some_ne_none _⟩⟩
    refine .bind (keeps_peerIngress_bmp hi (some_ne_none _) hf ?_)
    intro id b g' hg hid
    exact processedKnown_some ((hc.grows hg).insert hid)

lemma keeps_peerDown_bmp {h : Header} (hi : Lasting inv g) (hc : ConnKnown c g) :
    (c.peerDown h).Keeps roles inv ProcessedKnown g := by
  unfold Bmp.Conn.peerDown
  by_cases hr : (c.peers.removePeerIdentitySiblings h).1.isEmpty
  · rw [if_pos hr]
    exact processedKnown_some hc
  · rw [if_neg hr]
    refine .bind (keeps_markAll hi ?_)
    intro ids
    refine processedKnown_some (hc.sub rfl ?_)
    intro k p hl
    have hl' : (c.peers.removePeerIdentitySiblings h).2.lookup k = some p := hl
    rw [PeerStates.lookup_siblings] at hl'
    split at hl'
    · cases hl'
    · exact ⟨p, hl', rfl⟩

lemma keeps_disconnectIntoRegister_bmp {post : List IngressId → Known → Prop} (hi : Lasting inv g)
    (hp : ∀ ids, post ids g) : c.disconnectIntoRegister.Keeps roles inv post g := by
  unfold Bmp.Conn.disconnectIntoRegister
  cases c.phase with
  | dumping | updating => exact keeps_markAll hi hp
  | initiating | terminated => exact hp []

lemma adaptedInfo_fits (h : Header) (config : SessionConfig)
    (hf : (Role.session .bgpViaBmp peer).Fits (identityOf info)) :
    (Role.session .bgpViaBmp peer).Fits (identityOf (Bmp.Conn.adaptedInfo info h config)) := by
  refine ⟨?_, .inr ⟨rfl, fun _ => some_ne_none _⟩⟩
  rcases hf.1 with hu | ⟨ht, hn⟩
  · exact .inl ⟨hu.ingressType, hu.remoteAddr, hu.remoteAsn⟩
  · exact .inr ⟨ht, hn.remoteAddr, hn.remoteAsn⟩

lemma keeps_synthesize_bmp {h k : Header} {source : Bmp.PeerState}
    {post : Option (Bool × Bmp.Conn) → Known → Prop} (hi : Lasting inv g) (hc : ConnKnown c g)
    (hl : c.peers.lookup k = some source) (hk : (k.address, k.asn.toNat) = (h.address, h.asn.toNat))
    (hnone : post none g) (hp : ∀ b c' g', g.Grows g' → ConnKnown c' g' → post (some (b, c')) g') :
    (c.synthesize source h).Keeps roles inv post g := by
  refine .bind (.read hi.self ?_)
  intro pick reg hreg
  have hrole := hc.peer k source hl
  rw [hk] at hrole
  have hfits := (hreg.known _ _ hrole).2.fits
  cases he : reg.get source.ingressId with
  | none => exact hnone
  | some info =>
    rw [ident_of_lookup he] at hfits
    refine .bind (keeps_peerIngress_bmp hi (some_ne_none _)
      (adaptedInfo_fits h source.sessionConfig hfits) ?_)
    intro id b g' hg hid
    exact hp _ _ g' hg ((hc.grows hg).insert hid)

/-- roles are a discipline of connections -/
def tended : Tended roles ConnKnown where
  Grows := Known.Grows
  refl := .refl
  trans := .trans
  phase _ hc := ⟨hc.router, hc.peer⟩
  modify _ hid _ hc := hc.modify hid
  synthesize hi hc hl hk hnone hp := keeps_synthesize_bmp hi hc hl hk hnone hp
  announced hi hc hl hp := keeps_announced_bmp hi (hc.peer _ _ hl) fun a g' hg =>
    hp a.1 a.2 g' hg ((hc.grows hg).modify fun _ => rfl)

/-- the router takes over the ingress of an earlier connection of it, or keeps its own -/
lemma keeps_initiate_bmp {sysName : Option String} (hi : Lasting inv g) (hc : ConnKnown c g) :
    (c.initiate sysName).Keeps roles inv (fun r g => ConnKnown r.1 g) g := by
  refine .bind (.read hi.self ?_)
  intro pick reg hreg
  have hfits : router.Fits (identityOf { (reg.get c.ingressId).getD IngressInfo.new with
      state := some .connected, name := some (sysName.getD "no-sysname") }) := by
    have h := (hreg.known _ _ hc.router).2.fits
    cases he : reg.get c.ingressId with
    | none => exact fits_blank trivial
    | some info =>
      rw [ident_of_lookup he] at h
      exact h
  refine .bind (keeps_claims .router hi (fun info r' => role_of_bmpRouter hfits) ?_ ?_)
  · refine .bind (keeps_write hi hc.router hfits (fun p => Role.noConfusion) ?_)
    exact ⟨hc.router, hc.peer⟩
  · intro id g' hg hid
    have hi' := hi.grows hg
    have hc' := hc.grows hg
    by_cases hne : id ≠ c.ingressId
    · simp only [filter_some, hne, ne_eq, not_false_eq_true, decide_true, if_true]
      refine .bind (keeps_write hi' hid hfits (fun p => Role.noConfusion) ?_)
      refine .bind (keeps_quiet hi' (fun _ reg => quiet_remove c.ingressId) ?_)
      intro _ _ _
      exact ⟨hid, hc'.peer⟩
    · simp only [filter_some, hne, decide_false, Bool.false_eq_true, if_false]
      refine .bind (keeps_write hi' hc'.router hfits (fun p => Role.noConfusion) ?_)
      exact ⟨hc'.router, hc'.peer⟩

lemma keeps_handle_bmp {link : Link} {cfg : HandlerConfig} {wire : Wire} (hi : Lasting inv g)
    (hl : LinkKnown link g) :
    (link.handle cfg wire).Keeps roles inv (fun r g => LinkKnown r.1 g) g := by
  cases link with
  | closed =>
    cases wire with
    | accept unit remoteAddr =>
      refine .bind (keeps_issue .router trivial hi ?_)
      intro id g' hg hid
      refine .bind (keeps_write (hi.grows hg) hid ⟨.inr rfl, rfl⟩ (fun p => Role.noConfusion) ?_)
      refine ⟨hid, ?_⟩
      intro h p hp
      cases hp
    | message msg accepted | lost => exact trivial
  | connected c =>
    cases wire with
    | accept unit remoteAddr => exact hl
    | lost =>
      refine .bind (keeps_quiet hi (fun _ reg => quiet_updateInfo rfl) ?_)
      intro _ _ _
      exact .bind (keeps_disconnectIntoRegister_bmp hi fun _ => trivial)
    | message msg accepted =>
      show (if _ then _ else _ : Bmp.Task (Link × List Netom.Update)).Keeps _ _ _ _
      split
      · exact hl
      · refine keeps_handle_of hl (fun _ _ => trivial) (fun _ _ _ h => h) ?_ ?_
        · intro sysName he
          exact keeps_initiate_bmp hi hl
        · cases msg with
          | initiation sysName | statisticsReport h body | routeMirroring =>
            exact processedKnown_some hl
          | peerUp msg => exact keeps_peerUp_bmp hi hl
          | peerDown h => exact keeps_peerDown_bmp hi hl
          | routeMonitoring msg => exact tended.routeMonitoring hi hl
          | termination =>
            refine .bind (keeps_disconnectIntoRegister_bmp hi ?_)
            intro ids
            refine processedKnown_some (hl.sub rfl ?_)
            intro k p hp
            cases hp

/-! ## native BGP -/

variable {id : IngressId}

lemma keeps_replaceOld {old : Option IngressId} {post : List IngressId → Known → Prop}
    (hi : Lasting inv g) (hp : ∀ ids, post ids g) : (replaceOld id old).Keeps roles inv post g := by
  cases old with
  | none => exact hp []
  | some old =>
    show (if _ then _ else _ : Bmp.Task (List IngressId)).Keeps _ _ _ _
    split
    · exact .bind (.read hi.self fun _ _ _ => keeps_markAll hi hp)
    · exact hp []

/-- the reserved id becomes the one of the peer, or the id of an earlier session is taken over -/
lemma keeps_negotiate {s : Session} {n : Negotiated} {old : Option IngressId}
    {post : Session → Known → Prop} (hi : Lasting inv g) (hs : g s.ingressId = some .reserved)
    (hp : ∀ s' g', s'.peer = some n.peer → g' s'.ingressId = some (.session .bgp n.peer) →
      post s' g') :
    (negotiate s n old).Keeps roles inv post g := by
  have hfits : (session .bgp n.peer).Fits (identityOf n.info) :=
    ⟨.inr ⟨rfl, rfl, rfl⟩, .inl ⟨rfl, rfl⟩⟩
  refine .bind (keeps_claims (.session .bgp n.peer) hi (fun info r' => role_of_bgpSession) ?_ ?_)
  · refine .bind (keeps_replaceOld hi ?_)
    intro ids
    refine .bind (Prog.Keeps.call hi.self ?_)
    intro pick reg hf hreg
    have hsettle := moves_settle hreg hs (r := .session .bgp n.peer) (.inl rfl)
    refine ⟨_, hsettle.trans (moves_write hsettle.1 learn_self hfits ?_), hp _ _ rfl learn_self⟩
    intro p hchild
    have htype : some IngressType.bgp = some IngressType.bgpPath := hchild.1
    cases htype
  · intro id g' hg hid
    have hi' := hi.grows hg
    refine .bind (.bind (.read hi'.self fun _ _ _ => keeps_markAll hi' fun ids => ?_))
    refine .bind (keeps_replaceOld hi' ?_)
    intro ids
    refine .bind (keeps_write hi' hid hfits (fun p => Role.noConfusion) ?_)
    exact hp _ _ rfl hid

lemma keeps_processUpdate_bgp {s : Session}
    {post : Option (List Payload) × Session → Known → Prop} (hi : Lasting inv g)
    (hs : g s.ingressId = some (.session .bgp peer))
    (hp : ∀ a s' g', g.Grows g' → s'.ingressId = s.ingressId → s'.peer = s.peer → post (a, s') g') :
    (processUpdate s u).Keeps roles inv post g := by
  unfold processUpdate
  split
  · refine .bind (keeps_announced_bgp hi hs ?_)
    intro a g' hg
    exact hp _ _ g' hg rfl rfl
  · exact hp _ _ g (.refl g) rfl rfl

/-! ## MRT -/

structure MrtKnown (m : MrtImport) (g : Known) : Prop where
  unitId : g m.unitId = some .unit
  peers : ∀ p ∈ m.peers, g p = some .mrtPeer

variable {m : MrtImport}

lemma MrtKnown.grows {g' : Known} (h : MrtKnown m g) (hg : g.Grows g') : MrtKnown m g' :=
  ⟨hg _ _ h.unitId, fun p hp => hg _ _ (h.peers p hp)⟩

lemma MrtKnown.add (h : MrtKnown m g) (hid : g id = some .mrtPeer) :
    MrtKnown { m with peers := id :: m.peers } g := by
  refine ⟨h.unitId, ?_⟩
  intro p hp
  rcases List.mem_cons.mp hp with rfl | hp
  · exact hid
  · exact h.peers p hp

/-- nothing but an MRT peer is below the unit and has an AS number -/
lemma role_of_mrtPeer {unitId : IngressId} {reg : Register} {r : Role}
    (hg : g.Holds reg) (hu : g unitId = some .unit) (hl : reg.info.lookup id = some info)
    (ha : (Claim.peer (mrtPeerQuery unitId peer.1 peer.2)).accepts info = true)
    (hr : r.Fits (identityOf info)) : info.ingressType ≠ none ∧ r = .mrtPeer := by
  unfold Claim.accepts matchesPeer Register.mandatory at ha
  simp only [Bool.and_eq_true, decide_eq_true_eq, isSome_iff_ne_none] at ha
  obtain ⟨_, ⟨⟨⟨⟨⟨⟨⟨hparent, hparent'⟩, _⟩, hasn, _⟩, hrib⟩, _⟩, _⟩, _⟩, _⟩ := ha
  have hset : ¬ (identityOf info).Unset := fun hu => hasn hu.remoteAsn
  cases r with
  | reserved => exact absurd (congrArg Identity.remoteAsn hr) hasn
  | session type peer' =>
    rcases hr.1 with h | ⟨ht, _⟩
    · exact absurd h hset
    · rcases hr.2 with ⟨_, hp⟩ | ⟨_, hribbed⟩
      · exact absurd hp hparent
      · refine absurd hrib (hribbed ?_)
        rw [ht]
        exact some_ne_none _
  | child p =>
    rcases hr.2.2 with ⟨h, _⟩ | ⟨ht, _⟩
    · exact absurd h hset
    · have hchild : IsChildOf (ident reg id) unitId := by
        rw [ident_of_lookup hl]
        exact ⟨ht, hparent'⟩
      exact absurd ((hg.known unitId _ hu).2.children id hchild) not_false
  | router => exact absurd hr.2 hasn
  | mrtPeer =>
    rcases hr.1 with h | ht
    · exact absurd h hset
    · refine ⟨?_, rfl⟩
      intro hnone
      exact absurd (ht.symm.trans hnone) (some_ne_none _)
  | unit => exact absurd hr hset

lemma keeps_findExistingPeer {unitId : IngressId}
    {post : Option IngressId → Known → Prop} (hi : Lasting inv g) (hu : g unitId = some .unit)
    (hnone : post none g)
    (hsome : ∀ id g', g.Grows g' → g' id = some .mrtPeer → post (some id) g') :
    (findExistingPeer (mrtPeerQuery unitId peer.1 peer.2)).Keeps roles inv post g := by
  refine Prog.Keeps.call hi.self ?_
  intro pick reg hf hg
  cases hfound : Assoc.findFrom pick.id
      (Claim.peer (mrtPeerQuery unitId peer.1 peer.2)).accepts reg.info with
  | none => exact ⟨g, moves_quiet hg (quiet_refl reg), hnone⟩
  | some id =>
    obtain ⟨info, hl, ha⟩ := Assoc.findFrom_spec hfound
    obtain ⟨r, hr⟩ := hg.role id
    have hfits := hr.fits
    rw [ident_of_lookup hl] at hfits
    obtain ⟨ht, rfl⟩ := role_of_mrtPeer hg hu hl ha hfits
    obtain ⟨hm, hgrows⟩ := moves_learn hg (quiet_refl reg) hr.fits
      (by rw [ident_of_lookup hl]; exact ht)
    exact ⟨_, hm, hsome id _ hgrows learn_self⟩

lemma keeps_peerIngress_mrt {post : MrtImport → Known → Prop}
    (hi : Lasting inv g) (hm : MrtKnown m g) (hp : ∀ m' g', MrtKnown m' g' → post m' g') :
    (peerIngress m peer).Keeps roles inv post g := by
  refine .bind (keeps_findExistingPeer hi hm.unitId ?_ ?_)
  · refine .bind (keeps_issue .mrtPeer trivial hi ?_)
    intro id g' hg hid
    refine .bind (keeps_write (hi.grows hg) hid ⟨.inr rfl, rfl⟩ (fun p => Role.noConfusion) ?_)
    exact hp _ _ ((hm.grows hg).add hid)
  · intro id g' hg hid
    refine .bind (keeps_quiet (hi.grows hg) (fun _ reg => quiet_updateInfo rfl) ?_)
    intro _ _ _
    exact hp _ _ ((hm.grows hg).add hid)

lemma keeps_noteIngressAddpathFamily {st : MrtImportState} {afisafi : AfiSafiType}
    {post : MrtImportState → Known → Prop} (hi : Lasting inv g) (hp : ∀ st', post st' g) :
    (noteIngressAddpathFamily st id afisafi).Keeps roles inv post g := by
  refine .bind (.read hi.self ?_)
  intro pick reg _
  cases reg.get id with
  | none => exact hp st
  | some info =>
    simp only
    split
    · exact .bind (keeps_quiet hi (fun _ reg => quiet_updateInfo rfl) fun _ _ _ => hp _)
    · exact hp st

lemma mrtChildInfo_fits (parentId : IngressId) (pathId : Nat) (reg : Register) :
    (Role.child parentId).Fits (identityOf (mrtChildInfo parentId pathId reg)) := by
  unfold mrtChildInfo
  cases reg.get parentId with
  | none | some parent => exact fits_pathChildInfo rfl rfl rfl rfl

lemma keeps_mrtPathIngress {parentId : IngressId} {afisafi : AfiSafiType}
    {post : IngressId × MrtImport → Known → Prop} (hi : Lasting inv g) (hm : MrtKnown m g)
    (hparent : parentId ∈ m.peers) (hp : ∀ id m' g', MrtKnown m' g' → post (id, m') g') :
    (mrtPathIngress m parentId pathId afisafi).Keeps roles inv post g := by
  refine .bind (keeps_noteIngressAddpathFamily hi ?_)
  intro st
  cases st.pathChildren.lookup (parentId, pathId) with
  | some id => exact hp _ _ g ⟨hm.unitId, hm.peers⟩
  | none =>
    refine .bind (keeps_issue (.child parentId) trivial hi ?_)
    intro id g' hg hid
    refine .bind (.read (hi _ hg) ?_)
    intro pick reg _
    refine .bind (keeps_write_child (hi.grows hg) hid ((hm.grows hg).peers parentId hparent)
      (mrtChildInfo_fits parentId pathId reg) (.inr rfl) ?_)
    exact hp _ _ g' ⟨(hm.grows hg).unitId, (hm.grows hg).peers⟩

end programs

/-! ## all tasks -/

/-- the role of the session's id -/
def Session.role (s : Session) : Role :=
  match s.peer with
  | none => .reserved
  | some peer => .session .bgp peer

def SourceKnown : Source → Known → Prop
  | .closed, _ => True
  | .bmp link, g => LinkKnown link g
  | .bgp s, g => g s.ingressId = some s.role
  | .mrt m, g => MrtKnown m g

lemma SourceKnown.lasting {source : Source} {g : Known} (h : SourceKnown source g) :
    Lasting (SourceKnown source) g := by
  intro g' hg
  cases source with
  | closed => trivial
  | bmp link =>
    cases link with
    | closed => trivial
    | connected c => exact ConnKnown.grows h hg
  | bgp s => exact hg _ _ h
  | mrt m => exact MrtKnown.grows h hg

lemma linkKnown_meanwhile {link : Link} {g : Known} (h : LinkKnown link g) (wire : Wire) :
    LinkKnown (link.meanwhile wire) g := by
  cases link with
  | closed => cases wire <;> trivial
  | connected c =>
    cases wire with
    | accept unit remoteAddr => exact h
    | lost => trivial
    | message msg accepted =>
      cases msg with
      | peerDown k =>
        refine ConnKnown.sub h rfl ?_
        intro j p hl
        have hl' : (c.peers.removePeerIdentitySiblings k).2.lookup j = some p := hl
        rw [PeerStates.lookup_siblings] at hl'
        split at hl'
        · cases hl'
        · exact ⟨p, hl', rfl⟩
      | termination =>
        refine ConnKnown.sub h rfl ?_
        intro j p hl
        cases hl
      | _ => exact h

section start
variable {g : Known}

lemma keeps_startBmp {link : Link} {cfg : HandlerConfig} {wire : Wire} (hl : LinkKnown link g) :
    (startBmp link cfg wire).2.Keeps roles (SourceKnown (startBmp link cfg wire).1) SourceKnown
      g := by
  have hmean : SourceKnown (.bmp (link.meanwhile wire)) g := linkKnown_meanwhile hl wire
  exact .bind (.bind ((keeps_handle_bmp hmean.lasting hl).mono fun _ _ h => h))

lemma keeps_session {s : Session} {input : BgpInput} (hs : SourceKnown (.bgp s) g) :
    (s.handle input).Keeps roles (SourceKnown (.bgp s)) SourceKnown g := by
  have hi := hs.lasting
  cases input with
  | accepted => exact hs
  | negotiated n old =>
    show (if _ then _ else _ : Bmp.Task Source).Keeps _ _ _ _
    split
    · rename_i hnone
      have hrole : s.role = .reserved := by
        unfold Session.role
        rw [isNone_iff_eq_none.mp hnone]
      have hres : g s.ingressId = some .reserved := hrole ▸ hs
      refine .bind (keeps_negotiate hi hres ?_)
      intro s' g' hpeer hid
      show g' s'.ingressId = some s'.role
      unfold Session.role
      rw [hpeer]
      exact hid
    · exact hs
  | update u =>
    show (if _ then _ else _ : Bmp.Task Source).Keeps _ _ _ _
    split
    · rename_i hsome
      obtain ⟨peer, hpeer⟩ := isSome_iff_exists.mp hsome
      have hrole : s.role = .session .bgp peer := by
        unfold Session.role
        rw [hpeer]
      have hid : g s.ingressId = some (.session .bgp peer) := hrole ▸ hs
      refine .bind (keeps_processUpdate_bgp hi hid ?_)
      intro a s' g' hg hid' hpeer'
      show g' s'.ingressId = some s'.role
      unfold Session.role
      rw [hid', hpeer', hpeer]
      exact hg _ _ hid
    · exact hs
  | exit live =>
    refine .bind ?_
    show (if _ then _ else _ : Bmp.Task (List IngressId)).Keeps _ _ _ _
    split
    · exact keeps_markAll hi fun _ => trivial
    · exact trivial

lemma keeps_mrt {m : MrtImport} {input : MrtInput} (hm : MrtKnown m g) :
    (m.handle input).Keeps roles (SourceKnown (.mrt m)) SourceKnown g := by
  have hs : SourceKnown (.mrt m) g := hm
  have hi := hs.lasting
  cases input with
  | started => exact hm
  | peer peer => exact .bind (keeps_peerIngress_mrt hi hm fun m' g' h => h)
  | path parentId pathId afisafi =>
    show (if _ then _ else _ : Bmp.Task Source).Keeps _ _ _ _
    split
    · rename_i hc
      exact .bind (keeps_mrtPathIngress hi hm (List.contains_iff_mem.mp hc) fun id m' g' h => h)
    · exact hm

/-- **Every task keeps to the roles**, whatever reaches it. -/
theorem keeps_start {source : Source} {m : Message} (hs : SourceKnown source g) :
    (source.start m).2.Keeps roles (SourceKnown (source.start m).1) SourceKnown g := by
  have hclosed : Lasting (SourceKnown .closed) g := fun _ _ => trivial
  cases source with
  | closed =>
    cases m with
    | bmp cfg wire => exact keeps_startBmp trivial
    | bgp input =>
      cases input with
      | accepted => exact .bind (keeps_issue .reserved trivial hclosed fun id g' _ hid => hid)
      | _ => exact trivial
    | mrt input =>
      cases input with
      | started =>
        refine .bind (keeps_issue .unit trivial hclosed ?_)
        intro id g' hg hid
        refine .bind (keeps_quiet (hclosed.grows hg) (fun _ reg => quiet_updateInfo rfl) ?_)
        intro _ _ _
        refine ⟨hid, ?_⟩
        intro p hp
        cases hp
      | _ => exact trivial
  | bmp link =>
    cases m with
    | bmp cfg wire => exact keeps_startBmp hs
    | _ => exact hs
  | bgp s =>
    cases m with
    | bgp input => exact keeps_session hs
    | _ => exact hs
  | mrt m' =>
    cases m with
    | mrt input => exact keeps_mrt hs
    | _ => exact hs

end start

end Netom.Ingest
