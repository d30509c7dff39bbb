import Netom.BmpIn.Views
import Netom.BmpIn.Exclusive

/-!
# The views of a connection, message by message

* `PeerStates.table`  the views that a connection keeps;
* `tracked_…`  path children and the announcements of an UPDATE;
* `tracking_…`  the messages of a connection whose router has told its name;
* `peerDown_cases`  what a Peer Down marks and withdraws.

A message is worked on without interruption here: `Prog.Runs`.
-/

namespace Netom.Bmp
open Atomic Conn Function List Option PathCache PeerState PeerStates Prog

/-! ## the views of a connection -/

def PathCache.kids (cache : PathCache) : Nat → Option IngressId := fun q => cache.children.lookup q

def PeerState.view (p : PeerState) : View := ⟨p.ingressId, PathCache.kids p.pathChildren⟩

lemma PeerState.mem_ids {p : PeerState} {id : IngressId} : id ∈ p.ids ↔ p.view.Has id := by
  unfold PeerState.ids
  rw [List.mem_cons, List.mem_map]
  constructor
  · intro h
    rcases h with h | ⟨e, he, rfl⟩
    · exact Or.inl h
    · exact Or.inr ⟨e.1, AList.mem_lookup_iff.mpr he⟩
  · intro h
    rcases h with h | ⟨q, hq⟩
    · exact Or.inl h
    · exact Or.inr ⟨⟨q, id⟩, AList.mem_lookup_iff.mp hq, rfl⟩

def PeerStates.table (peers : PeerStates) : Table := fun h => (peers.lookup h).map PeerState.view

namespace PeerStates
variable {peers : PeerStates} {h : Header}

lemma table_eq {p : PeerState} (hl : peers.lookup h = some p) : peers.table h = some p.view := by
  unfold table
  rw [hl]
  rfl

lemma table_none (hl : peers.lookup h = none) : peers.table h = none := by
  unfold table
  rw [hl]
  rfl

lemma lookup_of_table {v : View} (hv : peers.table h = some v) :
    ∃ p, peers.lookup h = some p ∧ p.view = v :=
  map_eq_some_iff.mp hv

lemma table_insert (h : Header) (p : PeerState) :
    table (peers.insert h p) = Function.update peers.table h (some p.view) := by
  funext k
  unfold table
  rw [Assoc.lookup_insert_eq]
  by_cases hk : k = h
  · subst hk
    rw [if_pos rfl, update_self]
    rfl
  · rw [if_neg hk, update_of_ne hk]

lemma table_modify {f : PeerState → PeerState} (hf : ∀ p, (f p).view = p.view) (h : Header) :
    table (Assoc.modify h f peers) = peers.table := by
  funext k
  unfold table
  rw [Assoc.lookup_modify]
  by_cases hk : k = h
  · rw [if_pos hk, Option.map_map]
    congr 1
    funext p
    exact hf p
  · rw [if_neg hk]

lemma table_setPathChildren {p : PeerState} (hl : peers.lookup h = some p) (cache : PathCache) :
    (peers.setPathChildren h cache).table =
      Function.update peers.table h (some ⟨p.ingressId, PathCache.kids cache⟩) := by
  funext k
  show ((Assoc.modify h _ peers).lookup k).map view = _
  rw [Assoc.lookup_modify]
  by_cases hk : k = h
  · subst hk
    rw [if_pos rfl, update_self, hl]
    rfl
  · rw [if_neg hk, update_of_ne hk]
    rfl

lemma mem_siblings {e : Header × PeerState} :
    e ∈ (peers.removePeerIdentitySiblings h).1 ↔
      peers.lookup e.1 = some e.2 ∧ e.1.identity = h.identity := by
  unfold removePeerIdentitySiblings
  rw [List.mem_map]
  constructor
  · intro he
    obtain ⟨x, hx, rfl⟩ := he
    obtain ⟨hm, hid⟩ := List.mem_filter.mp hx
    exact ⟨mem_peers hm, of_decide_eq_true hid⟩
  · intro he
    exact ⟨⟨e.1, e.2⟩, List.mem_filter.mpr ⟨AList.mem_lookup_iff.mp he.1, decide_eq_true he.2⟩, rfl⟩

lemma table_siblings (k : Header) : (peers.removePeerIdentitySiblings h).2.table k =
    if k.identity = h.identity then none else peers.table k := by
  show ((peers.removePeerIdentitySiblings h).2.lookup k).map view = _
  rw [lookup_siblings]
  split <;> rfl

end PeerStates

/-! ## path children -/

section tracked
variable {tab : Table} {reg reg' : Register} {emitted : Emitted} {k : Header}
  {sessionId id : IngressId} {cache cache' : PathCache} {q : Nat}

/-- `kids` is what was cached, of which the child of `q` is gone -/
lemma tracked_mint {kids : Nat → Option IngressId} (ht : Tracked tab reg emitted)
    (hv : tab k = some ⟨sessionId, kids⟩)
    (hgone : ∀ j, kids q = some j → reg.info.lookup j = none)
    (hcache : ∀ q', q' ≠ q → cache.children.lookup q' = kids q')
    (hr : (mintPathChild k sessionId cache q).Runs shares.Fits reg (id, cache') reg') :
    Tracked (Function.update tab k (some ⟨sessionId, PathCache.kids cache'⟩)) reg' emitted ∧
      PathCache.kids cache' q = some id := by
  obtain ⟨⟨i, b⟩, reg₁, hc, hr⟩ := runs_bind_iff.mp hr
  obtain ⟨_, reg₂, hu, hr⟩ := runs_bind_iff.mp hr
  obtain ⟨_, _, hu⟩ := runs_call_iff.mp hu
  obtain rfl := (Prod.mk.inj hu).2
  have ho : Obtained (.pathChild sessionId q) (childInfo k sessionId q) reg i
      (reg₁.updateInfo i (childInfo k sessionId q)) := obtained_of_runs ht.sane hc
  have hins : ∀ q', (cache.children.insert q i).lookup q' = if q' = q then some i
      else cache.children.lookup q' := fun q' => Assoc.lookup_insert_eq q' q i _
  obtain ⟨old, he, _⟩ := ho.written
  have hsome : ((reg₁.updateInfo i (childInfo k sessionId q)).info.lookup i).isSome := by
    rw [he]
    rfl
  -- the child is cached, and so is every other one whose entry is there
  have hfin : reg' = reg₁.updateInfo i (childInfo k sessionId q) ∧ id = i ∧
      (∀ q' j, cache'.children.lookup q' = some j →
        (cache.children.insert q i).lookup q' = some j) ∧
      ∀ q' j, (cache.children.insert q i).lookup q' = some j →
        (reg'.info.lookup j).isSome → cache'.children.lookup q' = some j := by
    by_cases hm : (cache.minted + 1) % pruneEvery = 0
    · simp only [hm, if_true] at hr
      obtain ⟨children, reg₃, hp, hr⟩ := runs_bind_iff.mp hr
      obtain ⟨_, _, hp⟩ := runs_call_iff.mp hp
      obtain ⟨rfl, rfl⟩ := Prod.mk.inj hp
      cases hr
      exact ⟨rfl, rfl, fun _ _ => lookup_of_pruneMissing, fun _ _ => lookup_pruneMissing⟩
    · simp only [hm, if_false] at hr
      cases hr
      exact ⟨rfl, rfl, fun _ _ h => h, fun _ _ h _ => h⟩
  obtain ⟨rfl, rfl, hsub, hkeep⟩ := hfin
  refine ⟨ht.addKid hv hgone ho ?_ ?_, ?_⟩
  · intro q' j hj
    have h := hsub q' j hj
    rw [hins] at h
    by_cases hq : q' = q
    · rw [if_pos hq] at h
      exact Or.inl ⟨hq, (some.inj h).symm⟩
    · rw [if_neg hq, hcache q' hq] at h
      exact Or.inr h
  · intro q' j hj hq hl
    refine hkeep q' j ?_ (isSome_iff_ne_none.mpr hl)
    rw [hins, if_neg hq, hcache q' hq]
    exact hj
  · refine hkeep q id ?_ hsome
    rw [hins, if_pos rfl]

lemma tracked_getOrCreate (ht : Tracked tab reg emitted)
    (hv : tab k = some ⟨sessionId, PathCache.kids cache⟩)
    (hr : (getOrCreatePathChild k sessionId cache q).Runs shares.Fits reg (id, cache') reg') :
    Tracked (Function.update tab k (some ⟨sessionId, PathCache.kids cache'⟩)) reg' emitted ∧
      PathCache.kids cache' q = some id := by
  unfold getOrCreatePathChild at hr
  cases hl : cache.children.lookup q with
  | none =>
    rw [hl] at hr
    refine tracked_mint ht hv ?_ (fun _ _ => rfl) hr
    intro j hj
    rw [show PathCache.kids cache q = none from hl] at hj
    cases hj
  | some childId =>
    rw [hl] at hr
    obtain ⟨b, reg₁, hf, hr⟩ := runs_bind_iff.mp hr
    obtain ⟨_, _, hf⟩ := runs_call_iff.mp hf
    rcases reg.refreshPathChild_cases childId sessionId q with
      ⟨he, hno⟩ | ⟨info, reg₂, he, hlook, hchild, hs, hk⟩
    · -- an entry that is there would have passed
      rw [he] at hf
      cases hf
      refine tracked_mint ht hv ?_ ?_ hr
      · intro j hj
        rw [show PathCache.kids cache q = some childId from hl] at hj
        cases hj
        by_contra hne
        obtain ⟨info, hi⟩ := ne_none_iff_exists'.mp hne
        have hchild := (ht.kid k _ q childId hv hl).2 info hi
        rw [hno info hi] at hchild
        cases hchild
      · intro q' hq
        show (cache.children.erase q).lookup q' = _
        rw [Assoc.lookup_erase_eq, if_neg hq]
        rfl
    · rw [he] at hf
      cases hf
      cases hr
      refine ⟨?_, hl⟩
      rw [← hv, update_eq_self]
      refine ht.evolve (Nat.le_of_eq hs.symm) ?_ ?_
      · intro j info' hj
        rw [hk] at hj
        by_cases hjc : j = id
        · rw [if_pos hjc] at hj
          cases hj
          exact ⟨info, hjc ▸ hlook, ⟨rfl, rfl, rfl, rfl, rfl⟩⟩
        · rw [if_neg hjc] at hj
          exact ⟨info', hj, ⟨rfl, rfl, rfl, rfl, rfl⟩⟩
      · intro h v hvh
        obtain ⟨info', hi, _, hst⟩ := ht.session h v hvh
        have hne : v.session ≠ id := by
          intro heq
          exact ht.session_ne_kid hvh hv (heq ▸ hl)
        rw [hk, if_neg hne]
        exact ⟨info', hi, hst⟩

lemma tracked_announced {reach : List Exploded} {payloads : List Payload}
    (ht : Tracked tab reg emitted) (hv : tab k = some ⟨sessionId, PathCache.kids cache⟩)
    (hr : (announced k sessionId cache reach).Runs shares.Fits reg (payloads, cache') reg') :
    Tracked (Function.update tab k (some ⟨sessionId, PathCache.kids cache'⟩)) reg'
      (emitted.add k.identity (payloads.map (·.ingressId))) := by
  induction reach generalizing tab reg emitted cache payloads with
  | nil =>
    cases hr
    rw [← hv, update_eq_self, map_nil, Emitted.add_nil]
    exact ht
  | cons e reach ih =>
    obtain ⟨rr, pathId⟩ := e
    cases pathId with
    | none =>
      obtain ⟨⟨rest, cache₁⟩, reg₁, hrest, hr⟩ := runs_bind_iff.mp hr
      cases hr
      have hids : ∀ j ∈ [sessionId], View.Has ⟨sessionId, PathCache.kids cache⟩ j :=
        fun j hj => Or.inl (mem_singleton.mp hj)
      have htail := ih (ht.emit hv hids) hv hrest
      rw [Emitted.add_add] at htail
      exact htail
    | some pathId =>
      obtain ⟨⟨id, cache₁⟩, reg₁, hchild, hr⟩ := runs_bind_iff.mp hr
      obtain ⟨⟨rest, cache₂⟩, reg₂, hrest, hr⟩ := runs_bind_iff.mp hr
      cases hr
      obtain ⟨ht₁, hid⟩ := tracked_getOrCreate ht hv hchild
      have hv₁ := Function.update_self k (some (⟨sessionId, PathCache.kids cache₁⟩ : View)) tab
      have hids : ∀ j ∈ [id], View.Has ⟨sessionId, PathCache.kids cache₁⟩ j :=
        fun j hj => Or.inr ⟨pathId, mem_singleton.mp hj ▸ hid⟩
      have htail := ih (ht₁.emit hv₁ hids) hv₁ hrest
      rw [Emitted.add_add, update_idem] at htail
      exact htail

end tracked

/-! ## messages -/

/-- the ids of the routes in an update -/
def Update.routeIds : Update → List IngressId
  | .single payload => [payload.ingressId]
  | .bulk payloads => payloads.map (·.ingressId)
  | _ => []

def Conn.Running (c : Conn) : Prop := c.phase = .dumping ∨ c.phase = .updating

structure Tracking (c : Conn) (reg : Register) (emitted : Emitted) : Prop where
  running : c.Running
  tracked : Tracked c.peers.table reg emitted

section messages
variable {c c' : Conn} {reg reg' : Register} {emitted : Emitted} {h : Header}

lemma kids_empty (minted : Nat) : PathCache.kids ⟨∅, minted⟩ = fun _ => none := by
  funext q
  exact AList.lookup_empty q

lemma tracked_peerIngress {tab : Table} {info : IngressInfo} {id : IngressId} {b : Bool}
    (ht : Tracked tab reg emitted) (hk : tab h = none)
    (htype : info.ingressType = some .bgpViaBmp) (hst : info.state = some .connected)
    (hrib : info.ribType ≠ none)
    (hr : (Conn.peerIngress info).Runs shares.Fits reg (id, b) reg') :
    Tracked (Function.update tab h (some ⟨id, fun _ => none⟩)) reg' emitted := by
  obtain ⟨⟨i, b'⟩, reg₁, hc, hr⟩ := runs_bind_iff.mp hr
  obtain ⟨_, reg₂, hu, hr⟩ := runs_bind_iff.mp hr
  obtain ⟨_, _, hu⟩ := runs_call_iff.mp hu
  obtain rfl := (Prod.mk.inj hu).2
  cases hr
  exact ht.addPeer hk htype hst hrib (obtained_of_runs ht.sane hc)

variable {mt : MessageType}

lemma tracking_peerUp {msg : PeerUpNotification} (ht : Tracking c reg emitted)
    (hr : (c.peerUp msg).Runs shares.Fits reg (some (c', mt)) reg') : Tracking c' reg' emitted := by
  unfold peerUp at hr
  by_cases hl : (c.peers.lookup msg.header).isSome = true
  · rw [if_pos hl] at hr
    cases hr
    exact ht
  · rw [if_neg hl] at hr
    obtain ⟨⟨id, b⟩, reg₁, hp, hr⟩ := runs_bind_iff.mp hr
    cases hr
    have hnone : c.peers.table msg.header = none :=
      table_none (not_isSome_iff_eq_none.mp hl)
    refine ⟨ht.running, ?_⟩
    show Tracked (table (c.peers.insert msg.header (newPeer msg id))) _ _
    rw [table_insert]
    have hview : (newPeer msg id).view = ⟨id, fun _ => none⟩ :=
      congrArg (View.mk id) (kids_empty 0)
    rw [hview]
    exact tracked_peerIngress ht.tracked hnone rfl rfl (some_ne_none _) hp

/-- a view is made up from another one -/
lemma tracking_synthesize {source : PeerState} {k : Header} {b : Bool}
    (ht : Tracking c reg emitted) (hs : c.peers.lookup k = some source)
    (hn : c.peers.lookup h = none)
    (hr : (c.synthesize source h).Runs shares.Fits reg (some (b, c')) reg') :
    Tracking c' reg' emitted := by
  obtain ⟨found, reg₁, hg, hr⟩ := runs_bind_iff.mp hr
  obtain ⟨_, _, hg⟩ := runs_call_iff.mp hg
  obtain ⟨rfl, rfl⟩ := Prod.mk.inj hg
  obtain ⟨info, hi, htype, _⟩ := ht.tracked.session k _ (table_eq hs)
  have hget : reg.get source.ingressId = some info := hi
  rw [hget] at hr
  obtain ⟨⟨id, b'⟩, reg₂, hp, hr⟩ := runs_bind_iff.mp hr
  cases hr
  refine ⟨ht.running, ?_⟩
  show Tracked (table (c.peers.insert h _)) _ _
  rw [table_insert]
  have htype' : (adaptedInfo info h source.sessionConfig).ingressType = some .bgpViaBmp :=
    htype
  have hview := tracked_peerIngress ht.tracked (table_none hn) htype' rfl
    (some_ne_none _) hp
  rw [← kids_empty source.pathChildren.minted] at hview
  exact hview

lemma tracking_resolveView {b : Bool} (ht : Tracking c reg emitted)
    (hr : (c.resolveView h).Runs shares.Fits reg (some (b, c')) reg') :
    Tracking c' reg' emitted := by
  unfold resolveView at hr
  cases hl : c.peers.lookup h with
  | some peer =>
    rw [hl] at hr
    cases hr
    exact ht
  | none =>
    rw [hl] at hr
    cases hn : c.peers.lookup h.nulledFlags with
    | some source =>
      rw [hn] at hr
      exact tracking_synthesize ht hn hl hr
    | none =>
      rw [hn] at hr
      obtain ⟨sibling, reg₁, hf, hr⟩ := runs_bind_iff.mp hr
      obtain ⟨_, _, hf⟩ := runs_call_iff.mp hf
      obtain ⟨_, rfl⟩ := Prod.mk.inj hf
      cases hsib : sibling.bind c.peers.lookup with
      | some source =>
        simp only [hsib] at hr
        obtain ⟨k, _, hk⟩ := bind_eq_some_iff.mp hsib
        exact tracking_synthesize ht hk hl hr
      | none =>
        simp only [hsib] at hr
        cases hr
        exact ht

lemma tracking_modify {f : PeerState → PeerState} (ht : Tracking c reg emitted)
    (hf : ∀ p, (f p).view = p.view) (h : Header) :
    Tracking { c with peers := Assoc.modify h f c.peers } reg emitted := by
  refine ⟨ht.running, ?_⟩
  show Tracked (table (Assoc.modify h f c.peers)) reg emitted
  rw [table_modify hf]
  exact ht.tracked

variable {u : UpdateMessage}

lemma tracking_preprocess {parser : Parser} (ht : Tracking c reg emitted) :
    Tracking (c.preprocess parser h u).2 reg emitted := by
  unfold preprocess
  cases parser.isEor u with
  | none => exact ht
  | some afiSafi =>
    have hm := tracking_modify ht (f := fun peer =>
      { peer with pendingEors := peer.pendingEors.erase (.new h afiSafi) }) (fun _ => rfl) h
    show Tracking (if _ then _ else _ : Bool × Conn).2 reg emitted
    split
    · exact ⟨Or.inr rfl, hm.tracked⟩
    · exact hm

lemma tracking_notePendingEor {ns : List Nlri} {n : Nat} (ht : Tracking c reg emitted) :
    Tracking (c.notePendingEor h ns n) reg emitted := by
  unfold notePendingEor
  split
  · rename_i peer first _ _
    have hm := tracking_modify ht (f := fun peer =>
      { peer with pendingEors := insert (.new h (nlriFamily first)) peer.pendingEors })
      (fun _ => rfl) h
    split
    · exact hm
    · exact ht
  · exact ht

lemma has_of_withdrawn {sessionId id : IngressId} {cache : PathCache} {unreach : List Exploded}
    (h : id ∈ (withdrawn sessionId cache unreach).map (·.ingressId)) :
    View.Has ⟨sessionId, PathCache.kids cache⟩ id := by
  obtain ⟨payload, hp, rfl⟩ := mem_map.mp h
  obtain ⟨e, _, he⟩ := mem_filterMap.mp hp
  obtain ⟨id, hid, rfl⟩ := map_eq_some_iff.mp he
  cases hq : e.2 with
  | none =>
    rw [hq] at hid
    exact Or.inl (some.inj hid).symm
  | some q =>
    rw [hq] at hid
    exact Or.inr ⟨q, hid⟩

lemma tracking_extract {payloads : List Payload} {n : Nat} (ht : Tracking c reg emitted)
    (hr : (c.extractRouteMonitoringRoutes h u).Runs shares.Fits reg (some (payloads, n, c')) reg') :
    Tracking c' reg' (emitted.add h.identity (payloads.map (·.ingressId))) := by
  unfold extractRouteMonitoringRoutes at hr
  split at hr
  · rename_i reach unreach peer _ _ hl
    obtain ⟨⟨announcements, cache⟩, reg₁, ha, hr⟩ := runs_bind_iff.mp hr
    cases hr
    have hann := tracked_announced ht.tracked (table_eq hl) ha
    have hv := Function.update_self h (some (⟨peer.ingressId, PathCache.kids cache⟩ : View))
      c.peers.table
    have hwith : ∀ id ∈ (withdrawn peer.ingressId cache unreach).map (·.ingressId),
        View.Has ⟨peer.ingressId, PathCache.kids cache⟩ id := fun id hid => has_of_withdrawn hid
    have hall := hann.emit hv hwith
    rw [Emitted.add_add, ← map_append] at hall
    refine ⟨ht.running, ?_⟩
    show Tracked (table (c.peers.setPathChildren h cache)) _ _
    rw [table_setPathChildren hl]
    exact hall
  · cases hr

lemma Tracking.sub {emitted' : Emitted} (ht : Tracking c reg emitted)
    (hs : ∀ J id, id ∈ emitted' J → id ∈ emitted J) : Tracking c reg emitted' :=
  ⟨ht.running, ht.tracked.restrict (fun _ _ h => h) fun J id hid =>
    ⟨hs J id hid, fun _ _ h _ => h⟩⟩

lemma Tracking.add_nil (ht : Tracking c reg emitted) (J : Identity) :
    Tracking c reg (emitted.add J []) := by
  rw [Emitted.add_nil]
  exact ht

/-- what a message emits, whether or not raw messages are forwarded -/
def MessageType.Emits (mt : MessageType) (ids : List IngressId) : Prop :=
  ∀ cfg : HandlerConfig, (mt.updates cfg).flatMap Update.routeIds = ids

lemma emits_invalid : MessageType.Emits .invalidMessage [] := fun _ => rfl

variable {msg : RouteMonitoring}

lemma tracking_forwardUpdate {config : SessionConfig} (ht : Tracking c reg emitted)
    (hr : (c.forwardUpdate msg config u).Runs shares.Fits reg (some (c', mt)) reg') :
    ∃ ids, MessageType.Emits mt ids ∧
      Tracking c' reg' (emitted.add msg.header.identity ids) := by
  obtain ⟨found, reg₁, hx, hr⟩ := runs_bind_iff.mp hr
  cases found with
  | none =>
    cases hr
    unfold extractRouteMonitoringRoutes at hx
    split at hx
    · obtain ⟨_, _, _, hx⟩ := runs_bind_iff.mp hx
      cases hx
    · obtain ⟨_, rfl⟩ := runs_ret_iff.mp hx
      exact ⟨[], emits_invalid, ht.add_nil _⟩
  | some r =>
    obtain ⟨payloads, n, c₁⟩ := r
    have hx := tracking_extract ht hx
    cases ha : u.announcements.bind (·.mapM id) with
    | none =>
      simp only [ha] at hr
      cases hr
      refine ⟨[], emits_invalid, Tracking.add_nil (hx.sub ?_) _⟩
      intro J id hid
      exact Or.inl hid
    | some announcements =>
      simp only [ha] at hr
      cases hr
      refine ⟨payloads.map (·.ingressId), ?_, tracking_notePendingEor hx⟩
      intro cfg
      show ((if cfg.forwardRawUpdates then _ else _) ++ [Update.bulk payloads]).flatMap
        Update.routeIds = _
      split
      · cases AList.lookup msg.header (c₁.notePendingEor msg.header announcements n).peers with
        | none | some peer => exact append_nil _
      · exact append_nil _

lemma tracking_processUpdate {parser : Parser} {config : SessionConfig}
    (ht : Tracking c reg emitted)
    (hr : (c.processUpdate parser msg config u).Runs shares.Fits reg (some (c', mt)) reg') :
    ∃ ids, MessageType.Emits mt ids ∧
      Tracking c' reg' (emitted.add msg.header.identity ids) := by
  have hp : Tracking (c.preprocess parser msg.header u).2 reg emitted := tracking_preprocess ht
  unfold processUpdate at hr
  by_cases hpre : (c.preprocess parser msg.header u).1 = true
  · simp only [hpre, if_true] at hr
    cases hr
    exact ⟨[], fun _ => rfl, hp.add_nil _⟩
  · simp only [hpre] at hr
    exact tracking_forwardUpdate hp hr

lemma tracking_routeMonitoring {parser : Parser} (ht : Tracking c reg emitted)
    (hr : (c.routeMonitoring parser msg).Runs shares.Fits reg (some (c', mt)) reg') :
    ∃ ids, MessageType.Emits mt ids ∧
      Tracking c' reg' (emitted.add msg.header.identity ids) := by
  obtain ⟨resolved, reg₁, hv, hr⟩ := runs_bind_iff.mp hr
  cases resolved with
  | none => cases hr
  | some r =>
    obtain ⟨b, c₁⟩ := r
    have ht₁ := tracking_resolveView ht hv
    cases b with
    | false =>
      cases hr
      exact ⟨[], emits_invalid, ht₁.add_nil _⟩
    | true =>
      cases hl : c₁.peers.lookup msg.header with
      | none =>
        simp only [hl] at hr
        cases hr
      | some peer =>
        simp only [hl] at hr
        cases hu : parseUpdate parser (peer.sessionConfig.forBmpRib msg.header.ribType)
            msg.update with
        | none =>
          simp only [hu] at hr
          cases hr
          exact ⟨[], emits_invalid, ht₁.add_nil _⟩
        | some parsed =>
          obtain ⟨config, retried, u⟩ := parsed
          simp only [hu] at hr
          cases retried with
          | false => exact tracking_processUpdate ht₁ hr
          | true =>
            have hm := tracking_modify ht₁ (f := fun peer => { peer with
              sessionConfig := config.forBmpRib msg.header.ribType }) (fun _ => rfl) msg.header
            exact tracking_processUpdate hm hr

/-! ## Peer Down -/

/-- the entries of `ids` are marked -/
structure Marked (ids : List IngressId) (reg reg' : Register) : Prop where
  serial : reg'.serial = reg.serial
  other : ∀ k, k ∉ ids → reg'.info.lookup k = reg.info.lookup k
  stays : ∀ k, reg.info.lookup k ≠ none → reg'.info.lookup k ≠ none
  entry : ∀ k info', reg'.info.lookup k = some info' →
    ∃ info, reg.info.lookup k = some info ∧ SameKind info info' ∧
      (k ∈ ids → info'.state = some .disconnected)

lemma marked_of_runs {ids found : List IngressId}
    (hr : (markAll ids).Runs shares.Fits reg found reg') :
    Marked ids reg reg' ∧ found = ids.filter fun id => (reg.info.lookup id).isSome := by
  induction ids generalizing reg found with
  | nil =>
    cases hr
    refine ⟨⟨rfl, fun _ _ => rfl, fun _ h => h, ?_⟩, rfl⟩
    intro k info' hi
    exact ⟨info', hi, ⟨rfl, rfl, rfl, rfl, rfl⟩, fun h => absurd h not_mem_nil⟩
  | cons id ids ih =>
    obtain ⟨b, reg₁, hm, hr⟩ := runs_bind_iff.mp hr
    obtain ⟨_, _, hm⟩ := runs_call_iff.mp hm
    obtain ⟨rfl, rfl⟩ := Prod.mk.inj hm
    obtain ⟨rest, reg₂, hrest, hr⟩ := runs_bind_iff.mp hr
    cases hr
    obtain ⟨hmark, hfound⟩ := ih hrest
    have hsome : ∀ k, ((reg.markDisconnected id).info.lookup k).isSome =
        (reg.info.lookup k).isSome := by
      intro k
      rw [Register.lookup_markDisconnected]
      split
      · exact isSome_map
      · rfl
    refine ⟨⟨hmark.serial, ?_, ?_, ?_⟩, ?_⟩
    · intro k hk
      have hne : k ≠ id := fun h => hk (mem_cons.mpr (Or.inl h))
      have hrest : k ∉ ids := fun h => hk (mem_cons_of_mem id h)
      rw [hmark.other k hrest, Register.lookup_markDisconnected, if_neg hne]
    · intro k hk
      refine hmark.stays k ?_
      rw [← isSome_iff_ne_none, hsome, isSome_iff_ne_none]
      exact hk
    · intro k info' hi
      obtain ⟨info₁, hi₁, hsame, hdown⟩ := hmark.entry k info' hi
      rw [Register.lookup_markDisconnected] at hi₁
      by_cases hk : k = id
      · rw [if_pos hk] at hi₁
        obtain ⟨info, hi₀, rfl⟩ := map_eq_some_iff.mp hi₁
        refine ⟨info, hi₀, ⟨hsame.1, hsame.2, hsame.3, hsame.4, hsame.5⟩, ?_⟩
        intro _
        by_cases hkm : k ∈ ids
        · exact hdown hkm
        · -- it is not marked again
          have hsame := hmark.other k hkm
          rw [hi, Register.lookup_markDisconnected, if_pos hk, hi₀] at hsame
          cases hsame
          rfl
      · rw [if_neg hk] at hi₁
        refine ⟨info₁, hi₁, hsame, ?_⟩
        intro h
        exact hdown ((mem_cons.mp h).resolve_left hk)
    · rw [filter_cons, hfound]
      simp only [hsome]
      rfl

lemma exists_runs_markAll (ids : List IngressId) (hf : shares.Fits reg) :
    ∃ found reg', (markAll ids).Runs shares.Fits reg found reg' := by
  induction ids generalizing reg with
  | nil => exact ⟨[], reg, .ret [] reg⟩
  | cons id ids ih =>
    have hf' : shares.Fits (reg.markDisconnected id) := hf
    obtain ⟨found, reg', hr⟩ := ih hf'
    have hmark : (markDisconnected id).Runs shares.Fits reg (reg.get id).isSome
        (reg.markDisconnected id) := runs_call_iff.mpr ⟨hf', firstPick, rfl⟩
    exact ⟨_, reg', runs_bind_iff.mpr ⟨_, _, hmark,
      runs_bind_iff.mpr ⟨found, reg', hr, runs_ret_iff.mpr ⟨rfl, rfl⟩⟩⟩⟩

/-- the ids that an update withdraws -/
def Update.withdrawnIds : Update → List IngressId
  | .withdraw id _ => [id]
  | .withdrawBulk entries => entries.map (·.1)
  | _ => []

/-- the ids that had an entry are withdrawn, and none but those of the views -/
lemma withdrawnIds_downUpdate {removed : List (Header × PeerState)} {found : List IngressId}
    (hf : ∀ id ∈ found, id ∈ removed.flatMap (·.2.ids)) :
    (∀ id ∈ found, id ∈ Update.withdrawnIds (Conn.downUpdate removed found)) ∧
      ∀ id ∈ Update.withdrawnIds (Conn.downUpdate removed found),
        id ∈ removed.flatMap (·.2.ids) := by
  have hbulk : Update.withdrawnIds (.withdrawBulk (found.map fun id => (id, none))) = found := by
    show (found.map _).map _ = found
    rw [List.map_map]
    exact map_id found
  have hsame : (∀ id ∈ found, id ∈
      Update.withdrawnIds (.withdrawBulk (found.map fun id => (id, none)))) ∧
      ∀ id ∈ Update.withdrawnIds (.withdrawBulk (found.map fun id => (id, none))),
        id ∈ removed.flatMap (·.2.ids) := by
    rw [hbulk]
    exact ⟨fun _ h => h, hf⟩
  unfold downUpdate
  split
  · rename_i k peer
    split
    · -- a peer without path children has one id
      rename_i hc
      have hids : peer.ids = [peer.ingressId] := by
        unfold ids
        rw [isEmpty_iff.mp (Bool.and_eq_true_iff.mp hc).2]
        rfl
      have hflat : [(k, peer)].flatMap (·.2.ids) = [peer.ingressId] := by
        rw [flatMap_cons, flatMap_nil, append_nil, hids]
      rw [hflat] at hf ⊢
      exact ⟨hf, fun _ h => h⟩
    · exact hsame
  · exact hsame

lemma mem_removed {id : IngressId} :
    id ∈ (c.peers.removePeerIdentitySiblings h).1.flatMap (·.2.ids) ↔
      ∃ k v, c.peers.table k = some v ∧ k.identity = h.identity ∧ v.Has id := by
  rw [mem_flatMap]
  constructor
  · intro hm
    obtain ⟨e, he, hid⟩ := hm
    obtain ⟨hl, hk⟩ := mem_siblings.mp he
    exact ⟨e.1, e.2.view, table_eq hl, hk, mem_ids.mp hid⟩
  · intro hm
    obtain ⟨k, v, hv, hk, hid⟩ := hm
    obtain ⟨p, hl, rfl⟩ := lookup_of_table hv
    exact ⟨(k, p), mem_siblings.mpr ⟨hl, hk⟩, mem_ids.mpr hid⟩

/-- no peer of the identity is up, or all its ids are marked and withdrawn -/
lemma peerDown_cases {r : Processed}
    (hr : (c.peerDown h).Runs shares.Fits reg r reg') :
    ((∀ k v, c.peers.table k = some v → k.identity ≠ h.identity) ∧
      r = some (c, .invalidMessage) ∧ reg' = reg) ∨
    ∃ ids update, (∀ id, id ∈ ids ↔
        ∃ k v, c.peers.table k = some v ∧ k.identity = h.identity ∧ v.Has id) ∧
      Marked ids reg reg' ∧
      r = some ({ c with peers := (c.peers.removePeerIdentitySiblings h).2 },
        .routingUpdate update none) ∧
      (∀ id ∈ ids, reg.info.lookup id ≠ none → id ∈ Update.withdrawnIds update) ∧
      ∀ id ∈ Update.withdrawnIds update, id ∈ ids := by
  unfold peerDown at hr
  by_cases he : (c.peers.removePeerIdentitySiblings h).1.isEmpty = true
  · simp only [he, if_true] at hr
    cases hr
    refine Or.inl ⟨?_, rfl, rfl⟩
    intro k v hv hk
    obtain ⟨p, hl, _⟩ := lookup_of_table hv
    have hm : (k, p) ∈ (c.peers.removePeerIdentitySiblings h).1 :=
      mem_siblings.mpr ⟨hl, hk⟩
    rw [isEmpty_iff.mp he] at hm
    cases hm
  · simp only [he] at hr
    obtain ⟨found, reg₁, hm, hr⟩ := runs_bind_iff.mp hr
    cases hr
    obtain ⟨hmark, hfound⟩ := marked_of_runs hm
    have hsub : ∀ id ∈ found, id ∈
        (c.peers.removePeerIdentitySiblings h).1.flatMap (·.2.ids) := by
      intro id hid
      rw [hfound] at hid
      exact (mem_filter.mp hid).1
    obtain ⟨hin, hout⟩ := withdrawnIds_downUpdate hsub
    refine Or.inr ⟨_, _, fun _ => mem_removed, hmark, rfl, ?_, hout⟩
    intro id hid hl
    refine hin id ?_
    rw [hfound]
    exact mem_filter.mpr ⟨hid, isSome_iff_ne_none.mpr hl⟩

/-- some view of the peer `J` is there -/
def Table.Up (tab : Table) (J : Identity) : Prop := ∃ h v, tab h = some v ∧ h.identity = J

/-- what was emitted, of the peers that are up -/
def Emitted.since (emitted : Emitted) (tab : Table) : Emitted :=
  fun J => { id | id ∈ emitted J ∧ Table.Up tab J }

lemma tracking_peerDown (ht : Tracking c reg emitted)
    (hr : (c.peerDown h).Runs shares.Fits reg (some (c', mt)) reg') :
    Tracking c' reg' (Emitted.since emitted c'.peers.table) := by
  rcases peerDown_cases hr with ⟨_, he, rfl⟩ | ⟨ids, update, hids, hmark, he, _⟩
  · cases he
    exact ht.sub fun J id hid => hid.1
  · cases he
    refine ⟨ht.running, ?_⟩
    have hsub : ∀ k v, (c.peers.removePeerIdentitySiblings h).2.table k = some v →
        k.identity ≠ h.identity ∧ c.peers.table k = some v := by
      intro k v hv
      rw [table_siblings] at hv
      by_cases hk : k.identity = h.identity
      · rw [if_pos hk] at hv
        cases hv
      · rw [if_neg hk] at hv
        exact ⟨hk, hv⟩
    have hrest : Tracked (c.peers.removePeerIdentitySiblings h).2.table reg
        (Emitted.since emitted (c.peers.removePeerIdentitySiblings h).2.table) := by
      refine ht.tracked.restrict (fun k v hv => (hsub k v hv).2) ?_
      intro J id hid
      refine ⟨hid.1, ?_⟩
      intro k v hv hk
      -- `J` has a view left, so it is another peer
      obtain ⟨k', v', hv', rfl⟩ := hid.2
      rw [table_siblings, if_neg]
      · exact hv
      · rw [hk]
        exact (hsub k' v' hv').1
    refine hrest.evolve (Nat.le_of_eq hmark.serial.symm) ?_ ?_
    · intro id info' hi
      obtain ⟨info, hi₀, hsame, _⟩ := hmark.entry id info' hi
      exact ⟨info, hi₀, hsame⟩
    · intro k v hv
      obtain ⟨info, hi, _, hst⟩ := hrest.session k v hv
      refine ⟨info, ?_, hst⟩
      rw [hmark.other, hi]
      intro hm
      obtain ⟨k', v', hv', hk', hhas⟩ := (hids _).mp hm
      have hkk : k = k' := ht.tracked.disjoint (hsub k v hv).2 hv' (Or.inl rfl) hhas
      exact (hsub k v hv).1 (hkk ▸ hk')

end messages

end Netom.Bmp
