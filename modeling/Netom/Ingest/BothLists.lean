import Netom.Ingest.Update

/-!
# A prefix that an UPDATE both announces and withdraws

RFC 4271 section 4.3 asks that such an UPDATE is treated as if the withdrawal were not there.  All
three inputs queue the announcements before the withdrawals, and the RIB applies the payloads in
order, so the withdrawal has the last word.

* `visible_build_withdrawn`  whatever is withdrawn in an UPDATE is not visible after it;
* `resolve_isSome`  the ingress of an announced route is resolved;
* `listed_twice_iff`  so the prefix is never left active.  An MRT file is read without its
  multicast routes, and there the RIB keeps what it had.
-/

namespace Netom
open List Option

/-! ## payloads on the map -/

/-- the route of a payload; flowspec rules have none -/
def Payload.key (payload : Payload) : Option RouteKey :=
  match payload.rxValue with
  | .route mc p _ => some ⟨mc, p, payload.ingressId⟩
  | .flowSpec _ _ _ => none

lemma visible_insertPayload_withdrawn (rib : Rib) (retain : Bool) (payload : Payload)
    (hs : payload.routeStatus = .withdrawn) (k : RouteKey) :
    (rib.insertPayload retain payload).visible k =
      if payload.key = some k then none else rib.visible k := by
  unfold Rib.insertPayload Payload.key
  cases payload.rxValue with
  | flowSpec family raw pamap => rfl
  | route mc p pamap =>
    simp only [hs, visible_insertPrefix_withdrawn, AbsRib.withdraw, some.injEq]
    by_cases hk : k = ⟨mc, p, payload.ingressId⟩
    · rw [hk, Function.update_self, if_pos rfl]
    · rw [Function.update_of_ne hk, if_neg (Ne.symm hk)]

lemma visible_insertPayload_of_ne (rib : Rib) (retain : Bool) (payload : Payload)
    (hs : payload.routeStatus ≠ .inActive) (k : RouteKey) (hk : payload.key ≠ some k) :
    (rib.insertPayload retain payload).visible k = rib.visible k := by
  cases hst : payload.routeStatus with
  | inActive => exact absurd hst hs
  | withdrawn => rw [visible_insertPayload_withdrawn rib retain payload hst, if_neg hk]
  | active =>
    unfold Rib.insertPayload
    unfold Payload.key at hk
    cases hrr : payload.rxValue with
    | flowSpec family raw pamap => rfl
    | route mc p pamap =>
      have hne : k ≠ ⟨mc, p, payload.ingressId⟩ := by
        rintro rfl
        rw [hrr] at hk
        exact hk rfl
      simp only [hst, visible_insertPrefix_active]
      unfold AbsRib.announce
      rw [Function.update_of_ne hne]

lemma visible_insertPayloads_of_ne (payloads : List Payload) (rib : Rib) (retain : Bool)
    (k : RouteKey) (h : ∀ q ∈ payloads, q.routeStatus ≠ .inActive ∧ q.key ≠ some k) :
    (rib.insertPayloads retain payloads).visible k = rib.visible k := by
  induction payloads generalizing rib with
  | nil => rfl
  | cons q payloads ih =>
    have hq := h q mem_cons_self
    show (Rib.insertPayloads (rib.insertPayload retain q) retain payloads).visible k = _
    rw [ih _ fun x hx => h x (mem_cons_of_mem _ hx),
      visible_insertPayload_of_ne rib retain q hq.1 k hq.2]

lemma visible_insertPayloads_withdrawn (payloads : List Payload) (rib : Rib) (retain : Bool)
    (k : RouteKey) (hw : ∀ q ∈ payloads, q.routeStatus = .withdrawn)
    (hk : ∃ q ∈ payloads, q.key = some k) :
    (rib.insertPayloads retain payloads).visible k = none := by
  induction payloads generalizing rib with
  | nil =>
    obtain ⟨q, hq, -⟩ := hk
    cases hq
  | cons q payloads ih =>
    show (Rib.insertPayloads (rib.insertPayload retain q) retain payloads).visible k = none
    have hws : ∀ x ∈ payloads, x.routeStatus = .withdrawn :=
      fun x hx => hw x (mem_cons_of_mem _ hx)
    by_cases hlater : ∃ x ∈ payloads, x.key = some k
    · exact ih _ hws hlater
    · -- the withdrawal of `k` is this one, and nothing after it touches `k`
      have hq : q.key = some k := by
        obtain ⟨x, hx, hxk⟩ := hk
        rcases mem_cons.mp hx with rfl | hx
        · exact hxk
        · exact absurd ⟨x, hx, hxk⟩ hlater
      rw [visible_insertPayloads_of_ne, visible_insertPayload_withdrawn rib retain q
        (hw q mem_cons_self), if_pos hq]
      intro x hx
      refine ⟨by rw [hws x hx]; decide, fun hxk => hlater ⟨x, hx, hxk⟩⟩

/-! ## the lists -/

variable {pathId : Option Nat}

section build
variable {σ : Type} (res : Resolver σ)

lemma mem_withdrawPayloads {s : σ} {unreach : List Exploded} {q : Payload}
    (h : q ∈ withdrawPayloads res s unreach) :
    q.routeStatus = .withdrawn ∧ ∃ e ∈ unreach, q.rxValue = e.1 := by
  obtain ⟨e, he, hq⟩ := mem_filterMap.mp h
  obtain ⟨id, -, rfl⟩ := map_eq_some_iff.mp hq
  exact ⟨rfl, e, he, rfl⟩

variable {reach : List Exploded}

lemma mem_announcePayloads {s : σ} {q : Payload} (h : q ∈ (announcePayloads res s reach).1) :
    q.routeStatus = .active ∧ ∃ e ∈ reach, q.rxValue = e.1 := by
  induction reach generalizing s with
  | nil => cases h
  | cons e reach ih =>
    rcases mem_cons.mp h with rfl | h
    · exact ⟨rfl, e, mem_cons_self, rfl⟩
    · obtain ⟨hs, e', he', hq⟩ := ih h
      exact ⟨hs, e', mem_cons_of_mem _ he', hq⟩

/-- **what an UPDATE withdraws under an ingress is not visible there after it** -/
theorem visible_build_withdrawn (s : σ) (reach unreach : List Exploded) (rib : Rib)
    (retain : Bool) {mc : Bool} {p : Prefix} {pamap : RotondaPaMap} {pathId : Option Nat}
    {id : IngressId} (hw : (RotondaRoute.route mc p pamap, pathId) ∈ unreach)
    (hid : res.withdraw (buildPayloads res s reach unreach).2 pathId = some id) :
    (rib.insertPayloads retain (buildPayloads res s reach unreach).1).visible ⟨mc, p, id⟩ =
      none := by
  show (rib.insertPayloads retain ((announcePayloads res s reach).1 ++
    withdrawPayloads res (announcePayloads res s reach).2 unreach)).visible _ = none
  rw [Rib.insertPayloads, foldl_append]
  apply visible_insertPayloads_withdrawn
  · intro q hq
    exact (mem_withdrawPayloads res hq).1
  · refine ⟨⟨.route mc p pamap, id, .withdrawn⟩, ?_, rfl⟩
    refine mem_filterMap.mpr ⟨(.route mc p pamap, pathId), hw, ?_⟩
    exact map_eq_some_iff.mpr ⟨id, hid, rfl⟩

lemma visible_build_of_not_mem (s : σ) (reach unreach : List Exploded) (rib : Rib)
    (retain : Bool) (k : RouteKey)
    (hr : ∀ e ∈ reach, ∀ pamap, e.1 ≠ .route k.multicast k.pfx pamap)
    (hu : ∀ e ∈ unreach, ∀ pamap, e.1 ≠ .route k.multicast k.pfx pamap) :
    (rib.insertPayloads retain (buildPayloads res s reach unreach).1).visible k =
      rib.visible k := by
  have hkey : ∀ q : Payload, (∀ pamap, q.rxValue ≠ .route k.multicast k.pfx pamap) →
      q.key ≠ some k := by
    intro q hq hk
    unfold Payload.key at hk
    cases hrr : q.rxValue with
    | flowSpec family raw pamap => rw [hrr] at hk; cases hk
    | route mc p pamap =>
      rw [hrr] at hk
      cases hk
      exact hq pamap hrr
  apply visible_insertPayloads_of_ne
  intro q hq
  rcases mem_append.mp hq with hq | hq
  · obtain ⟨hs, e, he, hqe⟩ := mem_announcePayloads res hq
    exact ⟨by rw [hs]; decide, hkey q fun pamap => hqe ▸ hr e he pamap⟩
  · obtain ⟨hs, e, he, hqe⟩ := mem_withdrawPayloads res hq
    exact ⟨by rw [hs]; decide, hkey q fun pamap => hqe ▸ hu e he pamap⟩

/-! ## resolved ingresses -/

/-- what the three inputs guarantee of their path children: `knows` the ones that were announced -/
structure Resolver.Sound (knows : σ → Nat → Prop) : Prop where
  withdraw_none : ∀ s, (res.withdraw s none).isSome
  withdraw_knows : ∀ s n, knows s n → (res.withdraw s (some n)).isSome
  announce_knows : ∀ s rr n, knows (res.announce s rr (some n)).2 n
  announce_keeps : ∀ s rr pathId n, knows s n → knows (res.announce s rr pathId).2 n

variable {res} {knows : σ → Nat → Prop}

lemma announcePayloads_keeps (hres : res.Sound knows) (reach : List Exploded) (s : σ) (n : Nat)
    (h : knows s n) : knows (announcePayloads res s reach).2 n := by
  induction reach generalizing s with
  | nil => exact h
  | cons e reach ih => exact ih _ (hres.announce_keeps s e.1 e.2 n h)

lemma announcePayloads_knows (hres : res.Sound knows) {n : Nat} {rr : RotondaRoute}
    (h : (rr, some n) ∈ reach) (s : σ) : knows (announcePayloads res s reach).2 n := by
  induction reach generalizing s with
  | nil => cases h
  | cons e reach ih =>
    rcases mem_cons.mp h with rfl | h
    · exact announcePayloads_keeps hres reach _ n (hres.announce_knows s rr n)
    · exact ih h _

lemma resolve_isSome (hres : res.Sound knows) {rr : RotondaRoute}
    (h : (rr, pathId) ∈ reach) (s : σ) (unreach : List Exploded) :
    (res.withdraw (buildPayloads res s reach unreach).2 pathId).isSome := by
  show (res.withdraw (announcePayloads res s reach).2 pathId).isSome
  cases pathId with
  | none => exact hres.withdraw_none _
  | some n => exact hres.withdraw_knows _ n (announcePayloads_knows hres h s)

lemma build_both (hres : res.Sound knows) (s : σ) {unreach : List Exploded} {mc : Bool}
    {p : Prefix} {pa pw : RotondaPaMap}
    (ha : (RotondaRoute.route mc p pa, pathId) ∈ reach)
    (hw : (RotondaRoute.route mc p pw, pathId) ∈ unreach) (rib : Rib) (retain : Bool) :
    ∃ id, res.withdraw (buildPayloads res s reach unreach).2 pathId = some id ∧
      (rib.insertPayloads retain (buildPayloads res s reach unreach).1).visible ⟨mc, p, id⟩ =
        none := by
  obtain ⟨id, hid⟩ := isSome_iff_exists.mp (resolve_isSome hres ha s unreach)
  exact ⟨id, hid, visible_build_withdrawn res s reach unreach rib retain hw hid⟩

end build

lemma bgpResolver_sound (ingressId : IngressId) :
    (bgpResolver ingressId).Sound fun st n => st.pathChildren.Knows st.ingresses n where
  withdraw_none _ := rfl
  withdraw_knows s n h := by
    obtain ⟨id, hid, -⟩ := h
    exact isSome_iff_exists.mpr ⟨id, hid⟩
  announce_knows s rr n := getOrCreatePathChild_known _ _ _ _ n
  announce_keeps s rr pathId n h := by
    cases pathId with
    | none => exact h
    | some m => exact getOrCreatePathChild_keeps _ _ _ _ m h

lemma bmpResolver_sound (pph : PerPeerHeader) (sessionId : IngressId) :
    (bmpResolver pph sessionId).Sound fun st n => st.1.Knows st.2 n where
  withdraw_none _ := rfl
  withdraw_knows s n h := by
    obtain ⟨id, hid, -⟩ := h
    exact isSome_iff_exists.mpr ⟨id, hid⟩
  announce_knows s rr n := getOrCreatePathChild_known _ _ _ _ n
  announce_keeps s rr pathId n h := by
    cases pathId with
    | none => exact h
    | some m => exact getOrCreatePathChild_keeps _ _ _ _ m h

lemma noteIngressAddpathFamily_pathChildren (st : MrtIn) (id : IngressId) (f : AfiSafiType) :
    (st.noteIngressAddpathFamily id f).importState.pathChildren = st.importState.pathChildren := by
  have hnote : ∀ peer, (st.importState.noteAddpathFamily peer f).pathChildren =
      st.importState.pathChildren := by
    intro peer
    unfold MrtImportState.noteAddpathFamily
    by_cases hs : (!isSupportedAfisafi f) = true
    · rw [if_pos hs]
    · rw [if_neg hs]
  unfold MrtIn.noteIngressAddpathFamily
  split
  · rfl
  · split
    · exact hnote _
    · rfl

/-- an MRT child, once there, is never replaced -/
lemma mrtPathIngress_pathChildren (st : MrtIn) (parent : IngressId) (n : Nat) (f : AfiSafiType) :
    (st.mrtPathIngress parent n f).2.importState.pathChildren =
      match st.importState.pathChildren.lookup (parent, n) with
      | some _ => st.importState.pathChildren
      | none => st.importState.pathChildren.insert (parent, n) (st.mrtPathIngress parent n f).1 := by
  unfold MrtIn.mrtPathIngress
  simp only [noteIngressAddpathFamily_pathChildren]
  cases st.importState.pathChildren.lookup (parent, n) with
  | none => rfl
  | some id => exact noteIngressAddpathFamily_pathChildren st parent f

lemma mrtResolver_sound (ingressId : IngressId) :
    (mrtResolver ingressId).Sound fun st n =>
      (st.importState.pathChildren.lookup (ingressId, n)).isSome where
  withdraw_none _ := rfl
  withdraw_knows s n h := h
  announce_knows s rr n := by
    show ((s.mrtPathIngress ingressId n _).2.importState.pathChildren.lookup _).isSome
    rw [mrtPathIngress_pathChildren]
    cases hl : s.importState.pathChildren.lookup (ingressId, n) with
    | some id => simp only [hl, isSome_some]
    | none => simp only [AList.lookup_insert, isSome_some]
  announce_keeps s rr pathId n h := by
    cases pathId with
    | none => exact h
    | some m =>
      show ((s.mrtPathIngress ingressId m _).2.importState.pathChildren.lookup _).isSome
      rw [mrtPathIngress_pathChildren]
      cases hl : s.importState.pathChildren.lookup (ingressId, m) with
      | some id => exact h
      | none =>
        simp only [Assoc.lookup_insert_eq]
        by_cases he : (ingressId, n) = (ingressId, m)
        · rw [if_pos he]
          rfl
        · rw [if_neg he]
          exact h

/-! ## the exploded lists -/

def UpdateMessage.Announces (u : UpdateMessage) (n : Nlri) : Prop :=
  ∃ l, u.announcements = some l ∧ some n ∈ l

def UpdateMessage.Withdraws (u : UpdateMessage) (n : Nlri) : Prop :=
  ∃ l, u.withdrawals = some l ∧ some n ∈ l

lemma mem_of_mapM_id {α : Type} {l : List (Option α)} {xs : List α} (h : l.mapM id = some xs)
    {x : α} (hx : some x ∈ l) : x ∈ xs := by
  induction l generalizing xs with
  | nil => cases hx
  | cons a l ih =>
    simp only [mapM_cons, id_eq, bind_eq_bind, bind_eq_some_iff] at h
    obtain ⟨y, rfl, ys, hys, h⟩ := h
    cases h
    rcases mem_cons.mp hx with hxy | hx
    · cases hxy
      exact mem_cons_self
    · exact mem_cons_of_mem _ (ih hys hx)

lemma mem_explodeAnnouncements {u : UpdateMessage} {reach : List Exploded} {mc : Bool}
    {p : Prefix} (h : explodeAnnouncements u = some reach)
    (ha : u.Announces (.route mc p pathId)) :
    ∃ pamap, (RotondaRoute.route mc p pamap, pathId) ∈ reach := by
  obtain ⟨l, hl, hmem⟩ := ha
  simp only [explodeAnnouncements, bind_eq_bind, bind_eq_some_iff, hl] at h
  obtain ⟨pas, -, l, hl, nlris, hn, h⟩ := h
  cases hl
  cases h
  exact ⟨_, mem_filterMap.mpr ⟨_, mem_of_mapM_id hn hmem, rfl⟩⟩

lemma mem_explodeWithdrawals {u : UpdateMessage} {unreach : List Exploded} {mc : Bool}
    {p : Prefix} (h : explodeWithdrawals u = some unreach)
    (hw : u.Withdraws (.route mc p pathId)) :
    ∃ pamap, (RotondaRoute.route mc p pamap, pathId) ∈ unreach := by
  obtain ⟨l, hl, hmem⟩ := hw
  simp only [explodeWithdrawals, bind_eq_bind, bind_eq_some_iff, hl] at h
  obtain ⟨l, hl, nlris, hn, h⟩ := h
  cases hl
  cases h
  exact ⟨_, mem_filterMap.mpr ⟨_, mem_of_mapM_id hn hmem, rfl⟩⟩

lemma isSupportedRoute_route (mc : Bool) (p : Prefix) (pamap : RotondaPaMap) :
    isSupportedRoute (.route mc p pamap) = !mc := by
  cases mc <;> cases hf : p.family <;> simp [isSupportedRoute, routeAfisafi, isSupportedAfisafi, hf]

/-! ## the three inputs -/

def Feed.isBgp : Feed → Bool
  | .bgp _ _ => true
  | _ => false

def Feed.isMrt : Feed → Bool
  | .mrt _ _ _ _ => true
  | _ => false

/-- the prefix is resolved to an ingress, and active there with these attributes -/
def LeftActive (rib : Rib) (ingress : Option IngressId) (mc : Bool) (p : Prefix)
    (pamap : RotondaPaMap) : Prop :=
  ∃ id, ingress = some id ∧ rib.visible ⟨mc, p, id⟩ = some pamap

/-- the prefix is resolved to an ingress, and not active there -/
def LeftWithdrawn (rib : Rib) (ingress : Option IngressId) (mc : Bool) (p : Prefix) : Prop :=
  ∃ id, ingress = some id ∧ rib.visible ⟨mc, p, id⟩ = none

lemma LeftWithdrawn.not_leftActive {rib : Rib} {ingress : Option IngressId} {mc : Bool}
    {p : Prefix} (h : LeftWithdrawn rib ingress mc p) (pamap : RotondaPaMap) :
    ¬ LeftActive rib ingress mc p pamap := by
  rintro ⟨id, hid, hv⟩
  obtain ⟨id', hid', hv'⟩ := h
  cases hid.symm.trans hid'
  rw [hv] at hv'
  cases hv'

/-- an MRT message without a supported announcement may be skipped; any other is built as usual
from the supported routes -/
lemma processMessage_cases {st st' : MrtIn} {parentId : IngressId} {peerAddr : IpAddr}
    {peerAsn : Asn} {u : UpdateMessage} {payloads : List Payload} {ingress : Option IngressId}
    (h : st.processMessage parentId peerAddr peerAsn u = some (payloads, ingress, st')) :
    ∃ reach unreach, explodeAnnouncements u = some reach ∧ explodeWithdrawals u = some unreach ∧
      ((payloads = [] ∧ reach.filter (fun e => isSupportedRoute e.1) = []) ∨
        ∃ id st₁, ingress = some id ∧ (payloads, st') = buildPayloads (mrtResolver id) st₁
          (reach.filter fun e => isSupportedRoute e.1)
          (unreach.filter fun e => isSupportedRoute e.1)) := by
  simp only [MrtIn.processMessage, Option.bind_eq_bind, Option.bind_eq_some_iff] at h
  obtain ⟨reach, hreach, unreach, hunreach, h⟩ := h
  refine ⟨reach, unreach, hreach, hunreach, ?_⟩
  split at h
  · next hempty =>
    cases h
    exact Or.inl ⟨rfl, List.isEmpty_iff.mp (Bool.and_eq_true_iff.mp hempty).1⟩
  · split at h
    · next hskip =>
      cases h
      simp only [Bool.and_eq_true, List.isEmpty_iff] at hskip
      exact Or.inl ⟨rfl, hskip.1.2⟩
    · cases h
      exact Or.inr ⟨_, _, rfl, rfl⟩

section feeds
variable {u : UpdateMessage} {mc : Bool} {p : Prefix} {pathId : Option Nat}
  (ha : u.Announces (.route mc p pathId)) (hw : u.Withdraws (.route mc p pathId))
  {payloads : List Payload} {resolve : Option Nat → Option IngressId} (rib : Rib) (retain : Bool)
include ha hw

lemma bgp_both_withdrawn {st : BgpIn} {ingressId : IngressId} (ht : u.treatment = .normal)
    (h : (Feed.bgp st ingressId).process u = some (payloads, resolve)) :
    LeftWithdrawn (rib.insertPayloads retain payloads) (resolve pathId) mc p := by
  unfold Feed.process BgpIn.processUpdate at h
  obtain ⟨r, hr, h⟩ := bind_eq_some_iff.mp h
  obtain ⟨reach, hreach, hr⟩ := bind_eq_some_iff.mp hr
  obtain ⟨unreach, hunreach, hr⟩ := bind_eq_some_iff.mp hr
  obtain ⟨pa, hpa⟩ := mem_explodeAnnouncements hreach ha
  obtain ⟨pw, hpw⟩ := mem_explodeWithdrawals hunreach hw
  rw [ht] at hr
  cases hr
  cases h
  exact build_both (bgpResolver_sound ingressId) st hpa hpw rib retain

lemma bmp_both_withdrawn {st : BmpIn} {pph : PerPeerHeader}
    (h : (Feed.bmp st pph).process u = some (payloads, resolve)) :
    LeftWithdrawn (rib.insertPayloads retain payloads) (resolve pathId) mc p := by
  unfold Feed.process BmpIn.extractRouteMonitoringRoutes at h
  obtain ⟨r, hr, h⟩ := bind_eq_some_iff.mp h
  obtain ⟨reach, hreach, hr⟩ := bind_eq_some_iff.mp hr
  obtain ⟨unreach, hunreach, hr⟩ := bind_eq_some_iff.mp hr
  obtain ⟨peer, hpeer, hr⟩ := bind_eq_some_iff.mp hr
  obtain ⟨pa, hpa⟩ := mem_explodeAnnouncements hreach ha
  obtain ⟨pw, hpw⟩ := mem_explodeWithdrawals hunreach hw
  cases hr
  simp only [AList.lookup_insert] at h
  cases h
  exact build_both (bmpResolver_sound pph peer.ingressId) _ hpa hpw rib retain

lemma mrt_both_withdrawn {st : MrtIn} {parentId : IngressId} {peerAddr : IpAddr}
    {peerAsn : Asn} (hmc : mc = false)
    (h : (Feed.mrt st parentId peerAddr peerAsn).process u = some (payloads, resolve)) :
    LeftWithdrawn (rib.insertPayloads retain payloads) (resolve pathId) mc p := by
  unfold Feed.process at h
  obtain ⟨⟨payloads', ingress, st'⟩, hr, h⟩ := bind_eq_some_iff.mp h
  cases h
  obtain ⟨reach, unreach, hreach, hunreach, hcase⟩ := processMessage_cases hr
  obtain ⟨pa, hpa⟩ := mem_explodeAnnouncements hreach ha
  obtain ⟨pw, hpw⟩ := mem_explodeWithdrawals hunreach hw
  have hkept : ∀ {l : List Exploded} {pamap}, (RotondaRoute.route mc p pamap, pathId) ∈ l →
      (RotondaRoute.route mc p pamap, pathId) ∈ l.filter (fun e => isSupportedRoute e.1) := by
    intro l pamap hl
    refine mem_filter.mpr ⟨hl, ?_⟩
    show isSupportedRoute (.route mc p pamap) = true
    rw [isSupportedRoute_route, hmc]
    rfl
  rcases hcase with ⟨-, hnil⟩ | ⟨id, st₁, rfl, hb⟩
  · have hpa' := hkept hpa
    rw [hnil] at hpa'
    cases hpa'
  · cases hb
    exact build_both (mrtResolver_sound id) st₁ (hkept hpa) (hkept hpw) rib retain

omit ha hw in
lemma mrt_multicast_unchanged {st : MrtIn} {parentId : IngressId} {peerAddr : IpAddr}
    {peerAsn : Asn}
    (h : (Feed.mrt st parentId peerAddr peerAsn).process u = some (payloads, resolve))
    (id : IngressId) :
    (rib.insertPayloads retain payloads).visible ⟨true, p, id⟩ = rib.visible ⟨true, p, id⟩ := by
  unfold Feed.process at h
  obtain ⟨⟨payloads', ingress, st'⟩, hr, h⟩ := bind_eq_some_iff.mp h
  cases h
  obtain ⟨reach, unreach, -, -, hcase⟩ := processMessage_cases hr
  have hkept : ∀ (l : List Exploded), ∀ e ∈ l.filter (fun e => isSupportedRoute e.1),
      ∀ pamap, e.1 ≠ .route true p pamap := by
    intro l e he pamap heq
    have hsup := (mem_filter.mp he).2
    rw [heq, isSupportedRoute_route] at hsup
    cases hsup
  rcases hcase with ⟨rfl, -⟩ | ⟨id', st₁, rfl, hb⟩
  · rfl
  · cases hb
    exact visible_build_of_not_mem _ st₁ _ _ rib retain _ (hkept reach) (hkept unreach)

end feeds

/-- **A prefix in both lists of an UPDATE is left withdrawn, on every input.**  Only a multicast
prefix in an MRT file is passed over, and then active afterwards iff it was before. -/
theorem listed_twice_iff {feed : Feed} {u : UpdateMessage} {payloads : List Payload}
    {resolve : Option Nat → Option IngressId} {mc : Bool} {p : Prefix} {pathId : Option Nat}
    (h : feed.process u = some (payloads, resolve))
    (ht : feed.isBgp = true → u.treatment = .normal)
    (ha : u.Announces (.route mc p pathId)) (hw : u.Withdraws (.route mc p pathId))
    (rib : Rib) (retain : Bool) (pamap : RotondaPaMap) :
    (LeftActive (rib.insertPayloads retain payloads) (resolve pathId) mc p pamap ↔
      (feed.isMrt = true ∧ mc = true) ∧ LeftActive rib (resolve pathId) mc p pamap) ∧
    (¬ (feed.isMrt = true ∧ mc = true) →
      LeftWithdrawn (rib.insertPayloads retain payloads) (resolve pathId) mc p) := by
  by_cases hmrt : feed.isMrt = true ∧ mc = true
  · obtain ⟨hm, rfl⟩ := hmrt
    cases feed with
    | bgp st ingressId => cases hm
    | bmp st pph => cases hm
    | mrt st parentId peerAddr peerAsn =>
      have hsame := fun id => mrt_multicast_unchanged rib retain h (p := p) id
      refine ⟨?_, fun hn => absurd ⟨hm, rfl⟩ hn⟩
      simp only [LeftActive, hsame, hm, true_and, and_self]
  · have hleft : LeftWithdrawn (rib.insertPayloads retain payloads) (resolve pathId) mc p := by
      cases feed with
      | bgp st ingressId => exact bgp_both_withdrawn ha hw rib retain (ht rfl) h
      | bmp st pph => exact bmp_both_withdrawn ha hw rib retain h
      | mrt st parentId peerAddr peerAsn =>
        have hmc : mc = false := Bool.eq_false_iff.mpr fun hmc => hmrt ⟨rfl, hmc⟩
        exact mrt_both_withdrawn ha hw rib retain hmc h
    refine ⟨⟨fun hact => absurd hact (hleft.not_leftActive pamap), fun hr => ?_⟩, fun _ => hleft⟩
    exact absurd hr.1 hmrt

/-! ## 10.0.0.0/8 in both lists -/

def tenSlashEight : Prefix := tenNet

/-- announces and withdraws 10.0.0.0/8 -/
def bothLists : UpdateMessage where
  fourOctet := true
  treatment := .normal
  pathAttributes := some [some (.origin .igp)]
  announcements := some [some (.route false tenSlashEight none)]
  withdrawals := some [some (.route false tenSlashEight none)]

/-- a native session with ingress 1 -/
def bgpFeed : Feed := .bgp ⟨Register.new, PathCache.empty⟩ 1

def bothPayloads : List Payload :=
  [⟨.route false tenSlashEight ⟨.notChecked, true, [some (.origin .igp)]⟩, 1, .active⟩,
   ⟨.route false tenSlashEight ⟨.notChecked, true, []⟩, 1, .withdrawn⟩]

lemma bgpFeed_process_bothLists :
    bgpFeed.process bothLists =
      some (bothPayloads, (bgpResolver 1).withdraw ⟨Register.new, PathCache.empty⟩) := rfl

theorem listed_twice_bgp_withdrawn :
    LeftWithdrawn ((Rib.new Register.new).insertPayloads false bothPayloads)
      ((bgpResolver 1).withdraw ⟨Register.new, PathCache.empty⟩ none) false tenSlashEight :=
  (listed_twice_iff bgpFeed_process_bothLists (fun _ => rfl) ⟨_, rfl, mem_singleton_self _⟩
    ⟨_, rfl, mem_singleton_self _⟩ (Rib.new Register.new) false ⟨.notChecked, true, []⟩).2 (by decide)

/-- the announced route is not in the RIB after the session's UPDATE -/
theorem bothLists_not_visible :
    (∃ resolve, bgpFeed.process bothLists = some (bothPayloads, resolve) ∧
      resolve none = some 1) ∧
    ((Rib.new Register.new).insertPayloads false bothPayloads).visible ⟨false, tenSlashEight, 1⟩ = none :=
  ⟨⟨_, bgpFeed_process_bothLists, rfl⟩, by decide⟩

end Netom
