import Netom.Rpki.RtrCache
import Netom.Rpki.Revalidate

/-!
# A Delta and the stored ROV statuses

The RIB unit applies a Delta verb by verb: it changes the VRP store, asks the `vrp_update` filter
whether the routes should follow, and if so validates the routes of the VRP's prefix and of its
more specifics again.

* `RibUnit.processDelta`  the loop over the verbs, each with the verdict of the filter;
* `active_revalidate`  one verb gives every route below its prefix its new status;
* `delta_keeps_rov`  if the filter accepts, statuses that were right before the Delta are
  right after it, and nothing but ROV statuses changes in any case.
-/

namespace Netom
open PrefixMatch List

section revalidate
variable (rmt : RibMatcher) (vmt : VrpMatcher) (vrps : VrpStore)

/-- validate one record of the answer and insert it again, in the unicast store -/
def writeRov (s : Store) (q : Prefix) (r : Record) : Store :=
  match revalidated vmt vrps q r with
  | some r' => s.insert q r'
  | none => s

def deltaMatchOptions : MatchOptions IngressId where
  matchType := .exactMatch
  includeLessSpecifics := false
  includeMoreSpecifics := true
  mui := none

/-- the exact match first, then the more specifics -/
def Rib.revalidate (rib : Rib) (p : Prefix) : Rib :=
  let res := rib.matchPrefix rmt p false deltaMatchOptions
  let unicast := res.records.foldl (fun s e => writeRov vmt vrps s p e.2) rib.unicast
  match res.moreSpecifics with
  | some moreSpecifics =>
    { rib with
      unicast := moreSpecifics.foldl (fun s g =>
        g.2.foldl (fun s e => writeRov vmt vrps s g.1 e.2) s) unicast }
  | none => { rib with unicast := unicast }

end revalidate

structure RibUnit where
  rib : Rib
  rtrCache : RtrCache

/-- one verb, with the verdict of the `vrp_update` filter (accept where there is none) -/
def RibUnit.deltaVerb (rmt : RibMatcher) (vmt : VrpMatcher) (u : RibUnit) (e : RtrVerb × Bool) :
    RibUnit :=
  let cache := u.rtrCache.deltaVerb e.1
  match e.1.2 with
  | .origin v =>
    if e.2 then ⟨u.rib.revalidate rmt vmt cache.vrps v.pfx, cache⟩ else ⟨u.rib, cache⟩
  | _ => ⟨u.rib, cache⟩

def RibUnit.processDelta (rmt : RibMatcher) (vmt : VrpMatcher) (u : RibUnit)
    (verbs : List (RtrVerb × Bool)) : RibUnit :=
  verbs.foldl (RibUnit.deltaVerb rmt vmt) u

/-! ## the writes of one verb -/

section writes
variable (rmt : RibMatcher) (vmt : VrpMatcher) (vrps : VrpStore)

/-- the attributes with the new status -/
def newRov (q : Prefix) (pamap : RotondaPaMap) : RotondaPaMap :=
  match pamap.originAsn with
  | some origin => pamap.setRpkiInfo (checkRov q origin vmt vrps)
  | none => pamap

/-- all writes in a row -/
def writeAll (s : Store) (ws : List (Prefix × Record)) : Store :=
  ws.foldl (fun s w => writeRov vmt vrps s w.1 w.2) s

lemma Prefix.covers_refl (p : Prefix) : p.covers p = true := by
  simp [Prefix.covers]

/-- the writes are the reported routes of the prefix and of its more specifics -/
lemma exists_writeAll (rib : Rib) (p : Prefix) :
    ∃ ws, rib.revalidate rmt vmt vrps p =
        { rib with unicast := writeAll vmt vrps rib.unicast ws } ∧
      ∀ q r, (q, r) ∈ ws ↔ p.covers q = true ∧
        (rib.unicast.table false).lookup (q, r.multiUniqId) = some r := by
  obtain ⟨set, hset, hmore⟩ := rmt.more (rib.unicast.table false) p deltaMatchOptions rfl rfl
  have hexact := rmt.exact (rib.unicast.table false) p deltaMatchOptions rfl
  have hres : rib.matchPrefix rmt p false deltaMatchOptions =
      rib.unicast.matchPrefix rmt p false deltaMatchOptions :=
    matchPrefix_unicast rmt rib p false rfl rfl
  set res := rmt.run (rib.unicast.table false) p deltaMatchOptions with hrun
  have hsel : ∀ q m r, Selected (rib.unicast.table false) deltaMatchOptions q m r ↔
      (rib.unicast.table false).lookup (q, m) = some r :=
    fun q m r => and_iff_left rfl
  refine ⟨res.records.map (fun e => (p, e.2)) ++
    set.flatMap fun g => g.2.map fun e => (g.1, e.2), ?_, ?_⟩
  · unfold Rib.revalidate
    rw [hres]
    show (match res.moreSpecifics with
      | some moreSpecifics => _
      | none => _) = _
    rw [hset]
    simp only [writeAll, foldl_append, foldl_map, foldl_flatMap]
    rfl
  · intro q r
    rw [mem_append]
    constructor
    · rintro (hmem | hmem)
      · obtain ⟨⟨m, r'⟩, he, heq⟩ := mem_map.mp hmem
        cases heq
        have hl := (hsel _ _ _).mp ((hexact m r').mp he)
        rw [(of_lookup_table hl).1]
        exact ⟨p.covers_refl, hl⟩
      · obtain ⟨g, hg, hmem⟩ := mem_flatMap.mp hmem
        obtain ⟨⟨m, r'⟩, he, heq⟩ := mem_map.mp hmem
        cases heq
        obtain ⟨⟨hcov, -⟩, hs⟩ := (hmore g.1 m r').mp ⟨g.2, hg, he⟩
        have hl := (hsel _ _ _).mp hs
        rw [(of_lookup_table hl).1]
        exact ⟨hcov, hl⟩
    · rintro ⟨hcov, hl⟩
      by_cases hq : q = p
      · subst hq
        refine .inl (mem_map.mpr ⟨(r.multiUniqId, r), ?_, rfl⟩)
        exact (hexact _ _).mpr ((hsel _ _ _).mpr hl)
      · obtain ⟨records, hg, he⟩ := (hmore q _ r).mpr ⟨⟨hcov, hq⟩, (hsel _ _ _).mpr hl⟩
        exact .inr (mem_flatMap.mpr ⟨(q, records), hg, mem_map.mpr ⟨_, he, rfl⟩⟩)

/-! ## what the writes leave -/

/-- what is known of a record that is about to be written back -/
def Reported (s : Store) (q : Prefix) (r : Record) : Prop :=
  r.multiUniqId ∉ s.withdrawnMuis q.family ∧ s.content q r.multiUniqId = some r.butRov

variable {s : Store}

lemma content_writeRov {q : Prefix} {r : Record} (h : Reported s q r) (q' : Prefix)
    (mui : IngressId) : (writeRov vmt vrps s q r).content q' mui = s.content q' mui := by
  unfold writeRov
  cases hr : revalidated vmt vrps q r with
  | none => rfl
  | some r' =>
    have hbut := butRov_revalidated hr
    have hmui : r'.multiUniqId = r.multiUniqId := by
      show r'.butRov.multiUniqId = r.butRov.multiUniqId
      rw [hbut]
    show (s.insert q r').content q' mui = _
    rw [content_insert, hmui]
    by_cases hk : q' = q ∧ mui = r.multiUniqId
    · obtain ⟨rfl, rfl⟩ := hk
      rw [if_pos ⟨rfl, rfl⟩, report_of_withdrawn hmui fun hw => absurd (of_decide_eq_true hw) h.1,
        hbut, h.2]
    · rw [if_neg hk]

lemma withdrawnMuis_writeRov (s : Store) (q : Prefix) (r : Record) :
    (writeRov vmt vrps s q r).withdrawnMuis = s.withdrawnMuis := by
  unfold writeRov
  cases revalidated vmt vrps q r with
  | none | some r' => rfl

lemma reported_writeRov {q q' : Prefix} {r r' : Record} (h : Reported s q r)
    (h' : Reported s q' r') : Reported (writeRov vmt vrps s q r) q' r' := by
  refine ⟨?_, ?_⟩
  · rw [withdrawnMuis_writeRov]
    exact h'.1
  · rw [content_writeRov vmt vrps h]
    exact h'.2

lemma content_writeAll {ws : List (Prefix × Record)} (h : ∀ w ∈ ws, Reported s w.1 w.2)
    (q : Prefix) (mui : IngressId) : (writeAll vmt vrps s ws).content q mui = s.content q mui := by
  induction ws generalizing s with
  | nil => rfl
  | cons w ws ih =>
    have hw := h w mem_cons_self
    show (writeAll vmt vrps (writeRov vmt vrps s w.1 w.2) ws).content q mui = _
    rw [ih fun w' hw' => reported_writeRov vmt vrps hw (h w' (mem_cons_of_mem _ hw')),
      content_writeRov vmt vrps hw]

/-- the active route of a record that is written back, in the store the answer was read from -/
def ActiveAs (base : Store) (q : Prefix) (r : Record) : Prop :=
  r.multiUniqId ∉ base.withdrawnMuis q.family ∧
    base.active q r.multiUniqId = if r.status = .active then some r.pamap else none

/-- every route is as it was read, or validated since -/
def Between (base s : Store) : Prop :=
  s.withdrawnMuis = base.withdrawnMuis ∧ ∀ q mui, s.active q mui = base.active q mui ∨
    s.active q mui = (base.active q mui).map (newRov vmt vrps q)

lemma active_writeRov {base : Store} (hs : Between vmt vrps base s) {q : Prefix} {r : Record}
    (hr : ActiveAs base q r) (q' : Prefix) (mui : IngressId) :
    (writeRov vmt vrps s q r).active q' mui =
      if q' = q ∧ mui = r.multiUniqId then (base.active q' mui).map (newRov vmt vrps q')
      else s.active q' mui := by
  unfold writeRov revalidated
  cases ho : r.pamap.originAsn with
  | none =>
    show s.active q' mui = _
    by_cases hk : q' = q ∧ mui = r.multiUniqId
    · -- nothing to validate: both readings of the route are the same
      obtain ⟨rfl, rfl⟩ := hk
      have hfix : (base.active q' r.multiUniqId).map (newRov vmt vrps q') =
          base.active q' r.multiUniqId := by
        rw [hr.2]
        by_cases hst : r.status = .active
        · simp [hst, newRov, ho]
        · simp [hst]
      rw [if_pos ⟨rfl, rfl⟩]
      rcases hs.2 q' r.multiUniqId with h | h
      · rw [h, hfix]
      · exact h
    · rw [if_neg hk]
  | some origin =>
    show (s.insert q _).active q' mui = _
    rw [Store.active_insert]
    by_cases hk : q' = q ∧ mui = r.multiUniqId
    · obtain ⟨rfl, rfl⟩ := hk
      have hmark : r.multiUniqId ∉ s.withdrawnMuis q'.family := by
        rw [hs.1]
        exact hr.1
      by_cases hst : r.status = .active
      · simp [hr.2, hst, hmark, newRov, ho]
      · simp [hr.2, hst]
    · rw [if_neg hk]
      exact (if_neg hk).symm

lemma active_writeAll {base : Store} {ws : List (Prefix × Record)} (hs : Between vmt vrps base s)
    (h : ∀ w ∈ ws, ActiveAs base w.1 w.2) (q : Prefix) (mui : IngressId) :
    ((∃ r, (q, r) ∈ ws ∧ r.multiUniqId = mui) → (writeAll vmt vrps s ws).active q mui =
      (base.active q mui).map (newRov vmt vrps q)) ∧
    ((¬ ∃ r, (q, r) ∈ ws ∧ r.multiUniqId = mui) →
      (writeAll vmt vrps s ws).active q mui = s.active q mui) := by
  induction ws generalizing s with
  | nil => exact ⟨fun ⟨r, hr, _⟩ => absurd hr not_mem_nil, fun _ => rfl⟩
  | cons w ws ih =>
    have hone := active_writeRov vmt vrps hs (h w mem_cons_self)
    have hs' : Between vmt vrps base (writeRov vmt vrps s w.1 w.2) := by
      refine ⟨(withdrawnMuis_writeRov vmt vrps s w.1 w.2).trans hs.1, fun q' mui' => ?_⟩
      rw [hone]
      by_cases hk : q' = w.1 ∧ mui' = w.2.multiUniqId
      · rw [if_pos hk]
        exact .inr rfl
      · rw [if_neg hk]
        exact hs.2 q' mui'
    obtain ⟨ih1, ih2⟩ := ih hs' fun w' hw' => h w' (mem_cons_of_mem _ hw')
    show (_ → (writeAll vmt vrps (writeRov vmt vrps s w.1 w.2) ws).active q mui = _) ∧
      (_ → (writeAll vmt vrps (writeRov vmt vrps s w.1 w.2) ws).active q mui = _)
    by_cases hlater : ∃ r, (q, r) ∈ ws ∧ r.multiUniqId = mui
    · refine ⟨fun _ => ih1 hlater, fun hn => absurd ?_ hn⟩
      obtain ⟨r, hr, hm⟩ := hlater
      exact ⟨r, mem_cons_of_mem _ hr, hm⟩
    · rw [ih2 hlater, hone]
      constructor
      · rintro ⟨r, hr, hm⟩
        rcases mem_cons.mp hr with heq | hr
        · rw [if_pos ⟨congrArg Prod.fst heq, hm ▸ congrArg (fun e => e.2.multiUniqId) heq⟩]
        · exact absurd ⟨r, hr, hm⟩ hlater
      · intro hn
        rw [if_neg]
        rintro ⟨rfl, rfl⟩
        exact hn ⟨w.2, mem_cons_self, rfl⟩

/-- one verb gives every route below its prefix its new status, and no other -/
lemma active_revalidate (rib : Rib) (p q : Prefix) (mui : IngressId) :
    (rib.revalidate rmt vmt vrps p).unicast.active q mui =
      if p.covers q = true then (rib.unicast.active q mui).map (newRov vmt vrps q)
      else rib.unicast.active q mui := by
  obtain ⟨ws, heq, hws⟩ := exists_writeAll rmt vmt vrps rib p
  have hact : ∀ w ∈ ws, ActiveAs rib.unicast w.1 w.2 := by
    intro w hw
    obtain ⟨-, hmark, -, ha⟩ := of_lookup_table ((hws w.1 w.2).mp hw).2
    exact ⟨hmark, ha⟩
  have hbase : Between vmt vrps rib.unicast rib.unicast := ⟨rfl, fun _ _ => .inl rfl⟩
  obtain ⟨hin, hout⟩ := active_writeAll vmt vrps hbase hact q mui
  rw [heq]
  show (writeAll vmt vrps rib.unicast ws).active q mui = _
  by_cases hcov : p.covers q = true
  · rw [if_pos hcov]
    cases ha : rib.unicast.active q mui with
    | some pamap =>
      rw [← ha]
      exact hin ⟨⟨mui, .active, pamap⟩, (hws q _).mpr ⟨hcov, lookup_table_of_active ha⟩, rfl⟩
    | none =>
      by_cases hlisted : ∃ r, (q, r) ∈ ws ∧ r.multiUniqId = mui
      · rw [hin hlisted, ha]
      · rw [hout hlisted, ha]
        rfl
  · rw [if_neg hcov]
    refine hout ?_
    rintro ⟨r, hr, -⟩
    exact hcov ((hws q r).mp hr).1

lemma content_revalidate (rib : Rib) (p q : Prefix) (mui : IngressId) :
    (rib.revalidate rmt vmt vrps p).unicast.content q mui = rib.unicast.content q mui := by
  obtain ⟨ws, heq, hws⟩ := exists_writeAll rmt vmt vrps rib p
  rw [heq]
  refine content_writeAll vmt vrps ?_ q mui
  intro w hw
  obtain ⟨-, hmark, hc, -⟩ := of_lookup_table ((hws w.1 w.2).mp hw).2
  exact ⟨hmark, hc⟩

lemma multicast_revalidate (rib : Rib) (p : Prefix) :
    (rib.revalidate rmt vmt vrps p).multicast = rib.multicast := by
  obtain ⟨ws, heq, -⟩ := exists_writeAll rmt vmt vrps rib p
  rw [heq]

end writes

/-! ## a whole Delta -/

/-- every active unicast route with an origin has the status that `check_rov` gives it now -/
def RibUnit.Validated (vmt : VrpMatcher) (u : RibUnit) : Prop :=
  ∀ q mui pamap origin, u.rib.unicast.active q mui = some pamap →
    pamap.originAsn = some origin → pamap.rov = checkRov q origin vmt u.rtrCache.vrps

/-- a verb about `v` has no effect on routes that `v` does not cover -/
lemma checkRov_deltaVerb (vmt : VrpMatcher) (cache : RtrCache) (action : RtrAction)
    (v : RouteOrigin) {q : Prefix} (h : ¬ v.Covers q) (origin : Asn) :
    checkRov q origin vmt (cache.deltaVerb (action, .origin v)).vrps =
      checkRov q origin vmt cache.vrps := by
  rw [checkRov_eq, checkRov_eq]
  refine rov_congr origin fun w hw => ?_
  have hne : v ≠ w := fun he => h (he ▸ hw)
  rw [VrpStore.mem_holds_iff_count, VrpStore.mem_holds_iff_count, count_deltaVerb]
  simp [copies, hne]

lemma newRov_spec {vmt : VrpMatcher} {vrps : VrpStore} {q : Prefix} {pamap : RotondaPaMap}
    {origin : Asn} (h : (newRov vmt vrps q pamap).originAsn = some origin) :
    (newRov vmt vrps q pamap).rov = checkRov q origin vmt vrps := by
  unfold newRov at *
  cases ho : pamap.originAsn with
  | none =>
    rw [ho] at h
    simp only at h
    rw [ho] at h
    cases h
  | some origin' =>
    rw [ho] at h
    have heq : pamap.originAsn = some origin := h
    rw [ho] at heq
    cases heq
    rfl

section delta
variable (rmt : RibMatcher) (vmt : VrpMatcher)

lemma validated_deltaVerb {u : RibUnit} (hu : u.Validated vmt) (verb : RtrVerb) :
    (u.deltaVerb rmt vmt (verb, true)).Validated vmt := by
  obtain ⟨action, payload⟩ := verb
  cases payload with
  | routerKey key | aspa a => cases action <;> exact hu
  | origin v =>
    intro q mui pamap origin ha ho
    have ha' : (u.rib.revalidate rmt vmt (u.rtrCache.deltaVerb (action, .origin v)).vrps
        v.pfx).unicast.active q mui = some pamap := ha
    show pamap.rov = checkRov q origin vmt (u.rtrCache.deltaVerb (action, .origin v)).vrps
    rw [active_revalidate] at ha'
    by_cases hcov : v.pfx.covers q = true
    · rw [if_pos hcov] at ha'
      obtain ⟨old, -, rfl⟩ := Option.map_eq_some_iff.mp ha'
      exact newRov_spec ho
    · rw [if_neg hcov] at ha'
      rw [checkRov_deltaVerb vmt _ action v hcov]
      exact hu q mui pamap origin ha' ho

/-- a verb changes no route but for its ROV status, whatever the filter says -/
lemma frame_deltaVerb (u : RibUnit) (e : RtrVerb × Bool) :
    (u.deltaVerb rmt vmt e).rib.multicast = u.rib.multicast ∧
    ∀ q mui, (u.deltaVerb rmt vmt e).rib.unicast.content q mui =
      u.rib.unicast.content q mui := by
  obtain ⟨⟨action, payload⟩, accept⟩ := e
  cases payload with
  | routerKey key | aspa a => exact ⟨rfl, fun _ _ => rfl⟩
  | origin v =>
    cases accept with
    | false => exact ⟨rfl, fun _ _ => rfl⟩
    | true =>
      exact ⟨multicast_revalidate rmt vmt _ u.rib v.pfx,
        content_revalidate rmt vmt _ u.rib v.pfx⟩

/-- **A Delta whose VRP updates the filter accepts keeps the stored statuses right, and every Delta
leaves the multicast store, and of the unicast routes all but their ROV status, as they were.** -/
theorem delta_keeps_rov {u : RibUnit} (hu : u.Validated vmt) (verbs : List (RtrVerb × Bool)) :
    ((∀ e ∈ verbs, e.2 = true) → (u.processDelta rmt vmt verbs).Validated vmt) ∧
    (u.processDelta rmt vmt verbs).rib.multicast = u.rib.multicast ∧
    ∀ q mui, (u.processDelta rmt vmt verbs).rib.unicast.content q mui =
      u.rib.unicast.content q mui := by
  refine ⟨fun hacc => ?_, ?_⟩
  · induction verbs generalizing u with
    | nil => exact hu
    | cons e verbs ih =>
      obtain ⟨verb, accept⟩ := e
      have hacc' : accept = true := hacc _ mem_cons_self
      subst hacc'
      exact ih (validated_deltaVerb rmt vmt hu verb)
        fun e he => hacc e (mem_cons_of_mem _ he)
  · clear hu
    induction verbs generalizing u with
    | nil => exact ⟨rfl, fun _ _ => rfl⟩
    | cons e verbs ih =>
      obtain ⟨hm, hc⟩ := frame_deltaVerb rmt vmt u e
      obtain ⟨ihm, ihc⟩ := @ih (u.deltaVerb rmt vmt e)
      refine ⟨ihm.trans hm, fun q mui => (ihc q mui).trans (hc q mui)⟩

end delta

/-! ## a filter that rejects -/

/-- a route of AS 1 to 0.0.0.0/1 that no VRP covers -/
def uncovered : RotondaPaMap := ⟨.notFound, true, [some (.asPath [.asn 1])]⟩

def uncoveredUnit : RibUnit where
  rib := ⟨Store.empty.insert (halfVrp 2).pfx ⟨7, .active, uncovered⟩, Store.empty, Register.new⟩
  rtrCache := RtrCache.default

lemma uncoveredUnit_validated (vmt : VrpMatcher) : uncoveredUnit.Validated vmt := by
  intro q mui pamap origin ha ho
  have hempty : checkRov q origin vmt RtrCache.default.vrps = .notFound := by
    rw [checkRov_eq]
    simp [rov, RtrCache.default, VrpStore.mem_holds_iff]
  show pamap.rov = checkRov q origin vmt RtrCache.default.vrps
  rw [hempty]
  have ha' : (Store.empty.insert (halfVrp 2).pfx ⟨7, .active, uncovered⟩).active q mui =
    some pamap := ha
  rw [Store.active_insert] at ha'
  split at ha'
  · split at ha'
    · cases ha'
    · cases ha'
      rfl
  · cases ha'

/-- the VRP of AS 2 makes the route invalid -/
theorem delta_keeps_rov_uncovered :
    (uncoveredUnit.processDelta (Matcher.reference _) (Matcher.reference _)
      [((.announce, .origin (halfVrp 2)), true)]).Validated (Matcher.reference _) :=
  (delta_keeps_rov (Matcher.reference _) (Matcher.reference _)
    (uncoveredUnit_validated (Matcher.reference _)) _).1 (by decide)

/-- but not where the filter rejects it -/
theorem rejected_vrp_not_validated :
    uncoveredUnit.Validated (Matcher.reference _) ∧
    ¬ (uncoveredUnit.processDelta (Matcher.reference _) (Matcher.reference _)
      [((.announce, .origin (halfVrp 2)), false)]).Validated (Matcher.reference _) := by
  refine ⟨uncoveredUnit_validated _, fun h => ?_⟩
  have hrov := h (halfVrp 2).pfx 7 uncovered 1 (by decide) rfl
  revert hrov
  decide

end Netom
