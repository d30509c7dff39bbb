import Netom.BestPath.Select

/-!
# Best path selection against the elimination of RFC 4271 section 9.1.2.2

The RFC removes routes from consideration round by round: the highest degree of preference first,
then at each step every route that another one still in consideration beats, where MED is only
compared between routes of the same neighbour AS.  `survivors (steps rc .rfc4271)` is that
procedure over the candidates; the code sorts by pairwise comparison instead.

* `best_survives_of_totalOn`  the two agree whenever the comparison is an order;
* `circle_removed`  in a MED cycle the route with the higher MED is removed, whatever
  the sort makes of it;
* `select_survives_iff`  so they agree for every sort exactly without such a cycle.
-/

namespace Netom
open Cmp Std List

/-- The best path survives the elimination over all candidates, and no alternative that is
reported beats it. -/
structure BestSurvives (sort : SortBy Nat) (rc : Routecore) (records : List Record)
    (ingressInfo : IngressId → Option IngressInfo) (alternatives : Alternatives) : Prop where
  survives : ∀ best, (select sort rc records ingressInfo ⟨.rfc4271, alternatives⟩).1 = some best →
    best.candidate ∈ survivors (steps rc .rfc4271) (candidatesOf rc records ingressInfo)
  unbeaten : ∀ best, (select sort rc records ingressInfo ⟨.rfc4271, alternatives⟩).1 = some best →
    ∀ alt ∈ (select sort rc records ingressInfo ⟨.rfc4271, alternatives⟩).2.1,
      (decisiveStep rc alt.candidate best.candidate .rfc4271).1 ≠ .lt

/-! ## what is reported -/

lemma Alternatives.mem_of_mem_take {α : Type} {alternatives : Alternatives} {l : List α} {x : α}
    (h : x ∈ alternatives.take l) : x ∈ l := by
  cases alternatives with
  | all => exact h
  | atMost n => exact List.mem_of_mem_take h

section agree
variable {sort : SortBy Nat} {rc : Routecore} (hrc : rc.Lawful) {records : List Record}
  {ingressInfo : IngressId → Option IngressInfo} {alternatives : Alternatives}
include hrc

/-- the head of the ranking, when the comparison is an order: no candidate beats it -/
lemma ranking_head_unbeaten {strategy : Strategy} {cs : List Candidate}
    (hel : ∀ c ∈ cs, c.Eligible rc) (ht : TotalOn (indexedCmp rc strategy) cs.zipIdx)
    {best : Candidate} {rest : List Candidate}
    (hr : ranking sort rc strategy cs = best :: rest) :
    ∀ y ∈ cs, lexAll (steps rc strategy) y best ≠ .lt := by
  intro y hy hlt
  have hs : (best :: rest).Pairwise (fun a b => (lexAll (steps rc strategy) a b).isLE) :=
    hr ▸ ranking_sorted hrc hel ht
  have hy' : y ∈ best :: rest := by
    rw [← hr]
    exact (ranking_perm cs).mem_iff.mpr hy
  rcases mem_cons.mp hy' with rfl | hy'
  · have hself : lexAll (steps rc strategy) y y = .eq := ReflCmp.compare_self
    rw [hself] at hlt
    cases hlt
  · exact OrientedCmp.not_isLE_of_lt hlt ((pairwise_cons.mp hs).1 y hy')

lemma best_survives_of_totalOn
    (ht : TotalOn (indexedCmp rc .rfc4271) (candidatesOf rc records ingressInfo).zipIdx) :
    BestSurvives sort rc records ingressInfo alternatives := by
  have hel : ∀ c ∈ candidatesOf rc records ingressInfo, c.Eligible rc :=
    fun c hc => candidatesOf_eligible hc
  cases hr : ranking sort rc .rfc4271 (candidatesOf rc records ingressInfo) with
  | nil =>
    have hnone : (select sort rc records ingressInfo ⟨.rfc4271, alternatives⟩).1 = none := by
      simp only [select, hr, report]
    constructor <;> intro best hb <;> rw [hnone] at hb <;> cases hb
  | cons b rest =>
    have hperm : (b :: rest).Perm (candidatesOf rc records ingressInfo) := hr ▸ ranking_perm _
    have hun := ranking_head_unbeaten hrc hel ht hr
    have hbest : ∀ best, (select sort rc records ingressInfo ⟨.rfc4271, alternatives⟩).1 =
        some best → best.candidate = b := by
      intro best hb
      simp only [select, hr, report, Option.some.injEq] at hb
      rw [← hb]
    have hbm : b ∈ candidatesOf rc records ingressInfo := hperm.mem_iff.mp mem_cons_self
    refine ⟨fun best hb => ?_, fun best hb alt halt => ?_⟩
    · rw [hbest best hb]
      exact mem_survivors_of_unbeaten (orientedCmp_steps rc .rfc4271) hbm hun
    · rw [hbest best hb]
      have halt' : alt ∈ (report rc ⟨.rfc4271, alternatives⟩ (b :: rest)).2 := by
        rw [← hr]
        exact halt
      obtain ⟨i, hi, rfl⟩ := mem_mapIdx.mp (Alternatives.mem_of_mem_take halt')
      have hm := hperm.mem_iff.mp (mem_cons_of_mem _ (getElem_mem hi))
      rw [decisiveStep_eq rc ((hel _ hm).mandatory hrc) ((hel _ hbm).mandatory hrc)]
      exact hun _ hm

end agree

/-! ## what a cycle does -/

section cycle
variable {rc : Routecore} {cs : List Candidate} {x y z : Candidate × Nat}

lemma circle_removed (hz : z.1 ∈ cs) (h : IndexedMedCycle rc x y z) :
    x.1 ∉ survivors (steps rc .rfc4271) cs := by
  have hpre : lexAll (preSteps rc) z.1 x.1 = .eq :=
    OrientedCmp.eq_symm (TransCmp.eq_trans h.pre_ab h.pre_bc)
  have hmed : medStep rc .rfc4271 z.1 x.1 = .lt := by
    show withinGroup _ _ z.1 x.1 = .lt
    rw [withinGroup_of_eq h.same]
    exact Nat.compare_eq_lt.mpr h.better
  exact not_mem_survivors_of_beaten (transCmp_preSteps rc) hz hpre hmed

lemma cycle_positions_ne (hx : x ∈ cs.zipIdx) (hz : z ∈ cs.zipIdx)
    (h : IndexedMedCycle rc x y z) : z.2 ≠ x.2 := by
  intro he
  have hgx : cs[x.2]? = some x.1 := mem_zipIdx_iff_getElem?.mp hx
  have hgz : cs[z.2]? = some z.1 := mem_zipIdx_iff_getElem?.mp hz
  rw [he, hgx] at hgz
  have hlt : z.1.med < x.1.med := h.better
  rw [Option.some.inj hgz] at hlt
  exact Nat.lt_irrefl _ hlt

/-- some sort that keeps its contract ranks the ends of a cycle first, the one with the higher MED
before the other -/
lemma exists_sort_ranking_cycle (hrc : rc.Lawful) (hel : ∀ c ∈ cs, c.Eligible rc)
    (hx : x ∈ cs.zipIdx) (hy : y ∈ cs.zipIdx) (hz : z ∈ cs.zipIdx)
    (h : IndexedMedCycle rc x y z) :
    ∃ sort : SortBy Nat, ∃ rest, ranking sort rc .rfc4271 cs = x.1 :: z.1 :: rest := by
  have hget : cs[x.2]? = some x.1 := List.mem_zipIdx_iff_getElem?.mp hx
  have hgetz : cs[z.2]? = some z.1 := List.mem_zipIdx_iff_getElem?.mp hz
  obtain ⟨hlt, -⟩ := List.getElem?_eq_some_iff.mp hget
  obtain ⟨hltz, -⟩ := List.getElem?_eq_some_iff.mp hgetz
  have hmem : z.2 ∈ (List.range cs.length).erase x.2 :=
    (List.mem_erase_of_ne (cycle_positions_ne hx hz h)).mpr (List.mem_range.mpr hltz)
  have hp : (x.2 :: z.2 :: ((List.range cs.length).erase x.2).erase z.2).Perm
      (List.range cs.length) :=
    (((List.perm_cons_erase hmem).cons x.2).symm.trans
      (List.perm_cons_erase (List.mem_range.mpr hlt)).symm)
  have ht : ¬ TotalOn (rankOrder rc .rfc4271 cs) (List.range cs.length) := by
    rw [totalOn_rankOrder_iff hrc hel, totalOn_indexedCmp_iff]
    rintro (hs | hn)
    · cases hs
    · exact hn x hx y hy z hz h
  refine ⟨SortBy.adversary _ _ hp,
    (((List.range cs.length).erase x.2).erase z.2).filterMap (cs[·]?), ?_⟩
  unfold ranking
  simp only [SortBy.adversary, if_neg ht, if_true]
  rw [List.filterMap_cons, hget, List.filterMap_cons, hgetz]

end cycle

/-- **The sort agrees with the elimination, whatever it does where the comparison is no order,
exactly when MED closes no cycle among the candidates at their positions.** -/
theorem select_survives_iff {rc : Routecore} (hrc : rc.Lawful) (records : List Record)
    (ingressInfo : IngressId → Option IngressInfo) (alternatives : Alternatives) :
    (∀ sort, BestSurvives sort rc records ingressInfo alternatives) ↔
      ∀ x ∈ (candidatesOf rc records ingressInfo).zipIdx,
      ∀ y ∈ (candidatesOf rc records ingressInfo).zipIdx,
      ∀ z ∈ (candidatesOf rc records ingressInfo).zipIdx, ¬ IndexedMedCycle rc x y z := by
  have hel : ∀ c ∈ candidatesOf rc records ingressInfo, c.Eligible rc :=
    fun c hc => candidatesOf_eligible hc
  constructor
  · intro h x hx y hy z hz hcyc
    obtain ⟨sort, rest, hr⟩ := exists_sort_ranking_cycle hrc hel hx hy hz hcyc
    have hbest : (select sort rc records ingressInfo ⟨.rfc4271, alternatives⟩).1.map
        (·.candidate) = some x.1 := by
      simp only [select, hr]
      rfl
    obtain ⟨best, hb, hbx⟩ := Option.map_eq_some_iff.mp hbest
    have hsurv := (h sort).survives best hb
    rw [hbx] at hsurv
    exact circle_removed (fst_mem_of_mem_zipIdx hz) hcyc hsurv
  · intro hn sort
    exact best_survives_of_totalOn hrc ((totalOn_indexedCmp_iff rc _ _).mpr (Or.inr hn))

/-- one route of each neighbour: no cycle, whatever their MEDs -/
theorem select_survives_two_neighbors :
    BestSurvives SortBy.insertion Routecore.reference [medRoute 1 1 10, medRoute 2 2 0] circleInfo
      .all :=
  (select_survives_iff Routecore.reference_lawful [medRoute 1 1 10, medRoute 2 2 0] circleInfo
    .all).mpr (by decide) SortBy.insertion

/-- of the three routes in a circle the first is reported as best; the elimination removes it, and
the alternative of ingress 3 beats it -/
theorem select_circle_best_removed :
    ∃ best, (select SortBy.insertion Routecore.reference circleRecords circleInfo
        ⟨.rfc4271, .all⟩).1 = some best ∧ best.candidate.mui = 1 ∧
      best.candidate ∉ survivors (steps Routecore.reference .rfc4271)
        (candidatesOf Routecore.reference circleRecords circleInfo) ∧
      ∃ alt ∈ (select SortBy.insertion Routecore.reference circleRecords circleInfo
        ⟨.rfc4271, .all⟩).2.1,
        (decisiveStep Routecore.reference alt.candidate best.candidate .rfc4271).1 = .lt := by
  refine ⟨_, rfl, by decide, by decide, by decide⟩

end Netom
