import Netom.BestPath.Elimination

/-!
# Best path selection: what the report says

`select` reports every alternative with the step at which it lost to the best path, not to its
neighbour in the ranking.

* `DecisionStep.position`  the steps in the order of the decision process;
* `position_decisiveStep`  the step that is reported is the first that decides;
* `Candidate.key`, `select_skipMed`  **without MED the ranking is a stable sort by one key**: steps
  are lost earlier and earlier along it, and the routes of equal cost
  come first;
* `Bookkeeping`, `bookkeeping_iff`  **every record is reported once, with its rank, and no
  alternative beats the best path at the step where it lost, unless MED
  closes a cycle**.
-/

namespace Netom
open Cmp Std List

/-! ## the steps in order -/

def DecisionStep.position : DecisionStep → Nat
  | .degreeOfPreference => 0
  | .asPathLength => 1
  | .origin => 2
  | .med => 3
  | .peerType => 4
  | .interiorCost => 5
  | .bgpIdentifier => 6
  | .clusterListLength => 7
  | .peerAddress => 8
  | .tie => 9

section position
variable (rc : Routecore)

lemma position_decided {c : Candidate → Candidate → Ordering}
    {cs : List (Candidate → Candidate → Ordering)} {a b : Candidate} {step : DecisionStep}
    {rest : Ordering × DecisionStep} {k : Nat} (hs : step.position = k)
    (hr : rest.2.position = k + 1 + decidedAt cs a b) :
    (decided (c a b) step rest).2.position = k + decidedAt (c :: cs) a b := by
  by_cases h : c a b = .eq
  · rw [decided, if_neg (not_not.mpr h), decidedAt_cons_eq h, hr]
    omega
  · rw [decided, if_pos h, decidedAt_cons_ne h, hs]
    rfl

lemma position_decisiveStep {a b : Candidate} (ha : a.Mandatory) (hb : b.Mandatory)
    (strategy : Strategy) :
    (decisiveStep rc a b strategy).2.position = decidedAt (steps rc strategy) a b := by
  rw [decisiveStep_steps rc ha hb, ← Nat.zero_add (decidedAt _ a b)]
  show (decided ((fun a b => compareOn Candidate.degreeOfPreference b a) a b) _ _).2.position =
    0 + decidedAt ((fun a b => compareOn Candidate.degreeOfPreference b a) :: _) a b
  refine position_decided (c := fun a b => compareOn Candidate.degreeOfPreference b a) (k := 0)
    (by rfl) ?_
  refine position_decided (k := 1) (by rfl) ?_
  refine position_decided (k := 2) (by rfl) ?_
  refine position_decided (k := 3) (by rfl) ?_
  refine position_decided (k := 4) (by rfl) ?_
  -- the interior cost is a step of the list and not one of `decisiveStep`
  have hskip : ∀ cs, 5 + decidedAt ((fun _ _ => Ordering.eq) :: cs) a b = 6 + decidedAt cs a b := by
    intro cs
    rw [decidedAt_cons_eq rfl]
    omega
  show _ = 5 + decidedAt ((fun _ _ => Ordering.eq) :: _) a b
  rw [hskip]
  refine position_decided (k := 6) (by rfl) ?_
  refine position_decided (k := 7) (by rfl) ?_
  exact position_decided (c := fun a b => a.peerAddr.cmp b.peerAddr) (k := 8) (by rfl) rfl

/-- the step of a comparison at a position -/
def stepCmp (strategy : Strategy) (step : DecisionStep) : Candidate → Candidate → Ordering :=
  ((steps rc strategy)[step.position]?).getD fun _ _ => .eq

lemma stepCmp_decisiveStep {a b : Candidate} (ha : a.Mandatory) (hb : b.Mandatory)
    (strategy : Strategy) : stepCmp rc strategy (decisiveStep rc a b strategy).2 a b =
      lexAll (steps rc strategy) a b := by
  rw [stepCmp, position_decisiveStep rc ha hb, lexAll_eq_decidedAt]
  cases (steps rc strategy)[decidedAt (steps rc strategy) a b]? with
  | none | some c => rfl

lemma stepCmp_swap (strategy : Strategy) (step : DecisionStep) (a b : Candidate) :
    stepCmp rc strategy step a b = (stepCmp rc strategy step b a).swap := by
  unfold stepCmp
  cases h : (steps rc strategy)[step.position]? with
  | none => rfl
  | some c =>
    have hc : OrientedCmp c := orientedCmp_steps rc strategy c (mem_of_getElem? h)
    exact hc.eq_swap

/-- what lost at a step does not beat the best path there, unless it beats it altogether -/
lemma stepCmp_ne_lt_iff {best c : Candidate} (hb : best.Mandatory) (hc : c.Mandatory)
    (strategy : Strategy) : stepCmp rc strategy (decisiveStep rc best c strategy).2 c best ≠ .lt ↔
      (lexAll (steps rc strategy) best c).isLE := by
  rw [stepCmp_swap, stepCmp_decisiveStep rc hb hc]
  cases lexAll (steps rc strategy) best c with
  | lt | eq => exact ⟨fun _ => rfl, fun _ => nofun⟩
  | gt => exact ⟨fun h => absurd rfl h, nofun⟩

/-- the routes of equal cost are those that lose at the last steps -/
lemma equalThroughStepE_iff (a b : Candidate) (strategy : Strategy) :
    equalThroughStepE rc a b strategy = true ↔ 6 ≤ (decisiveStep rc a b strategy).2.position := by
  unfold equalThroughStepE
  cases (decisiveStep rc a b strategy).2 <;> decide

end position

/-! ## the report -/

/-- the routes that are reported, best path first -/
def listed (best : Option Ranked) (alternatives : List Ranked) : List Ranked :=
  best.toList ++ alternatives

/-- an alternative as it is reported, after the best path and at a position -/
def alternativeOf (rc : Routecore) (strategy : Strategy) (best : Candidate) (i : Nat)
    (c : Candidate) : Ranked where
  rank := i + 2
  equalCost := equalThroughStepE rc best c strategy
  step := some (decisiveStep rc best c strategy).2
  candidate := c

/-- best path and alternatives when all of them are asked for -/
def fullReport (rc : Routecore) (strategy : Strategy) (cs : List Candidate) : List Ranked :=
  listed (report rc ⟨strategy, .all⟩ cs).1 (report rc ⟨strategy, .all⟩ cs).2

section report
variable (rc : Routecore)

lemma report_cons (options : BestPathOptions) (best : Candidate) (rest : List Candidate) :
    ∃ decidedBy, report rc options (best :: rest) = (some ⟨1, true, decidedBy, best⟩,
      options.alternatives.take (rest.mapIdx (alternativeOf rc options.strategy best))) :=
  ⟨_, rfl⟩

lemma map_candidate_mapIdx (strategy : Strategy) (best : Candidate) (rest : List Candidate) :
    (rest.mapIdx (alternativeOf rc strategy best)).map (·.candidate) = rest := by
  rw [mapIdx_eq_zipIdx_map, map_map]
  exact zipIdx_map_fst 0 rest

lemma map_rank_mapIdx (strategy : Strategy) (best : Candidate) (rest : List Candidate) :
    (rest.mapIdx (alternativeOf rc strategy best)).map (·.rank) = range' 2 rest.length := by
  have hsnd : rest.zipIdx.map Prod.snd = range' 0 rest.length := zipIdx_map_snd 0 rest
  have hmap : rest.zipIdx.map (fun p => p.2 + 2) = (rest.zipIdx.map Prod.snd).map (2 + ·) := by
    rw [map_map]
    exact map_congr_left fun p _ => Nat.add_comm p.2 2
  rw [mapIdx_eq_zipIdx_map, map_map]
  exact (hmap.trans (congrArg _ hsnd)).trans (map_add_range' 0 rest.length 1)

lemma pairwise_take {α : Type} {R : α → α → Prop} {l : List α} (h : l.Pairwise R)
    (alternatives : Alternatives) : (alternatives.take l).Pairwise R := by
  cases alternatives with
  | all => exact h
  | atMost n => exact h.sublist (take_sublist n l)

lemma step_of_mem_mapIdx {strategy : Strategy} {best : Candidate} {rest : List Candidate}
    {r : Ranked} (h : r ∈ rest.mapIdx (alternativeOf rc strategy best)) :
    r.step = some (decisiveStep rc best r.candidate strategy).2 ∧
      r.equalCost = equalThroughStepE rc best r.candidate strategy ∧ r.candidate ∈ rest := by
  obtain ⟨i, hi, rfl⟩ := mem_mapIdx.mp h
  exact ⟨rfl, rfl, getElem_mem hi⟩

end report

/-! ## without MED -/

/-- what the routes are sorted by without MED: the degree of preference counts down, everything
else up -/
def Candidate.key (rc : Routecore) (c : Candidate) : List Int :=
  [-(c.degreeOfPreference : Int), c.hops rc, c.originRank, c.routeSource.rank,
    c.effectiveBgpId.toNat, c.clusterListLen, c.peerAddr.version, c.peerAddr.value]

lemma compare_natCast (x y : Nat) : compare (x : Int) (y : Int) = compare x y := by
  simp only [compare, compareOfLessAndEq, Int.ofNat_lt, Int.natCast_inj]

lemma compare_neg_natCast (x y : Nat) : compare (-(x : Int)) (-(y : Int)) = compare y x := by
  simp only [compare, compareOfLessAndEq, neg_lt_neg_iff, Int.ofNat_lt, neg_inj, Int.natCast_inj,
    eq_comm]

section skipMed
variable (rc : Routecore)

lemma lexAll_skipMed (a b : Candidate) :
    lexAll (steps rc .skipMed) a b = compare (a.key rc) (b.key rc) := by
  have hkey : compare (a.key rc) (b.key rc) =
      (compare b.degreeOfPreference a.degreeOfPreference).then
      ((compare (a.hops rc) (b.hops rc)).then
      ((compare a.originRank b.originRank).then
      ((compare a.routeSource.rank b.routeSource.rank).then
      ((compare a.effectiveBgpId.toNat b.effectiveBgpId.toNat).then
      ((compare a.clusterListLen b.clusterListLen).then
      ((compare a.peerAddr.version b.peerAddr.version).then
      (compare a.peerAddr.value b.peerAddr.value))))))) := by
    simp only [Candidate.key, List.compare_cons_cons, compare_natCast, compare_neg_natCast,
      List.compare_nil_nil, Ordering.then_eq]
  rw [hkey]
  simp only [steps, preSteps, medStep, postSteps, List.cons_append, List.nil_append, lexAll_cons,
    lexAll_nil, Ordering.then_eq, Ordering.eq_then]
  rfl

end skipMed

section listed
variable {sort : SortBy Nat} {rc : Routecore} {records : List Record}
  {info : IngressId → Option IngressInfo}

lemma map_candidate_fullReport (strategy : Strategy) (cs : List Candidate) :
    (fullReport rc strategy cs).map (·.candidate) = cs := by
  cases cs with
  | nil => rfl
  | cons best rest =>
    obtain ⟨step, hr⟩ := report_cons rc ⟨strategy, .all⟩ best rest
    rw [fullReport, hr]
    exact congrArg (best :: ·) (map_candidate_mapIdx rc strategy best rest)

lemma map_rank_fullReport (strategy : Strategy) (cs : List Candidate) :
    (fullReport rc strategy cs).map (·.rank) = range' 1 cs.length := by
  cases cs with
  | nil => rfl
  | cons best rest =>
    obtain ⟨step, hr⟩ := report_cons rc ⟨strategy, .all⟩ best rest
    rw [fullReport, hr, length_cons, range'_succ]
    exact congrArg (1 :: ·) (map_rank_mapIdx rc strategy best rest)

lemma mem_fullReport {strategy : Strategy} {cs : List Candidate} {x : Ranked}
    (h : x ∈ fullReport rc strategy cs) : x.candidate ∈ cs := by
  have hm : (fullReport rc strategy cs).map (·.candidate) = cs :=
    map_candidate_fullReport strategy cs
  rw [← hm]
  exact mem_map_of_mem h

lemma map_fullReport {β : Type} (f : Candidate → β) (strategy : Strategy)
    (cs : List Candidate) :
    (fullReport rc strategy cs).map (fun x => f x.candidate) = cs.map f := by
  have hm : (fullReport rc strategy cs).map (·.candidate) = cs :=
    map_candidate_fullReport strategy cs
  conv_rhs => rw [← hm, map_map]
  rfl

lemma map_mark_fullReport {β : Type} (f : Candidate → β) (strategy : Strategy)
    (cs : List Candidate) : (fullReport rc strategy cs).map (fun x => (x.rank, f x.candidate)) =
      (range' 1 cs.length).zip (cs.map f) := by
  rw [← zip_map', map_rank_fullReport, map_fullReport]

lemma report_cases (options : BestPathOptions) (cs : List Candidate) :
    (report rc options cs = (none, []) ∧ cs = []) ∨
    ∃ best rest decidedBy, cs = best :: rest ∧
      report rc options cs = (some ⟨1, true, decidedBy, best⟩,
        options.alternatives.take (rest.mapIdx (alternativeOf rc options.strategy best))) := by
  cases cs with
  | nil => exact .inl ⟨rfl, rfl⟩
  | cons best rest =>
    obtain ⟨decidedBy, hr⟩ := report_cons rc options best rest
    exact .inr ⟨best, rest, decidedBy, rfl, hr⟩

end listed

lemma forall₂_of_map_eq {α β : Type} {f : α → β} {l l' : List α} (h : l.map f = l'.map f) :
    List.Forall₂ (fun x y => f x = f y) l l' := by
  have hmap : List.Forall₂ (· = ·) (l.map f) (l'.map f) := by
    rw [h]
    exact forall₂_refl _
  rwa [forall₂_map_left_iff, forall₂_map_right_iff] at hmap

/-- a property that only gets lost along a list holds on its first elements -/
lemma filter_isPrefix_of_pairwise {α : Type} {p : α → Bool} {l : List α}
    (h : l.Pairwise fun x y => p y = true → p x = true) : l.filter p <+: l := by
  induction l with
  | nil => exact prefix_refl []
  | cons x l ih =>
    obtain ⟨hx, hl⟩ := pairwise_cons.mp h
    by_cases hp : p x = true
    · rw [filter_cons_of_pos hp]
      exact (prefix_cons_inj x).mpr (ih hl)
    · have hnil : l.filter p = [] :=
        filter_eq_nil_iff.mpr fun y hy hpy => hp (hx y hy hpy)
      rw [filter_cons_of_neg hp, hnil]
      exact nil_prefix

/-- Without MED the ranking is the stable sort of the eligible records by one key; another order of
the records changes it among full ties only; the alternatives lose earlier and earlier, and those of
equal cost come first. -/
structure SkipMedRanking (sort : SortBy Nat) (rc : Routecore) (records : List Record)
    (info : IngressId → Option IngressInfo) : Prop where
  stable : (listed (select sort rc records info ⟨.skipMed, .all⟩).1
      (select sort rc records info ⟨.skipMed, .all⟩).2.1).map (·.candidate) =
    (candidatesOf rc records info).mergeSort fun a b => (compare (a.key rc) (b.key rc)).isLE
  independent : ∀ records', records'.Perm records →
    List.Forall₂ (fun x y : Ranked => x.rank = y.rank ∧
        (decisiveStep rc x.candidate y.candidate .skipMed).2 = .tie)
      (listed (select sort rc records' info ⟨.skipMed, .all⟩).1
        (select sort rc records' info ⟨.skipMed, .all⟩).2.1)
      (listed (select sort rc records info ⟨.skipMed, .all⟩).1
        (select sort rc records info ⟨.skipMed, .all⟩).2.1)
  antitone : ∀ alternatives,
    (select sort rc records info ⟨.skipMed, alternatives⟩).2.1.Pairwise fun x y =>
      ∃ lostAt lostAt', x.step = some lostAt ∧ y.step = some lostAt' ∧
        lostAt'.position ≤ lostAt.position
  equalCost : ∀ alternatives,
    (select sort rc records info ⟨.skipMed, alternatives⟩).2.1.filter (·.equalCost) <+:
      (select sort rc records info ⟨.skipMed, alternatives⟩).2.1

section skipMedRanking
variable {sort : SortBy Nat} {rc : Routecore} (hrc : rc.Lawful) {records : List Record}
  {info : IngressId → Option IngressInfo}
include hrc

lemma ranking_skipMed {cs : List Candidate} (hel : ∀ c ∈ cs, c.Eligible rc) :
    ranking sort rc .skipMed cs =
      cs.mergeSort fun a b => (compare (a.key rc) (b.key rc)).isLE := by
  have hpos : PositionCmp (lexAll (steps rc .skipMed)) cs (rankOrder rc .skipMed cs) :=
    fun x y a b ha hb => rankOrder_eq hrc hel ha hb
  have hle : (fun a b => (lexAll (steps rc .skipMed) a b).isLE) =
      fun a b => (compare (a.key rc) (b.key rc)).isLE := by
    funext a b
    rw [lexAll_skipMed]
  rw [← hle]
  exact SortBy.run_positions hpos sort

lemma ranking_skipMed_sorted {cs : List Candidate} (hel : ∀ c ∈ cs, c.Eligible rc) :
    (ranking sort rc .skipMed cs).Pairwise fun a b =>
      (lexAll (steps rc .skipMed) a b).isLE :=
  ranking_sorted hrc hel ((totalOn_indexedCmp_iff rc _ _).mpr (.inl rfl))

lemma map_key_ranking {cs cs' : List Candidate} (hel : ∀ c ∈ cs, c.Eligible rc)
    (hp : cs'.Perm cs) : (ranking sort rc .skipMed cs').map (Candidate.key rc) =
      (ranking sort rc .skipMed cs).map (Candidate.key rc) := by
  have hsorted : ∀ {ds : List Candidate}, (∀ c ∈ ds, c.Eligible rc) →
      ((ranking sort rc .skipMed ds).map (Candidate.key rc)).Pairwise
        fun k l => (compare k l).isLE := by
    intro ds hds
    refine pairwise_map.mpr ((ranking_skipMed_sorted hrc hds).imp ?_)
    intro a b hab
    rwa [lexAll_skipMed] at hab
  refine List.Perm.eq_of_pairwise ?_ (hsorted fun c hc => hel c (hp.mem_iff.mp hc)) (hsorted hel)
    (((ranking_perm cs').trans (hp.trans (ranking_perm cs).symm)).map _)
  intro k l _ _ hkl hlk
  exact LawfulEqCmp.eq_of_compare (OrientedCmp.isLE_antisymm hkl hlk)

/-- two reports with the same keys put full ties at each rank -/
lemma forall₂_tie {cs cs' : List Candidate} (hel : ∀ c ∈ cs, c.Eligible rc)
    (hel' : ∀ c ∈ cs', c.Eligible rc)
    (hk : cs'.map (Candidate.key rc) = cs.map (Candidate.key rc)) :
    List.Forall₂ (fun x y : Ranked => x.rank = y.rank ∧
        (decisiveStep rc x.candidate y.candidate .skipMed).2 = .tie)
      (fullReport rc .skipMed cs') (fullReport rc .skipMed cs) := by
  let mark := fun x : Ranked => (x.rank, x.candidate.key rc)
  have hmark : (fullReport rc .skipMed cs').map mark = (fullReport rc .skipMed cs).map mark := by
    have hlen : cs'.length = cs.length := by
      have hl := congrArg length hk
      rwa [length_map, length_map] at hl
    rw [map_mark_fullReport, map_mark_fullReport, hk, hlen]
  obtain ⟨hlen, hzip⟩ := forall₂_iff_zip.mp (forall₂_of_map_eq hmark)
  refine forall₂_iff_zip.mpr ⟨hlen, fun {x y} hxy => ?_⟩
  obtain ⟨hx, hy⟩ := of_mem_zip hxy
  have heq : mark x = mark y := hzip hxy
  refine ⟨congrArg Prod.fst heq, ?_⟩
  rw [tie_iff hrc (hel' _ (mem_fullReport hx)) (hel _ (mem_fullReport hy)), lexAll_skipMed]
  exact LawfulEqCmp.compare_eq_iff_eq.mpr (congrArg Prod.snd heq)

/-- the alternatives with their steps, along the ranking of a best path and the rest -/
lemma alternatives_antitone {best : Candidate} {rest : List Candidate}
    (hel : ∀ c ∈ best :: rest, c.Eligible rc)
    (hs : (best :: rest).Pairwise fun a b => (lexAll (steps rc .skipMed) a b).isLE) :
    (rest.mapIdx (alternativeOf rc .skipMed best)).Pairwise fun x y =>
      ∃ lostAt lostAt', x.step = some lostAt ∧ y.step = some lostAt' ∧
        lostAt'.position ≤ lostAt.position ∧ (y.equalCost = true → x.equalCost = true) := by
  obtain ⟨hbest, hrest⟩ := pairwise_cons.mp hs
  have hb : best.Mandatory := (hel best mem_cons_self).mandatory hrc
  have hm : ∀ c ∈ rest, c.Mandatory :=
    fun c hc => (hel c (mem_cons_of_mem best hc)).mandatory hrc
  have hanti : rest.Pairwise fun a b => decidedAt (steps rc .skipMed) best b ≤
      decidedAt (steps rc .skipMed) best a := by
    refine hrest.imp_of_mem ?_
    intro a b ha hb hab
    exact decidedAt_anti (transCmp_steps_skipMed rc) (hbest a ha) hab
  rw [← map_candidate_mapIdx rc .skipMed best rest] at hanti
  refine (pairwise_map.mp hanti).imp_of_mem ?_
  intro x y hx hy hxy
  obtain ⟨hxs, hxe, hxm⟩ := step_of_mem_mapIdx rc hx
  obtain ⟨hys, hye, hym⟩ := step_of_mem_mapIdx rc hy
  rw [← position_decisiveStep rc hb (hm _ hym), ← position_decisiveStep rc hb (hm _ hxm)] at hxy
  refine ⟨_, _, hxs, hys, hxy, ?_⟩
  rw [hxe, hye, equalThroughStepE_iff, equalThroughStepE_iff]
  omega

end skipMedRanking

def Candidate.record (c : Candidate) : Record := ⟨c.mui, c.status, c.pamap⟩

def Excluded.record (e : Excluded) : Record := ⟨e.mui, e.status, e.pamap⟩

/-- the counts that the response begins with -/
structure Counts where
  total : Nat
  eligible : Nat
  ineligible : Nat
  reported : Nat
  equalCost : Nat
  deriving DecidableEq, Repr

def countsOf (total : Nat) (best : Option Ranked) (alternatives : List Ranked)
    (excluded : List Excluded) : Counts where
  total := total
  eligible := total - excluded.length
  ineligible := excluded.length
  reported := best.toList.length + alternatives.length
  equalCost := match best with
    | none => 0
    | some _ => 1 + (alternatives.filter (·.equalCost)).length

/-- Each record is reported once, ranked or excluded; the ranks have no gaps, a cap keeps the first
alternatives, no alternative beats the best path at the step where it is said to have lost, and the
counts add up. -/
structure Bookkeeping (sort : SortBy Nat) (rc : Routecore) (records : List Record)
    (info : IngressId → Option IngressInfo) (options : BestPathOptions) : Prop where
  partition : ((listed (select sort rc records info ⟨options.strategy, .all⟩).1
      (select sort rc records info ⟨options.strategy, .all⟩).2.1).map (·.candidate.record) ++
    (select sort rc records info options).2.2.map (·.record)).Perm records
  ranks : (listed (select sort rc records info ⟨options.strategy, .all⟩).1
      (select sort rc records info ⟨options.strategy, .all⟩).2.1).map (·.rank) =
    range' 1 (candidatesOf rc records info).length
  best : (select sort rc records info options).1 =
    (select sort rc records info ⟨options.strategy, .all⟩).1
  capped : (select sort rc records info options).2.1 =
    options.alternatives.take (select sort rc records info ⟨options.strategy, .all⟩).2.1
  lostAt : ∀ best, (select sort rc records info options).1 = some best →
    ∀ alt ∈ (select sort rc records info options).2.1, ∃ step, alt.step = some step ∧
      stepCmp rc options.strategy step alt.candidate best.candidate ≠ .lt
  counts : ∀ counts, counts = countsOf records.length (select sort rc records info options).1
      (select sort rc records info options).2.1 (select sort rc records info options).2.2 →
    counts.total = records.length ∧ counts.eligible = (candidatesOf rc records info).length ∧
      counts.total = counts.eligible + counts.ineligible

section bookkeeping
variable {sort : SortBy Nat} {rc : Routecore} {records : List Record}
  {info : IngressId → Option IngressInfo} {options : BestPathOptions}

lemma classify_record (rc : Routecore) (r : Record) (session : Option IngressInfo) :
    match classify rc r session with
    | .ok c => c.record = r
    | .error e => e.record = r := by
  unfold classify
  cases session with
  | none => rfl
  | some i =>
    dsimp only
    cases i.remoteAddr with
    | none => rfl
    | some addr =>
      dsimp only
      cases buildPaMap r.pamap with
      | none => rfl
      | some pa =>
        dsimp only
        split_ifs
        · rfl
        · cases checkEligible rc (toCandidate r i addr pa) with
          | error reason | ok u => rfl

lemma records_perm (records : List Record) :
    ((candidatesOf rc records info).map (·.record) ++
      (excludedOf rc records info).map (·.record)).Perm records := by
  induction records with
  | nil => exact List.Perm.refl []
  | cons r records ih =>
    have hr := classify_record rc r
      (info (RouteSource.resolve r.multiUniqId (info r.multiUniqId)).ingressId)
    rw [← classifyRecord] at hr
    cases hc : classifyRecord rc info r with
    | ok c =>
      rw [hc] at hr
      have hcand : candidatesOf rc (r :: records) info = c :: candidatesOf rc records info := by
        simp only [candidatesOf, filterMap_cons, hc, Except.toOption]
      have hex : excludedOf rc (r :: records) info = excludedOf rc records info := by
        simp only [excludedOf, filterMap_cons, hc]
      rw [hcand, hex, map_cons, cons_append, show c.record = r from hr]
      exact ih.cons r
    | error e =>
      rw [hc] at hr
      have hcand : candidatesOf rc (r :: records) info = candidatesOf rc records info := by
        simp only [candidatesOf, filterMap_cons, hc, Except.toOption]
      have hex : excludedOf rc (r :: records) info = e :: excludedOf rc records info := by
        simp only [excludedOf, filterMap_cons, hc]
      rw [hcand, hex, map_cons, show e.record = r from hr]
      exact perm_middle.trans (ih.cons r)

lemma partition_select (sort : SortBy Nat) (records : List Record) (options : BestPathOptions) :
    ((listed (select sort rc records info ⟨options.strategy, .all⟩).1
        (select sort rc records info ⟨options.strategy, .all⟩).2.1).map (·.candidate.record) ++
      (select sort rc records info options).2.2.map (·.record)).Perm records := by
  have hranked : ((fullReport rc options.strategy (ranking sort rc options.strategy
      (candidatesOf rc records info))).map (·.candidate.record)).Perm
        ((candidatesOf rc records info).map (·.record)) := by
    rw [map_fullReport Candidate.record]
    exact (ranking_perm _).map _
  exact (hranked.append_right _).trans (records_perm records)

lemma report_options (options : BestPathOptions) (cs : List Candidate) :
    report rc options cs = ((report rc ⟨options.strategy, .all⟩ cs).1,
      options.alternatives.take (report rc ⟨options.strategy, .all⟩ cs).2) := by
  cases cs with
  | nil =>
    cases options.alternatives with
    | all => rfl
    | atMost n => exact congrArg (Prod.mk none) take_nil.symm
  | cons best rest => rfl

lemma counts_select (sort : SortBy Nat) (records : List Record) (options : BestPathOptions) :
    records.length = (candidatesOf rc records info).length +
      (select sort rc records info options).2.2.length := by
  have hp : ((candidatesOf rc records info).map (·.record) ++
    (excludedOf rc records info).map (·.record)).Perm records := records_perm records
  have h := hp.length_eq
  rw [length_append, length_map, length_map] at h
  exact h.symm

/-- an alternative beats the best path nowhere when the ranking is in order -/
lemma lostAt_of_sorted (hrc : rc.Lawful) {best : Candidate} {rest : List Candidate}
    {strategy : Strategy} (hel : ∀ c ∈ best :: rest, c.Eligible rc)
    (hs : (best :: rest).Pairwise fun a b => (lexAll (steps rc strategy) a b).isLE) {alt : Ranked}
    (h : alt ∈ rest.mapIdx (alternativeOf rc strategy best)) :
    ∃ step, alt.step = some step ∧ stepCmp rc strategy step alt.candidate best ≠ .lt := by
  obtain ⟨hstep, -, hm⟩ := step_of_mem_mapIdx rc h
  refine ⟨_, hstep, (stepCmp_ne_lt_iff rc ((hel best mem_cons_self).mandatory hrc)
    ((hel _ (mem_cons_of_mem best hm)).mandatory hrc) strategy).mpr ?_⟩
  exact (pairwise_cons.mp hs).1 _ hm

/-- all of it but the step at which an alternative lost holds whatever the sort does -/
lemma bookkeeping_of_lostAt
    (h : ∀ best rest, ranking sort rc options.strategy (candidatesOf rc records info) =
        best :: rest → ∀ alt ∈ options.alternatives.take
          (rest.mapIdx (alternativeOf rc options.strategy best)),
      ∃ step, alt.step = some step ∧ stepCmp rc options.strategy step alt.candidate best ≠ .lt) :
    Bookkeeping sort rc records info options := by
  have hopt : report rc options (ranking sort rc options.strategy (candidatesOf rc records info)) =
    _ := report_options options _
  refine ⟨partition_select sort records options, ?_, ?_, ?_, ?_, ?_⟩
  · have hp : (ranking sort rc options.strategy (candidatesOf rc records info)).Perm
      (candidatesOf rc records info) := ranking_perm _
    rw [← hp.length_eq]
    exact map_rank_fullReport options.strategy _
  · show (report rc options _).1 = _
    rw [hopt]
    rfl
  · show (report rc options _).2 = _
    rw [hopt]
    rfl
  · intro best hbest alt halt
    have hbest' : (report rc options (ranking sort rc options.strategy
      (candidatesOf rc records info))).1 = some best := hbest
    have halt' : alt ∈ (report rc options (ranking sort rc options.strategy
      (candidatesOf rc records info))).2 := halt
    rcases report_cases options (ranking sort rc options.strategy (candidatesOf rc records info))
      with ⟨hr, -⟩ | ⟨b, rest, d, hc, hr⟩
    · rw [hr] at hbest'
      cases hbest'
    · rw [hr] at hbest' halt'
      obtain rfl := Option.some.inj hbest'
      exact h b rest hc alt halt'
  · rintro counts rfl
    have hlen : records.length = (candidatesOf rc records info).length +
      (select sort rc records info options).2.2.length := counts_select sort records options
    refine ⟨rfl, ?_, ?_⟩
    · show records.length - (select sort rc records info options).2.2.length = _
      omega
    · show records.length = records.length - (select sort rc records info options).2.2.length +
        (select sort rc records info options).2.2.length
      omega

lemma bookkeeping_of_totalOn (hrc : rc.Lawful)
    (ht : TotalOn (indexedCmp rc options.strategy) (candidatesOf rc records info).zipIdx) :
    Bookkeeping sort rc records info options := by
  refine bookkeeping_of_lostAt fun best rest hr alt halt => ?_
  have hel : ∀ c ∈ candidatesOf rc records info, c.Eligible rc :=
    fun c hc => candidatesOf_eligible hc
  have hs : (ranking sort rc options.strategy (candidatesOf rc records info)).Pairwise
    fun a b => (lexAll (steps rc options.strategy) a b).isLE := ranking_sorted hrc hel ht
  have hperm : (ranking sort rc options.strategy (candidatesOf rc records info)).Perm
    (candidatesOf rc records info) := ranking_perm _
  rw [hr] at hs hperm
  exact lostAt_of_sorted hrc (fun c hc => hel c (hperm.mem_iff.mp hc)) hs
    (Alternatives.mem_of_mem_take halt)

/-- in a cycle the route that is ranked second can beat the best path at MED, where it is said to
have lost -/
lemma not_bookkeeping_of_ranking {x y z : Candidate × Nat} {rest : List Candidate}
    (hrc : rc.Lawful) (hx : x.1 ∈ candidatesOf rc records info)
    (hz : z.1 ∈ candidatesOf rc records info) (hcyc : IndexedMedCycle rc x y z)
    (hr : ranking sort rc .rfc4271 (candidatesOf rc records info) = x.1 :: z.1 :: rest)
    {alternatives : Alternatives} (hne : alternatives ≠ .atMost 0) :
    ¬ Bookkeeping sort rc records info ⟨.rfc4271, alternatives⟩ := by
  intro hb
  have hmx : x.1.Mandatory := (candidatesOf_eligible hx).mandatory hrc
  have hmz : z.1.Mandatory := (candidatesOf_eligible hz).mandatory hrc
  obtain ⟨d, hrep⟩ := report_cons rc ⟨.rfc4271, alternatives⟩ x.1 (z.1 :: rest)
  rw [← hr] at hrep
  have hmem : alternativeOf rc .rfc4271 x.1 0 z.1 ∈
      (select sort rc records info ⟨.rfc4271, alternatives⟩).2.1 := by
    show _ ∈ (report rc ⟨.rfc4271, alternatives⟩ _).2
    rw [hrep]
    show _ ∈ alternatives.take ((z.1 :: rest).mapIdx (alternativeOf rc .rfc4271 x.1))
    rw [mapIdx_cons]
    cases alternatives with
    | all => exact mem_cons_self
    | atMost n =>
      cases n with
      | zero => exact absurd rfl hne
      | succ n => exact mem_cons_self
  obtain ⟨step, hstep, hlt⟩ := hb.lostAt _ (congrArg Prod.fst hrep) _ hmem
  obtain rfl := Option.some.inj hstep
  have hle := (stepCmp_ne_lt_iff rc hmx hmz .rfc4271).mp hlt
  have hbeats : lexAll (steps rc .rfc4271) z.1 x.1 = .lt := by
    rw [lexAll_steps_rfc4271]
    exact (IndexedMedCycle.medCycle hcyc).lt
  exact OrientedCmp.not_isLE_of_lt hbeats hle

end bookkeeping

/-- **Every record is reported once and every alternative with a step where it does not beat the
best path, whatever the sort does, exactly when MED is not compared, no alternative is asked for,
or MED closes no cycle.** -/
theorem bookkeeping_iff {rc : Routecore} (hrc : rc.Lawful) (records : List Record)
    (info : IngressId → Option IngressInfo) (options : BestPathOptions) :
    (∀ sort, Bookkeeping sort rc records info options) ↔
      (options.strategy = .skipMed ∨ options.alternatives = .atMost 0 ∨
        ∀ x ∈ (candidatesOf rc records info).zipIdx, ∀ y ∈ (candidatesOf rc records info).zipIdx,
        ∀ z ∈ (candidatesOf rc records info).zipIdx, ¬ IndexedMedCycle rc x y z) := by
  constructor
  · intro h
    obtain ⟨strategy, alternatives⟩ := options
    cases strategy with
    | skipMed => exact .inl rfl
    | rfc4271 =>
      refine .inr (or_iff_not_imp_left.mpr fun hne x hx y hy z hz hcyc => ?_)
      obtain ⟨sort, rest, hr⟩ := exists_sort_ranking_cycle hrc
        (fun c hc => candidatesOf_eligible hc) hx hy hz hcyc
      exact not_bookkeeping_of_ranking hrc (fst_mem_of_mem_zipIdx hx)
        (fst_mem_of_mem_zipIdx hz) hcyc hr hne (h sort)
  · rintro (hs | hnone | hn) sort
    · exact bookkeeping_of_totalOn hrc ((totalOn_indexedCmp_iff rc _ _).mpr (.inl hs))
    · refine bookkeeping_of_lostAt fun best rest hr alt halt => ?_
      rw [hnone] at halt
      cases halt
    · exact bookkeeping_of_totalOn hrc ((totalOn_indexedCmp_iff rc _ _).mpr (.inr hn))

/-- one route of each neighbour -/
theorem bookkeeping_two_neighbors :
    Bookkeeping SortBy.insertion Routecore.reference [medRoute 1 1 10, medRoute 2 2 0] circleInfo
      ⟨.rfc4271, .all⟩ :=
  (bookkeeping_iff Routecore.reference_lawful [medRoute 1 1 10, medRoute 2 2 0] circleInfo
    ⟨.rfc4271, .all⟩).mpr (.inr (.inr (by decide))) SortBy.insertion

/-- the route of ingress 3 is said to have lost to that of ingress 1 at MED, where it beats it -/
theorem circle_lostAt_med :
    (select SortBy.insertion Routecore.reference circleRecords circleInfo
        ⟨.rfc4271, .all⟩).1.map (·.candidate.mui) = some 1 ∧
    ((select SortBy.insertion Routecore.reference circleRecords circleInfo
        ⟨.rfc4271, .all⟩).2.1.map fun alt => (alt.candidate.mui, alt.candidate.med, alt.step)) =
      [(2, 0, some .bgpIdentifier), (3, 0, some .med)] ∧
    ¬ Bookkeeping SortBy.insertion Routecore.reference circleRecords circleInfo
      ⟨.rfc4271, .all⟩ := by
  refine ⟨by decide, by decide, fun h => ?_⟩
  have hbeats : ∃ best, (select SortBy.insertion Routecore.reference circleRecords circleInfo
      ⟨.rfc4271, .all⟩).1 = some best ∧
      ∃ alt ∈ (select SortBy.insertion Routecore.reference circleRecords circleInfo
        ⟨.rfc4271, .all⟩).2.1, alt.step = some .med ∧
        stepCmp Routecore.reference .rfc4271 .med alt.candidate best.candidate = .lt :=
    ⟨_, rfl, by decide⟩
  obtain ⟨best, hb, alt, halt, hstep, hlt⟩ := hbeats
  obtain ⟨step, hstep', hne⟩ := h.lostAt best hb alt halt
  rw [hstep] at hstep'
  obtain rfl := Option.some.inj hstep'
  exact hne hlt

end Netom
