import Netom.BestPath.Candidate

/-!
# Best path selection: ranking the records of one prefix

`select` classifies the records, sorts the indices of the candidates with `Candidate.compare` and
the index as the last tie break, and reports the first one with its alternatives.

* `ranking_perm`, `ranking_sorted`  what the sort gives: all candidates, in order when the
  comparison is one;
* `totalOn_steps_iff`  the comparison is an order on a list of candidates unless the
  list has a `MedCycle`;
* `select_order_independent_iff`  which is also when the order of the records does not matter.

MED counts only between routes of one neighbour AS.  Two routes of one neighbour and a third of
another can therefore beat each other in a circle, and then the result depends on the order in
which the store returns the records.
-/

namespace Netom
open Cmp Std List Prod

/-! ## select -/

/-- the session a record belongs to, and the ADD-PATH child it came through -/
structure RouteSource where
  ingressId : IngressId
  pathId : Option Nat
  internalPathIngressId : Option IngressId
  deriving DecidableEq, Repr

def RouteSource.resolve (recordIngressId : IngressId) (info : Option IngressInfo) : RouteSource :=
  if info.bind (·.ingressType) = some .bgpPath then
    { ingressId := (info.bind (·.parentIngress)).getD recordIngressId
      pathId := info.bind (·.pathId)
      internalPathIngressId := some recordIngressId }
  else
    { ingressId := recordIngressId, pathId := none, internalPathIngressId := none }

structure Ranked where
  rank : Nat
  equalCost : Bool
  step : Option DecisionStep
  candidate : Candidate
  deriving DecidableEq, Repr

/-- the first alternatives, as many as are wanted -/
def Alternatives.take {α : Type} : Alternatives → List α → List α
  | .all, l => l
  | .atMost n, l => l.take n

section select
variable (sort : SortBy Nat) (rc : Routecore) (records : List Record)
  (ingressInfo : IngressId → Option IngressInfo) (strategy : Strategy)

def classifyRecord (record : Record) : Except Excluded Candidate :=
  let source := RouteSource.resolve record.multiUniqId (ingressInfo record.multiUniqId)
  classify rc record (ingressInfo source.ingressId)

def candidatesOf : List Candidate :=
  records.filterMap fun record => (classifyRecord rc ingressInfo record).toOption

def excludedOf : List Excluded :=
  records.filterMap fun record =>
    match classifyRecord rc ingressInfo record with
    | .ok _ => none
    | .error ex => some ex

/-- the comparison of two candidate indices that the sort is given -/
def rankOrder (candidates : List Candidate) (x y : Nat) : Ordering :=
  let ord := match candidates[x]?, candidates[y]? with
    | some a, some b => (a.compare rc b strategy).toOption.getD .eq
    | _, _ => .eq
  ord.then (compare x y)

def ranking (candidates : List Candidate) : List Candidate :=
  (sort.run (rankOrder rc strategy candidates) (List.range candidates.length)).filterMap
    (candidates[·]?)

/-- the best path with the step that separated it from the runner-up, and every alternative with
the step at which it lost to the best path -/
def report (options : BestPathOptions) : List Candidate → Option Ranked × List Ranked
  | [] => (none, [])
  | best :: rest =>
    let decidedBy := rest.head?.map fun second => (decisiveStep rc best second options.strategy).2
    let alternatives := rest.mapIdx fun i c =>
      { rank := i + 2
        equalCost := equalThroughStepE rc best c options.strategy
        step := some (decisiveStep rc best c options.strategy).2
        candidate := c }
    (some { rank := 1, equalCost := true, step := decidedBy, candidate := best },
      options.alternatives.take alternatives)

def select (options : BestPathOptions) : Option Ranked × List Ranked × List Excluded :=
  let candidates := candidatesOf rc records ingressInfo
  let ranked := report rc options (ranking sort rc options.strategy candidates)
  (ranked.1, ranked.2, excludedOf rc records ingressInfo)

end select

/-! ## what the sort gives -/

section ranking
variable {sort : SortBy Nat} {rc : Routecore} {strategy : Strategy}

lemma filterMap_range_getElem? {α : Type} (l : List α) :
    (List.range l.length).filterMap (l[·]?) = l := by
  induction l with
  | nil => rfl
  | cons x l ih =>
    rw [length_cons, range_succ_eq_map, filterMap_cons, filterMap_map]
    show x :: filterMap (fun i => l[i]?) (range l.length) = x :: l
    rw [ih]

lemma ranking_perm (candidates : List Candidate) :
    (ranking sort rc strategy candidates).Perm candidates := by
  have h := (sort.perm (rankOrder rc strategy candidates)
    (range candidates.length)).filterMap (candidates[·]?)
  rwa [filterMap_range_getElem?] at h

lemma candidatesOf_eligible {records : List Record}
    {ingressInfo : IngressId → Option IngressInfo} {c : Candidate}
    (h : c ∈ candidatesOf rc records ingressInfo) : c.Eligible rc := by
  obtain ⟨r, -, hr⟩ := mem_filterMap.mp h
  cases hc : classifyRecord rc ingressInfo r with
  | error ex => rw [hc] at hr; cases hr
  | ok c' =>
    rw [hc] at hr
    cases hr
    exact classify_eligible hc

lemma candidatesOf_perm {records records' : List Record}
    (ingressInfo : IngressId → Option IngressInfo) (h : records'.Perm records) :
    (candidatesOf rc records' ingressInfo).Perm (candidatesOf rc records ingressInfo) :=
  h.filterMap _

variable (hrc : rc.Lawful) {candidates : List Candidate}
  (hel : ∀ c ∈ candidates, c.Eligible rc)
include hrc hel

lemma rankOrder_eq {x y : Nat} {a b : Candidate} (ha : candidates[x]? = some a)
    (hb : candidates[y]? = some b) :
    rankOrder rc strategy candidates x y =
      (lexAll (steps rc strategy) a b).then (compare x y) := by
  have hae := hel a (mem_of_getElem? ha)
  have hbe := hel b (mem_of_getElem? hb)
  unfold rankOrder
  rw [ha, hb]
  show ((Candidate.compare rc a b strategy).toOption.getD .eq).then (compare x y) = _
  rw [compare_eq hrc hae hbe]
  rfl

/-- on the indices of `candidates` the sort compares the candidates paired with their index -/
def indexedCmp (rc : Routecore) (strategy : Strategy) (x y : Candidate × Nat) : Ordering :=
  (lexAll (steps rc strategy) x.1 y.1).then (compare x.2 y.2)

lemma totalOn_rankOrder_iff :
    TotalOn (rankOrder rc strategy candidates) (List.range candidates.length) ↔
      TotalOn (indexedCmp rc strategy) candidates.zipIdx := by
  have hz : candidates.zipIdx.map snd = range candidates.length := by
    rw [zipIdx_map_snd, range_eq_range']
  rw [← hz, totalOn_map]
  have he : ∀ p ∈ candidates.zipIdx, ∀ q ∈ candidates.zipIdx,
      rankOrder rc strategy candidates p.2 q.2 = indexedCmp rc strategy p q := by
    intro p hp q hq
    exact rankOrder_eq hrc hel (mem_zipIdx_iff_getElem?.mp hp)
      (mem_zipIdx_iff_getElem?.mp hq)
  constructor
  · intro h
    exact h.congr fun p hp q hq => (he p hp q hq).symm
  · intro h
    exact h.congr he

lemma ranking_sorted (ht : TotalOn (indexedCmp rc strategy) candidates.zipIdx) :
    (ranking sort rc strategy candidates).Pairwise
      (fun a b => (lexAll (steps rc strategy) a b).isLE) := by
  have hs := sort.sorted _ _ ((totalOn_rankOrder_iff hrc hel).mpr ht)
  refine pairwise_filterMap.mpr (hs.imp ?_)
  intro x y hxy a ha b hb
  rw [rankOrder_eq hrc hel ha hb] at hxy
  exact Ordering.isLE_left_of_isLE_then hxy

end ranking

/-! ## cycles through MED -/

/-- `c` has the lower MED of two routes `a`, `c` of one neighbour AS, all three are equal before
step c, and the steps after it put `a` before a route `b` of another neighbour and `b` before
`c` -/
abbrev MedCycle (rc : Routecore) : Candidate → Candidate → Candidate → Prop :=
  GroupCycle (lexAll (preSteps rc)) (Candidate.neighborAsn rc) Candidate.med (lexAll postSteps)

/-- the same for candidates at positions of a list: an equality of the steps after MED is broken by
the position -/
abbrev IndexedMedCycle (rc : Routecore) :
    Candidate × Nat → Candidate × Nat → Candidate × Nat → Prop :=
  GroupCycle (fun x y => lexAll (preSteps rc) x.1 y.1) (fun x => x.1.neighborAsn rc)
    (fun x => x.1.med) (fun x y => (lexAll postSteps x.1 y.1).then (compare x.2 y.2))

section cycles
variable (rc : Routecore)

instance : TransCmp (fun x y : Candidate × Nat => lexAll (preSteps rc) x.1 y.1) :=
  transCmp_pullback _ fst

instance : TransCmp (fun x y : Candidate × Nat =>
    (lexAll postSteps x.1 y.1).then (compare x.2 y.2)) :=
  have : TransCmp (fun x y : Candidate × Nat => lexAll postSteps x.1 y.1) :=
    transCmp_pullback _ fst
  inferInstanceAs (TransCmp (compareLex (fun x y : Candidate × Nat => lexAll postSteps x.1 y.1)
    (compareOn snd)))

lemma lexAll_steps_rfc4271 : lexAll (steps rc .rfc4271) =
    grouped (lexAll (preSteps rc)) (Candidate.neighborAsn rc) Candidate.med
      (lexAll postSteps) := by
  funext a b
  rw [lexAll_steps]
  rfl

lemma indexedCmp_rfc4271 : indexedCmp rc .rfc4271 =
    grouped (fun x y => lexAll (preSteps rc) x.1 y.1) (fun x => x.1.neighborAsn rc)
      (fun x => x.1.med) (fun x y => (lexAll postSteps x.1 y.1).then (compare x.2 y.2)) := by
  funext x y
  unfold indexedCmp
  rw [lexAll_steps, Ordering.then_assoc, Ordering.then_assoc]
  rfl

lemma transCmp_steps_skipMed : ∀ c ∈ steps rc .skipMed, TransCmp c := by
  intro c hc
  rcases mem_append.mp hc with hc | hc
  · exact transCmp_preSteps rc c hc
  · rcases mem_cons.mp hc with rfl | hc
    · exact transCmp_const_eq
    · exact transCmp_postSteps c hc

instance : TransCmp (lexAll (steps rc .skipMed)) := transCmp_lexAll (transCmp_steps_skipMed rc)

instance : TransCmp (indexedCmp rc .skipMed) :=
  have : TransCmp (fun x y : Candidate × Nat => lexAll (steps rc .skipMed) x.1 y.1) :=
    transCmp_pullback _ fst
  inferInstanceAs (TransCmp (compareLex
    (fun x y : Candidate × Nat => lexAll (steps rc .skipMed) x.1 y.1) (compareOn snd)))

/-- the comparison is an order on the candidates unless MED closes a cycle -/
lemma totalOn_steps_iff (strategy : Strategy) (l : List Candidate) :
    TotalOn (lexAll (steps rc strategy)) l ↔
      (strategy = .skipMed ∨ ∀ a ∈ l, ∀ b ∈ l, ∀ c ∈ l, ¬ MedCycle rc a b c) := by
  cases strategy with
  | rfc4271 =>
    rw [lexAll_steps_rfc4271, totalOn_grouped_iff]
    simp
  | skipMed => exact ⟨fun _ => Or.inl rfl, fun _ => TotalOn.of_transCmp _ l⟩

lemma totalOn_indexedCmp_iff (strategy : Strategy) (l : List (Candidate × Nat)) :
    TotalOn (indexedCmp rc strategy) l ↔
      (strategy = .skipMed ∨ ∀ a ∈ l, ∀ b ∈ l, ∀ c ∈ l, ¬ IndexedMedCycle rc a b c) := by
  cases strategy with
  | rfc4271 =>
    rw [indexedCmp_rfc4271, totalOn_grouped_iff]
    simp
  | skipMed => exact ⟨fun _ => Or.inl rfl, fun _ => TotalOn.of_transCmp _ l⟩

variable {rc}

lemma IndexedMedCycle.medCycle {x y z : Candidate × Nat} (h : IndexedMedCycle rc x y z) :
    MedCycle rc x.1 y.1 z.1 where
  pre_ab := h.pre_ab
  pre_bc := h.pre_bc
  same := h.same
  other := h.other
  better := h.better
  post_ab := Ordering.isLE_left_of_isLE_then h.post_ab
  post_bc := Ordering.isLE_left_of_isLE_then h.post_bc

lemma totalOn_indexedCmp {strategy : Strategy} {l : List Candidate}
    (h : TotalOn (lexAll (steps rc strategy)) l) :
    TotalOn (indexedCmp rc strategy) l.zipIdx := by
  rw [totalOn_steps_iff] at h
  rw [totalOn_indexedCmp_iff]
  refine h.imp_right ?_
  intro hn x hx y hy z hz hcyc
  exact hn x.1 (fst_mem_of_mem_zipIdx hx) y.1 (fst_mem_of_mem_zipIdx hy) z.1
    (fst_mem_of_mem_zipIdx hz) (IndexedMedCycle.medCycle hcyc)

end cycles

/-! ## the order of the records -/

/-- `compare` puts `a` before `b` or ties them -/
def RankLE (rc : Routecore) (strategy : Strategy) (a b : Candidate) : Prop :=
  ∃ ord, a.compare rc b strategy = .ok ord ∧ ord.isLE

/-- The comparison is transitive on the candidates of the records, and when no two of them tie on
all steps every permutation of the records gives the same best path and the same alternatives. -/
structure OrderIndependent (sort : SortBy Nat) (rc : Routecore) (records : List Record)
    (ingressInfo : IngressId → Option IngressInfo) (strategy : Strategy) : Prop where
  transitive : ∀ a ∈ candidatesOf rc records ingressInfo,
    ∀ b ∈ candidatesOf rc records ingressInfo, ∀ c ∈ candidatesOf rc records ingressInfo,
    RankLE rc strategy a b → RankLE rc strategy b c → RankLE rc strategy a c
  permutations : (candidatesOf rc records ingressInfo).Pairwise
      (fun a b => (decisiveStep rc a b strategy).2 ≠ .tie) →
    ∀ records', records'.Perm records → ∀ alternatives,
      (select sort rc records' ingressInfo ⟨strategy, alternatives⟩).1 =
        (select sort rc records ingressInfo ⟨strategy, alternatives⟩).1 ∧
      (select sort rc records' ingressInfo ⟨strategy, alternatives⟩).2.1 =
        (select sort rc records ingressInfo ⟨strategy, alternatives⟩).2.1

section orderIndependent
variable {sort : SortBy Nat} {rc : Routecore} (hrc : rc.Lawful)
include hrc

lemma rankLE_iff {strategy : Strategy} {a b : Candidate} (ha : a.Eligible rc)
    (hb : b.Eligible rc) :
    RankLE rc strategy a b ↔ (lexAll (steps rc strategy) a b).isLE := by
  unfold RankLE
  rw [compare_eq hrc ha hb]
  constructor
  · rintro ⟨ord, h, hle⟩
    cases h
    exact hle
  · intro h
    exact ⟨_, rfl, h⟩

lemma tie_iff {strategy : Strategy} {a b : Candidate} (ha : a.Eligible rc)
    (hb : b.Eligible rc) :
    (decisiveStep rc a b strategy).2 = .tie ↔ lexAll (steps rc strategy) a b = .eq := by
  rw [decisiveStep_tie_iff, decisiveStep_eq rc (ha.mandatory hrc) (hb.mandatory hrc)]

lemma ranking_eq_of_perm {strategy : Strategy} {cs cs' : List Candidate}
    (hel : ∀ c ∈ cs, c.Eligible rc) (hp : cs'.Perm cs)
    (ht : TotalOn (lexAll (steps rc strategy)) cs)
    (hn : cs.Pairwise (fun a b => lexAll (steps rc strategy) a b ≠ .eq)) :
    ranking sort rc strategy cs' = ranking sort rc strategy cs := by
  have hel' : ∀ c ∈ cs', c.Eligible rc := fun c hc => hel c (hp.mem_iff.mp hc)
  have ht' : TotalOn (lexAll (steps rc strategy)) cs' := ht.mono fun c hc => hp.mem_iff.mp hc
  have hr : (ranking sort rc strategy cs).Perm cs := ranking_perm cs
  have hr' : (ranking sort rc strategy cs').Perm cs' := ranking_perm cs'
  have hsymm : Std.Symm (fun a b => lexAll (steps rc strategy) a b ≠ .eq) :=
    ⟨fun a b h he => h (OrientedCmp.eq_symm he)⟩
  refine List.Perm.eq_of_pairwise ?_ (ranking_sorted hrc hel' (totalOn_indexedCmp ht'))
    (ranking_sorted hrc hel (totalOn_indexedCmp ht)) ((hr'.trans hp).trans hr.symm)
  intro a b ha hb hab hba
  have ha' : a ∈ cs := hp.mem_iff.mp (hr'.mem_iff.mp ha)
  have hb' : b ∈ cs := hr.mem_iff.mp hb
  by_contra hne
  refine hn.forall ha' hb' hne ?_
  exact OrientedCmp.isLE_antisymm hab hba

/-- **The order of the records does not matter exactly when MED closes no cycle.** -/
theorem select_order_independent_iff (sort : SortBy Nat) (records : List Record)
    (ingressInfo : IngressId → Option IngressInfo) (strategy : Strategy) :
    OrderIndependent sort rc records ingressInfo strategy ↔
      (strategy = .skipMed ∨
        ∀ a ∈ candidatesOf rc records ingressInfo, ∀ b ∈ candidatesOf rc records ingressInfo,
        ∀ c ∈ candidatesOf rc records ingressInfo, ¬ MedCycle rc a b c) := by
  have hel : ∀ c ∈ candidatesOf rc records ingressInfo, c.Eligible rc :=
    fun c hc => candidatesOf_eligible hc
  rw [← totalOn_steps_iff]
  constructor
  · intro h
    refine ⟨fun a _ b _ => OrientedCmp.eq_swap, fun a ha b hb c hc hab hbc => ?_⟩
    have hac := h.transitive a ha b hb c hc ((rankLE_iff hrc (hel a ha) (hel b hb)).mpr hab)
      ((rankLE_iff hrc (hel b hb) (hel c hc)).mpr hbc)
    exact (rankLE_iff hrc (hel a ha) (hel c hc)).mp hac
  · intro ht
    refine ⟨fun a ha b hb c hc hab hbc => ?_, fun hn records' hp alternatives => ?_⟩
    · rw [rankLE_iff hrc (hel a ha) (hel b hb)] at hab
      rw [rankLE_iff hrc (hel b hb) (hel c hc)] at hbc
      rw [rankLE_iff hrc (hel a ha) (hel c hc)]
      exact ht.trans a ha b hb c hc hab hbc
    · have hn' : (candidatesOf rc records ingressInfo).Pairwise
          (fun a b => lexAll (steps rc strategy) a b ≠ .eq) := by
        refine List.Pairwise.imp_of_mem ?_ hn
        intro a b ha hb h he
        exact h ((tie_iff hrc (hel a ha) (hel b hb)).mpr he)
      have hr : ranking sort rc strategy (candidatesOf rc records' ingressInfo) =
          ranking sort rc strategy (candidatesOf rc records ingressInfo) :=
        ranking_eq_of_perm hrc hel (candidatesOf_perm ingressInfo hp) ht hn'
      simp only [select, hr, and_self]

end orderIndependent

/-! ## three routes in a circle -/

/-- an EBGP session of the local AS 65000 with a peer of AS `asn` -/
def ebgpSession (asn : Asn) (id : BgpId) (addr : BitVec 32) : IngressInfo :=
  { IngressInfo.new with
    ingressType := some .bgp, state := some .connected, remoteAddr := some (.v4 addr),
    remoteAsn := some asn, bgpId := some id, localAsn := some 65000 }

/-- a route to AS 100 through AS `asn` with the given MED -/
def medRoute (mui : IngressId) (asn : Asn) (med : Nat) : Record where
  multiUniqId := mui
  status := .active
  pamap := ⟨.notChecked, true, [some (.origin .igp), some (.asPath [.asn asn, .asn 100]),
    some (.multiExitDisc med)]⟩

/-- two sessions with AS 1 and, between them by router id, one with AS 2 -/
def circleInfo : IngressId → Option IngressInfo
  | 1 => some (ebgpSession 1 1 1)
  | 2 => some (ebgpSession 2 2 2)
  | 3 => some (ebgpSession 1 3 3)
  | _ => none

def circleRecords : List Record := [medRoute 1 1 10, medRoute 2 2 0, medRoute 3 1 0]

/-- without MED the three routes are ranked alike in every order -/
theorem select_order_independent_circle_skipMed :
    OrderIndependent SortBy.insertion Routecore.reference circleRecords circleInfo .skipMed :=
  (select_order_independent_iff Routecore.reference_lawful SortBy.insertion circleRecords
    circleInfo .skipMed).mpr (Or.inl rfl)

/-- the best path of `circleRecords` in this order is the route of ingress 1, in another order
that of ingress 2, although no two of them tie -/
theorem select_circle_order_dependent :
    [medRoute 2 2 0, medRoute 3 1 0, medRoute 1 1 10].Perm circleRecords ∧
    (select SortBy.insertion Routecore.reference circleRecords circleInfo
      ⟨.rfc4271, .all⟩).1.map (·.candidate.mui) = some 1 ∧
    (select SortBy.insertion Routecore.reference
      [medRoute 2 2 0, medRoute 3 1 0, medRoute 1 1 10] circleInfo
      ⟨.rfc4271, .all⟩).1.map (·.candidate.mui) = some 2 ∧
    ¬ OrderIndependent SortBy.insertion Routecore.reference circleRecords circleInfo
      .rfc4271 := by
  have hp : [medRoute 2 2 0, medRoute 3 1 0, medRoute 1 1 10].Perm circleRecords := by decide
  have h1 : (select SortBy.insertion Routecore.reference circleRecords circleInfo
      ⟨.rfc4271, .all⟩).1.map (·.candidate.mui) = some 1 := by decide
  have h2 : (select SortBy.insertion Routecore.reference
      [medRoute 2 2 0, medRoute 3 1 0, medRoute 1 1 10] circleInfo
      ⟨.rfc4271, .all⟩).1.map (·.candidate.mui) = some 2 := by decide
  refine ⟨hp, h1, h2, fun h => ?_⟩
  have he := (h.permutations (by decide) _ hp .all).1
  rw [he, h1] at h2
  exact absurd h2 (by decide)

end Netom
