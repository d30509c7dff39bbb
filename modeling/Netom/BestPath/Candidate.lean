import Netom.Types

/-!
# Best path selection: candidates and their comparison

`classify` turns a stored record into a `Candidate` of the decision process of RFC 4271 section
9.1, or says why it cannot be one.  `decisiveStep` compares two candidates step by step and names
the step that separated them; `Candidate.compare` is the ranking itself, which the library
`routecore` computes.

* `Routecore`  what is called of that library: path lengths, neighbours, eligibility, order;
* `Routecore.Lawful`  what its documentation says of them;
* `steps`  the criteria, as a list of comparators;
* `decisiveStep_eq`  on routes that carry the mandatory attributes, `decisiveStep` is the
  lexicographic comparison of `steps`;
* `compare_eq`  and so is `Candidate.compare` on the candidates that `classify` accepts.
-/

namespace Netom
open Cmp Std Option List

/-! ## query options, steps and reasons -/

inductive Strategy where
  | rfc4271
  | skipMed
  deriving DecidableEq, Repr

inductive Alternatives where
  | all
  | atMost (n : Nat)
  deriving DecidableEq, Repr

structure BestPathOptions where
  strategy : Strategy
  alternatives : Alternatives
  deriving DecidableEq, Repr

/-- the steps of the decision process; `interiorCost` is in the list of the RFC and never
decides -/
inductive DecisionStep where
  | degreeOfPreference
  | asPathLength
  | origin
  | med
  | peerType
  | interiorCost
  | bgpIdentifier
  | clusterListLength
  | peerAddress
  | tie
  deriving DecidableEq, Repr

inductive IneligibleReason where
  | unknownIngress
  | unknownPeerAddress
  | malformedPathAttributes
  | missingOrigin
  | missingAsPath
  | ebgpWithoutNeighbour
  | asPathLoop
  deriving DecidableEq, Repr

/-- an input of the decision process that had to be guessed -/
inductive Assumed where
  | routeSource
  | bgpIdentifier
  | as4Path
  deriving DecidableEq, Repr

inductive OrdRouteSource where
  | ebgp
  | ibgp
  deriving DecidableEq, Repr

def OrdRouteSource.rank : OrdRouteSource → Nat
  | .ebgp => 0
  | .ibgp => 1

/-! ## the routecore library -/

/-- what `TiebreakerInfo::new` is given; the degree of preference is always left unset -/
structure TiebreakerInfo where
  source : OrdRouteSource
  degreeOfPreference : Option Nat
  localAsn : Asn
  bgpIdentifier : BgpId
  peerAddr : IpAddr
  deriving DecidableEq, Repr

structure OrdRoute where
  paMap : PaMap
  tiebreakers : TiebreakerInfo
  deriving DecidableEq, Repr

/-- The functions of `routecore` that selection calls.  `eligible` is the check of the `OrdRoute`
constructors, with the text of the `DecisionError`; `cmp` is the `Ord` of `OrdRoute` under a
strategy. -/
structure Routecore where
  hopCountPathSelection : HopPath → Nat
  neighborPathSelection : HopPath → Option Asn
  eligible : OrdRoute → Except String Unit
  cmp : Strategy → OrdRoute → OrdRoute → Ordering

/-! ## candidates -/

structure Candidate where
  mui : IngressId
  status : RouteStatus
  pamap : RotondaPaMap
  paMap : PaMap
  routeSource : OrdRouteSource
  localAsn : Asn
  bgpIdentifier : BgpId
  peerAddr : IpAddr
  assumed : List Assumed
  deriving DecidableEq, Repr

structure Excluded where
  mui : IngressId
  status : RouteStatus
  pamap : RotondaPaMap
  reason : IneligibleReason
  deriving DecidableEq, Repr

def unknownBgpId : BgpId := 0xffffffff

def unknownAsn : Asn := 0

namespace Candidate
variable (rc : Routecore) (c : Candidate)

def tiebreakers : TiebreakerInfo :=
  ⟨c.routeSource, none, c.localAsn, c.bgpIdentifier, c.peerAddr⟩

def ordRoute : OrdRoute := ⟨c.paMap, c.tiebreakers⟩

/-- LOCAL_PREF counts for IBGP routes only -/
def degreeOfPreference : Nat :=
  if c.routeSource = .ibgp then c.paMap.localPref.getD 0 else 0

def neighborAsn : Asn :=
  (c.paMap.hopPath.bind rc.neighborPathSelection).getD c.localAsn

def effectiveBgpId : BgpId := c.paMap.originatorId.getD c.bgpIdentifier

def clusterListLen : Nat := (c.paMap.clusterIds.map length).getD 0

end Candidate

/-! ## classification -/

def isConfed : Hop → Bool
  | .segment .confedSequence _ => true
  | .segment .confedSet _ => true
  | _ => false

/-- the path without its leading confederation segments, if there are any -/
def stripLeadingConfed (path : HopPath) : Option HopPath :=
  if path.head?.any isConfed then some (path.dropWhile isConfed) else none

def asPathContains (path : HopPath) (asn : Asn) : Bool :=
  path.any fun
    | .asn a => a == asn
    | .segment _ asns => asns.contains asn

/-- every attribute parsed and put in the map, `none` if one does not parse -/
def buildPaMap (pamap : RotondaPaMap) : Option PaMap :=
  pamap.pathAttributes.foldlM (fun out pa => pa.map out.insert) PaMap.empty

/-- the text of a `DecisionError` is all there is to tell its three kinds apart -/
def ineligibleReason (msg : String) : IneligibleReason :=
  if "ORIGIN".toList <:+: msg.toList then .missingOrigin
  else if "missing mandatory AS_PATH".toList <:+: msg.toList then .missingAsPath
  else .ebgpWithoutNeighbour

def checkEligible (rc : Routecore) (c : Candidate) : Except IneligibleReason Unit :=
  (rc.eligible c.ordRoute).mapError ineligibleReason

/-- EBGP or IBGP, and whether that is a guess -/
def resolveRouteSource (confederation : Bool) (localAsn remoteAsn : Option Asn) :
    OrdRouteSource × List Assumed :=
  if confederation then (.ibgp, [])
  else match localAsn, remoteAsn with
    | some l, some r => if l = r then (.ibgp, []) else (.ebgp, [])
    | _, _ => (.ebgp, [.routeSource])

/-- the candidate that `classify` builds before its last two checks -/
def toCandidate (record : Record) (info : IngressInfo) (peerAddr : IpAddr) (paMap : PaMap) :
    Candidate :=
  let confederation := paMap.hopPath.any (·.any isConfed)
  let source := resolveRouteSource confederation info.localAsn info.remoteAsn
  let idAssumed := if info.bgpId.isNone then [Assumed.bgpIdentifier] else []
  let as4Assumed := if paMap.as4Path.isSome then [Assumed.as4Path] else []
  { mui := record.multiUniqId
    status := record.status
    pamap := record.pamap
    -- only the copy that is compared is normalised
    paMap := match paMap.hopPath.bind stripLeadingConfed with
      | some stripped => { paMap with hopPath := some stripped }
      | none => paMap
    routeSource := source.1
    localAsn := info.localAsn.getD unknownAsn
    bgpIdentifier := info.bgpId.getD unknownBgpId
    peerAddr := peerAddr
    assumed := source.2 ++ idAssumed ++ as4Assumed }

/-- the path as received, or its AS4_PATH, contains the local AS of the session -/
def asPathLoops (info : IngressInfo) (paMap : PaMap) : Bool :=
  info.localAsn.any fun asn =>
    (paMap.hopPath.toList ++ paMap.as4Path.toList).any (asPathContains · asn)

def classify (rc : Routecore) (record : Record) (sessionInfo : Option IngressInfo) :
    Except Excluded Candidate :=
  let exclude := fun reason =>
    Except.error ⟨record.multiUniqId, record.status, record.pamap, reason⟩
  match sessionInfo with
  | none => exclude .unknownIngress
  | some info =>
    match info.remoteAddr with
    | none => exclude .unknownPeerAddress
    | some peerAddr =>
      match buildPaMap record.pamap with
      | none => exclude .malformedPathAttributes
      | some paMap =>
        let candidate := toCandidate record info peerAddr paMap
        if asPathLoops info paMap then exclude .asPathLoop
        else match checkEligible rc candidate with
          | .error reason => exclude reason
          | .ok _ => .ok candidate

/-! ## comparison -/

/-- the outcome of one step, or that of the steps after it -/
def decided (ord : Ordering) (step : DecisionStep) (rest : Ordering × DecisionStep) :
    Ordering × DecisionStep :=
  if ord ≠ .eq then (ord, step) else rest

lemma decided_fst (ord : Ordering) (step : DecisionStep) (rest : Ordering × DecisionStep) :
    (decided ord step rest).1 = ord.then rest.1 := by
  cases ord <;> rfl

def decisiveStep (rc : Routecore) (a b : Candidate) (strategy : Strategy) :
    Ordering × DecisionStep :=
  -- higher degree of preference wins, so this comparison is reversed
  decided (compare b.degreeOfPreference a.degreeOfPreference) .degreeOfPreference <|
  decided
    (match a.paMap.hopPath, b.paMap.hopPath with
      | some x, some y => compare (rc.hopCountPathSelection x) (rc.hopCountPathSelection y)
      | _, _ => .eq) .asPathLength <|
  decided
    (match a.paMap.origin, b.paMap.origin with
      | some x, some y => compare x.rank y.rank
      | _, _ => .eq) .origin <|
  -- a missing MED is the lowest possible value
  decided
    (if strategy = .rfc4271 ∧ a.neighborAsn rc = b.neighborAsn rc then
      compare (a.paMap.multiExitDisc.getD 0) (b.paMap.multiExitDisc.getD 0)
    else .eq) .med <|
  decided (compare a.routeSource.rank b.routeSource.rank) .peerType <|
  decided (compare a.effectiveBgpId.toNat b.effectiveBgpId.toNat) .bgpIdentifier <|
  decided (compare a.clusterListLen b.clusterListLen) .clusterListLength <|
  decided (a.peerAddr.cmp b.peerAddr) .peerAddress (.eq, .tie)

lemma decided_tie_iff {ord : Ordering} {step : DecisionStep} {rest : Ordering × DecisionStep}
    (hs : step ≠ .tie) (hr : rest.2 = .tie ↔ rest.1 = .eq) :
    (decided ord step rest).2 = .tie ↔ (decided ord step rest).1 = .eq := by
  cases ord with
  | lt | gt => exact ⟨fun h => absurd h hs, fun h => by cases h⟩
  | eq => exact hr

lemma decisiveStep_tie_iff (rc : Routecore) (a b : Candidate) (strategy : Strategy) :
    (decisiveStep rc a b strategy).2 = .tie ↔ (decisiveStep rc a b strategy).1 = .eq := by
  unfold decisiveStep
  repeat (apply decided_tie_iff (by decide))
  exact ⟨fun _ => rfl, fun _ => rfl⟩

/-- the ranking of two candidates: the order of `routecore`, on routes it accepts -/
def Candidate.compare (rc : Routecore) (a b : Candidate) (strategy : Strategy) :
    Except IneligibleReason Ordering := do
  (rc.eligible a.ordRoute).mapError ineligibleReason
  (rc.eligible b.ordRoute).mapError ineligibleReason
  return rc.cmp strategy a.ordRoute b.ordRoute

/-- tied on every criterion that is a real preference -/
def equalThroughStepE (rc : Routecore) (a b : Candidate) (strategy : Strategy) : Bool :=
  match (decisiveStep rc a b strategy).2 with
  | .bgpIdentifier | .clusterListLength | .peerAddress | .tie => true
  | _ => false

/-- What `routecore` documents: a route without ORIGIN or AS_PATH is not eligible, and its order
is the comparison that `decisiveStep` mirrors. -/
structure Routecore.Lawful (rc : Routecore) : Prop where
  eligible_origin : ∀ r, rc.eligible r = .ok () → r.paMap.origin.isSome
  eligible_asPath : ∀ r, rc.eligible r = .ok () → r.paMap.hopPath.isSome
  cmp_decisiveStep : ∀ strategy (a b : Candidate), rc.eligible a.ordRoute = .ok () →
    rc.eligible b.ordRoute = .ok () →
    rc.cmp strategy a.ordRoute b.ordRoute = (decisiveStep rc a b strategy).1

/-! ## the criteria as comparators -/

section steps
variable (rc : Routecore)

def Candidate.hops (c : Candidate) : Nat :=
  (c.paMap.hopPath.map rc.hopCountPathSelection).getD 0

def Candidate.originRank (c : Candidate) : Nat := (c.paMap.origin.map Origin.rank).getD 0

def Candidate.med (c : Candidate) : Nat := c.paMap.multiExitDisc.getD 0

/-- phase 1 and steps a, b -/
def preSteps : List (Candidate → Candidate → Ordering) :=
  [fun a b => compareOn Candidate.degreeOfPreference b a, compareOn (Candidate.hops rc),
    compareOn Candidate.originRank]

/-- step c -/
def medStep : Strategy → Candidate → Candidate → Ordering
  | .rfc4271 => withinGroup (Candidate.neighborAsn rc) Candidate.med
  | .skipMed => fun _ _ => .eq

/-- steps d to g; step e has no inputs here -/
def postSteps : List (Candidate → Candidate → Ordering) :=
  [compareOn (fun c => c.routeSource.rank), fun _ _ => .eq,
    compareOn (fun c => c.effectiveBgpId.toNat), compareOn Candidate.clusterListLen,
    fun a b => a.peerAddr.cmp b.peerAddr]

def steps (strategy : Strategy) : List (Candidate → Candidate → Ordering) :=
  preSteps rc ++ medStep rc strategy :: postSteps

lemma transCmp_const_eq {α : Type} : TransCmp (fun _ _ : α => Ordering.eq) where
  eq_swap := rfl
  isLE_trans _ _ := rfl

lemma transCmp_preSteps : ∀ c ∈ preSteps rc, TransCmp c := by
  intro c hc
  simp only [preSteps, mem_cons, not_mem_nil, or_false] at hc
  rcases hc with rfl | rfl | rfl
  · exact TransCmp.opposite
  · infer_instance
  · infer_instance

lemma transCmp_postSteps : ∀ c ∈ postSteps, TransCmp c := by
  intro c hc
  simp only [postSteps, mem_cons, not_mem_nil, or_false] at hc
  rcases hc with rfl | rfl | rfl | rfl | rfl
  · infer_instance
  · exact transCmp_const_eq
  · infer_instance
  · infer_instance
  · exact { eq_swap := OrientedCmp.eq_swap, isLE_trans := TransCmp.isLE_trans }

instance : TransCmp (lexAll (preSteps rc)) := transCmp_lexAll (transCmp_preSteps rc)
instance : TransCmp (lexAll postSteps) := transCmp_lexAll transCmp_postSteps

lemma orientedCmp_steps (strategy : Strategy) : ∀ c ∈ steps rc strategy, OrientedCmp c := by
  intro c hc
  rcases mem_append.mp hc with hc | hc
  · exact (transCmp_preSteps rc c hc).toOrientedCmp
  · rcases mem_cons.mp hc with rfl | hc
    · cases strategy with
      | rfc4271 => exact inferInstanceAs (OrientedCmp (withinGroup _ _))
      | skipMed => exact transCmp_const_eq.toOrientedCmp
    · exact (transCmp_postSteps c hc).toOrientedCmp

instance (strategy : Strategy) : OrientedCmp (lexAll (steps rc strategy)) :=
  orientedCmp_lexAll (orientedCmp_steps rc strategy)

lemma lexAll_steps (strategy : Strategy) (a b : Candidate) :
    lexAll (steps rc strategy) a b = (lexAll (preSteps rc) a b).then
      ((medStep rc strategy a b).then (lexAll postSteps a b)) := by
  rw [steps, lexAll_append, lexAll_cons]

def Candidate.Mandatory (c : Candidate) : Prop := c.paMap.origin.isSome ∧ c.paMap.hopPath.isSome

lemma medStep_eq (strategy : Strategy) (a b : Candidate) :
    (if strategy = .rfc4271 ∧ a.neighborAsn rc = b.neighborAsn rc then
      compare (a.paMap.multiExitDisc.getD 0) (b.paMap.multiExitDisc.getD 0)
    else .eq) = medStep rc strategy a b := by
  cases strategy with
  | rfc4271 =>
    show _ = if a.neighborAsn rc = b.neighborAsn rc then compare a.med b.med else .eq
    simp only [true_and]
    rfl
  | skipMed => rfl

lemma decisiveStep_steps {a b : Candidate} (ha : a.Mandatory) (hb : b.Mandatory)
    (strategy : Strategy) : decisiveStep rc a b strategy =
      decided (compareOn Candidate.degreeOfPreference b a) .degreeOfPreference
      (decided (compareOn (Candidate.hops rc) a b) .asPathLength
      (decided (compareOn Candidate.originRank a b) .origin
      (decided (medStep rc strategy a b) .med
      (decided (compareOn (fun c => c.routeSource.rank) a b) .peerType
      (decided (compareOn (fun c => c.effectiveBgpId.toNat) a b) .bgpIdentifier
      (decided (compareOn Candidate.clusterListLen a b) .clusterListLength
      (decided (a.peerAddr.cmp b.peerAddr) .peerAddress (.eq, .tie)))))))) := by
  obtain ⟨oa, hoa⟩ := isSome_iff_exists.mp ha.1
  obtain ⟨pa, hpa⟩ := isSome_iff_exists.mp ha.2
  obtain ⟨ob, hob⟩ := isSome_iff_exists.mp hb.1
  obtain ⟨pb, hpb⟩ := isSome_iff_exists.mp hb.2
  have hhops : compareOn (Candidate.hops rc) a b =
      compare (rc.hopCountPathSelection pa) (rc.hopCountPathSelection pb) := by
    simp only [compareOn, Candidate.hops, hpa, hpb, map_some, getD_some]
  have horig : compareOn Candidate.originRank a b = compare oa.rank ob.rank := by
    simp only [compareOn, Candidate.originRank, hoa, hob, map_some, getD_some]
  rw [hhops, horig, ← medStep_eq]
  unfold decisiveStep
  rw [hoa, hob, hpa, hpb]
  rfl

lemma decisiveStep_eq {a b : Candidate} (ha : a.Mandatory) (hb : b.Mandatory)
    (strategy : Strategy) :
    (decisiveStep rc a b strategy).1 = lexAll (steps rc strategy) a b := by
  rw [decisiveStep_steps rc ha hb, lexAll_steps]
  simp only [decided_fst, preSteps, postSteps, lexAll_cons, lexAll_nil, Ordering.then_assoc,
    Ordering.then_eq, Ordering.eq_then]

end steps

/-! ## accepted candidates -/

section accepted
variable {rc : Routecore} (hrc : rc.Lawful)

lemma checkEligible_ok {c : Candidate} (h : checkEligible rc c = .ok ()) :
    rc.eligible c.ordRoute = .ok () := by
  unfold checkEligible at h
  cases he : rc.eligible c.ordRoute with
  | error msg => rw [he] at h; cases h
  | ok u => rfl

lemma classify_eligible {r : Record} {info : Option IngressInfo} {c : Candidate}
    (h : classify rc r info = .ok c) : rc.eligible c.ordRoute = .ok () := by
  unfold classify at h
  cases info with
  | none => cases h
  | some info =>
    cases haddr : info.remoteAddr with
    | none => simp [haddr] at h
    | some addr =>
      cases hmap : buildPaMap r.pamap with
      | none => simp [haddr, hmap] at h
      | some paMap =>
        simp only [haddr, hmap] at h
        by_cases hl : asPathLoops info paMap = true
        · simp [hl] at h
        · cases he : checkEligible rc (toCandidate r info addr paMap) with
          | error reason => simp [hl, he] at h
          | ok u =>
            simp only [hl, he, Bool.false_eq_true, if_false, Except.ok.injEq] at h
            subst h
            exact checkEligible_ok he

def Candidate.Eligible (rc : Routecore) (c : Candidate) : Prop := rc.eligible c.ordRoute = .ok ()

include hrc

lemma Candidate.Eligible.mandatory {c : Candidate} (h : c.Eligible rc) : c.Mandatory :=
  ⟨hrc.eligible_origin _ h, hrc.eligible_asPath _ h⟩

/-- `compare` cannot fail on accepted candidates, and it is the lexicographic comparison -/
lemma compare_eq {a b : Candidate} (ha : a.Eligible rc) (hb : b.Eligible rc)
    (strategy : Strategy) :
    Candidate.compare rc a b strategy = .ok (lexAll (steps rc strategy) a b) := by
  have ha' : rc.eligible a.ordRoute = .ok () := ha
  have hb' : rc.eligible b.ordRoute = .ok () := hb
  unfold Candidate.compare
  rw [ha', hb', hrc.cmp_decisiveStep strategy a b ha hb,
    decisiveStep_eq rc (ha.mandatory hrc) (hb.mandatory hrc)]
  rfl

end accepted

/-! ## a routecore -/

/-- an AS_SET counts as one hop, a confederation segment as none -/
def hopCount (path : HopPath) : Nat :=
  (path.map fun
    | .asn _ => 1
    | .segment .set _ => 1
    | .segment .sequence asns => asns.length
    | .segment .confedSequence _ => 0
    | .segment .confedSet _ => 0).sum

/-- the first hop, if it is a bare AS -/
def firstAsn : HopPath → Option Asn
  | .asn a :: _ => some a
  | _ => none

/-- the library as its documentation describes it -/
def Routecore.reference : Routecore where
  hopCountPathSelection := hopCount
  neighborPathSelection := firstAsn
  eligible r :=
    if r.paMap.origin.isNone then .error "missing mandatory ORIGIN"
    else match r.paMap.hopPath with
      | none => .error "missing mandatory AS_PATH"
      | some path =>
        if r.tiebreakers.source = .ebgp ∧ (firstAsn path).isNone then
          .error "EBGP route without neighbour AS"
        else .ok ()
  cmp strategy x y :=
    let dop := fun r : OrdRoute =>
      if r.tiebreakers.source = .ibgp then r.paMap.localPref.getD 0 else 0
    let hops := fun r : OrdRoute => (r.paMap.hopPath.map hopCount).getD 0
    let neighbor := fun r : OrdRoute =>
      (r.paMap.hopPath.bind firstAsn).getD r.tiebreakers.localAsn
    let med := fun r : OrdRoute => r.paMap.multiExitDisc.getD 0
    let id := fun r : OrdRoute => r.paMap.originatorId.getD r.tiebreakers.bgpIdentifier
    let clusters := fun r : OrdRoute => (r.paMap.clusterIds.map length).getD 0
    (compare (dop y) (dop x)).then <| (compare (hops x) (hops y)).then <|
    (compare ((x.paMap.origin.map Origin.rank).getD 0)
      ((y.paMap.origin.map Origin.rank).getD 0)).then <|
    (if strategy = .rfc4271 ∧ neighbor x = neighbor y then compare (med x) (med y) else .eq).then <|
    (compare x.tiebreakers.source.rank y.tiebreakers.source.rank).then <|
    (compare (id x).toNat (id y).toNat).then <| (compare (clusters x) (clusters y)).then <|
    x.tiebreakers.peerAddr.cmp y.tiebreakers.peerAddr

lemma Routecore.reference_eligible {r : OrdRoute}
    (h : Routecore.reference.eligible r = .ok ()) :
    r.paMap.origin.isSome ∧ r.paMap.hopPath.isSome := by
  unfold Routecore.reference at h
  cases ho : r.paMap.origin with
  | none => simp [ho] at h
  | some o =>
    cases hp : r.paMap.hopPath with
    | none => simp [ho, hp] at h
    | some p => exact ⟨rfl, rfl⟩

lemma Routecore.reference_lawful : Routecore.reference.Lawful where
  eligible_origin r h := (reference_eligible h).1
  eligible_asPath r h := (reference_eligible h).2
  cmp_decisiveStep strategy a b ha hb := by
    rw [decisiveStep_eq _ (reference_eligible ha) (reference_eligible hb), lexAll_steps,
      ← medStep_eq]
    simp only [preSteps, postSteps, lexAll_cons, lexAll_nil, Ordering.then_assoc,
      Ordering.then_eq, Ordering.eq_then]
    rfl

end Netom
