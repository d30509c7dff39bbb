import Netom.BestPath.Select

/-!
# Best path selection: AS paths

An AS_PATH is received as a list of segments.  `routecore` hands it on as hops: those of an
AS_SEQUENCE one by one, any other segment as one hop.  `classify` looks for the local AS in the path
as received, and compares a copy without the leading confederation segments.

* `hopsOf`  the hops of a list of segments;
* `Routecore.PathLaws` what `routecore` says of the length of a path and of its first hop;
* `externalNeighbor`  the neighbour AS in the terms of the segments;
* `classify_path`  **a loop is a loop through any segment of either path; otherwise the copy has
  the length of the path and the neighbour of its segments**.
-/

namespace Netom

/-! ## segments and hops -/

structure Segment where
  stype : SegmentType
  asns : List Asn
  deriving DecidableEq, Repr

def Segment.hops (s : Segment) : HopPath :=
  match s.stype with
  | .sequence => s.asns.map .asn
  | stype => [.segment stype s.asns]

def hopsOf (segments : List Segment) : HopPath := segments.flatMap Segment.hops

def SegmentType.isConfed : SegmentType → Bool
  | .confedSequence => true
  | .confedSet => true
  | _ => false

/-- the first AS of the first segment outside the confederation, if that is a sequence; a sequence
of no AS is no segment of the path -/
def externalNeighbor : List Segment → Option Asn
  | [] => none
  | ⟨.sequence, []⟩ :: segments => externalNeighbor segments
  | ⟨.sequence, asn :: _⟩ :: _ => some asn
  | ⟨stype, _⟩ :: segments => if stype.isConfed then externalNeighbor segments else none

/-- the documented reading of a path: an AS_SET counts as one hop and a confederation segment as
none, and the neighbour is the first hop if that is a bare AS -/
structure Routecore.PathLaws (rc : Routecore) : Prop where
  hopCount : ∀ path, rc.hopCountPathSelection path = hopCount path
  neighbor : ∀ path, rc.neighborPathSelection path = firstAsn path

lemma Routecore.reference_pathLaws : Routecore.reference.PathLaws where
  hopCount _ := rfl
  neighbor _ := rfl

/-! ## the local AS in a path -/

lemma asPathContains_hops (s : Segment) (asn : Asn) :
    asPathContains s.hops asn = true ↔ asn ∈ s.asns := by
  obtain ⟨stype, asns⟩ := s
  cases stype with
  | sequence =>
    simp only [Segment.hops, asPathContains, List.any_map, List.any_eq_true, Function.comp_apply,
      beq_iff_eq, exists_eq_right]
  | set | confedSequence | confedSet => simp [Segment.hops, asPathContains]

lemma asPathContains_hopsOf (segments : List Segment) (asn : Asn) :
    asPathContains (hopsOf segments) asn = true ↔ ∃ s ∈ segments, asn ∈ s.asns := by
  induction segments with
  | nil => exact ⟨nofun, nofun⟩
  | cons s segments ih =>
    have hsplit : asPathContains (hopsOf (s :: segments)) asn =
        (asPathContains s.hops asn || asPathContains (hopsOf segments) asn) := List.any_append
    rw [hsplit, Bool.or_eq_true, asPathContains_hops, ih]
    simp only [List.mem_cons, exists_eq_or_imp]

/-! ## without the leading confederation segments -/

lemma getD_stripLeadingConfed (path : HopPath) :
    (stripLeadingConfed path).getD path = path.dropWhile isConfed := by
  cases path with
  | nil => rfl
  | cons h path =>
    by_cases hh : isConfed h = true
    · rw [stripLeadingConfed, List.head?_cons, Option.any_some, if_pos hh, Option.getD_some]
    · rw [stripLeadingConfed, List.head?_cons, Option.any_some, if_neg hh,
        List.dropWhile_cons_of_neg hh, Option.getD_none]

lemma hopCount_cons_confed {h : Hop} (hh : isConfed h = true) (path : HopPath) :
    hopCount (h :: path) = hopCount path := by
  obtain ⟨asn⟩ | ⟨stype, asns⟩ := h
  · cases hh
  · cases stype with
    | set | sequence => cases hh
    | confedSequence | confedSet => exact Nat.zero_add _

lemma hopCount_dropWhile (path : HopPath) :
    hopCount (path.dropWhile isConfed) = hopCount path := by
  induction path with
  | nil => rfl
  | cons h path ih =>
    by_cases hh : isConfed h = true
    · rw [List.dropWhile_cons_of_pos hh, ih, hopCount_cons_confed hh]
    · rw [List.dropWhile_cons_of_neg hh]

lemma firstAsn_dropWhile_hopsOf (segments : List Segment) :
    firstAsn ((hopsOf segments).dropWhile isConfed) = externalNeighbor segments := by
  induction segments with
  | nil => rfl
  | cons s segments ih =>
    obtain ⟨stype, asns⟩ := s
    cases stype with
    | sequence =>
      cases asns with
      | nil => exact ih
      | cons asn asns => rfl
    | set => rfl
    | confedSequence | confedSet => exact ih

/-! ## what is excluded and what is compared -/

/-- the local AS of the session is recorded, and in a segment of the AS_PATH or the AS4_PATH -/
def Loops (info : IngressInfo) (segments : List Segment) (as4 : Option (List Segment)) : Prop :=
  ∃ asn, info.localAsn = some asn ∧ ∃ s ∈ segments ++ as4.getD [], asn ∈ s.asns

section classify
variable {rc : Routecore} {record : Record} {info : IngressInfo} {addr : IpAddr} {paMap : PaMap}
  {segments : List Segment} {as4 : Option (List Segment)}

lemma asPathLoops_iff (hpath : paMap.hopPath = some (hopsOf segments))
    (has4 : paMap.as4Path = as4.map hopsOf) :
    asPathLoops info paMap = true ↔ Loops info segments as4 := by
  have hany : ∀ asn, (paMap.hopPath.toList ++ paMap.as4Path.toList).any (asPathContains · asn) =
      true ↔ ∃ s ∈ segments ++ as4.getD [], asn ∈ s.asns := by
    intro asn
    rw [hpath, has4, List.any_append, Bool.or_eq_true]
    cases as4 with
    | none => simp [asPathContains_hopsOf]
    | some segments4 => simp [asPathContains_hopsOf, or_and_right, exists_or]
  unfold asPathLoops Loops
  cases info.localAsn with
  | none => simp
  | some asn =>
    rw [Option.any_some, hany asn]
    constructor
    · intro h
      exact ⟨asn, rfl, h⟩
    · rintro ⟨asn', heq, h⟩
      cases heq
      exact h

lemma checkEligible_ne_loop {c : Candidate} {reason : IneligibleReason}
    (h : checkEligible rc c = .error reason) : reason ≠ .asPathLoop := by
  unfold checkEligible at h
  cases he : rc.eligible c.ordRoute with
  | ok u => rw [he] at h; cases h
  | error msg =>
    rw [he] at h
    obtain rfl : ineligibleReason msg = reason := Except.error.inj h
    unfold ineligibleReason
    split_ifs <;> nofun

lemma classify_eq (haddr : info.remoteAddr = some addr)
    (hpa : buildPaMap record.pamap = some paMap) : classify rc record (some info) =
      if asPathLoops info paMap then
        .error ⟨record.multiUniqId, record.status, record.pamap, .asPathLoop⟩
      else match checkEligible rc (toCandidate record info addr paMap) with
        | .error reason => .error ⟨record.multiUniqId, record.status, record.pamap, reason⟩
        | .ok _ => .ok (toCandidate record info addr paMap) := by
  cases hc : checkEligible rc (toCandidate record info addr paMap) with
  | error reason | ok u => simp only [classify, haddr, hpa, hc]

lemma hopPath_toCandidate (hpath : paMap.hopPath = some (hopsOf segments)) :
    (toCandidate record info addr paMap).paMap.hopPath =
      some ((hopsOf segments).dropWhile isConfed) := by
  have hpa : (toCandidate record info addr paMap).paMap.hopPath =
      some ((stripLeadingConfed (hopsOf segments)).getD (hopsOf segments)) := by
    unfold toCandidate
    rw [hpath, Option.bind_some]
    cases stripLeadingConfed (hopsOf segments) with
    | none => exact hpath
    | some stripped => rfl
  rw [hpa, getD_stripLeadingConfed]

/-- **A record is excluded for a loop exactly when its session's local AS is in a segment of either
path; otherwise what is compared has the length of the path as received, and the neighbour of its
segments.** -/
theorem classify_path (hrc : rc.PathLaws) (haddr : info.remoteAddr = some addr)
    (hpa : buildPaMap record.pamap = some paMap) (hpath : paMap.hopPath = some (hopsOf segments))
    (has4 : paMap.as4Path = as4.map hopsOf) :
    ((∃ e, classify rc record (some info) = .error e ∧ e.reason = .asPathLoop) ↔
      Loops info segments as4) ∧
    (¬ Loops info segments as4 → ∃ c path,
      (classify rc record (some info) = match checkEligible rc c with
        | .error reason => .error ⟨record.multiUniqId, record.status, record.pamap, reason⟩
        | .ok _ => .ok c) ∧
      c.paMap.hopPath = some path ∧
      rc.hopCountPathSelection path = rc.hopCountPathSelection (hopsOf segments) ∧
      c.neighborAsn rc = (externalNeighbor segments).getD (info.localAsn.getD 0)) := by
  have hloop : asPathLoops info paMap = true ↔ Loops info segments as4 :=
    asPathLoops_iff hpath has4
  have heq : classify rc record (some info) = _ := classify_eq haddr hpa
  have hcand : (toCandidate record info addr paMap).paMap.hopPath = _ := hopPath_toCandidate hpath
  refine ⟨⟨?_, ?_⟩, ?_⟩
  · rintro ⟨e, he, hreason⟩
    by_contra hn
    rw [heq, if_neg (fun h => hn (hloop.mp h))] at he
    cases hc : checkEligible rc (toCandidate record info addr paMap) with
    | ok u => rw [hc] at he; cases he
    | error reason =>
      rw [hc] at he
      obtain rfl := Except.error.inj he
      exact checkEligible_ne_loop hc hreason
  · intro h
    rw [heq, if_pos (hloop.mpr h)]
    exact ⟨_, rfl, rfl⟩
  · intro hn
    rw [heq, if_neg (fun h => hn (hloop.mp h))]
    refine ⟨toCandidate record info addr paMap, _, rfl, hcand, ?_, ?_⟩
    · rw [hrc.hopCount, hrc.hopCount, hopCount_dropWhile]
    · rw [Candidate.neighborAsn, hcand, Option.bind_some, hrc.neighbor, firstAsn_dropWhile_hopsOf]
      rfl

end classify

/-- a route of AS 1 through its confederation, behind the session of `circleInfo` with AS 1 -/
def confedRoute : Record where
  multiUniqId := 1
  status := .active
  pamap := ⟨.notChecked, true, [some (.origin .igp),
    some (.asPath [.segment .confedSequence [64512], .asn 1, .segment .set [7, 8]])]⟩

def confedSegments : List Segment :=
  [⟨.confedSequence, [64512]⟩, ⟨.sequence, [1]⟩, ⟨.set, [7, 8]⟩]

theorem classify_path_confedRoute : ∃ (c : Candidate) (path : HopPath),
    c.paMap.hopPath = some path ∧ hopCount path = hopCount (hopsOf confedSegments) ∧
      c.neighborAsn Routecore.reference = 1 := by
  have hn : ¬ Loops (ebgpSession 1 1 1) confedSegments none := by
    rintro ⟨asn, hasn, s, hs, hmem⟩
    obtain rfl : (65000 : Asn) = asn := Option.some.inj hasn
    revert s
    decide
  obtain ⟨c, path, -, hpath, hcount, hneighbor⟩ :=
    (@classify_path Routecore.reference confedRoute (ebgpSession 1 1 1) (.v4 1) _ confedSegments none
      Routecore.reference_pathLaws rfl rfl rfl rfl).2 hn
  exact ⟨c, path, hpath, hcount, hneighbor⟩

/-- the local AS 65000 is in the path, but an attribute that does not parse excludes the record
first -/
theorem classify_malformed_loop :
    classify Routecore.reference ⟨1, .active, ⟨.notChecked, true,
        [some (.origin .igp), some (.asPath (hopsOf [⟨.sequence, [1, 65000]⟩])), none]⟩⟩
      (circleInfo 1) = .error ⟨1, .active, ⟨.notChecked, true,
        [some (.origin .igp), some (.asPath (hopsOf [⟨.sequence, [1, 65000]⟩])), none]⟩,
        .malformedPathAttributes⟩ ∧
    Loops (ebgpSession 1 1 1) [⟨.sequence, [1, 65000]⟩] none := by
  refine ⟨rfl, 65000, rfl, ⟨.sequence, [1, 65000]⟩, List.mem_cons_self, by decide⟩

end Netom
