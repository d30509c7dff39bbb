import Netom.Lib.PrefixMatch
import Netom.Types

/-!
# Route origin validation

A validated ROA payload (VRP) lets an AS originate a prefix and its more specifics up to a maximum
length.  The RIB unit keeps the VRPs as lists of maximum lengths, one for each prefix and AS, in a
prefix store of its own; a list that becomes empty stays.

* `rov`  RFC 6811 over a set of VRPs;
* `checkRov`  the loops of `check_rov` over the answer of the store;
* `checkRov_eq`  they compute `rov` of the VRPs that the store holds;
* `checkRov_iff` what each status says of the lists in the store.
-/

namespace Netom
open PrefixMatch List

/-- a VRP with its maximum length resolved: an RTR cache always sends one -/
structure RouteOrigin where
  pfx : Prefix
  maxLen : Nat
  asn : Asn
  deriving DecidableEq, Repr

/-! ## RFC 6811 -/

def RouteOrigin.Covers (v : RouteOrigin) (p : Prefix) : Prop := v.pfx.covers p = true

def RouteOrigin.Matches (v : RouteOrigin) (p : Prefix) (origin : Asn) : Prop :=
  v.Covers p ∧ p.len ≤ v.maxLen ∧ v.asn = origin

open Classical in
/-- valid if a VRP matches, invalid if some cover and none matches, not found otherwise -/
noncomputable def rov (vrps : Set RouteOrigin) (p : Prefix) (origin : Asn) : RovStatus :=
  if ∃ v ∈ vrps, v.Matches p origin then .valid
  else if ∃ v ∈ vrps, v.Covers p then .invalid
  else .notFound

lemma rov_congr {vrps vrps' : Set RouteOrigin} {p : Prefix} (origin : Asn)
    (h : ∀ v : RouteOrigin, v.Covers p → (v ∈ vrps ↔ v ∈ vrps')) :
    rov vrps p origin = rov vrps' p origin := by
  have hm : (∃ v ∈ vrps, v.Matches p origin) ↔ ∃ v ∈ vrps', v.Matches p origin :=
    exists_congr fun v => and_congr_left fun hv => h v hv.1
  have hc : (∃ v ∈ vrps, v.Covers p) ↔ ∃ v ∈ vrps', v.Covers p :=
    exists_congr fun v => and_congr_left fun hv => h v hv
  unfold rov
  rw [propext hm, propext hc]

/-! ## the VRP store -/

/-- `MaxLenList` -/
abbrev MaxLenList := List Nat

abbrev VrpStore := Assoc (Prefix × Asn) MaxLenList

namespace VrpStore

/-- the list of a prefix and AS; the exact match of the store -/
def maxLens (vrps : VrpStore) (p : Prefix) (asn : Asn) : MaxLenList :=
  (vrps.lookup (p, asn)).getD []

/-- how often a VRP is in the store -/
def count (vrps : VrpStore) (v : RouteOrigin) : Nat := (vrps.maxLens v.pfx v.asn).count v.maxLen

/-- the VRPs in the store -/
def holds (vrps : VrpStore) : Set RouteOrigin := {v | v.maxLen ∈ vrps.maxLens v.pfx v.asn}

variable (vrps : VrpStore)

lemma mem_holds_iff_count (v : RouteOrigin) :
    v ∈ vrps.holds ↔ 0 < vrps.count v := count_pos_iff.symm

lemma mem_holds_iff (v : RouteOrigin) :
    v ∈ vrps.holds ↔ ∃ list, vrps.lookup (v.pfx, v.asn) = some list ∧ v.maxLen ∈ list := by
  show v.maxLen ∈ (vrps.lookup (v.pfx, v.asn)).getD [] ↔ _
  cases vrps.lookup (v.pfx, v.asn) with
  | none | some list => simp

lemma maxLens_insert (p q : Prefix) (asn asn' : Asn) (list : MaxLenList) :
    maxLens (AList.insert (p, asn) list vrps) q asn' =
      if (q, asn') = (p, asn) then list else vrps.maxLens q asn' := by
  unfold maxLens
  rw [Assoc.lookup_insert_eq]
  by_cases h : (q, asn') = (p, asn)
  · rw [if_pos h, if_pos h]
    rfl
  · rw [if_neg h, if_neg h]

end VrpStore

/-! ## check_rov -/

/-- the prefix store's search -/
abbrev VrpMatcher := Matcher Prefix.covers Asn MaxLenList

def rovMatchOptions : MatchOptions Asn where
  matchType := .longestMatch
  includeLessSpecifics := true
  includeMoreSpecifics := false
  mui := none

section checkRov
variable (p : Prefix) (origin : Asn)

/-- a list of one AS validates the route -/
def validates (e : Asn × MaxLenList) : Bool := e.2.any fun maxLen => p.len ≤ maxLen && e.1 = origin

/-- the loop over records, left at the first that validates -/
def rovLoop : Bool × Bool → List (Asn × MaxLenList) → Bool × Bool
  | acc, [] => acc
  | (covered, valid), e :: records =>
    let covered := covered || !e.2.isEmpty
    if validates p origin e then (covered, true) else rovLoop (covered, valid) records

def rovStatus : Bool × Bool → RovStatus
  | (true, true) => .valid
  | (true, false) => .invalid
  -- marked unreachable in the source, and by `checkRov_eq` it is
  | (false, true) => .notChecked
  | (false, false) => .notFound

def checkRov (mt : VrpMatcher) (vrps : VrpStore) : RovStatus :=
  let res := mt.run vrps p rovMatchOptions
  let (covered, valid) := rovLoop p origin (false, false) res.records
  let (covered, valid) :=
    if !valid then match res.lessSpecifics with
      | some lessSpecifics =>
        rovLoop p origin (covered, valid) (lessSpecifics.flatMap (·.2))
      | none => (covered, valid)
    else (covered, valid)
  rovStatus (covered, valid)

/-! ## the loops compute RFC 6811 -/

variable (mt : VrpMatcher) (vrps : VrpStore) {records : List (Asn × MaxLenList)}

lemma rovLoop_of_any (acc : Bool × Bool) (h : ∃ e ∈ records, validates p origin e = true) :
    rovLoop p origin acc records = (true, true) := by
  induction records generalizing acc with
  | nil =>
    obtain ⟨e, he, -⟩ := h
    cases he
  | cons a records ih =>
    unfold rovLoop
    by_cases ha : validates p origin a = true
    · -- a list that validates is not empty, so it covers as well
      have hne : a.2.isEmpty = false := by
        cases hl : a.2 with
        | nil =>
          unfold validates at ha
          rw [hl] at ha
          cases ha
        | cons m list => rfl
      simp only [ha, if_true, hne, Bool.not_false, Bool.or_true]
    · obtain ⟨e, he, hv⟩ := h
      rcases mem_cons.mp he with rfl | he
      · exact absurd hv ha
      · simp only [ha]
        exact ih _ ⟨e, he, hv⟩

lemma rovLoop_of_none (covered valid : Bool) (h : ¬ ∃ e ∈ records, validates p origin e = true) :
    rovLoop p origin (covered, valid) records =
      (covered || records.any (fun e => !e.2.isEmpty), valid) := by
  induction records generalizing covered with
  | nil => simp [rovLoop]
  | cons a records ih =>
    have ha : validates p origin a = false :=
      Bool.eq_false_iff.mpr fun hv => h ⟨a, mem_cons_self, hv⟩
    have htail : ¬ ∃ e ∈ records, validates p origin e = true := by
      rintro ⟨e, he, hv⟩
      exact h ⟨e, mem_cons_of_mem _ he, hv⟩
    unfold rovLoop
    simp only [ha, any_cons]
    rw [if_neg (by decide), ih _ htail, Bool.or_assoc]

/-- the second loop goes on where the first ended, unless that found a match -/
lemma rovLoop_append (a b : List (Asn × MaxLenList)) (covered : Bool) :
    rovLoop p origin (covered, false) (a ++ b) =
      if (rovLoop p origin (covered, false) a).2 then rovLoop p origin (covered, false) a
      else rovLoop p origin (rovLoop p origin (covered, false) a) b := by
  induction a generalizing covered with
  | nil => rfl
  | cons e a ih =>
    simp only [cons_append, rovLoop]
    by_cases he : validates p origin e = true
    · simp only [he, if_true]
    · simp only [he]
      exact ih _

lemma checkRov_loop : checkRov p origin mt vrps =
      rovStatus (rovLoop p origin (false, false) (mt.run vrps p rovMatchOptions).found) := by
  unfold QueryResult.found
  rw [rovLoop_append]
  cases hr : rovLoop p origin (false, false) (mt.run vrps p rovMatchOptions).records with
  | mk covered valid =>
    cases valid with
    | true => simp only [checkRov, hr, Bool.not_true, Bool.false_eq_true, if_false, if_true]
    | false =>
      cases hl : (mt.run vrps p rovMatchOptions).lessSpecifics with
      | none => simp [checkRov, hr, hl, rovLoop]
      | some set => simp [checkRov, hr, hl]

lemma exists_validates_iff :
    (∃ q asn list, q.covers p = true ∧ Selected vrps rovMatchOptions q asn list ∧
      validates p origin (asn, list) = true) ↔ ∃ v ∈ vrps.holds, v.Matches p origin := by
  constructor
  · rintro ⟨q, asn, list, hq, hs, hv⟩
    obtain ⟨maxLen, hmem, hm⟩ := any_eq_true.mp hv
    obtain ⟨hlen, rfl⟩ : p.len ≤ maxLen ∧ asn = origin := by simpa using hm
    exact ⟨⟨q, maxLen, asn⟩, (vrps.mem_holds_iff _).mpr ⟨list, hs.1, hmem⟩, hq, hlen, rfl⟩
  · rintro ⟨v, hv, hq, hlen, rfl⟩
    obtain ⟨list, hl, hmem⟩ := (vrps.mem_holds_iff v).mp hv
    refine ⟨v.pfx, v.asn, list, hq, ⟨hl, rfl⟩, any_eq_true.mpr ⟨v.maxLen, hmem, ?_⟩⟩
    simp [hlen]

lemma exists_nonempty_iff :
    (∃ q asn list, q.covers p = true ∧ Selected vrps rovMatchOptions q asn list ∧
      (!list.isEmpty) = true) ↔ ∃ v ∈ vrps.holds, v.Covers p := by
  constructor
  · rintro ⟨q, asn, list, hq, hs, hne⟩
    cases list with
    | nil => cases hne
    | cons maxLen list =>
      exact ⟨⟨q, maxLen, asn⟩,
        (vrps.mem_holds_iff _).mpr ⟨_, hs.1, mem_cons_self⟩, hq⟩
  · rintro ⟨v, hv, hq⟩
    obtain ⟨list, hl, hmem⟩ := (vrps.mem_holds_iff v).mp hv
    refine ⟨v.pfx, v.asn, list, hq, ⟨hl, rfl⟩, ?_⟩
    cases list with
    | nil => cases hmem
    | cons maxLen list => rfl

/-- **`check_rov` is RFC 6811 over the VRPs in the store** -/
theorem checkRov_eq : checkRov p origin mt vrps = rov vrps.holds p origin := by
  have hv := mt.exists_found_iff vrps p rovMatchOptions rfl rfl
    (fun e => validates p origin e = true)
  have hc := mt.exists_found_iff vrps p rovMatchOptions rfl rfl (fun e => (!e.2.isEmpty) = true)
  rw [exists_validates_iff] at hv
  rw [exists_nonempty_iff] at hc
  rw [checkRov_loop]
  unfold rov
  by_cases hm : ∃ v ∈ vrps.holds, v.Matches p origin
  · rw [rovLoop_of_any p origin _ (hv.mpr hm), if_pos hm]
    rfl
  · rw [rovLoop_of_none p origin _ _ fun h => hm (hv.mp h), if_neg hm, Bool.false_or]
    by_cases hcov : ∃ v ∈ vrps.holds, v.Covers p
    · rw [if_pos hcov, any_eq_true.mpr (hc.mpr hcov)]
      rfl
    · rw [if_neg hcov, Bool.eq_false_iff.mpr fun h => hcov (hc.mp (any_eq_true.mp h))]
      rfl

/-! ## in the terms of the store -/

/-- what the two loops leave in `covered` and `valid` -/
def rovFlags (mt : VrpMatcher) (vrps : VrpStore) : Bool × Bool :=
  let res := mt.run vrps p rovMatchOptions
  let first := rovLoop p origin (false, false) res.records
  if !first.2 then match res.lessSpecifics with
    | some lessSpecifics => rovLoop p origin first (lessSpecifics.flatMap (·.2))
    | none => first
  else first

lemma checkRov_eq_flags : checkRov p origin mt vrps = rovStatus (rovFlags p origin mt vrps) := by
  unfold checkRov rovFlags
  cases rovLoop p origin (false, false) (mt.run vrps p rovMatchOptions).records with
  | mk covered valid =>
    cases valid with
    | true => rfl
    | false =>
      cases (mt.run vrps p rovMatchOptions).lessSpecifics with
      | none | some set => rfl

/-- a list of the store validates the route -/
def VrpStore.Validates (vrps : VrpStore) : Prop :=
  ∃ q list, vrps.lookup (q, origin) = some list ∧ q.covers p = true ∧
    ∃ maxLen ∈ list, p.len ≤ maxLen

/-- a list of the store that is not empty covers the prefix -/
def VrpStore.CoversRoute (vrps : VrpStore) : Prop :=
  ∃ q asn list, vrps.lookup (q, asn) = some list ∧ q.covers p = true ∧ list ≠ []

lemma exists_matches_iff : (∃ v ∈ vrps.holds, v.Matches p origin) ↔ vrps.Validates p origin := by
  constructor
  · rintro ⟨v, hv, hq, hlen, rfl⟩
    obtain ⟨list, hl, hmem⟩ := (vrps.mem_holds_iff v).mp hv
    exact ⟨v.pfx, list, hl, hq, v.maxLen, hmem, hlen⟩
  · rintro ⟨q, list, hl, hq, maxLen, hmem, hlen⟩
    exact ⟨⟨q, maxLen, origin⟩, (vrps.mem_holds_iff _).mpr ⟨list, hl, hmem⟩, hq, hlen, rfl⟩

lemma exists_covers_iff : (∃ v ∈ vrps.holds, v.Covers p) ↔ vrps.CoversRoute p := by
  constructor
  · rintro ⟨v, hv, hq⟩
    obtain ⟨list, hl, hmem⟩ := (vrps.mem_holds_iff v).mp hv
    exact ⟨v.pfx, v.asn, list, hl, hq, ne_nil_of_mem hmem⟩
  · rintro ⟨q, asn, list, hl, hq, hne⟩
    obtain ⟨maxLen, hmem⟩ := exists_mem_of_ne_nil list hne
    exact ⟨⟨q, maxLen, asn⟩, (vrps.mem_holds_iff _).mpr ⟨list, hl, hmem⟩, hq⟩

lemma checkRov_cases : (checkRov p origin mt vrps = .valid ∧ vrps.Validates p origin) ∨
    (checkRov p origin mt vrps = .invalid ∧ vrps.CoversRoute p ∧ ¬ vrps.Validates p origin) ∨
    (checkRov p origin mt vrps = .notFound ∧ ¬ vrps.CoversRoute p) := by
  rw [checkRov_eq, ← exists_matches_iff, ← exists_covers_iff]
  unfold rov
  by_cases hm : ∃ v ∈ vrps.holds, v.Matches p origin
  · rw [if_pos hm]
    exact .inl ⟨rfl, hm⟩
  · rw [if_neg hm]
    by_cases hc : ∃ v ∈ vrps.holds, v.Covers p
    · rw [if_pos hc]
      exact .inr (.inl ⟨rfl, hc, hm⟩)
    · rw [if_neg hc]
      exact .inr (.inr ⟨rfl, hc⟩)

/-- **`check_rov` is valid exactly when a list of the store validates the route, invalid when some
list that is not empty covers it and none validates, not found otherwise, and never comes out valid
without being covered.** -/
theorem checkRov_iff (mt : VrpMatcher) (vrps : VrpStore) :
    (checkRov p origin mt vrps = .valid ↔ vrps.Validates p origin) ∧
    (checkRov p origin mt vrps = .invalid ↔ vrps.CoversRoute p ∧ ¬ vrps.Validates p origin) ∧
    (checkRov p origin mt vrps = .notFound ↔ ¬ vrps.Validates p origin ∧ ¬ vrps.CoversRoute p) ∧
    rovFlags p origin mt vrps ≠ (false, true) := by
  have hflags : checkRov p origin mt vrps ≠ .notChecked →
      rovFlags p origin mt vrps ≠ (false, true) := by
    intro hne heq
    rw [checkRov_eq_flags, heq] at hne
    exact hne rfl
  rcases checkRov_cases p origin mt vrps with ⟨hs, hv⟩ | ⟨hs, hc, hv⟩ | ⟨hs, hc⟩
  · rw [hs] at hflags ⊢
    exact ⟨⟨fun _ => hv, fun _ => rfl⟩, ⟨nofun, fun h => absurd hv h.2⟩,
      ⟨nofun, fun h => absurd hv h.1⟩, hflags nofun⟩
  · rw [hs] at hflags ⊢
    exact ⟨⟨nofun, fun h => absurd h hv⟩, ⟨fun _ => ⟨hc, hv⟩, fun _ => rfl⟩,
      ⟨nofun, fun h => absurd hc h.2⟩, hflags nofun⟩
  · rw [hs] at hflags ⊢
    have hv : ¬ vrps.Validates p origin := fun ⟨q, list, hl, hq, maxLen, hmem, _⟩ =>
      hc ⟨q, origin, list, hl, hq, ne_nil_of_mem hmem⟩
    exact ⟨⟨nofun, fun h => absurd h hv⟩, ⟨nofun, fun h => absurd h.1 hc⟩,
      ⟨fun _ => ⟨hv, hc⟩, fun _ => rfl⟩, hflags nofun⟩

end checkRov

end Netom
