import Netom.Lib.Run
import Netom.Rpki.Rov

/-!
# The RTR cache of the RIB unit

An RTR connection delivers the VRPs either as a whole (`Full`, after a Cache Reset) or as changes
(`Delta`).  The unit keeps them twice: as the set `routeOrigins` and as the lists of the VRP store.

* `VrpSet.step`  what an update means for the set of VRPs;
* `routeOrigins_run`  the set `routeOrigins` follows it;
* `count_processFull`, `count_processDelta`  how often the store lists a VRP after an update;
* `vrps_agree_iff`  the store holds the same set throughout a run exactly when each Full names
  what the store holds, and each Delta withdraws a VRP once for every copy.
-/

namespace Netom
open List VrpStore AList Run

/-! ## updates -/

inductive RtrAction where
  | announce
  | withdraw
  deriving DecidableEq, Repr

structure RouterKey where
  keyIdentifier : BitVec 160
  asn : Asn
  keyInfo : List (BitVec 8)
  deriving DecidableEq, Repr

structure Aspa where
  customer : Asn
  providers : List Asn
  deriving DecidableEq, Repr

inductive RtrPayload where
  | origin (v : RouteOrigin)
  | routerKey (key : RouterKey)
  | aspa (a : Aspa)
  deriving DecidableEq, Repr

abbrev RtrVerb := RtrAction × RtrPayload

inductive RtrUpdate where
  | full (verbs : List RtrVerb)
  | delta (verbs : List RtrVerb)
  deriving DecidableEq, Repr

structure RtrCache where
  routeOrigins : Finset RouteOrigin
  routerKeys : Finset RouterKey
  aspas : Finset Aspa
  vrps : VrpStore

namespace RtrCache

def default : RtrCache := ⟨∅, ∅, ∅, ∅⟩

/-- one verb of a Full; a withdrawal is unexpected there and only logged -/
def fullVerb (cache : RtrCache) : RtrVerb → RtrCache
  | (.withdraw, _) => cache
  | (.announce, .origin v) =>
    { cache with
      routeOrigins := insert v cache.routeOrigins
      vrps := cache.vrps.insert (v.pfx, v.asn) (cache.vrps.maxLens v.pfx v.asn ++ [v.maxLen]) }
  | (.announce, .routerKey key) => { cache with routerKeys := insert key cache.routerKeys }
  | (.announce, .aspa a) => { cache with aspas := insert a cache.aspas }

/-- the sets are collected anew; the lists of the VRP store are added to as they are -/
def processFull (cache : RtrCache) (verbs : List RtrVerb) : RtrCache :=
  verbs.foldl fullVerb { cache with routeOrigins := ∅, routerKeys := ∅, aspas := ∅ }

def deltaVrp (cache : RtrCache) (action : RtrAction) (v : RouteOrigin) : RtrCache :=
  let list := cache.vrps.maxLens v.pfx v.asn
  match action with
  | .announce =>
    let list := if list.contains v.maxLen then list else list ++ [v.maxLen]
    { cache with
      routeOrigins := insert v cache.routeOrigins
      vrps := cache.vrps.insert (v.pfx, v.asn) list }
  | .withdraw =>
    -- only the first position is removed
    { cache with
      routeOrigins := cache.routeOrigins.erase v
      vrps := cache.vrps.insert (v.pfx, v.asn) (list.erase v.maxLen) }

def deltaVerb (cache : RtrCache) : RtrVerb → RtrCache
  | (action, .origin v) => cache.deltaVrp action v
  | (.announce, .routerKey key) => { cache with routerKeys := insert key cache.routerKeys }
  | (.withdraw, .routerKey key) => { cache with routerKeys := cache.routerKeys.erase key }
  | (.announce, .aspa a) => { cache with aspas := insert a cache.aspas }
  | (.withdraw, .aspa a) => { cache with aspas := cache.aspas.erase a }

def processDelta (cache : RtrCache) (verbs : List RtrVerb) : RtrCache :=
  verbs.foldl deltaVerb cache

def step (cache : RtrCache) : RtrUpdate → RtrCache
  | .full verbs => cache.processFull verbs
  | .delta verbs => cache.processDelta verbs

end RtrCache

/-! ## what the updates mean -/

abbrev VrpSet := Finset RouteOrigin

def VrpSet.announced (verbs : List RtrVerb) : VrpSet :=
  (verbs.filterMap fun
    | (.announce, .origin v) => some v
    | _ => none).toFinset

def VrpSet.deltaVerb (vrps : VrpSet) : RtrVerb → VrpSet
  | (.announce, .origin v) => insert v vrps
  | (.withdraw, .origin v) => vrps.erase v
  | _ => vrps

/-- a Full replaces the set, a Delta adds and removes elements -/
def VrpSet.step (vrps : VrpSet) : RtrUpdate → VrpSet
  | .full verbs => VrpSet.announced verbs
  | .delta verbs => verbs.foldl VrpSet.deltaVerb vrps

lemma VrpSet.mem_announced {verbs : List RtrVerb} {v : RouteOrigin} :
    v ∈ VrpSet.announced verbs ↔ (.announce, .origin v) ∈ verbs := by
  unfold VrpSet.announced
  rw [mem_toFinset, mem_filterMap]
  constructor
  · rintro ⟨⟨action, payload⟩, hmem, he⟩
    cases action with
    | withdraw => cases he
    | announce =>
      cases payload with
      | origin w =>
        cases he
        exact hmem
      | routerKey key | aspa a => cases he
  · intro h
    exact ⟨_, h, rfl⟩

/-! ## the set of the unit follows them -/

variable (cache : RtrCache) (verbs : List RtrVerb) (v : RouteOrigin)

lemma routeOrigins_foldl_fullVerb (cache : RtrCache) :
    (verbs.foldl RtrCache.fullVerb cache).routeOrigins =
      cache.routeOrigins ∪ VrpSet.announced verbs := by
  induction verbs generalizing cache with
  | nil => exact (Finset.union_empty _).symm
  | cons verb verbs ih =>
    rw [foldl_cons, ih]
    ext v
    obtain ⟨action, payload⟩ := verb
    cases action <;> cases payload <;>
      simp [RtrCache.fullVerb, VrpSet.mem_announced, or_left_comm]

lemma routeOrigins_step (u : RtrUpdate) :
    (cache.step u).routeOrigins = VrpSet.step cache.routeOrigins u := by
  cases u with
  | full verbs =>
    show (verbs.foldl RtrCache.fullVerb _).routeOrigins = VrpSet.announced verbs
    rw [routeOrigins_foldl_fullVerb]
    exact Finset.empty_union _
  | delta verbs =>
    refine run_sim (fun cache verb => ?_) cache verbs
    obtain ⟨action, payload⟩ := verb
    cases action <;> cases payload <;> rfl

lemma routeOrigins_run (us : List RtrUpdate) :
    (run RtrCache.step RtrCache.default us).routeOrigins = run VrpSet.step ∅ us :=
  run_sim routeOrigins_step RtrCache.default us

/-! ## how often the store lists a VRP -/

lemma count_insert (vrps : VrpStore) (p : Prefix) (asn : Asn) (list : MaxLenList)
    (v : RouteOrigin) :
    VrpStore.count (insert (p, asn) list vrps) v =
      if v.pfx = p ∧ v.asn = asn then list.count v.maxLen else vrps.count v := by
  unfold VrpStore.count
  rw [maxLens_insert]
  by_cases h : v.pfx = p ∧ v.asn = asn
  · rw [if_pos h, if_pos (by rw [h.1, h.2])]
  · rw [if_neg h, if_neg fun he => h (Prod.mk.inj he)]

lemma count_fullVerb (verb : RtrVerb) (v : RouteOrigin) : (cache.fullVerb verb).vrps.count v =
      cache.vrps.count v + if verb = (.announce, .origin v) then 1 else 0 := by
  obtain ⟨action, payload⟩ := verb
  cases action with
  | withdraw => simp [RtrCache.fullVerb]
  | announce =>
    cases payload with
    | routerKey key | aspa a => simp [RtrCache.fullVerb]
    | origin w =>
      show count (insert _ _ _) v = _
      rw [count_insert]
      by_cases hk : v.pfx = w.pfx ∧ v.asn = w.asn
      · rw [if_pos hk, ← hk.1, ← hk.2, count_append, count_singleton]
        have hiff : (w.maxLen == v.maxLen) = true ↔
            ((RtrAction.announce, RtrPayload.origin w) = (.announce, .origin v)) := by
          cases v
          cases w
          simp_all
        by_cases hm : (w.maxLen == v.maxLen) = true
        · rw [if_pos hm, if_pos (hiff.mp hm)]
          rfl
        · rw [if_neg hm, if_neg fun he => hm (hiff.mpr he)]
          rfl
      · have hne : ¬ ((RtrAction.announce, RtrPayload.origin w) = (.announce, .origin v)) := by
          intro he
          cases he
          exact hk ⟨rfl, rfl⟩
        rw [if_neg hk, if_neg hne]
        rfl

/-- a Full adds a copy of every VRP it announces -/
lemma count_processFull : (cache.processFull verbs).vrps.count v =
      cache.vrps.count v + verbs.count (.announce, .origin v) := by
  have hfold : ∀ (verbs : List RtrVerb) (c : RtrCache),
      (verbs.foldl RtrCache.fullVerb c).vrps.count v =
        c.vrps.count v + verbs.count (.announce, .origin v) := by
    intro verbs
    induction verbs with
    | nil => intro c; rfl
    | cons verb verbs ih =>
      intro c
      rw [foldl_cons, ih, count_fullVerb, count_cons]
      simp only [beq_iff_eq]
      omega
  exact hfold verbs _

/-- what a verb of a Delta does to the number of copies of `v` -/
def copies (v : RouteOrigin) (n : Nat) (verb : RtrVerb) : Nat :=
  if verb = (.announce, .origin v) then max n 1
  else if verb = (.withdraw, .origin v) then n - 1
  else n

lemma count_deltaVerb (verb : RtrVerb) (v : RouteOrigin) :
    (cache.deltaVerb verb).vrps.count v = copies v (cache.vrps.count v) verb := by
  obtain ⟨action, payload⟩ := verb
  cases payload with
  | routerKey key | aspa a => cases action <;> simp [RtrCache.deltaVerb, copies]
  | origin w =>
    by_cases hw : w = v
    · subst hw
      cases action with
      | announce =>
        show VrpStore.count (insert _ _ _) w = _
        rw [count_insert, if_pos ⟨rfl, rfl⟩]
        unfold copies VrpStore.count
        rw [if_pos rfl]
        by_cases hc : (cache.vrps.maxLens w.pfx w.asn).contains w.maxLen = true
        · have hpos := count_pos_iff.mpr (contains_iff_mem.mp hc)
          rw [if_pos hc]
          omega
        · have hzero := count_eq_zero.mpr fun hm => hc (contains_iff_mem.mpr hm)
          rw [if_neg hc, count_append, hzero, count_singleton_self]
          rfl
      | withdraw =>
        show VrpStore.count (insert _ _ _) w = _
        rw [count_insert, if_pos ⟨rfl, rfl⟩, count_erase_self]
        simp [copies, VrpStore.count]
    · -- another VRP, perhaps in the same list
      have hcop : copies v (cache.vrps.count v) (action, .origin w) = cache.vrps.count v := by
        simp [copies, hw]
      rw [hcop]
      have hlist : v.pfx = w.pfx ∧ v.asn = w.asn → v.maxLen ≠ w.maxLen := by
        rintro ⟨hp, ha⟩ hm
        exact hw (by cases v; cases w; simp_all)
      cases action with
      | announce =>
        show VrpStore.count (insert _ _ _) v = _
        rw [count_insert]
        by_cases hk : v.pfx = w.pfx ∧ v.asn = w.asn
        · have hm : (w.maxLen == v.maxLen) = false := by simpa using (hlist hk).symm
          rw [if_pos hk, ← hk.1, ← hk.2]
          split
          · rfl
          · rw [count_append, count_singleton, hm]
            rfl
        · rw [if_neg hk]
      | withdraw =>
        show VrpStore.count (insert _ _ _) v = _
        rw [count_insert]
        by_cases hk : v.pfx = w.pfx ∧ v.asn = w.asn
        · rw [if_pos hk, ← hk.1, ← hk.2, count_erase_of_ne (hlist hk)]
          rfl
        · rw [if_neg hk]

lemma count_processDelta :
    (cache.processDelta verbs).vrps.count v = verbs.foldl (copies v) (cache.vrps.count v) :=
  @Run.run_sim _ _ _ RtrCache.deltaVerb (fun c => c.vrps.count v) (copies v)
    (fun c verb => count_deltaVerb c verb v) cache verbs

/-! ## the last verb of a Delta -/

/-- the last thing the verbs say about `v` -/
def lastAction (v : RouteOrigin) (verbs : List RtrVerb) : Option RtrAction :=
  verbs.foldl (fun last verb => if verb.2 = .origin v then some verb.1 else last) none

lemma lastAction_append (verbs : List RtrVerb) (verb : RtrVerb) : lastAction v (verbs ++ [verb]) =
      if verb.2 = .origin v then some verb.1 else lastAction v verbs := by
  simp [lastAction, foldl_append]

def withdrawals (v : RouteOrigin) (verbs : List RtrVerb) : Nat :=
  verbs.count (.withdraw, .origin v)

lemma withdrawals_append (verbs : List RtrVerb) (verb : RtrVerb) :
    withdrawals v (verbs ++ [verb]) =
      withdrawals v verbs + if verb = (.withdraw, .origin v) then 1 else 0 := by
  simp [withdrawals, count_append, count_singleton]

lemma mem_foldl_deltaVerb (vrps : VrpSet) (verbs : List RtrVerb) (v : RouteOrigin) :
    v ∈ verbs.foldl VrpSet.deltaVerb vrps ↔
      match lastAction v verbs with
      | none => v ∈ vrps
      | some .announce => True
      | some .withdraw => False := by
  induction verbs using reverseRecOn with
  | nil => exact Iff.rfl
  | append_singleton verbs verb ih =>
    rw [foldl_append, lastAction_append]
    obtain ⟨action, payload⟩ := verb
    show v ∈ VrpSet.deltaVerb (verbs.foldl VrpSet.deltaVerb vrps) (action, payload) ↔ _
    by_cases hp : payload = .origin v
    · subst hp
      cases action <;> simp [VrpSet.deltaVerb]
    · rw [if_neg hp, ← ih]
      cases payload with
      | routerKey key | aspa a => cases action <;> rfl
      | origin w =>
        have hne : v ≠ w := fun h => hp (h ▸ rfl)
        cases action <;> simp [VrpSet.deltaVerb, hne]

/-- an announcement never makes a second copy, a withdrawal takes one away -/
lemma copies_bounds (n : Nat) (verbs : List RtrVerb) :
    n - withdrawals v verbs ≤ verbs.foldl (copies v) n ∧
      verbs.foldl (copies v) n ≤ max (n - withdrawals v verbs) 1 := by
  induction verbs using reverseRecOn with
  | nil =>
    have hw : withdrawals v [] = 0 := rfl
    rw [hw, foldl_nil]
    omega
  | append_singleton verbs verb ih =>
    rw [foldl_append, withdrawals_append]
    show _ ≤ copies v (verbs.foldl (copies v) n) verb ∧
      copies v (verbs.foldl (copies v) n) verb ≤ _
    generalize verbs.foldl (copies v) n = c at ih ⊢
    unfold copies
    by_cases ha : verb = (.announce, .origin v)
    · have hw : verb ≠ (.withdraw, .origin v) := by
        rw [ha]
        intro h
        cases h
      rw [if_pos ha, if_neg hw]
      omega
    · by_cases hw : verb = (.withdraw, .origin v)
      · rw [if_neg ha, if_pos hw, if_pos hw]
        omega
      · rw [if_neg ha, if_neg hw, if_neg hw]
        omega

/-- after a Delta the store lists `v` as its last verb says, unless that is a withdrawal and there
were more copies than withdrawals -/
lemma count_pos_of_lastAction (n : Nat) (verbs : List RtrVerb) : 0 < verbs.foldl (copies v) n ↔
      match lastAction v verbs with
      | none => 0 < n
      | some .announce => True
      | some .withdraw => withdrawals v verbs < n := by
  induction verbs using reverseRecOn with
  | nil => exact Iff.rfl
  | append_singleton verbs verb ih =>
    have hb := copies_bounds v n verbs
    rw [foldl_append, lastAction_append, withdrawals_append]
    show 0 < copies v (verbs.foldl (copies v) n) verb ↔ _
    obtain ⟨action, payload⟩ := verb
    by_cases hp : payload = .origin v
    · subst hp
      rw [if_pos rfl]
      cases action with
      | announce => simp [copies]
      | withdraw =>
        simp only [copies, reduceCtorEq, Prod.mk.injEq, false_and, if_false, if_true]
        omega
    · have hne : ∀ a : RtrAction, (action, payload) ≠ (a, .origin v) :=
        fun a h => hp (Prod.mk.inj h).2
      rw [if_neg hp, if_neg (hne _), Nat.add_zero, ← ih]
      unfold copies
      rw [if_neg (hne _), if_neg (hne _)]

/-! ## the store against the set -/

/-- an update that leaves the store with the VRPs of the set -/
def RtrCache.Clean (cache : RtrCache) : RtrUpdate → Prop
  | .full verbs => ∀ v ∈ cache.vrps.holds, (.announce, .origin v) ∈ verbs
  | .delta verbs => ∀ v, lastAction v verbs = some .withdraw →
      cache.vrps.count v ≤ withdrawals v verbs

/-- the store holds the VRPs of the set -/
def RtrCache.InSync (cache : RtrCache) : Prop :=
  ∀ v, v ∈ cache.vrps.holds ↔ v ∈ cache.routeOrigins

lemma inSync_step_iff (u : RtrUpdate) (h : cache.InSync) :
    (cache.step u).InSync ↔ cache.Clean u := by
  have hmem : ∀ v, v ∈ (cache.step u).routeOrigins ↔ v ∈ VrpSet.step cache.routeOrigins u := by
    intro v
    rw [routeOrigins_step]
  cases u with
  | full verbs =>
    have hholds : ∀ v, v ∈ (cache.processFull verbs).vrps.holds ↔
        v ∈ cache.vrps.holds ∨ (.announce, .origin v) ∈ verbs := by
      intro v
      rw [mem_holds_iff_count, count_processFull, mem_holds_iff_count,
        ← count_pos_iff]
      omega
    constructor
    · intro hs v hv
      exact VrpSet.mem_announced.mp ((hmem v).mp ((hs v).mp ((hholds v).mpr (Or.inl hv))))
    · intro hc v
      rw [hmem v]
      show v ∈ (cache.processFull verbs).vrps.holds ↔ v ∈ VrpSet.announced verbs
      rw [hholds v, VrpSet.mem_announced]
      exact ⟨fun hv => hv.elim (hc v) id, Or.inr⟩
  | delta verbs =>
    have hv : ∀ v, (v ∈ (cache.step (.delta verbs)).vrps.holds ↔
        v ∈ (cache.step (.delta verbs)).routeOrigins) ↔
        (lastAction v verbs = some .withdraw → cache.vrps.count v ≤ withdrawals v verbs) := by
      intro v
      rw [hmem v]
      show (v ∈ (cache.processDelta verbs).vrps.holds ↔
        v ∈ verbs.foldl VrpSet.deltaVerb cache.routeOrigins) ↔ _
      rw [mem_holds_iff_count, count_processDelta, count_pos_of_lastAction,
        mem_foldl_deltaVerb]
      cases hl : lastAction v verbs with
      | none =>
        have hsync := h v
        rw [mem_holds_iff_count] at hsync
        simpa using hsync
      | some action =>
        cases action with
        | announce | withdraw => simp
    exact forall_congr' hv

/-- **The VRP store holds the VRPs that the updates stand for, and validates by them, throughout a
run exactly when no update is one that leaves a withdrawn or replaced VRP behind.** -/
theorem vrps_agree_iff (us : List RtrUpdate) :
    (∀ us', us' <+: us →
      let cache := run RtrCache.step RtrCache.default us'
      let vrps := run VrpSet.step ∅ us'
      cache.vrps.holds = vrps ∧ cache.routeOrigins = vrps ∧
        ∀ mt p origin, checkRov p origin mt cache.vrps = rov vrps p origin) ↔
    Run.Along RtrCache.step RtrCache.Clean RtrCache.default us := by
  have hempty : RtrCache.default.InSync := by
    intro v
    simp [RtrCache.default, mem_holds_iff]
  rw [← along_iff inSync_step_iff hempty us]
  refine forall_congr' fun us' => forall_congr' fun _ => ?_
  show (_ ∧ _ ∧ _) ↔ _
  rw [routeOrigins_run]
  constructor
  · rintro ⟨hh, -, -⟩ v
    rw [hh, routeOrigins_run]
    rfl
  · intro hs
    have hh : (run RtrCache.step RtrCache.default us').vrps.holds =
        run VrpSet.step ∅ us' := by
      ext v
      rw [hs v, routeOrigins_run]
      rfl
    refine ⟨hh, rfl, fun mt p origin => ?_⟩
    rw [checkRov_eq, hh]

/-! ## two Fulls in a row -/

/-- 0.0.0.0/1 up to length 8 from one AS -/
def halfVrp (asn : Asn) : RouteOrigin := ⟨lowerHalf, 8, asn⟩

def twoFulls : List RtrUpdate :=
  [.full [(.announce, .origin (halfVrp 1))], .full [(.announce, .origin (halfVrp 2))]]

/-- the VRP of the first Full is still there after the second, and still validates -/
theorem twoFulls_stale :
    halfVrp 1 ∈ (run RtrCache.step RtrCache.default twoFulls).vrps.holds ∧
    halfVrp 1 ∉ run VrpSet.step ∅ twoFulls ∧
    halfVrp 1 ∉ (run RtrCache.step RtrCache.default twoFulls).routeOrigins ∧
    checkRov (halfVrp 1).pfx 1 (PrefixMatch.Matcher.reference _)
      (run RtrCache.step RtrCache.default twoFulls).vrps = .valid := by
  refine ⟨?_, by decide, by decide, by decide⟩
  show (8 : Nat) ∈ maxLens _ _ _
  decide

end Netom
