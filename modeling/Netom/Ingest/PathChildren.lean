import Netom.Ingress.Register

/-!
# ADD-PATH path children of a session

Routes with a path id are stored under a child ingress of their session.  Each session caches the
children of its path ids; a cached child is validated in the register before it is used again, one
that an earlier session left is claimed, and otherwise a fresh id is taken.

* `getOrCreatePathChild`  resolve the child of an announced path id;
* `getOrCreatePathChild_known`  afterwards the cache knows it;
* `getOrCreatePathChild_keeps`  and still knows the ones it knew.
-/

namespace Netom
open Register Assoc

/-- the path children of one session, and how many were minted -/
structure PathCache where
  children : Assoc Nat IngressId
  minted : Nat

def PathCache.empty : PathCache := ⟨∅, 0⟩

def pruneEvery : Nat := 4096

/-- the part of a fresh or claimed child's entry that all sessions write -/
def pathChildInfo (sessionId : IngressId) (pathId : Nat) : IngressInfo :=
  { IngressInfo.new with
    ingressType := some .bgpPath, parentIngress := some sessionId, pathId := some pathId,
    state := some .connected }

/-- a child for `pathId` that is not in the cache: the one an earlier session left behind, or a
fresh one -/
def claimOrRegister (reg : Register) (sessionId : IngressId) (pathId : Nat) :
    IngressId × Register :=
  match reg.findExistingPathChildAndClaim sessionId pathId with
  | (some id, reg) => (id, reg)
  | (none, reg) => reg.register

/-- put the child in the register and in the cache, and prune the cache now and then -/
def mintPathChild (info : Register → IngressInfo) (cache : PathCache) (reg : Register)
    (sessionId : IngressId) (pathId : Nat) : IngressId × PathCache × Register :=
  let (childId, reg) := claimOrRegister reg sessionId pathId
  let reg := reg.updateInfo childId (info reg)
  let children := cache.children.insert pathId childId
  let minted := cache.minted + 1
  if minted % pruneEvery = 0 then (childId, ⟨reg.pruneMissing children, minted⟩, reg)
  else (childId, ⟨children, minted⟩, reg)

/-- `get_or_create_path_child`; `info` is what the session writes into the child's entry -/
def getOrCreatePathChild (info : Register → IngressInfo) (cache : PathCache) (reg : Register)
    (sessionId : IngressId) (pathId : Nat) : IngressId × PathCache × Register :=
  match cache.children.lookup pathId with
  | some childId =>
    match reg.refreshPathChild childId sessionId pathId with
    | (true, reg) => (childId, cache, reg)
    | (false, reg) =>
      mintPathChild info { cache with children := cache.children.erase pathId } reg sessionId pathId
  | none => mintPathChild info cache reg sessionId pathId

/-! ## the cache knows the children it handed out -/

/-- the cache has a child for `pathId`, and the register an entry for it -/
def PathCache.Knows (cache : PathCache) (reg : Register) (pathId : Nat) : Prop :=
  ∃ id, cache.children.lookup pathId = some id ∧ (reg.info.lookup id).isSome

/-- no entry is lost -/
def Register.Extends (reg reg' : Register) : Prop :=
  ∀ id, (reg.info.lookup id).isSome → (reg'.info.lookup id).isSome

lemma Register.Extends.refl (reg : Register) : reg.Extends reg := fun _ h => h

lemma isSome_lookup_insert {reg : Register} (id id' : IngressId) (v : IngressInfo)
    (h : (reg.info.lookup id).isSome ∨ id = id') :
    ((reg.info.insert id' v).lookup id).isSome := by
  rw [lookup_insert_eq]
  by_cases he : id = id'
  · rw [if_pos he]
    rfl
  · rw [if_neg he]
    exact h.resolve_right he

lemma updateInfo_isSome (reg : Register) (id id' : IngressId) (new : IngressInfo)
    (h : (reg.info.lookup id).isSome ∨ id = id') :
    ((reg.updateInfo id' new).info.lookup id).isSome := by
  unfold updateInfo
  cases reg.info.lookup id' with
  | none | some old => exact isSome_lookup_insert id id' _ h

lemma refreshPathChild_extends (reg : Register) (id parent : IngressId) (pathId : Nat) :
    reg.Extends (reg.refreshPathChild id parent pathId).2 := by
  unfold refreshPathChild
  cases reg.info.lookup id with
  | none => exact Register.Extends.refl reg
  | some info =>
    by_cases hc : isPathChild parent pathId info = true
    · simp only [hc, if_true]
      intro i hi
      exact isSome_lookup_insert i id _ (Or.inl hi)
    · simp only [hc, if_false, Bool.false_eq_true]
      exact Register.Extends.refl reg

lemma claimOrRegister_extends (reg : Register) (sessionId : IngressId) (pathId : Nat) :
    reg.Extends (claimOrRegister reg sessionId pathId).2 := by
  unfold claimOrRegister findExistingPathChildAndClaim
  cases hf : findKey (fun _ info =>
      info.state != some .connected && isPathChild sessionId pathId info) reg.info with
  | none => exact Register.Extends.refl reg
  | some id =>
    intro i hi
    show ((modify id _ reg.info).lookup i).isSome
    rw [lookup_modify]
    by_cases he : i = id
    · rw [if_pos he]
      simpa using hi
    · rw [if_neg he]
      exact hi

lemma lookup_pruneMissing {reg : Register} {children : Assoc Nat IngressId} {pathId : Nat}
    {id : IngressId} (h : children.lookup pathId = some id) (hr : (reg.info.lookup id).isSome) :
    (reg.pruneMissing children).lookup pathId = some id := by
  unfold pruneMissing
  rw [lookup_eraseAll, if_neg, h]
  intro hm
  obtain ⟨e, he, rfl⟩ := List.mem_map.mp hm
  obtain ⟨hent, hnone⟩ := List.mem_filter.mp he
  have hl : children.lookup e.1 = some e.2 := AList.mem_lookup_iff.mpr hent
  rw [h] at hl
  cases hl
  rw [Option.isNone_iff_eq_none.mp hnone] at hr
  cases hr

section mint
variable (info : Register → IngressInfo) (cache : PathCache) (reg : Register)
  (sessionId : IngressId) (pathId : Nat)

/-- a cache entry with a live id survives the mint of any child -/
lemma mintPathChild_lookup {q : Nat} {id : IngressId}
    (h : (cache.children.insert pathId (claimOrRegister reg sessionId pathId).1).lookup q = some id)
    (hr : (((claimOrRegister reg sessionId pathId).2.updateInfo
      (claimOrRegister reg sessionId pathId).1
      (info (claimOrRegister reg sessionId pathId).2)).info.lookup id).isSome) :
    (mintPathChild info cache reg sessionId pathId).2.1.Knows
      (mintPathChild info cache reg sessionId pathId).2.2 q := by
  unfold mintPathChild
  by_cases hp : (cache.minted + 1) % pruneEvery = 0
  · simp only [hp, if_true]
    exact ⟨id, lookup_pruneMissing h hr, hr⟩
  · simp only [hp, if_false]
    exact ⟨id, h, hr⟩

lemma mintPathChild_known :
    (mintPathChild info cache reg sessionId pathId).2.1.Knows
      (mintPathChild info cache reg sessionId pathId).2.2 pathId :=
  mintPathChild_lookup info cache reg sessionId pathId (AList.lookup_insert _)
    (updateInfo_isSome _ _ _ _ (Or.inr rfl))

lemma mintPathChild_keeps {q : Nat} (hq : cache.Knows reg q) :
    (mintPathChild info cache reg sessionId pathId).2.1.Knows
      (mintPathChild info cache reg sessionId pathId).2.2 q := by
  obtain ⟨id, hid, hr⟩ := hq
  by_cases he : q = pathId
  · subst he
    exact mintPathChild_known info cache reg sessionId q
  · have h : (cache.children.insert pathId (claimOrRegister reg sessionId pathId).1).lookup q =
        some id := (AList.lookup_insert_ne he).trans hid
    exact mintPathChild_lookup info cache reg sessionId pathId h (updateInfo_isSome _ id _ _
      (Or.inl (claimOrRegister_extends reg sessionId pathId id hr)))

/-- the refresh of a cached child is validated by its entry, which is there -/
lemma refreshPathChild_true {id parent : IngressId}
    (h : (reg.refreshPathChild id parent pathId).1 = true) : (reg.info.lookup id).isSome := by
  unfold refreshPathChild at h
  cases hl : reg.info.lookup id with
  | none => rw [hl] at h; cases h
  | some info => rfl

lemma getOrCreatePathChild_known :
    (getOrCreatePathChild info cache reg sessionId pathId).2.1.Knows
      (getOrCreatePathChild info cache reg sessionId pathId).2.2 pathId := by
  unfold getOrCreatePathChild
  cases hc : cache.children.lookup pathId with
  | none => exact mintPathChild_known info cache reg sessionId pathId
  | some childId =>
    have hext := refreshPathChild_extends reg childId sessionId pathId
    cases hr : reg.refreshPathChild childId sessionId pathId with
    | mk ok reg' =>
      rw [hr] at hext
      simp only [hr]
      cases ok with
      | true =>
        have hs : (reg.info.lookup childId).isSome :=
          refreshPathChild_true reg pathId (by rw [hr])
        exact ⟨childId, hc, hext childId hs⟩
      | false => exact mintPathChild_known info _ reg' sessionId pathId

lemma getOrCreatePathChild_keeps {q : Nat} (hq : cache.Knows reg q) :
    (getOrCreatePathChild info cache reg sessionId pathId).2.1.Knows
      (getOrCreatePathChild info cache reg sessionId pathId).2.2 q := by
  by_cases he : q = pathId
  · subst he
    exact getOrCreatePathChild_known info cache reg sessionId q
  obtain ⟨id, hid, hsome⟩ := hq
  unfold getOrCreatePathChild
  cases hc : cache.children.lookup pathId with
  | none => exact mintPathChild_keeps info cache reg sessionId pathId ⟨id, hid, hsome⟩
  | some childId =>
    have hext := refreshPathChild_extends reg childId sessionId pathId
    cases hr : reg.refreshPathChild childId sessionId pathId with
    | mk ok reg' =>
      rw [hr] at hext
      simp only [hr]
      cases ok with
      | true => exact ⟨id, hid, hext id hsome⟩
      | false =>
        refine mintPathChild_keeps info _ reg' sessionId pathId ⟨id, ?_, hext id hsome⟩
        exact (AList.lookup_erase_ne he).trans hid

end mint

end Netom
