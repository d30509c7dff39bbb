import Netom.Lib.Run
import Netom.Rib.Store
import Netom.Ingress.Register

/-!
# The RIB: announcements, withdrawals and sessions that come and go

The RIB keeps a unicast and a multicast store.  A session that goes down is withdrawn as a whole
by a mark beside the records; the records stay, and the mark is only cleared when the ingress
announces again in that family, which first rewrites what the previous session left.

What this is for is said by `AbsRib`: a map from family, prefix and ingress id to the attributes
that were announced last.  `Rib.visible` is what queries see of the stores.

* `visible_insertPrefix_active`, `visible_insertPrefix_withdrawn`  one route;
* `visible_withdrawForIngresses`, `visible_removeForIngresses`  whole sessions;
* `step_refines`  one operation of the RIB is one operation of the map;
* `rib_visible_eq_abs`  and so is every sequence of them;
* `visible_of_own`  other ingresses' operations do not matter.
-/

namespace Netom

structure Rib where
  unicast : Store
  multicast : Store
  ingressRegister : Register

def Rib.new (reg : Register) : Rib := ⟨Store.empty, Store.empty, reg⟩

/-- the store of a route -/
def Rib.store (rib : Rib) : Bool → Store
  | true => rib.multicast
  | false => rib.unicast

def Rib.setStore (rib : Rib) (multicast : Bool) (s : Store) : Rib :=
  match multicast with
  | true => { rib with multicast := s }
  | false => { rib with unicast := s }

variable (rib : Rib) (ids : List (IngressId × Option AfiSafiType))

lemma Rib.store_setStore (mc mc' : Bool) (s : Store) :
    (rib.setStore mc s).store mc' = if mc' = mc then s else rib.store mc' := by
  cases mc <;> cases mc' <;> rfl

/-! ## one route -/

/-- empty the retained records of a mui in a family, then clear its mark there -/
def resetPrefixFamily (s : Store) (mui : IngressId) (family : AddrFamily) : Store :=
  if s.muiIsWithdrawn family mui then
    (s.withdrawKeys fun k => k.1.family = family && k.2 = mui).markMuiAsActiveIn family mui
  else s

def Rib.insertPrefix (rib : Rib) (p : Prefix) (multicast : Bool) (pamap : RotondaPaMap)
    (routeStatus : RouteStatus) (mui : IngressId) (retainWithdrawnAttributes : Bool) : Rib :=
  let store := rib.store multicast
  if routeStatus = .withdrawn then
    if !retainWithdrawnAttributes then
      if !store.contains p mui then rib
      else rib.setStore multicast (store.insert p (withdrawnRecord mui))
    else rib.setStore multicast (store.markMuiAsWithdrawnForPrefix p mui)
  -- a reused mui may still own retained records of its previous session
  else if routeStatus = .active && store.muiIsWithdrawn p.family mui then
    let reset := resetPrefixFamily store mui p.family
    { rib.setStore multicast (reset.insert p ⟨mui, routeStatus, pamap⟩) with
      ingressRegister := rib.ingressRegister.updateInfo mui
        { IngressInfo.new with state := some .connected } }
  else rib.setStore multicast (store.insert p ⟨mui, routeStatus, pamap⟩)

/-! ## whole sessions -/

/-- the records of `ids` in the family, or in both, become withdrawn ones without attributes -/
def compactWithdrawnAttributesInStoreBatch (s : Store) (ids : List IngressId)
    (family : Option AddrFamily) : Store :=
  s.withdrawKeys fun k => family.all (k.1.family = ·) && ids.contains k.2

/-- the ids of one scope -/
def scopeBucket (ids : List (IngressId × Option AfiSafiType)) (scope : Option AfiSafiType) :
    List IngressId :=
  (ids.filter fun e => e.2 = scope).map (·.1)

def Rib.compactWithdrawnAttributesForIngresses (rib : Rib)
    (ids : List (IngressId × Option AfiSafiType)) : Rib :=
  let allAfis := scopeBucket ids none
  let compact := compactWithdrawnAttributesInStoreBatch
  { rib with
    unicast := compact (compact (compact rib.unicast allAfis none)
      (scopeBucket ids (some .ipv4Unicast)) (some .v4))
      (scopeBucket ids (some .ipv6Unicast)) (some .v6)
    multicast := compact (compact (compact rib.multicast allAfis none)
      (scopeBucket ids (some .ipv4Multicast)) (some .v4))
      (scopeBucket ids (some .ipv6Multicast)) (some .v6) }

/-- mark one ingress withdrawn in its scope; the flowspec store is not part of the model, and a
family that is never stored is only logged -/
def Rib.markWithdrawn (rib : Rib) (e : IngressId × Option AfiSafiType) : Rib :=
  match e.2 with
  | none =>
    { rib with
      unicast := rib.unicast.markMuiAsWithdrawn e.1
      multicast := rib.multicast.markMuiAsWithdrawn e.1 }
  | some .ipv4Unicast => { rib with unicast := rib.unicast.markMuiAsWithdrawnIn .v4 e.1 }
  | some .ipv6Unicast => { rib with unicast := rib.unicast.markMuiAsWithdrawnIn .v6 e.1 }
  | some .ipv4Multicast => { rib with multicast := rib.multicast.markMuiAsWithdrawnIn .v4 e.1 }
  | some .ipv6Multicast => { rib with multicast := rib.multicast.markMuiAsWithdrawnIn .v6 e.1 }
  | some _ => rib

def Rib.withdrawForIngresses (rib : Rib) (ids : List (IngressId × Option AfiSafiType))
    (retainWithdrawnAttributes : Bool) : Rib :=
  let rib := if !retainWithdrawnAttributes then rib.compactWithdrawnAttributesForIngresses ids
    else rib
  ids.foldl Rib.markWithdrawn rib

/-- physically remove every record of these ingresses -/
def Rib.removeForIngresses (rib : Rib) (ids : List IngressId) : Rib :=
  ids.foldl (fun rib id =>
    { rib with
      unicast := rib.unicast.removeMui id
      multicast := rib.multicast.removeMui id }) rib

/-- what the unit does on `IngressReappeared` -/
def Rib.ingressReappeared (rib : Rib) (id : IngressId) : Rib :=
  let rib := rib.removeForIngresses [id]
  { rib with
    ingressRegister := rib.ingressRegister.updateInfo id
      { IngressInfo.new with state := some .connected } }

/-! ## what queries see, and the map it should be -/

/-- the key of a route: its family is the address family of the prefix and unicast or multicast -/
structure RouteKey where
  multicast : Bool
  pfx : Prefix
  ingress : IngressId
  deriving DecidableEq, Repr

/-- the last announced attributes of every route that is up -/
abbrev AbsRib := RouteKey → Option RotondaPaMap

def Rib.visible (rib : Rib) : AbsRib := fun k => (rib.store k.multicast).active k.pfx k.ingress

/-- whether a withdrawal of an ingress in a scope takes a route with it -/
def inScope (scope : Option AfiSafiType) (k : RouteKey) : Bool :=
  match scope with
  | none => true
  | some .ipv4Unicast => !k.multicast && k.pfx.family = .v4
  | some .ipv6Unicast => !k.multicast && k.pfx.family = .v6
  | some .ipv4Multicast => k.multicast && k.pfx.family = .v4
  | some .ipv6Multicast => k.multicast && k.pfx.family = .v6
  | some _ => false

/-- some entry of `ids` takes the route with it -/
def coveredBy (ids : List (IngressId × Option AfiSafiType)) (k : RouteKey) : Bool :=
  ids.any fun e => e.1 = k.ingress && inScope e.2 k

namespace AbsRib

def announce (m : AbsRib) (k : RouteKey) (pamap : RotondaPaMap) : AbsRib :=
  Function.update m k (some pamap)

def withdraw (m : AbsRib) (k : RouteKey) : AbsRib := Function.update m k none

def withdrawIngresses (m : AbsRib) (ids : List (IngressId × Option AfiSafiType)) : AbsRib :=
  fun k => if coveredBy ids k then none else m k

def removeIngresses (m : AbsRib) (ids : List IngressId) : AbsRib :=
  fun k => if k.ingress ∈ ids then none else m k

end AbsRib

/-! ## one route refines -/

lemma Rib.visible_setStore (mc : Bool) (s : Store) (k : RouteKey) :
    (rib.setStore mc s).visible k =
      if k.multicast = mc then s.active k.pfx k.ingress else rib.visible k := by
  unfold Rib.visible
  rw [Rib.store_setStore]
  by_cases h : k.multicast = mc
  · rw [if_pos h, if_pos h]
  · rw [if_neg h, if_neg h]

lemma active_resetPrefixFamily (s : Store) (mui : IngressId) (family : AddrFamily) (p : Prefix)
    (m : IngressId) : (resetPrefixFamily s mui family).active p m = s.active p m := by
  unfold resetPrefixFamily
  by_cases hw : s.muiIsWithdrawn family mui = true
  · rw [if_pos hw, Store.active_markMuiAsActiveIn_withdrawKeys]
    by_cases hk : p.family = family ∧ m = mui
    · -- the mark hid whatever the reset overwrites
      obtain ⟨rfl, rfl⟩ := hk
      have hm : m ∈ s.withdrawnMuis p.family := by simpa [Store.muiIsWithdrawn] using hw
      rw [if_pos ⟨rfl, rfl⟩, Store.active_eq, if_pos hm]
    · rw [if_neg hk]
  · rw [if_neg hw]

lemma not_mem_resetPrefixFamily (s : Store) (mui : IngressId) (family : AddrFamily) :
    mui ∉ (resetPrefixFamily s mui family).withdrawnMuis family := by
  unfold resetPrefixFamily
  by_cases hw : s.muiIsWithdrawn family mui = true
  · rw [if_pos hw]
    simp [Store.markMuiAsActiveIn]
  · rw [if_neg hw]
    simpa [Store.muiIsWithdrawn] using hw

/-- an announcement into a store that is reset first: it shows itself and nothing else -/
lemma active_reset_insert (s : Store) (mui : IngressId) (q : Prefix) (pamap : RotondaPaMap)
    (p : Prefix) (m : IngressId) :
    ((resetPrefixFamily s mui q.family).insert q ⟨mui, .active, pamap⟩).active p m =
      if p = q ∧ m = mui then some pamap else s.active p m := by
  rw [Store.active_insert]
  by_cases hk : p = q ∧ m = mui
  · obtain ⟨rfl, rfl⟩ := hk
    simp [not_mem_resetPrefixFamily]
  · rw [if_neg hk, if_neg hk, active_resetPrefixFamily]

lemma insertPrefix_active_store (q : Prefix) (mc : Bool) (pamap : RotondaPaMap)
    (mui : IngressId) (retain : Bool) (mc' : Bool) :
    (rib.insertPrefix q mc pamap .active mui retain).store mc' =
      (rib.setStore mc ((resetPrefixFamily (rib.store mc) mui q.family).insert q
        ⟨mui, .active, pamap⟩)).store mc' := by
  unfold Rib.insertPrefix
  by_cases hw : (rib.store mc).muiIsWithdrawn q.family mui = true
  · simp only [reduceCtorEq, if_false, hw, decide_true, Bool.and_true, if_true]
    cases mc <;> cases mc' <;> rfl
  · have hr : resetPrefixFamily (rib.store mc) mui q.family = rib.store mc := if_neg hw
    simp [hw, hr]

/-- a store in which only the route of `q` from `mui` has changed -/
lemma visible_setStore_update (mc : Bool) (q : Prefix) (mui : IngressId) (s : Store)
    (v : Option RotondaPaMap)
    (hs : ∀ p m, s.active p m = if p = q ∧ m = mui then v else (rib.store mc).active p m) :
    (rib.setStore mc s).visible = Function.update rib.visible ⟨mc, q, mui⟩ v := by
  funext k
  rw [Rib.visible_setStore, hs]
  by_cases hk : k = ⟨mc, q, mui⟩
  · subst hk
    simp
  · rw [Function.update_of_ne hk]
    by_cases hm : k.multicast = mc
    · have hp : ¬ (k.pfx = q ∧ k.ingress = mui) := by
        rintro ⟨h1, h2⟩
        exact hk (by rw [← hm, ← h1, ← h2])
      rw [if_pos hm, if_neg hp, ← hm]
      rfl
    · rw [if_neg hm]

lemma visible_insertPrefix_active (q : Prefix) (mc : Bool) (pamap : RotondaPaMap)
    (mui : IngressId) (retain : Bool) : (rib.insertPrefix q mc pamap .active mui retain).visible =
      AbsRib.announce rib.visible ⟨mc, q, mui⟩ pamap := by
  refine Eq.trans (funext fun k => ?_) (visible_setStore_update rib mc q mui _ (some pamap)
    (active_reset_insert (rib.store mc) mui q pamap))
  show ((rib.insertPrefix q mc pamap .active mui retain).store k.multicast).active _ _ = _
  rw [insertPrefix_active_store]
  rfl

lemma visible_setStore_withdrawn (mc : Bool) (q : Prefix) (mui : IngressId) (s : Store)
    (hs : ∀ p m, s.active p m = if p = q ∧ m = mui then none else (rib.store mc).active p m) :
    (rib.setStore mc s).visible = AbsRib.withdraw rib.visible ⟨mc, q, mui⟩ :=
  visible_setStore_update rib mc q mui s none hs

lemma visible_insertPrefix_withdrawn (q : Prefix) (mc : Bool) (pamap : RotondaPaMap)
    (mui : IngressId) (retain : Bool) :
    (rib.insertPrefix q mc pamap .withdrawn mui retain).visible =
      AbsRib.withdraw rib.visible ⟨mc, q, mui⟩ := by
  unfold Rib.insertPrefix
  cases retain with
  | true =>
    apply visible_setStore_withdrawn
    intro p m
    exact (rib.store mc).active_markMuiAsWithdrawnForPrefix q mui p m
  | false =>
    cases hc : (rib.store mc).contains q mui with
    | true =>
      simp only [if_true, Bool.not_false, hc, Bool.not_true, Bool.false_eq_true, if_false]
      apply visible_setStore_withdrawn
      intro p m
      rw [Store.active_insert]
      simp [withdrawnRecord]
    | false =>
      -- nothing is stored, so nothing is visible
      have hn : (rib.store mc).get q mui = none := by simpa [Store.contains] using hc
      have hnone : rib.visible ⟨mc, q, mui⟩ = none := by simp [Rib.visible, Store.active, hn]
      simp only [if_true, Bool.not_false, hc]
      unfold AbsRib.withdraw
      rw [← hnone, Function.update_eq_self]

/-! ## whole sessions refine -/

lemma active_compact (s : Store) (ids : List IngressId) (family : Option AddrFamily)
    (p : Prefix) (m : IngressId) :
    (compactWithdrawnAttributesInStoreBatch s ids family).active p m =
      if (∀ f ∈ family, p.family = f) ∧ m ∈ ids then none else s.active p m := by
  unfold compactWithdrawnAttributesInStoreBatch
  rw [Store.active_withdrawKeys]
  cases family with
  | none | some f => simp

lemma mem_scopeBucket {ids : List (IngressId × Option AfiSafiType)} {scope : Option AfiSafiType}
    {id : IngressId} : id ∈ scopeBucket ids scope ↔ (id, scope) ∈ ids := by
  unfold scopeBucket
  simp only [List.mem_map, List.mem_filter, decide_eq_true_eq]
  constructor
  · rintro ⟨⟨i, sc⟩, ⟨hm, rfl⟩, rfl⟩
    exact hm
  · intro h
    exact ⟨(id, scope), ⟨h, rfl⟩, rfl⟩

lemma coveredBy_iff {ids : List (IngressId × Option AfiSafiType)} {k : RouteKey} :
    coveredBy ids k = true ↔ ∃ scope, (k.ingress, scope) ∈ ids ∧ inScope scope k = true := by
  unfold coveredBy
  simp only [List.any_eq_true, Bool.and_eq_true, decide_eq_true_eq]
  constructor
  · rintro ⟨⟨i, sc⟩, hm, rfl, hs⟩
    exact ⟨sc, hm, hs⟩
  · rintro ⟨sc, hm, hs⟩
    exact ⟨(k.ingress, sc), hm, rfl, hs⟩

/-- what compaction takes from sight is covered by the withdrawal that follows it -/
lemma visible_compact (k : RouteKey) (h : coveredBy ids k = false) :
    (rib.compactWithdrawnAttributesForIngresses ids).visible k = rib.visible k := by
  have hn : ∀ scope, inScope scope k = true → (k.ingress, scope) ∉ ids := by
    intro scope hs hm
    rw [coveredBy_iff.mpr ⟨scope, hm, hs⟩] at h
    cases h
  have hall := hn none rfl
  obtain ⟨mc, p, i⟩ := k
  cases mc with
  | false =>
    show (compactWithdrawnAttributesInStoreBatch _ _ _).active p i = rib.unicast.active p i
    rw [active_compact, active_compact, active_compact]
    simp only [mem_scopeBucket]
    cases hf : p.family with
    | v4 => simp [hall, hn (some .ipv4Unicast) (by simp [inScope, hf])]
    | v6 => simp [hall, hn (some .ipv6Unicast) (by simp [inScope, hf])]
  | true =>
    show (compactWithdrawnAttributesInStoreBatch _ _ _).active p i = rib.multicast.active p i
    rw [active_compact, active_compact, active_compact]
    simp only [mem_scopeBucket]
    cases hf : p.family with
    | v4 => simp [hall, hn (some .ipv4Multicast) (by simp [inScope, hf])]
    | v6 => simp [hall, hn (some .ipv6Multicast) (by simp [inScope, hf])]

lemma visible_markWithdrawn (e : IngressId × Option AfiSafiType) (k : RouteKey) :
    (rib.markWithdrawn e).visible k =
      if k.ingress = e.1 ∧ inScope e.2 k = true then none else rib.visible k := by
  obtain ⟨id, scope⟩ := e
  obtain ⟨mc, p, i⟩ := k
  cases scope with
  | none =>
    cases mc <;>
      simp [Rib.markWithdrawn, Rib.visible, Rib.store, inScope, Store.active_markMuiAsWithdrawn]
  | some fam =>
    cases fam <;> cases mc <;>
      simp [Rib.markWithdrawn, Rib.visible, Rib.store, inScope,
        Store.active_markMuiAsWithdrawnIn, and_comm]

lemma visible_foldl_markWithdrawn (rib : Rib) (k : RouteKey) :
    (ids.foldl Rib.markWithdrawn rib).visible k =
      if coveredBy ids k then none else rib.visible k := by
  induction ids generalizing rib with
  | nil => rfl
  | cons e ids ih =>
    rw [List.foldl_cons, ih, visible_markWithdrawn]
    unfold coveredBy
    rw [List.any_cons]
    by_cases he : k.ingress = e.1 ∧ inScope e.2 k = true
    · simp [he.1, he.2]
    · have he' : (decide (e.1 = k.ingress) && inScope e.2 k) = false := by
        by_contra hne
        simp only [Bool.not_eq_false, Bool.and_eq_true, decide_eq_true_eq] at hne
        exact he ⟨hne.1.symm, hne.2⟩
      rw [if_neg he, he', Bool.false_or]

lemma visible_withdrawForIngresses (retain : Bool) : (rib.withdrawForIngresses ids retain).visible =
      AbsRib.withdrawIngresses rib.visible ids := by
  funext k
  unfold Rib.withdrawForIngresses AbsRib.withdrawIngresses
  rw [visible_foldl_markWithdrawn]
  cases hc : coveredBy ids k with
  | true => rfl
  | false =>
    cases retain with
    | true => rfl
    | false => exact visible_compact rib ids k hc

lemma visible_removeForIngresses (ids : List IngressId) :
    (rib.removeForIngresses ids).visible = AbsRib.removeIngresses rib.visible ids := by
  funext k
  unfold Rib.removeForIngresses AbsRib.removeIngresses
  induction ids generalizing rib with
  | nil => rfl
  | cons id ids ih =>
    rw [List.foldl_cons, ih]
    have h1 : Rib.visible { rib with
        unicast := rib.unicast.removeMui id
        multicast := rib.multicast.removeMui id } k =
        if k.ingress = id then none else rib.visible k := by
      obtain ⟨mc, p, i⟩ := k
      cases mc with
      | false => exact rib.unicast.active_removeMui id p i
      | true => exact rib.multicast.active_removeMui id p i
    rw [h1]
    by_cases hi : k.ingress = id
    · simp [hi]
    · simp [hi]

/-! ## every sequence of operations -/

/-- the operations on the RIB; the retention of withdrawn attributes may be reconfigured between
any two of them -/
inductive RibOp where
  | announce (multicast : Bool) (p : Prefix) (id : IngressId) (pamap : RotondaPaMap)
      (retain : Bool)
  | withdraw (multicast : Bool) (p : Prefix) (id : IngressId) (retain : Bool)
  | withdrawForIngresses (ids : List (IngressId × Option AfiSafiType)) (retain : Bool)
  | removeForIngresses (ids : List IngressId)
  | ingressReappeared (id : IngressId)
  deriving DecidableEq, Repr

def Rib.step (rib : Rib) : RibOp → Rib
  | .announce mc p id pamap retain => rib.insertPrefix p mc pamap .active id retain
  | .withdraw mc p id retain =>
    rib.insertPrefix p mc RotondaPaMap.emptyPathAttributes .withdrawn id retain
  | .withdrawForIngresses ids retain => rib.withdrawForIngresses ids retain
  | .removeForIngresses ids => rib.removeForIngresses ids
  | .ingressReappeared id => rib.ingressReappeared id

/-- the same operations on the map: a withdrawal deletes, an announcement adds only itself -/
def AbsRib.step (m : AbsRib) : RibOp → AbsRib
  | .announce mc p id pamap _ => m.announce ⟨mc, p, id⟩ pamap
  | .withdraw mc p id _ => m.withdraw ⟨mc, p, id⟩
  | .withdrawForIngresses ids _ => m.withdrawIngresses ids
  | .removeForIngresses ids => m.removeIngresses ids
  | .ingressReappeared id => m.removeIngresses [id]

lemma step_refines (op : RibOp) : (rib.step op).visible = rib.visible.step op := by
  cases op with
  | announce mc p id pamap retain => exact visible_insertPrefix_active rib p mc pamap id retain
  | withdraw mc p id retain =>
    exact visible_insertPrefix_withdrawn rib p mc RotondaPaMap.emptyPathAttributes id retain
  | withdrawForIngresses ids retain => exact visible_withdrawForIngresses rib ids retain
  | removeForIngresses ids => exact visible_removeForIngresses rib ids
  | ingressReappeared id => exact visible_removeForIngresses rib [id]

lemma visible_new (reg : Register) : (Rib.new reg).visible = fun _ => none := by
  funext k
  cases hk : k.multicast <;> simp [Rib.visible, Rib.new, Rib.store, hk, Store.active, Store.get,
    Store.empty]

/-- **What queries see of the RIB after any operations is the map after the same operations**; in
particular an announcement makes no other route visible. -/
theorem rib_visible_eq_abs (reg : Register) (ops : List RibOp) :
    (Run.run Rib.step (Rib.new reg) ops).visible = Run.run AbsRib.step (fun _ => none) ops ∧
    ∀ mc p id pamap retain k, k ≠ (⟨mc, p, id⟩ : RouteKey) →
      (Run.run Rib.step (Rib.new reg) (ops ++ [.announce mc p id pamap retain])).visible k =
        (Run.run Rib.step (Rib.new reg) ops).visible k := by
  have hsim : ∀ ops, (Run.run Rib.step (Rib.new reg) ops).visible =
      Run.run AbsRib.step (fun _ => none) ops := by
    intro ops
    rw [Run.run_sim step_refines, visible_new]
  refine ⟨hsim ops, ?_⟩
  intro mc p id pamap retain k hk
  rw [hsim, hsim, Run.run_append]
  show Function.update _ _ _ k = _
  rw [Function.update_of_ne hk]

/-! ## the operations of other sessions -/

def RibOp.concerns (id : IngressId) : RibOp → Bool
  | .announce _ _ i _ _ | .withdraw _ _ i _ | .ingressReappeared i => i = id
  | .withdrawForIngresses ids _ => ids.any (·.1 = id)
  | .removeForIngresses ids => ids.any (· = id)

lemma AbsRib.step_of_not_concerns (m : AbsRib) {op : RibOp} {k : RouteKey}
    (h : op.concerns k.ingress = false) : m.step op k = m k := by
  cases op with
  | announce mc p i pamap retain | withdraw mc p i retain =>
    refine Function.update_of_ne ?_ _ _
    rintro rfl
    exact of_decide_eq_false h rfl
  | withdrawForIngresses ids retain =>
    have hc : coveredBy ids k = false := by
      refine List.any_eq_false.mpr fun e he => ?_
      simp [List.any_eq_false.mp h e he]
    simp [AbsRib.step, withdrawIngresses, hc]
  | removeForIngresses ids =>
    refine if_neg fun hm => ?_
    exact absurd (decide_eq_true rfl) (List.any_eq_false.mp h _ hm)
  | ingressReappeared i =>
    refine if_neg fun hm => ?_
    exact of_decide_eq_false h (List.mem_singleton.mp hm).symm

/-- **What is visible of an ingress is what its own operations have made of it**, in their order,
whatever operations of others they were mixed with. -/
theorem visible_of_own (ops : List RibOp) (k : RouteKey) :
    (Run.run Rib.step rib ops).visible k =
      (Run.run Rib.step rib (ops.filter (·.concerns k.ingress))).visible k := by
  have hview : ∀ (m m' : AbsRib) (op : RibOp), m k = m' k → m.step op k = m'.step op k := by
    intro m m' op h
    cases op <;> simp only [AbsRib.step, AbsRib.announce, AbsRib.withdraw,
      AbsRib.withdrawIngresses, AbsRib.removeIngresses, Function.update_apply, h]
  rw [Run.run_sim step_refines, Run.run_sim step_refines]
  exact Run.run_filter hview (fun m op h => m.step_of_not_concerns h) rfl ops

end Netom
