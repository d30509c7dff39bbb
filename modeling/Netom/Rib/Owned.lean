import Netom.FlowSpec.Rib
import Netom.Ingress.Claims

/-!
# What an ingress owns, and when a path child was last used

* `FlowRib.activeAt`  the ingress owns an active record at a slot of the stores;
* `activeAt_of_announcement`, `activeAt_of_removal`  an announcement gives records to its own ingress
  only, and nothing else gives any;
* `Register.activity`  the activity count of a path child;
* `RegisterOp.activity_effect`  an operation on the register leaves the count, ends it or moves it on,
  unless it writes a path child where there was none;
* `advances_refreshPathChild`, `advances_claim_pathChild`  the two that move it on.
-/

namespace Netom
open Register FlowSpecStore List

/-! ## what an ingress owns -/

inductive StoreKind where
  | unicast
  | multicast
  | flowspec
  deriving DecidableEq, Repr

/-- a prefix in one of the stores -/
structure Slot where
  kind : StoreKind
  pfx : Prefix
  deriving DecidableEq, Repr

namespace FlowRib
variable (r : FlowRib)

/-- the ingress owns an active record at the slot; a set of rules is one unless it is empty -/
def activeAt (slot : Slot) (id : IngressId) : Bool :=
  match slot.kind with
  | .unicast => (r.rib.visible ⟨false, slot.pfx, id⟩).isSome
  | .multicast => (r.rib.visible ⟨true, slot.pfx, id⟩).isSome
  | .flowspec => !(r.flowspec.visible slot.pfx id).isEmpty

def recordKeys : StoreKind → List (Prefix × IngressId)
  | .unicast => r.rib.unicast.records.keys
  | .multicast => r.rib.multicast.records.keys
  | .flowspec => r.flowspec.records.keys

/-- `prefixes_keys_iter` of both families -/
def prefixesKeys (kind : StoreKind) : List Slot := (r.recordKeys kind).map fun k => ⟨kind, k.1⟩

/-- the ingresses of `get_records_for_prefix` without the withdrawn ones -/
def activeMuis (slot : Slot) : List IngressId :=
  ((r.recordKeys slot.kind).map (·.2)).filter (r.activeAt slot)

variable {r}

lemma mem_recordKeys {slot : Slot} {id : IngressId} (h : r.activeAt slot id = true) :
    (slot.pfx, id) ∈ r.recordKeys slot.kind := by
  have hstore : ∀ s : Store, (s.active slot.pfx id).isSome = true →
      (slot.pfx, id) ∈ s.records.keys := by
    intro s hs
    unfold Store.active Store.get at hs
    cases hl : s.records.lookup (slot.pfx, id) with
    | none =>
      rw [hl] at hs
      cases hs
    | some rec => exact AList.lookup_isSome.mp (by rw [hl]; rfl)
  unfold activeAt at h
  unfold recordKeys
  cases hk : slot.kind with
  | unicast | multicast =>
    rw [hk] at h
    exact hstore _ h
  | flowspec =>
    rw [hk] at h
    have hv : r.flowspec.visible slot.pfx id ≠ [] := by
      intro hnil
      rw [hnil] at h
      cases h
    cases hl : r.flowspec.records.lookup (slot.pfx, id) with
    | none =>
      refine absurd ?_ hv
      unfold FlowSpecStore.visible FlowSpecStore.get
      rw [hl]
      simp
    | some rec => exact AList.lookup_isSome.mp (by rw [hl]; rfl)

lemma mem_activeMuis {slot : Slot} {id : IngressId} (h : r.activeAt slot id = true) :
    id ∈ r.activeMuis slot :=
  mem_filter.mpr ⟨mem_map.mpr ⟨(slot.pfx, id), mem_recordKeys h, rfl⟩, h⟩

end FlowRib

/-! ## announcements and the rest -/

/-- a route or a rule that is announced -/
inductive Announcement (env : FlowSpecEnv) where
  | route (p : Prefix) (multicast : Bool) (pamap : RotondaPaMap) (retain : Bool)
  | rule (family : AddrFamily) (n : FlowSpecNlri) (parsed : env.Parsed family n)
      (pamap : RotondaPaMap)

def Announcement.op {env : FlowSpecEnv} (mui : IngressId) : Announcement env → FlowRibOp env
  | .route p multicast pamap retain => .insertPrefix p multicast pamap .active mui retain
  | .rule family n parsed pamap => .insertFlowspec family n parsed pamap true mui

/-- what takes records away -/
inductive Removal (env : FlowSpecEnv) where
  | route (p : Prefix) (multicast : Bool) (pamap : RotondaPaMap) (mui : IngressId) (retain : Bool)
  | rule (family : AddrFamily) (n : FlowSpecNlri) (parsed : env.Parsed family n)
      (pamap : RotondaPaMap) (mui : IngressId)
  | withdrawForIngresses (ids : List (IngressId × Option AfiSafiType)) (retain : Bool)
  | removeForIngresses (ids : List IngressId)

def Removal.op {env : FlowSpecEnv} : Removal env → FlowRibOp env
  | .route p multicast pamap mui retain => .insertPrefix p multicast pamap .withdrawn mui retain
  | .rule family n parsed pamap mui => .insertFlowspec family n parsed pamap false mui
  | .withdrawForIngresses ids retain => .withdrawForIngresses ids retain
  | .removeForIngresses ids => .removeForIngresses ids

namespace FlowRib
variable {env : FlowSpecEnv} {r r' : FlowRib} {slot : Slot} {id : IngressId}

lemma activeAt_of_visible
    (hroute : ∀ mc p, r'.rib.visible ⟨mc, p, id⟩ = none ∨
      r'.rib.visible ⟨mc, p, id⟩ = r.rib.visible ⟨mc, p, id⟩)
    (hrule : ∀ p, (r'.flowspec.visible p id).length ≤ (r.flowspec.visible p id).length)
    (h : r'.activeAt slot id = true) : r.activeAt slot id = true := by
  have hold : ∀ mc, (r'.rib.visible ⟨mc, slot.pfx, id⟩).isSome = true →
      (r.rib.visible ⟨mc, slot.pfx, id⟩).isSome = true := by
    intro mc hs
    rcases hroute mc slot.pfx with hn | he
    · rw [hn] at hs
      cases hs
    · rwa [he] at hs
  unfold activeAt at h ⊢
  cases hk : slot.kind with
  | unicast =>
    rw [hk] at h
    exact hold false h
  | multicast =>
    rw [hk] at h
    exact hold true h
  | flowspec =>
    rw [hk] at h
    have hle := hrule slot.pfx
    have hpos : (r'.flowspec.visible slot.pfx id).length ≠ 0 := by
      intro h0
      rw [length_eq_zero_iff.mp h0] at h
      cases h
    show (!(r.flowspec.visible slot.pfx id).isEmpty) = true
    rw [Bool.not_eq_true', isEmpty_eq_false_iff]
    intro hnil
    rw [hnil, length_nil] at hle
    omega

lemma activeAt_of_announcement (a : Announcement env) {mui : IngressId} (hne : id ≠ mui)
    (h : (r.step env (a.op mui)).activeAt slot id = true) : r.activeAt slot id = true := by
  refine activeAt_of_visible ?_ ?_ h
  · intro mc p
    refine .inr ?_
    cases a with
    | route q multicast pamap retain =>
      show (r.rib.insertPrefix q multicast pamap .active mui retain).visible _ = _
      rw [visible_insertPrefix_active]
      exact Function.update_of_ne (fun hk => hne (congrArg RouteKey.ingress hk)) _ _
    | rule family n parsed pamap =>
      show (r.insertFlowspec env n.raw pamap (indexPrefix family n) true mui).rib.visible _ = _
      by_cases hw : r.flowspec.muiIsWithdrawn (indexPrefix family n).family mui = true
      · simp only [insertFlowspec, hw]
        rfl
      · simp only [insertFlowspec, hw]
        rfl
  · intro p
    refine Nat.le_of_eq (congrArg length ?_)
    cases a with
    | route q multicast pamap retain => rfl
    | rule family n parsed pamap =>
      have hk : ¬ (p = indexPrefix family n ∧ id = mui) := fun h => hne h.2
      show (r.insertFlowspec env n.raw pamap (indexPrefix family n) true mui).flowspec.visible p id
        = _
      by_cases hw : r.flowspec.muiIsWithdrawn (indexPrefix family n).family mui = true
      · simp only [insertFlowspec, hw, if_true]
        rw [visible_announceRule_of_ne _ _ _ _ hk,
          r.flowspec.visible_resetFlowspecFamily hw]
      · simp only [insertFlowspec, hw, if_true]
        exact visible_announceRule_of_ne _ _ _ _ hk

lemma length_visible_withdrawRule_le (s : FlowSpecStore) (key : Prefix) (mui : IngressId)
    (nlri : RawNlri) (p : Prefix) (m : IngressId) :
    ((s.withdrawRule key mui nlri).2.visible p m).length ≤ (s.visible p m).length := by
  by_cases hk : p = key ∧ m = mui
  · obtain ⟨rfl, rfl⟩ := hk
    cases hw : s.muiIsWithdrawn p.family m with
    | true => rw [s.visible_withdrawRule_of_withdrawn hw]
    | false =>
      have hl := s.length_visible_withdrawRule hw nlri
      omega
  · rw [s.visible_withdrawRule_of_ne key mui nlri hk]

lemma activeAt_of_removal (o : Removal env) (h : (r.step env o.op).activeAt slot id = true) :
    r.activeAt slot id = true := by
  refine activeAt_of_visible ?_ ?_ h
  · intro mc p
    cases o with
    | route q multicast pamap mui retain =>
      show (r.rib.insertPrefix q multicast pamap .withdrawn mui retain).visible _ = none ∨
        (r.rib.insertPrefix q multicast pamap .withdrawn mui retain).visible _ = _
      rw [visible_insertPrefix_withdrawn]
      by_cases hk : (⟨mc, p, id⟩ : RouteKey) = ⟨multicast, q, mui⟩
      · exact .inl (by rw [AbsRib.withdraw, hk, Function.update_self])
      · exact .inr (Function.update_of_ne hk _ _)
    | rule family n parsed pamap mui => exact .inr rfl
    | withdrawForIngresses ids retain =>
      show (r.rib.withdrawForIngresses ids retain).visible _ = none ∨
        (r.rib.withdrawForIngresses ids retain).visible _ = _
      rw [visible_withdrawForIngresses]
      exact ite_eq_or_eq _ _ _
    | removeForIngresses ids =>
      show (r.rib.removeForIngresses ids).visible _ = none ∨
        (r.rib.removeForIngresses ids).visible _ = _
      rw [visible_removeForIngresses]
      exact ite_eq_or_eq _ _ _
  · intro p
    cases o with
    | route q multicast pamap mui retain => exact le_refl _
    | rule family n parsed pamap mui =>
      exact length_visible_withdrawRule_le r.flowspec (indexPrefix family n) mui n.raw p id
    | withdrawForIngresses ids retain =>
      show ((r.flowspec.withdrawForIngresses ids retain).visible p id).length ≤ _
      rw [visible_withdrawForIngresses_flowspec]
      split
      · exact Nat.zero_le _
      · exact le_refl _
    | removeForIngresses ids =>
      show ((r.flowspec.removeForIngresses ids).visible p id).length ≤ _
      rw [visible_removeForIngresses_flowspec]
      split
      · exact Nat.zero_le _
      · exact le_refl _

end FlowRib

/-! ## the activity count -/

namespace IngressInfo

/-- the count of a path child -/
def activity (info : IngressInfo) : Option Nat :=
  if info.ingressType = some .bgpPath then some info.pathActivity else none

lemma activity_congr {info info' : IngressInfo} (ht : info'.ingressType = info.ingressType)
    (ha : info'.pathActivity = info.pathActivity) : info'.activity = info.activity := by
  unfold activity
  rw [ht, ha]

end IngressInfo

def Register.activity (reg : Register) (id : IngressId) : Option Nat :=
  (reg.info.lookup id).bind IngressInfo.activity

/-- what a step leaves of a count: as it was, gone, or moved on -/
inductive CountMoves (old new : Option Nat) : Prop
  | same (h : new = old)
  | gone (h : new = none)
  | next (n : Nat) (ho : old = some n) (hn : new = some (saturatingSucc n))

namespace Register
variable {reg : Register}

variable {info : IngressInfo} {id : IngressId}

lemma activity_of_lookup (h : reg.info.lookup id = some info) :
    reg.activity id = info.activity := by
  unfold activity
  rw [h]
  rfl

variable {reg' : Register}

lemma activity_congr (h : reg'.info.lookup id = reg.info.lookup id) :
    reg'.activity id = reg.activity id := by
  unfold activity
  rw [h]

/-- a write that says nothing of the type leaves every count -/
lemma activity_updateInfo_untyped {new : IngressInfo} (hn : new.ingressType = none)
    (id k : IngressId) : (reg.updateInfo id new).activity k = reg.activity k := by
  unfold activity
  rw [lookup_updateInfo]
  by_cases hk : k = id
  · subst hk
    rw [if_pos rfl]
    cases hl : reg.info.lookup k with
    | none =>
      show new.activity = none
      rw [IngressInfo.activity, hn]
      rfl
    | some old =>
      show (old.merge new).activity = old.activity
      refine IngressInfo.activity_congr ?_ rfl
      show updateField old.ingressType new.ingressType = _
      rw [hn]
      rfl
  · rw [if_neg hk]

/-- any other write at most ends a path child, or begins one -/
lemma activity_updateInfo (id k : IngressId) (new : IngressInfo) :
    CountMoves (reg.activity k) ((reg.updateInfo id new).activity k) ∨
      (k = id ∧ new.ingressType = some .bgpPath ∧ reg.activity id = none) := by
  by_cases hk : k = id
  · subst hk
    have hl' := reg.lookup_updateInfo k new k
    rw [if_pos rfl] at hl'
    have ha' := activity_of_lookup hl'
    rw [ha']
    cases hl : reg.info.lookup k with
    | none =>
      have ha : reg.activity k = none := by
        unfold activity
        rw [hl]
        rfl
      by_cases ht : new.ingressType = some .bgpPath
      · exact .inr ⟨rfl, ht, ha⟩
      · exact .inl (.gone (if_neg ht))
    | some old =>
      rw [activity_of_lookup hl]
      show CountMoves old.activity (old.merge new).activity ∨ _
      by_cases ht : (old.merge new).ingressType = some .bgpPath
      · by_cases hold : old.ingressType = some .bgpPath
        · exact .inl (.same (IngressInfo.activity_congr (ht.trans hold.symm) rfl))
        · refine .inr ⟨rfl, ?_, if_neg hold⟩
          have hu : updateField old.ingressType new.ingressType = some .bgpPath := ht
          unfold updateField at hu
          by_cases hs : new.ingressType.isSome = true
          · rwa [if_pos hs] at hu
          · rw [if_neg hs] at hu
            exact absurd hu hold
      · exact .inl (.gone (if_neg ht))
  · exact .inl (.same (activity_congr ((reg.lookup_updateInfo id new k).trans (if_neg hk))))

variable {parent : IngressId}

lemma ingressType_of_isPathChild {pathId : Nat} (hc : isPathChild parent pathId info = true) :
    info.ingressType = some .bgpPath :=
  of_decide_eq_true (Bool.and_eq_true_iff.mp (Bool.and_eq_true_iff.mp hc).1).1

/-- the count of `id` alone moves on -/
structure Advances (reg reg' : Register) (id : IngressId) : Prop where
  at_id : ∃ n, reg.activity id = some n ∧ reg'.activity id = some (saturatingSucc n)
  others : ∀ k, k ≠ id → reg'.activity k = reg.activity k

lemma Advances.moves (h : reg.Advances reg' id) (k : IngressId) :
    CountMoves (reg.activity k) (reg'.activity k) := by
  by_cases hk : k = id
  · obtain ⟨n, ho, hn⟩ := h.at_id
    rw [hk]
    exact .next n ho hn
  · exact .same (h.others k hk)

lemma advances_of_lookup {info' : IngressInfo}
    (hl : reg.info.lookup id = some info) (ht : info.ingressType = some .bgpPath)
    (ht' : info'.ingressType = some .bgpPath)
    (ha : info'.pathActivity = saturatingSucc info.pathActivity)
    (hk : ∀ k, reg'.info.lookup k = if k = id then some info' else reg.info.lookup k) :
    reg.Advances reg' id where
  at_id := by
    refine ⟨info.pathActivity, (activity_of_lookup hl).trans (if_pos ht), ?_⟩
    rw [activity_of_lookup ((hk id).trans (if_pos rfl)), IngressInfo.activity, if_pos ht', ha]
  others k hne := activity_congr ((hk k).trans (if_neg hne))

/-- a refresh that succeeds moves the count of its child on -/
lemma advances_refreshPathChild {pathId : Nat}
    (h : (reg.refreshPathChild id parent pathId).1 = true) :
    reg.Advances (reg.refreshPathChild id parent pathId).2 id := by
  rcases reg.refreshPathChild_cases id parent pathId with ⟨hr, _⟩ | ⟨info, reg', hr, hl, hc, _, hk⟩
  · rw [hr] at h
    cases h
  · have ht := ingressType_of_isPathChild hc
    rw [hr]
    exact advances_of_lookup hl ht (by exact ht) rfl hk

lemma advances_claim_pathChild {pick id : IngressId} {pathId : Nat}
    (h : (reg.claim (.pathChild parent pathId) pick).1 = some id) :
    reg.Advances (reg.claim (.pathChild parent pathId) pick).2 id := by
  rcases reg.claim_cases (.pathChild parent pathId) pick with hc | ⟨id', info, reg', hc, hl, ha, _, hk⟩
  · rw [hc] at h
    cases h
  · rw [hc] at h
    cases h
    have ht := ingressType_of_isPathChild (Bool.and_eq_true_iff.mp ha).2
    rw [hc]
    exact advances_of_lookup hl ht (by exact ht) rfl hk

lemma activity_changed {info' : IngressInfo} (hl : reg.info.lookup id = some info)
    (hk : ∀ k, reg'.info.lookup k = if k = id then some info' else reg.info.lookup k)
    (ha : info'.activity = info.activity) (k : IngressId) : reg'.activity k = reg.activity k := by
  by_cases hkid : k = id
  · rw [hkid, activity_of_lookup hl, activity_of_lookup ((hk id).trans (if_pos rfl)), ha]
  · exact activity_congr ((hk k).trans (if_neg hkid))

lemma activity_claim (c : Claim) (pick k : IngressId) :
    CountMoves (reg.activity k) ((reg.claim c pick).2.activity k) := by
  rcases reg.claim_cases c pick with hc | ⟨id, info, reg', hc, hl, ha, _, hk⟩
  · rw [hc]
    exact .same rfl
  · cases c with
    | pathChild parent pathId =>
      have hid : (reg.claim (.pathChild parent pathId) pick).1 = some id := by rw [hc]
      exact (advances_claim_pathChild hid).moves k
    | bgpSession query | peer query | bmpRouter query =>
      rw [hc]
      exact .same (activity_changed hl hk (IngressInfo.activity_congr rfl rfl) k)

lemma activity_retirePathChild (id : IngressId) (n : Nat) (k : IngressId) :
    (reg.retirePathChild id n).2.activity k = reg.activity k := by
  rcases reg.retirePathChild_cases id n with hr | ⟨info, reg', hr, hl, _, _, hk⟩
  · rw [hr]
  · rw [hr]
    exact activity_changed hl hk (IngressInfo.activity_congr rfl rfl) k

lemma activity_of_retired {n : Nat} (h : (reg.retirePathChild id n).1 = true) :
    reg.activity id = some n ∧ n ≠ 2 ^ 64 - 1 := by
  unfold retirePathChild at h
  cases hl : reg.info.lookup id with
  | none =>
    rw [hl] at h
    cases h
  | some info =>
    rw [hl] at h
    by_cases hc : (info.ingressType != some .bgpPath || info.state != some .connected ||
        info.pathActivity != n || n == 2 ^ 64 - 1) = true
    · have h' : (if (info.ingressType != some .bgpPath || info.state != some .connected ||
        info.pathActivity != n || n == 2 ^ 64 - 1) = true then (false, reg) else _).1 = true := h
      rw [if_pos hc] at h'
      cases h'
    · simp only [Bool.or_eq_true, not_or, bne_iff_ne, ne_eq, not_not, beq_iff_eq] at hc
      obtain ⟨⟨⟨ht, _⟩, ha⟩, hn⟩ := hc
      refine ⟨?_, hn⟩
      rw [activity_of_lookup hl, IngressInfo.activity, if_pos ht, ha]

lemma activity_remove (id k : IngressId) :
    CountMoves (reg.activity k) ((reg.remove id).activity k) := by
  by_cases hk : k = id
  · refine .gone ?_
    unfold activity
    rw [lookup_remove, if_pos hk]
    rfl
  · exact .same (activity_congr ((reg.lookup_remove id k).trans (if_neg hk)))

lemma activity_markDisconnected (id k : IngressId) :
    (reg.markDisconnected id).activity k = reg.activity k := by
  unfold activity
  rw [lookup_markDisconnected]
  by_cases hk : k = id
  · rw [if_pos hk]
    cases reg.info.lookup k with
    | none => rfl
    | some info => exact IngressInfo.activity_congr rfl rfl
  · rw [if_neg hk]

end Register

/-- an operation on the register moves a count on, ends it or leaves it, unless it writes a path
child where there was none -/
lemma RegisterOp.activity_effect (reg : Register) (op : RegisterOp) (k : IngressId) :
    CountMoves (reg.activity k) ((op.effect reg).activity k) ∨
      ∃ new, op = .updateInfo k new ∧ new.ingressType = some .bgpPath ∧ reg.activity k = none := by
  cases op with
  | register => exact .inl (.same rfl)
  | claim c pick => exact .inl (activity_claim c pick k)
  | updateInfo id new =>
    rcases activity_updateInfo id k new with h | ⟨rfl, ht, hn⟩
    · exact .inl h
    · exact .inr ⟨new, rfl, ht, hn⟩
  | markDisconnected id => exact .inl (.same (activity_markDisconnected id k))
  | refreshPathChild id parent pathId =>
    refine .inl ?_
    cases hok : (reg.refreshPathChild id parent pathId).1 with
    | true => exact (advances_refreshPathChild hok).moves k
    | false =>
      rcases reg.refreshPathChild_cases id parent pathId with ⟨hr, _⟩ | ⟨info, reg', hr, _⟩
      · exact .same (congrArg (fun x : Bool × Register => x.2.activity k) hr)
      · rw [hr] at hok
        cases hok
  | retirePathChild id n => exact .inl (.same (activity_retirePathChild id n k))
  | remove id => exact .inl (activity_remove id k)
  | removeIfDisconnected id =>
    refine .inl ?_
    rcases reg.removeIfDisconnected_cases id with hr | ⟨info, hr, _⟩
    · exact .same (congrArg (fun x : Bool × Register => x.2.activity k) hr)
    · have h : CountMoves (reg.activity k) ((reg.remove id).activity k) :=
        activity_remove id k
      rwa [show reg.remove id = (RegisterOp.removeIfDisconnected id).effect reg from
        (congrArg Prod.snd hr).symm] at h

namespace FlowRib
variable {env : FlowSpecEnv} (r : FlowRib)

lemma activity_announcement (a : Announcement env) (mui k : IngressId) :
    (r.step env (a.op mui)).rib.ingressRegister.activity k = r.rib.ingressRegister.activity k := by
  cases a with
  | route p multicast pamap retain =>
    show (r.rib.insertPrefix p multicast pamap .active mui retain).ingressRegister.activity k = _
    unfold Rib.insertPrefix
    by_cases hw : (r.rib.store multicast).muiIsWithdrawn p.family mui = true
    · simp only [reduceCtorEq, if_false, hw, decide_true, Bool.and_self, if_true]
      exact activity_updateInfo_untyped rfl mui k
    · simp only [reduceCtorEq, if_false, hw, Bool.and_false, Bool.false_eq_true]
      cases multicast <;> rfl
  | rule family n parsed pamap =>
    show (r.insertFlowspec env n.raw pamap (indexPrefix family n) true
      mui).rib.ingressRegister.activity k = _
    by_cases hw : r.flowspec.muiIsWithdrawn (indexPrefix family n).family mui = true
    · simp only [insertFlowspec, hw, if_true]
      exact activity_updateInfo_untyped rfl mui k
    · simp only [insertFlowspec, hw]
      rfl

lemma register_removal (o : Removal env) :
    (r.step env o.op).rib.ingressRegister = r.rib.ingressRegister := by
  cases o with
  | route p multicast pamap mui retain =>
    show (r.rib.insertPrefix p multicast pamap .withdrawn mui retain).ingressRegister = _
    unfold Rib.insertPrefix
    rw [if_pos rfl]
    split
    · split
      · rfl
      · cases multicast <;> rfl
    · cases multicast <;> rfl
  | rule family n parsed pamap mui => rfl
  | withdrawForIngresses ids retain =>
    show (r.rib.withdrawForIngresses ids retain).ingressRegister = _
    have hfold : ∀ (ids : List (IngressId × Option AfiSafiType)) (rib : Rib),
        (ids.foldl Rib.markWithdrawn rib).ingressRegister = rib.ingressRegister := by
      intro ids
      induction ids with
      | nil =>
        intro rib
        rfl
      | cons e ids ih =>
        intro rib
        rw [foldl_cons, ih]
        unfold Rib.markWithdrawn
        split <;> rfl
    unfold Rib.withdrawForIngresses
    rw [hfold]
    cases retain <;> rfl
  | removeForIngresses ids => exact register_removeForIngresses r ids

end FlowRib

end Netom
