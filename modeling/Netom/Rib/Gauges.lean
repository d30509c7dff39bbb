import Netom.FlowSpec.Query
import Netom.Rib.PeerStats

/-!
# The Adj-RIB-In gauges

The RIB moves the gauge of a session, or of the session that a path child belongs to, when a route
or a rule comes or goes.  Where a whole ingress goes at once it sets the gauges to zero instead if
the ingress is a session, and leaves them alone if it is a path child.

* `FlowRib.activeCount`  the active routes or rules of a family under some ingresses;
* `GaugedRib`  the RIB with the counters it moves;
* `GaugeOk`  when an operation moves them rightly;
* `gauges_eq_active`  **then every gauge is the number of active records**;
* `retainedRule_miscounted`  and a withdrawal of a retained rule takes another rule off the gauge.
-/

namespace Netom
open PeerStatsRegistry FlowSpecStore List Function

/-! ## active records -/

def prefixAfiSafi (p : Prefix) (multicast : Bool) : AfiSafiType :=
  match p.family, multicast with
  | .v4, false => .ipv4Unicast
  | .v6, false => .ipv6Unicast
  | .v4, true => .ipv4Multicast
  | .v6, true => .ipv6Multicast

def flowAfiSafi : AddrFamily → AfiSafiType
  | .v4 => .ipv4FlowSpec
  | .v6 => .ipv6FlowSpec

variable {p : Prefix}

lemma prefixAfiSafi_inj {mc mc' : Bool} (h : prefixAfiSafi p mc = prefixAfiSafi p mc') :
    mc = mc' := by
  unfold prefixAfiSafi at h
  cases hf : p.family <;> cases mc <;> cases mc' <;> simp_all

lemma prefixAfiSafi_ne_flow (p : Prefix) (mc : Bool) (f : AddrFamily) :
    prefixAfiSafi p mc ≠ flowAfiSafi f := by
  unfold prefixAfiSafi flowAfiSafi
  cases p.family <;> cases mc <;> cases f <;> simp

/-- one for an active route -/
def Rib.routeCount (rib : Rib) (k : RouteKey) : Nat := if (rib.visible k).isSome then 1 else 0

/-- the active records of a family under a prefix from an ingress: a route, or its rules -/
def FlowRib.present (r : FlowRib) (f : AfiSafiType) (p : Prefix) (m : IngressId) : Nat :=
  if f = prefixAfiSafi p false then r.rib.routeCount ⟨false, p, m⟩
  else if f = prefixAfiSafi p true then r.rib.routeCount ⟨true, p, m⟩
  else if f = flowAfiSafi p.family then (r.flowspec.visible p m).length
  else 0

lemma present_route (r : FlowRib) (p : Prefix) (mc : Bool) (m : IngressId) :
    r.present (prefixAfiSafi p mc) p m = r.rib.routeCount ⟨mc, p, m⟩ := by
  unfold FlowRib.present
  cases mc with
  | false => rw [if_pos rfl]
  | true =>
    have hne : prefixAfiSafi p true ≠ prefixAfiSafi p false := by
      intro h
      cases prefixAfiSafi_inj h
    rw [if_neg hne, if_pos rfl]

lemma present_flow (r : FlowRib) (p : Prefix) (m : IngressId) :
    r.present (flowAfiSafi p.family) p m = (r.flowspec.visible p m).length := by
  unfold FlowRib.present
  rw [if_neg (prefixAfiSafi_ne_flow p false p.family).symm,
    if_neg (prefixAfiSafi_ne_flow p true p.family).symm, if_pos rfl]

variable {f : AfiSafiType} {m : IngressId} {r : FlowRib}

/-- a family is one of routes, of rules, or of neither -/
lemma present_gone {r' : FlowRib} {c : Prop} [Decidable c]
    (hr : ∀ mc, f = prefixAfiSafi p mc →
      r'.rib.visible ⟨mc, p, m⟩ = if c then none else r.rib.visible ⟨mc, p, m⟩)
    (hf : f = flowAfiSafi p.family → (r'.flowspec.visible p m).length =
      if c then 0 else (r.flowspec.visible p m).length) :
    r'.present f p m = if c then 0 else r.present f p m := by
  have hroute : ∀ mc, f = prefixAfiSafi p mc →
      r'.rib.routeCount ⟨mc, p, m⟩ = if c then 0 else r.rib.routeCount ⟨mc, p, m⟩ := by
    intro mc hmc
    unfold Rib.routeCount
    rw [hr mc hmc]
    split <;> rfl
  unfold FlowRib.present
  by_cases h0 : f = prefixAfiSafi p false
  · rw [if_pos h0, if_pos h0, hroute false h0]
  · rw [if_neg h0, if_neg h0]
    by_cases h1 : f = prefixAfiSafi p true
    · rw [if_pos h1, if_pos h1, hroute true h1]
    · rw [if_neg h1, if_neg h1]
      by_cases h2 : f = flowAfiSafi p.family
      · rw [if_pos h2, if_pos h2, hf h2]
      · rw [if_neg h2, if_neg h2, ite_self]

lemma present_congr {r' : FlowRib}
    (hr : ∀ mc, f = prefixAfiSafi p mc → r'.rib.visible ⟨mc, p, m⟩ = r.rib.visible ⟨mc, p, m⟩)
    (hf : f = flowAfiSafi p.family →
      (r'.flowspec.visible p m).length = (r.flowspec.visible p m).length) :
    r'.present f p m = r.present f p m :=
  @present_gone p f m r r' False _ hr hf

lemma present_eq_zero (hr : ∀ mc, f = prefixAfiSafi p mc → r.rib.visible ⟨mc, p, m⟩ = none)
    (hf : f = flowAfiSafi p.family → r.flowspec.visible p m = []) : r.present f p m = 0 :=
  @present_gone p f m r r True _ hr fun h => congrArg length (hf h)

def FlowRib.keys (r : FlowRib) : List (Prefix × IngressId) :=
  r.rib.unicast.records.keys ++ (r.rib.multicast.records.keys ++ r.flowspec.records.keys)

lemma mem_keys_of_present {k : Prefix × IngressId} (h : r.present f k.1 k.2 ≠ 0) :
    k ∈ r.keys.toFinset := by
  rw [mem_toFinset]
  by_contra hk
  unfold FlowRib.keys at hk
  rw [mem_append, mem_append, not_or, not_or] at hk
  obtain ⟨hu, hm, hf⟩ := hk
  have hactive : ∀ s : Store, k ∉ s.records.keys → s.active k.1 k.2 = none := by
    intro s hs
    have hl : s.get k.1 k.2 = none := AList.lookup_eq_none.mpr hs
    unfold Store.active
    rw [hl]
    rfl
  refine h (present_eq_zero ?_ ?_)
  · intro mc _
    cases mc with
    | false => exact hactive r.rib.unicast hu
    | true => exact hactive r.rib.multicast hm
  · intro _
    have hl : r.flowspec.get k.1 k.2 = none := AList.lookup_eq_none.mpr hf
    unfold visible
    rw [hl]
    exact ite_self _

/-- the active records of a family from the ingresses that satisfy `own` -/
def FlowRib.activeCount (r : FlowRib) (f : AfiSafiType) (own : IngressId → Bool) : Nat :=
  ∑ k ∈ r.keys.toFinset, if own k.2 then r.present f k.1 k.2 else 0

variable {own : IngressId → Bool}

lemma mem_keys_of_owned (k : Prefix × IngressId)
    (h : (if own k.2 then r.present f k.1 k.2 else 0) ≠ 0) : k ∈ r.keys.toFinset := by
  by_cases ho : own k.2 = true
  · rw [if_pos ho] at h
    exact mem_keys_of_present h
  · rw [if_neg ho] at h
    exact absurd rfl h

lemma activeCount_congr {r' : FlowRib} {own' : IngressId → Bool}
    (h : ∀ p m, (if own m then r.present f p m else 0) = if own' m then r'.present f p m else 0) :
    r.activeCount f own = r'.activeCount f own' :=
  Tally.sum_congr_of_support mem_keys_of_owned mem_keys_of_owned fun k => h k.1 k.2

lemma activeCount_eq_zero (h : ∀ p m, own m = true → r.present f p m = 0) :
    r.activeCount f own = 0 := by
  refine Finset.sum_eq_zero fun k _ => ?_
  by_cases ho : own k.2 = true
  · rw [if_pos ho, h k.1 k.2 ho]
  · rw [if_neg ho]

variable {f₀ : AfiSafiType}

/-- RIBs that differ in one family, under one prefix, from one ingress -/
lemma activeCount_update {r' : FlowRib}
    (h : ∀ f q m', ¬ (f = f₀ ∧ q = p ∧ m' = m) → r'.present f q m' = r.present f q m')
    (f : AfiSafiType) (own : IngressId → Bool) :
    r'.activeCount f own + (if own m ∧ f = f₀ then r.present f₀ p m else 0) =
      r.activeCount f own + (if own m ∧ f = f₀ then r'.present f₀ p m else 0) := by
  by_cases hf : f = f₀
  · subst hf
    have hrest : ∀ k : Prefix × IngressId, k ≠ (p, m) →
        (if own k.2 then r'.present f k.1 k.2 else 0) =
          if own k.2 then r.present f k.1 k.2 else 0 := by
      intro k hk
      rw [h f k.1 k.2 fun hk' => hk (Prod.ext hk'.2.1 hk'.2.2)]
    have hu := @Tally.sum_update_of_support _ _ r.keys.toFinset r'.keys.toFinset
      (fun k => if own k.2 then r.present f k.1 k.2 else 0)
      (fun k => if own k.2 then r'.present f k.1 k.2 else 0) (p, m)
      mem_keys_of_owned mem_keys_of_owned hrest
    unfold FlowRib.activeCount
    simpa using hu
  · have hsame : r'.activeCount f own = r.activeCount f own := by
      apply activeCount_congr
      intro q m'
      rw [h f q m' fun hk => hf hk.1]
    simp [hf, hsame]

/-! ## what each operation leaves active -/

/-- the status of a route that is announced or withdrawn -/
def announced (announce : Bool) : RouteStatus := if announce then .active else .withdrawn

lemma present_insertPrefix (r : FlowRib) (p : Prefix) (mc : Bool) (pamap : RotondaPaMap)
    (announce : Bool) (mui : IngressId) (retain : Bool) (f : AfiSafiType) (q : Prefix)
    (m : IngressId) :
    FlowRib.present ⟨r.rib.insertPrefix p mc pamap (announced announce) mui retain, r.flowspec⟩
        f q m =
      if f = prefixAfiSafi p mc ∧ q = p ∧ m = mui then if announce then 1 else 0
      else r.present f q m := by
  have hv : (r.rib.insertPrefix p mc pamap (announced announce) mui retain).visible =
      update r.rib.visible ⟨mc, p, mui⟩
        (if announce then some pamap else none) := by
    cases announce with
    | true => exact visible_insertPrefix_active r.rib p mc pamap mui retain
    | false => exact visible_insertPrefix_withdrawn r.rib p mc pamap mui retain
  by_cases hk : f = prefixAfiSafi p mc ∧ q = p ∧ m = mui
  · obtain ⟨rfl, rfl, rfl⟩ := hk
    rw [if_pos ⟨rfl, rfl, rfl⟩, present_route]
    unfold Rib.routeCount
    show (if ((r.rib.insertPrefix q mc pamap _ m retain).visible ⟨mc, q, m⟩).isSome then 1 else 0) = _
    rw [hv, update_self]
    cases announce <;> rfl
  · rw [if_neg hk]
    apply present_congr
    · intro mc' hf
      show (r.rib.insertPrefix p mc pamap _ mui retain).visible ⟨mc', q, m⟩ = _
      rw [hv, update_of_ne]
      intro heq
      cases heq
      exact hk ⟨hf, rfl, rfl⟩
    · intro _
      rfl

variable {mui : IngressId}

lemma present_setFlowspec {s : FlowSpecStore} {key : Prefix} {rib : Rib}
    (hrib : rib.visible = r.rib.visible)
    (hs : ∀ p m, ¬ (p = key ∧ m = mui) → s.visible p m = r.flowspec.visible p m) (f : AfiSafiType)
    (q : Prefix) (m : IngressId) (hk : ¬ (f = flowAfiSafi key.family ∧ q = key ∧ m = mui)) :
    FlowRib.present ⟨rib, s⟩ f q m = r.present f q m := by
  apply present_congr
  · intro mc _
    exact congrFun hrib _
  · intro hf
    show (s.visible q m).length = _
    rw [hs q m fun h => hk ⟨by rw [hf, h.1], h.1, h.2⟩]

/-- the scope of a withdrawal takes a family with it -/
def scopeCovers (scope : Option AfiSafiType) (f : AfiSafiType) : Prop :=
  scope = none ∨ scope = some f

instance (scope : Option AfiSafiType) (f : AfiSafiType) : Decidable (scopeCovers scope f) :=
  inferInstanceAs (Decidable (_ ∨ _))

lemma inScope_iff (scope : Option AfiSafiType) (k : RouteKey) :
    inScope scope k = true ↔ scopeCovers scope (prefixAfiSafi k.pfx k.multicast) := by
  obtain ⟨mc, p, m⟩ := k
  unfold inScope scopeCovers prefixAfiSafi
  cases scope with
  | none => simp
  | some f => cases f <;> cases hp : p.family <;> cases mc <;> simp

lemma flowInScope_iff (scope : Option AfiSafiType) (f : AddrFamily) :
    flowInScope scope f = true ↔ scopeCovers scope (flowAfiSafi f) := by
  unfold flowInScope scopeCovers flowAfiSafi
  cases scope with
  | none => simp
  | some f' => cases f' <;> cases f <;> simp

/-- some entry of `ids` takes the family of an ingress with it -/
def Covered (ids : List (IngressId × Option AfiSafiType)) (f : AfiSafiType) (m : IngressId) :
    Prop :=
  ∃ scope, (m, scope) ∈ ids ∧ scopeCovers scope f

variable (ids : List (IngressId × Option AfiSafiType))

lemma coveredBy_iff_covered (k : RouteKey) :
    coveredBy ids k = true ↔ Covered ids (prefixAfiSafi k.pfx k.multicast) k.ingress := by
  rw [coveredBy_iff]
  unfold Covered
  simp only [inScope_iff]

lemma flowCovered_iff_covered (f : AddrFamily) (m : IngressId) :
    flowCovered ids f m = true ↔ Covered ids (flowAfiSafi f) m := by
  unfold flowCovered Covered
  simp only [any_eq_true, Bool.and_eq_true, decide_eq_true_eq, flowInScope_iff]
  constructor
  · rintro ⟨⟨id, scope⟩, hmem, rfl, hs⟩
    exact ⟨scope, hmem, hs⟩
  · rintro ⟨scope, hmem, hs⟩
    exact ⟨(m, scope), hmem, rfl, hs⟩

open Classical in
lemma present_withdrawForIngresses (r : FlowRib) (ids : List (IngressId × Option AfiSafiType))
    (retain : Bool) (f : AfiSafiType) (q : Prefix) (m : IngressId) :
    (r.withdrawForIngresses ids retain).present f q m =
      if Covered ids f m then 0 else r.present f q m := by
  refine present_gone ?_ ?_
  · rintro mc rfl
    simp only [← coveredBy_iff_covered ids ⟨mc, q, m⟩]
    exact congrFun (visible_withdrawForIngresses r.rib ids retain) _
  · rintro rfl
    simp only [← flowCovered_iff_covered]
    exact (congrArg length
      (r.flowspec.visible_withdrawForIngresses_flowspec ids retain q m)).trans (apply_ite ..)

lemma present_removeForIngresses (r : FlowRib) (ids : List IngressId) (f : AfiSafiType)
    (q : Prefix) (m : IngressId) :
    (r.removeForIngresses ids).present f q m = if m ∈ ids then 0 else r.present f q m := by
  refine present_gone (fun mc _ => congrFun (visible_removeForIngresses r.rib ids) _) fun _ => ?_
  exact (congrArg length (r.flowspec.visible_removeForIngresses_flowspec ids q m)).trans
    (apply_ite ..)

lemma present_le_activeCount (r : FlowRib) (f : AfiSafiType) (p : Prefix) (ho : own m = true) :
    r.present f p m ≤ r.activeCount f own := by
  by_cases hz : r.present f p m = 0
  · omega
  · have hmem : (p, m) ∈ r.keys.toFinset := @mem_keys_of_present f r (p, m) hz
    have hle := Finset.single_le_sum (f := fun k : Prefix × IngressId =>
      if own k.2 then r.present f k.1 k.2 else 0) (fun _ _ => Nat.zero_le _) hmem
    simp only [ho, if_true] at hle
    exact hle

/-! ## the RIB with its counters -/

structure GaugedRib where
  rib : FlowRib
  registry : PeerStatsRegistry

/-- the route is there and active -/
def Store.wasActive (s : Store) (p : Prefix) (mui : IngressId) : Bool :=
  if s.muiIsWithdrawn p.family mui then false
  else s.contains p mui && (s.get p mui).any (·.status = .active)

lemma wasActive_eq (s : Store) (p : Prefix) (mui : IngressId) :
    s.wasActive p mui = (s.active p mui).isSome := by
  unfold Store.wasActive Store.contains Store.muiIsWithdrawn
  rw [Store.active_eq]
  by_cases hw : mui ∈ s.withdrawnMuis p.family
  · simp [hw]
  · cases s.get p mui with
    | none => simp [hw]
    | some r =>
      by_cases hs : r.status = .active
      · simp [hw, hs]
      · simp [hw, hs]

def FlowSpecRuleSet.hasRule (s : FlowSpecRuleSet) (nlri : RawNlri) : Bool :=
  s.rules.any fun r => r.nlri = nlri

/-- the store that an announcement finds: reset if the ingress is withdrawn -/
def FlowSpecStore.readyFor (s : FlowSpecStore) (family : AddrFamily) (mui : IngressId) :
    FlowSpecStore :=
  if s.muiIsWithdrawn family mui then s.resetFlowspecFamily mui family else s

namespace GaugedRib
variable (g : GaugedRib)

def insertPrefix (p : Prefix) (multicast : Bool) (pamap : RotondaPaMap) (announce : Bool)
    (mui : IngressId) (retain : Bool) : GaugedRib :=
  let store := g.rib.rib.store multicast
  let afiSafi := prefixAfiSafi p multicast
  let wasActive := store.wasActive p mui
  let rib : FlowRib :=
    ⟨g.rib.rib.insertPrefix p multicast pamap (announced announce) mui retain, g.rib.flowspec⟩
  if announce then
    let registry := if store.muiIsWithdrawn p.family mui then
      g.registry.resetPeerGauge mui (some afiSafi) else g.registry
    ⟨rib, registry.onGauge mui fun s =>
      if wasActive then s.incDupPrefixAdvertisements 1 else s.addAdjRibIn afiSafi 1⟩
  else ⟨rib, if wasActive then g.registry.onGauge mui fun s => s.subAdjRibIn afiSafi 1
    else g.registry⟩

def insertFlowspec (env : FlowSpecEnv) (nlriRaw : RawNlri) (pamap : RotondaPaMap) (key : Prefix)
    (announce : Bool) (mui : IngressId) : GaugedRib :=
  let store := g.rib.flowspec
  let afiSafi := flowAfiSafi key.family
  let rib := g.rib.insertFlowspec env nlriRaw pamap key announce mui
  if announce then
    let registry := if store.muiIsWithdrawn key.family mui then
      g.registry.resetPeerGauge mui (some afiSafi) else g.registry
    let replaced := ((store.readyFor key.family mui).rulesetAt key mui).hasRule nlriRaw
    ⟨rib, registry.onGauge mui fun s =>
      if replaced then s.incDupPrefixAdvertisements 1 else s.addAdjRibIn afiSafi 1⟩
  else ⟨rib, if (store.rulesetAt key mui).hasRule nlriRaw then
    g.registry.onGauge mui fun s => s.subAdjRibIn afiSafi 1 else g.registry⟩

def withdrawForIngresses (ids : List (IngressId × Option AfiSafiType)) (retain : Bool) :
    GaugedRib :=
  ⟨g.rib.withdrawForIngresses ids retain,
    ids.foldl (fun reg e => reg.resetPeerGauge e.1 e.2) g.registry⟩

def removeForIngresses (ids : List IngressId) : GaugedRib :=
  ⟨g.rib.removeForIngresses ids, ids.foldl (fun reg id => reg.resetPeerGauge id none) g.registry⟩

end GaugedRib

/-- what happens to the RIB and to the registry -/
inductive GaugeOp (env : FlowSpecEnv) where
  | insertPrefix (p : Prefix) (multicast : Bool) (pamap : RotondaPaMap) (announce : Bool)
      (mui : IngressId) (retain : Bool)
  | insertFlowspec (family : AddrFamily) (n : FlowSpecNlri) (parsed : env.Parsed family n)
      (pamap : RotondaPaMap) (announce : Bool) (mui : IngressId)
  | withdrawForIngresses (ids : List (IngressId × Option AfiSafiType)) (retain : Bool)
  | removeForIngresses (ids : List IngressId)
  | register (reg : Register)
  | getOrCreate (id : IngressId)
  | aliasTo (child parent : IngressId)
  | removeStats (id : IngressId)

def GaugedRib.step (env : FlowSpecEnv) (g : GaugedRib) : GaugeOp env → GaugedRib
  | .insertPrefix p multicast pamap announce mui retain =>
    g.insertPrefix p multicast pamap announce mui retain
  | .insertFlowspec family n _ pamap announce mui =>
    g.insertFlowspec env n.raw pamap (indexPrefix family n) announce mui
  | .withdrawForIngresses ids retain => g.withdrawForIngresses ids retain
  | .removeForIngresses ids => g.removeForIngresses ids
  | .register reg =>
    { g with rib := { g.rib with rib := { g.rib.rib with ingressRegister := reg } } }
  | .getOrCreate id => { g with registry := g.registry.getOrCreate id }
  | .aliasTo child parent => { g with registry := g.registry.aliasTo child parent }
  | .removeStats id => { g with registry := g.registry.remove id }

/-! ## when the gauges move rightly -/

/-- nothing of the ingress is active -/
def Idle (r : FlowRib) (m : IngressId) : Prop := ∀ f p, r.present f p m = 0

/-- no ingress that shares the counters of a session has anything active in the family -/
def Alone (g : GaugedRib) (mui : IngressId) (f : AfiSafiType) : Prop :=
  ∀ a, g.registry.getSession mui = some a → ∀ m, g.registry.get m = some a →
    ∀ p, g.rib.present f p m = 0

/-- a session goes with all of its path children that are active in the family, and they do not go
without it -/
def Together (g : GaugedRib) (ids : List (IngressId × Option AfiSafiType)) : Prop :=
  ∀ a m f p, g.registry.get m = some a → g.rib.present f p m ≠ 0 →
    (Covered ids f m ↔ ∃ e ∈ ids, g.registry.getSession e.1 = some a ∧ scopeCovers e.2 f)

def GaugeOk (env : FlowSpecEnv) (g : GaugedRib) : GaugeOp env → Prop
  | .insertPrefix p multicast _ announce mui _ =>
    announce = true → (g.rib.rib.store multicast).muiIsWithdrawn p.family mui = true →
      Alone g mui (prefixAfiSafi p multicast)
  | .insertFlowspec family n _ _ announce mui =>
    if announce then
      g.rib.flowspec.muiIsWithdrawn (indexPrefix family n).family mui = true →
        Alone g mui (flowAfiSafi (indexPrefix family n).family)
    else (g.rib.flowspec.rulesetAt (indexPrefix family n) mui).hasRule n.raw = true →
      g.rib.flowspec.muiIsWithdrawn (indexPrefix family n).family mui = false
  | .withdrawForIngresses ids _ => Together g ids
  | .removeForIngresses ids => Together g (ids.map fun id => (id, none))
  | .register _ => True
  | .getOrCreate id => g.registry.get id = none → Idle g.rib id
  | .aliasTo child parent => ∀ a, g.registry.get parent = some a →
      g.registry.get child ≠ some a → Idle g.rib child
  | .removeStats id => Idle g.rib id

/-! ## the invariant -/

/-- the ingresses that share the counters `a` -/
def PeerStatsRegistry.shares (reg : PeerStatsRegistry) (a : Nat) (m : IngressId) : Bool :=
  reg.get m = some a

structure GaugeInv (g : GaugedRib) : Prop where
  gauge_eq : ∀ a f, PeerStatsRegistry.Counted f →
    g.registry.gauge a f = g.rib.activeCount f (g.registry.shares a)
  allocated : ∀ id a, g.registry.get id = some a → a < g.registry.allocated

variable {reg : PeerStatsRegistry} {g : GaugedRib}

lemma GaugeInv.adjust (h : GaugeInv g) (hinner : reg.inner = g.registry.inner)
    (halloc : reg.allocated = g.registry.allocated)
    (hp : ∀ f q m, ¬ (f = f₀ ∧ q = p ∧ m = mui) → r.present f q m = g.rib.present f q m)
    (hg : ∀ a f, PeerStatsRegistry.Counted f → reg.gauge a f +
        (if g.registry.get mui = some a ∧ f = f₀ then g.rib.present f₀ p mui else 0) =
      g.registry.gauge a f +
        (if g.registry.get mui = some a ∧ f = f₀ then r.present f₀ p mui else 0)) :
    GaugeInv ⟨r, reg⟩ := by
  have hget : ∀ m, reg.get m = g.registry.get m := by
    intro m
    unfold PeerStatsRegistry.get
    rw [hinner]
  have hshares : ∀ a, reg.shares a = g.registry.shares a := by
    intro a
    funext m
    unfold shares
    rw [hget]
  constructor
  · intro a f hf
    have hu := activeCount_update hp f (g.registry.shares a)
    have hga := hg a f hf
    have hold := h.gauge_eq a f hf
    have hshare : (g.registry.shares a mui = true ∧ f = f₀) ↔
        (g.registry.get mui = some a ∧ f = f₀) := by
      unfold shares
      rw [decide_eq_true_iff]
    simp only [hshare] at hu
    show reg.gauge a f = r.activeCount f (reg.shares a)
    rw [hshares]
    omega
  · intro id a hid
    show a < reg.allocated
    rw [halloc]
    exact h.allocated id a ((hget id).symm.trans hid)

/-! ## one record at a time -/

/-- the reset before an announcement takes nothing off the gauge -/
lemma GaugeInv.gauge_reset_alone (h : GaugeInv g) (ha : Alone g mui f₀) (a : Nat)
    (hf : PeerStatsRegistry.Counted f) :
    (g.registry.resetPeerGauge mui (some f₀)).gauge a f = g.registry.gauge a f := by
  rw [gauge_resetPeerGauge _ _ _ _ hf]
  split
  · rename_i hs
    obtain rfl : f₀ = f := by simpa using hs.2
    rw [h.gauge_eq a f₀ hf]
    refine (activeCount_eq_zero ?_).symm
    intro p m hm
    exact ha a hs.1 m (of_decide_eq_true hm) p
  · rfl

lemma GaugeInv.announce (h : GaugeInv g) {withdrawn replaced : Bool}
    (hp : ∀ f q m, ¬ (f = f₀ ∧ q = p ∧ m = mui) → r.present f q m = g.rib.present f q m)
    (halone : withdrawn = true → Alone g mui f₀)
    (hn : r.present f₀ p mui + (if replaced then 1 else 0) = g.rib.present f₀ p mui + 1) :
    GaugeInv ⟨r, (if withdrawn then g.registry.resetPeerGauge mui (some f₀)
      else g.registry).onGauge mui fun s =>
        if replaced then s.incDupPrefixAdvertisements 1 else s.addAdjRibIn f₀ 1⟩ := by
  generalize hreg : (if withdrawn then g.registry.resetPeerGauge mui (some f₀)
    else g.registry) = reg
  have hinner : reg.inner = g.registry.inner := by
    subst hreg
    split
    · exact g.registry.inner_resetPeerGauge mui _
    · rfl
  have halloc : reg.allocated = g.registry.allocated := by
    subst hreg
    split
    · exact g.registry.allocated_resetPeerGauge mui _
    · rfl
  have hsame : ∀ a f, PeerStatsRegistry.Counted f → reg.gauge a f = g.registry.gauge a f := by
    intro a f hf
    subst hreg
    split
    · rename_i hw
      exact h.gauge_reset_alone (halone hw) a hf
    · rfl
  refine h.adjust ((reg.inner_onGauge mui _).trans hinner) ((reg.allocated_onGauge mui _).trans
    halloc) hp ?_
  intro a f hf
  have hget : reg.get mui = g.registry.get mui := by
    unfold PeerStatsRegistry.get
    rw [hinner]
  rw [gauge_onGauge, hget, hsame a f hf]
  by_cases ha : g.registry.get mui = some a
  · rw [if_pos ha]
    have hnow : ((reg.stats a).gauge f) = g.registry.gauge a f := hsame a f hf
    cases replaced with
    | true =>
      simp only [if_true] at hn ⊢
      show (reg.stats a).gauge f + _ = _
      rw [hnow, show r.present f₀ p mui = g.rib.present f₀ p mui by omega]
    | false =>
      simp only [Bool.false_eq_true, if_false] at hn ⊢
      rw [BgpPeerStats.gauge_add, hnow]
      by_cases hff : f = f₀
      · simp only [ha, hff, true_and, if_true]
        omega
      · simp [hff]
  · simp [ha]

lemma GaugeInv.retract (h : GaugeInv g) {removed : Bool}
    (hp : ∀ f q m, ¬ (f = f₀ ∧ q = p ∧ m = mui) → r.present f q m = g.rib.present f q m)
    (hn : r.present f₀ p mui + (if removed then 1 else 0) = g.rib.present f₀ p mui) :
    GaugeInv ⟨r, if removed then g.registry.onGauge mui fun s => s.subAdjRibIn f₀ 1
      else g.registry⟩ := by
  cases removed with
  | false =>
    simp only [Bool.false_eq_true, if_false] at hn ⊢
    refine h.adjust rfl rfl hp ?_
    intro a f hf
    rw [show g.rib.present f₀ p mui = r.present f₀ p mui by omega]
  | true =>
    simp only [if_true] at hn ⊢
    refine h.adjust (g.registry.inner_onGauge mui _) (g.registry.allocated_onGauge mui _) hp ?_
    intro a f hf
    rw [PeerStatsRegistry.gauge_onGauge]
    by_cases ha : g.registry.get mui = some a
    · rw [if_pos ha, BgpPeerStats.gauge_sub]
      by_cases hff : f = f₀
      · -- the record that goes is one of those that the gauge counts
        have hle : g.rib.present f p mui ≤ g.registry.gauge a f := by
          rw [h.gauge_eq a f hf]
          exact present_le_activeCount g.rib f p (decide_eq_true ha)
        subst hff
        simp only [ha, true_and, if_true]
        unfold PeerStatsRegistry.gauge at hle ⊢
        omega
      · simp [hff, PeerStatsRegistry.gauge]
    · simp [ha]

/-! ## many ingresses at once -/

lemma getSession_congr {reg' : PeerStatsRegistry} (h : reg'.inner = reg.inner) (id : IngressId) :
    reg'.getSession id = reg.getSession id := by
  unfold getSession
  rw [h]

lemma inner_foldl_reset (reg : PeerStatsRegistry) :
    (ids.foldl (fun reg e => reg.resetPeerGauge e.1 e.2) reg).inner = reg.inner ∧
      (ids.foldl (fun reg e => reg.resetPeerGauge e.1 e.2) reg).allocated = reg.allocated := by
  induction ids generalizing reg with
  | nil => exact ⟨rfl, rfl⟩
  | cons e ids ih =>
    obtain ⟨hi, ha⟩ := ih (reg.resetPeerGauge e.1 e.2)
    exact ⟨hi.trans (reg.inner_resetPeerGauge e.1 e.2),
      ha.trans (reg.allocated_resetPeerGauge e.1 e.2)⟩

open Classical in
lemma gauge_foldl_reset (reg : PeerStatsRegistry) (a : Nat) (hf : PeerStatsRegistry.Counted f) :
    (ids.foldl (fun reg e => reg.resetPeerGauge e.1 e.2) reg).gauge a f =
      if ∃ e ∈ ids, reg.getSession e.1 = some a ∧ scopeCovers e.2 f then 0
      else reg.gauge a f := by
  unfold scopeCovers
  induction ids generalizing reg with
  | nil => simp
  | cons e ids ih =>
    rw [foldl_cons, ih]
    simp only [getSession_congr (reg.inner_resetPeerGauge e.1 e.2),
      gauge_resetPeerGauge _ _ _ _ hf, exists_mem_cons_iff]
    by_cases hrest : ∃ e' ∈ ids, reg.getSession e'.1 = some a ∧ (e'.2 = none ∨ e'.2 = some f)
    · rw [if_pos hrest, if_pos (.inr hrest)]
    · rw [if_neg hrest]
      by_cases he : reg.getSession e.1 = some a ∧ (e.2 = none ∨ e.2 = some f)
      · rw [if_pos he, if_pos (.inl he)]
      · rw [if_neg he, if_neg (not_or.mpr ⟨he, hrest⟩)]

open Classical in
lemma GaugeInv.bulk (h : GaugeInv g) {ids : List (IngressId × Option AfiSafiType)}
    (ht : Together g ids)
    (hp : ∀ f q m, r.present f q m = if Covered ids f m then 0 else g.rib.present f q m) :
    GaugeInv ⟨r, ids.foldl (fun reg e => reg.resetPeerGauge e.1 e.2) g.registry⟩ := by
  obtain ⟨hinner, halloc⟩ := inner_foldl_reset ids g.registry
  have hget : ∀ m, (ids.foldl (fun reg e => reg.resetPeerGauge e.1 e.2) g.registry).get m =
      g.registry.get m := by
    intro m
    unfold PeerStatsRegistry.get
    rw [hinner]
  constructor
  · intro a f hf
    show (ids.foldl _ g.registry).gauge a f = r.activeCount f _
    rw [gauge_foldl_reset ids g.registry a hf]
    by_cases hs : ∃ e ∈ ids, g.registry.getSession e.1 = some a ∧ scopeCovers e.2 f
    · rw [if_pos hs]
      refine (activeCount_eq_zero ?_).symm
      intro p m hm
      have hm' : g.registry.get m = some a := (hget m).symm.trans (of_decide_eq_true hm)
      rw [hp]
      by_cases hz : g.rib.present f p m = 0
      · rw [hz, ite_self]
      · rw [if_pos ((ht a m f p hm' hz).mpr hs)]
    · rw [if_neg hs, h.gauge_eq a f hf]
      apply activeCount_congr
      intro p m
      unfold shares
      rw [hget]
      by_cases hm : g.registry.get m = some a
      · simp only [hm, decide_true, if_true]
        rw [hp]
        by_cases hz : g.rib.present f p m = 0
        · rw [hz, ite_self]
        · rw [if_neg fun hc => hs ((ht a m f p hm hz).mp hc)]
      · simp [hm]
  · intro id a hid
    show a < (ids.foldl _ g.registry).allocated
    rw [halloc]
    exact h.allocated id a ((hget id).symm.trans hid)

/-! ## slots of the registry -/

/-- slots that move only where nothing is active -/
lemma GaugeInv.reslot (h : GaugeInv g)
    (hgauge : ∀ a f, PeerStatsRegistry.Counted f → reg.gauge a f = g.registry.gauge a f)
    (hget : ∀ m, reg.get m = g.registry.get m ∨ Idle g.rib m)
    (halloc : ∀ id a, reg.get id = some a → a < reg.allocated) : GaugeInv ⟨g.rib, reg⟩ := by
  refine ⟨?_, halloc⟩
  intro a f hf
  show reg.gauge a f = g.rib.activeCount f (reg.shares a)
  rw [hgauge a f hf, h.gauge_eq a f hf]
  apply activeCount_congr
  intro p m
  rcases hget m with hm | hm
  · unfold shares
    rw [hm]
  · rw [hm f p, ite_self, ite_self]

lemma get_insert (inner : Assoc IngressId RegistryEntry) (stats : Nat → BgpPeerStats) (n : Nat)
    (id : IngressId) (e : RegistryEntry) (m : IngressId) :
    PeerStatsRegistry.get ⟨inner.insert id e, stats, n⟩ m =
      if m = id then some e.stats else (inner.lookup m).map (·.stats) := by
  show ((inner.insert id e).lookup m).map (·.stats) = _
  rw [Assoc.lookup_insert_eq]
  split <;> rfl

lemma GaugeInv.getOrCreate (h : GaugeInv g) {id : IngressId}
    (hidle : g.registry.get id = none → Idle g.rib id) :
    GaugeInv { g with registry := g.registry.getOrCreate id } := by
  show GaugeInv ⟨g.rib, g.registry.getOrCreate id⟩
  unfold PeerStatsRegistry.getOrCreate
  cases hl : g.registry.inner.lookup id with
  | some e => exact h
  | none =>
    have hnone : g.registry.get id = none := by
      unfold PeerStatsRegistry.get
      rw [hl]
      rfl
    refine h.reslot ?_ ?_ ?_
    · intro a f hf
      show (update g.registry.stats _ _ a).gauge f = _
      by_cases ha : a = g.registry.allocated
      · -- nobody shares counters that are not allocated yet
        subst ha
        rw [update_self, h.gauge_eq _ f hf]
        refine (activeCount_eq_zero ?_).symm
        intro p m hm
        exact absurd (h.allocated m _ (of_decide_eq_true hm)) (Nat.lt_irrefl _)
      · rw [update_of_ne ha]
        rfl
    · intro m
      rw [get_insert]
      by_cases hm : m = id
      · rw [hm]
        exact .inr (hidle hnone)
      · rw [if_neg hm]
        exact .inl rfl
    · intro m a hm
      rw [get_insert] at hm
      show a < g.registry.allocated + 1
      split at hm
      · cases hm
        exact Nat.lt_succ_self _
      · exact Nat.lt_succ_of_lt (h.allocated m a hm)

lemma GaugeInv.aliasTo (h : GaugeInv g) {child parent : IngressId}
    (hidle : ∀ a, g.registry.get parent = some a → g.registry.get child ≠ some a →
      Idle g.rib child) : GaugeInv { g with registry := g.registry.aliasTo child parent } := by
  show GaugeInv ⟨g.rib, g.registry.aliasTo child parent⟩
  unfold PeerStatsRegistry.aliasTo
  cases hl : g.registry.inner.lookup parent with
  | none => exact h
  | some e =>
    have hparent : g.registry.get parent = some e.stats := by
      unfold PeerStatsRegistry.get
      rw [hl]
      rfl
    refine h.reslot ?_ ?_ ?_
    · intro a f _
      rfl
    · intro m
      rw [get_insert]
      by_cases hm : m = child
      · rw [hm, if_pos rfl]
        by_cases hc : g.registry.get child = some e.stats
        · exact .inl hc.symm
        · exact .inr (hidle e.stats hparent hc)
      · rw [if_neg hm]
        exact .inl rfl
    · intro m a hm
      rw [get_insert] at hm
      split at hm
      · cases hm
        exact h.allocated parent _ hparent
      · exact h.allocated m a hm

lemma GaugeInv.removeStats (h : GaugeInv g) {id : IngressId}
    (hidle : Idle g.rib id) : GaugeInv { g with registry := g.registry.remove id } := by
  have hget : ∀ m, (g.registry.remove id).get m =
      if m = id then none else g.registry.get m := by
    intro m
    show ((g.registry.inner.erase id).lookup m).map (·.stats) = _
    rw [Assoc.lookup_erase_eq]
    split <;> rfl
  refine h.reslot (fun _ _ _ => rfl) ?_ ?_
  · intro m
    rw [hget]
    by_cases hm : m = id
    · rw [hm]
      exact .inr hidle
    · rw [if_neg hm]
      exact .inl rfl
  · intro m a hm
    rw [hget] at hm
    split at hm
    · cases hm
    · exact h.allocated m a hm

/-! ## whole runs -/

lemma GaugeInv.insertPrefix (h : GaugeInv g) (p : Prefix) (mc : Bool)
    (pamap : RotondaPaMap) (announce : Bool) (mui : IngressId) (retain : Bool)
    (hok : announce = true → (g.rib.rib.store mc).muiIsWithdrawn p.family mui = true →
      Alone g mui (prefixAfiSafi p mc)) :
    GaugeInv (g.insertPrefix p mc pamap announce mui retain) := by
  have hp := present_insertPrefix g.rib p mc pamap announce mui retain
  have hbefore : g.rib.present (prefixAfiSafi p mc) p mui =
      if (g.rib.rib.store mc).wasActive p mui then 1 else 0 := by
    rw [present_route, wasActive_eq]
    rfl
  have hrest : ∀ f q m, ¬ (f = prefixAfiSafi p mc ∧ q = p ∧ m = mui) → _ :=
    fun f q m hk => (hp f q m).trans (if_neg hk)
  have hthere := (hp (prefixAfiSafi p mc) p mui).trans (if_pos ⟨rfl, rfl, rfl⟩)
  cases announce with
  | true =>
    refine h.announce hrest (hok rfl) ?_
    rw [hthere, hbefore]
    exact Nat.add_comm _ _
  | false =>
    refine h.retract hrest ?_
    rw [hthere, hbefore]
    exact Nat.zero_add _

lemma muiIsWithdrawn_readyFor (s : FlowSpecStore) (family : AddrFamily) (mui : IngressId) :
    (s.readyFor family mui).muiIsWithdrawn family mui = false := by
  unfold readyFor
  by_cases hw : s.muiIsWithdrawn family mui = true
  · rw [if_pos hw, muiIsWithdrawn_resetFlowspecFamily]
    simp
  · rw [if_neg hw]
    exact Bool.not_eq_true _ ▸ hw

lemma visible_readyFor (s : FlowSpecStore) (family : AddrFamily) (mui : IngressId) (p : Prefix)
    (m : IngressId) : (s.readyFor family mui).visible p m = s.visible p m := by
  unfold readyFor
  split
  · rename_i hw
    exact s.visible_resetFlowspecFamily hw p m
  · rfl

/-- an announcement puts the rule in the store that is ready for it -/
lemma insertFlowspec_announce (env : FlowSpecEnv) (r : FlowRib) (nlri : RawNlri)
    (pamap : RotondaPaMap) (key : Prefix) (mui : IngressId) :
    ∃ rib validity, rib.visible = r.rib.visible ∧
      r.insertFlowspec env nlri pamap key true mui =
        ⟨rib, ((r.flowspec.readyFor key.family mui).announceRule key mui
          ⟨validity, nlri, pamap⟩).2⟩ := by
  unfold FlowRib.insertFlowspec readyFor
  by_cases hw : r.flowspec.muiIsWithdrawn key.family mui = true
  · simp only [hw, if_true]
    refine ⟨⟨r.rib.unicast, r.rib.multicast, _⟩, _, ?_, rfl⟩
    rfl
  · simp only [hw, if_true]
    exact ⟨_, _, rfl, rfl⟩

lemma GaugeInv.insertFlowspec (h : GaugeInv g) (env : FlowSpecEnv)
    (nlri : RawNlri) (pamap : RotondaPaMap) (key : Prefix) (announce : Bool) (mui : IngressId)
    (hok : if announce then g.rib.flowspec.muiIsWithdrawn key.family mui = true →
        Alone g mui (flowAfiSafi key.family)
      else (g.rib.flowspec.rulesetAt key mui).hasRule nlri = true →
        g.rib.flowspec.muiIsWithdrawn key.family mui = false) :
    GaugeInv (g.insertFlowspec env nlri pamap key announce mui) := by
  cases announce with
  | true =>
    obtain ⟨rib, validity, hvis, hr⟩ := insertFlowspec_announce env g.rib nlri pamap key mui
    have hcount := length_visible_announceRule _
      (muiIsWithdrawn_readyFor g.rib.flowspec key.family mui) ⟨validity, nlri, pamap⟩
    rw [visible_readyFor] at hcount
    show GaugeInv ⟨g.rib.insertFlowspec env nlri pamap key true mui, _⟩
    rw [hr]
    refine h.announce (present_setFlowspec hvis ?_) hok ?_
    · intro p m hk
      rw [visible_announceRule_of_ne _ key mui _ hk, visible_readyFor]
    · rw [present_flow, present_flow]
      exact hcount
  | false =>
    show GaugeInv ⟨⟨g.rib.rib, (g.rib.flowspec.withdrawRule key mui nlri).2⟩, _⟩
    refine h.retract (present_setFlowspec rfl ?_) ?_
    · intro p m hk
      exact g.rib.flowspec.visible_withdrawRule_of_ne key mui nlri hk
    · rw [present_flow, present_flow]
      by_cases hrule : (g.rib.flowspec.rulesetAt key mui).hasRule nlri = true
      · exact g.rib.flowspec.length_visible_withdrawRule (hok hrule) nlri
      · -- a rule that is not there leaves the store as it is
        rw [if_neg hrule]
        have hsame : (g.rib.flowspec.withdrawRule key mui nlri).2 = g.rib.flowspec :=
          if_neg hrule
        rw [hsame]
        rfl

lemma gaugeInv_step {env : FlowSpecEnv} {op : GaugeOp env} (h : GaugeInv g)
    (hok : GaugeOk env g op) : GaugeInv (g.step env op) := by
  cases op with
  | insertPrefix p mc pamap announce mui retain =>
    exact h.insertPrefix p mc pamap announce mui retain hok
  | insertFlowspec family n parsed pamap announce mui =>
    exact h.insertFlowspec env n.raw pamap (indexPrefix family n) announce mui hok
  | withdrawForIngresses ids retain =>
    refine h.bulk hok ?_
    intro f q m
    rw [present_withdrawForIngresses]
  | removeForIngresses ids =>
    have hfold : ids.foldl (fun reg id => reg.resetPeerGauge id none) g.registry =
        (ids.map fun id => (id, none)).foldl (fun reg e => reg.resetPeerGauge e.1 e.2)
          g.registry := by
      rw [foldl_map]
    show GaugeInv ⟨_, ids.foldl _ _⟩
    rw [hfold]
    refine h.bulk hok ?_
    intro f q m
    rw [present_removeForIngresses]
    have hcov : Covered (ids.map fun id => (id, none)) f m ↔ m ∈ ids := by
      unfold Covered scopeCovers
      simp
    simp only [hcov]
  | register reg => exact ⟨h.gauge_eq, h.allocated⟩
  | getOrCreate id => exact h.getOrCreate hok
  | aliasTo child parent => exact h.aliasTo hok
  | removeStats id => exact h.removeStats hok

/-- an empty RIB, and no session yet -/
def GaugedRib.new (reg : Register) : GaugedRib :=
  ⟨⟨Rib.new reg, FlowSpecStore.empty⟩, PeerStatsRegistry.new⟩

lemma gaugeInv_new (reg : Register) : GaugeInv (GaugedRib.new reg) := by
  constructor
  · intro a f _
    rfl
  · intro id a hid
    cases hid

/-- **The gauges**: in every run whose operations meet the condition, the gauge of a session for a
family is the number of active routes or rules of the family under the session and the path children
that share its counters, and the aggregate is the sum of the families. -/
theorem gauges_eq_active (env : FlowSpecEnv) (reg : Register) {ops : List (GaugeOp env)}
    (hok : Run.Along (GaugedRib.step env) (GaugeOk env) (GaugedRib.new reg) ops)
    {id : IngressId} {a : Nat}
    (hs : (Run.run (GaugedRib.step env) (GaugedRib.new reg) ops).registry.getSession id = some a) :
    let g := Run.run (GaugedRib.step env) (GaugedRib.new reg) ops
    (∀ f, PeerStatsRegistry.Counted f → (g.registry.stats a).gauge f =
      g.rib.activeCount f fun m => g.registry.get m = g.registry.get id) ∧
    (g.registry.stats a).adjRibInRoutes =
      Assoc.tally (fun _ n => n) (g.registry.stats a).adjRibInPerAfiSafi := by
  intro g
  have hinv : GaugeInv g := Run.run_inv (fun _ _ h => gaugeInv_step h) (gaugeInv_new reg) hok
  refine ⟨?_, (g.registry.stats a).aggregate⟩
  intro f hf
  rw [g.registry.get_of_getSession hs]
  exact hinv.gauge_eq a f hf

/-! ## a rule that outlives its session -/

lemma idle_empty (reg : Register) (m : IngressId) :
    Idle ⟨Rib.new reg, FlowSpecStore.empty⟩ m := by
  intro f p
  refine present_eq_zero ?_ ?_
  · intro mc _
    cases mc <;> rfl
  · intro _
    rfl

/-- the rule for protocol 6 comes or goes under a path child -/
def tcpRule (announce : Bool) (mui : IngressId) : GaugeOp twoRules :=
  .insertFlowspec .v4 ⟨[3#8, 0x81#8, 6#8], none⟩ twoRules_tcp
    RotondaPaMap.emptyPathAttributes announce mui

/-- session 1 with two paths, each with the rule -/
def twoPaths : List (GaugeOp twoRules) :=
  [.getOrCreate 1, .aliasTo 2 1, .aliasTo 3 1, tcpRule true 2, tcpRule true 3]

/-- the session goes down with its routes retained, and comes back with the first path -/
def oneComesBack : List (GaugeOp twoRules) :=
  [.withdrawForIngresses [(1, none), (2, none), (3, none)] true, tcpRule true 2]

/-- within a session both rules are counted, and a withdrawal takes one of them off -/
theorem gauges_eq_active_twoPaths :
    let g := Run.run (GaugedRib.step twoRules) (GaugedRib.new Register.new)
      (twoPaths ++ [tcpRule false 3])
    (∀ f, PeerStatsRegistry.Counted f → (g.registry.stats 0).gauge f =
      g.rib.activeCount f fun m => g.registry.get m = g.registry.get 1) ∧
    (g.registry.stats 0).gauge .ipv4FlowSpec = 1 := by
  have hok : Run.Along (GaugedRib.step twoRules) (GaugeOk twoRules) (GaugedRib.new Register.new)
      (twoPaths ++ [tcpRule false 3]) :=
    ⟨fun _ => idle_empty _ 1, fun _ _ _ => idle_empty _ 2, fun _ _ _ => idle_empty _ 3,
      (fun h => absurd h (by decide)), (fun h => absurd h (by decide)), fun _ => rfl, trivial⟩
  exact ⟨(gauges_eq_active twoRules Register.new hok rfl).1, by decide⟩

/-- a withdrawal of the other rule, which is not active, takes the active one off the gauge -/
theorem retainedRule_miscounted :
    let g := Run.run (GaugedRib.step twoRules) (GaugedRib.new Register.new)
      (twoPaths ++ oneComesBack ++ [tcpRule false 3])
    g.registry.getSession 1 = some 0 ∧ (g.registry.stats 0).gauge .ipv4FlowSpec = 0 ∧
      g.rib.activeCount .ipv4FlowSpec (fun m => g.registry.get m = g.registry.get 1) = 1 := by
  decide

end Netom
