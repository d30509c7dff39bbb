import Netom.BmpOut.Aggregator

/-!
# The byte budget of the aggregator

Both kinds of groups draw on one budget.  `buffered_bytes` is adjusted whenever a group is taken out
of its map or put back, and an add that goes over the budget sends groups until half of it is left.

* `AggTable.held`, `RouteAggregator.held`  the costs of the groups that are held;
* `Balanced`  the counter is their sum;
* `NoUnderflow`  whatever group is taken out, the counter is at least its cost;
* `FlushKeeps`  a flush that fails leaves no group behind;
* `budget_kept`  **the counter is the sum and never underflows, and an add that evicts and is not
  refused ends below the budget**.
-/

namespace Netom.Builder

section table
variable {ι : Type} (k : Packing ι)

def AggTable.held (t : AggTable ι) : Nat := Assoc.total (fun _ g => g.cost k) t.groups

/-- the counter is the sum of the groups, with `rest` from the other kind -/
def Accounted (rest : Nat) (t : AggTable ι) : Prop :=
  t.counters.bufferedBytes = rest + t.held k

def Covered (t : AggTable ι) : Prop :=
  ∀ key g, t.groups.lookup key = some g → g.cost k ≤ t.counters.bufferedBytes

/-- messages were sent, but no group moved -/
structure SameGroups (t t' : AggTable ι) : Prop where
  groups : t'.groups = t.groups
  bufferedBytes : t'.counters.bufferedBytes = t.counters.bufferedBytes

variable {k} (env : AggEnv) {rest : Nat} {t t' : AggTable ι} {key : GroupKey} {g : AggGroup ι}

lemma Accounted.same (h : Accounted k rest t) (hs : SameGroups t t') : Accounted k rest t' := by
  unfold Accounted AggTable.held
  rw [hs.groups, hs.bufferedBytes]
  exact h

lemma sameGroups_emit (t : AggTable ι) (g : AggGroup ι) (peer : PeerInfo) :
    SameGroups t (t.emit env k g peer).2 := by
  refine ⟨rfl, ?_⟩
  show (g.emit env k peer t.counters).2.bufferedBytes = _
  unfold AggGroup.emit
  split
  · rfl
  · rfl

/-- no group costs more than what is counted, so any of them can be taken out -/
lemma Accounted.covered (h : Accounted k rest t) : Covered k t := by
  intro key g hl
  have hsum : t.held k = g.cost k + _ := Assoc.total_of_lookup hl
  unfold Accounted at h
  omega

lemma Accounted.remove (h : Accounted k rest t) (hl : t.groups.lookup key = some g) :
    Accounted k rest (t.remove k key g) := by
  have hsum : t.held k = g.cost k + (t.remove k key g).held k := Assoc.total_of_lookup hl
  unfold Accounted at h ⊢
  show t.counters.bufferedBytes - g.cost k = _
  omega

/-! ## one item more -/

lemma Accounted.open (h : Accounted k rest t) (key : GroupKey) (peer : PeerInfo) (raw : Bytes) :
    Accounted k rest (t.open env k peer key raw).2.2 ∧
      (t.open env k peer key raw).2.2.groups.lookup key = none := by
  unfold AggTable.open
  cases hl : t.groups.lookup key with
  | none => exact ⟨h, hl⟩
  | some g =>
    have hr := h.remove hl
    have hnone : (t.remove k key g).groups.lookup key = none := by
      show (t.groups.erase key).lookup key = none
      rw [Assoc.lookup_erase_eq, if_pos rfl]
    have hs : SameGroups _ ((t.remove k key g).emit env k g peer).2 :=
      sameGroups_emit env (t.remove k key g) g peer
    simp only
    split
    · exact ⟨hr, hnone⟩
    · cases he : (t.remove k key g).emit env k g peer with
      | mk sent t' =>
        rw [he] at hs
        have ht : Accounted k rest t' ∧ t'.groups.lookup key = none :=
          ⟨hr.same hs, by rw [hs.groups]; exact hnone⟩
        cases sent with
        | true | false => exact ht

lemma sameGroups_makeRoom (t : AggTable ι) (peer : PeerInfo) (g : AggGroup ι) (item : ι) :
    SameGroups t (t.makeRoom env k peer g item).2.2 := by
  unfold AggTable.makeRoom
  split
  · exact sameGroups_emit env t g peer
  · exact ⟨rfl, rfl⟩

lemma Accounted.place (h : Accounted k rest t) (hl : t.groups.lookup key = none) (peer : PeerInfo)
    (raw : Bytes) (g : AggGroup ι) (item : ι) :
    Accounted k rest (t.place env k peer key raw g item).2 := by
  unfold AggTable.place
  split
  · cases k.buildOne key.isV4 raw item with
    | none => exact h
    | some bgpUpdate => exact h.same ⟨rfl, rfl⟩
  · unfold Accounted AggTable.held at h ⊢
    simp only
    rw [Assoc.total_insert, Assoc.total_erase_of_not_mem hl]
    omega

lemma Accounted.addTo (h : Accounted k rest t) (peer : PeerInfo) (raw : Bytes) (item : ι) :
    Accounted k rest (addTo env k t peer key raw item).2 := by
  obtain ⟨hopen, hnone⟩ := h.open env key peer raw
  unfold Builder.addTo
  rcases ho : t.open env k peer key raw with ⟨_ | _, g, t₁⟩
  · rw [ho] at hopen
    exact hopen
  · rw [ho] at hopen hnone
    have hs := sameGroups_makeRoom env (k := k) t₁ peer g item
    rcases hm : t₁.makeRoom env k peer g item with ⟨_ | _, g', t₂⟩
    · rw [hm] at hs
      simp only [hm]
      exact hopen.same hs
    · rw [hm] at hs
      simp only [hm]
      exact (hopen.same hs).place env (by rw [hs.groups]; exact hnone) peer raw g' item

/-! ## eviction -/

/-- groups were taken out until the target was reached, unless a message was refused -/
structure Evicted (k : Packing ι) (rest target : Nat) (t : AggTable ι) (keys : List GroupKey)
    (r : Bool × AggTable ι) : Prop where
  accounted : Accounted k rest r.2
  gone : ∀ key, t.groups.lookup key = none → r.2.groups.lookup key = none
  done : r.1 = true → r.2.counters.bufferedBytes ≤ target ∨
    ∀ key ∈ keys, r.2.groups.lookup key = none

variable {target : Nat} {keys : List GroupKey} {r : Bool × AggTable ι}

lemma Evicted.cons (h : Evicted k rest target t' keys r)
    (hgone : ∀ key', key' = key ∨ t.groups.lookup key' = none → t'.groups.lookup key' = none) :
    Evicted k rest target t (key :: keys) r := by
  refine ⟨h.accounted, fun key' hl => h.gone key' (hgone key' (.inr hl)), fun hr => ?_⟩
  refine (h.done hr).imp_right fun hkeys => List.forall_mem_cons.mpr ⟨?_, hkeys⟩
  exact h.gone key (hgone key (.inl rfl))

lemma Accounted.evictKeys (h : Accounted k rest t) (peerInfo : Assoc IngressId PeerInfo)
    (target : Nat) (keys : List GroupKey) :
    Evicted k rest target t keys (evictKeys env k peerInfo target t keys) := by
  induction keys generalizing t with
  | nil => exact ⟨h, fun _ hl => hl, fun _ => .inr (List.forall_mem_nil _)⟩
  | cons key keys ih =>
    rw [Builder.evictKeys]
    by_cases hle : t.counters.bufferedBytes ≤ target
    · rw [if_pos hle]
      exact ⟨h, fun _ hl => hl, fun _ => .inl hle⟩
    rw [if_neg hle]
    cases hl : t.groups.lookup key with
    | none => exact (ih h).cons fun key' hk => hk.elim (fun he => he ▸ hl) id
    | some g =>
      have hgone : ∀ key', key' = key ∨ t.groups.lookup key' = none →
          (t.groups.erase key).lookup key' = none := by
        intro key' hk
        rw [Assoc.lookup_erase_eq]
        split
        · rfl
        · rename_i hne
          exact hk.resolve_left hne
      have hr := h.remove hl
      simp only
      generalize ht₁ : ({ t.remove k key g with counters := _ } : AggTable ι) = t₁
      have hs₁ : SameGroups (t.remove k key g) t₁ := ht₁ ▸ ⟨rfl, rfl⟩
      have h₁ := hr.same hs₁
      cases peerInfo.lookup key.ingressId with
      | none => exact (ih h₁).cons fun key' hk => hs₁.groups ▸ hgone key' hk
      | some peer =>
        have hs := sameGroups_emit env (k := k) t₁ g peer
        have hgr : (t₁.emit env k g peer).2.groups = t.groups.erase key :=
          hs.groups.trans hs₁.groups
        have ha := h₁.same hs
        rcases he : t₁.emit env k g peer with ⟨_ | _, t₂⟩
        · rw [he] at hgr ha
          simp only [he]
          exact ⟨ha, fun key' hk => hgr ▸ hgone key' (.inr hk), nofun⟩
        · rw [he] at hgr ha
          simp only [he]
          exact (ih ha).cons fun key' hk => hgr ▸ hgone key' hk

/-- an eviction that goes through all the keys leaves nothing -/
lemma Evicted.held_eq_zero (h : Evicted k rest target t keys r) (hr : r.1 = true)
    (hlt : target < r.2.counters.bufferedBytes) (hkeys : ∀ key ∈ t.groups.keys, key ∈ keys) :
    r.2.held k = 0 := by
  have hnil : r.2.groups.entries = [] := by
    rw [List.eq_nil_iff_forall_not_mem]
    intro e he
    have hnone : r.2.groups.lookup e.1 = none := by
      by_cases hk : e.1 ∈ t.groups.keys
      · exact ((h.done hr).resolve_left (by omega)) e.1 (hkeys e.1 hk)
      · exact h.gone e.1 (AList.lookup_eq_none.mpr hk)
    rw [AList.mem_lookup_iff.mpr he] at hnone
    cases hnone
  unfold AggTable.held Assoc.total
  rw [hnil]
  rfl

end table

/-! ## the aggregator -/

namespace RouteAggregator
variable (env : AggEnv) (agg : RouteAggregator)

def held : Nat := agg.prefixTable.held aggGroup + agg.ruleTable.held fsAggGroup

def Balanced : Prop := agg.counters.bufferedBytes = agg.held

/-- the first half of an eviction, as far as these keys -/
def evictPrefixes (keys : List GroupKey) : Bool × AggTable (Prefix × Option PathId) :=
  evictKeys env aggGroup agg.peerInfo (agg.maxBytes / 2) agg.prefixTable keys

/-- every group can be taken out, at the start and wherever an eviction has got to -/
def NoUnderflow : Prop :=
  Covered aggGroup agg.prefixTable ∧ Covered fsAggGroup agg.ruleTable ∧
  ∀ keys, Covered aggGroup (agg.evictPrefixes env keys).2 ∧
    ∀ keys', Covered fsAggGroup (evictKeys env fsAggGroup agg.peerInfo (agg.maxBytes / 2)
      (agg.withPrefixes (agg.evictPrefixes env keys).2).ruleTable keys').2

variable {agg}

lemma balanced_iff_prefixes :
    agg.Balanced ↔ Accounted aggGroup (agg.ruleTable.held fsAggGroup) agg.prefixTable := by
  unfold Balanced held Accounted
  rw [Nat.add_comm]
  rfl

lemma balanced_iff_rules :
    agg.Balanced ↔ Accounted fsAggGroup (agg.prefixTable.held aggGroup) agg.ruleTable := Iff.rfl

lemma mem_fullestFirst {ι : Type} {groups : Assoc GroupKey (AggGroup ι)} {key : GroupKey}
    (h : key ∈ groups.keys) : key ∈ fullestFirst env groups :=
  (List.mergeSort_perm _ _).mem_iff.mpr ((env.order_perm _).mem_iff.mpr h)

lemma Balanced.evictPrefixes (h : agg.Balanced) (keys : List GroupKey) :
    Evicted aggGroup (agg.ruleTable.held fsAggGroup) (agg.maxBytes / 2) agg.prefixTable keys
      (agg.evictPrefixes env keys) :=
  (balanced_iff_prefixes.mp h).evictKeys env agg.peerInfo _ keys

lemma Balanced.withPrefixes_evicted (h : agg.Balanced) (keys : List GroupKey) :
    (agg.withPrefixes (agg.evictPrefixes env keys).2).Balanced :=
  balanced_iff_prefixes.mpr (h.evictPrefixes env keys).accounted

lemma Balanced.noUnderflow (h : agg.Balanced) : agg.NoUnderflow env := by
  refine ⟨(balanced_iff_prefixes.mp h).covered, (balanced_iff_rules.mp h).covered, fun keys => ?_⟩
  refine ⟨(h.evictPrefixes env keys).accounted.covered, fun keys' => ?_⟩
  have hrules := balanced_iff_rules.mp (h.withPrefixes_evicted env keys)
  exact (hrules.evictKeys env _ _ keys').accounted.covered

/-- an eviction that is not refused gets below half the budget -/
lemma Balanced.evict (h : agg.Balanced) :
    (agg.evictUntilUnderBudget env).2.Balanced ∧
      (agg.evictUntilUnderBudget env).2.maxBytes = agg.maxBytes ∧
      ((agg.evictUntilUnderBudget env).1 = true →
        (agg.evictUntilUnderBudget env).2.counters.bufferedBytes ≤ agg.maxBytes / 2) := by
  have hp := h.evictPrefixes env (fullestFirst env agg.groups)
  have hb := h.withPrefixes_evicted env (fullestFirst env agg.groups)
  simp only [evictUntilUnderBudget]
  unfold RouteAggregator.evictPrefixes at hp hb
  rcases he : Builder.evictKeys env aggGroup agg.peerInfo (agg.maxBytes / 2) agg.prefixTable
    (fullestFirst env agg.groups) with ⟨_ | _, t⟩
  · rw [he] at hb
    exact ⟨hb, rfl, nofun⟩
  rw [he] at hp hb
  by_cases hlt : agg.maxBytes / 2 < t.counters.bufferedBytes
  · have hr := (balanced_iff_rules.mp hb).evictKeys env agg.peerInfo (agg.maxBytes / 2)
      (fullestFirst env agg.fsGroups)
    have hzero : t.held aggGroup = 0 := hp.held_eq_zero rfl hlt fun _ => mem_fullestFirst env
    simp only
    rw [if_pos (show agg.maxBytes / 2 < (agg.withPrefixes t).counters.bufferedBytes from hlt)]
    refine ⟨hr.accounted, rfl, fun hsent => Nat.le_of_not_lt fun hover => ?_⟩
    -- no group of either kind is left, so nothing is counted
    have hrules := hr.held_eq_zero hsent hover fun _ => mem_fullestFirst env
    have hsum := hr.accounted
    unfold Accounted at hsum
    rw [hrules, show (agg.withPrefixes t).prefixTable.held aggGroup = 0 from hzero] at hsum
    exact Nat.not_lt_zero _ (lt_of_lt_of_eq hover hsum)
  · simp only
    rw [if_neg (show ¬ agg.maxBytes / 2 < (agg.withPrefixes t).counters.bufferedBytes from hlt)]
    exact ⟨hb, rfl, fun _ => Nat.le_of_not_lt hlt⟩

end RouteAggregator

/-! ## calls and flushes -/

open RouteAggregator

namespace AggCall
variable (env : AggEnv) (agg : RouteAggregator)

/-- the call up to the check of the budget -/
def place : AggCall → AddOutcome × RouteAggregator
  | .add id pathId p raw =>
    match agg.peerInfo.lookup id with
    | none => (.passed, agg)
    | some peer =>
      let r := addTo env aggGroup agg.prefixTable peer
        (keyOf env aggGroup id (Prefix.isV4 p) (p, pathId) raw) raw (p, pathId)
      (r.1, agg.withPrefixes r.2)
  | .addFlowspec id pathId isV4 nlriRaw raw =>
    match agg.peerInfo.lookup id with
    | none => (.passed, agg)
    | some peer =>
      let r := addTo env fsAggGroup agg.ruleTable peer
        (keyOf env fsAggGroup id isV4 (pathId, nlriRaw) raw) raw (pathId, nlriRaw)
      (r.1, agg.withRules r.2)
  | .insertPeer id info => (.passed, agg.insertPeer id info)

/-- the call puts an item into a group, and the groups are then over the budget -/
def Triggers (c : AggCall) : Prop :=
  (c.place env agg).1 = .placed ∧
    (c.place env agg).2.maxBytes < (c.place env agg).2.counters.bufferedBytes

variable {agg}

lemma apply_eq (c : AggCall) :
    c.apply env agg = afterAdd env (c.place env agg).1 (c.place env agg).2 := by
  cases c with
  | add id pathId p raw =>
    simp only [apply, RouteAggregator.add, place]
    cases agg.peerInfo.lookup id with
    | none | some peer => rfl
  | addFlowspec id pathId isV4 nlriRaw raw =>
    simp only [apply, RouteAggregator.addFlowspec, place]
    cases agg.peerInfo.lookup id with
    | none | some peer => rfl
  | insertPeer id info => rfl

lemma balanced_place (h : agg.Balanced) (c : AggCall) :
    (c.place env agg).2.Balanced ∧ (c.place env agg).2.maxBytes = agg.maxBytes := by
  cases c with
  | add id pathId p raw =>
    simp only [place]
    cases agg.peerInfo.lookup id with
    | none => exact ⟨h, rfl⟩
    | some peer =>
      exact ⟨balanced_iff_prefixes.mpr ((balanced_iff_prefixes.mp h).addTo env peer raw _), rfl⟩
  | addFlowspec id pathId isV4 nlriRaw raw =>
    simp only [place]
    cases agg.peerInfo.lookup id with
    | none => exact ⟨h, rfl⟩
    | some peer => exact ⟨balanced_iff_rules.mpr ((balanced_iff_rules.mp h).addTo env peer raw _), rfl⟩
  | insertPeer id info => exact ⟨h, rfl⟩

lemma balanced_apply (h : agg.Balanced) (c : AggCall) :
    (c.apply env agg).2.Balanced ∧ (c.apply env agg).2.maxBytes = agg.maxBytes ∧
      (c.Triggers env agg → (c.apply env agg).1 = true →
        (c.apply env agg).2.counters.bufferedBytes ≤ agg.maxBytes / 2) := by
  obtain ⟨hb, hmax⟩ := balanced_place env h c
  rw [apply_eq]
  unfold Triggers
  cases ho : (c.place env agg).1 with
  | gone | passed => exact ⟨hb, hmax, nofun⟩
  | placed =>
    simp only [afterAdd]
    split
    · obtain ⟨h1, h2, h3⟩ := hb.evict env
      rw [hmax] at h2 h3
      exact ⟨h1, h2, fun _ => h3⟩
    · rename_i hle
      exact ⟨hb, hmax, fun ht => absurd ht.2 hle⟩

end AggCall

inductive AggEvent where
  | call (c : AggCall)
  | flush

namespace AggEvent
variable (env : AggEnv) (agg : RouteAggregator)

/-- the state after an event, whether or not the sink took what was sent -/
def step : AggEvent → RouteAggregator
  | call c => (c.apply env agg).2
  | flush => (agg.flushAll env).2

/-- a flush that is refused one of the prefix groups leaves no FlowSpec group behind -/
def FlushKeeps : AggEvent → Prop
  | call _ => True
  | flush => (emitAll env aggGroup agg.peerInfo agg.counters
      (Assoc.drain (env.order agg.groups.keys) agg.groups)).1 = true ∨ agg.fsGroups = ∅

variable {agg}

lemma balanced_step (e : AggEvent) (h : agg.Balanced) (hk : e.FlushKeeps env agg) :
    (e.step env agg).Balanced ∧ (e.step env agg).maxBytes = agg.maxBytes := by
  cases e with
  | call c =>
    obtain ⟨hb, hmax, _⟩ := AggCall.balanced_apply env h c
    exact ⟨hb, hmax⟩
  | flush =>
    simp only [step, flushAll]
    rcases he : emitAll env aggGroup agg.peerInfo agg.counters
      (Assoc.drain (env.order agg.groups.keys) agg.groups) with ⟨_ | _, s⟩
    · have hfs : agg.fsGroups = ∅ := hk.resolve_left (by rw [he]; nofun)
      refine ⟨?_, rfl⟩
      unfold RouteAggregator.Balanced held
      simp only [ruleTable, hfs]
      rfl
    · exact ⟨rfl, rfl⟩

end AggEvent

/-- **in every run whose flushes leave nothing behind, the counter is the sum of the costs of the
groups, no call subtracts more than there is, and an add that evicts and is not refused ends below
half the budget** -/
theorem budget_kept (env : AggEnv) (maxBytes : Nat) (peerInfo : Assoc IngressId PeerInfo)
    (es : List AggEvent)
    (h : Run.Along (AggEvent.step env) (fun agg e => e.FlushKeeps env agg)
      (RouteAggregator.new maxBytes peerInfo) es) (c : AggCall) :
    let agg := Run.run (AggEvent.step env) (RouteAggregator.new maxBytes peerInfo) es
    agg.counters.bufferedBytes = agg.held ∧ agg.NoUnderflow env ∧
      (c.place env agg).2.NoUnderflow env ∧
      (c.Triggers env agg → (c.apply env agg).1 = true →
        (c.apply env agg).2.counters.bufferedBytes ≤ maxBytes / 2) := by
  intro agg
  obtain ⟨hb, hmax⟩ : agg.Balanced ∧ agg.maxBytes = maxBytes := by
    refine @Run.run_inv _ _ _ _ (fun agg => agg.Balanced ∧ agg.maxBytes = maxBytes) ?_ _ ⟨rfl, rfl⟩ _ h
    rintro agg e ⟨hb, hmax⟩ hk
    obtain ⟨hb', hmax'⟩ := e.balanced_step env hb hk
    exact ⟨hb', hmax'.trans hmax⟩
  refine ⟨hb, hb.noUnderflow env, (AggCall.balanced_place env hb c).1.noUnderflow env, ?_⟩
  rw [← hmax]
  exact (AggCall.balanced_apply env hb c).2.2

/-! ## a sink that refuses -/

/-- attributes are told apart by their length; the sink takes the first `n` messages -/
def acceptsFirst (n : Nat) : AggEnv where
  hashPaBlob blob := BitVec.ofNat 64 blob.length
  order := id
  order_perm _ := List.Perm.refl _
  clock _ := (0, 0)
  accepts i := i < n

def onePeer : AggEvent := .call (.insertPeer 1 examplePeer)

/-- 10.0.0.0/8 with an ORIGIN, and `n` unknown bytes after it -/
def routeWith (n : Nat) : AggCall :=
  .add 1 none ⟨.v4, bitsOf (10 : BitVec 8), by decide⟩
    (0 :: 0 :: 0x40 :: 1 :: 1 :: 0 :: List.replicate n 0)

def ruleOf (n : Nat) : AggCall := .addFlowspec 1 none true (List.replicate n 1) [0, 0, 0x40, 1, 1, 0]

/-- a refused flush forgets the FlowSpec groups it still holds, and a refused eviction leaves two
groups over the budget -/
theorem budget_refused :
    let env := acceptsFirst 0
    let flushed := Run.run (AggEvent.step env) (RouteAggregator.new 1000 ∅)
      [onePeer, .call (routeWith 0), .call (ruleOf 3), .flush]
    let agg := Run.run (AggEvent.step env) (RouteAggregator.new 400 ∅)
      [onePeer, .call (routeWith 0), .call (routeWith 1)]
    let after := ((ruleOf 100).apply env agg).2
    (flushed.counters.bufferedBytes = 0 ∧ flushed.held = 163) ∧ (ruleOf 100).Triggers env agg ∧
      400 < after.counters.bufferedBytes ∧
      after.groups.keys.length + after.fsGroups.keys.length = 2 := by
  intro env flushed agg after
  have htrig : (ruleOf 100).Triggers env agg := by
    unfold AggCall.Triggers
    decide +kernel
  have hsort : fullestFirst env ((ruleOf 100).place env agg).2.groups =
      ((ruleOf 100).place env agg).2.groups.keys :=
    List.mergeSort_of_pairwise (by decide +kernel)
  have hafter : after = (evictUntilUnderBudget env ((ruleOf 100).place env agg).2).2 := by
    show ((ruleOf 100).apply env agg).2 = _
    rw [AggCall.apply_eq env, htrig.1, afterAdd, if_pos htrig.2]
  refine ⟨by decide +kernel, htrig, ?_⟩
  rw [hafter, evictUntilUnderBudget, hsort]
  decide +kernel

theorem budget_kept_flushing :
    let agg := Run.run (AggEvent.step (acceptsFirst 9)) (RouteAggregator.new 400 ∅)
      [onePeer, .call (routeWith 0), .flush, .call (routeWith 1)]
    agg.counters.bufferedBytes = agg.held ∧ agg.held = 160 := by
  intro agg
  have hflush : AggEvent.flush.FlushKeeps (acceptsFirst 9) (Run.run (AggEvent.step (acceptsFirst 9))
      (RouteAggregator.new 400 ∅) [onePeer, .call (routeWith 0)]) := .inl (by decide +kernel)
  have h := budget_kept (acceptsFirst 9) 400 ∅
    [onePeer, .call (routeWith 0), .flush, .call (routeWith 1)]
    ⟨trivial, trivial, hflush, trivial, trivial⟩ (routeWith 2)
  exact ⟨h.1, by decide +kernel⟩

end Netom.Builder
