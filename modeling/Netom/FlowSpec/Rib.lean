import Netom.FlowSpec.Validity

/-!
# FlowSpec rules in the RIB

The FlowSpec store beside the unicast and multicast stores: rules that are announced and withdrawn,
and sessions that are withdrawn or removed as a whole.

* `insertFlowspec`, `FlowRib.withdrawForIngresses`, `FlowRib.removeForIngresses`;
* `visible_withdrawForIngresses_flowspec`, `visible_removeForIngresses_flowspec`  what whole
  sessions take with them;
* `wellKeyed_run`  every rule is stored under its destination prefix, or under the default route.
-/

namespace Netom
open List

structure FlowRib where
  rib : Rib
  flowspec : FlowSpecStore

def FlowRib.new (reg : Register) : FlowRib := ⟨Rib.new reg, FlowSpecStore.empty⟩

/-! ## one rule -/

/-- the prefix that a rule is stored under -/
def indexPrefix (family : AddrFamily) (n : FlowSpecNlri) : Prefix :=
  n.dstPrefix.getD (defaultRoute family)

def FlowRib.insertFlowspec (env : FlowSpecEnv) (r : FlowRib) (nlriRaw : RawNlri)
    (pamap : RotondaPaMap) (key : Prefix) (announce : Bool) (mui : IngressId) : FlowRib :=
  if announce then
    -- a withdrawn mui may still own the rules of its previous session
    let r : FlowRib :=
      if r.flowspec.muiIsWithdrawn key.family mui then
        { rib := { r.rib with
            ingressRegister := r.rib.ingressRegister.updateInfo mui
              { IngressInfo.new with state := some .connected } }
          flowspec := r.flowspec.resetFlowspecFamily mui key.family }
      else r
    let flowOriginator := (flowspecIdentity env r.rib.ingressRegister pamap mui).1
    let validity := validateFlowspec env r.rib nlriRaw flowOriginator key.family
    { r with flowspec := (r.flowspec.announceRule key mui ⟨validity, nlriRaw, pamap⟩).2 }
  else { r with flowspec := (r.flowspec.withdrawRule key mui nlriRaw).2 }

/-! ## whole sessions -/

namespace FlowSpecStore
variable (s : FlowSpecStore)

def compactFlowspecForIngresses (ids : List IngressId) (family : Option AddrFamily) :
    FlowSpecStore :=
  s.emptyKeys fun k => family.all (k.1.family = ·) && ids.contains k.2

def compactForIngresses (ids : List (IngressId × Option AfiSafiType)) : FlowSpecStore :=
  ((s.compactFlowspecForIngresses (scopeBucket ids none) none).compactFlowspecForIngresses
    (scopeBucket ids (some .ipv4FlowSpec)) (some .v4)).compactFlowspecForIngresses
    (scopeBucket ids (some .ipv6FlowSpec)) (some .v6)

/-- mark one ingress withdrawn in its scope -/
def markWithdrawn (e : IngressId × Option AfiSafiType) : FlowSpecStore :=
  match e.2 with
  | none => (s.markMuiAsWithdrawnIn .v4 e.1).markMuiAsWithdrawnIn .v6 e.1
  | some .ipv4FlowSpec => s.markMuiAsWithdrawnIn .v4 e.1
  | some .ipv6FlowSpec => s.markMuiAsWithdrawnIn .v6 e.1
  | some _ => s

def withdrawForIngresses (ids : List (IngressId × Option AfiSafiType))
    (retainWithdrawnAttributes : Bool) : FlowSpecStore :=
  ids.foldl markWithdrawn (if !retainWithdrawnAttributes then s.compactForIngresses ids else s)

def removeForIngresses (ids : List IngressId) : FlowSpecStore := ids.foldl removeMui s

end FlowSpecStore

def FlowRib.withdrawForIngresses (r : FlowRib) (ids : List (IngressId × Option AfiSafiType))
    (retainWithdrawnAttributes : Bool) : FlowRib :=
  ⟨r.rib.withdrawForIngresses ids retainWithdrawnAttributes,
    r.flowspec.withdrawForIngresses ids retainWithdrawnAttributes⟩

def FlowRib.removeForIngresses (r : FlowRib) (ids : List IngressId) : FlowRib :=
  ⟨r.rib.removeForIngresses ids, r.flowspec.removeForIngresses ids⟩

lemma FlowRib.register_removeForIngresses (r : FlowRib) (ids : List IngressId) :
    (r.removeForIngresses ids).rib.ingressRegister = r.rib.ingressRegister := by
  show (r.rib.removeForIngresses ids).ingressRegister = _
  generalize r.rib = rib
  unfold Rib.removeForIngresses
  induction ids generalizing rib with
  | nil => rfl
  | cons id ids ih => exact ih _

/-- the scope takes the rules of a family with it -/
def flowInScope (scope : Option AfiSafiType) (family : AddrFamily) : Bool :=
  match scope with
  | none => true
  | some .ipv4FlowSpec => family = .v4
  | some .ipv6FlowSpec => family = .v6
  | some _ => false

def flowCovered (ids : List (IngressId × Option AfiSafiType)) (family : AddrFamily)
    (mui : IngressId) : Bool :=
  ids.any fun e => e.1 = mui && flowInScope e.2 family

namespace FlowSpecStore
variable (s : FlowSpecStore)

lemma visible_markWithdrawn (e : IngressId × Option AfiSafiType) (p : Prefix) (m : IngressId) :
    (s.markWithdrawn e).visible p m =
      if e.1 = m && flowInScope e.2 p.family then [] else s.visible p m := by
  obtain ⟨id, scope⟩ := e
  have hsym : (id = m) = (m = id) := propext eq_comm
  unfold markWithdrawn flowInScope
  split
  · rw [visible_markMuiAsWithdrawnIn, visible_markMuiAsWithdrawnIn]
    cases p.family <;> by_cases hm : m = id <;> simp [hm, hsym]
  · rw [visible_markMuiAsWithdrawnIn]
    cases p.family <;> by_cases hm : m = id <;> simp [hm, hsym]
  · rw [visible_markMuiAsWithdrawnIn]
    cases p.family <;> by_cases hm : m = id <;> simp [hm, hsym]
  · simp

variable (ids : List (IngressId × Option AfiSafiType))

lemma visible_foldl_markWithdrawn (p : Prefix) (m : IngressId) :
    (ids.foldl markWithdrawn s).visible p m =
      if flowCovered ids p.family m then [] else s.visible p m := by
  induction ids generalizing s with
  | nil => rfl
  | cons e ids ih =>
    rw [foldl_cons, ih, visible_markWithdrawn]
    unfold flowCovered
    rw [any_cons]
    by_cases h1 : (ids.any fun e => decide (e.1 = m) && flowInScope e.2 p.family) = true
    · rw [if_pos h1, h1, Bool.or_true, if_pos rfl]
    · rw [if_neg h1, Bool.not_eq_true _ |>.mp h1, Bool.or_false]

lemma visible_compact (ids : List IngressId) (family : Option AddrFamily) (p : Prefix)
    (m : IngressId) : (s.compactFlowspecForIngresses ids family).visible p m =
      if family.all (p.family = ·) && ids.contains m then [] else s.visible p m :=
  s.visible_emptyKeys _ p m

lemma visible_compactForIngresses (p : Prefix) (m : IngressId)
    (h : flowCovered ids p.family m = false) :
    (s.compactForIngresses ids).visible p m = s.visible p m := by
  have hnot : ∀ scope, flowInScope scope p.family = true →
      (scopeBucket ids scope).contains m = false := by
    intro scope hs
    rw [Bool.eq_false_iff]
    intro hc
    have hmem := mem_scopeBucket.mp (contains_iff_mem.mp hc)
    have hf := any_eq_false.mp h (m, scope) hmem
    simp [hs] at hf
  unfold compactForIngresses
  rw [visible_compact, visible_compact, visible_compact, hnot none rfl]
  cases hf : p.family with
  | v4 =>
    rw [hnot (some .ipv4FlowSpec) (by rw [hf]; rfl)]
    simp
  | v6 =>
    rw [hnot (some .ipv6FlowSpec) (by rw [hf]; rfl)]
    simp

lemma visible_withdrawForIngresses_flowspec (retain : Bool) (p : Prefix) (m : IngressId) :
    (s.withdrawForIngresses ids retain).visible p m =
      if flowCovered ids p.family m then [] else s.visible p m := by
  unfold withdrawForIngresses
  rw [visible_foldl_markWithdrawn]
  by_cases hc : flowCovered ids p.family m = true
  · rw [if_pos hc, if_pos hc]
  · rw [if_neg hc, if_neg hc]
    cases retain with
    | true => rfl
    | false => exact s.visible_compactForIngresses ids p m (Bool.not_eq_true _ |>.mp hc)

lemma visible_removeForIngresses_flowspec (ids : List IngressId) (p : Prefix) (m : IngressId) :
    (s.removeForIngresses ids).visible p m = if m ∈ ids then [] else s.visible p m := by
  unfold removeForIngresses
  induction ids generalizing s with
  | nil => simp
  | cons id ids ih =>
    rw [foldl_cons, ih, visible_removeMui]
    by_cases h1 : m ∈ ids
    · simp [h1]
    · by_cases h2 : m = id
      · simp [h2]
      · simp [h1, h2]

end FlowSpecStore

/-! ## the keys of the rules -/

/-- a rule with this NLRI is stored under the prefix -/
def KeyedAt (env : FlowSpecEnv) (key : Prefix) (raw : RawNlri) : Prop :=
  ∃ n, env.Parsed key.family n ∧ n.raw = raw ∧ indexPrefix key.family n = key

def WellKeyed (env : FlowSpecEnv) (s : FlowSpecStore) : Prop :=
  ∀ key mui, ∀ rule ∈ (s.rulesetAt key mui).rules, KeyedAt env key rule.nlri

/-- no rule is there that was not there before -/
def Shrinks (s s' : FlowSpecStore) : Prop :=
  ∀ key mui, ∀ rule ∈ (s'.rulesetAt key mui).rules, rule ∈ (s.rulesetAt key mui).rules

lemma Shrinks.refl (s : FlowSpecStore) : Shrinks s s := fun _ _ _ h => h

lemma Shrinks.trans {s s' s'' : FlowSpecStore} (h : Shrinks s s') (h' : Shrinks s' s'') :
    Shrinks s s'' := fun key mui rule hr => h key mui rule (h' key mui rule hr)

variable {env : FlowSpecEnv}

lemma WellKeyed.shrinks {s s' : FlowSpecStore} (hk : WellKeyed env s) (h : Shrinks s s') :
    WellKeyed env s' :=
  fun key mui rule hr => hk key mui rule (h key mui rule hr)

namespace FlowSpecStore
variable (s : FlowSpecStore)

lemma shrinks_emptyKeys (f : Prefix × IngressId → Bool) : Shrinks s (s.emptyKeys f) := by
  intro key mui rule hr
  rw [rulesetAt_emptyKeys] at hr
  by_cases hf : f (key, mui) = true
  · rw [if_pos hf] at hr
    cases hr
  · rwa [if_neg hf] at hr

lemma shrinks_markWithdrawn (e : IngressId × Option AfiSafiType) :
    Shrinks s (s.markWithdrawn e) := by
  unfold markWithdrawn
  split <;> exact Shrinks.refl s

lemma shrinks_removeMui (id : IngressId) : Shrinks s (s.removeMui id) := by
  intro key mui rule hr
  unfold rulesetAt get removeMui at hr
  rw [Assoc.lookup_eraseAll] at hr
  by_cases hk : (key, mui) ∈ s.records.keys.filter fun k => k.2 = id
  · rw [if_pos hk] at hr
    cases hr
  · rwa [if_neg hk] at hr

lemma shrinks_foldl {α : Type} {f : FlowSpecStore → α → FlowSpecStore}
    (hf : ∀ s a, Shrinks s (f s a)) (as : List α) : Shrinks s (as.foldl f s) := by
  induction as generalizing s with
  | nil => exact Shrinks.refl s
  | cons a as ih => exact (hf s a).trans (ih (f s a))

lemma shrinks_withdrawForIngresses (ids : List (IngressId × Option AfiSafiType))
    (retain : Bool) : Shrinks s (s.withdrawForIngresses ids retain) := by
  unfold withdrawForIngresses
  cases retain with
  | true => exact s.shrinks_foldl shrinks_markWithdrawn ids
  | false =>
    have hc : Shrinks s (s.compactForIngresses ids) :=
      ((s.shrinks_emptyKeys _).trans (shrinks_emptyKeys _ _)).trans (shrinks_emptyKeys _ _)
    exact hc.trans (shrinks_foldl _ shrinks_markWithdrawn ids)

lemma shrinks_withdrawRule (key : Prefix) (mui : IngressId) (nlri : RawNlri) :
    Shrinks s (s.withdrawRule key mui nlri).2 := by
  intro p m rule hr
  have hr' : rule ∈ ((if ((s.rulesetAt key mui).remove nlri).1 then
      s.insert key mui (remainder ((s.rulesetAt key mui).remove nlri).2) else s).rulesetAt
      p m).rules := hr
  split at hr'
  · rw [rulesetAt_insert] at hr'
    by_cases hk : p = key ∧ m = mui
    · rw [if_pos hk, remainder_ruleset] at hr'
      rw [hk.1, hk.2]
      exact (mem_filter.mp hr').1
    · rwa [if_neg hk] at hr'
  · exact hr'

lemma wellKeyed_announceRule {env : FlowSpecEnv} (h : WellKeyed env s) {key : Prefix}
    (mui : IngressId) {rule : FlowSpecRule} (hrule : KeyedAt env key rule.nlri) :
    WellKeyed env (s.announceRule key mui rule).2 := by
  intro p m rule' hr
  have hr' : rule' ∈ ((s.insert key mui _).rulesetAt p m).rules := hr
  rw [rulesetAt_insert] at hr'
  by_cases hk : p = key ∧ m = mui
  · obtain ⟨rfl, rfl⟩ := hk
    rw [if_pos ⟨rfl, rfl⟩] at hr'
    rcases mem_append.mp hr' with hold | hnew
    · exact h p m rule' (mem_filter.mp hold).1
    · rw [mem_singleton.mp hnew]
      exact hrule
  · rw [if_neg hk] at hr'
    exact h p m rule' hr'

end FlowSpecStore

/-! ## runs -/

/-- what happens to the RIB; the register is shared with the units that connect to peers, which
change it as they like -/
inductive FlowRibOp (env : FlowSpecEnv) where
  | insertPrefix (p : Prefix) (multicast : Bool) (pamap : RotondaPaMap) (status : RouteStatus)
      (mui : IngressId) (retain : Bool)
  | insertFlowspec (family : AddrFamily) (n : FlowSpecNlri) (parsed : env.Parsed family n)
      (pamap : RotondaPaMap) (announce : Bool) (mui : IngressId)
  | withdrawForIngresses (ids : List (IngressId × Option AfiSafiType)) (retain : Bool)
  | removeForIngresses (ids : List IngressId)
  | register (reg : Register)

def FlowRib.step (env : FlowSpecEnv) (r : FlowRib) : FlowRibOp env → FlowRib
  | .insertPrefix p multicast pamap status mui retain =>
    { r with rib := r.rib.insertPrefix p multicast pamap status mui retain }
  | .insertFlowspec family n _ pamap announce mui =>
    r.insertFlowspec env n.raw pamap (indexPrefix family n) announce mui
  | .withdrawForIngresses ids retain => r.withdrawForIngresses ids retain
  | .removeForIngresses ids => r.removeForIngresses ids
  | .register reg => { r with rib := { r.rib with ingressRegister := reg } }

lemma family_indexPrefix {family : AddrFamily} {n : FlowSpecNlri} (h : env.Parsed family n) :
    (indexPrefix family n).family = family := by
  obtain ⟨b, hb⟩ := h
  unfold indexPrefix
  cases hd : n.dstPrefix with
  | none => rfl
  | some p => exact env.dst_family hb hd

lemma wellKeyed_step {r : FlowRib} (h : WellKeyed env r.flowspec) (op : FlowRibOp env) :
    WellKeyed env (r.step env op).flowspec := by
  cases op with
  | insertPrefix p multicast pamap status mui retain | register reg => exact h
  | withdrawForIngresses ids retain =>
    exact h.shrinks (r.flowspec.shrinks_withdrawForIngresses ids retain)
  | removeForIngresses ids =>
    exact h.shrinks (r.flowspec.shrinks_foldl FlowSpecStore.shrinks_removeMui ids)
  | insertFlowspec family n parsed pamap announce mui =>
    have hf := family_indexPrefix parsed
    have hkey : KeyedAt env (indexPrefix family n) n.raw := ⟨n, by rwa [hf], rfl, by rw [hf]⟩
    cases announce with
    | false => exact h.shrinks (r.flowspec.shrinks_withdrawRule _ mui n.raw)
    | true =>
      by_cases hw : r.flowspec.muiIsWithdrawn (indexPrefix family n).family mui = true
      · simp only [FlowRib.step, FlowRib.insertFlowspec, if_pos, hw]
        apply FlowSpecStore.wellKeyed_announceRule
        · exact h.shrinks (r.flowspec.shrinks_emptyKeys _)
        · exact hkey
      · simp only [FlowRib.step, FlowRib.insertFlowspec, if_pos, hw]
        exact FlowSpecStore.wellKeyed_announceRule _ h mui hkey

lemma wellKeyed_run (env : FlowSpecEnv) (reg : Register) (ops : List (FlowRibOp env)) :
    WellKeyed env (Run.run (FlowRib.step env) (FlowRib.new reg) ops).flowspec := by
  induction ops using reverseRecOn with
  | nil => exact fun _ _ _ hr => nomatch hr
  | append_singleton ops op ih =>
    rw [Run.run_append]
    exact wellKeyed_step ih op

/-- the destination prefix of a stored rule is its key, unless it has none -/
lemma KeyedAt.eq_usableDst {key : Prefix} {raw : RawNlri} (h : KeyedAt env key raw) :
    key = (usableDst env key.family raw).getD (defaultRoute key.family) := by
  obtain ⟨n, hn, rfl, hkey⟩ := h
  rw [usableDst, parseRawNlri_of_parsed hn]
  exact hkey.symm

end Netom
