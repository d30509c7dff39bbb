import Netom.Lib.Tally
import Netom.Types

/-!
# FlowSpec rules and their store

FlowSpec rules are kept under their destination prefix, or under the default route of their family
if there is none.  A peer can have many rules under one prefix, and the store has one record for
each prefix and ingress id, so a record holds a whole set of rules, each known by its raw NLRI.

* `FlowSpecRuleSet`  rules with distinct NLRIs;
* `FlowSpecStore.visible`  the rules a query finds under a prefix from an ingress;
* `visible_*`  what each operation of the store leaves visible;
* `visibleCount`  how many rules of a family are visible from some of the ingresses.
-/

namespace Netom
open Assoc List

/-- the bytes of a FlowSpec NLRI, without its length -/
abbrev RawNlri := List (BitVec 8)

inductive FlowSpecValidity where
  | notValidated
  | valid
  | invalid
  | unvalidatable
  deriving DecidableEq, Repr

structure FlowSpecRule where
  validity : FlowSpecValidity
  nlri : RawNlri
  pamap : RotondaPaMap
  deriving DecidableEq, Repr

/-! ## sets of rules -/

structure FlowSpecRuleSet where
  rules : List FlowSpecRule
  nodup : (rules.map (·.nlri)).Nodup
  deriving DecidableEq

namespace FlowSpecRuleSet

def default : FlowSpecRuleSet := ⟨[], List.nodup_nil⟩

def without (rules : List FlowSpecRule) (nlri : RawNlri) : List FlowSpecRule :=
  rules.filter fun r => r.nlri ≠ nlri

variable {rules : List FlowSpecRule}

lemma nodup_without (h : (rules.map (·.nlri)).Nodup) (nlri : RawNlri) :
    ((without rules nlri).map (·.nlri)).Nodup :=
  h.sublist ((filter_sublist).map _)

/-- remove the rule with this NLRI; false if there is none -/
def remove (s : FlowSpecRuleSet) (nlri : RawNlri) : Bool × FlowSpecRuleSet :=
  (s.rules.any fun r => r.nlri = nlri, ⟨without s.rules nlri, nodup_without s.nodup nlri⟩)

lemma nodup_upsert (h : (rules.map (·.nlri)).Nodup) (rule : FlowSpecRule) :
    ((without rules rule.nlri ++ [rule]).map (·.nlri)).Nodup := by
  rw [map_append, nodup_append]
  refine ⟨nodup_without h rule.nlri, nodup_singleton _, ?_⟩
  intro a ha b hb heq
  obtain ⟨r, hr, rfl⟩ := mem_map.mp ha
  rw [map_singleton, mem_singleton] at hb
  have hne := (mem_filter.mp hr).2
  rw [heq, hb] at hne
  simp at hne

/-- add a rule at the end, instead of one with the same NLRI; true if there was one -/
def upsert (s : FlowSpecRuleSet) (rule : FlowSpecRule) : Bool × FlowSpecRuleSet :=
  ((s.remove rule.nlri).1, ⟨without s.rules rule.nlri ++ [rule], nodup_upsert s.nodup rule⟩)

def ruleCount (s : FlowSpecRuleSet) : Nat := s.rules.length

def isEmpty (s : FlowSpecRuleSet) : Bool := s.rules.isEmpty

lemma length_without (h : (rules.map (·.nlri)).Nodup) (nlri : RawNlri) :
    (without rules nlri).length + (if rules.any (fun r => r.nlri = nlri) then 1 else 0) =
      rules.length := by
  induction rules with
  | nil => rfl
  | cons r rules ih =>
    obtain ⟨hr, hrest⟩ := nodup_cons.mp h
    have hih := ih hrest
    by_cases hn : r.nlri = nlri
    · have hnone : rules.any (fun r => decide (r.nlri = nlri)) = false := by
        refine any_eq_false.mpr fun r' hr' heq => hr ?_
        show r.nlri ∈ rules.map (·.nlri)
        rw [hn, ← of_decide_eq_true heq]
        exact mem_map_of_mem hr'
      rw [hnone] at hih
      simp only [without, filter_cons, hn, ne_eq, not_true, decide_false, if_false,
        Bool.false_eq_true, any_cons, decide_true, Bool.true_or, if_true,
        length_cons] at hih ⊢
      omega
    · simp only [without, filter_cons, hn, ne_eq, not_false_eq_true, decide_true, if_true,
        any_cons, decide_false, Bool.false_or, length_cons] at hih ⊢
      omega

lemma ruleCount_remove (s : FlowSpecRuleSet) (nlri : RawNlri) :
    (s.remove nlri).2.ruleCount + (if (s.remove nlri).1 then 1 else 0) = s.ruleCount :=
  length_without s.nodup nlri

lemma ruleCount_upsert (s : FlowSpecRuleSet) (rule : FlowSpecRule) :
    (s.upsert rule).2.ruleCount + (if (s.upsert rule).1 then 1 else 0) = s.ruleCount + 1 := by
  have h := s.ruleCount_remove rule.nlri
  show (without s.rules rule.nlri ++ [rule]).length + _ = _
  rw [length_append, length_singleton]
  show (s.remove rule.nlri).2.ruleCount + 1 + (if (s.remove rule.nlri).1 then 1 else 0) = _
  omega

end FlowSpecRuleSet

/-! ## the store -/

/-- a record is only ever written as withdrawn once it has no rule left -/
structure FlowSpecRecord where
  status : RouteStatus
  ruleset : FlowSpecRuleSet
  rules_nil : status = .withdrawn → ruleset.rules = []
  deriving DecidableEq

def FlowSpecRecord.active (ruleset : FlowSpecRuleSet) : FlowSpecRecord :=
  ⟨.active, ruleset, fun h => by cases h⟩

/-- `rotonda-store` with sets of rules, as `Store` is with attributes -/
structure FlowSpecStore where
  records : Assoc (Prefix × IngressId) FlowSpecRecord
  withdrawnMuis : AddrFamily → Finset IngressId

def emptiedRecord : FlowSpecRecord := ⟨.withdrawn, FlowSpecRuleSet.default, fun _ => rfl⟩

namespace FlowSpecStore

def empty : FlowSpecStore := ⟨∅, fun _ => ∅⟩

variable (s : FlowSpecStore)

def get (key : Prefix) (mui : IngressId) : Option FlowSpecRecord := s.records.lookup (key, mui)

def insert (key : Prefix) (mui : IngressId) (record : FlowSpecRecord) : FlowSpecStore :=
  { s with records := s.records.insert (key, mui) record }

def muiIsWithdrawn (family : AddrFamily) (mui : IngressId) : Bool :=
  mui ∈ s.withdrawnMuis family

def markMuiAsWithdrawnIn (family : AddrFamily) (mui : IngressId) : FlowSpecStore :=
  { s with
    withdrawnMuis := Function.update s.withdrawnMuis family
      (Insert.insert mui (s.withdrawnMuis family)) }

def markMuiAsActiveIn (family : AddrFamily) (mui : IngressId) : FlowSpecStore :=
  { s with
    withdrawnMuis := Function.update s.withdrawnMuis family
      ((s.withdrawnMuis family).erase mui) }

def removeMui (mui : IngressId) : FlowSpecStore where
  records := eraseAll (s.records.keys.filter fun k => k.2 = mui) s.records
  withdrawnMuis family := (s.withdrawnMuis family).erase mui

/-- the keys that satisfy `f`, each with an empty set of rules -/
def emptyKeys (f : Prefix × IngressId → Bool) : FlowSpecStore :=
  { s with
    records := insertAll (fun _ => emptiedRecord) (s.records.keys.filter f) s.records }

/-- the rules that a query sees -/
def visible (key : Prefix) (mui : IngressId) : List FlowSpecRule :=
  if s.muiIsWithdrawn key.family mui then []
  else (s.get key mui).elim [] fun r => if r.status = .withdrawn then [] else r.ruleset.rules

/-! ## one rule -/

def rulesetAt (key : Prefix) (mui : IngressId) : FlowSpecRuleSet :=
  ((s.get key mui).map (·.ruleset)).getD FlowSpecRuleSet.default

/-- the record that a removal leaves -/
def remainder (ruleset : FlowSpecRuleSet) : FlowSpecRecord :=
  if h : ruleset.isEmpty then ⟨.withdrawn, ruleset, fun _ => List.isEmpty_iff.mp h⟩
  else .active ruleset

/-- take a rule out of its set; false if it is not there -/
def withdrawRule (key : Prefix) (mui : IngressId) (nlri : RawNlri) : Bool × FlowSpecStore :=
  let (removed, ruleset) := (s.rulesetAt key mui).remove nlri
  (removed, if removed then s.insert key mui (remainder ruleset) else s)

/-- put a rule in its set; true if it replaces one -/
def announceRule (key : Prefix) (mui : IngressId) (rule : FlowSpecRule) : Bool × FlowSpecStore :=
  let (replaced, ruleset) := (s.rulesetAt key mui).upsert rule
  (replaced, s.insert key mui (.active ruleset))

/-- empty the retained records of a mui in a family, then clear its mark there -/
def resetFlowspecFamily (mui : IngressId) (family : AddrFamily) : FlowSpecStore :=
  (s.emptyKeys fun k => k.1.family = family && k.2 = mui).markMuiAsActiveIn family mui

/-! ## what each operation leaves visible -/

lemma visible_eq (key : Prefix) (mui : IngressId) : s.visible key mui =
    if s.muiIsWithdrawn key.family mui then [] else (s.rulesetAt key mui).rules := by
  unfold visible rulesetAt
  cases s.get key mui with
  | none => rfl
  | some r =>
    by_cases hs : r.status = .withdrawn
    · simp [hs, r.rules_nil hs]
    · simp [hs]

lemma rulesetAt_insert (key : Prefix) (mui : IngressId) (r : FlowSpecRecord) (p : Prefix)
    (m : IngressId) : (s.insert key mui r).rulesetAt p m =
      if p = key ∧ m = mui then r.ruleset else s.rulesetAt p m := by
  unfold rulesetAt get insert
  rw [lookup_insert_eq]
  by_cases hk : p = key ∧ m = mui
  · rw [if_pos hk, if_pos (by rw [hk.1, hk.2])]
    rfl
  · rw [if_neg hk, if_neg fun h => hk (Prod.mk.inj h)]

lemma visible_insert (key : Prefix) (mui : IngressId) (r : FlowSpecRecord) (p : Prefix)
    (m : IngressId) : (s.insert key mui r).visible p m =
      if p = key ∧ m = mui then if s.muiIsWithdrawn p.family m then [] else r.ruleset.rules
      else s.visible p m := by
  rw [visible_eq, visible_eq, rulesetAt_insert]
  show (if s.muiIsWithdrawn p.family m = true then [] else _) = _
  by_cases hk : p = key ∧ m = mui
  · rw [if_pos hk, if_pos hk]
  · rw [if_neg hk, if_neg hk]

lemma visible_markMuiAsWithdrawnIn (family : AddrFamily) (id : IngressId) (p : Prefix)
    (m : IngressId) : (s.markMuiAsWithdrawnIn family id).visible p m =
      if p.family = family ∧ m = id then [] else s.visible p m := by
  unfold visible muiIsWithdrawn markMuiAsWithdrawnIn
  by_cases hf : p.family = family
  · subst hf
    by_cases hm : m = id
    · simp [hm]
    · simp [hm]
      rfl
  · simp [hf]
    rfl

lemma visible_removeMui (id : IngressId) (p : Prefix) (m : IngressId) :
    (s.removeMui id).visible p m = if m = id then [] else s.visible p m := by
  unfold visible muiIsWithdrawn get removeMui
  rw [lookup_eraseAll]
  by_cases hm : m = id
  · subst hm
    by_cases hk : (p, m) ∈ s.records.keys
    · simp [hk]
    · have hn : s.records.lookup (p, m) = none := AList.lookup_eq_none.mpr hk
      simp [hn]
  · simp [hm]

variable (f : Prefix × IngressId → Bool)

lemma lookup_emptyKeys (k : Prefix × IngressId) : (s.emptyKeys f).records.lookup k =
      if f k then (s.records.lookup k).map fun _ => emptiedRecord else s.records.lookup k := by
  unfold emptyKeys
  rw [lookup_insertAll]
  by_cases hk : k ∈ s.records.keys
  · obtain ⟨r, hr⟩ := Option.isSome_iff_exists.mp (AList.lookup_isSome.mpr hk)
    by_cases hf : f k = true
    · simp [hk, hf, hr]
    · simp [hf]
  · have hn : s.records.lookup k = none := AList.lookup_eq_none.mpr hk
    simp [hk, hn]

lemma rulesetAt_emptyKeys (p : Prefix) (m : IngressId) : (s.emptyKeys f).rulesetAt p m =
      if f (p, m) then FlowSpecRuleSet.default else s.rulesetAt p m := by
  unfold rulesetAt get
  rw [lookup_emptyKeys]
  by_cases hf : f (p, m) = true
  · rw [if_pos hf, if_pos hf]
    cases s.records.lookup (p, m) with
    | none | some r => rfl
  · rw [if_neg hf, if_neg hf]

lemma visible_emptyKeys (p : Prefix) (m : IngressId) :
    (s.emptyKeys f).visible p m = if f (p, m) then [] else s.visible p m := by
  rw [visible_eq, visible_eq, rulesetAt_emptyKeys]
  show (if s.muiIsWithdrawn p.family m = true then [] else _) = _
  by_cases hf : f (p, m) = true
  · rw [if_pos hf, if_pos hf]
    exact ite_self _
  · rw [if_neg hf, if_neg hf]

lemma muiIsWithdrawn_resetFlowspecFamily (mui : IngressId) (family : AddrFamily)
    (f : AddrFamily) (m : IngressId) :
    (s.resetFlowspecFamily mui family).muiIsWithdrawn f m =
      (s.muiIsWithdrawn f m && !(f = family && m = mui)) := by
  unfold muiIsWithdrawn resetFlowspecFamily markMuiAsActiveIn emptyKeys
  by_cases hf : f = family
  · subst hf
    by_cases hm : m = mui
    · simp [hm]
    · simp [hm]
  · simp [hf]

variable {mui : IngressId}

/-- what the reset empties was hidden by the mark that it clears -/
lemma visible_resetFlowspecFamily {family : AddrFamily} (hw : s.muiIsWithdrawn family mui = true)
    (p : Prefix) (m : IngressId) :
    (s.resetFlowspecFamily mui family).visible p m = s.visible p m := by
  rw [visible_eq, visible_eq, muiIsWithdrawn_resetFlowspecFamily]
  rw [show (s.resetFlowspecFamily mui family).rulesetAt p m = _ from s.rulesetAt_emptyKeys _ p m]
  by_cases hk : (decide (p.family = family) && decide (m = mui)) = true
  · obtain ⟨hf, hm⟩ := Bool.and_eq_true_iff.mp hk
    rw [hk, of_decide_eq_true hf, of_decide_eq_true hm, hw]
    rfl
  · rw [Bool.not_eq_true] at hk
    rw [hk, Bool.not_false, Bool.and_true, if_neg Bool.false_ne_true]

/-! ## how many rules it leaves visible -/

lemma remainder_ruleset (ruleset : FlowSpecRuleSet) : (remainder ruleset).ruleset = ruleset := by
  unfold remainder
  split <;> rfl

lemma visible_withdrawRule_of_ne (key : Prefix) (mui : IngressId) (nlri : RawNlri) {p : Prefix}
    {m : IngressId} (h : ¬ (p = key ∧ m = mui)) :
    (s.withdrawRule key mui nlri).2.visible p m = s.visible p m := by
  show (if _ then s.insert key mui _ else s).visible p m = _
  split
  · rw [visible_insert, if_neg h]
  · rfl

lemma visible_announceRule_of_ne (key : Prefix) (mui : IngressId) (rule : FlowSpecRule)
    {p : Prefix} {m : IngressId} (h : ¬ (p = key ∧ m = mui)) :
    (s.announceRule key mui rule).2.visible p m = s.visible p m := by
  show (s.insert key mui _).visible p m = _
  rw [visible_insert, if_neg h]

variable {key : Prefix}

/-- under a withdrawn mui, rules come and go unseen -/
lemma visible_withdrawRule_of_withdrawn (hw : s.muiIsWithdrawn key.family mui = true)
    (nlri : RawNlri) (p : Prefix) (m : IngressId) :
    (s.withdrawRule key mui nlri).2.visible p m = s.visible p m := by
  by_cases hk : p = key ∧ m = mui
  · obtain ⟨rfl, rfl⟩ := hk
    show (if _ then s.insert p m _ else s).visible p m = _
    split
    · rw [visible_insert, if_pos ⟨rfl, rfl⟩, if_pos hw, visible_eq, if_pos hw]
    · rfl
  · exact s.visible_withdrawRule_of_ne key mui nlri hk

lemma length_visible_withdrawRule (hw : s.muiIsWithdrawn key.family mui = false) (nlri : RawNlri)
    : ((s.withdrawRule key mui nlri).2.visible key mui).length +
      (if (s.withdrawRule key mui nlri).1 then 1 else 0) = (s.visible key mui).length := by
  have hcount := (s.rulesetAt key mui).ruleCount_remove nlri
  rw [s.visible_eq key mui, hw, if_neg Bool.false_ne_true]
  show ((if ((s.rulesetAt key mui).remove nlri).1 then s.insert key mui _ else s).visible
    key mui).length + (if ((s.rulesetAt key mui).remove nlri).1 then 1 else 0) = _
  by_cases hr : ((s.rulesetAt key mui).remove nlri).1 = true
  · rw [hr, if_pos rfl] at hcount
    rw [if_pos hr, if_pos hr, visible_insert, if_pos ⟨rfl, rfl⟩, hw, if_neg Bool.false_ne_true,
      remainder_ruleset]
    exact hcount
  · rw [if_neg hr, if_neg hr, visible_eq, hw, if_neg Bool.false_ne_true]
    rfl

lemma length_visible_announceRule (hw : s.muiIsWithdrawn key.family mui = false)
    (rule : FlowSpecRule) : ((s.announceRule key mui rule).2.visible key mui).length +
      (if (s.announceRule key mui rule).1 then 1 else 0) = (s.visible key mui).length + 1 := by
  have hcount := (s.rulesetAt key mui).ruleCount_upsert rule
  rw [s.visible_eq key mui, hw, if_neg Bool.false_ne_true]
  show ((s.insert key mui _).visible key mui).length + _ = _
  rw [visible_insert, if_pos ⟨rfl, rfl⟩, hw, if_neg Bool.false_ne_true]
  exact hcount

/-! ## the number of visible rules -/

def visibleCount (own : IngressId → Bool) (f : AddrFamily) : Nat :=
  tally (fun k _ => if k.1.family = f ∧ own k.2 then (s.visible k.1 k.2).length else 0)
    s.records

lemma weight_visibleCount (own : IngressId → Bool) (f : AddrFamily) (k : Prefix × IngressId) :
    weight (fun k _ => if k.1.family = f ∧ own k.2 then (s.visible k.1 k.2).length else 0)
      s.records k = if k.1.family = f ∧ own k.2 then (s.visible k.1 k.2).length else 0 := by
  unfold weight
  cases hl : s.records.lookup k with
  | some r => rfl
  | none =>
    have hv : s.visible k.1 k.2 = [] := by
      have hg : s.get k.1 k.2 = none := hl
      unfold visible
      rw [hg]
      exact ite_self _
    rw [hv]
    exact (ite_self _).symm

lemma visibleCount_congr {s' : FlowSpecStore} {own own' : IngressId → Bool} {f : AddrFamily}
    (h : ∀ p m, p.family = f → (if own m then (s.visible p m).length else 0) =
      if own' m then (s'.visible p m).length else 0) :
    s.visibleCount own f = s'.visibleCount own' f := by
  apply tally_congr
  intro k
  rw [weight_visibleCount, weight_visibleCount]
  by_cases hf : k.1.family = f
  · simpa [hf] using h k.1 k.2 hf
  · simp [hf]

lemma visibleCount_update {s' : FlowSpecStore}
    (h : ∀ p m, ¬ (p = key ∧ m = mui) → s'.visible p m = s.visible p m) (own : IngressId → Bool)
    (f : AddrFamily) : s'.visibleCount own f +
        (if key.family = f ∧ own mui then (s.visible key mui).length else 0) =
      s.visibleCount own f +
        (if key.family = f ∧ own mui then (s'.visible key mui).length else 0) := by
  have hrest : ∀ k, k ≠ (key, mui) →
      weight (fun k _ => if k.1.family = f ∧ own k.2 then (s'.visible k.1 k.2).length else 0)
          s'.records k =
        weight (fun k _ => if k.1.family = f ∧ own k.2 then (s.visible k.1 k.2).length else 0)
          s.records k := by
    intro k hk
    rw [weight_visibleCount, weight_visibleCount, h k.1 k.2 fun hk' => hk (Prod.ext hk'.1 hk'.2)]
  have hu := tally_update (key, mui) hrest
  rw [weight_visibleCount, weight_visibleCount] at hu
  exact hu

end FlowSpecStore

end Netom
