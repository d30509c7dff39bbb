import Netom.Lib.Assoc
import Netom.Types

/-!
# The prefix store

`rotonda-store` as its interface documents it: one record for each prefix and ingress id (the
store's `mui`), each with a status, and beside the records one set of withdrawn muis for each
address family.  A record of a withdrawn mui keeps its own status and attributes; a query sees it
as withdrawn.

`Store.active s p mui` are the attributes a query for active routes finds; every operation has one
lemma that says what it leaves there.
-/

namespace Netom
open Function Assoc

structure Store where
  records : Assoc (Prefix × IngressId) Record
  withdrawnMuis : AddrFamily → Finset IngressId

def Store.empty : Store := ⟨∅, fun _ => ∅⟩

/-- the record that takes the place of a withdrawn one -/
def withdrawnRecord (mui : IngressId) : Record :=
  ⟨mui, .withdrawn, RotondaPaMap.emptyPathAttributes⟩

namespace Store
variable (s : Store)

def get (p : Prefix) (mui : IngressId) : Option Record := s.records.lookup (p, mui)

def contains (p : Prefix) (mui : IngressId) : Bool := (s.get p mui).isSome

/-- a record replaces the one of its prefix and mui -/
def insert (p : Prefix) (record : Record) : Store :=
  { s with records := s.records.insert (p, record.multiUniqId) record }

def muiIsWithdrawn (family : AddrFamily) (mui : IngressId) : Bool :=
  mui ∈ s.withdrawnMuis family

def markMuiAsWithdrawnIn (family : AddrFamily) (mui : IngressId) : Store :=
  { s with
    withdrawnMuis := Function.update s.withdrawnMuis family
      (Insert.insert mui (s.withdrawnMuis family)) }

def markMuiAsWithdrawn (mui : IngressId) : Store :=
  (s.markMuiAsWithdrawnIn .v4 mui).markMuiAsWithdrawnIn .v6 mui

def markMuiAsActiveIn (family : AddrFamily) (mui : IngressId) : Store :=
  { s with
    withdrawnMuis := Function.update s.withdrawnMuis family
      ((s.withdrawnMuis family).erase mui) }

/-- one record becomes withdrawn and keeps its attributes -/
def markMuiAsWithdrawnForPrefix (p : Prefix) (mui : IngressId) : Store :=
  { s with records := modify (p, mui) (fun r => { r with status := .withdrawn }) s.records }

/-- every record of `mui` goes, and the mark on it -/
def removeMui (mui : IngressId) : Store where
  records := eraseAll (s.records.keys.filter fun k => k.2 = mui) s.records
  withdrawnMuis family := (s.withdrawnMuis family).erase mui

/-- the keys of a family that satisfy `f`, each rewritten to a withdrawn record -/
def withdrawKeys (f : Prefix × IngressId → Bool) : Store :=
  { s with
    records := insertAll (fun k => withdrawnRecord k.2) (s.records.keys.filter f)
      s.records }

/-- the status a query sees -/
def effectiveStatus (p : Prefix) (r : Record) (mui : IngressId) : RouteStatus :=
  if s.muiIsWithdrawn p.family mui then .withdrawn else r.status

/-- the attributes of the active route of `p` from `mui` -/
def active (p : Prefix) (mui : IngressId) : Option RotondaPaMap :=
  (s.get p mui).bind fun r =>
    if s.effectiveStatus p r mui = .active then some r.pamap else none

/-! ## what each operation leaves active -/

lemma active_eq (p : Prefix) (mui : IngressId) : s.active p mui =
    if mui ∈ s.withdrawnMuis p.family then none
    else (s.get p mui).bind fun r => if r.status = .active then some r.pamap else none := by
  unfold active effectiveStatus muiIsWithdrawn
  by_cases h : mui ∈ s.withdrawnMuis p.family
  · simp [h]
  · simp [h]

lemma active_insert (q : Prefix) (r : Record) (p : Prefix) (mui : IngressId) :
    (s.insert q r).active p mui =
      if p = q ∧ mui = r.multiUniqId then
        if mui ∈ s.withdrawnMuis p.family ∨ r.status ≠ .active then none else some r.pamap
      else s.active p mui := by
  rw [active_eq, active_eq]
  unfold get insert
  rw [lookup_insert_eq]
  by_cases hk : p = q ∧ mui = r.multiUniqId
  · have hk' : (p, mui) = (q, r.multiUniqId) := by rw [hk.1, hk.2]
    rw [if_pos hk, if_pos hk']
    by_cases hw : mui ∈ s.withdrawnMuis p.family
    · simp [hw]
    · by_cases hs : r.status = .active
      · simp [hw, hs]
      · simp [hw, hs]
  · have hk' : ¬ (p, mui) = (q, r.multiUniqId) := by
      intro h
      exact hk (Prod.mk.inj h)
    rw [if_neg hk, if_neg hk']

lemma active_markMuiAsWithdrawnIn (family : AddrFamily) (id : IngressId) (p : Prefix)
    (mui : IngressId) : (s.markMuiAsWithdrawnIn family id).active p mui =
      if p.family = family ∧ mui = id then none else s.active p mui := by
  rw [active_eq, active_eq]
  show (if mui ∈ update s.withdrawnMuis family _ p.family then none else _) = _
  by_cases hf : p.family = family
  · subst hf
    rw [update_self]
    by_cases hm : mui = id
    · simp [hm]
    · simp [hm]
      rfl
  · rw [update_of_ne hf]
    simp [hf]
    rfl

lemma active_markMuiAsWithdrawn (id : IngressId) (p : Prefix) (mui : IngressId) :
    (s.markMuiAsWithdrawn id).active p mui = if mui = id then none else s.active p mui := by
  unfold markMuiAsWithdrawn
  rw [active_markMuiAsWithdrawnIn, active_markMuiAsWithdrawnIn]
  cases hf : p.family <;> by_cases hm : mui = id <;> simp [hm]

lemma active_markMuiAsWithdrawnForPrefix (q : Prefix) (id : IngressId) (p : Prefix)
    (mui : IngressId) : (s.markMuiAsWithdrawnForPrefix q id).active p mui =
      if p = q ∧ mui = id then none else s.active p mui := by
  rw [active_eq, active_eq]
  unfold get markMuiAsWithdrawnForPrefix
  rw [lookup_modify]
  by_cases hk : p = q ∧ mui = id
  · obtain ⟨rfl, rfl⟩ := hk
    simp
  · have hk' : ¬ (p, mui) = (q, id) := fun h => hk (Prod.mk.inj h)
    rw [if_neg hk, if_neg hk']

lemma active_removeMui (id : IngressId) (p : Prefix) (mui : IngressId) :
    (s.removeMui id).active p mui = if mui = id then none else s.active p mui := by
  rw [active_eq, active_eq]
  unfold get removeMui
  rw [lookup_eraseAll]
  by_cases hm : mui = id
  · subst hm
    by_cases hk : (p, mui) ∈ s.records.keys
    · simp [hk]
    · have hn : s.records.lookup (p, mui) = none := AList.lookup_eq_none.mpr hk
      simp [hn]
  · simp [hm]

lemma active_withdrawKeys (f : Prefix × IngressId → Bool) (p : Prefix) (mui : IngressId) :
    (s.withdrawKeys f).active p mui = if f (p, mui) then none else s.active p mui := by
  rw [active_eq, active_eq]
  unfold get withdrawKeys
  rw [lookup_insertAll]
  by_cases hf : f (p, mui) = true
  · by_cases hk : (p, mui) ∈ s.records.keys
    · simp [hf, hk, withdrawnRecord]
    · have hn : s.records.lookup (p, mui) = none := AList.lookup_eq_none.mpr hk
      simp [hf, hk, hn]
  · simp [hf]

/-- once every record of a mui in a family is withdrawn, clearing the mark shows none of them -/
lemma active_markMuiAsActiveIn_withdrawKeys (family : AddrFamily) (id : IngressId) (p : Prefix)
    (mui : IngressId) :
    ((s.withdrawKeys fun k => k.1.family = family && k.2 = id).markMuiAsActiveIn family id).active
      p mui = if p.family = family ∧ mui = id then none else s.active p mui := by
  have hg : ((s.withdrawKeys fun k => k.1.family = family && k.2 = id).markMuiAsActiveIn
      family id).get p mui = (s.withdrawKeys fun k => k.1.family = family && k.2 = id).get p mui :=
    rfl
  have hw := s.active_withdrawKeys (fun k => k.1.family = family && k.2 = id) p mui
  rw [active_eq] at hw
  rw [active_eq, hg]
  show (if mui ∈ update s.withdrawnMuis family ((s.withdrawnMuis family).erase id)
    p.family then none else _) = _
  by_cases hk : p.family = family ∧ mui = id
  · obtain ⟨rfl, rfl⟩ := hk
    unfold get withdrawKeys
    rw [lookup_insertAll]
    by_cases hm : (p, mui) ∈ s.records.keys
    · simp [hm, withdrawnRecord]
    · have hn : s.records.lookup (p, mui) = none := AList.lookup_eq_none.mpr hm
      simp [hm, hn]
  · have hne : mui ∈ update s.withdrawnMuis family
        ((s.withdrawnMuis family).erase id) p.family ↔ mui ∈ s.withdrawnMuis p.family := by
      by_cases hf : p.family = family
      · subst hf
        have hm : mui ≠ id := fun h => hk ⟨rfl, h⟩
        simp [hm]
      · rw [update_of_ne hf]
    have hf' : (decide (p.family = family) && decide (mui = id)) = false := by
      simpa using fun h1 h2 => hk ⟨h1, h2⟩
    rw [if_neg hk]
    simp only [hf', Bool.false_eq_true, if_false] at hw
    rw [← hw]
    simp only [hne]
    rfl

end Store

end Netom
