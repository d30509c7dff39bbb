import Netom.Lib.Tally
import Netom.Types

/-!
# Counters of BGP sessions

Every native BGP session has counters with one Adj-RIB-In gauge for each family and an aggregate
gauge.  The ADD-PATH children of a session have a slot of their own in the registry that points at
the counters of the session.

* `BgpPeerStats`  the counters; the aggregate is the sum of the families by construction;
* `PeerStatsRegistry`  the slots;
* `gauge_onGauge`, `gauge_resetPeerGauge`  what the RIB's two ways to move a gauge leave in it.
-/

namespace Netom
open Assoc Function

/-! ## counters -/

/-- the counters of a session; the aggregate is the sum of the families -/
structure BgpPeerStats where
  dupPrefixAdvertisements : Nat
  adjRibInPerAfiSafi : Assoc AfiSafiType Nat
  adjRibInRoutes : Nat
  aggregate : adjRibInRoutes = tally (fun _ n => n) adjRibInPerAfiSafi

namespace BgpPeerStats

def new : BgpPeerStats := ⟨0, ∅, 0, rfl⟩

variable (s : BgpPeerStats)

def gauge (f : AfiSafiType) : Nat := (s.adjRibInPerAfiSafi.lookup f).getD 0

lemma weight_eq_gauge (m : Assoc AfiSafiType Nat) (f : AfiSafiType) :
    weight (fun _ n => n) m f = (m.lookup f).getD 0 := by
  unfold weight
  cases m.lookup f with
  | none | some n => rfl

variable (f : AfiSafiType)

lemma tally_changed {m : Assoc AfiSafiType Nat}
    (h : ∀ j, j ≠ f → m.lookup j = s.adjRibInPerAfiSafi.lookup j) :
    tally (fun _ n => n) m + s.gauge f = s.adjRibInRoutes + (m.lookup f).getD 0 := by
  have hrest : ∀ j, j ≠ f →
      weight (fun _ n => n) m j = weight (fun _ n => n) s.adjRibInPerAfiSafi j := by
    intro j hj
    rw [weight_eq_gauge, weight_eq_gauge, h j hj]
  have hu := tally_update f hrest
  rw [weight_eq_gauge, weight_eq_gauge] at hu
  rw [s.aggregate]
  exact hu

lemma tally_insert (n : Nat) :
    tally (fun _ n => n) (s.adjRibInPerAfiSafi.insert f n) + s.gauge f =
      s.adjRibInRoutes + n := by
  rw [s.tally_changed f fun j hj => AList.lookup_insert_ne hj, AList.lookup_insert]
  rfl

lemma tally_erase :
    tally (fun _ n => n) (s.adjRibInPerAfiSafi.erase f) + s.gauge f = s.adjRibInRoutes := by
  rw [s.tally_changed f fun j hj => AList.lookup_erase_ne hj, AList.lookup_erase]
  rfl

def incDupPrefixAdvertisements (n : Nat) : BgpPeerStats :=
  { s with dupPrefixAdvertisements := s.dupPrefixAdvertisements + n }

def addAdjRibIn (f : AfiSafiType) (n : Nat) : BgpPeerStats where
  dupPrefixAdvertisements := s.dupPrefixAdvertisements
  adjRibInPerAfiSafi := s.adjRibInPerAfiSafi.insert f (s.gauge f + n)
  adjRibInRoutes := s.adjRibInRoutes + n
  aggregate := by
    have h := s.tally_insert f (s.gauge f + n)
    omega

/-- at most what is there -/
def subAdjRibIn (f : AfiSafiType) (n : Nat) : BgpPeerStats where
  dupPrefixAdvertisements := s.dupPrefixAdvertisements
  adjRibInPerAfiSafi := s.adjRibInPerAfiSafi.insert f (s.gauge f - min (s.gauge f) n)
  adjRibInRoutes := s.adjRibInRoutes - min (s.gauge f) n
  aggregate := by
    have h := s.tally_insert f (s.gauge f - min (s.gauge f) n)
    omega

def resetAdjRibIn : BgpPeerStats := ⟨s.dupPrefixAdvertisements, ∅, 0, rfl⟩

def resetAdjRibInAfiSafi (f : AfiSafiType) : BgpPeerStats where
  dupPrefixAdvertisements := s.dupPrefixAdvertisements
  adjRibInPerAfiSafi := s.adjRibInPerAfiSafi.erase f
  adjRibInRoutes := s.adjRibInRoutes - s.gauge f
  aggregate := by
    have h := s.tally_erase f
    omega

lemma gauge_add (n : Nat) (f' : AfiSafiType) :
    (s.addAdjRibIn f n).gauge f' = s.gauge f' + if f' = f then n else 0 := by
  show ((s.adjRibInPerAfiSafi.insert f (s.gauge f + n)).lookup f').getD 0 = _
  rw [lookup_insert_eq]
  by_cases hf : f' = f
  · rw [if_pos hf, if_pos hf, hf]
    rfl
  · rw [if_neg hf, if_neg hf]
    rfl

lemma gauge_sub (n : Nat) (f' : AfiSafiType) :
    (s.subAdjRibIn f n).gauge f' = s.gauge f' - if f' = f then n else 0 := by
  show ((s.adjRibInPerAfiSafi.insert f (s.gauge f - min (s.gauge f) n)).lookup f').getD 0 = _
  rw [lookup_insert_eq]
  by_cases hf : f' = f
  · rw [if_pos hf, if_pos hf, hf]
    show s.gauge f - min (s.gauge f) n = _
    omega
  · rw [if_neg hf, if_neg hf]
    rfl

lemma gauge_resetAfiSafi (f' : AfiSafiType) :
    (s.resetAdjRibInAfiSafi f).gauge f' = if f' = f then 0 else s.gauge f' := by
  show ((s.adjRibInPerAfiSafi.erase f).lookup f').getD 0 = _
  rw [lookup_erase_eq]
  by_cases hf : f' = f
  · rw [if_pos hf, if_pos hf]
    rfl
  · rw [if_neg hf, if_neg hf]
    rfl

end BgpPeerStats

/-! ## the registry -/

/-- a slot of the registry, with the counters that it points at -/
inductive RegistryEntry where
  | session (stats : Nat)
  | aliased (stats : Nat)
  deriving DecidableEq, Repr

def RegistryEntry.stats : RegistryEntry → Nat
  | .session a => a
  | .aliased a => a

/-- the slots, and the shared counters by the order of their allocation -/
structure PeerStatsRegistry where
  inner : Assoc IngressId RegistryEntry
  stats : Nat → BgpPeerStats
  allocated : Nat

namespace PeerStatsRegistry

def new : PeerStatsRegistry := ⟨∅, fun _ => BgpPeerStats.new, 0⟩

variable (reg : PeerStatsRegistry)

def get (id : IngressId) : Option Nat := (reg.inner.lookup id).map (·.stats)

def getSession (id : IngressId) : Option Nat :=
  match reg.inner.lookup id with
  | some (.session a) => some a
  | _ => none

def getOrCreate (id : IngressId) : PeerStatsRegistry :=
  match reg.inner.lookup id with
  | some _ => reg
  | none =>
    { inner := reg.inner.insert id (.session reg.allocated)
      stats := update reg.stats reg.allocated BgpPeerStats.new
      allocated := reg.allocated + 1 }

def aliasTo (child parent : IngressId) : PeerStatsRegistry :=
  match reg.inner.lookup parent with
  | none => reg
  | some e => { reg with inner := reg.inner.insert child (.aliased e.stats) }

def remove (id : IngressId) : PeerStatsRegistry := { reg with inner := reg.inner.erase id }

def modify (a : Nat) (f : BgpPeerStats → BgpPeerStats) : PeerStatsRegistry :=
  { reg with stats := update reg.stats a (f (reg.stats a)) }

/-- the counters of an ingress, if it has any, are changed -/
def onGauge (id : IngressId) (f : BgpPeerStats → BgpPeerStats) : PeerStatsRegistry :=
  match reg.get id with
  | some a => reg.modify a f
  | none => reg

/-- set the gauges of a session to zero; those of a path child stay as they are -/
def resetPeerGauge (id : IngressId) (family : Option AfiSafiType) : PeerStatsRegistry :=
  match reg.getSession id with
  | none => reg
  | some a =>
    match family with
    | none => reg.modify a BgpPeerStats.resetAdjRibIn
    | some (.other _ _) => reg
    | some f => reg.modify a fun s => s.resetAdjRibInAfiSafi f

def gauge (a : Nat) (f : AfiSafiType) : Nat := (reg.stats a).gauge f

lemma get_of_getSession {id : IngressId} {a : Nat} (h : reg.getSession id = some a) :
    reg.get id = some a := by
  unfold getSession at h
  unfold get
  split at h
  · rename_i a' hl
    cases h
    rw [hl]
    rfl
  · cases h

lemma gauge_modify (a : Nat) (g : BgpPeerStats → BgpPeerStats) (a' : Nat) (f : AfiSafiType) :
    (reg.modify a g).gauge a' f = if a' = a then (g (reg.stats a)).gauge f else reg.gauge a' f := by
  show (update reg.stats a (g (reg.stats a)) a').gauge f = _
  by_cases ha : a' = a
  · subst ha
    rw [update_self, if_pos rfl]
  · rw [update_of_ne ha, if_neg ha]
    rfl

variable (id : IngressId) (g : BgpPeerStats → BgpPeerStats) (family : Option AfiSafiType)

lemma inner_onGauge : (reg.onGauge id g).inner = reg.inner := by
  unfold onGauge
  split <;> rfl

lemma inner_resetPeerGauge : (reg.resetPeerGauge id family).inner = reg.inner := by
  unfold resetPeerGauge
  split
  · rfl
  · split <;> rfl

lemma allocated_onGauge : (reg.onGauge id g).allocated = reg.allocated := by
  unfold onGauge
  split <;> rfl

lemma allocated_resetPeerGauge : (reg.resetPeerGauge id family).allocated = reg.allocated := by
  unfold resetPeerGauge
  split
  · rfl
  · split <;> rfl

lemma gauge_onGauge (a : Nat) (f : AfiSafiType) : (reg.onGauge id g).gauge a f =
      if reg.get id = some a then (g (reg.stats a)).gauge f else reg.gauge a f := by
  unfold onGauge
  cases hg : reg.get id with
  | none => simp
  | some a' =>
    show (reg.modify a' g).gauge a f = _
    rw [gauge_modify]
    by_cases ha : a = a'
    · subst ha
      simp
    · rw [if_neg ha, if_neg fun h => ha (Option.some.inj h).symm]

/-- the family is one that is ever counted -/
def Counted (f : AfiSafiType) : Prop := ∀ afi safi, f ≠ .other afi safi

lemma gauge_resetPeerGauge (a : Nat) {f : AfiSafiType} (hf : Counted f) :
    (reg.resetPeerGauge id family).gauge a f =
      if reg.getSession id = some a ∧ (family = none ∨ family = some f) then 0
      else reg.gauge a f := by
  unfold resetPeerGauge
  cases hg : reg.getSession id with
  | none => simp
  | some a' =>
    by_cases ha : a = a'
    · subst ha
      cases family with
      | none =>
        show (reg.modify a _).gauge a f = _
        rw [gauge_modify, if_pos rfl, if_pos ⟨rfl, Or.inl rfl⟩]
        rfl
      | some f' =>
        have hreset : (reg.modify a fun s => s.resetAdjRibInAfiSafi f').gauge a f =
            if f = f' then 0 else reg.gauge a f := by
          rw [gauge_modify, if_pos rfl, BgpPeerStats.gauge_resetAfiSafi]
          rfl
        by_cases hff : f = f'
        · subst hff
          cases f with
          | other afi safi => exact absurd rfl (hf afi safi)
          | _ => simpa using hreset
        · cases f' with
          | other afi safi => simp [Ne.symm hff]
          | _ =>
            rw [if_neg hff] at hreset
            simpa [Ne.symm hff] using hreset
    · have hne : ¬ (some a' = some a ∧ (family = none ∨ family = some f)) :=
        fun h => ha (Option.some.inj h.1).symm
      rw [if_neg hne]
      cases family with
      | none =>
        show (reg.modify a' _).gauge a f = _
        rw [gauge_modify, if_neg ha]
      | some f' =>
        cases f' with
        | other afi safi => rfl
        | _ =>
          show (reg.modify a' _).gauge a f = _
          rw [gauge_modify, if_neg ha]

end PeerStatsRegistry

end Netom
