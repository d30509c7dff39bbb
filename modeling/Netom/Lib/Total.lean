import Mathlib.Algebra.BigOperators.Group.List.Basic
import Netom.Lib.Assoc

/-!
# Totals over a map

Every entry of a map has a value in a commutative monoid: a cost, or the items it holds.

* `total`  the sum of the values;
* `total_of_lookup`, `total_insert`  one entry is taken out or put in;
* `drain`  the entries in the order of some keys.
-/

namespace Assoc
open List AList
variable {K V M : Type} [AddCommMonoid M] (f : K → V → M)

def total (m : Assoc K V) : M := (m.entries.map fun e => f e.1 e.2).sum

variable {f}

variable [DecidableEq K]

lemma total_of_lookup {m : Assoc K V} {k : K} {v : V} (h : m.lookup k = some v) :
    total f m = f k v + total f (m.erase k) := by
  have hk : k ∈ m.entries.keys := mem_keys.mp (lookup_isSome.mp (Option.isSome_of_eq_some h))
  obtain ⟨w, l₁, l₂, hn, hl, he⟩ := exists_of_kerase hk
  have hw : w = v := by
    have hmem : (⟨k, w⟩ : Sigma fun _ : K => V) ∈ m.entries := by
      rw [hl]
      exact mem_append_right _ mem_cons_self
    exact Option.some.inj ((mem_lookup_iff.mpr hmem).symm.trans h)
  subst hw
  show (m.entries.map _).sum = _ + ((m.entries.kerase k).map _).sum
  rw [he, hl, map_append, map_append, map_cons, sum_append, sum_append,
    sum_cons]
  exact add_left_comm _ _ _

lemma total_insert (k : K) (v : V) (m : Assoc K V) :
    total f (m.insert k v) = f k v + total f (m.erase k) := by
  show ((m.insert k v).entries.map _).sum = _ + ((m.entries.kerase k).map _).sum
  rw [entries_insert, map_cons, sum_cons]

lemma total_erase_of_not_mem {m : Assoc K V} {k : K} (h : m.lookup k = none) :
    total f (m.erase k) = total f m := by
  have hk : k ∉ m.entries.keys := fun hm => lookup_eq_none.mp h hm
  show ((m.entries.kerase k).map _).sum = _
  rw [kerase_of_notMem_keys hk]
  rfl

/-! ## taking everything out -/

def drain (ks : List K) (m : Assoc K V) : List (K × V) :=
  ks.filterMap fun k => (m.lookup k).map (k, ·)

end Assoc
