import Netom.Lib.Assoc

/-!
# Weights of finite maps

Every entry of a map has a weight, which may depend on its key, and the map has the sum of them.

* `Tally.sum_congr_of_support`, `Tally.sum_update_of_support`  sums over any finite set that holds
  the support;
* `weight w m k`  the weight of the entry of `k`, zero if there is none;
* `tally w m`  the sum over the map;
* `tally_congr`  it is determined by the weights of the keys;
* `tally_update`  two maps that differ at one key.
-/

namespace Tally
variable {K : Type} [DecidableEq K] {s s' : Finset K} {v v' : K → Nat}

/-! ## sums of functions with finite support -/

lemma sum_union_of_support (hs : ∀ k, v k ≠ 0 → k ∈ s) : ∑ k ∈ s, v k = ∑ k ∈ s ∪ s', v k :=
  Finset.sum_subset Finset.subset_union_left fun k _ hk => by
    by_contra hv
    exact hk (hs k hv)

lemma sum_congr_of_support (hs : ∀ k, v k ≠ 0 → k ∈ s) (hs' : ∀ k, v' k ≠ 0 → k ∈ s')
    (h : ∀ k, v k = v' k) : ∑ k ∈ s, v k = ∑ k ∈ s', v' k := by
  have h1 := @sum_union_of_support _ _ s s' v hs
  have h2 := @sum_union_of_support _ _ s' s v' hs'
  rw [h1, h2, Finset.union_comm]
  exact Finset.sum_congr rfl fun k _ => h k

lemma sum_update_of_support {k : K} (hs : ∀ k, v k ≠ 0 → k ∈ s) (hs' : ∀ k, v' k ≠ 0 → k ∈ s')
    (h : ∀ j, j ≠ k → v' j = v j) : ∑ j ∈ s', v' j + v k = ∑ j ∈ s, v j + v' k := by
  have h1 := @sum_union_of_support _ _ s (insert k s') v hs
  have h2 := @sum_union_of_support _ _ s' (insert k s) v' hs'
  have hset : s' ∪ insert k s = s ∪ insert k s' := by
    rw [Finset.union_insert, Finset.union_insert, Finset.union_comm]
  have hk : k ∈ s ∪ insert k s' := Finset.mem_union_right _ (Finset.mem_insert_self k s')
  have hrest : ∑ j ∈ (s ∪ insert k s').erase k, v' j = ∑ j ∈ (s ∪ insert k s').erase k, v j :=
    Finset.sum_congr rfl fun j hj => h j (Finset.ne_of_mem_erase hj)
  rw [h1, h2, hset, ← Finset.add_sum_erase _ v hk, ← Finset.add_sum_erase _ v' hk, hrest]
  omega

end Tally

/-! ## weights -/

namespace Assoc
variable {K V W : Type} [DecidableEq K]

def weight (w : K → V → Nat) (m : Assoc K V) (k : K) : Nat := (m.lookup k).elim 0 (w k)

def tally (w : K → V → Nat) (m : Assoc K V) : Nat := (m.entries.map fun e => w e.1 e.2).sum

variable {m : Assoc K V} {w : K → V → Nat}

lemma weight_of_lookup {k : K} {v : V} (h : m.lookup k = some v) : weight w m k = w k v := by
  unfold weight
  rw [h]
  rfl

lemma weight_of_not_mem {k : K} (h : k ∉ m.keys) : weight w m k = 0 := by
  have hn : m.lookup k = none := AList.lookup_eq_none.mpr h
  unfold weight
  rw [hn]
  rfl

lemma tally_eq_sum_keys (w : K → V → Nat) (m : Assoc K V) :
    tally w m = ∑ k ∈ m.keys.toFinset, weight w m k := by
  have hmap : m.keys.map (weight w m) = m.entries.map fun e => w e.1 e.2 := by
    show (m.entries.map Sigma.fst).map (weight w m) = _
    rw [List.map_map]
    refine List.map_congr_left fun e he => ?_
    exact weight_of_lookup (AList.mem_lookup_iff.mpr he)
  have hsum : ∑ k ∈ m.keys.toFinset, weight w m k = (m.keys.map (weight w m)).sum :=
    List.sum_toFinset _ m.nodupKeys
  rw [hsum, hmap]
  rfl

lemma mem_keys_of_weight {k : K} (h : weight w m k ≠ 0) : k ∈ m.keys.toFinset := by
  by_contra hk
  exact h (weight_of_not_mem fun hm => hk (List.mem_toFinset.mpr hm))

lemma tally_congr {w' : K → W → Nat} {m' : Assoc K W} (h : ∀ k, weight w m k = weight w' m' k) :
    tally w m = tally w' m' := by
  rw [tally_eq_sum_keys, tally_eq_sum_keys]
  exact Tally.sum_congr_of_support (fun _ => mem_keys_of_weight) (fun _ => mem_keys_of_weight) h

lemma tally_update {w' : K → V → Nat} {m' : Assoc K V} (k : K)
    (h : ∀ j, j ≠ k → weight w' m' j = weight w m j) :
    tally w' m' + weight w m k = tally w m + weight w' m' k := by
  rw [tally_eq_sum_keys, tally_eq_sum_keys]
  exact Tally.sum_update_of_support (fun _ => mem_keys_of_weight) (fun _ => mem_keys_of_weight) h

end Assoc
