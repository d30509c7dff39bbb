import Mathlib

/-!
# Finite maps

`Assoc K V` is Mathlib's `AList` at a constant value type: a list of entries with distinct keys.
What is added are the operations that loop over keys:

* `insertAll f ks m`  every key `k` of `ks` gets the value `f k`;
* `eraseAll ks m`  every key of `ks` is removed;
* `modify k f m`  the value of `k`, if there is one, is changed;
* `filterMapVals f m` the values are changed or dropped by `f`;
* `findKey p m`  the first key whose value satisfies `p`;
* `findFrom pick p m` such a key where the order of the map is not known: `pick` comes first.

The `lookup` lemmas say what each of them leaves at any key.
-/

abbrev Assoc (K V : Type) := AList (fun _ : K => V)

namespace Assoc
open AList Option
variable {K V : Type} [DecidableEq K]

lemma lookup_insert_eq (k k' : K) (v : V) (m : Assoc K V) :
    (m.insert k' v).lookup k = if k = k' then some v else m.lookup k := by
  by_cases h : k = k'
  · subst h
    rw [if_pos rfl]
    exact lookup_insert m
  · rw [if_neg h]
    exact lookup_insert_ne h

lemma lookup_erase_eq (k k' : K) (m : Assoc K V) :
    (m.erase k').lookup k = if k = k' then none else m.lookup k := by
  by_cases h : k = k'
  · subst h
    rw [if_pos rfl]
    exact lookup_erase k m
  · rw [if_neg h]
    exact lookup_erase_ne h

def insertAll (f : K → V) (ks : List K) (m : Assoc K V) : Assoc K V :=
  ks.foldl (fun m k => m.insert k (f k)) m

lemma lookup_insertAll (f : K → V) (ks : List K) (m : Assoc K V) (k : K) :
    (insertAll f ks m).lookup k = if k ∈ ks then some (f k) else m.lookup k := by
  induction ks generalizing m with
  | nil => rfl
  | cons k' ks ih =>
    refine (ih _).trans ?_
    rw [lookup_insert_eq]
    by_cases hk : k = k'
    · subst hk
      simp
    · simp [hk]

def eraseAll (ks : List K) (m : Assoc K V) : Assoc K V := ks.foldl (fun m k => m.erase k) m

lemma lookup_eraseAll (ks : List K) (m : Assoc K V) (k : K) :
    (eraseAll ks m).lookup k = if k ∈ ks then none else m.lookup k := by
  induction ks generalizing m with
  | nil => rfl
  | cons k' ks ih =>
    refine (ih _).trans ?_
    rw [lookup_erase_eq]
    by_cases hk : k = k'
    · subst hk
      simp
    · simp [hk]

def modify (k : K) (f : V → V) (m : Assoc K V) : Assoc K V :=
  match m.lookup k with
  | some v => m.insert k (f v)
  | none => m

lemma lookup_modify (k k' : K) (f : V → V) (m : Assoc K V) :
    (modify k' f m).lookup k = if k = k' then (m.lookup k).map f else m.lookup k := by
  unfold modify
  cases h : m.lookup k' with
  | none =>
    by_cases hk : k = k'
    · subst hk
      simp [h]
    · simp [hk]
  | some v =>
    rw [lookup_insert_eq]
    by_cases hk : k = k'
    · subst hk
      simp [h]
    · simp [hk]

/-- every value is replaced by what `f` makes of it, or dropped -/
def filterMapVals {W : Type} (f : K → V → Option W) (m : Assoc K V) : Assoc K W where
  entries := m.entries.filterMap fun e => (f e.1 e.2).map fun w => ⟨e.1, w⟩
  nodupKeys := by
    refine List.Nodup.sublist ?_ m.nodupKeys
    generalize m.entries = l
    induction l with
    | nil => exact List.Sublist.refl _
    | cons e l ih =>
      cases he : f e.1 e.2 with
      | none => simpa [List.filterMap_cons, he, List.keys] using ih.cons e.1
      | some w => simpa [List.filterMap_cons, he, List.keys] using ih.cons_cons e.1

lemma lookup_filterMapVals {W : Type} (f : K → V → Option W) (m : Assoc K V) (k : K) :
    (filterMapVals f m).lookup k = (m.lookup k).bind (f k) := by
  ext w
  rw [bind_eq_some_iff]
  constructor
  · intro h
    obtain ⟨e, he, hw⟩ := List.mem_filterMap.mp (mem_lookup_iff.mp h)
    obtain ⟨w', hw', heq⟩ := map_eq_some_iff.mp hw
    cases heq
    exact ⟨e.2, mem_lookup_iff.mpr he, hw'⟩
  · rintro ⟨v, hv, hw⟩
    refine mem_lookup_iff.mpr ?_
    refine List.mem_filterMap.mpr ⟨⟨k, v⟩, mem_lookup_iff.mp hv, ?_⟩
    exact map_eq_some_iff.mpr ⟨w, hw, rfl⟩

def findKey (p : K → V → Bool) (m : Assoc K V) : Option K :=
  (m.entries.find? fun e => p e.1 e.2).map (·.1)

/-- a key whose value satisfies `p`, in a map whose iteration meets `pick` first -/
def findFrom (pick : K) (p : V → Bool) (m : Assoc K V) : Option K :=
  if (m.lookup pick).any p then some pick else findKey (fun _ v => p v) m

lemma findKey_spec {p : K → V → Bool} {m : Assoc K V} {k : K} (h : findKey p m = some k) :
    ∃ v, m.lookup k = some v ∧ p k v = true := by
  unfold findKey at h
  obtain ⟨e, he, rfl⟩ := map_eq_some_iff.mp h
  refine ⟨e.2, ?_, by simpa using List.find?_some he⟩
  exact mem_lookup_iff.mpr (List.mem_of_find?_eq_some he)

lemma findFrom_spec {pick : K} {p : V → Bool} {m : Assoc K V} {k : K}
    (h : findFrom pick p m = some k) : ∃ v, m.lookup k = some v ∧ p v = true := by
  unfold findFrom at h
  split at h
  · rename_i hp
    cases h
    cases hl : m.lookup pick with
    | none =>
      rw [hl] at hp
      cases hp
    | some v =>
      rw [hl] at hp
      exact ⟨v, rfl, hp⟩
  · exact findKey_spec h

end Assoc
