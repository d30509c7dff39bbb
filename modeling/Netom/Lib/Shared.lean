import Netom.Lib.Assoc

/-!
# A map of shared cells

The values of the map are cells that others may hold a reference to.  A cell that is dropped from
the map lives on for its holders, and what they write to it is no longer seen through the map; a
key that comes back gets a new cell.

* `view`  what the map has at a key;
* `getOrCreate`  the cell of a key, a new one if there is none;
* `write`  a change of one cell, by reference;
* `mapAll`  a change of every cell in the map;
* `retain`  the entries whose value satisfies a predicate.

For each of them a lemma says what it leaves at any key.
-/

/-- distinct keys have distinct cells, and `next` is a cell that no key has had -/
structure Shared (K V : Type) [DecidableEq K] where
  cells : Nat → V
  inner : Assoc K Nat
  next : Nat
  lt_next : ∀ k c, inner.lookup k = some c → c < next
  inj : ∀ k k' c, inner.lookup k = some c → inner.lookup k' = some c → k = k'

namespace Shared
variable {K V : Type} [DecidableEq K]

def empty (v : V) : Shared K V where
  cells _ := v
  inner := ∅
  next := 0
  lt_next k c h := by cases h
  inj k k' c h := by cases h

def view (m : Shared K V) (k : K) : Option V := (m.inner.lookup k).map m.cells

/-- a new cell with the value `v` under the key `k` -/
def create (m : Shared K V) (k : K) (v : V) : Shared K V where
  cells := Function.update m.cells m.next v
  inner := m.inner.insert k m.next
  next := m.next + 1
  lt_next k' c h := by
    rw [Assoc.lookup_insert_eq] at h
    split at h
    · cases h
      exact Nat.lt_succ_self _
    · exact Nat.lt_succ_of_lt (m.lt_next k' c h)
  inj k₁ k₂ c h₁ h₂ := by
    rw [Assoc.lookup_insert_eq] at h₁ h₂
    split at h₁ <;> split at h₂
    · simp_all
    · cases h₁
      exact absurd (m.lt_next k₂ _ h₂) (Nat.lt_irrefl _)
    · cases h₂
      exact absurd (m.lt_next k₁ _ h₁) (Nat.lt_irrefl _)
    · exact m.inj k₁ k₂ c h₁ h₂

def getOrCreate (m : Shared K V) (k : K) (v : V) : Nat × Shared K V :=
  match m.inner.lookup k with
  | some c => (c, m)
  | none => (m.next, m.create k v)

def write (m : Shared K V) (c : Nat) (f : V → V) : Shared K V :=
  { m with cells := Function.update m.cells c (f (m.cells c)) }

def mapAll (m : Shared K V) (f : V → V) : Shared K V :=
  { m with cells := fun c => if c ∈ m.inner.entries.map (·.2) then f (m.cells c) else m.cells c }

def retain (m : Shared K V) (p : V → Bool) : Shared K V where
  cells := m.cells
  inner := Assoc.filterMapVals (fun _ c => if p (m.cells c) then some c else none) m.inner
  next := m.next
  lt_next k c h := by
    rw [Assoc.lookup_filterMapVals, Option.bind_eq_some_iff] at h
    obtain ⟨c', hc', h⟩ := h
    split at h
    · cases h
      exact m.lt_next k _ hc'
    · cases h
  inj k k' c h h' := by
    rw [Assoc.lookup_filterMapVals, Option.bind_eq_some_iff] at h h'
    obtain ⟨c₁, hc₁, h⟩ := h
    obtain ⟨c₂, hc₂, h'⟩ := h'
    split at h <;> split at h'
    · cases h
      cases h'
      exact m.inj k k' _ hc₁ hc₂
    all_goals simp_all

variable {m : Shared K V} {k k' : K} {c : Nat} {v : V} {f : V → V} {p : V → Bool}

lemma view_of_lookup (h : m.inner.lookup k = some c) : m.view k = some (m.cells c) := by
  rw [view, h]
  rfl

lemma lookup_getOrCreate : (m.getOrCreate k v).2.inner.lookup k = some (m.getOrCreate k v).1 := by
  unfold getOrCreate
  cases h : m.inner.lookup k with
  | none => simp [create]
  | some c => exact h

lemma lookup_getOrCreate_of_ne (hk : k' ≠ k) :
    (m.getOrCreate k v).2.inner.lookup k' = m.inner.lookup k' := by
  unfold getOrCreate
  cases h : m.inner.lookup k with
  | none => exact AList.lookup_insert_ne hk
  | some c => rfl

lemma view_create_of_ne (hk : k' ≠ k) : (m.create k v).view k' = m.view k' := by
  have hl : (m.create k v).inner.lookup k' = m.inner.lookup k' := AList.lookup_insert_ne hk
  unfold view
  rw [hl]
  cases h : m.inner.lookup k' with
  | none => rfl
  | some c =>
    have hne : c ≠ m.next := Nat.ne_of_lt (m.lt_next k' c h)
    simp [create, hne]

lemma view_getOrCreate : (m.getOrCreate k v).2.view k' =
    if k' = k then some ((m.view k).getD v) else m.view k' := by
  unfold getOrCreate
  cases h : m.inner.lookup k with
  | none =>
    by_cases hk : k' = k
    · subst hk
      simp [view, create, h]
    · rw [if_neg hk]
      exact view_create_of_ne hk
  | some c =>
    by_cases hk : k' = k
    · subst hk
      simp [view, h]
    · rw [if_neg hk]

lemma view_write : (m.write c f).view k =
    if m.inner.lookup k = some c then (m.view k).map f else m.view k := by
  unfold view write
  cases h : m.inner.lookup k with
  | none => simp
  | some c' =>
    by_cases hc : c' = c
    · subst hc
      simp
    · simp [hc]

lemma view_write_of_lookup (h : m.inner.lookup k = some c) :
    (m.write c f).view k' = if k' = k then (m.view k).map f else m.view k' := by
  rw [view_write]
  by_cases hk : k' = k
  · subst hk
    rw [if_pos h, if_pos rfl]
  · rw [if_neg hk, if_neg fun h' => hk (m.inj k' k c h' h)]

lemma view_mapAll : (m.mapAll f).view k = (m.view k).map f := by
  unfold view mapAll
  cases h : m.inner.lookup k with
  | none => rfl
  | some c =>
    have hmem : c ∈ m.inner.entries.map (·.2) :=
      List.mem_map.mpr ⟨⟨k, c⟩, AList.mem_lookup_iff.mp h, rfl⟩
    simp only [Option.map_some]
    rw [if_pos hmem]

lemma lookup_retain : (m.retain p).inner.lookup k =
    (m.inner.lookup k).filter fun c => p (m.cells c) := by
  show (Assoc.filterMapVals _ m.inner).lookup k = _
  rw [Assoc.lookup_filterMapVals]
  cases h : m.inner.lookup k with
  | none => rfl
  | some c => cases hp : p (m.cells c) <;> simp [hp, Option.filter]

lemma view_retain : (m.retain p).view k = (m.view k).filter p := by
  unfold view
  rw [lookup_retain]
  cases h : m.inner.lookup k with
  | none => rfl
  | some c => cases hp : p (m.cells c) <;> simp [hp, retain, Option.filter]

end Shared
