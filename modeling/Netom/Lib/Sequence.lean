import Mathlib

/-!
# Slices of a stream under serial numbers

The bytes of a stream are numbered from an arbitrary first number on, modulo `2 ^ w`.

* `delta`, `seqAt`  the signed distance of two numbers, and the number of a position;
* `delta_seqAt`  positions less than half of the numbers apart are told by their numbers;
* `minByKey`  the first element with the least key;
* `IsSlice`  what stands at a position of the stream;
* `IsSlice.drop`, `IsSlice.take_append`, `IsSlice.take_eq`  a slice without its beginning, a slice
  behind all that comes before it, and two slices at one position.
-/

namespace Sequence
open BitVec List

/-! ## serial numbers -/

def delta {w : Nat} (seq reference : BitVec w) : Int := (seq - reference).toInt

def seqAt {w : Nat} (first : BitVec w) (pos : Nat) : BitVec w := first + BitVec.ofNat w pos

lemma seqAt_zero {w : Nat} (first : BitVec w) : seqAt first 0 = first := by
  simp [seqAt]

lemma seqAt_add {w : Nat} (first : BitVec w) (p n : Nat) :
    seqAt first p + BitVec.ofNat w n = seqAt first (p + n) := by
  rw [seqAt, seqAt, BitVec.add_assoc, BitVec.ofNat_add]

lemma delta_seqAt (first : BitVec 32) {p n : Nat} (hlo : n ≤ p + 2 ^ 31) (hhi : p < n + 2 ^ 31) :
    delta (seqAt first p) (seqAt first n) = (p : Int) - n := by
  have hf := first.isLt
  simp only [delta, seqAt, toInt_eq_toNat_cond, toNat_sub, toNat_add,
    toNat_ofNat]
  split <;> omega

/-- two positions less than all the numbers apart have different numbers -/
lemma seqAt_inj (first : BitVec 32) {p q : Nat} (h : seqAt first p = seqAt first q)
    (hp : p < q + 2 ^ 32) (hq : q < p + 2 ^ 32) : p = q := by
  have hf := first.isLt
  have hn := congrArg BitVec.toNat h
  simp only [seqAt, BitVec.toNat_add, BitVec.toNat_ofNat] at hn
  omega

/-! ## the least key -/

def minByKey {α : Type} (key : α → Int) : List α → Option α
  | [] => none
  | x :: xs =>
    match minByKey key xs with
    | none => some x
    | some y => if key x ≤ key y then some x else some y

lemma minByKey_eq_none {α : Type} {key : α → Int} {l : List α} (h : minByKey key l = none) :
    l = [] := by
  cases l with
  | nil => rfl
  | cons x xs =>
    rw [minByKey] at h
    split at h
    · cases h
    · split_ifs at h

lemma minByKey_eq_some {α : Type} {key : α → Int} {l : List α} {x : α}
    (h : minByKey key l = some x) : x ∈ l ∧ ∀ y ∈ l, key x ≤ key y := by
  induction l generalizing x with
  | nil => cases h
  | cons a l ih =>
    rw [minByKey] at h
    cases hm : minByKey key l with
    | none =>
      obtain rfl := minByKey_eq_none hm
      rw [hm] at h
      cases h
      refine ⟨mem_cons_self, fun y hy => ?_⟩
      obtain rfl := mem_singleton.mp hy
      exact Int.le_refl _
    | some b =>
      obtain ⟨hb, hmin⟩ := ih hm
      simp only [hm] at h
      by_cases hab : key a ≤ key b
      · rw [if_pos hab] at h
        cases h
        refine ⟨mem_cons_self, fun y hy => ?_⟩
        rcases mem_cons.mp hy with rfl | hy
        · exact Int.le_refl _
        · exact Int.le_trans hab (hmin y hy)
      · rw [if_neg hab] at h
        cases h
        refine ⟨mem_cons_of_mem a hb, fun y hy => ?_⟩
        rcases mem_cons.mp hy with rfl | hy
        · omega
        · exact hmin y hy

/-! ## slices -/

section slices
variable {α : Type} {s b b' : List α} {p : Nat}

def IsSlice (s : List α) (p : Nat) (b : List α) : Prop := p ≤ s.length ∧ b <+: s.drop p

lemma IsSlice.le (h : IsSlice s p b) : p + b.length ≤ s.length := by
  have hl := h.2.length_le
  rw [length_drop] at hl
  have hp := h.1
  omega

lemma IsSlice.drop (h : IsSlice s p b) {k : Nat} (hk : k ≤ b.length) :
    IsSlice s (p + k) (b.drop k) := by
  have hle := h.le
  obtain ⟨rest, hrest⟩ := h.2
  refine ⟨by omega, rest, ?_⟩
  rw [← drop_drop, ← hrest, drop_append_of_le_length hk]

lemma IsSlice.take_append (h : IsSlice s p b) : s.take p ++ b = s.take (p + b.length) := by
  rw [take_add, ← prefix_iff_eq_take.mp h.2]

lemma IsSlice.take_eq (h : IsSlice s p b) (h' : IsSlice s p b') :
    b.take (min b.length b'.length) = b'.take (min b.length b'.length) := by
  have hb := prefix_iff_eq_take.mp h.2
  have hb' := prefix_iff_eq_take.mp h'.2
  rw [hb, hb', take_take, take_take]
  simp only [length_take, length_drop]
  congr 1
  omega

end slices

end Sequence
