import Mathlib.Data.List.Basic

/-!
# A list cut into segments

`xs.flatten` is read from the left, one segment after the other.

* `offset xs k`  where the segment `k` starts;
* `drop_offset`, `take_offset`  what is left there, and what comes before;
* `offset_lt`  segments that are not empty start at different places;
* `exists_cut`  a cut anywhere lies within one segment, or behind the last;
* `take_cut`  what is left of it: the segments before, and a part of the one that is cut.
-/

namespace Segments
open List
variable {α : Type}

def offset (xs : List (List α)) (k : Nat) : Nat := (xs.take k).flatten.length

variable (xs : List (List α))

lemma offset_zero : offset xs 0 = 0 := rfl

lemma offset_cons_succ (x : List α) (xs : List (List α)) (k : Nat) :
    offset (x :: xs) (k + 1) = x.length + offset xs k := by
  show (x ++ (xs.take k).flatten).length = _
  rw [length_append]
  rfl

lemma offset_succ {xs : List (List α)} {k : Nat} {x : List α} (h : xs[k]? = some x) :
    offset xs (k + 1) = offset xs k + x.length := by
  unfold offset
  rw [take_add_one, h, flatten_append, length_append]
  show _ + (x ++ []).length = _
  rw [append_nil]

lemma flatten_split (k : Nat) : xs.flatten = (xs.take k).flatten ++ (xs.drop k).flatten := by
  rw [← flatten_append, take_append_drop]

lemma drop_offset (k : Nat) : xs.flatten.drop (offset xs k) = (xs.drop k).flatten := by
  rw [flatten_split xs k]
  exact drop_left

lemma take_offset (k : Nat) : xs.flatten.take (offset xs k) = (xs.take k).flatten := by
  rw [flatten_split xs k]
  exact take_left

lemma offset_lt {xs : List (List α)} (hne : ∀ x ∈ xs, 0 < x.length) {i j : Nat} (hij : i < j)
    (hi : i < xs.length) : offset xs i < offset xs j := by
  induction xs generalizing i j with
  | nil => exact absurd hi (Nat.not_lt_zero i)
  | cons x xs ih =>
    have hx := hne x mem_cons_self
    obtain ⟨j, rfl⟩ := Nat.exists_eq_add_of_lt hij
    cases i with
    | zero =>
      rw [offset_zero, Nat.zero_add, offset_cons_succ]
      omega
    | succ i =>
      rw [show i + 1 + j + 1 = (i + j + 1) + 1 by omega, offset_cons_succ, offset_cons_succ]
      have hlt := ih (fun y hy => hne y (mem_cons_of_mem x hy)) (i := i) (j := i + j + 1)
        (by omega) (Nat.lt_of_succ_lt_succ hi)
      omega

lemma exists_cut (n : Nat) :
    ∃ k ≤ xs.length, offset xs k ≤ n ∧ ∀ x, xs[k]? = some x → n < offset xs k + x.length := by
  induction xs generalizing n with
  | nil =>
    refine ⟨0, Nat.le_refl 0, Nat.zero_le n, ?_⟩
    intro x hx
    cases hx
  | cons x xs ih =>
    by_cases hn : n < x.length
    · refine ⟨0, Nat.zero_le _, Nat.zero_le n, ?_⟩
      intro y hy
      cases hy
      rw [offset_zero, Nat.zero_add]
      exact hn
    · obtain ⟨k, hk, hle, hcut⟩ := ih (n - x.length)
      refine ⟨k + 1, Nat.succ_le_succ hk, ?_, ?_⟩
      · rw [offset_cons_succ]
        omega
      · intro y hy
        have := hcut y hy
        rw [offset_cons_succ]
        omega

lemma take_cut {xs : List (List α)} {k n : Nat} {x : List α} (hx : xs[k]? = some x)
    (hle : offset xs k ≤ n) (hlt : n < offset xs k + x.length) :
    xs.flatten.take n = (xs.take k).flatten ++ x.take (n - offset xs k) := by
  obtain ⟨hk, rfl⟩ := List.getElem?_eq_some_iff.mp hx
  have hdrop : (xs.drop k).flatten = xs[k] ++ (xs.drop (k + 1)).flatten := by
    rw [List.drop_eq_getElem_cons hk, List.flatten_cons]
  have hlen : (xs.take k).flatten.length = offset xs k := rfl
  rw [flatten_split xs k, List.take_append, hlen, List.take_of_length_le hle, hdrop,
    List.take_append_of_le_length (by omega)]

end Segments
