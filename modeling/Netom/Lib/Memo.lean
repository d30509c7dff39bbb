import Netom.Lib.Assoc

/-!
# A function evaluated once for each key

A loop evaluates `f` for the elements of a list and keeps the results in a cache under a key of the
element.  An element whose key is in the cache gets what is there.

* `memo`  every element with the value it gets;
* `memo_iff`  all of them get their own value iff the key tells all that `f` needs.
-/

namespace Memo
open List
variable {α κ β : Type} [DecidableEq κ] (key : α → κ) (f : α → β)

def memoFrom (cache : Assoc κ β) : List α → List (α × β)
  | [] => []
  | a :: as =>
    match cache.lookup (key a) with
    | some b => (a, b) :: memoFrom cache as
    | none => (a, f a) :: memoFrom (cache.insert (key a) (f a)) as

def memo (as : List α) : List (α × β) := memoFrom key f ∅ as

variable {key f}

variable {cache : Assoc κ β}

lemma memoFrom_some {a : α} {b : β} (h : cache.lookup (key a) = some b) (as : List α) :
    memoFrom key f cache (a :: as) = (a, b) :: memoFrom key f cache as := by
  rw [memoFrom, h]

lemma memoFrom_none {a : α} (h : cache.lookup (key a) = none) (as : List α) :
    memoFrom key f cache (a :: as) =
      (a, f a) :: memoFrom key f (cache.insert (key a) (f a)) as := by
  rw [memoFrom, h]

lemma map_fst_memoFrom (cache : Assoc κ β) (as : List α) :
    (memoFrom key f cache as).map (·.1) = as := by
  induction as generalizing cache with
  | nil => rfl
  | cons a as ih =>
    cases h : cache.lookup (key a) with
    | some b => rw [memoFrom_some h, map_cons, ih]
    | none => rw [memoFrom_none h, map_cons, ih]

/-- every element of `as` with its key in the cache has its own value there -/
def Agrees (key : α → κ) (f : α → β) (cache : Assoc κ β) (as : List α) : Prop :=
  ∀ a ∈ as, ∀ b, cache.lookup (key a) = some b → b = f a

/-- elements with one key have one value -/
def Determined (key : α → κ) (f : α → β) (as : List α) : Prop :=
  ∀ a ∈ as, ∀ a' ∈ as, key a = key a' → f a = f a'

lemma agrees_insert_iff {a : α} (h : cache.lookup (key a) = none) (as : List α) :
    Agrees key f (cache.insert (key a) (f a)) as ↔
      Agrees key f cache as ∧ ∀ a' ∈ as, key a = key a' → f a = f a' := by
  unfold Agrees
  constructor
  · intro hc
    constructor
    · intro a' ha' b hb
      refine hc a' ha' b ?_
      rw [Assoc.lookup_insert_eq, if_neg, hb]
      intro heq
      rw [heq, h] at hb
      cases hb
    · intro a' ha' heq
      refine hc a' ha' (f a) ?_
      rw [Assoc.lookup_insert_eq, if_pos heq.symm]
  · rintro ⟨hc, hd⟩ a' ha' b hb
    rw [Assoc.lookup_insert_eq] at hb
    by_cases heq : key a' = key a
    · rw [if_pos heq] at hb
      cases hb
      exact hd a' ha' heq.symm
    · rw [if_neg heq] at hb
      exact hc a' ha' b hb

omit [DecidableEq κ] in
lemma determined_cons_iff {a : α} {as : List α} : Determined key f (a :: as) ↔
    (∀ a' ∈ as, key a = key a' → f a = f a') ∧ Determined key f as := by
  unfold Determined
  constructor
  · intro h
    constructor
    · intro a' ha'
      exact h a mem_cons_self a' (mem_cons_of_mem a ha')
    · intro a' ha' a'' ha''
      exact h a' (mem_cons_of_mem a ha') a'' (mem_cons_of_mem a ha'')
  · rintro ⟨h1, h2⟩ a' ha' a'' ha'' heq
    rcases mem_cons.mp ha' with rfl | hm'
    · rcases mem_cons.mp ha'' with rfl | hm''
      · rfl
      · exact h1 a'' hm'' heq
    · rcases mem_cons.mp ha'' with rfl | hm''
      · exact (h1 a' hm' heq.symm).symm
      · exact h2 a' hm' a'' hm'' heq

lemma memoFrom_iff (cache : Assoc κ β) (as : List α) :
    (∀ p ∈ memoFrom key f cache as, p.2 = f p.1) ↔
      Agrees key f cache as ∧ Determined key f as := by
  induction as generalizing cache with
  | nil => simp [memoFrom, Agrees, Determined]
  | cons a as ih =>
    rw [determined_cons_iff]
    cases h : cache.lookup (key a) with
    | some b =>
      have hagrees : Agrees key f cache (a :: as) ↔ b = f a ∧ Agrees key f cache as := by
        unfold Agrees
        simp [h]
      rw [memoFrom_some h, forall_mem_cons, ih, hagrees]
      constructor
      · rintro ⟨hb, hc, hd⟩
        refine ⟨⟨hb, hc⟩, ?_, hd⟩
        intro a' ha' heq
        rw [heq] at h
        rw [← hb]
        exact hc a' ha' b h
      · rintro ⟨⟨hb, hc⟩, -, hd⟩
        exact ⟨hb, hc, hd⟩
    | none =>
      have hagrees : Agrees key f cache (a :: as) ↔ Agrees key f cache as := by
        unfold Agrees
        simp [h]
      rw [memoFrom_none h, forall_mem_cons, ih, agrees_insert_iff h, hagrees]
      tauto

lemma memo_iff (as : List α) :
    (∀ p ∈ memo key f as, p.2 = f p.1) ↔ Determined key f as := by
  have hempty : Agrees key f (∅ : Assoc κ β) as := by
    intro a _ b hb
    cases hb
  unfold memo
  rw [memoFrom_iff]
  exact and_iff_right hempty

end Memo
