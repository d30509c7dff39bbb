import Mathlib

/-!
# Conditions on the entries of a trace

`Each Q l` says that every entry `e` of the trace `l` satisfies `Q pre e`, where `pre` are the
entries before it.  A trace that grows at its end keeps `Each Q` if the new entry satisfies it.

`Since p q l` is the "since" of temporal logic: there is an entry with `p`, and none with `q` after
it.  The last entry decides it, or leaves it as it was.
-/

namespace Trace
open List
variable {α : Type} {Q : List α → α → Prop}

def Each (Q : List α → α → Prop) (l : List α) : Prop :=
  ∀ pre e post, l = pre ++ e :: post → Q pre e

lemma each_nil : Each Q [] := by
  intro pre e post h
  cases pre <;> cases h

lemma each_snoc (l : List α) (x : α) : Each Q (l ++ [x]) ↔ Each Q l ∧ Q l x := by
  constructor
  · intro h
    refine ⟨fun pre e post hl => h pre e (post ++ [x]) ?_, h l x [] rfl⟩
    rw [hl, append_assoc, cons_append]
  · rintro ⟨hl, hx⟩ pre e post heq
    rcases eq_nil_or_concat post with rfl | ⟨post', y, rfl⟩
    · obtain ⟨rfl, hxe⟩ := append_inj' heq rfl
      cases hxe
      exact hx
    · have hsplit : l ++ [x] = (pre ++ e :: post') ++ [y] := by simpa using heq
      exact hl pre e post' (append_inj' hsplit rfl).1

variable {p q : α → Prop}

def Since (p q : α → Prop) (l : List α) : Prop :=
  ∃ pre e post, l = pre ++ e :: post ∧ p e ∧ ∀ e' ∈ post, ¬ q e'

lemma not_since_nil : ¬ Since p q [] := by
  rintro ⟨pre, e, post, h, -⟩
  cases pre <;> cases h

lemma since_snoc (l : List α) (x : α) :
    Since p q (l ++ [x]) ↔ p x ∨ Since p q l ∧ ¬ q x := by
  constructor
  · rintro ⟨pre, e, post, heq, hp, hq⟩
    rcases eq_nil_or_concat post with rfl | ⟨post', y, rfl⟩
    · have hx := (append_inj' heq rfl).2
      cases hx
      exact Or.inl hp
    · have hsplit : l ++ [x] = (pre ++ e :: post') ++ [y] := by simpa using heq
      obtain ⟨hl, hy⟩ := append_inj' hsplit rfl
      cases hy
      refine Or.inr ⟨⟨pre, e, post', hl, hp, fun e' he' => hq e' ?_⟩, hq x ?_⟩
      · simp [he']
      · simp
  · rintro (hp | ⟨⟨pre, e, post, rfl, hp, hq⟩, hx⟩)
    · exact ⟨l, x, [], rfl, hp, by simp⟩
    · refine ⟨pre, e, post ++ [x], by simp, hp, fun e' he' => ?_⟩
      rcases mem_append.mp he' with h | h
      · exact hq e' h
      · rw [mem_singleton.mp h]
        exact hx

end Trace
