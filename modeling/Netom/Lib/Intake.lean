import Mathlib

/-!
# Taking what arrives

Items arrive one after the other.  An item is taken at once, or is in flight for a while and taken
then.  Whatever the schedule, nothing is lost and nothing is taken twice, and what has been taken
stays as it is.  If no item arrives while another is in flight, the order is that of the arrivals.

* `Step alone`  one step; with `alone`, nothing arrives while something is in flight;
* `Steps.whole`, `Steps.taken_grows`, `Steps.inOrder`  what any number of steps keeps.
-/

structure Intake (α : Type) where
  arrived : List α
  taken : List α
  flight : List α

namespace Intake
open List
variable {α : Type} {alone : Prop}

inductive Step (alone : Prop) : Intake α → Intake α → Prop where
  | stay (s : Intake α) : Step alone s s
  /-- an item arrives and is taken at once -/
  | take (s : Intake α) (x : α) (h : s.flight = []) :
      Step alone s { s with arrived := s.arrived ++ [x], taken := s.taken ++ [x] }
  /-- an item arrives and is in flight -/
  | enter (s : Intake α) (x : α) (h : alone → s.flight = []) :
      Step alone s { s with arrived := s.arrived ++ [x], flight := s.flight ++ [x] }
  /-- an item in flight is taken -/
  | leave (s : Intake α) (i : Nat) (x : α) (h : s.flight[i]? = some x) :
      Step alone s { s with taken := s.taken ++ [x], flight := s.flight.eraseIdx i }

/-- each item that has arrived is taken or in flight, once -/
def Whole (s : Intake α) : Prop := (s.taken ++ s.flight).Perm s.arrived

/-- and the taken ones come first, as they arrived -/
def InOrder (s : Intake α) : Prop := s.taken ++ s.flight = s.arrived ∧ s.flight.length ≤ 1

variable {s s' : Intake α}

lemma Step.whole (h : Step alone s s') (hw : s.Whole) : s'.Whole := by
  cases h with
  | stay => exact hw
  | take x hf =>
    show ((s.taken ++ [x]) ++ s.flight).Perm (s.arrived ++ [x])
    unfold Whole at hw
    rw [hf, List.append_nil] at hw ⊢
    exact hw.append_right [x]
  | enter x hf =>
    show (s.taken ++ (s.flight ++ [x])).Perm (s.arrived ++ [x])
    rw [← List.append_assoc]
    exact hw.append_right [x]
  | leave i x hx =>
    have hi : List.Perm (x :: s.flight.eraseIdx i) s.flight := by
      obtain ⟨hlt, rfl⟩ := List.getElem?_eq_some_iff.mp hx
      exact List.getElem_cons_eraseIdx_perm hlt
    show ((s.taken ++ [x]) ++ s.flight.eraseIdx i).Perm s.arrived
    rw [List.append_assoc]
    exact (hi.append_left s.taken).trans hw

lemma Step.taken_grows (h : Step alone s s') : s.taken <+: s'.taken := by
  cases h with
  | stay | enter x hf => exact prefix_refl _
  | take x hf | leave i x hx => exact prefix_append _ _

lemma Step.inOrder (h : Step True s s') (hs : s.InOrder) : s'.InOrder := by
  obtain ⟨heq, hlen⟩ := hs
  cases h with
  | stay => exact ⟨heq, hlen⟩
  | take x hf =>
    rw [hf, append_nil] at heq
    refine ⟨?_, hlen⟩
    show (s.taken ++ [x]) ++ s.flight = s.arrived ++ [x]
    rw [hf, append_nil, heq]
  | enter x hf =>
    have hnil := hf trivial
    refine ⟨?_, ?_⟩
    · show s.taken ++ (s.flight ++ [x]) = s.arrived ++ [x]
      rw [← append_assoc, heq]
    · show (s.flight ++ [x]).length ≤ 1
      rw [hnil]
      exact Nat.le_refl _
  | leave i x hx =>
    -- there is one item in flight, and it is the last that arrived
    cases hfl : s.flight with
    | nil =>
      rw [hfl] at hx
      cases hx
    | cons y ys =>
      rw [hfl] at hx hlen heq
      cases ys with
      | cons z zs =>
        simp only [length_cons] at hlen
        omega
      | nil =>
        cases i with
        | succ i => cases hx
        | zero =>
          cases hx
          refine ⟨?_, Nat.zero_le _⟩
          show (s.taken ++ [x]) ++ [] = s.arrived
          rw [append_nil]
          exact heq

/-! ## any number of steps -/

def Steps (alone : Prop) : Intake α → Intake α → Prop := Relation.ReflTransGen (Step alone)

lemma Steps.whole (h : Steps alone s s') (hw : s.Whole) : s'.Whole := by
  induction h with
  | refl => exact hw
  | tail _ hstep ih => exact hstep.whole ih

lemma Steps.taken_grows (h : Steps alone s s') : s.taken <+: s'.taken := by
  induction h with
  | refl => exact prefix_refl _
  | tail _ hstep ih => exact ih.trans hstep.taken_grows

lemma Steps.inOrder (h : Steps True s s') (hs : s.InOrder) : s'.InOrder := by
  induction h with
  | refl => exact hs
  | tail _ hstep ih => exact hstep.inOrder ih

end Intake
