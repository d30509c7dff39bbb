import Mathlib

/-!
# Runs of a step function

A system is a function `step : σ → ε → σ` from a state and an event to the next state.

* `run`  the state after a list of events;
* `Along`  every event of a run meets a condition on the state before it;
* `run_sim`  a map of states that each step commutes with commutes with whole runs;
* `run_inv`  what each step keeps, under the condition, a whole run keeps;
* `run_keeps`  the same without a condition;
* `run_filter`  events that a view of the state does not change at may be left out for it;
* `along_iff`  a condition that each step needs is the condition that runs need;
* `loop`, `loop_inv` a loop over a list that stops at the first step that fails.
-/

namespace Run
variable {σ τ ε : Type}

/-! ## total steps -/

section total
variable (step : σ → ε → σ)

def run (s : σ) (es : List ε) : σ := es.foldl step s

lemma run_cons (s : σ) (e : ε) (es : List ε) :
    run step s (e :: es) = run step (step s e) es := rfl
lemma run_append (s : σ) (es es' : List ε) :
    run step s (es ++ es') = run step (run step s es) es' := by
  simp [run, List.foldl_append]

def Along (ok : σ → ε → Prop) : σ → List ε → Prop
  | _, [] => True
  | s, e :: es => ok s e ∧ Along ok (step s e) es

variable {step}

instance decidableAlong {ok : σ → ε → Prop} [∀ s e, Decidable (ok s e)] :
    (s : σ) → (es : List ε) → Decidable (Along step ok s es)
  | _, [] => .isTrue trivial
  | s, e :: es => @instDecidableAnd _ _ inferInstance (decidableAlong (step s e) es)

lemma along_append {ok : σ → ε → Prop} {s : σ} {es es' : List ε} :
    Along step ok s (es ++ es') ↔ Along step ok s es ∧ Along step ok (run step s es) es' := by
  induction es generalizing s with
  | nil =>
    constructor
    · intro h
      exact ⟨trivial, h⟩
    · intro h
      exact h.2
  | cons e es ih =>
    show ok s e ∧ Along step ok (step s e) (es ++ es') ↔
      (ok s e ∧ Along step ok (step s e) es) ∧ _
    rw [ih, and_assoc]
    rfl

lemma run_sim {abs : σ → τ} {astep : τ → ε → τ}
    (h : ∀ s e, abs (step s e) = astep (abs s) e) (s : σ) (es : List ε) :
    abs (run step s es) = run astep (abs s) es := by
  induction es generalizing s with
  | nil => rfl
  | cons e es ih => rw [run_cons, ih, h, run_cons]

lemma run_inv {ok : σ → ε → Prop} {inv : σ → Prop}
    (hstep : ∀ s e, inv s → ok s e → inv (step s e)) {s : σ} (hs : inv s) {es : List ε}
    (ha : Along step ok s es) : inv (run step s es) := by
  induction es generalizing s with
  | nil => exact hs
  | cons e es ih => exact ih (hstep s e hs ha.1) ha.2

/-- what each step keeps, every run keeps -/
lemma run_keeps {inv : σ → Prop} (hstep : ∀ s e, inv s → inv (step s e)) {s : σ} (hs : inv s)
    (es : List ε) : inv (run step s es) := by
  induction es generalizing s with
  | nil => exact hs
  | cons e es ih => exact ih (hstep s e hs)

/-- where a view of the state changes only at some events, and as the view before says, the other
events of a run do not matter for it -/
lemma run_filter {ν : Type} {view : σ → ν} {on : ε → Bool}
    (hview : ∀ s s' e, view s = view s' → view (step s e) = view (step s' e))
    (hoff : ∀ s e, on e = false → view (step s e) = view s) {s s' : σ} (h : view s = view s')
    (es : List ε) : view (run step s es) = view (run step s' (es.filter on)) := by
  induction es generalizing s s' with
  | nil => exact h
  | cons e es ih =>
    cases he : on e with
    | true =>
      rw [List.filter_cons_of_pos he]
      exact ih (hview s s' e h)
    | false =>
      rw [List.filter_cons_of_neg (by rw [he]; exact Bool.false_ne_true)]
      exact ih ((hoff s e he).trans h)

/-- where the condition is exactly what one step needs, a run keeps the property throughout iff its
events meet the condition -/
lemma along_iff {ok : σ → ε → Prop} {inv : σ → Prop}
    (hstep : ∀ s e, inv s → (inv (step s e) ↔ ok s e)) {s : σ} (hs : inv s) (es : List ε) :
    (∀ es', es' <+: es → inv (run step s es')) ↔ Along step ok s es := by
  induction es generalizing s with
  | nil =>
    constructor
    · intro _
      trivial
    · intro _ es' hp
      rw [List.prefix_nil.mp hp]
      exact hs
  | cons e es ih =>
    constructor
    · intro h
      have h1 : inv (step s e) := h [e] ⟨es, rfl⟩
      refine ⟨(hstep s e hs).mp h1, (ih h1).mp ?_⟩
      intro es' hp
      exact h (e :: es') ((List.prefix_cons_inj e).mpr hp)
    · rintro ⟨hok, ha⟩ es' hp
      have h1 := (hstep s e hs).mpr hok
      cases es' with
      | nil => exact hs
      | cons e' es' =>
        obtain ⟨rfl, hp'⟩ := List.cons_prefix_cons.mp hp
        exact (ih h1).mpr ha es' hp'

end total

/-! ## loops that stop -/

section loop
variable (f : σ → ε → Bool × σ)

/-- `f` for each element, up to the first that answers `false` -/
def loop : σ → List ε → Bool × σ
  | s, [] => (true, s)
  | s, x :: xs =>
    match f s x with
    | (true, s') => loop s' xs
    | (false, s') => (false, s')

/-- every element that `f` is called for meets `ok` in the state before it -/
def LoopAlong (ok : σ → ε → Prop) : σ → List ε → Prop
  | _, [] => True
  | s, x :: xs => ok s x ∧ ((f s x).1 = true → LoopAlong ok (f s x).2 xs)

variable {f}

lemma loop_cons_true {s : σ} {x : ε} (h : (f s x).1 = true) (xs : List ε) :
    loop f s (x :: xs) = loop f (f s x).2 xs := by
  have hp : f s x = (true, (f s x).2) := Prod.ext h rfl
  rw [loop, hp]

lemma loop_cons_false {s : σ} {x : ε} (h : (f s x).1 = false) (xs : List ε) :
    loop f s (x :: xs) = f s x := by
  have hp : f s x = (false, (f s x).2) := Prod.ext h rfl
  rw [loop, hp]

/-- what `f` makes of `inv`, kept if it succeeds and `post` at any answer, is what the loop makes
of it -/
lemma loop_inv {ok : σ → ε → Prop} {inv : σ → Prop} {post : Bool × σ → Prop}
    (hnil : ∀ s, inv s → post (true, s))
    (hf : ∀ s x, inv s → ok s x → post (f s x) ∧ ((f s x).1 = true → inv (f s x).2)) {s : σ}
    (hs : inv s) {xs : List ε} (ha : LoopAlong f ok s xs) : post (loop f s xs) := by
  induction xs generalizing s with
  | nil => exact hnil s hs
  | cons x xs ih =>
    obtain ⟨hok, hrest⟩ := ha
    obtain ⟨hpost, hinv⟩ := hf s x hs hok
    cases hx : (f s x).1 with
    | true =>
      rw [loop_cons_true hx]
      exact ih (hinv hx) (hrest hx)
    | false =>
      rw [loop_cons_false hx]
      exact hpost

end loop

end Run
