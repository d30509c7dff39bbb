import Netom.Lib.Assoc
import Netom.Lib.Run

/-!
# A map that is copied for every change

`FrimMap` keeps its entries behind one pointer.  A change loads the pointer, makes a changed copy and
swaps the pointer if nobody has meanwhile; otherwise it starts over with what is there now.

* `Op.spec`  the operations, one after the other;
* `FrimMap.step`  threads that take turns, one load or swap at a time;
* `linear_of_along`  **operations are as if done one after the other, as long as no other thread
  removes the key of a `remove` that starts over, or fills one that was vacant**;
* `races_not_linear`  and not otherwise;
* `lookup_run`  **no change is lost in any case**.
-/

namespace Netom
open Function List Option Run Prod
namespace FrimMap

inductive Op (K V : Type) [DecidableEq K] where
  | insert (key : K) (value : V)
  | remove (key : K)
  /-- `entry(key).or_insert_with(..)`, with what the default function returns -/
  | orInsertWith (key : K) (value : V)
  | retain (f : K → V → Bool)
  | replace (new : Assoc K V)

variable {K V T : Type} [DecidableEq K]

namespace Op

/-- what a map is afterwards, and what is returned -/
def spec (m : K → Option V) : Op K V → (K → Option V) × Option V
  | insert key value => (update m key (some value), none)
  | remove key => (update m key none, m key)
  | orInsertWith key value =>
    (update m key (some ((m key).getD value)), some ((m key).getD value))
  | retain f => (fun k => (m k).filter (f k), none)
  | replace new => (fun k => new.lookup k, none)

/-- the changed copy -/
def copy (inner : Assoc K V) : Op K V → Assoc K V
  | insert key value | orInsertWith key value => inner.insert key value
  | remove key => inner.erase key
  | retain f => inner.filterMapVals fun k v => if f k v then some v else none
  | replace new => new

/-- what `remove` has found: the variable is outside of the closure that is run again -/
def found (inner : Assoc K V) (before : Option V) : Op K V → Option V
  | remove key => (inner.lookup key).or before
  | _ => none

def returns (found : Option V) : Op K V → Option V
  | remove _ => found
  | orInsertWith _ value => some value
  | _ => none

/-- whether the key is still there, or still vacant -/
def untouched (inner : Assoc K V) (before : Option V) : Op K V → Bool
  | remove key => before.isNone || (inner.lookup key).isSome
  | orInsertWith key _ => (inner.lookup key).isNone
  | _ => true

/-- a copy of an untouched map is what it should be -/
lemma spec_eq (op : Op K V) (inner : Assoc K V) (before : Option V)
    (h : op.untouched inner before = true) : op.spec (fun k => inner.lookup k) =
      (fun k => (op.copy inner).lookup k, op.returns (op.found inner before)) := by
  have hinsert : ∀ key value, update (fun k => inner.lookup k) key (some value) =
      fun k => (inner.insert key value).lookup k := by
    intro key value
    funext k
    rw [update_apply, Assoc.lookup_insert_eq]
  cases op with
  | insert key value => exact Prod.ext (hinsert key value) rfl
  | remove key =>
    refine Prod.ext (funext fun k => ?_) ?_
    · show update (fun k => inner.lookup k) key none k = (inner.erase key).lookup k
      rw [update_apply, Assoc.lookup_erase_eq]
    · show inner.lookup key = (inner.lookup key).or before
      cases hl : inner.lookup key with
      | some v => rfl
      | none =>
        simp only [untouched, hl, isSome_none, Bool.or_false] at h
        rw [isNone_iff_eq_none.mp h]
        rfl
  | orInsertWith key value =>
    have hl : inner.lookup key = none := isNone_iff_eq_none.mp h
    simp only [spec, hl, getD_none]
    exact Prod.ext (hinsert key value) rfl
  | retain f =>
    refine Prod.ext (funext fun k => ?_) rfl
    show (inner.lookup k).filter (f k) = (inner.filterMapVals _).lookup k
    rw [Assoc.lookup_filterMapVals]
    cases inner.lookup k <;> rfl
  | replace new => rfl

end Op

/-! ## threads -/

/-- `seen` is the map that an attempt to change it has loaded -/
inductive Thread (K V : Type) [DecidableEq K] where
  | idle
  | called (op : Op K V)
  | vacant (key : K) (value : V)
  | attempt (op : Op K V) (seen : Nat × Assoc K V) (found : Option V)

/-- The pointer is a number that goes up with each swap, since what a thread has loaded is not freed;
`log` has the operations that are over and what they returned, in the order they took effect. -/
structure Sys (K V T : Type) [DecidableEq K] where
  inner : Nat × Assoc K V
  thread : T → Thread K V
  log : List (Op K V × Option V)

inductive Event (K V T : Type) [DecidableEq K] where
  | call (t : T) (op : Op K V)
  | go (t : T)

def new : Sys K V T := ⟨(0, ∅), fun _ => .idle, []⟩

variable [DecidableEq T]

def Sys.goto (s : Sys K V T) (t : T) (th : Thread K V) : Sys K V T :=
  { s with thread := update s.thread t th }

def Sys.finish (s : Sys K V T) (t : T) (op : Op K V) (inner : Nat × Assoc K V) (r : Option V) :
    Sys K V T :=
  ⟨inner, update s.thread t .idle, s.log ++ [(op, r)]⟩

def step (s : Sys K V T) : Event K V T → Sys K V T
  | .call t op =>
    match s.thread t with
    | .idle => s.goto t (.called op)
    | _ => s
  | .go t =>
    match s.thread t with
    | .idle => s
    | .called (.orInsertWith key value) =>
      match s.inner.2.lookup key with
      | some v => s.finish t (.orInsertWith key value) s.inner (some v)
      | none => s.goto t (.vacant key value)
    | .called (.replace new) => s.finish t (.replace new) (s.inner.1 + 1, new) none
    | .called op => s.goto t (.attempt op s.inner none)
    | .vacant key value => s.goto t (.attempt (.orInsertWith key value) s.inner none)
    | .attempt op seen before =>
      let found := op.found seen.2 before
      if seen.1 = s.inner.1 then
        s.finish t op (seen.1 + 1, op.copy seen.2) (op.returns found)
      else s.goto t (.attempt op s.inner found)

/-- a swap that succeeds finds the key of its operation untouched -/
def timely (s : Sys K V T) : Event K V T → Bool
  | .call _ _ => true
  | .go t =>
    match s.thread t with
    | .attempt op seen before => seen.1 ≠ s.inner.1 || op.untouched s.inner.2 before
    | _ => true

variable {s : Sys K V T} {t : T}

/-- what one step can do: a thread moves on, with the map of now where it loads one, or its
operation takes effect -/
lemma step_cases {P : Sys K V T → Prop} {e : Event K V T} (stays : P s)
    (moves : ∀ t th, (∀ op seen before, th = .attempt op seen before → seen = s.inner) →
      P (s.goto t th))
    (found : ∀ t key value v, s.inner.2.lookup key = some v →
      P (s.finish t (.orInsertWith key value) s.inner (some v)))
    (replaced : ∀ t new, P (s.finish t (.replace new) (s.inner.1 + 1, new) none))
    (swapped : ∀ t op seen before, e = .go t → s.thread t = .attempt op seen before →
      seen.1 = s.inner.1 →
      P (s.finish t op (seen.1 + 1, op.copy seen.2) (op.returns (op.found seen.2 before)))) :
    P (step s e) := by
  have loads (t : T) (op : Op K V) (found : Option V) :
      P (s.goto t (.attempt op s.inner found)) := by
    refine moves t _ ?_
    rintro op' seen before ⟨⟩
    rfl
  cases e with
  | call t op =>
    cases ht : s.thread t with
    | idle =>
      simp only [step, ht]
      exact moves t _ fun _ _ _ => nofun
    | called op' | vacant key value | attempt op' seen before =>
      simp only [step, ht]
      exact stays
  | go t =>
    cases ht : s.thread t with
    | idle =>
      simp only [step, ht]
      exact stays
    | vacant key value =>
      simp only [step, ht]
      exact loads ..
    | called op =>
      cases op with
      | orInsertWith key value =>
        cases hl : s.inner.2.lookup key with
        | none =>
          simp only [step, ht, hl]
          exact moves t _ fun _ _ _ => nofun
        | some v =>
          simp only [step, ht, hl]
          exact found t key value v hl
      | replace new =>
        simp only [step, ht]
        exact replaced t new
      | insert key value | remove key | retain f =>
        simp only [step, ht]
        exact loads ..
    | attempt op seen before =>
      simp only [step, ht]
      split_ifs with hs
      · exact swapped t op seen before rfl ht hs
      · exact loads ..

/-! ## one after the other -/

def replay (ops : List (Op K V)) : (K → Option V) × List (Option V) :=
  ops.foldl (fun x op => ((op.spec x.1).1, x.2 ++ [(op.spec x.1).2])) (fun _ => none, [])

/-- the log explains what was returned, and what is in the map -/
def Linear (s : Sys K V T) : Prop :=
  replay (s.log.map fst) = (fun k => s.inner.2.lookup k, s.log.map snd)

structure Inv (s : Sys K V T) : Prop where
  linear : Linear s
  seen : ∀ t op seen before, s.thread t = .attempt op seen before →
    seen.1 ≤ s.inner.1 ∧ (seen.1 = s.inner.1 → seen = s.inner)

lemma Inv.goto (h : Inv s) {th : Thread K V}
    (hth : ∀ op seen before, th = .attempt op seen before → seen = s.inner) :
    Inv (s.goto t th) := by
  refine ⟨h.linear, ?_⟩
  intro t' op seen before ha
  by_cases ht : t' = t
  · subst ht
    have hs := hth op seen before ((update_self (f := s.thread) ..).symm.trans ha)
    rw [hs]
    exact ⟨Nat.le_refl _, fun _ => rfl⟩
  · exact h.seen t' op seen before ((update_of_ne ht ..).symm.trans ha)

lemma Inv.finish (h : Inv s) {op : Op K V} {inner : Nat × Assoc K V} {r : Option V}
    (hv : inner = s.inner ∨ s.inner.1 < inner.1)
    (hs : op.spec (fun k => s.inner.2.lookup k) = (fun k => inner.2.lookup k, r)) :
    Inv (s.finish t op inner r) := by
  constructor
  · have hl := h.linear
    unfold Linear replay at hl ⊢
    show foldl _ _ ((s.log ++ [(op, r)]).map fst) = (_, (s.log ++ [(op, r)]).map snd)
    simp only [map_append, map_singleton, foldl_append, hl, foldl_cons,
      foldl_nil, hs]
    rfl
  · intro t' op' seen before ha
    by_cases ht : t' = t
    · subst ht
      cases (update_self t' _ s.thread).symm.trans ha
    · obtain ⟨hle, heq⟩ := h.seen t' op' seen before ((update_of_ne ht ..).symm.trans ha)
      show seen.1 ≤ inner.1 ∧ (seen.1 = inner.1 → seen = inner)
      rcases hv with rfl | hlt
      · exact ⟨hle, heq⟩
      · exact ⟨by omega, by omega⟩

lemma Inv.step (h : Inv s) {e : Event K V T} (hok : timely s e = true) : Inv (step s e) := by
  refine step_cases h (fun t th hth => h.goto hth) ?found ?replaced ?swapped
  case found =>
    intro t key value v hl
    refine h.finish (.inl rfl) ?_
    simp only [Op.spec, hl, getD_some]
    rw [← hl, update_eq_self]
  case replaced => exact fun t new => h.finish (.inr (Nat.lt_succ_self _)) rfl
  case swapped =>
    rintro t op seen before rfl ht hs
    obtain rfl := (h.seen t op seen before ht).2 hs
    simp only [timely, ht, ne_eq, not_true_eq_false, decide_false, Bool.false_or] at hok
    exact h.finish (.inr (Nat.lt_succ_self _)) (op.spec_eq _ _ hok)

/-- **In every run where keys are untouched at swaps, the operations are linearized by their swaps.** -/
theorem linear_of_along {es : List (Event K V T)}
    (h : Run.Along step (fun s e => timely s e = true) (new : Sys K V T) es) :
    Linear (run step new es) := by
  have hnew : Inv (new : Sys K V T) := ⟨rfl, fun _ _ _ _ => nofun⟩
  exact (run_inv (fun _ _ hi hok => hi.step hok) hnew h).linear

/-- two threads insert under one key, and the second one starts over; then it is removed -/
def contended : List (Event Bool Nat Bool) :=
  [.call true (.insert true 1), .call false (.insert true 2), .go true, .go false, .go true,
    .go false, .go false, .call true (.remove true), .go true, .go true]

theorem linear_of_along_contended :
    (run step new contended).log.map snd = [none, none, some 2] ∧
      Linear (run step new contended) :=
  ⟨by decide, linear_of_along (by decide)⟩

/-- both threads load the entry; the first one removes it, and the second one has found it before it
starts over -/
def removals : List (Event Bool Nat Bool) :=
  [.call true (.insert true 1), .go true, .go true, .call true (.remove true),
    .call false (.remove true), .go true, .go false, .go true, .go false, .go false]

/-- both threads find the key vacant -/
def vacancies : List (Event Bool Nat Bool) :=
  [.call true (.orInsertWith true 1), .call false (.orInsertWith true 2), .go true, .go false,
    .go true, .go true, .go false, .go false]

/-- both removals return the value, and both defaults are returned, which no order explains -/
theorem races_not_linear :
    (run step new removals).log.map snd = [none, some 1, some 1] ∧
    (run step new vacancies).log.map snd = [some 1, some 2] ∧
    ∀ s ∈ [run step new removals, run step new vacancies],
      ∀ log ∈ s.log.permutations', (replay (log.map fst)).2 ≠ log.map snd := by
  decide +kernel

/-! ## no change is lost -/

/-- what a map is after an operation that returned `r`: `or_insert_with` leaves what it returns -/
def effect (m : K → Option V) : Op K V × Option V → K → Option V
  | (.orInsertWith key _, r) => update m key r
  | (op, _) => (op.spec m).1

lemma effect_copy (op : Op K V) (inner : Assoc K V) (before : Option V) :
    (fun k => (op.copy inner).lookup k) =
      effect (fun k => inner.lookup k) (op, op.returns (op.found inner before)) := by
  have hspec (op : Op K V) (h : op.untouched inner none = true) :
      (fun k => (op.copy inner).lookup k) = (op.spec fun k => inner.lookup k).1 :=
    (congrArg fst (op.spec_eq inner none h)).symm
  cases op with
  | orInsertWith key value => exact hspec (.insert key value) rfl
  | insert key value | remove key | retain f | replace new => exact hspec _ (by rfl)

/-- with the log of one `replace`, `Inv` is about what the threads have loaded -/
structure Kept (s : Sys K V T) : Prop where
  contents : (fun k => s.inner.2.lookup k) = s.log.foldl effect fun _ => none
  loaded : Inv { s with log := [(.replace s.inner.2, none)] }

lemma Kept.goto (h : Kept s) {th : Thread K V}
    (hth : ∀ op seen before, th = .attempt op seen before → seen = s.inner) :
    Kept (s.goto t th) :=
  ⟨h.contents, h.loaded.goto hth⟩

lemma Kept.finish (h : Kept s) {op : Op K V} {inner : Nat × Assoc K V} {r : Option V}
    (hv : inner = s.inner ∨ s.inner.1 < inner.1)
    (he : (fun k => inner.2.lookup k) = effect (fun k => s.inner.2.lookup k) (op, r)) :
    Kept (s.finish t op inner r) := by
  have hloaded : Inv (Sys.finish { s with log := [(.replace s.inner.2, none)] } t
      (.replace inner.2) inner none) := h.loaded.finish hv rfl
  refine ⟨?_, rfl, hloaded.seen⟩
  show _ = (s.log ++ [(op, r)]).foldl effect _
  rw [foldl_append, ← h.contents]
  exact he

lemma Kept.step (h : Kept s) (e : Event K V T) : Kept (step s e) := by
  refine step_cases h (fun t th hth => h.goto hth) ?found ?replaced ?swapped
  case found =>
    intro t key value v hl
    refine h.finish (.inl rfl) ?_
    rw [effect, ← hl, update_eq_self]
  case replaced => exact fun t new => h.finish (.inr (Nat.lt_succ_self _)) rfl
  case swapped =>
    intro t op seen before _ ht hs
    obtain rfl := (h.loaded.seen t op seen before ht).2 hs
    exact h.finish (.inr (Nat.lt_succ_self _)) (effect_copy op _ before)

/-- **In every run the map is what its operations make of it one after the other, in the order of
their swaps, and `or_insert_with` has returned what was in the map right after it.** -/
theorem lookup_run (es : List (Event K V T)) (key : K) :
    (run step (new : Sys K V T) es).inner.2.lookup key =
      (run step (new : Sys K V T) es).log.foldl effect (fun _ => none) key := by
  have hnew : Kept (new : Sys K V T) := ⟨rfl, rfl, fun _ _ _ _ => nofun⟩
  have hrun : Kept (run step (new : Sys K V T) es) := run_keeps (fun _ e h => h.step e) hnew es
  exact congrFun hrun.contents key

end FrimMap
end Netom
