import Netom.Lib.Run

/-!
# Tasks that take atomic steps on a shared state

A task works on a message by a program of atomic steps.  Between two steps of one task the other
tasks and the environment may take theirs.

* `Prog σ ι α`  a program of steps on `σ`; `ι` is an input that decides what a step leaves open;
* `Prog.Runs`  a program that runs with nobody in between, `Prog.exec` such a run;
* `Prog.Returns`  what a program may return, whoever comes in between;
* `Sys.step`  tasks that take turns; `recv_alone` is a message that nobody interrupts;
* `Discipline`  what the shares of tasks say of the state, and when two are apart;
* `Prog.Keeps`  a program whose steps no other task can notice;
* `Sys.run_inv`  tasks with such programs keep their shares.
-/

namespace Atomic
open Function Run

/-- what a step leaves of the state, and what comes next -/
inductive Prog (σ ι α : Type) where
  | ret (a : α)
  | step (upd : ι → σ → σ) (next : ι → σ → Prog σ ι α)

namespace Prog
variable {σ ι α β γ : Type}

def bind : Prog σ ι α → (α → Prog σ ι β) → Prog σ ι β
  | .ret a, k => k a
  | .step upd next, k => .step upd fun i s => (next i s).bind k

/-- one step that returns something -/
def call (f : ι → σ → α × σ) : Prog σ ι α :=
  .step (fun i s => (f i s).2) fun i s => .ret (f i s).1

/-! ## nobody in between -/

section runs
variable (ok : σ → Prop)

/-- the program returns `a` and leaves `s'`, for some inputs, and every state after a step is `ok` -/
inductive Runs : Prog σ ι α → σ → α → σ → Prop
  | ret (a : α) (s : σ) : Runs (.ret a) s a s
  | step {upd : ι → σ → σ} {next : ι → σ → Prog σ ι α} {s s' : σ} {a : α} (i : ι)
      (hok : ok (upd i s)) (h : Runs (next i s) (upd i s) a s') : Runs (.step upd next) s a s'

variable {ok}

lemma runs_ret_iff {a b : α} {s s' : σ} :
    Runs ok (.ret a : Prog σ ι α) s b s' ↔ b = a ∧ s' = s := by
  constructor
  · intro h
    cases h
    exact ⟨rfl, rfl⟩
  · intro h
    rw [h.1, h.2]
    exact .ret a s

variable {p : Prog σ ι α}

lemma runs_bind_iff {k : α → Prog σ ι β} {s s' : σ} {b : β} :
    Runs ok (p.bind k) s b s' ↔ ∃ a t, Runs ok p s a t ∧ Runs ok (k a) t b s' := by
  induction p generalizing s with
  | ret a =>
    constructor
    · intro h
      exact ⟨a, s, .ret a s, h⟩
    · intro h
      obtain ⟨a', t, ha, hk⟩ := h
      obtain ⟨rfl, rfl⟩ := runs_ret_iff.mp ha
      exact hk
  | step upd next ih =>
    constructor
    · intro h
      cases h with
      | step i hok h =>
        obtain ⟨a, t, ha, hk⟩ := (ih i s).mp h
        exact ⟨a, t, .step i hok ha, hk⟩
    · intro h
      obtain ⟨a, t, ha, hk⟩ := h
      cases ha with
      | step i hok ha => exact .step i hok ((ih i s).mpr ⟨a, t, ha, hk⟩)

lemma runs_call_iff {f : ι → σ → α × σ} {s s' : σ} {a : α} :
    Runs ok (call f) s a s' ↔ ok s' ∧ ∃ i, f i s = (a, s') := by
  constructor
  · intro h
    cases h with
    | step i hok h =>
      obtain ⟨ha, hs⟩ := runs_ret_iff.mp h
      rw [hs]
      exact ⟨hok, i, by rw [ha]⟩
  · intro h
    obtain ⟨hok, i, hi⟩ := h
    refine .step i ?_ ?_
    · rw [hi]
      exact hok
    · rw [hi]
      exact .ret a s'

lemma Runs.ok_last {s s' : σ} {a : α} (hs : ok s) (h : Runs ok p s a s') : ok s' := by
  induction h with
  | ret a s => exact hs
  | step i hok h ih => exact ih hok

/-- the run where each step has the input `i` -/
def exec (i : ι) : Prog σ ι α → σ → α × σ
  | .ret a, s => (a, s)
  | .step upd next, s => (next i s).exec i (upd i s)

/-- every state of that run is `ok` -/
def Along (ok : σ → Prop) (i : ι) : Prog σ ι α → σ → Prop
  | .ret _, _ => True
  | .step upd next, s => ok (upd i s) ∧ (next i s).Along ok i (upd i s)

lemma runs_exec {i : ι} {s : σ} (h : p.Along ok i s) :
    Runs ok p s (p.exec i s).1 (p.exec i s).2 := by
  induction p generalizing s with
  | ret a => exact .ret a s
  | step upd next ih => exact .step i h.1 (ih i s h.2)

end runs

/-! ## anybody in between -/

/-- the program may return `a`: each step may find any state -/
inductive Returns : Prog σ ι α → α → Prop
  | ret (a : α) : Returns (.ret a) a
  | step {upd : ι → σ → σ} {next : ι → σ → Prog σ ι α} {a : α} (i : ι) (s : σ)
      (h : Returns (next i s) a) : Returns (.step upd next) a

lemma returns_ret_iff {a b : α} : Returns (.ret a : Prog σ ι α) b ↔ b = a := by
  constructor
  · intro h
    cases h
    rfl
  · intro h
    rw [h]
    exact .ret a

lemma returns_bind_iff {p : Prog σ ι α} {k : α → Prog σ ι β} {b : β} :
    Returns (p.bind k) b ↔ ∃ a, Returns p a ∧ Returns (k a) b := by
  induction p with
  | ret a =>
    constructor
    · intro h
      exact ⟨a, .ret a, h⟩
    · intro h
      obtain ⟨a', ha, hk⟩ := h
      rw [returns_ret_iff.mp ha] at hk
      exact hk
  | step upd next ih =>
    constructor
    · intro h
      cases h with
      | step i s h =>
        obtain ⟨a, ha, hk⟩ := (ih i s).mp h
        exact ⟨a, .step i s ha, hk⟩
    · intro h
      obtain ⟨a, ha, hk⟩ := h
      cases ha with
      | step i s ha => exact .step i s ((ih i s).mpr ⟨a, ha, hk⟩)

lemma returns_exec (i : ι) (p : Prog σ ι α) (s : σ) : Returns p (p.exec i s).1 := by
  induction p generalizing s with
  | ret a => exact .ret a
  | step upd next ih => exact .step i s (ih i s (upd i s))

end Prog

/-! ## taking turns -/

/-- a task rests, or works on a message; `l` is what it holds on to meanwhile -/
inductive Task (σ ι L : Type) where
  | idle (l : L)
  | busy (l : L) (p : Prog σ ι L)

namespace Task
variable {σ ι L : Type}

/-- what the task holds on to -/
def kept : Task σ ι L → L
  | .idle l => l
  | .busy l _ => l

/-- a program with nothing left to do is over -/
def settle (l : L) : Prog σ ι L → Task σ ι L
  | .ret l' => .idle l'
  | .step upd next => .busy l (.step upd next)

end Task

structure Sys (T σ ι L : Type) where
  shared : σ
  task : T → Task σ ι L

inductive Event (T ι M E : Type) where
  | recv (t : T) (m : M)
  | go (t : T) (i : ι)
  | env (e : E)

section sys
variable {T σ ι L M E : Type} [DecidableEq T]
  (start : L → M → L × Prog σ ι L) (drift : E → σ → σ)

namespace Sys

def step (s : Sys T σ ι L) : Event T ι M E → Sys T σ ι L
  | .recv t m =>
    match s.task t with
    | .idle l => { s with
        task := update s.task t (Task.settle (start l m).1 (start l m).2) }
    | .busy _ _ => s
  | .go t i =>
    match s.task t with
    | .busy l (.step upd next) =>
      ⟨upd i s.shared, update s.task t (Task.settle l (next i s.shared))⟩
    | _ => s
  | .env e => { s with shared := drift e s.shared }

variable {start drift} {s : Sys T σ ι L} {t : T}

variable {l : L}

lemma step_recv (h : s.task t = .idle l) (m : M) : s.step start drift (.recv t m) = { s with
      task := update s.task t (Task.settle (start l m).1 (start l m).2) } := by
  simp only [step, h]

lemma step_go {upd : ι → σ → σ} {next : ι → σ → Prog σ ι L}
    (h : s.task t = .busy l (.step upd next)) (i : ι) : s.step start drift (.go t i) =
      ⟨upd i s.shared, update s.task t (Task.settle l (next i s.shared))⟩ := by
  simp only [step, h]

lemma go_alone {ok : σ → Prop} {p : Prog σ ι L} {l' : L} {s' : σ} (hr : p.Runs ok s.shared l' s')
    (hk : s.task t = Task.settle l p) :
    ∃ is : List ι, run (step start drift) s (is.map (Event.go t)) =
      (⟨s', update s.task t (.idle l')⟩ : Sys T σ ι L) := by
  generalize hσ : s.shared = σ₀ at hr
  induction hr generalizing s with
  | ret a s₀ =>
    refine ⟨[], ?_⟩
    have htask : update s.task t (.idle a) = s.task := by
      rw [update_eq_self_iff]
      exact hk.symm
    rw [htask, ← hσ]
    rfl
  | @step upd next s₀ s₁ a i _ hr ih =>
    have hgo : s.step start drift (.go t i) =
        ⟨upd i s₀, update s.task t (Task.settle l (next i s₀))⟩ := by
      rw [← hσ]
      exact step_go hk i
    obtain ⟨is, his⟩ := ih (s := s.step start drift (.go t i)) (by rw [hgo]; simp) (by rw [hgo])
    refine ⟨i :: is, ?_⟩
    rw [List.map_cons, run_cons, his, hgo]
    simp only [update_idem]

lemma recv_alone {ok : σ → Prop} {m : M} {l' : L} {s' : σ}
    (hr : (start l m).2.Runs ok s.shared l' s') (hk : s.task t = .idle l) :
    ∃ is : List ι, run (step start drift) s (.recv t m :: is.map (Event.go t)) =
      (⟨s', update s.task t (.idle l')⟩ : Sys T σ ι L) := by
  have hrecv : s.step start drift (.recv t m) = { s with
      task := update s.task t (Task.settle (start l m).1 (start l m).2) } :=
    step_recv hk m
  obtain ⟨is, his⟩ := go_alone (s := s.step start drift (.recv t m)) (t := t) (l := (start l m).1)
    (by rw [hrecv]; exact hr) (by rw [hrecv]; simp)
  refine ⟨is, ?_⟩
  rw [run_cons, his, hrecv]
  simp only [update_idem]

end Sys

end sys

/-! ## shares of the state -/

/-- each task has a share `g` of the state; `Holds g s` is what it knows of the state by it -/
structure Discipline (σ G : Type) where
  Holds : G → σ → Prop
  Apart : G → G → Prop
  Fits : σ → Prop
  symm : ∀ {g h}, Apart g h → Apart h g

/-- a step that turns the share `g` into `g'` and that no other task can notice: what the others
know stays true, and nothing is taken from them -/
def Discipline.Moves {σ G : Type} (D : Discipline σ G) (g : G) (s : σ) (g' : G) (s' : σ) : Prop :=
  D.Holds g' s' ∧ ∀ h, D.Apart g h → D.Holds h s → D.Holds h s' ∧ D.Apart g' h

lemma Discipline.Moves.trans {σ G : Type} {D : Discipline σ G} {g g' g'' : G} {s s' s'' : σ}
    (h : D.Moves g s g' s') (h' : D.Moves g' s' g'' s'') : D.Moves g s g'' s'' := by
  refine ⟨h'.1, ?_⟩
  intro k hap hk
  obtain ⟨hk', hap'⟩ := h.2 k hap hk
  exact h'.2 k hap' hk'

namespace Prog
variable {σ ι α β G : Type} (D : Discipline σ G) (inv : G → Prop)

/-- every step is such a step, as long as the state fits; `inv` holds of the share before each, and
`post` at the end -/
def Keeps (post : α → G → Prop) : Prog σ ι α → G → Prop
  | .ret a, g => post a g
  | .step upd next, g => inv g ∧ ∀ i s, D.Fits (upd i s) → D.Holds g s →
      ∃ g', D.Moves g s g' (upd i s) ∧ Keeps post (next i s) g'

variable {D inv}

variable {p : Prog σ ι α} {post : α → G → Prop}

lemma Keeps.mono {post' : α → G → Prop} (h : ∀ a g, post a g → post' a g) {g : G}
    (hp : p.Keeps D inv post g) : p.Keeps D inv post' g := by
  induction p generalizing g with
  | ret a => exact h a g hp
  | step upd next ih =>
    refine ⟨hp.1, ?_⟩
    intro i s hf hs
    obtain ⟨g', hm, hn⟩ := hp.2 i s hf hs
    exact ⟨g', hm, ih i s hn⟩

lemma Keeps.bind {post : β → G → Prop} {k : α → Prog σ ι β} {g : G}
    (h : p.Keeps D inv (fun a g => (k a).Keeps D inv post g) g) :
    (p.bind k).Keeps D inv post g := by
  induction p generalizing g with
  | ret a => exact h
  | step upd next ih =>
    refine ⟨h.1, ?_⟩
    intro i s hf hs
    obtain ⟨g', hm, hn⟩ := h.2 i s hf hs
    exact ⟨g', hm, ih i s hn⟩

lemma Keeps.runs {g : G} {s s' : σ} {a : α} (hp : p.Keeps D inv post g) (hs : D.Holds g s)
    (hr : p.Runs D.Fits s a s') : ∃ g', D.Holds g' s' ∧ post a g' := by
  induction hr generalizing g with
  | ret a s => exact ⟨g, hs, hp⟩
  | @step upd next s s' a i hok hr ih =>
    obtain ⟨g', hm, hn⟩ := hp.2 i s hok hs
    exact ih hn hm.1

lemma Keeps.call {f : ι → σ → α × σ} {g : G} (hi : inv g)
    (h : ∀ i s, D.Fits (f i s).2 → D.Holds g s → ∃ g', D.Moves g s g' (f i s).2 ∧ post (f i s).1 g')
    : (Prog.call f).Keeps D inv post g :=
  ⟨hi, h⟩

lemma Keeps.read {f : ι → σ → α} {g : G} (hi : inv g)
    (h : ∀ i s, D.Holds g s → post (f i s) g) :
    (Prog.call fun i s => (f i s, s) : Prog σ ι α).Keeps D inv post g :=
  .call hi fun i s _ hs => ⟨g, ⟨hs, fun _ ha hh => ⟨hh, ha⟩⟩, h i s hs⟩

end Prog

namespace Sys
variable {T σ ι L M E G : Type} (D : Discipline σ G) (Ok : L → G → Prop)

def TaskOk (g : G) : Task σ ι L → Prop
  | .idle l => Ok l g
  | .busy l p => Ok l g ∧ p.Keeps D (Ok l) Ok g

/-- the shares of the tasks are apart, and each task has what it needs -/
structure Inv (s : Sys T σ ι L) (share : T → G) : Prop where
  holds : ∀ t, D.Holds (share t) s.shared
  apart : ∀ t t', t ≠ t' → D.Apart (share t) (share t')
  task : ∀ t, TaskOk D Ok (share t) (s.task t)

variable {D Ok}

variable {p : Prog σ ι L}

lemma taskOk_settle {l : L} {g : G} (hp : p.Keeps D (Ok l) Ok g) :
    TaskOk D Ok g (Task.settle l p) := by
  cases p with
  | ret l' => exact hp
  | step upd next => exact ⟨hp.1, hp⟩

variable {s : Sys T σ ι L}

lemma Inv.ok {share : T → G} (h : Inv D Ok s share) (t : T) :
    Ok (s.task t).kept (share t) := by
  have ht := h.task t
  cases hk : s.task t with
  | idle l =>
    rw [hk] at ht
    exact ht
  | busy l p =>
    rw [hk] at ht
    exact ht.1

variable [DecidableEq T]

lemma Inv.settle {share : T → G} (h : Inv D Ok s share) {t : T} {l : L}
    (hp : p.Keeps D (Ok l) Ok (share t)) :
    Inv D Ok { s with task := update s.task t (Task.settle l p) } share := by
  refine ⟨h.holds, h.apart, ?_⟩
  intro t'
  by_cases heq : t' = t
  · subst heq
    show TaskOk D Ok (share t') (update s.task t' _ t')
    rw [update_self]
    exact taskOk_settle hp
  · show TaskOk D Ok (share t') (update s.task t _ t')
    rw [update_of_ne heq]
    exact h.task t'

/-- one task takes a step that the others cannot notice -/
lemma Inv.move {share : T → G} (h : Inv D Ok s share) {t : T} {l : L} {g' : G}
    {s' : σ} (hm : D.Moves (share t) s.shared g' s') (hp : p.Keeps D (Ok l) Ok g') :
    Inv D Ok ⟨s', update s.task t (Task.settle l p)⟩ (update share t g') := by
  have hframe : ∀ t', t' ≠ t → D.Holds (share t') s' ∧ D.Apart g' (share t') := by
    intro t' heq
    exact hm.2 (share t') (h.apart t t' (Ne.symm heq)) (h.holds t')
  refine ⟨?_, ?_, ?_⟩
  · intro t'
    by_cases heq : t' = t
    · rw [heq, update_self]
      exact hm.1
    · rw [update_of_ne heq]
      exact (hframe t' heq).1
  · intro t₁ t₂ hne
    by_cases h1 : t₁ = t
    · have h2 : t₂ ≠ t := fun h2 => hne (h1.trans h2.symm)
      rw [h1, update_self, update_of_ne h2]
      exact (hframe t₂ h2).2
    · by_cases h2 : t₂ = t
      · rw [h2, update_self, update_of_ne h1]
        exact D.symm (hframe t₁ h1).2
      · rw [update_of_ne h1, update_of_ne h2]
        exact h.apart t₁ t₂ hne
  · intro t'
    by_cases heq : t' = t
    · subst heq
      show TaskOk D Ok (update share t' g' t') (update s.task t' _ t')
      rw [update_self, update_self]
      exact taskOk_settle hp
    · show TaskOk D Ok (update share t g' t') (update s.task t _ t')
      rw [update_of_ne heq, update_of_ne heq]
      exact h.task t'

section run
variable {start : L → M → L × Prog σ ι L} {drift : E → σ → σ}
  (hstart : ∀ l m g, Ok l g → (start l m).2.Keeps D (Ok (start l m).1) Ok g)
  (hdrift : ∀ e g s, D.Holds g s → D.Holds g (drift e s))
include hstart hdrift

lemma inv_step {share : T → G} (h : Inv D Ok s share) {e : Event T ι M E}
    (hf : D.Fits (s.step start drift e).shared) :
    ∃ share', Inv D Ok (s.step start drift e) share' := by
  cases e with
  | recv t m =>
    have ht := h.task t
    cases hk : s.task t with
    | busy l p =>
      simp only [step, hk]
      exact ⟨share, h⟩
    | idle l =>
      rw [hk] at ht
      rw [step_recv hk]
      exact ⟨share, h.settle (hstart l m _ ht)⟩
  | go t i =>
    have ht := h.task t
    cases hk : s.task t with
    | idle l =>
      simp only [step, hk]
      exact ⟨share, h⟩
    | busy l p =>
      rw [hk] at ht
      cases p with
      | ret l' =>
        simp only [step, hk]
        exact ⟨share, h⟩
      | step upd next =>
        rw [step_go hk] at hf ⊢
        obtain ⟨g', hm, hn⟩ := ht.2.2 i s.shared hf (h.holds t)
        exact ⟨_, h.move hm hn⟩
  | env e =>
    refine ⟨share, ?_, h.apart, h.task⟩
    intro t
    exact hdrift e _ _ (h.holds t)

/-- **Tasks whose programs keep to their shares keep their shares**, however they take turns. -/
theorem run_inv {s : Sys T σ ι L} {share : T → G} (h : Inv D Ok s share)
    {es : List (Event T ι M E)}
    (hf : Run.Along (step start drift) (fun s e => D.Fits (s.step start drift e).shared) s es) :
    ∃ share', Inv D Ok (run (step start drift) s es) share' := by
  have hstep : ∀ (s : Sys T σ ι L) (e : Event T ι M E), (∃ share, Inv D Ok s share) →
      D.Fits (s.step start drift e).shared →
      ∃ share', Inv D Ok (s.step start drift e) share' := by
    intro s e hi hok
    obtain ⟨share, hi⟩ := hi
    exact inv_step hstart hdrift hi hok
  exact Run.run_inv hstep ⟨share, h⟩ hf

end run

end Sys

end Atomic
