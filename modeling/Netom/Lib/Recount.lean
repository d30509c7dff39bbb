import Netom.Lib.Run

/-!
# Counters that writers adjust and a recount overwrites

Any number of threads share a store and, for each class of its contents, a counter.  A writer
changes the store and adjusts the counters by what it changed.  A bulk writer does not: it recounts
afterwards.  A recount reads the store piece by piece while others write, and overwrites the
counters.  It is guarded by the number of active writers and by a generation number that every
writer advances when it ends: if either has moved, the recount starts again.

How writers exclude each other is left to the `Spec`.  Every read and write of a shared variable is
one step.

* `Spec`, `Laws`  the writers, and what they keep of the counters;
* `Sys.step`  one step of one thread;
* `Inv`  who may have left the counters wrong, and will recount;
* `quiescent`  **once no thread is at work the counters are right**.
-/

set_option linter.unusedSectionVars false

namespace Recount
open Function Finset Run
variable {T F K S W E : Type} [DecidableEq T] [DecidableEq F]

/-- where a recount is; `g` is the generation it started from -/
inductive Pc (F K : Type) where
  | start
  | loadGeneration
  | confirm (g : Nat)
  | scan (g : Nat) (todo : List K) (acc : F → Nat)
  | checkWriters (g : Nat) (vals : F → Nat)
  | checkGeneration (g : Nat) (vals : F → Nat)
  | setting (g : Nat) (vals : F → Nat) (todo : List F)
  | recheck (g : Nat)

/-- a writer has ended but for its count among the active writers when it is `bumped` -/
inductive Thread (F K W : Type) where
  | idle
  | writing (w : W)
  | bumped (w : W)
  | recounting (pc : Pc F K)

structure Sys (T F K S W : Type) where
  store : S
  counts : F → Nat
  activeWriters : Nat
  generation : Nat
  thread : T → Thread F K W

/-- A store that is read key by key, and its writers.  A writer begins if it gets its locks, and
acts, unless it has to wait, until it is finished. -/
structure Spec (T F K S W E : Type) where
  keys : S → List K
  part : S → K → F → Nat
  families : List F
  bulk : W → Bool
  finished : W → Bool
  acquire : S → T → W → Option S
  release : S → T → W → S
  act : S → (F → Nat) → T → W → E → Option (S × (F → Nat) × W)

inductive Input (W E : Type) where
  | begin (w : W)
  | recount
  | go (e : E)

variable (sp : Spec T F K S W E)

/-- what a complete scan adds up -/
def Spec.total (st : S) (f : F) : Nat := ((sp.keys st).map fun k => sp.part st k f).sum

def Sys.setThread (s : Sys T F K S W) (t : T) (th : Thread F K W) : Sys T F K S W :=
  { s with thread := update s.thread t th }

def Sys.stepRecount (s : Sys T F K S W) (t : T) : Pc F K → Sys T F K S W
  | .start => if s.activeWriters = 0 then s.setThread t (.recounting .loadGeneration) else s
  | .loadGeneration => s.setThread t (.recounting (.confirm s.generation))
  | .confirm g =>
    if s.activeWriters = 0 then
      s.setThread t (.recounting (.scan g (sp.keys s.store) fun _ => 0))
    else s.setThread t (.recounting .start)
  | .scan g [] acc => s.setThread t (.recounting (.checkWriters g acc))
  | .scan g (k :: todo) acc =>
    s.setThread t (.recounting (.scan g todo fun f => acc f + sp.part s.store k f))
  | .checkWriters g vals =>
    if s.activeWriters = 0 then s.setThread t (.recounting (.checkGeneration g vals))
    else s.setThread t (.recounting .start)
  | .checkGeneration g vals =>
    if s.generation = g then s.setThread t (.recounting (.setting g vals sp.families))
    else s.setThread t (.recounting .start)
  | .setting g vals (f :: todo) =>
    { s.setThread t (.recounting (.setting g vals todo)) with
      counts := update s.counts f (vals f) }
  | .setting g _ [] =>
    if s.activeWriters = 0 then s.setThread t (.recounting (.recheck g))
    else s.setThread t (.recounting .start)
  | .recheck g =>
    if s.generation = g then s.setThread t .idle else s.setThread t (.recounting .start)

def Sys.stepWriter (s : Sys T F K S W) (t : T) (w : W) (e : E) : Sys T F K S W :=
  if sp.finished w then
    { s.setThread t (.bumped w) with generation := s.generation + 1 }
  else
    match sp.act s.store s.counts t w e with
    | some (store, counts, w) =>
      { s.setThread t (.writing w) with store := store, counts := counts }
    | none => s

def Sys.step (s : Sys T F K S W) (e : T × Input W E) : Sys T F K S W :=
  match s.thread e.1, e.2 with
  | .idle, .begin w =>
    match sp.acquire s.store e.1 w with
    | some store =>
      { s.setThread e.1 (.writing w) with
        store := store, activeWriters := s.activeWriters + 1 }
    | none => s
  | .idle, .recount => s.setThread e.1 (.recounting .start)
  | .writing w, .go i => s.stepWriter sp e.1 w i
  | .bumped w, .go _ =>
    { s.setThread e.1 (if sp.bulk w then .recounting .start else .idle) with
      store := sp.release s.store e.1 w, activeWriters := s.activeWriters - 1 }
  | .recounting pc, .go _ => s.stepRecount sp e.1 pc
  | _, _ => s

/-! ## what the writers keep -/

def Thread.writer : Thread F K W → Option W
  | .writing w => some w
  | .bumped w => some w
  | _ => none

/-- the writers at work -/
def Sys.writers (s : Sys T F K S W) : T → Option W := fun t => (s.thread t).writer

def NoBulk (ws : T → Option W) : Prop := ∀ t w, ws t = some w → sp.bulk w = false

/-- `exact f store counts ws`: the counter of `f` is right but for what the writers `ws` still owe.
The writers keep it as long as no bulk writer is at work and they act as `ok` allows. -/
structure Laws (exact : F → S → (F → Nat) → (T → Option W) → Prop)
    (ok : S → T → W → E → Prop) : Prop where
  mem_families : ∀ f, f ∈ sp.families
  none : ∀ {f st c ws}, (∀ t, ws t = none) → (exact f st c ws ↔ c f = sp.total st f)
  acquire : ∀ {f st c ws t w st'}, exact f st c ws → NoBulk sp ws → ws t = .none →
    sp.bulk w = false → sp.acquire st t w = some st' →
    exact f st' c (update ws t (some w))
  act : ∀ {f st c ws t w e st' c' w'}, exact f st c ws → NoBulk sp ws → ws t = some w →
    sp.bulk w = false → ok st t w e → sp.act st c t w e = some (st', c', w') →
    exact f st' c' (update ws t (some w'))
  release : ∀ {f st c ws t w}, exact f st c ws → NoBulk sp ws → ws t = some w →
    sp.bulk w = false → sp.finished w = true →
    exact f (sp.release st t w) c (update ws t .none)
  bulk_act : ∀ {st c t w e st' c' w'}, sp.act st c t w e = some (st', c', w') →
    sp.bulk w' = sp.bulk w

/-! ## the invariant -/

/-- the generation a recount has read -/
def Pc.generation : Pc F K → Option Nat
  | .start | .loadGeneration => none
  | .confirm g | .scan g _ _ | .checkWriters g _ | .checkGeneration g _ | .setting g _ _
  | .recheck g => some g

/-- the generation at which it has found no writer -/
def Thread.confirmed : Thread F K W → Option Nat
  | .recounting (.confirm _) => none
  | .recounting pc => pc.generation
  | _ => none

/-- what the recount has added up is right, for the store as it is -/
def Pc.Right (st : S) : Pc F K → Prop
  | .scan _ todo acc => ∀ f, acc f + (todo.map fun k => sp.part st k f).sum = sp.total st f
  | .checkWriters _ vals | .checkGeneration _ vals | .setting _ vals _ =>
    ∀ f, vals f = sp.total st f
  | _ => True

/-- what holds of each thread by itself -/
def Thread.Sane (st : S) (generation activeWriters : Nat) : Thread F K W → Prop
  | .bumped w => sp.finished w = true
  | .recounting pc => (∀ g, pc.generation = some g → g ≤ generation) ∧
      ((Thread.recounting pc : Thread F K W).confirmed = some generation → activeWriters = 0 →
        pc.Right sp st)
  | _ => True

/-- the thread may have left the counter of `f` wrong, and will yet recount it -/
def Thread.Dirty (f : F) (generation activeWriters : Nat) : Thread F K W → Prop
  | .idle => False
  | .writing w | .bumped w => sp.bulk w = true
  | .recounting (.setting g _ todo) => f ∈ todo ∨ generation ≠ g ∨ activeWriters ≠ 0
  | .recounting (.recheck g) => generation ≠ g
  | .recounting _ => True

structure Inv (exact : F → S → (F → Nat) → (T → Option W) → Prop) (s : Sys T F K S W) :
    Prop where
  writers : ∃ ws : Finset T, (∀ t, t ∈ ws ↔ (s.writers t).isSome) ∧ ws.card = s.activeWriters
  sane : ∀ t, (s.thread t).Sane sp s.store s.generation s.activeWriters
  /-- a recount that found no writer has seen the last of the writers of its generation -/
  no_bumped : ∀ t t' w, (s.thread t).confirmed = some s.generation → s.thread t' ≠ .bumped w
  exact : ∀ f, (∀ t, ¬ (s.thread t).Dirty sp f s.generation s.activeWriters) →
    exact f s.store s.counts s.writers

variable {sp} {exact : F → S → (F → Nat) → (T → Option W) → Prop} {ok : S → T → W → E → Prop}
variable {s : Sys T F K S W} {t : T}

lemma Inv.writer_none (h : Inv sp exact s) (ha : s.activeWriters = 0) (t : T) :
    s.writers t = none := by
  obtain ⟨ws, hmem, hcard⟩ := h.writers
  rw [ha, card_eq_zero] at hcard
  have hn : ¬ (s.writers t).isSome := by
    rw [← hmem t, hcard]
    exact notMem_empty t
  exact Option.not_isSome_iff_eq_none.mp hn

lemma Inv.activeWriters_ne_zero (h : Inv sp exact s) {w : W} (hw : s.writers t = some w) :
    s.activeWriters ≠ 0 := by
  intro ha
  rw [h.writer_none ha t] at hw
  cases hw

lemma noBulk {f : F} (hd : ∀ t, ¬ (s.thread t).Dirty sp f s.generation s.activeWriters) :
    NoBulk sp s.writers := by
  intro t w hw
  have hdt := hd t
  unfold Sys.writers at hw
  generalize s.thread t = th at hw hdt
  cases th with
  | idle | recounting pc => cases hw
  | writing w' | bumped w' =>
    cases hw
    exact Bool.not_eq_true _ |>.mp hdt

lemma writers_setThread (s : Sys T F K S W) (t : T) (th : Thread F K W) :
    (s.setThread t th).writers = update s.writers t th.writer := by
  funext t'
  show (update s.thread t th t').writer = _
  by_cases ht : t' = t
  · subst ht
    rw [update_self, update_self]
  · rw [update_of_ne ht, update_of_ne ht]
    rfl

variable {th : Thread F K W}

lemma writers_setThread_same (h : (s.thread t).writer = th.writer) :
    (s.setThread t th).writers = s.writers := by
  rw [writers_setThread, ← h]
  exact update_eq_self t s.writers

lemma sane_start (st : S) (g a : Nat) :
    (.recounting .start : Thread F K W).Sane sp st g a := by
  constructor
  · intro g₀ h₀
    cases h₀
  · intro hc
    cases hc

/-! ## what the others see of a writer's step -/

variable {a g : Nat}

/-- nothing that a recount has added up counts any more -/
lemma Thread.Sane.of_moved {st st' : S} {g' a' : Nat} (h : th.Sane sp st g a) (hg : g ≤ g')
    (hm : th.confirmed = some g' → a' ≠ 0) : th.Sane sp st' g' a' := by
  cases th with
  | idle | writing w => trivial
  | bumped w => exact h
  | recounting pc =>
    obtain ⟨hle, -⟩ := h
    refine ⟨fun g₀ h₀ => Nat.le_trans (hle g₀ h₀) hg, ?_⟩
    intro hc ha
    exact absurd ha (hm hc)

/-- a thread that is clean after a move of the guard was clean before it -/
lemma Thread.not_dirty_of_moved {f : F} {g' a' : Nat}
    (hm : th.confirmed = some g' → a' = 0 → g = g' ∧ a = 0)
    (hr : ∀ g₀, th = .recounting (.recheck g₀) → g' = g₀ → g = g₀) (h : ¬ th.Dirty sp f g' a') :
    ¬ th.Dirty sp f g a := by
  cases th with
  | idle => exact id
  | writing w | bumped w => exact h
  | recounting pc =>
    cases pc with
    | setting g₀ vals todo =>
      intro hd
      by_cases hg : g' = g₀
      · by_cases ha : a' = 0
        · subst hg
          obtain ⟨h1, h2⟩ := hm rfl ha
          rcases hd with hd | hd | hd
          · exact h (.inl hd)
          · exact hd h1
          · exact hd h2
        · exact h (.inr (.inr ha))
      · exact h (.inr (.inl hg))
    | recheck g₀ =>
      intro hd
      by_cases hg : g' = g₀
      · exact hd (hr g₀ rfl hg)
      · exact h hg
    | start | loadGeneration | confirm g₀ | scan g₀ todo acc | checkWriters g₀ vals
    | checkGeneration g₀ vals => exact absurd trivial h

/-! ## writers -/

lemma Inv.no_bumped_of_ne (h : Inv sp exact s)
    (hth : th.confirmed = some g → ∀ t' w, s.thread t' ≠ .bumped w)
    (hb : ∀ w, th = .bumped w → ∀ t', t' ≠ t → (s.thread t').confirmed ≠ some g)
    (hold : ∀ t', t' ≠ t → (s.thread t').confirmed = some g → g = s.generation)
    (hself : ∀ w, th = .bumped w → th.confirmed ≠ some g) (t₁ t₂ : T) (w : W)
    (hc : (update s.thread t th t₁).confirmed = some g) :
    update s.thread t th t₂ ≠ .bumped w := by
  by_cases h2 : t₂ = t
  · subst h2
    rw [update_self]
    intro heq
    by_cases h1 : t₁ = t₂
    · subst h1
      rw [update_self] at hc
      exact hself w heq hc
    · rw [update_of_ne h1] at hc
      exact hb w heq t₁ h1 hc
  · rw [update_of_ne h2]
    by_cases h1 : t₁ = t
    · subst h1
      rw [update_self] at hc
      exact hth hc t₂ w
    · rw [update_of_ne h1] at hc
      have hgen := hold t₁ h1 hc
      rw [hgen] at hc
      exact h.no_bumped t₁ t₂ w hc

/-- a step that does not end a writer, at the same generation -/
lemma Inv.no_bumped_of_not (h : Inv sp exact s) (hnb : ∀ w, th ≠ .bumped w)
    (hth : th.confirmed = some s.generation → ∀ t' w, s.thread t' ≠ .bumped w) (t₁ t₂ : T) (w : W)
    (hc : (update s.thread t th t₁).confirmed = some s.generation) :
    update s.thread t th t₂ ≠ .bumped w :=
  h.no_bumped_of_ne hth (fun w hw => absurd hw (hnb w)) (fun _ _ _ => rfl)
    (fun w hw => absurd hw (hnb w)) t₁ t₂ w hc

/-- the threads are as sane as the one that moved and the others after the move -/
lemma sane_update {st : S} (hth : th.Sane sp st g a)
    (hold : ∀ t', t' ≠ t → (s.thread t').Sane sp st g a) (t' : T) :
    (update s.thread t th t').Sane sp st g a := by
  by_cases ht : t' = t
  · subst ht
    rwa [update_self]
  · rw [update_of_ne ht]
    exact hold t' ht

/-- the threads are clean where the one that moved and the others were -/
lemma clean_of_update {f : F} {g' a' : Nat}
    (hd : ∀ t', ¬ (update s.thread t th t').Dirty sp f g' a')
    (hth : ¬ th.Dirty sp f g' a' → ¬ (s.thread t).Dirty sp f g a)
    (hold : ∀ t', t' ≠ t → ¬ (s.thread t').Dirty sp f g' a' → ¬ (s.thread t').Dirty sp f g a)
    (t' : T) : ¬ (s.thread t').Dirty sp f g a := by
  have hdt := hd t'
  by_cases ht : t' = t
  · subst ht
    rw [update_self] at hdt
    exact hth hdt
  · rw [update_of_ne ht] at hdt
    exact hold t' ht hdt

lemma not_dirty_self {f : F} (hd : ∀ t', ¬ (update s.thread t th t').Dirty sp f g a) :
    ¬ th.Dirty sp f g a := by
  have hdt := hd t
  rwa [update_self] at hdt

lemma Inv.begin (laws : Laws sp exact ok) (h : Inv sp exact s) (hidle : s.thread t = .idle)
    {w : W} {st : S} (ha : sp.acquire s.store t w = some st) :
    Inv sp exact { s.setThread t (.writing w) with
      store := st, activeWriters := s.activeWriters + 1 } where
  writers := by
    obtain ⟨ws, hmem, hcard⟩ := h.writers
    have hnone : s.writers t = none := congrArg Thread.writer hidle
    have hnot : t ∉ ws := by
      rw [hmem t, hnone]
      exact Bool.false_ne_true
    refine ⟨insert t ws, ?_, ?_⟩
    · intro t'
      show _ ↔ ((s.setThread t (.writing w)).writers t').isSome = true
      rw [writers_setThread, mem_insert, hmem]
      by_cases ht : t' = t
      · subst ht
        simp [Thread.writer]
      · simp [ht]
    · show (insert t ws).card = s.activeWriters + 1
      rw [card_insert_of_notMem hnot, hcard]
  sane := by
    apply sane_update
    · trivial
    · intro t' ht
      exact (h.sane t').of_moved (Nat.le_refl _) fun _ => Nat.succ_ne_zero _
  no_bumped := h.no_bumped_of_not nofun nofun
  exact := by
    intro f hd
    have hclean : ∀ t', ¬ (s.thread t').Dirty sp f s.generation s.activeWriters := by
      apply clean_of_update hd
      · intro _ hdirty
        rw [hidle] at hdirty
        exact hdirty
      · intro t' ht hd'
        refine Thread.not_dirty_of_moved ?_ (fun g₀ _ hg => hg) hd'
        intro _ ha'
        exact absurd ha' (Nat.succ_ne_zero _)
    have hbulk : sp.bulk w = false := Bool.not_eq_true _ |>.mp (not_dirty_self hd)
    have hnone : s.writers t = none := congrArg Thread.writer hidle
    have hex := laws.acquire (h.exact f hclean) (noBulk hclean) hnone hbulk ha
    show exact f st s.counts (s.setThread t (.writing w)).writers
    rw [writers_setThread]
    exact hex

lemma Inv.act (laws : Laws sp exact ok) (h : Inv sp exact s) {w w' : W}
    (hw : s.thread t = .writing w) {e : E} (hok : ok s.store t w e) {st : S} {c : F → Nat}
    (ha : sp.act s.store s.counts t w e = some (st, c, w')) :
    Inv sp exact { s.setThread t (.writing w') with store := st, counts := c } := by
  have hwriter : s.writers t = some w := congrArg Thread.writer hw
  have hpos := h.activeWriters_ne_zero hwriter
  exact
  { writers := by
      obtain ⟨ws, hmem, hcard⟩ := h.writers
      refine ⟨ws, ?_, hcard⟩
      intro t'
      show _ ↔ ((s.setThread t (.writing w')).writers t').isSome = true
      rw [writers_setThread, hmem]
      by_cases ht : t' = t
      · subst ht
        simp [Thread.writer, hwriter]
      · simp [ht]
    sane := by
      apply sane_update
      · trivial
      · intro t' ht
        exact (h.sane t').of_moved (Nat.le_refl _) fun _ => hpos
    no_bumped := h.no_bumped_of_not nofun nofun
    exact := by
      intro f hd
      have hbulk : sp.bulk w = false := by
        rw [← laws.bulk_act ha]
        exact Bool.not_eq_true _ |>.mp (not_dirty_self hd)
      have hclean : ∀ t', ¬ (s.thread t').Dirty sp f s.generation s.activeWriters := by
        apply clean_of_update hd
        · intro _ hdirty
          rw [hw] at hdirty
          exact absurd (hbulk.symm.trans hdirty) Bool.false_ne_true
        · intro t' ht hd'
          exact hd'
      have hex := laws.act (h.exact f hclean) (noBulk hclean) hwriter hbulk hok ha
      show exact f st c (s.setThread t (.writing w')).writers
      rw [writers_setThread]
      exact hex }

lemma Inv.bump (h : Inv sp exact s) {w : W} (hw : s.thread t = .writing w)
    (hf : sp.finished w = true) :
    Inv sp exact { s.setThread t (.bumped w) with generation := s.generation + 1 } := by
  have hsame : (s.setThread t (.bumped w)).writers = s.writers :=
    writers_setThread_same (by rw [hw]; rfl)
  -- no recount has read a generation that is still to come
  have hle : ∀ t', (s.thread t').confirmed ≠ some (s.generation + 1) := by
    intro t' hc
    have hsane := h.sane t'
    cases hth : s.thread t' with
    | idle | writing w' | bumped w' => rw [hth] at hc; cases hc
    | recounting pc =>
      rw [hth] at hc hsane
      have hg : pc.generation = some (s.generation + 1) := by
        cases pc <;> first | exact hc | cases hc
      exact absurd (hsane.1 _ hg) (Nat.not_succ_le_self _)
  exact
  { writers := hsame ▸ h.writers
    sane := by
      apply sane_update
      · exact hf
      · intro t' ht
        exact (h.sane t').of_moved (Nat.le_succ _) fun hc => absurd hc (hle t')
    no_bumped := by
      apply h.no_bumped_of_ne
      · intro hc
        cases hc
      · intro w' _ t' _
        exact hle t'
      · intro t' _ hc
        exact absurd hc (hle t')
      · intro w' _ hc
        cases hc
    exact := by
      intro f hd
      show exact f s.store s.counts (s.setThread t (.bumped w)).writers
      rw [hsame]
      apply h.exact f
      apply clean_of_update hd
      · intro hth
        rw [hw]
        exact hth
      · intro t' ht hd'
        refine Thread.not_dirty_of_moved (fun hc => absurd hc (hle t')) ?_ hd'
        intro g₀ hth hg
        refine absurd ?_ (hle t')
        rw [hth, ← hg]
        rfl }

lemma Inv.release (laws : Laws sp exact ok) (h : Inv sp exact s) {w : W}
    (hw : s.thread t = .bumped w) :
    Inv sp exact { s.setThread t (if sp.bulk w then .recounting .start else .idle) with
      store := sp.release s.store t w, activeWriters := s.activeWriters - 1 } := by
  have hwriter : s.writers t = some w := congrArg Thread.writer hw
  have hfin : sp.finished w = true := by
    have hsane := h.sane t
    rwa [hw] at hsane
  have hnone : ∀ th : Thread F K W, th = (if sp.bulk w then .recounting .start else .idle) →
      th.writer = none ∧ th.confirmed = none ∧ (∀ st g a, th.Sane sp st g a) := by
    rintro th rfl
    cases sp.bulk w with
    | true => exact ⟨rfl, rfl, sane_start⟩
    | false => exact ⟨rfl, rfl, fun st g a => trivial⟩
  obtain ⟨hnw, hnc, hns⟩ := hnone _ rfl
  -- the last writer of its generation is still counted
  have hold : ∀ t', (s.thread t').confirmed ≠ some s.generation :=
    fun t' hc => h.no_bumped t' t w hc hw
  exact
  { writers := by
      obtain ⟨ws, hmem, hcard⟩ := h.writers
      have hin : t ∈ ws := by
        rw [hmem t, hwriter]
        rfl
      refine ⟨ws.erase t, ?_, ?_⟩
      · intro t'
        show _ ↔ ((s.setThread t _).writers t').isSome = true
        rw [writers_setThread, mem_erase, hmem, hnw]
        by_cases ht : t' = t
        · subst ht
          simp
        · simp [ht]
      · show (ws.erase t).card = s.activeWriters - 1
        rw [card_erase_of_mem hin, hcard]
    sane := by
      apply sane_update
      · exact hns _ _ _
      · intro t' ht
        exact (h.sane t').of_moved (Nat.le_refl _) fun hc => absurd hc (hold t')
    no_bumped := by
      apply h.no_bumped_of_not
      · intro w' hw'
        rw [hw'] at hnw
        cases hnw
      · intro hc
        rw [hnc] at hc
        cases hc
    exact := by
      intro f hd
      have hbulk : sp.bulk w = false := by
        have hdt := not_dirty_self hd
        cases hb : sp.bulk w with
        | false => rfl
        | true =>
          rw [hb] at hdt
          exact absurd trivial hdt
      have hclean : ∀ t', ¬ (s.thread t').Dirty sp f s.generation s.activeWriters := by
        apply clean_of_update hd
        · intro _ hdirty
          rw [hw] at hdirty
          exact absurd (hbulk.symm.trans hdirty) Bool.false_ne_true
        · intro t' ht hd'
          exact Thread.not_dirty_of_moved (fun hc => absurd hc (hold t')) (fun g₀ _ hg => hg) hd'
      have hex := laws.release (h.exact f hclean) (noBulk hclean) hwriter hbulk hfin
      show exact f (sp.release s.store t w) s.counts (s.setThread t _).writers
      rw [writers_setThread, hnw]
      exact hex }

/-! ## recounts -/

variable {pc : Pc F K}

lemma Inv.move (h : Inv sp exact s) (hpc : s.thread t = .recounting pc) (hw : th.writer = none)
    (hs : th.Sane sp s.store s.generation s.activeWriters)
    (hb : th.confirmed = some s.generation → ∀ t' w, s.thread t' ≠ .bumped w)
    (hd : ∀ f, ¬ th.Dirty sp f s.generation s.activeWriters →
      ¬ (.recounting pc : Thread F K W).Dirty sp f s.generation s.activeWriters) :
    Inv sp exact (s.setThread t th) := by
  have hsame : (s.setThread t th).writers = s.writers :=
    writers_setThread_same ((congrArg Thread.writer hpc).trans hw.symm)
  have hnb : ∀ w, th ≠ .bumped w := by
    rintro w rfl
    cases hw
  exact
  { writers := hsame ▸ h.writers
    sane := sane_update hs fun t' _ => h.sane t'
    no_bumped := h.no_bumped_of_not hnb hb
    exact := by
      intro f hdirty
      rw [hsame]
      apply h.exact f
      apply clean_of_update hdirty
      · intro hth
        rw [hpc]
        exact hd f hth
      · intro t' _ hd'
        exact hd' }

lemma Inv.early (h : Inv sp exact s) {pc' : Pc F K} (hpc : s.thread t = .recounting pc)
    (hg : ∀ g, pc'.generation = some g → g ≤ s.generation)
    (hc : (.recounting pc' : Thread F K W).confirmed = none)
    (hd : ∀ f, (.recounting pc' : Thread F K W).Dirty sp f s.generation s.activeWriters) :
    Inv sp exact (s.setThread t (.recounting pc')) := by
  have hne : (.recounting pc' : Thread F K W).confirmed ≠ some s.generation := by
    rw [hc]
    exact (Option.some_ne_none _).symm
  exact h.move hpc rfl ⟨hg, fun h' => absurd h' hne⟩ (fun h' => absurd h' hne)
    fun f hd' => absurd (hd f) hd'

lemma Inv.restart (h : Inv sp exact s) (hpc : s.thread t = .recounting pc) :
    Inv sp exact (s.setThread t (.recounting .start)) :=
  h.early hpc nofun rfl fun _ => trivial

lemma Inv.not_bumped (h : Inv sp exact s) (ha : s.activeWriters = 0) (t : T) (w : W) :
    s.thread t ≠ .bumped w := by
  intro hw
  have hn := h.writer_none ha t
  unfold Sys.writers at hn
  rw [hw] at hn
  cases hn

/-- a recount that goes on with the same generation, and has still to set the counters -/
lemma Inv.advance (h : Inv sp exact s) {pc' : Pc F K} (hpc : s.thread t = .recounting pc)
    (hg : pc.generation = some g) (hg' : pc'.generation = some g)
    (hr : (.recounting pc' : Thread F K W).confirmed = some s.generation → s.activeWriters = 0 →
      pc'.Right sp s.store)
    (hb : (.recounting pc' : Thread F K W).confirmed = some s.generation →
      ∀ t' w, s.thread t' ≠ .bumped w)
    (hd : ∀ f, ¬ (.recounting pc' : Thread F K W).Dirty sp f s.generation s.activeWriters →
      ¬ (.recounting pc : Thread F K W).Dirty sp f s.generation s.activeWriters) :
    Inv sp exact (s.setThread t (.recounting pc')) := by
  have hsane := h.sane t
  rw [hpc] at hsane
  have hs : (.recounting pc' : Thread F K W).Sane sp s.store s.generation s.activeWriters := by
    refine ⟨?_, hr⟩
    intro g₀ h₀
    rw [hg'] at h₀
    cases h₀
    exact hsane.1 g hg
  exact h.move hpc rfl hs hb hd

lemma Inv.right (h : Inv sp exact s) (hpc : s.thread t = .recounting pc)
    (hc : (.recounting pc : Thread F K W).confirmed = some s.generation)
    (ha : s.activeWriters = 0) : pc.Right sp s.store := by
  have hsane := h.sane t
  rw [hpc] at hsane
  exact hsane.2 hc ha

lemma Inv.no_bumped' (h : Inv sp exact s) (hpc : s.thread t = .recounting pc)
    (hc : (.recounting pc : Thread F K W).confirmed = some s.generation) (t' : T) (w : W) :
    s.thread t' ≠ .bumped w := by
  apply h.no_bumped t t' w
  rw [hpc]
  exact hc

/-- a recount that goes on with what it has added up, and has still to set the counters -/
lemma Inv.carry (h : Inv sp exact s) {pc' : Pc F K} (hpc : s.thread t = .recounting pc)
    (hc : (.recounting pc : Thread F K W).confirmed = some g) (hg : pc.generation = some g)
    (hg' : pc'.generation = some g) (hr : pc.Right sp s.store → pc'.Right sp s.store)
    (hd : ∀ f, (.recounting pc' : Thread F K W).Dirty sp f s.generation s.activeWriters) :
    Inv sp exact (s.setThread t (.recounting pc')) := by
  have hsame : (.recounting pc' : Thread F K W).confirmed = some s.generation →
      (.recounting pc : Thread F K W).confirmed = some s.generation := by
    intro hc'
    have hgen : pc'.generation = some s.generation := by
      cases pc' <;> first | exact hc' | cases hc'
    rw [hc, ← hg', hgen]
  apply h.advance hpc hg hg'
  · intro hc' ha
    exact hr (h.right hpc (hsame hc') ha)
  · exact fun hc' => h.no_bumped' hpc (hsame hc')
  · intro f hd'
    exact absurd (hd f) hd'

/-- one counter is overwritten: rightly if the guard has not moved, and the thread starts again
otherwise -/
lemma Inv.set (laws : Laws sp exact ok) (h : Inv sp exact s) {vals : F → Nat} {f : F}
    {todo : List F} (hpc : s.thread t = .recounting (.setting g vals (f :: todo))) :
    Inv sp exact { s.setThread t (.recounting (.setting g vals todo)) with
      counts := update s.counts f (vals f) } := by
  have hsame : (s.setThread t (.recounting (.setting g vals todo))).writers = s.writers :=
    writers_setThread_same (by rw [hpc]; rfl)
  have hsane := h.sane t
  rw [hpc] at hsane
  exact
  { writers := hsame ▸ h.writers
    sane := sane_update hsane fun t' _ => h.sane t'
    no_bumped := h.no_bumped_of_not nofun fun hc => h.no_bumped' hpc hc
    exact := by
      intro f' hd
      have hdt := not_dirty_self hd
      have hfresh : s.generation = g ∧ s.activeWriters = 0 := by
        constructor
        · by_contra hne
          exact hdt (.inr (.inl hne))
        · by_contra hne
          exact hdt (.inr (.inr hne))
      obtain ⟨rfl, ha⟩ := hfresh
      show exact f' s.store (update s.counts f (vals f))
        (s.setThread t (.recounting (.setting s.generation vals todo))).writers
      rw [hsame, laws.none (h.writer_none ha)]
      by_cases hf : f' = f
      · subst hf
        rw [update_self]
        exact h.right hpc rfl ha f'
      · -- another counter: it was right before
        rw [update_of_ne hf, ← laws.none (h.writer_none ha)]
        apply h.exact f'
        apply clean_of_update hd
        · intro hth hdirty
          rw [hpc] at hdirty
          rcases hdirty with hmem | hrest
          · rcases List.mem_cons.mp hmem with rfl | hmem
            · exact hf rfl
            · exact hth (.inl hmem)
          · exact hth (.inr hrest)
        · intro t' _ hd'
          exact hd' }

lemma Inv.recount (laws : Laws sp exact ok) (h : Inv sp exact s)
    (hpc : s.thread t = .recounting pc) : Inv sp exact (s.stepRecount sp t pc) := by
  cases pc with
  | start =>
    simp only [Sys.stepRecount]
    split
    · exact h.early hpc nofun rfl fun _ => trivial
    · exact h
  | loadGeneration =>
    refine h.early hpc ?_ rfl fun _ => trivial
    intro g h₀
    cases h₀
    exact Nat.le_refl _
  | confirm g =>
    simp only [Sys.stepRecount]
    split
    · rename_i ha
      apply h.advance hpc rfl rfl
      · intro _ _ f
        exact Nat.zero_add _
      · intro _ t' w
        exact h.not_bumped ha t' w
      · intro f hd
        exact absurd trivial hd
    · exact h.restart hpc
  | scan g todo acc =>
    cases todo with
    | nil => exact h.carry hpc rfl rfl rfl id fun _ => trivial
    | cons k todo =>
      refine h.carry hpc rfl rfl rfl ?_ fun _ => trivial
      intro hright f
      have hf := hright f
      rw [List.map_cons, List.sum_cons] at hf
      show acc f + sp.part s.store k f + _ = _
      omega
  | checkWriters g vals =>
    simp only [Sys.stepRecount]
    split
    · exact h.carry hpc rfl rfl rfl id fun _ => trivial
    · exact h.restart hpc
  | checkGeneration g vals =>
    simp only [Sys.stepRecount]
    split
    · exact h.carry hpc rfl rfl rfl id fun f => .inl (laws.mem_families f)
    · exact h.restart hpc
  | setting g vals todo =>
    cases todo with
    | nil =>
      simp only [Sys.stepRecount]
      split
      · rename_i ha
        apply h.advance hpc rfl rfl
        · intro _ _
          trivial
        · exact fun hc => h.no_bumped' hpc hc
        · intro f hd hdirty
          rcases hdirty with hmem | hne | hne
          · cases hmem
          · exact hd hne
          · exact hne ha
      · exact h.restart hpc
    | cons f todo => exact h.set laws hpc
  | recheck g =>
    simp only [Sys.stepRecount]
    split
    · rename_i hg
      apply h.move hpc rfl
      · trivial
      · intro hc
        cases hc
      · intro f _ hdirty
        exact hdirty hg
    · exact h.restart hpc

/-! ## runs -/

/-- the writer's step is allowed -/
def Allowed (ok : S → T → W → E → Prop) (s : Sys T F K S W) (e : T × Input W E) : Prop :=
  match s.thread e.1, e.2 with
  | .writing w, .go i => ok s.store e.1 w i
  | _, _ => True

lemma Inv.step (laws : Laws sp exact ok) (h : Inv sp exact s) {e : T × Input W E}
    (hok : Allowed ok s e) : Inv sp exact (s.step sp e) := by
  obtain ⟨t, i⟩ := e
  unfold Allowed at hok
  unfold Sys.step
  cases hth : s.thread t with
  | idle =>
    cases i with
    | begin w =>
      simp only
      cases ha : sp.acquire s.store t w with
      | some st => exact h.begin laws hth ha
      | none => exact h
    | recount =>
      -- an idle thread that starts to recount is only one more that will
      have hsame : (s.setThread t (.recounting .start)).writers = s.writers :=
        writers_setThread_same (by rw [hth]; rfl)
      exact
      { writers := hsame ▸ h.writers
        sane := sane_update (sane_start _ _ _) fun t' _ => h.sane t'
        no_bumped := h.no_bumped_of_not nofun nofun
        exact := fun f hd => absurd trivial (not_dirty_self hd) }
    | go i => exact h
  | writing w =>
    cases i with
    | begin w' | recount => exact h
    | go i =>
      rw [hth] at hok
      show Inv sp exact (s.stepWriter sp t w i)
      unfold Sys.stepWriter
      split
      · rename_i hf
        exact h.bump hth hf
      · cases ha : sp.act s.store s.counts t w i with
        | some res =>
          obtain ⟨st, c, w'⟩ := res
          exact h.act laws hth hok ha
        | none => exact h
  | bumped w =>
    cases i with
    | begin w' | recount => exact h
    | go i => exact h.release laws hth
  | recounting pc =>
    cases i with
    | begin w' | recount => exact h
    | go i => exact h.recount laws hth

/-- all threads idle, and the counters right -/
def Sys.init (sp : Spec T F K S W E) (st : S) : Sys T F K S W :=
  ⟨st, sp.total st, 0, 0, fun _ => .idle⟩

lemma inv_init (laws : Laws sp exact ok) (st : S) :
    Inv sp exact (Sys.init sp st : Sys T F K S W) where
  writers := by
    refine ⟨∅, ?_, rfl⟩
    intro t
    exact ⟨fun hm => absurd hm (notMem_empty t), fun hs => by cases hs⟩
  sane _ := trivial
  no_bumped _ _ _ hc := by cases hc
  exact f _ := (laws.none fun _ => rfl).mpr rfl

/-- **Quiescence**: in every run whose writers act as they may, whenever no thread is at work every
counter is what a complete scan of the store would add up. -/
theorem quiescent (laws : Laws sp exact ok) (st : S) {es : List (T × Input W E)}
    (ha : Run.Along (Sys.step sp) (Allowed ok) (Sys.init sp st) es)
    (hidle : ∀ t, (run (Sys.step sp) (Sys.init sp st) es).thread t = .idle) (f : F) :
    (run (Sys.step sp) (Sys.init sp st) es).counts f =
      sp.total (run (Sys.step sp) (Sys.init sp st) es).store f := by
  have hinv : Inv sp exact (run (Sys.step sp) (Sys.init sp st) es) :=
    run_inv (fun s e h hok => h.step laws hok) (inv_init laws st) ha
  have hnone : ∀ t, (run (Sys.step sp) (Sys.init sp st) es).writers t = none :=
    fun t => congrArg Thread.writer (hidle t)
  rw [← laws.none hnone]
  apply hinv.exact f
  intro t
  rw [hidle t]
  exact id

end Recount
