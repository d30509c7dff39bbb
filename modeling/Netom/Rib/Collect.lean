import Netom.FlowSpec.Rib
import Netom.Ingress.Claims

/-!
# The collection of disconnected ingresses

`gc_disconnected_bmp_peers` runs now and then.  It remembers the ids that it saw disconnected, and
takes out of the register those that it sees disconnected again, then their records out of the
stores.  Each access to the register or to the stores is one step; between two of them the units
that talk to routers and peers take theirs.

* `GcPhase`, `gcStep`  one sweep, an access at a time;
* `GcHistory`  what the sweep does not know: since when an id is down;
* `Rightful`  a step takes an entry, or its records, only if the id was down ever since
  the sweep before this one;
* `gc_rightful`  **every step is rightful in a run where no id that was seen down comes up
  and goes down again before the next sweep looks**;
* `gc_reclaims_flapped`  an id that does is taken.
-/

namespace Netom
open List

/-- the entry says that the ingress is disconnected -/
def Register.isDown (reg : Register) (id : IngressId) : Bool :=
  (reg.info.lookup id).any fun info => info.state = some .disconnected

lemma Register.isDown_eq_true {reg : Register} {id : IngressId} :
    reg.isDown id = true ↔
      ∃ info, reg.info.lookup id = some info ∧ info.state = some .disconnected := by
  unfold isDown
  cases reg.info.lookup id with
  | none | some info => simp

/-! ## one sweep -/

namespace Gc
variable (reg : Register)

def parentsInUse : List IngressId := reg.info.entries.filterMap (·.2.parentIngress)

/-- the ids whose entry is down and meets `f` -/
def downIds (f : IngressId → IngressInfo → Bool) : List IngressId :=
  (reg.info.entries.filter fun e => e.2.state = some .disconnected && f e.1 e.2).map (·.1)

/-- what the next sweep gets as `prev` -/
def disconnected : List IngressId :=
  downIds reg fun _ info => info.ingressType = some .bgpViaBmp || info.ingressType = some .bgp ||
    info.ingressType = some .bgpPath || info.ingressType = some .bmp

/-- the candidates that own records: a session waits until its path children are gone -/
def peers : List IngressId :=
  downIds reg fun id info =>
    ((info.ingressType = some .bgpViaBmp || info.ingressType = some .bgp) &&
      !(parentsInUse reg).contains id) || info.ingressType = some .bgpPath

def childlessRouters : List IngressId :=
  downIds reg fun id info => info.ingressType = some .bmp && !(parentsInUse reg).contains id

variable {reg}

lemma isDown_of_mem {f : IngressId → IngressInfo → Bool} {id : IngressId}
    (h : id ∈ downIds reg f) : reg.isDown id = true := by
  obtain ⟨⟨k, info⟩, he, rfl⟩ := mem_map.mp h
  obtain ⟨hmem, hf⟩ := mem_filter.mp he
  have hl : reg.info.lookup k = some info := AList.mem_lookup_iff.mpr hmem
  have hs : info.state = some .disconnected := by
    have h1 := (Bool.and_eq_true _ _ ▸ hf).1
    exact of_decide_eq_true h1
  exact Register.isDown_eq_true.mpr ⟨info, hl, hs⟩

end Gc

/-- where a sweep stands; the ids of a set are met in any order -/
inductive GcPhase where
  | waiting (prev : List IngressId)
  | peers (todo reclaimed routers next : List IngressId)
  | routers (todo next : List IngressId)

structure GcState where
  rib : FlowRib
  phase : GcPhase

def GcState.reg (s : GcState) : Register := s.rib.rib.ingressRegister

def FlowRib.setRegister (r : FlowRib) (reg : Register) : FlowRib :=
  { r with rib := { r.rib with ingressRegister := reg } }

/-- the next access of `gc_disconnected_bmp_peers`; `n` is the position of the id that comes next -/
def gcStep (s : GcState) (n : Nat) : GcState :=
  match s.phase with
  | .waiting prev =>
    -- `cloned_info`
    ⟨s.rib, .peers ((Gc.peers s.reg).filter prev.contains) []
      ((Gc.childlessRouters s.reg).filter prev.contains) (Gc.disconnected s.reg)⟩
  | .peers [] reclaimed routers next =>
    ⟨s.rib.removeForIngresses reclaimed, .routers routers next⟩
  | .peers todo reclaimed routers next =>
    match todo[n]? with
    | none => s
    | some id =>
      let (removed, reg) := s.reg.removeIfDisconnected id
      ⟨s.rib.setRegister reg, .peers (todo.eraseIdx n)
        (if removed then reclaimed ++ [id] else reclaimed) routers next⟩
  | .routers [] next => { s with phase := .waiting next }
  | .routers todo next =>
    match todo[n]? with
    | none => s
    | some id =>
      ⟨s.rib.setRegister (s.reg.removeIfDisconnected id).2, .routers (todo.eraseIdx n) next⟩

/-! ## what happens meanwhile -/

inductive GcEvent (env : FlowSpecEnv) where
  | op (op : RegisterOp)
  | rib (op : FlowRibOp env)
  | gc (n : Nat)

def GcState.step {env : FlowSpecEnv} (s : GcState) : GcEvent env → GcState
  | .op op => { s with rib := s.rib.setRegister (op.effect s.reg) }
  | .rib op => { s with rib := s.rib.step env op }
  | .gc n => gcStep s n

/-- since when an id is down -/
structure GcHistory where
  /-- down when the latest sweep looked -/
  seen : IngressId → Bool
  /-- down ever since the latest sweep looked -/
  calm : IngressId → Bool
  /-- down ever since the sweep before it looked -/
  calmBefore : IngressId → Bool
  /-- taken out of the register by this sweep after such a time -/
  left : IngressId → Bool

structure Gc where
  now : GcState
  past : GcHistory

def GcState.looks {env : FlowSpecEnv} (s : GcState) : GcEvent env → Bool
  | .gc _ => match s.phase with
    | .waiting _ => true
    | _ => false
  | _ => false

/-- the entry of the id is there before the step and not after it -/
def GcState.takes {env : FlowSpecEnv} (s : GcState) (e : GcEvent env) (id : IngressId) : Bool :=
  (s.reg.info.lookup id).isSome && ((s.step e).reg.info.lookup id).isNone

def GcHistory.step {env : FlowSpecEnv} (h : GcHistory) (s : GcState) (e : GcEvent env) :
    GcHistory :=
  if s.looks e then
    ⟨s.reg.isDown, s.reg.isDown, fun id => h.calm id && s.reg.isDown id, fun _ => false⟩
  else
    ⟨h.seen, fun id => h.calm id && (s.step e).reg.isDown id,
      fun id => h.calmBefore id && (s.step e).reg.isDown id,
      fun id => h.left id || (s.takes e id && h.calmBefore id)⟩

def Gc.step {env : FlowSpecEnv} (g : Gc) (e : GcEvent env) : Gc :=
  ⟨g.now.step e, g.past.step g.now e⟩

/-- no sweep has run -/
def Gc.new (r : FlowRib) : Gc :=
  ⟨⟨r, .waiting []⟩, fun _ => false, fun _ => false, fun _ => false, fun _ => false⟩

/-- the records that the stores keep for an id -/
def FlowRib.recordsOf (r : FlowRib) (id : IngressId) (p : Prefix) :
    Option Record × Option Record × Option FlowSpecRecord :=
  (r.rib.unicast.get p id, r.rib.multicast.get p id, r.flowspec.get p id)

/-- a sweep takes an entry, or the records of an id, only if the id was down ever since the sweep
before this one looked -/
def Rightful {env : FlowSpecEnv} (g : Gc) : GcEvent env → Prop
  | .gc n => ∀ id, (g.now.takes (.gc n : GcEvent env) id = true → g.past.calmBefore id = true) ∧
      ((gcStep g.now n).rib.recordsOf id ≠ g.now.rib.recordsOf id → g.past.left id = true)
  | _ => True

/-- no id that was seen down, and is not down now, goes down -/
def Steady {env : FlowSpecEnv} (g : Gc) : GcEvent env → Prop
  | .gc _ => True
  | e => ∀ id, g.past.seen id = true → (g.now.step e).reg.isDown id = true →
      g.now.reg.isDown id = true

/-! ## one access -/

/-- what an access of a sweep does -/
inductive GcAccess (s s' : GcState) : Prop
  | look (prev : List IngressId) (hp : s.phase = .waiting prev) (hr : s'.rib = s.rib)
      (hs : s'.phase = .peers ((Gc.peers s.reg).filter prev.contains) []
        ((Gc.childlessRouters s.reg).filter prev.contains) (Gc.disconnected s.reg))
  | idle (h : s' = s) (hp : ∀ prev, s.phase ≠ .waiting prev)
  | peer (id : IngressId) (todo todo' reclaimed routers next : List IngressId)
      (hp : s.phase = .peers todo reclaimed routers next) (hmem : id ∈ todo) (hsub : todo' ⊆ todo)
      (hr : s'.rib = s.rib.setRegister (s.reg.removeIfDisconnected id).2)
      (hs : s'.phase = .peers todo'
        (if (s.reg.removeIfDisconnected id).1 then reclaimed ++ [id] else reclaimed) routers next)
  | clear (reclaimed routers next : List IngressId) (hp : s.phase = .peers [] reclaimed routers next)
      (hr : s'.rib = s.rib.removeForIngresses reclaimed) (hs : s'.phase = .routers routers next)
  | router (id : IngressId) (todo todo' next : List IngressId) (hp : s.phase = .routers todo next)
      (hmem : id ∈ todo) (hsub : todo' ⊆ todo)
      (hr : s'.rib = s.rib.setRegister (s.reg.removeIfDisconnected id).2)
      (hs : s'.phase = .routers todo' next)
  | finish (next : List IngressId) (hp : s.phase = .routers [] next) (hr : s'.rib = s.rib)
      (hs : s'.phase = .waiting next)

lemma gcStep_access (s : GcState) (n : Nat) : GcAccess s (gcStep s n) := by
  obtain ⟨r, phase⟩ := s
  cases phase with
  | waiting prev => exact .look prev rfl rfl rfl
  | peers todo reclaimed routers next =>
    cases todo with
    | nil => exact .clear reclaimed routers next rfl rfl rfl
    | cons id0 ids =>
      cases hn : (id0 :: ids)[n]? with
      | none =>
        refine .idle ?_ (fun prev h => nomatch h)
        simp only [gcStep, hn]
      | some id =>
        refine .peer id (id0 :: ids) ((id0 :: ids).eraseIdx n) reclaimed routers next rfl
          (mem_of_getElem? hn) eraseIdx_subset ?_ ?_
        · simp only [gcStep, hn]
        · simp only [gcStep, hn]
  | routers todo next =>
    cases todo with
    | nil => exact .finish next rfl rfl rfl
    | cons id0 ids =>
      cases hn : (id0 :: ids)[n]? with
      | none =>
        refine .idle ?_ (fun prev h => nomatch h)
        simp only [gcStep, hn]
      | some id =>
        refine .router id (id0 :: ids) ((id0 :: ids).eraseIdx n) next rfl
          (mem_of_getElem? hn) eraseIdx_subset ?_ ?_
        · simp only [gcStep, hn]
        · simp only [gcStep, hn]

namespace FlowRib

lemma recordsOf_removeForIngresses (r : FlowRib) {ids : List IngressId} {id : IngressId}
    (h : id ∉ ids) : (r.removeForIngresses ids).recordsOf id = r.recordsOf id := by
  funext p
  induction ids generalizing r with
  | nil => rfl
  | cons k ids ih =>
    have hk : id ≠ k := fun hk => h (hk ▸ mem_cons_self)
    have hkeep : ∀ {V : Type} (m : Assoc (Prefix × IngressId) V),
        (Assoc.eraseAll (m.keys.filter fun e => e.2 = k) m).lookup (p, id) = m.lookup (p, id) := by
      intro V m
      rw [Assoc.lookup_eraseAll, if_neg]
      intro hm
      exact hk (of_decide_eq_true (mem_filter.mp hm).2)
    let r1 : FlowRib := r.removeForIngresses [k]
    have h1 : r1.recordsOf id p = r.recordsOf id p :=
      Prod.ext (hkeep _) (Prod.ext (hkeep _) (hkeep _))
    exact (ih r1 (fun hm => h (mem_cons_of_mem k hm))).trans h1

end FlowRib

namespace Register
variable {reg : Register}

lemma isDown_of_removeIfDisconnected {id k : IngressId}
    (h : (reg.removeIfDisconnected id).2.isDown k = true) : reg.isDown k = true := by
  rcases reg.removeIfDisconnected_cases id with hr | ⟨info, hr, hl, hd⟩
  · rwa [hr] at h
  · rw [hr] at h
    obtain ⟨info', hl', hd'⟩ := isDown_eq_true.mp h
    rw [lookup_remove] at hl'
    by_cases hk : k = id
    · rw [if_pos hk] at hl'
      cases hl'
    · rw [if_neg hk] at hl'
      exact isDown_eq_true.mpr ⟨info', hl', hd'⟩

lemma isDown_of_taken {id k : IngressId} (hs : (reg.info.lookup k).isSome = true)
    (hn : ((reg.removeIfDisconnected id).2.info.lookup k).isNone = true) :
    k = id ∧ reg.isDown id = true := by
  rcases reg.removeIfDisconnected_cases id with hr | ⟨info, hr, hl, hd⟩
  · rw [hr] at hn
    cases h : reg.info.lookup k with
    | none =>
      rw [h] at hs
      cases hs
    | some info =>
      rw [h] at hn
      cases hn
  · rw [hr, lookup_remove] at hn
    by_cases hk : k = id
    · exact ⟨hk, isDown_eq_true.mpr ⟨info, hl, hd⟩⟩
    · rw [if_neg hk] at hn
      cases h : reg.info.lookup k with
      | none =>
        rw [h] at hs
        cases hs
      | some info' =>
        rw [h] at hn
        cases hn

lemma taken_of_removeIfDisconnected {id : IngressId}
    (h : (reg.removeIfDisconnected id).1 = true) : (reg.info.lookup id).isSome = true ∧
      ((reg.removeIfDisconnected id).2.info.lookup id).isNone = true ∧ reg.isDown id = true := by
  rcases reg.removeIfDisconnected_cases id with hr | ⟨info, hr, hl, hd⟩
  · rw [hr] at h
    cases h
  · refine ⟨by rw [hl]; rfl, ?_, isDown_eq_true.mpr ⟨info, hl, hd⟩⟩
    rw [hr, lookup_remove, if_pos rfl]
    rfl

end Register

/-! ## the invariant -/

namespace GcPhase

/-- the ids that the next sweep compares with -/
def next : GcPhase → List IngressId
  | .waiting prev => prev
  | .peers _ _ _ next => next
  | .routers _ next => next

/-- the ids that this sweep may still take -/
def todo : GcPhase → List IngressId
  | .waiting _ => []
  | .peers ids _ ids' _ => ids ++ ids'
  | .routers ids _ => ids

/-- the ids whose records go next -/
def reclaimed : GcPhase → List IngressId
  | .peers _ reclaimed _ _ => reclaimed
  | _ => []

end GcPhase

/-! ## what an access means for the invariants -/

/-- a sweep looks, or leaves the register alone, or takes an id that it may take -/
inductive GcMove (s s' : GcState) : Prop
  | look (prev : List IngressId) (hp : s.phase = .waiting prev) (hr : s'.reg = s.reg)
      (hs : s'.phase.todo = (Gc.peers s.reg).filter prev.contains ++
        (Gc.childlessRouters s.reg).filter prev.contains)
  | rest (hp : ∀ prev, s.phase ≠ .waiting prev) (hr : s'.reg = s.reg)
      (hnext : s'.phase.next = s.phase.next) (htodo : s'.phase.todo ⊆ s.phase.todo)
      (hcl : s'.phase.reclaimed ⊆ s.phase.reclaimed)
  | take (id : IngressId) (hp : ∀ prev, s.phase ≠ .waiting prev) (hmem : id ∈ s.phase.todo)
      (hr : s'.rib = s.rib.setRegister (s.reg.removeIfDisconnected id).2)
      (hnext : s'.phase.next = s.phase.next) (htodo : s'.phase.todo ⊆ s.phase.todo)
      (hcl : ∀ k ∈ s'.phase.reclaimed, k ∈ s.phase.reclaimed ∨
        (k = id ∧ (s.reg.removeIfDisconnected id).1 = true))

lemma gcStep_move (s : GcState) (n : Nat) : GcMove s (gcStep s n) := by
  cases gcStep_access s n with
  | look prev hp hr hs =>
    refine .look prev hp (congrArg (fun r : FlowRib => r.rib.ingressRegister) hr) ?_
    rw [hs]
    rfl
  | idle hs hp =>
    rw [hs]
    exact .rest hp rfl rfl (List.Subset.refl _) (List.Subset.refl _)
  | peer id todo todo' reclaimed routers next hp hmem hsub hr hs =>
    refine .take id (fun prev hw => by rw [hp] at hw; cases hw) ?_ hr ?_ ?_ ?_
    · rw [hp]
      exact mem_append_left routers hmem
    · rw [hs, hp]
      rfl
    · rw [hs, hp]
      exact append_subset.mpr ⟨subset_append_of_subset_left _ hsub,
        subset_append_right _ _⟩
    · intro k hk
      rw [hs] at hk
      rw [hp]
      cases hok : (s.reg.removeIfDisconnected id).1 with
      | false =>
        rw [hok] at hk
        exact .inl hk
      | true =>
        rw [hok] at hk
        rcases mem_append.mp hk with hold | hnew
        · exact .inl hold
        · exact .inr ⟨mem_singleton.mp hnew, rfl⟩
  | clear reclaimed routers next hp hr hs =>
    refine .rest (fun prev hw => by rw [hp] at hw; cases hw) ?_ ?_ ?_ ?_
    · show (gcStep s n).rib.rib.ingressRegister = _
      rw [hr, FlowRib.register_removeForIngresses]
      rfl
    · rw [hs, hp]
      rfl
    · rw [hs, hp]
      exact List.Subset.refl _
    · rw [hs]
      exact nil_subset _
  | router id todo todo' next hp hmem hsub hr hs =>
    refine .take id (fun prev hw => by rw [hp] at hw; cases hw) ?_ hr ?_ ?_ ?_
    · rw [hp]
      exact hmem
    · rw [hs, hp]
      rfl
    · rw [hs, hp]
      exact hsub
    · intro k hk
      rw [hs] at hk
      cases hk
  | finish next hp hr hs =>
    refine .rest (fun prev hw => by rw [hp] at hw; cases hw)
      (congrArg (fun r : FlowRib => r.rib.ingressRegister) hr) ?_ ?_ ?_
    · rw [hs, hp]
      rfl
    · rw [hs]
      exact nil_subset _
    · rw [hs]
      exact nil_subset _

namespace Gc
variable {env : FlowSpecEnv} {g : Gc}

structure Inv (g : Gc) : Prop where
  calm : ∀ id, g.past.seen id = true → g.now.reg.isDown id = true → g.past.calm id = true
  kept : ∀ id ∈ g.now.phase.next, g.past.seen id = true
  due : ∀ id ∈ g.now.phase.todo, g.past.seen id = true ∧
    (g.now.reg.isDown id = true → g.past.calmBefore id = true)
  left : ∀ id ∈ g.now.phase.reclaimed, g.past.left id = true

lemma inv_new (r : FlowRib) : (Gc.new r).Inv where
  calm id h := by cases h
  kept id h := by cases h
  due id h := by cases h
  left id h := by cases h

/-- a step that does not look keeps the invariant if no id that was seen goes down in it -/
lemma inv_of_quiet (h : g.Inv) {e : GcEvent env} (hl : g.now.looks e = false)
    (hdown : ∀ id, g.past.seen id = true → (g.now.step e).reg.isDown id = true →
      g.now.reg.isDown id = true)
    (hnext : (g.now.step e).phase.next = g.now.phase.next)
    (htodo : (g.now.step e).phase.todo ⊆ g.now.phase.todo)
    (hleft : ∀ id ∈ (g.now.step e).phase.reclaimed, id ∈ g.now.phase.reclaimed ∨
      (g.now.takes e id = true ∧ g.past.calmBefore id = true)) : (g.step e).Inv := by
  have hpast : (g.step e).past = ⟨g.past.seen,
      fun id => g.past.calm id && (g.now.step e).reg.isDown id,
      fun id => g.past.calmBefore id && (g.now.step e).reg.isDown id,
      fun id => g.past.left id || (g.now.takes e id && g.past.calmBefore id)⟩ := by
    show GcHistory.step _ _ _ = _
    rw [GcHistory.step, hl]
    rfl
  constructor
  · intro id hs hd
    rw [hpast] at hs ⊢
    exact Bool.and_eq_true_iff.mpr ⟨h.calm id hs (hdown id hs hd), hd⟩
  · intro id hm
    rw [hpast]
    exact h.kept id (hnext ▸ hm)
  · intro id hm
    obtain ⟨hs, hc⟩ := h.due id (htodo hm)
    rw [hpast]
    exact ⟨hs, fun hd => Bool.and_eq_true_iff.mpr ⟨hc (hdown id hs hd), hd⟩⟩
  · intro id hm
    rw [hpast]
    rcases hleft id hm with hold | ⟨ht, hc⟩
    · exact Bool.or_eq_true_iff.mpr (.inl (h.left id hold))
    · exact Bool.or_eq_true_iff.mpr (.inr (Bool.and_eq_true_iff.mpr ⟨ht, hc⟩))

/-- a sweep begins: what it may take was seen by the sweep before it and is down still -/
lemma inv_look (h : g.Inv) {prev : List IngressId} (hp : g.now.phase = .waiting prev) (n : Nat) :
    (g.step (.gc n : GcEvent env)).Inv := by
  have hl : g.now.looks (.gc n : GcEvent env) = true := by
    show (match g.now.phase with | .waiting _ => true | _ => false) = true
    rw [hp]
  have hpast : (g.step (.gc n : GcEvent env)).past = ⟨g.now.reg.isDown, g.now.reg.isDown,
      fun id => g.past.calm id && g.now.reg.isDown id, fun _ => false⟩ := by
    show GcHistory.step _ _ _ = _
    rw [GcHistory.step, hl]
    rfl
  have hnow : (g.step (.gc n : GcEvent env)).now = ⟨g.now.rib,
      .peers ((Gc.peers g.now.reg).filter prev.contains) []
        ((Gc.childlessRouters g.now.reg).filter prev.contains) (Gc.disconnected g.now.reg)⟩ := by
    show gcStep g.now n = _
    simp only [gcStep, hp]
  have hdue : ∀ {f : IngressId → IngressInfo → Bool} {id : IngressId},
      id ∈ (downIds g.now.reg f).filter prev.contains →
      g.now.reg.isDown id = true ∧ g.past.calm id = true := by
    intro f id hm
    obtain ⟨hd, hc⟩ := mem_filter.mp hm
    have hs := h.kept id (by rw [hp]; exact contains_iff_mem.mp hc)
    exact ⟨isDown_of_mem hd, h.calm id hs (isDown_of_mem hd)⟩
  constructor
  · intro id hs hd
    rw [hpast] at hs ⊢
    exact hs
  · intro id hm
    rw [hnow] at hm
    rw [hpast]
    exact isDown_of_mem (show id ∈ Gc.disconnected g.now.reg from hm)
  · intro id hm
    have hdc : g.now.reg.isDown id = true ∧ g.past.calm id = true := by
      rw [hnow] at hm
      rcases mem_append.mp hm with hm | hm
      · exact hdue hm
      · exact hdue hm
    rw [hpast]
    exact ⟨hdc.1, fun _ => Bool.and_eq_true_iff.mpr ⟨hdc.2, hdc.1⟩⟩
  · intro id hm
    rw [hnow] at hm
    cases hm

lemma looks_false {s : GcState} (h : ∀ prev, s.phase ≠ .waiting prev) (n : Nat) :
    s.looks (.gc n : GcEvent env) = false := by
  show (match s.phase with | .waiting _ => true | _ => false) = false
  cases hp : s.phase with
  | waiting prev => exact absurd hp (h prev)
  | peers todo reclaimed routers next | routers todo next => rfl

lemma inv_gc (h : g.Inv) (n : Nat) : (g.step (.gc n : GcEvent env)).Inv := by
  cases gcStep_move g.now n with
  | look prev hp hr hs => exact inv_look h hp n
  | rest hp hr hnext htodo hcl =>
    refine inv_of_quiet h (looks_false hp n) ?_ hnext htodo (fun k hk => .inl (hcl hk))
    intro k _ hd
    have hd' : (gcStep g.now n).reg.isDown k = true := hd
    rwa [hr] at hd'
  | take id hp hmem hr hnext htodo hcl =>
    have hreg : (g.now.step (.gc n : GcEvent env)).reg = (g.now.reg.removeIfDisconnected id).2 :=
      congrArg (fun r : FlowRib => r.rib.ingressRegister) hr
    refine inv_of_quiet h (looks_false hp n) ?_ hnext htodo ?_
    · intro k _ hd
      rw [hreg] at hd
      exact Register.isDown_of_removeIfDisconnected hd
    · intro k hk
      rcases hcl k hk with hold | ⟨rfl, hok⟩
      · exact .inl hold
      · obtain ⟨hs, hn, hd⟩ := Register.taken_of_removeIfDisconnected hok
        refine .inr ⟨?_, (h.due k hmem).2 hd⟩
        rw [GcState.takes, hreg, hs, hn]
        rfl

lemma inv_step (h : g.Inv) {e : GcEvent env} (hok : Steady g e) : (g.step e).Inv := by
  cases e with
  | gc n => exact inv_gc h n
  | op op | rib op =>
    exact inv_of_quiet h rfl hok rfl (List.Subset.refl _) (fun k hk => .inl hk)

end Gc

/-! ## every step of a steady run -/

namespace Gc
variable {env : FlowSpecEnv} {g : Gc}

lemma takes_eq_false {s : GcState} {e : GcEvent env} (h : (s.step e).reg = s.reg)
    (id : IngressId) : s.takes e id = false := by
  unfold GcState.takes
  rw [h]
  cases s.reg.info.lookup id <;> rfl

/-- an access that only takes `id` out of the register is rightful if `id` may be taken -/
lemma rightful_take (h : g.Inv) {n : Nat} {id : IngressId} (hmem : id ∈ g.now.phase.todo)
    (hr : (gcStep g.now n).rib = g.now.rib.setRegister (g.now.reg.removeIfDisconnected id).2) :
    Rightful g (.gc n : GcEvent env) := by
  intro k
  constructor
  · intro ht
    obtain ⟨hs, hn⟩ := Bool.and_eq_true_iff.mp ht
    have hreg : (g.now.step (.gc n : GcEvent env)).reg = (g.now.reg.removeIfDisconnected id).2 :=
      congrArg (fun r : FlowRib => r.rib.ingressRegister) hr
    rw [hreg] at hn
    obtain ⟨rfl, hd⟩ := Register.isDown_of_taken hs hn
    exact (h.due k hmem).2 hd
  · intro hne
    rw [hr] at hne
    exact absurd rfl hne

lemma rightful_pass {n : Nat} (hr : (gcStep g.now n).rib = g.now.rib) :
    Rightful g (.gc n : GcEvent env) := by
  intro k
  constructor
  · intro ht
    have hreg : (g.now.step (.gc n : GcEvent env)).reg = g.now.reg :=
      congrArg (fun r : FlowRib => r.rib.ingressRegister) hr
    rw [takes_eq_false hreg] at ht
    cases ht
  · intro hne
    rw [hr] at hne
    exact absurd rfl hne

lemma rightful_of_inv (h : g.Inv) (e : GcEvent env) : Rightful g e := by
  cases e with
  | op op | rib op => trivial
  | gc n =>
    cases gcStep_access g.now n with
    | look prev hp hr hs | finish next hp hr hs => exact rightful_pass hr
    | idle hs hp => exact rightful_pass (by rw [hs])
    | peer id todo todo' reclaimed routers next hp hmem hsub hr hs =>
      exact rightful_take h (by rw [hp]; exact mem_append_left routers hmem) hr
    | router id todo todo' next hp hmem hsub hr hs =>
      exact rightful_take h (by rw [hp]; exact hmem) hr
    | clear reclaimed routers next hp hr hs =>
      intro k
      constructor
      · intro ht
        have hreg : (g.now.step (.gc n : GcEvent env)).reg = g.now.reg := by
          show (gcStep g.now n).rib.rib.ingressRegister = _
          rw [hr, FlowRib.register_removeForIngresses]
          rfl
        rw [takes_eq_false hreg] at ht
        cases ht
      · intro hne
        refine h.left k ?_
        rw [hp]
        by_contra hnot
        rw [hr] at hne
        exact hne (FlowRib.recordsOf_removeForIngresses g.now.rib hnot)

lemma along_rightful (h : g.Inv) {es : List (GcEvent env)} (ha : Run.Along Gc.step Steady g es) :
    Run.Along Gc.step Rightful g es := by
  induction es generalizing g with
  | nil => trivial
  | cons e es ih => exact ⟨rightful_of_inv h e, ih (inv_step h ha.1) ha.2⟩

end Gc

/-- **a sweep takes an ingress and its records only after it was down since the sweep before**, in
every run where no ingress that was seen down comes up and goes down again before the next sweep
looks -/
theorem gc_rightful {env : FlowSpecEnv} (r : FlowRib) (es : List (GcEvent env))
    (h : Run.Along Gc.step Steady (Gc.new r) es) : Run.Along Gc.step Rightful (Gc.new r) es :=
  Gc.along_rightful (Gc.inv_new r) h

/-! ## a session that goes down, and one that does so twice -/

/-- a parser that knows no rule -/
def noRules : FlowSpecEnv where
  matcher := PrefixMatch.Matcher.reference Prefix.covers
  raw _ := []
  parse _ _ := none
  length_le h := nomatch h
  dst_family h := nomatch h
  reparse h := nomatch h

/-- a peer of the BMP router with id 7 -/
def monitoredPeer : IngressInfo :=
  { IngressInfo.new with
    ingressType := some .bgpViaBmp, parentIngress := some 7, state := some .connected
    remoteAddr := some (.v4 0x0a000001#32), remoteAsn := some 65001 }

/-- the session comes up and goes down, and a sweep finds it so -/
def sessionLost : List (GcEvent noRules) :=
  [.op .register, .op (.updateInfo 1 monitoredPeer), .op (.markDisconnected 1),
    .gc 0, .gc 0, .gc 0]

/-- it stays down: the next sweep takes it, rightly -/
theorem gc_rightful_lost : Run.Along Gc.step Rightful (Gc.new (FlowRib.new Register.new))
      (sessionLost ++ [.gc 0, .gc 0]) ∧
    (Run.run Gc.step (Gc.new (FlowRib.new Register.new)) (sessionLost ++ [.gc 0, .gc 0])).now.reg.get 1
      = none := by
  refine ⟨gc_rightful _ _ ⟨?_, ?_, ?_, trivial, trivial, trivial, trivial, trivial, trivial⟩, ?_⟩
  · intro id h
    cases h
  · intro id h
    cases h
  · intro id h
    cases h
  · decide

/-- the session comes up between the two sweeps and is lost again just before the second -/
def sessionFlaps : List (GcEvent noRules) :=
  sessionLost ++ [.op (.claim (.peer monitoredPeer) 1), .op (.markDisconnected 1), .gc 0, .gc 0]

theorem gc_reclaims_flapped :
    ¬ Run.Along Gc.step Rightful (Gc.new (FlowRib.new Register.new)) sessionFlaps := by
  intro h
  have htakes := h.2.2.2.2.2.2.2.2.2.1 1
  exact absurd (htakes.1 (by decide)) (by decide)

end Netom
