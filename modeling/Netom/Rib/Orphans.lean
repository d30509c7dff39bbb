import Netom.Rib.Collect

/-!
# The collection and the parents

A session waits for its path children, and a router for its peers: a sweep takes a parent only if
its snapshot shows no entry under it.  An entry may appear there before the parent is taken.

* `Family`  the state of the sweeps, and the ids whose entry was removed;
* `Timely`  no id becomes a parent that the sweep may still take, or that is gone;
* `no_orphans`  **then no entry has a parent that was removed**;
* `flapped_orphan`  a session that comes back and is lost during a sweep leaves its path behind.
-/

namespace Netom

structure Family where
  now : GcState
  /-- had an entry and has none -/
  removed : IngressId → Bool

def Family.new (r : FlowRib) : Family := ⟨⟨r, .waiting []⟩, fun _ => false⟩

def Family.step {env : FlowSpecEnv} (f : Family) (e : GcEvent env) : Family :=
  ⟨f.now.step e, fun p =>
    (f.removed p || f.now.takes e p) && ((f.now.step e).reg.info.lookup p).isNone⟩

/-- no entry of type `BgpPath` is a parent -/
def PathsChildless (reg : Register) : Prop :=
  ∀ e ∈ reg.info.entries, e.2.ingressType = some .bgpPath → e.1 ∉ Gc.parentsInUse reg

/-- no parent is removed, and no id becomes one that is gone or that the sweep may still take -/
def Timely {env : FlowSpecEnv} (f : Family) : GcEvent env → Prop
  | .gc _ => PathsChildless f.now.reg
  | e => ∀ p ∈ Gc.parentsInUse (f.now.step e).reg, f.now.takes e p = false ∧
      (p ∈ Gc.parentsInUse f.now.reg ∨ f.removed p = false ∧ p ∉ f.now.phase.todo)

instance (reg : Register) : Decidable (PathsChildless reg) := List.decidableBAll _ _

instance Family.decidableTimely {env : FlowSpecEnv} (f : Family) :
    (e : GcEvent env) → Decidable (Timely f e)
  | .gc _ => inferInstanceAs (Decidable (PathsChildless _))
  | .op _ | .rib _ => List.decidableBAll _ _

/-! ## the ids that are parents -/

namespace Gc
variable {reg : Register} {id p : IngressId}

lemma mem_parentsInUse : p ∈ parentsInUse reg ↔
    ∃ id info, reg.info.lookup id = some info ∧ info.parentIngress = some p := by
  unfold parentsInUse
  rw [List.mem_filterMap]
  constructor
  · rintro ⟨⟨id, info⟩, he, hp⟩
    exact ⟨id, info, AList.mem_lookup_iff.mpr he, hp⟩
  · rintro ⟨id, info, hl, hp⟩
    exact ⟨⟨id, info⟩, AList.mem_lookup_iff.mp hl, hp⟩

lemma parentsInUse_remove (h : p ∈ parentsInUse (reg.removeIfDisconnected id).2) :
    p ∈ parentsInUse reg := by
  rcases reg.removeIfDisconnected_cases id with hr | ⟨_, hr, _, _⟩
  · rwa [hr] at h
  · rw [hr] at h
    obtain ⟨k, info, hl, hp⟩ := mem_parentsInUse.mp h
    rw [Register.lookup_remove] at hl
    exact mem_parentsInUse.mpr ⟨k, info, (Option.ite_none_left_eq_some.mp hl).2, hp⟩

/-- what a sweep may take is no parent when it looks -/
lemma childless_of_mem (hc : PathsChildless reg) (h : id ∈ peers reg ∨ id ∈ childlessRouters reg) :
    id ∉ parentsInUse reg := by
  rcases h with h | h
  all_goals
    obtain ⟨⟨k, info⟩, he, rfl⟩ := List.mem_map.mp h
    obtain ⟨hmem, hf⟩ := List.mem_filter.mp he
    have hf' := (Bool.and_eq_true_iff.mp hf).2
  · rcases Bool.or_eq_true_iff.mp hf' with hf' | hpath
    · simpa using (Bool.and_eq_true_iff.mp hf').2
    · exact hc _ hmem (of_decide_eq_true hpath)
  · simpa using (Bool.and_eq_true_iff.mp hf').2

end Gc

/-! ## every run -/

namespace Family
variable {env : FlowSpecEnv} {f : Family} {e : GcEvent env}

def Inv (f : Family) : Prop :=
  ∀ p ∈ Gc.parentsInUse f.now.reg, f.removed p = false ∧ p ∉ f.now.phase.todo

lemma removed_eq_false {p : IngressId} (h : f.removed p = false) (ht : f.now.takes e p = false) :
    (f.step e).removed p = false := by
  show ((f.removed p || f.now.takes e p) && _) = false
  rw [h, ht]
  rfl

lemma inv_other (h : f.Inv) (hphase : (f.now.step e).phase = f.now.phase)
    (hok : ∀ p ∈ Gc.parentsInUse (f.now.step e).reg, f.now.takes e p = false ∧
      (p ∈ Gc.parentsInUse f.now.reg ∨ f.removed p = false ∧ p ∉ f.now.phase.todo)) :
    (f.step e).Inv := by
  intro p hp
  obtain ⟨ht, hold⟩ := hok p hp
  obtain ⟨hr, hd⟩ := hold.elim (h p) id
  refine ⟨removed_eq_false hr ht, ?_⟩
  show p ∉ (f.now.step e).phase.todo
  rwa [hphase]

lemma inv_gc (h : f.Inv) (hc : PathsChildless f.now.reg) (n : Nat) :
    (f.step (.gc n : GcEvent env)).Inv := by
  intro p hp
  have hp' : p ∈ Gc.parentsInUse (gcStep f.now n).reg := hp
  cases gcStep_move f.now n with
  | look prev _ hr hs =>
    rw [hr] at hp'
    refine ⟨removed_eq_false (h p hp').1 (Gc.takes_eq_false (e := .gc n) hr p), fun hm => ?_⟩
    have hm' : p ∈ (gcStep f.now n).phase.todo := hm
    rw [hs] at hm'
    have hcand := (List.mem_append.mp hm').imp List.mem_of_mem_filter List.mem_of_mem_filter
    exact Gc.childless_of_mem hc hcand hp'
  | rest _ hr _ htodo _ =>
    rw [hr] at hp'
    obtain ⟨hg, hd⟩ := h p hp'
    exact ⟨removed_eq_false hg (Gc.takes_eq_false (e := .gc n) hr p), fun hm => hd (htodo hm)⟩
  | take id _ hmem hr _ htodo _ =>
    have hreg : (gcStep f.now n).reg = (f.now.reg.removeIfDisconnected id).2 :=
      congrArg (fun r : FlowRib => r.rib.ingressRegister) hr
    rw [hreg] at hp'
    obtain ⟨hg, hd⟩ := h p (Gc.parentsInUse_remove hp')
    refine ⟨removed_eq_false hg (Bool.eq_false_iff.mpr fun ht => ?_), fun hm => hd (htodo hm)⟩
    -- the sweep takes no parent
    obtain ⟨hs, hn⟩ := Bool.and_eq_true_iff.mp ht
    have hn' : ((gcStep f.now n).reg.info.lookup p).isNone = true := hn
    rw [hreg] at hn'
    obtain ⟨rfl, _⟩ := Register.isDown_of_taken hs hn'
    exact hd hmem

lemma inv_step (f : Family) (e : GcEvent env) (h : f.Inv) (ht : Timely f e) : (f.step e).Inv := by
  cases e with
  | gc n => exact inv_gc h ht n
  | op op | rib op => exact inv_other h rfl ht

end Family

/-- **no entry has a parent that was removed**, in every run where no id becomes a parent after the
sweep has found that it is none -/
theorem no_orphans {env : FlowSpecEnv} (r : FlowRib) (es : List (GcEvent env))
    (h : Run.Along Family.step Timely (Family.new r) es) {id p : IngressId} {info : IngressInfo}
    (hl : (Run.run Family.step (Family.new r) es).now.reg.info.lookup id = some info)
    (hp : info.parentIngress = some p) :
    (Run.run Family.step (Family.new r) es).removed p = false := by
  have hinv : (Run.run Family.step (Family.new r) es).Inv :=
    Run.run_inv Family.inv_step (fun _ _ => ⟨rfl, List.not_mem_nil⟩) h
  exact (hinv p (Gc.mem_parentsInUse.mpr ⟨id, info, hl, hp⟩)).1

/-- a path of the session with id 1 -/
def pathOfSession : IngressInfo :=
  { IngressInfo.new with
    ingressType := some .bgpPath, parentIngress := some 1, pathId := some 3
    state := some .connected }

def familyAfter (es : List (GcEvent noRules)) : Family :=
  Run.run Family.step (Family.new (FlowRib.new Register.new)) es

/-- the session is lost, and its path stays: so does the session -/
def pathHeld : List (GcEvent noRules) :=
  sessionLost ++ [.op .register, .op (.updateInfo 2 pathOfSession), .gc 0, .gc 0, .gc 0]

theorem no_orphans_held : (familyAfter pathHeld).now.reg.info.lookup 2 = some pathOfSession ∧
    (familyAfter pathHeld).removed 1 = false := by
  have hl : (familyAfter pathHeld).now.reg.info.lookup 2 = some pathOfSession := by decide
  exact ⟨hl, no_orphans _ pathHeld (by decide) hl rfl⟩

/-- the second sweep looks; then the session comes back, announces a path and is lost again -/
def pathStranded : List (GcEvent noRules) :=
  sessionLost ++ [.gc 0, .op (.claim (.peer monitoredPeer) 1), .op .register,
    .op (.updateInfo 2 pathOfSession), .op (.markDisconnected 2), .op (.markDisconnected 1), .gc 0]

theorem flapped_orphan :
    Run.Along Family.step (fun f _ => PathsChildless f.now.reg)
      (Family.new (FlowRib.new Register.new)) pathStranded ∧
    ∃ info, (familyAfter pathStranded).now.reg.info.lookup 2 = some info ∧
      info.parentIngress = some 1 ∧ (familyAfter pathStranded).removed 1 = true := by
  refine ⟨by decide, pathOfSession.down, ?_⟩
  decide

end Netom
