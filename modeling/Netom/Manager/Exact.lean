import Netom.Manager.Round

/-!
# Rounds are exact

`Exact` states what one successful round of load, prepare and spawn does: to every running component,
for every component of the new configuration, and what runs afterwards.  `exact_rounds` proves it after
any number of successful rounds; what carries the induction is that a round leaves no gate behind
(`Ready`).
-/

set_option linter.unusedSectionVars false
namespace Netom.Reload
open Manager Option Prod
variable {I K S R P : Type} [DecidableEq K]

/-! ## the statement -/

def Action.isCommand : Action I K S R → Bool
  | .reconfigureUnit _ _ _ _ | .terminateUnit _ _ => true
  | .reconfigureTarget _ _ _ | .terminateTarget _ _ => true
  | .spawnUnit _ _ _ _ | .spawnTarget _ _ _ _ => false

def Action.isStart : Action I K S R → Bool
  | .spawnUnit _ _ _ _ | .reconfigureUnit _ _ _ _ => true
  | .spawnTarget _ _ _ _ | .reconfigureTarget _ _ _ => true
  | .terminateUnit _ _ | .terminateTarget _ _ => false

/-- the commands that a running component receives: reconfigure and terminate -/
def commandsTo (x : Component) (actions : List (Action I K S R)) : List (Action I K S R) :=
  (about x actions).filter Action.isCommand

/-- how a component of the new configuration gets to run: it is spawned or reconfigured -/
def startsOf (x : Component) (actions : List (Action I K S R)) : List (Action I K S R) :=
  (about x actions).filter Action.isStart

/-- the configuration has a unit of that name and type that some link refers to -/
def Config.Continues (c : Config K S R P (Link I)) (name : Name) (kind : K) : Prop :=
  ∃ u, c.units.lookup name = some u ∧ u.kind = kind ∧ c.referenced name

structure Exact (m : Manager I K R P) (c : Config K S R P (Link I)) (m' : Manager I K R P)
    (actions : List (Action I K S R)) : Prop where
  reconfigured : ∀ name kind agent, m.runningUnits.lookup name = some (kind, agent) →
    c.Continues name kind →
      ∃ u gate, c.units.lookup name = some u ∧
        commandsTo (.unit name) actions = [.reconfigureUnit name agent u gate]
  terminated : ∀ name kind agent, m.runningUnits.lookup name = some (kind, agent) →
    ¬ c.Continues name kind → commandsTo (.unit name) actions = [.terminateUnit name agent]
  reconfiguredTarget : ∀ name kind sender t, m.runningTargets.lookup name = some (kind, sender) →
    c.targets.lookup name = some t → t.kind = kind →
      commandsTo (.target name) actions = [.reconfigureTarget name sender t]
  terminatedTarget : ∀ name kind sender, m.runningTargets.lookup name = some (kind, sender) →
    (∀ t, c.targets.lookup name = some t → t.kind ≠ kind) →
      commandsTo (.target name) actions = [.terminateTarget name sender]
  started : ∀ name u, c.units.lookup name = some u → c.referenced name →
    ∃ gate, ⟨name, gate.id⟩ ∈ c.links ∧
      (startsOf (.unit name) actions = [.spawnUnit name u gate m'.rotoPackage] ∨
        ∃ agent, startsOf (.unit name) actions = [.reconfigureUnit name agent u gate])
  unused : ∀ name, ¬ c.referenced name → startsOf (.unit name) actions = []
  startedTarget : ∀ name t, c.targets.lookup name = some t →
    ∃ channel, startsOf (.target name) actions = [.spawnTarget name t channel m'.rotoPackage] ∨
      startsOf (.target name) actions = [.reconfigureTarget name channel t]
  units : ∀ name kind agent, m'.runningUnits.lookup name = some (kind, agent) ↔
    ∃ u, c.units.lookup name = some u ∧ u.kind = kind ∧ ⟨name, agent⟩ ∈ c.links
  targets : ∀ name kind, (∃ sender, m'.runningTargets.lookup name = some (kind, sender)) ↔
    ∃ t, c.targets.lookup name = some t ∧ t.kind = kind

/-- no gate is left over from an earlier attempt -/
structure Ready (m : Manager I K R P) : Prop where
  gates : ∀ name, m.gates.lookup name = none
  pending : ∀ name, m.pendingGates.lookup name = none

/-! ## the stages of a round -/

variable {m m' : Manager I K R P} {a : Attempt I K S R P} {c : Config K S R P (Link I)}
  {actions : List (Action I K S R)}

lemma attempt_spawned (h : m.attempt a = (m', .spawned c actions)) :
    ∃ raw m₂, a.file = .config raw ∧
      c = raw.mapLinks (fun linkId =>
        (loadLink a.newId (loadLinks a.newId m.gates raw.links) linkId).2) ∧
      Manager.prepare { m with gates := loadLinks a.newId m.gates raw.links } a.order c = (m₂, true) ∧
      m₂.spawnAll a.commands c = (m', actions) := by
  cases hf : a.file with
  | error linkIds =>
    simp only [attempt, load, hf] at h
    cases h
  | config raw =>
    simp only [attempt, load, hf, ConfigFile.linkIds] at h
    split at h
    · split at h
      · cases h
      · next m₂ hp =>
        split at h
        · cases h
        · next m₃ actions' hs =>
          cases h
          refine ⟨raw, m₂, rfl, rfl, hp, ?_⟩
          unfold spawn at hs
          split at hs
          · exact some.inj hs
          · cases hs
    · cases h

lemma prepare_ok {L : Type} {c : Config K S R P L} {order : List Name}
    (h : m.prepare order c = (m', true)) :
    m'.runningUnits = m.runningUnits ∧ m'.runningTargets = m.runningTargets ∧ m'.gates = ∅ ∧
      ∀ name, m'.pendingGates.lookup name =
          ((m.gates.lookup name).map fun u => (u.gate, u.agent)).or (m.pendingGates.lookup name) ∧
        ((m.gates.lookup name).isSome = true → (c.units.lookup name).isSome = true) := by
  unfold prepare at h
  split at h
  · cases h
  · next rotoPackage hr =>
    have hres : (resolveGates c.units m.gates (visiting m.gates order) m.pendingGates).2 = true :=
      congrArg snd h
    have hm := congrArg fst h
    subst hm
    have hunits := resolveGates_true_iff.mp hres
    refine ⟨rfl, rfl, rfl, fun name => ⟨?_, fun hs => hunits name (mem_visiting.mpr hs) hs⟩⟩
    refine (lookup_resolveGates ..).trans ?_
    cases hl : m.gates.lookup name with
    | none => rw [map_none, ite_self]
    | some load =>
      -- no name stops the loop
      have hall : (visiting m.gates order).takeWhile
          (fun n => (c.units.lookup n).isSome || (m.gates.lookup n).isNone) =
          visiting m.gates order := by
        refine List.takeWhile_eq_self_iff.mpr fun n hn => ?_
        rw [hunits n hn (mem_visiting.mp hn), Bool.true_or]
      rw [hall, if_pos (mem_visiting.mpr (by rw [hl]; rfl))]

/-- the links of a configuration that was read when no gate was left have the new agents -/
lemma mem_links_iff (hr : Ready m) {raw : Config K S R P (List Char)}
    (hc : c = raw.mapLinks (fun linkId =>
      (loadLink a.newId (loadLinks a.newId m.gates raw.links) linkId).2)) (link : Link I) :
    link ∈ c.links ↔ link.name ∈ raw.links.map linkName ∧ link.agent = a.newId link.name := by
  have hlink : ∀ linkId ∈ raw.links,
      (loadLink a.newId (loadLinks a.newId m.gates raw.links) linkId).2 =
        ⟨linkName linkId, a.newId (linkName linkId)⟩ := by
    intro linkId hm
    have hgate : ∃ q, (loadLinks a.newId m.gates raw.links).lookup (linkName linkId) =
        some ⟨⟨a.newId (linkName linkId), q⟩, a.newId (linkName linkId)⟩ :=
      loadLinks_of_mem (hr.gates (linkName linkId)) (List.mem_map_of_mem hm)
    obtain ⟨q, hq⟩ := hgate
    rw [loadLink_of_some hq]
  rw [hc, links_mapLinks, List.mem_map]
  constructor
  · rintro ⟨linkId, hm, rfl⟩
    rw [hlink linkId hm]
    exact ⟨List.mem_map_of_mem hm, rfl⟩
  · rintro ⟨hm, ha⟩
    obtain ⟨linkId, hm, hn⟩ := List.mem_map.mp hm
    refine ⟨linkId, hm, ?_⟩
    rw [hlink linkId hm, hn, ← ha]

/-- a prepared configuration: every link has the agent drawn for its unit, and exactly the units that
are linked to have a pending gate -/
structure Prepared (newId : Name → I) (c : Config K S R P (Link I)) (m : Manager I K R P) : Prop where
  gates : m.gates = ∅
  link : ∀ link, link ∈ c.links ↔ c.referenced link.name ∧ link.agent = newId link.name
  unit : ∀ name, c.referenced name → (c.units.lookup name).isSome = true
  gate : ∀ name, c.referenced name →
    ∃ q, m.pendingGates.lookup name = some (⟨newId name, q⟩, newId name)
  idle : ∀ name, ¬ c.referenced name → m.pendingGates.lookup name = none

lemma prepared_of_ready (hr : Ready m) (h : m.attempt a = (m', .spawned c actions)) :
    ∃ m₂, Prepared a.newId c m₂ ∧ m₂.runningUnits = m.runningUnits ∧
      m₂.runningTargets = m.runningTargets ∧ m₂.spawnAll a.commands c = (m', actions) := by
  obtain ⟨raw, m₂, hf, hc, hp, hs⟩ := attempt_spawned h
  obtain ⟨hu, ht, hg, hpending⟩ := prepare_ok hp
  have hlinks := mem_links_iff hr hc
  have href : ∀ name, c.referenced name ↔ name ∈ raw.links.map linkName := by
    intro name
    constructor
    · rintro ⟨link, hm, rfl⟩
      exact ((hlinks link).mp hm).1
    · intro hm
      exact ⟨⟨name, a.newId name⟩, (hlinks _).mpr ⟨hm, rfl⟩, rfl⟩
  have hgate : ∀ name, c.referenced name →
      ∃ q, (loadLinks a.newId m.gates raw.links).lookup name =
        some ⟨⟨a.newId name, q⟩, a.newId name⟩ := by
    intro name hn
    exact loadLinks_of_mem (hr.gates name) ((href name).mp hn)
  refine ⟨m₂, ⟨hg, ?_, ?_, ?_, ?_⟩, hu, ht, hs⟩
  · intro link
    rw [hlinks, href]
  · intro name hn
    obtain ⟨q, hq⟩ := hgate name hn
    exact (hpending name).2 (by rw [hq]; rfl)
  · intro name hn
    obtain ⟨q, hq⟩ := hgate name hn
    refine ⟨q, ?_⟩
    rw [(hpending name).1, hq]
    rfl
  · intro name hn
    have hnone : (loadLinks a.newId m.gates raw.links).lookup name = none := by
      rw [loadLinks_of_notMem fun hm => hn ((href name).mpr hm)]
      exact hr.gates name
    rw [(hpending name).1, hnone]
    exact hr.pending name

/-! ## what a prepared configuration comes to -/

section prepared
variable {newId commands : Name → I}

lemma ready_spawnAll (hp : Prepared newId c m) : Ready (m.spawnAll commands c).1 where
  gates := by
    intro name
    show m.gates.lookup name = none
    rw [hp.gates]
    rfl
  pending := by
    intro name
    rw [(lookup_spawnAll commands m c name).2.2]
    by_cases hn : c.referenced name
    · rw [if_pos (hp.unit name hn)]
    · rw [hp.idle name hn, ite_self]

lemma exact_spawnAll (hp : Prepared newId c m) :
    Exact m c (m.spawnAll commands c).1 (m.spawnAll commands c).2 where
  reconfigured := by
    rintro name kind agent hrun ⟨u, hu, hk, hn⟩
    obtain ⟨q, hq⟩ := hp.gate name hn
    refine ⟨u, ⟨newId name, q⟩, hu, ?_⟩
    unfold commandsTo
    rw [about_unit, hu, hq, hrun, map_some, getD_some, unitBody_same hk]
    rfl
  terminated := by
    intro name kind agent hrun hnot
    unfold commandsTo
    rw [about_unit, hrun]
    cases hu : c.units.lookup name with
    | none => rfl
    | some u =>
      by_cases hn : c.referenced name
      · obtain ⟨q, hq⟩ := hp.gate name hn
        have hk : u.kind ≠ kind := fun hk => hnot ⟨u, hu, hk, hn⟩
        rw [hq, map_some, getD_some, unitBody_other hk]
        rfl
      · rw [hp.idle name hn]
        rfl
  reconfiguredTarget := by
    intro name kind sender t hrun ht hk
    unfold commandsTo
    rw [about_target, ht, hrun, map_some, getD_some, targetBody_same hk]
    rfl
  terminatedTarget := by
    intro name kind sender hrun hnot
    unfold commandsTo
    rw [about_target, hrun]
    cases ht : c.targets.lookup name with
    | none => rfl
    | some t =>
      rw [map_some, getD_some, targetBody_other (hnot t ht)]
      rfl
  started := by
    intro name u hu hn
    obtain ⟨q, hq⟩ := hp.gate name hn
    refine ⟨⟨newId name, q⟩, (hp.link _).mpr ⟨hn, rfl⟩, ?_⟩
    unfold startsOf
    rw [about_unit, hu, hq, map_some, getD_some]
    cases hrun : m.runningUnits.lookup name with
    | none =>
      left
      rfl
    | some r =>
      obtain ⟨kind, agent⟩ := r
      by_cases hk : u.kind = kind
      · right
        rw [unitBody_same hk]
        exact ⟨agent, rfl⟩
      · left
        rw [unitBody_other hk]
        rfl
  unused := by
    intro name hn
    unfold startsOf
    rw [about_unit, hp.idle name hn]
    cases hu : c.units.lookup name <;> cases hrun : m.runningUnits.lookup name <;> rfl
  startedTarget := by
    intro name t ht
    unfold startsOf
    rw [about_target, ht, map_some, getD_some]
    cases hrun : m.runningTargets.lookup name with
    | none => exact ⟨commands name, Or.inl rfl⟩
    | some r =>
      obtain ⟨kind, sender⟩ := r
      by_cases hk : t.kind = kind
      · rw [targetBody_same hk]
        exact ⟨sender, Or.inr rfl⟩
      · rw [targetBody_other hk]
        exact ⟨commands name, Or.inl rfl⟩
  units := by
    intro name kind agent
    rw [(lookup_spawnAll commands m c name).1, bind_eq_some_iff]
    apply exists_congr
    intro u
    apply and_congr_right
    intro hu
    rw [hp.link]
    by_cases hn : c.referenced name
    · obtain ⟨q, hq⟩ := hp.gate name hn
      have hbody : (unitBody m.rotoPackage name u (m.pendingGates.lookup name)
          (m.runningUnits.lookup name)).2 = some (u.kind, newId name) := by
        rw [hq]
        cases hrun : m.runningUnits.lookup name with
        | none => rfl
        | some r =>
          obtain ⟨kind, agent⟩ := r
          by_cases hk : u.kind = kind
          · rw [unitBody_same hk]
          · rw [unitBody_other hk]
      rw [hbody]
      simp [hn, eq_comm]
    · have hbody : (unitBody m.rotoPackage name u (m.pendingGates.lookup name)
          (m.runningUnits.lookup name)).2 = none := by
        rw [hp.idle name hn]
        cases hrun : m.runningUnits.lookup name <;> rfl
      rw [hbody]
      simp [hn]
  targets := by
    intro name kind
    rw [(lookup_spawnAll commands m c name).2.1]
    cases ht : c.targets.lookup name with
    | none => simp
    | some t =>
      have hkind : (targetBody m.rotoPackage name t (commands name)
          (m.runningTargets.lookup name)).2.1 = t.kind := by
        cases hrun : m.runningTargets.lookup name with
        | none => rfl
        | some r =>
          obtain ⟨kind, sender⟩ := r
          by_cases hk : t.kind = kind
          · rw [targetBody_same hk]
            exact hk.symm
          · rw [targetBody_other hk]
      simp [Prod.ext_iff, hkind]

end prepared

/-! ## rounds -/

lemma exact_of_running {m₂ : Manager I K R P} (hu : m₂.runningUnits = m.runningUnits)
    (ht : m₂.runningTargets = m.runningTargets) (h : Exact m₂ c m' actions) : Exact m c m' actions where
  reconfigured := hu ▸ h.reconfigured
  terminated := hu ▸ h.terminated
  reconfiguredTarget := ht ▸ h.reconfiguredTarget
  terminatedTarget := ht ▸ h.terminatedTarget
  started := h.started
  unused := h.unused
  startedTarget := h.startedTarget
  units := h.units
  targets := h.targets

lemma exact_attempt (hr : Ready m) (h : m.attempt a = (m', .spawned c actions)) :
    Ready m' ∧ Exact m c m' actions := by
  obtain ⟨m₂, hp, hu, ht, hs⟩ := prepared_of_ready hr h
  have hm : (m₂.spawnAll a.commands c).1 = m' := congrArg fst hs
  have ha : (m₂.spawnAll a.commands c).2 = actions := congrArg snd hs
  refine ⟨hm ▸ ready_spawnAll hp, exact_of_running hu ht ?_⟩
  rw [← hm, ← ha]
  exact exact_spawnAll hp

/-- the manager after rounds that all succeed -/
def Manager.rounds (m : Manager I K R P) : List (Attempt I K S R P) → Option (Manager I K R P)
  | [] => some m
  | a :: as =>
    match m.attempt a with
    | (m', .spawned _ _) => m'.rounds as
    | _ => none

lemma ready_rounds (hr : Ready m) {as : List (Attempt I K S R P)} (h : m.rounds as = some m') :
    Ready m' := by
  induction as generalizing m with
  | nil =>
    cases h
    exact hr
  | cons a as ih =>
    unfold rounds at h
    split at h
    · next m₁ c actions ha => exact ih (exact_attempt hr ha).1 h
    · cases h

/-- **after any number of successful rounds, a successful round is exact** -/
theorem exact_rounds (as : List (Attempt I K S R P)) (h : Manager.new.rounds as = some m)
    (hs : m.attempt a = (m', .spawned c actions)) : Exact m c m' actions :=
  (exact_attempt (ready_rounds ⟨fun _ => rfl, fun _ => rfl⟩ h) hs).2

/-! ## a unit and a target, started and then reloaded -/

/-- a unit `a`, and a target `t` linked to it -/
def pairConfig : Config Bool Unit Unit Unit (List Char) where
  units := AList.singleton ['a'] ⟨false, [], ()⟩
  targets := AList.singleton ['t'] ⟨true, [['a']], ()⟩
  logging := true
  roto := none
  snapshot := ()

def pairAttempt (serial : Nat) : Attempt Nat Bool Unit Unit Unit :=
  ⟨fun _ => serial, fun _ => serial, [], .config pairConfig⟩

def pairRunning (agent sender : Nat) : Manager Nat Bool Unit Unit :=
  ⟨∅, ∅, AList.singleton ['a'] (false, agent), AList.singleton ['t'] (true, sender), none, some ()⟩

theorem exact_pair_reloaded :
    Manager.new.rounds [pairAttempt 1] = some (pairRunning 1 1) ∧
      Exact (pairRunning 1 1) (pairConfig.mapLinks fun _ => ⟨['a'], 2⟩) (pairRunning 2 1)
        [.reconfigureTarget ['t'] 1 ⟨true, [⟨['a'], 2⟩], ()⟩,
          .reconfigureUnit ['a'] 1 ⟨false, [], ()⟩ ⟨2, 8⟩] :=
  ⟨rfl, exact_rounds (a := pairAttempt 2) [pairAttempt 1] rfl rfl⟩

end Netom.Reload
