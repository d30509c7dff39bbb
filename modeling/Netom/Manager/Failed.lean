import Netom.Manager.Round

/-!
# What a failed attempt leaves behind

An attempt to load a configuration can fail while the file is read, when logging is switched, when the
roto script is compiled, and at a link to a unit that does not exist.  Up to the third point the gates
made for the links stay in the table, where the next attempt finds them.  At the last one the table has
been emptied, but the roto package and the snapshot have been replaced, and some gates are pending.

Gates are compared by their queue sizes: their ids are drawn at random, so here they are of the unit
type.

* `Same`  the manager serves the same and every later attempt has the same outcome;
* `Harmless`  what a failed attempt must not leave behind;
* `same_iff_harmless`  the one is the other.
-/

set_option linter.unusedSectionVars false
namespace Netom.Reload
open List Option Assoc AList
variable {K S R P : Type} [DecidableEq K]

/-! ## what can be observed later -/

/-- the outcomes of one attempt after the other -/
def Manager.outcomes (m : Manager Unit K R P) : List (Attempt Unit K S R P) → List (Outcome Unit K S R P)
  | [] => []
  | a :: as => (m.attempt a).2 :: (m.attempt a).1.outcomes as

structure Same (S : Type) (m m' : Manager Unit K R P) : Prop where
  snapshot : m'.snapshot = m.snapshot
  rotoPackage : m'.rotoPackage = m.rotoPackage
  outcomes : ∀ as : List (Attempt Unit K S R P), m'.outcomes as = m.outcomes as

/-- the table of gates after the file has been read -/
def Manager.read (m : Manager Unit K R P) (a : Attempt Unit K S R P) : Gates Unit :=
  loadLinks a.newId m.gates a.file.linkIds

/-- every link that was read finds a gate that is already there -/
def NoNewGate (m : Manager Unit K R P) (a : Attempt Unit K S R P) : Prop :=
  ∀ linkId ∈ a.file.linkIds, (m.gates.lookup (linkName linkId)).isSome = true

/-- the gates of the table that are visited before the first that is of no unit -/
def Manager.visited (m : Manager Unit K R P) (a : Attempt Unit K S R P)
    (c : Config K S R P (List Char)) : List Name :=
  (visiting (m.read a) a.order).takeWhile fun name =>
    (c.units.lookup name).isSome || ((m.read a).lookup name).isNone

/-- an unresolved link comes after the snapshot and the roto package were stored, the table was emptied
and some gates are pending: all of that has to be as it was -/
structure NothingStored (m : Manager Unit K R P) (a : Attempt Unit K S R P)
    (c : Config K S R P (List Char)) : Prop where
  gates : ∀ name, m.gates.lookup name = none
  snapshot : m.snapshot = some c.snapshot
  rotoPackage : ∀ package, c.roto = some (some package) → m.rotoPackage = some package
  pending : ∀ name ∈ m.visited a c,
    m.pendingGates.lookup name = ((m.read a).lookup name).map fun u => (u.gate, u.agent)

def compiles : Option (Option R) → Bool
  | some none => false
  | _ => true

def Harmless (m : Manager Unit K R P) (a : Attempt Unit K S R P) : Prop :=
  match a.file with
  | .error _ => NoNewGate m a
  | .config c => if c.logging && compiles c.roto then NothingStored m a c else NoNewGate m a

/-! ## where an attempt fails -/

variable {m m' : Manager Unit K R P} {a : Attempt Unit K S R P} {c : Config K S R P (List Char)}

/-- the configuration with its links connected -/
def Manager.connected (m : Manager Unit K R P) (a : Attempt Unit K S R P)
    (c : Config K S R P (List Char)) : Config K S R P (Link Unit) :=
  c.mapLinks fun linkId => (loadLink a.newId (m.read a) linkId).2

lemma lookup_connected (name : Name) :
    ((m.connected a c).units.lookup name).isSome = (c.units.lookup name).isSome := by
  show ((filterMapVals _ c.units).lookup name).isSome = _
  rw [lookup_filterMapVals]
  cases c.units.lookup name <;> rfl

lemma attempt_error {linkIds : List (List Char)} (hf : a.file = .error linkIds) :
    m.attempt a = ({ m with gates := m.read a }, .failed) := by
  simp only [Manager.attempt, Manager.load, Manager.read, hf]

lemma load_config (hf : a.file = .config c) :
    m.load a.newId a.file = ({ m with gates := m.read a }, some (m.connected a c)) := by
  simp only [Manager.load, Manager.read, Manager.connected, hf]

/-- logging or the roto script fails: only the table has changed -/
lemma attempt_early (hf : a.file = .config c) (h : (c.logging && compiles c.roto) = false) :
    m.attempt a = ({ m with gates := m.read a }, .failed) := by
  cases hl : c.logging with
  | false =>
    have hlog : (m.connected a c).logging = false := hl
    simp only [Manager.attempt, load_config hf, hlog, Bool.false_eq_true, if_false]
  | true =>
    have hlog : (m.connected a c).logging = true := hl
    have hr : (m.connected a c).roto = some none := by
      rw [hl, Bool.true_and] at h
      unfold compiles at h
      split at h
      · next hr => exact hr
      · cases h
    simp only [Manager.attempt, load_config hf, hlog, if_true, Manager.prepare, hr, compileRotoScript]

/-- the roto package after a script that compiles -/
def package (old : Option R) : Option (Option R) → Option R
  | some (some new) => some new
  | _ => old

lemma compileRotoScript_of_compiles {old : Option R} {roto : Option (Option R)}
    (h : compiles roto = true) : compileRotoScript old roto = some (package old roto) := by
  cases roto with
  | none => rfl
  | some r =>
    cases r with
    | none => cases h
    | some new => rfl

/-- what `prepare` makes of the manager, whether it fails at a link or not -/
def Manager.prepared (m : Manager Unit K R P) (a : Attempt Unit K S R P)
    (c : Config K S R P (List Char)) : Manager Unit K R P :=
  { m with
    rotoPackage := package m.rotoPackage c.roto
    snapshot := some c.snapshot
    gates := ∅
    pendingGates := (resolveGates (m.connected a c).units (m.read a)
      (visiting (m.read a) a.order) m.pendingGates).1 }

/-- every gate of the table is of a unit -/
def AllResolved (m : Manager Unit K R P) (a : Attempt Unit K S R P)
    (c : Config K S R P (List Char)) : Prop :=
  ∀ name, ((m.read a).lookup name).isSome = true → (c.units.lookup name).isSome = true

lemma resolved_iff {pending : Assoc Name (NewGate Unit × Unit)} :
    (resolveGates (m.connected a c).units (m.read a) (visiting (m.read a) a.order) pending).2 = true ↔
      AllResolved m a c := by
  rw [resolveGates_true_iff]
  constructor
  · intro h name hs
    rw [← lookup_connected (m := m) (a := a)]
    exact h name (mem_visiting.mpr hs) hs
  · intro h name _ hs
    rw [lookup_connected]
    exact h name hs

lemma prepare_connected (hc : compiles c.roto = true) :
    Manager.prepare { m with gates := m.read a } a.order (m.connected a c) =
      (m.prepared a c, (resolveGates (m.connected a c).units (m.read a)
        (visiting (m.read a) a.order) m.pendingGates).2) := by
  have hroto : (m.connected a c).roto = c.roto := rfl
  unfold Manager.prepare
  rw [hroto]
  simp only [compileRotoScript_of_compiles hc]
  rfl

lemma attempt_unresolved (hf : a.file = .config c) (h : (c.logging && compiles c.roto) = true)
    (hr : ¬ AllResolved m a c) : m.attempt a = (m.prepared a c, .failed) := by
  obtain ⟨hlog, hc⟩ := Bool.and_eq_true_iff.mp h
  have hp := prepare_connected (m := m) (a := a) hc
  have hfalse : (resolveGates (m.connected a c).units (m.read a) (visiting (m.read a) a.order)
      m.pendingGates).2 = false := by
    rw [← Bool.not_eq_true, resolved_iff]
    exact hr
  rw [hfalse] at hp
  have hlog' : (m.connected a c).logging = true := hlog
  simp only [Manager.attempt, load_config hf, hlog', if_true, hp]

lemma attempt_resolved (hf : a.file = .config c) (h : (c.logging && compiles c.roto) = true)
    (hr : AllResolved m a c) :
    m.attempt a =
      match (m.prepared a c).spawn a.commands (m.connected a c) with
      | none => (m.prepared a c, .panicked)
      | some (m', actions) => (m', .spawned (m.connected a c) actions) := by
  obtain ⟨hlog, hc⟩ := Bool.and_eq_true_iff.mp h
  have hp := prepare_connected (m := m) (a := a) hc
  rw [resolved_iff.mpr hr] at hp
  have hlog' : (m.connected a c).logging = true := hlog
  simp only [Manager.attempt, load_config hf, hlog', if_true, hp]
  cases (m.prepared a c).spawn a.commands (m.connected a c) <;> rfl

/-- an attempt with a sound configuration fails at an unresolved link only -/
lemma attempt_failed_iff (hf : a.file = .config c) (h : (c.logging && compiles c.roto) = true) :
    (m.attempt a).2 = .failed ↔ ¬ AllResolved m a c := by
  constructor
  · intro hfail hr
    rw [attempt_resolved hf h hr] at hfail
    split at hfail <;> cases hfail
  · intro hr
    rw [attempt_unresolved hf h hr]

/-! ## managers that differ in nothing that matters -/

/-- the pending gates are only looked up by name -/
structure Alike (m m' : Manager Unit K R P) : Prop where
  gates : m'.gates = m.gates
  pending : ∀ name, m'.pendingGates.lookup name = m.pendingGates.lookup name
  units : m'.runningUnits = m.runningUnits
  targets : m'.runningTargets = m.runningTargets
  rotoPackage : m'.rotoPackage = m.rotoPackage
  snapshot : m'.snapshot = m.snapshot

/-- the same for the loops of `spawn` -/
structure AlikeLoops (s s' : Spawning Unit K S R) : Prop where
  pending : ∀ name, s'.pendingGates.lookup name = s.pendingGates.lookup name
  units : s'.runningUnits = s.runningUnits
  targets : s'.runningTargets = s.runningTargets
  newUnits : s'.newRunningUnits = s.newRunningUnits
  newTargets : s'.newRunningTargets = s.newRunningTargets
  actions : s'.actions = s.actions

lemma alike_target (roto : Option R) (commands : Name → Unit) {s s' : Spawning Unit K S R}
    (h : AlikeLoops s s') (es : List (Name × Part K S (Link Unit))) :
    AlikeLoops (es.foldl (Spawning.target roto commands) s)
      (es.foldl (Spawning.target roto commands) s') := by
  induction es generalizing s s' with
  | nil => exact h
  | cons e es ih =>
    apply ih
    unfold Spawning.target
    rw [h.targets, h.newTargets, h.actions]
    exact ⟨h.pending, h.units, rfl, h.newUnits, rfl, rfl⟩

lemma alike_unit (roto : Option R) {s s' : Spawning Unit K S R} (h : AlikeLoops s s')
    (es : List (Name × Part K S (Link Unit))) :
    AlikeLoops (es.foldl (Spawning.unit roto) s) (es.foldl (Spawning.unit roto) s') := by
  induction es generalizing s s' with
  | nil => exact h
  | cons e es ih =>
    apply ih
    unfold Spawning.unit
    rw [h.units, h.newUnits, h.actions, h.pending e.1]
    refine ⟨fun name => ?_, rfl, h.targets, rfl, h.newTargets, rfl⟩
    show (s'.pendingGates.erase e.1).lookup name = (s.pendingGates.erase e.1).lookup name
    rw [lookup_erase_eq, lookup_erase_eq, h.pending]

lemma alike_spawnAll (h : Alike m m') (commands : Name → Unit) (c : Config K S R P (Link Unit)) :
    Alike (m.spawnAll commands c).1 (m'.spawnAll commands c).1 ∧
      (m'.spawnAll commands c).2 = (m.spawnAll commands c).2 := by
  have hstart : AlikeLoops
      (⟨m.pendingGates, m.runningUnits, m.runningTargets, ∅, ∅, []⟩ : Spawning Unit K S R)
      ⟨m'.pendingGates, m'.runningUnits, m'.runningTargets, ∅, ∅, []⟩ :=
    ⟨h.pending, h.units, h.targets, rfl, rfl, rfl⟩
  have hs := alike_unit m.rotoPackage
    (alike_target m.rotoPackage commands hstart (pairs c.targets)) (pairs c.units)
  unfold Manager.spawnAll
  rw [h.rotoPackage]
  refine ⟨⟨h.gates, hs.pending, hs.newUnits, hs.newTargets, rfl, h.snapshot⟩, ?_⟩
  show _ ++ _ ++ _ = _ ++ _ ++ _
  rw [hs.actions, hs.units, hs.targets]

lemma alike_prepared (h : Alike m m') (a : Attempt Unit K S R P) (c : Config K S R P (List Char)) :
    Alike (m.prepared a c) (m'.prepared a c) := by
  have hread : m'.read a = m.read a := by
    unfold Manager.read
    rw [h.gates]
  have hconn : m'.connected a c = m.connected a c := by
    unfold Manager.connected
    rw [hread]
  refine ⟨rfl, fun name => ?_, h.units, h.targets, ?_, rfl⟩
  · show (resolveGates _ _ _ m'.pendingGates).1.lookup name =
      (resolveGates _ _ _ m.pendingGates).1.lookup name
    rw [lookup_resolveGates, lookup_resolveGates, hread, hconn, h.pending]
  · show package m'.rotoPackage c.roto = package m.rotoPackage c.roto
    rw [h.rotoPackage]

lemma alike_attempt (h : Alike m m') (a : Attempt Unit K S R P) :
    Alike (m.attempt a).1 (m'.attempt a).1 ∧ (m'.attempt a).2 = (m.attempt a).2 := by
  have hread : m'.read a = m.read a := by
    unfold Manager.read
    rw [h.gates]
  have hearly : Alike { m with gates := m.read a } { m' with gates := m'.read a } :=
    ⟨hread, h.pending, h.units, h.targets, h.rotoPackage, h.snapshot⟩
  cases hf : a.file with
  | error linkIds =>
    rw [attempt_error hf, attempt_error hf]
    exact ⟨hearly, rfl⟩
  | config c =>
    cases hs : c.logging && compiles c.roto with
    | false =>
      rw [attempt_early hf hs, attempt_early hf hs]
      exact ⟨hearly, rfl⟩
    | true =>
      have hp := alike_prepared h a c
      have hconn : m'.connected a c = m.connected a c := by
        unfold Manager.connected
        rw [hread]
      have hres : AllResolved m' a c ↔ AllResolved m a c := by
        unfold AllResolved
        rw [hread]
      by_cases hr : AllResolved m a c
      · rw [attempt_resolved hf hs hr, attempt_resolved hf hs (hres.mpr hr), hconn]
        obtain ⟨hspawn, hactions⟩ := alike_spawnAll hp a.commands (m.connected a c)
        rcases hx : (m.prepared a c).spawnAll a.commands (m.connected a c) with ⟨m₁, as₁⟩
        rcases hx' : (m'.prepared a c).spawnAll a.commands (m.connected a c) with ⟨m₂, as₂⟩
        rw [hx, hx'] at hspawn hactions
        cases hactions
        unfold Manager.spawn
        rw [hx, hx']
        by_cases hnd : (as₁.filterMap Action.tracked).Nodup
        · simp only [hnd, if_true]
          exact ⟨hspawn, trivial⟩
        · simp only [hnd, if_false]
          exact ⟨hp, trivial⟩
      · rw [attempt_unresolved hf hs hr, attempt_unresolved hf hs (mt hres.mp hr)]
        exact ⟨hp, rfl⟩

lemma Alike.same (h : Alike m m') : Same S m m' := by
  refine ⟨h.snapshot, h.rotoPackage, fun as => ?_⟩
  induction as generalizing m m' with
  | nil => rfl
  | cons a as ih =>
    obtain ⟨h1, h2⟩ := alike_attempt h a
    show (m'.attempt a).2 :: _ = (m.attempt a).2 :: _
    rw [h2]
    exact congrArg _ (ih h1)

/-- what the first later attempt comes to -/
lemma Same.attempt (h : Same S m m') (a : Attempt Unit K S R P) : (m'.attempt a).2 = (m.attempt a).2 :=
  (cons.inj (h.outcomes [a])).1

/-! ## an attempt that fails early -/

lemma loadLinks_eq_self {I : Type} {newId : Name → I} {gates : Gates I} {linkIds : List (List Char)}
    (h : ∀ linkId ∈ linkIds, (gates.lookup (linkName linkId)).isSome = true) :
    loadLinks newId gates linkIds = gates := by
  induction linkIds with
  | nil => rfl
  | cons linkId linkIds ih =>
    obtain ⟨unit, hu⟩ := isSome_iff_exists.mp (h linkId mem_cons_self)
    rw [loadLinks_cons, loadLink_of_some hu]
    exact ih fun l hl => h l (mem_cons_of_mem linkId hl)

section later
variable [Inhabited K] [Inhabited S] [Inhabited P]

/-- a configuration without links, with units of the given names -/
def plain (units : Assoc Name (Part K S (List Char))) : Config K S R P (List Char) :=
  ⟨units, ∅, true, none, default⟩

def plainAttempt (units : Assoc Name (Part K S (List Char))) : Attempt Unit K S R P :=
  ⟨fun _ => (), fun _ => (), [], .config (plain units)⟩

/-- a unit without links for every gate of a table -/
def unitsFor (gates : Gates Unit) : Assoc Name (Part K S (List Char)) :=
  filterMapVals (fun _ _ => some ⟨default, [], default⟩) gates

lemma lookup_unitsFor (gates : Gates Unit) (name : Name) :
    ((unitsFor gates : Assoc Name (Part K S (List Char))).lookup name).isSome =
      (gates.lookup name).isSome := by
  unfold unitsFor
  rw [lookup_filterMapVals]
  cases gates.lookup name <;> rfl

lemma partLinks_unitsFor (gates : Gates Unit) :
    partLinks (unitsFor gates : Assoc Name (Part K S (List Char))) = [] := by
  refine flatMap_eq_nil_iff.mpr fun e he => ?_
  obtain ⟨g, -, hg⟩ := mem_filterMap.mp he
  cases hg
  rfl

variable {units : Assoc Name (Part K S (List Char))} {pending : Option (NewGate Unit × Unit)}

lemma read_plain (m : Manager Unit K R P) (h : partLinks units = []) :
    m.read (plainAttempt units) = m.gates := by
  show loadLinks _ m.gates (partLinks units ++ []) = m.gates
  rw [h]
  rfl

/-- it fails iff a gate in the table is of none of its units -/
lemma plain_failed_iff (h : partLinks units = []) : (m.attempt (plainAttempt units)).2 = .failed ↔
      ¬ ∀ name, (m.gates.lookup name).isSome = true → (units.lookup name).isSome = true := by
  rw [attempt_failed_iff rfl rfl]
  unfold AllResolved
  rw [read_plain m h]
  exact Iff.rfl

/-- a failure that changes the table only is harmless iff it does not change it -/
lemma same_early_iff :
    Same S m { m with gates := m.read a } ↔ NoNewGate m a := by
  constructor
  · intro h linkId hm
    by_contra hnone
    have hnone := not_isSome_iff_eq_none.mp hnone
    -- the configuration with a unit for each gate of the old table
    have hout := h.attempt (plainAttempt (unitsFor m.gates))
    have hok : ¬ (m.attempt (plainAttempt (unitsFor m.gates) : Attempt Unit K S R P)).2 = .failed := by
      rw [plain_failed_iff (partLinks_unitsFor _), not_not]
      intro name hs
      rw [lookup_unitsFor]
      exact hs
    rw [← hout, plain_failed_iff (partLinks_unitsFor _), not_not] at hok
    obtain ⟨q, hq⟩ : ∃ q, (m.read a).lookup (linkName linkId) =
      some ⟨⟨a.newId (linkName linkId), q⟩, _⟩ :=
      loadLinks_of_mem hnone (mem_map_of_mem hm)
    have hfound := hok (linkName linkId) (by rw [hq]; rfl)
    rw [lookup_unitsFor, hnone] at hfound
    cases hfound
  · intro h
    have hread : m.read a = m.gates := loadLinks_eq_self h
    rw [hread]
    exact Alike.same ⟨rfl, fun _ => rfl, rfl, rfl, rfl, rfl⟩

/-! ## an attempt that fails at a link -/

lemma gates_eq_empty {gates : Gates Unit} (h : ∀ name, gates.lookup name = none) : gates = ∅ := by
  apply AList.ext
  show gates.entries = []
  rw [eq_nil_iff_forall_not_mem]
  intro e he
  have hl : gates.lookup e.1 = some e.2 := mem_lookup_iff.mpr he
  rw [h] at hl
  cases hl

lemma lookup_prepared (name : Name) :
    (m.prepared a c).pendingGates.lookup name =
      (if name ∈ m.visited a c then ((m.read a).lookup name).map fun u => (u.gate, u.agent) else none).or
        (m.pendingGates.lookup name) := by
  have hpred : (fun n => ((m.connected a c).units.lookup n).isSome || ((m.read a).lookup n).isNone) =
      fun n => (c.units.lookup n).isSome || ((m.read a).lookup n).isNone := by
    funext n
    rw [lookup_connected]
  refine (lookup_resolveGates ..).trans ?_
  rw [hpred]
  rfl

lemma nodup_tracked_unitBody {roto : Option R} {name : Name} {unit : Part K S (Link Unit)}
    {running : Option (K × Unit)} :
    ((unitBody roto name unit pending running).1.filterMap Action.tracked).Nodup := by
  cases pending with
  | none => cases running <;> exact nodup_nil
  | some g =>
    obtain ⟨gate, new⟩ := g
    cases running with
    | none => exact nodup_singleton name
    | some r =>
      obtain ⟨kind, agent⟩ := r
      by_cases hk : unit.kind = kind
      · rw [unitBody_same hk]
        exact nodup_nil
      · rw [unitBody_other hk]
        exact nodup_singleton name

/-- what is done for a unit tells the gate that was pending for it -/
lemma pending_of_unitBody {roto : Option R} {name : Name} {unit : Part K S (Link Unit)}
    {gate : NewGate Unit × Unit} {running : Option (K × Unit)}
    (h : (unitBody roto name unit (some gate) running).1 = (unitBody roto name unit pending running).1) :
    pending = some gate := by
  obtain ⟨gate, new⟩ := gate
  cases running with
  | none =>
    cases pending with
    | none => cases h
    | some g =>
      obtain ⟨gate', new'⟩ := g
      cases h
      rfl
  | some r =>
    obtain ⟨kind, agent⟩ := r
    by_cases hk : unit.kind = kind
    · cases pending with
      | none =>
        rw [unitBody_same hk] at h
        cases h
      | some g =>
        obtain ⟨gate', new'⟩ := g
        rw [unitBody_same hk, unitBody_same hk] at h
        cases h
        rfl
    · cases pending with
      | none =>
        rw [unitBody_other hk] at h
        cases h
      | some g =>
        obtain ⟨gate', new'⟩ := g
        rw [unitBody_other hk, unitBody_other hk] at h
        cases h
        rfl

lemma tracked_about {x : Component} {actions : List (Action Unit K S R)}
    (h : ∀ a ∈ actions, a.component ≠ x → a.tracked = none) :
    actions.filterMap Action.tracked = (about x actions).filterMap Action.tracked := by
  induction actions with
  | nil => rfl
  | cons a actions ih =>
    have ih := ih fun b hb => h b (mem_cons_of_mem a hb)
    by_cases hx : a.component = x
    · have hcons : about x (a :: actions) = a :: about x actions := by
        simp only [about, filter_cons, hx, decide_true, if_true]
      rw [hcons, filterMap_cons, filterMap_cons, ih]
    · have hcons : about x (a :: actions) = about x actions := by
        simp only [about, filter_cons, hx, decide_false, Bool.false_eq_true, if_false]
      rw [hcons, filterMap_cons_none (h a mem_cons_self hx), ih]

/-- one unit without links -/
def single (name : Name) : Assoc Name (Part K S (List Char)) :=
  singleton name ⟨default, [], default⟩

/-- what it comes to, where no gate is left in the table -/
lemma attempt_single (hg : ∀ name, m.gates.lookup name = none) (name : Name) :
    ∃ c actions, (m.attempt (plainAttempt (single name) : Attempt Unit K S R P)).2 =
        .spawned c actions ∧
      about (.unit name) actions = (unitBody m.rotoPackage name ⟨default, [], default⟩
        (m.pendingGates.lookup name) (m.runningUnits.lookup name)).1 := by
  have hlinks : partLinks (single name : Assoc Name (Part K S (List Char))) = [] := rfl
  have hres : AllResolved m (plainAttempt (single name) : Attempt Unit K S R P) (plain (single name)) := by
    intro n hn
    rw [read_plain m hlinks, hg] at hn
    cases hn
  rw [attempt_resolved rfl rfl hres]
  generalize hm : m.prepared (plainAttempt (single name) : Attempt Unit K S R P) (plain (single name)) = m₂
  generalize hc : m.connected (plainAttempt (single name) : Attempt Unit K S R P) (plain (single name)) = c₂
  have hunit : c₂.units.lookup name = some ⟨default, [], default⟩ := by
    rw [← hc]
    show (filterMapVals _ (single name)).lookup name = _
    rw [lookup_filterMapVals]
    have hs : (single name : Assoc Name (Part K S (List Char))).lookup name =
        some ⟨default, [], default⟩ := mem_lookup_iff.mpr mem_cons_self
    rw [hs]
    rfl
  have hpending : m₂.pendingGates.lookup name = m.pendingGates.lookup name := by
    rw [← hm, lookup_prepared, read_plain m hlinks, hg, map_none, ite_self]
    rfl
  have hrunning : m₂.runningUnits = m.runningUnits := by rw [← hm]; rfl
  have hroto : m₂.rotoPackage = m.rotoPackage := by rw [← hm]; rfl
  have habout := about_unit (fun _ => ()) m₂ c₂ name
  rw [hunit, hpending, hrunning, hroto, map_some, getD_some] at habout
  have htracked : ∀ a ∈ (m₂.spawnAll (fun _ => ()) c₂).2,
      a.component ≠ .unit name → a.tracked = none := by
    intro a ha hne
    obtain ⟨s, s', ht, hu, heq⟩ := spawnAll_loops (fun _ => ()) m₂ c₂
    have htargets : pairs c₂.targets = [] := by rw [← hc]; rfl
    have hpairs : pairs c₂.units = [(name, ⟨default, [], default⟩)] := by rw [← hc]; rfl
    rw [heq, hu.actions, ht.actions, htargets, hpairs] at ha
    rcases mem_append.mp ha with ha | ha
    · rcases mem_append.mp ha with ha | ha
      · rw [flatMap_nil, append_nil, nil_append, flatMap_singleton] at ha
        exact absurd (component_unitBody ha) hne
      · obtain ⟨e, -, rfl⟩ := mem_map.mp ha
        rfl
    · obtain ⟨e, -, rfl⟩ := mem_map.mp ha
      rfl
  have hnodup : ((m₂.spawnAll (fun _ => ()) c₂).2.filterMap Action.tracked).Nodup := by
    rw [tracked_about htracked, habout]
    exact nodup_tracked_unitBody
  refine ⟨c₂, (m₂.spawnAll (fun _ => ()) c₂).2, ?_, habout⟩
  have hspawn : m₂.spawn (fun _ => ()) c₂ = some (m₂.spawnAll (fun _ => ()) c₂) := if_pos hnodup
  show (match m₂.spawn (fun _ => ()) c₂ with
    | none => (m₂, Outcome.panicked)
    | some (m', actions) => (m', Outcome.spawned c₂ actions)).2 = _
  rw [hspawn]

lemma same_late_iff :
    Same S m (m.prepared a c) ↔ NothingStored m a c := by
  constructor
  · intro h
    have hg : ∀ name, m.gates.lookup name = none := by
      have hout := h.attempt (plainAttempt ∅)
      have hok : ¬ ((m.prepared a c).attempt (plainAttempt ∅ : Attempt Unit K S R P)).2 = .failed := by
        rw [plain_failed_iff rfl, not_not]
        intro name hs
        cases hs
      rw [hout, plain_failed_iff rfl, not_not] at hok
      intro name
      rw [← not_isSome_iff_eq_none]
      intro hs
      cases hok name hs
    refine ⟨hg, h.snapshot.symm, ?_, ?_⟩
    · intro new hnew
      rw [← h.rotoPackage]
      show package m.rotoPackage c.roto = some new
      rw [hnew]
      rfl
    · intro name hv
      have hread : ((m.read a).lookup name).isSome = true :=
        mem_visiting.mp (takeWhile_subset _ hv)
      obtain ⟨load, hload⟩ := isSome_iff_exists.mp hread
      have hpending : (m.prepared a c).pendingGates.lookup name = some (load.gate, load.agent) := by
        rw [lookup_prepared, if_pos hv, hload]
        rfl
      -- the unit of that name, without links
      obtain ⟨c₁, as₁, h1, hab1⟩ := attempt_single (S := S) hg name
      obtain ⟨c₂, as₂, h2, hab2⟩ := attempt_single (S := S) (m := m.prepared a c) (fun _ => rfl) name
      have hout := h.attempt (plainAttempt (single name))
      rw [h1, h2] at hout
      cases hout
      rw [hab1] at hab2
      rw [hpending, show (m.prepared a c).rotoPackage = m.rotoPackage from h.rotoPackage] at hab2
      rw [hload]
      exact pending_of_unitBody hab2.symm
  · intro h
    refine Alike.same ⟨(gates_eq_empty h.gates).symm, ?_, rfl, rfl, ?_, h.snapshot.symm⟩
    · intro name
      rw [lookup_prepared]
      by_cases hv : name ∈ m.visited a c
      · rw [if_pos hv, ← h.pending name hv, Option.or_self]
      · rw [if_neg hv]
        rfl
    · show package m.rotoPackage c.roto = m.rotoPackage
      unfold package
      split
      · next new hnew => exact (h.rotoPackage new hnew).symm
      · rfl

/-- **the manager is as if a failed attempt had not been made iff the attempt was harmless** -/
theorem same_iff_harmless (m : Manager Unit K R P) (a : Attempt Unit K S R P)
    (hfail : (m.attempt a).2 = .failed) : Same S m (m.attempt a).1 ↔ Harmless m a := by
  unfold Harmless
  cases hf : a.file with
  | error linkIds =>
    rw [attempt_error hf]
    exact same_early_iff
  | config c =>
    show _ ↔ if (c.logging && compiles c.roto) = true then NothingStored m a c else NoNewGate m a
    cases hs : c.logging && compiles c.roto with
    | false =>
      rw [attempt_early hf hs, if_neg Bool.false_ne_true]
      exact same_early_iff
    | true =>
      rw [attempt_unresolved hf hs ((attempt_failed_iff hf hs).mp hfail), if_pos rfl]
      exact same_late_iff

end later

/-! ## two failed attempts -/

def attemptOf (file : ConfigFile Unit Unit Unit Bool) : Attempt Unit Unit Unit Unit Bool :=
  ⟨fun _ => (), fun _ => (), [], file⟩

/-- a target with a link to a unit that is not there -/
def dangling : Config Unit Unit Unit Bool (List Char) :=
  ⟨∅, singleton ['t'] ⟨(), [['u']], ()⟩, true, none, true⟩

/-- a file that ends in an error after a link is harmless when it is read again -/
theorem same_readAgain :
    let m := (Manager.new.attempt (attemptOf (.error [['u']]))).1
    (m.attempt (attemptOf (.error [['u']]))).2 = .failed ∧
      Same Unit m (m.attempt (attemptOf (.error [['u']]))).1 :=
  ⟨rfl, (same_iff_harmless _ (attemptOf (.error [['u']])) rfl).mpr (forall_mem_singleton.mpr rfl)⟩

/-- the dangling configuration is refused and served; and a file that ends in an error after a link
makes the next configuration fail, which is fine without it -/
theorem failed_attempts_stay :
    (Manager.new.attempt (attemptOf (.config dangling))).2 = .failed ∧
      (Manager.new.attempt (attemptOf (.config dangling))).1.snapshot = some true ∧
      (Manager.new.attempt (attemptOf (.error [['u']]))).2 = .failed ∧
      (Manager.new.outcomes [attemptOf (.error [['u']]), attemptOf (.config (plain ∅))]).getLast? =
        some .failed ∧
      (Manager.new.outcomes [attemptOf (.config (plain ∅))]).getLast? =
        some (.spawned ⟨∅, ∅, true, none, false⟩ []) :=
  ⟨rfl, rfl, rfl, rfl, rfl⟩

end Netom.Reload
