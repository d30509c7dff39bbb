import Netom.Lib.Blocks
import Netom.Manager.Stages

/-!
# What a round does to each component

A round reads a configuration, prepares it and spawns it.  Each running component is reconfigured or
terminated, once; each target, and each unit that a link refers to, is spawned or reconfigured, once.

* `loadLinks_*`  the table of gates after reading;
* `lookup_resolveGates`  the pending gates after `prepare`;
* `foldl_target`, `foldl_unit`  the two loops, by the name of the component;
* `about_unit`, `about_target`  what a round does to one unit and to one target.
-/

namespace Netom.Reload
open List Assoc
variable {I K S R P L : Type}

/-! ## the table of gates -/

section gates
variable {newId : Name → I} {gates : Gates I}

lemma loadLink_of_some {linkId : List Char} {unit : LoadUnit I}
    (h : gates.lookup (linkName linkId) = some unit) :
    loadLink newId gates linkId = (gates, ⟨linkName linkId, unit.agent⟩) := by
  unfold linkName at h
  simp only [loadLink, h]
  rfl

lemma loadLink_of_none {linkId : List Char} (h : gates.lookup (linkName linkId) = none) :
    loadLink newId gates linkId =
      (gates.insert (linkName linkId)
        ⟨⟨newId (linkName linkId), (getQueueSizeForLink linkId).2⟩, newId (linkName linkId)⟩,
        ⟨linkName linkId, newId (linkName linkId)⟩) := by
  unfold linkName at h
  simp only [loadLink, h]
  rfl

lemma loadLinks_cons (linkId : List Char) (linkIds : List (List Char)) :
    loadLinks newId gates (linkId :: linkIds) =
      loadLinks newId (loadLink newId gates linkId).1 linkIds := rfl

lemma loadLinks_of_some {name : Name} {unit : LoadUnit I} (h : gates.lookup name = some unit)
    (linkIds : List (List Char)) : (loadLinks newId gates linkIds).lookup name = some unit := by
  induction linkIds generalizing gates with
  | nil => exact h
  | cons linkId linkIds ih =>
    rw [loadLinks_cons]
    apply ih
    cases hl : gates.lookup (linkName linkId) with
    | some u =>
      rw [loadLink_of_some hl]
      exact h
    | none =>
      rw [loadLink_of_none hl, lookup_insert_eq, if_neg]
      · exact h
      · rintro rfl
        rw [h] at hl
        cases hl

lemma loadLinks_of_notMem {name : Name} {linkIds : List (List Char)}
    (hn : name ∉ linkIds.map linkName) :
    (loadLinks newId gates linkIds).lookup name = gates.lookup name := by
  induction linkIds generalizing gates with
  | nil => rfl
  | cons linkId linkIds ih =>
    rw [map_cons, mem_cons, not_or] at hn
    rw [loadLinks_cons, ih hn.2]
    cases hl : gates.lookup (linkName linkId) with
    | some u => rw [loadLink_of_some hl]
    | none => rw [loadLink_of_none hl, lookup_insert_eq, if_neg hn.1]

lemma loadLinks_of_mem {name : Name} (h : gates.lookup name = none) {linkIds : List (List Char)}
    (hm : name ∈ linkIds.map linkName) :
    ∃ queueSize, (loadLinks newId gates linkIds).lookup name =
      some ⟨⟨newId name, queueSize⟩, newId name⟩ := by
  induction linkIds generalizing gates with
  | nil => cases hm
  | cons linkId linkIds ih =>
    rw [loadLinks_cons]
    by_cases heq : name = linkName linkId
    · refine ⟨(getQueueSizeForLink linkId).2, loadLinks_of_some ?_ linkIds⟩
      rw [heq] at h ⊢
      rw [loadLink_of_none h, lookup_insert_eq, if_pos rfl]
    · have hm' : name ∈ linkIds.map linkName := by
        rw [map_cons, mem_cons] at hm
        exact hm.resolve_left heq
      apply ih _ hm'
      cases hl : gates.lookup (linkName linkId) with
      | some u =>
        rw [loadLink_of_some hl]
        exact h
      | none =>
        rw [loadLink_of_none hl, lookup_insert_eq, if_neg heq]
        exact h

end gates

/-! ## the links of a configuration -/

section links
variable {L' : Type}

lemma partLinks_map (f : L → L') (parts : Assoc Name (Part K S L)) :
    partLinks (filterMapVals (fun _ p => some (p.map f)) parts) = (partLinks parts).map f := by
  have hentries : ∀ l : List (Sigma fun _ : Name => Part K S L),
      (l.filterMap fun e => (some (e.2.map f)).map fun w =>
        (⟨e.1, w⟩ : Sigma fun _ : Name => Part K S L')).flatMap (fun e => e.2.links) =
        (l.flatMap fun e => e.2.links).map f := by
    intro l
    induction l with
    | nil => rfl
    | cons e l ih =>
      rw [flatMap_cons, map_append, ← ih]
      rfl
  exact hentries parts.entries

lemma links_mapLinks (f : L → L') (c : Config K S R P L) : (c.mapLinks f).links = c.links.map f := by
  unfold Config.links
  rw [map_append]
  exact congrArg₂ (· ++ ·) (partLinks_map f c.units) (partLinks_map f c.targets)

end links

/-- some link of the configuration is to the unit -/
def Config.referenced (c : Config K S R P (Link I)) (name : Name) : Prop :=
  ∃ link ∈ c.links, link.name = name

/-! ## preparing -/

lemma mem_visiting {gates : Gates I} {order : List Name} {name : Name} :
    name ∈ visiting gates order ↔ (gates.lookup name).isSome = true := by
  rw [AList.lookup_isSome, AList.mem_keys]
  unfold visiting
  split
  · next h => exact h.mem_iff
  · rfl

lemma resolveGates_true_iff {units : Assoc Name (Part K S L)} {gates : Gates I} {names : List Name}
    {pending : Assoc Name (NewGate I × I)} :
    (resolveGates units gates names pending).2 = true ↔
      ∀ name ∈ names, (gates.lookup name).isSome = true → (units.lookup name).isSome = true := by
  induction names generalizing pending with
  | nil => simp [resolveGates]
  | cons n names ih =>
    rw [forall_mem_cons]
    cases hl : gates.lookup n with
    | none =>
      simp only [resolveGates, hl, ih, Option.isSome_none, Bool.false_eq_true, false_imp_iff, true_and]
    | some load =>
      by_cases hu : (units.lookup n).isSome = true
      · simp only [resolveGates, hl, hu, if_true, ih, implies_true, true_and]
      · simp only [resolveGates, hl, hu, if_false, Bool.false_eq_true, Option.isSome_some, true_imp_iff,
          false_and]

/-- the gates up to the first that is of no unit are pending, under their names -/
lemma lookup_resolveGates (units : Assoc Name (Part K S L)) (gates : Gates I) (names : List Name)
    (pending : Assoc Name (NewGate I × I)) (name : Name) :
    (resolveGates units gates names pending).1.lookup name =
      (if name ∈ names.takeWhile fun n => (units.lookup n).isSome || (gates.lookup n).isNone then
        (gates.lookup name).map fun u => (u.gate, u.agent) else none).or (pending.lookup name) := by
  induction names generalizing pending with
  | nil => rfl
  | cons n names ih =>
    cases hl : gates.lookup n with
    | none =>
      simp only [resolveGates, hl, ih, takeWhile_cons, Option.isNone_none, Bool.or_true, if_true]
      by_cases hn : name = n
      · subst hn
        simp [hl]
      · simp [hn]
    | some load =>
      by_cases hu : (units.lookup n).isSome = true
      · simp only [resolveGates, hl, hu, if_true, ih, takeWhile_cons, Bool.true_or,
          lookup_insert_eq]
        by_cases hn : name = n
        · subst hn
          split <;> simp [hl]
        · simp [hn]
      · simp only [resolveGates, hl, hu, if_false, Bool.false_eq_true, takeWhile_cons,
          Option.isNone_some, Bool.or_self, not_mem_nil, Option.none_or]

/-! ## the two loops of `spawn` -/

inductive Component where
  | unit (name : Name)
  | target (name : Name)
  deriving DecidableEq

/-- the component that an action is about -/
def Action.component : Action I K S R → Component
  | .spawnUnit name _ _ _ | .reconfigureUnit name _ _ _ | .terminateUnit name _ => .unit name
  | .spawnTarget name _ _ _ | .reconfigureTarget name _ _ | .terminateTarget name _ => .target name

def about (x : Component) (actions : List (Action I K S R)) : List (Action I K S R) :=
  actions.filter fun a => a.component = x

lemma about_append (x : Component) (as as' : List (Action I K S R)) :
    about x (as ++ as') = about x as ++ about x as' := filter_append ..

variable {parts : Assoc Name (Part K S L)}

lemma mem_pairs {e : Name × Part K S L} : e ∈ pairs parts ↔ parts.lookup e.1 = some e.2 := by
  unfold pairs
  rw [← Option.mem_def, AList.mem_lookup_iff, mem_map]
  constructor
  · rintro ⟨e', hm, rfl⟩
    exact hm
  · intro hm
    exact ⟨⟨e.1, e.2⟩, hm, rfl⟩

lemma keys_pairs (parts : Assoc Name (Part K S L)) : (pairs parts).map Prod.fst = parts.keys := by
  unfold pairs
  rw [map_map]
  rfl

lemma notMem_keys {name : Name} :
    name ∉ (pairs parts).map Prod.fst ↔ parts.lookup name = none := by
  rw [keys_pairs, ← AList.mem_keys, ← AList.lookup_eq_none]

variable {key : Name → Component}

/-- the actions of a loop whose blocks are about the components of a kind -/
lemma about_entries {V : Type} (hkey : Function.Injective key)
    {g : Name → V → List (Action I K S R)} (hg : ∀ n v, ∀ a ∈ g n v, a.component = key n)
    (m : Assoc Name V) (name : Name) : about (key name) (m.entries.flatMap fun e => g e.1 e.2) =
      ((m.lookup name).map (g name)).getD [] := by
  have hn : (m.entries.map fun e => key e.1).Nodup := by
    have hk : m.entries.map (fun e => key e.1) = m.keys.map key := by
      rw [AList.keys, keys, map_map]
      rfl
    rw [hk]
    exact (AList.keys_nodup m).map hkey
  unfold about
  cases hl : m.lookup name with
  | some v => exact Blocks.filter_flatMap_block (fun e _ => hg e.1 e.2) hn (AList.mem_lookup_iff.mp hl)
  | none =>
    apply Blocks.filter_flatMap_nil fun e _ => hg e.1 e.2
    intro hm
    obtain ⟨e, he, heq⟩ := mem_map.mp hm
    have hv : m.lookup e.1 = some e.2 := AList.mem_lookup_iff.mpr he
    rw [hkey heq, hl] at hv
    cases hv

lemma about_left (hkey : Function.Injective key) {stop : Name → I → Action I K S R}
    (hstop : ∀ name a, (stop name a).component = key name) (running : Assoc Name (K × I))
    (name : Name) : about (key name) (running.entries.map fun e => stop e.1 e.2.2) =
      ((running.lookup name).map fun v => stop name v.2).toList := by
  have hblock : ∀ n (v : K × I), ∀ a ∈ [stop n v.2], a.component = key n := by
    intro n v a ha
    rw [mem_singleton.mp ha, hstop]
  rw [map_eq_flatMap, about_entries hkey hblock]
  cases running.lookup name <;> rfl

lemma about_eq_nil {x : Component} {actions : List (Action I K S R)}
    (h : ∀ a ∈ actions, a.component ≠ x) : about x actions = [] :=
  filter_eq_nil_iff.mpr fun a ha hx => h a ha (of_decide_eq_true hx)

lemma unit_injective : Function.Injective Component.unit := by
  intro a b h
  cases h
  rfl

lemma target_injective : Function.Injective Component.target := by
  intro a b h
  cases h
  rfl

lemma about_loop (hkey : Function.Injective key) {g : Name × Part K S L → List (Action I K S R)}
    (hg : ∀ e, ∀ a ∈ g e, a.component = key e.1) (name : Name) :
    about (key name) ((pairs parts).flatMap g) =
      ((parts.lookup name).map fun p => g (name, p)).getD [] := by
  unfold pairs
  rw [flatMap_map]
  exact about_entries hkey (fun n p => hg (n, p)) parts name

lemma ite_keys {α : Type} (name : Name) (x y : α) :
    (if name ∈ (pairs parts).map Prod.fst then x else y) =
      if (parts.lookup name).isSome then x else y := by
  cases hl : parts.lookup name with
  | none => exact if_neg (notMem_keys.mpr hl)
  | some p =>
    refine if_pos ?_
    by_contra hnot
    rw [notMem_keys.mp hnot] at hl
    cases hl

/-- the names that a loop takes out, the first one first -/
lemma lookup_taken {V : Type} (m : Assoc Name V) (k name : Name) (ks : List Name) :
    (if name ∈ ks then none else (m.erase k).lookup name) =
      if name ∈ k :: ks then none else m.lookup name := by
  rw [lookup_erase_eq]
  by_cases h1 : name = k <;> by_cases h2 : name ∈ ks <;> simp [h1, h2]

section loops
variable [DecidableEq K] {roto : Option R} {commands : Name → I}

variable {name : Name} {target : Part K S (Link I)}

lemma targetBody_same {kind : K} (h : target.kind = kind) (new sender : I) :
    targetBody roto name target new (some (kind, sender)) =
      ([.reconfigureTarget name sender target], (kind, sender)) := if_neg (not_not.mpr h)
lemma targetBody_other {kind : K} (h : target.kind ≠ kind) (new sender : I) :
    targetBody roto name target new (some (kind, sender)) =
      ([.terminateTarget name sender, .spawnTarget name target new roto], (target.kind, new)) := if_pos h

variable {unit : Part K S (Link I)}

lemma unitBody_same {kind : K} (h : unit.kind = kind) (gate : NewGate I) (new agent : I) :
    unitBody roto name unit (some (gate, new)) (some (kind, agent)) =
      ([.reconfigureUnit name agent unit gate], some (unit.kind, new)) := if_neg (not_not.mpr h)
lemma unitBody_other {kind : K} (h : unit.kind ≠ kind) (gate : NewGate I) (new agent : I) :
    unitBody roto name unit (some (gate, new)) (some (kind, agent)) =
      ([.terminateUnit name agent, .spawnUnit name unit gate roto], some (unit.kind, new)) := if_pos h

lemma component_targetBody {new : I} {running : Option (K × I)} {a : Action I K S R}
    (ha : a ∈ (targetBody roto name target new running).1) : a.component = .target name := by
  cases running with
  | none =>
    rw [mem_singleton.mp ha]
    rfl
  | some r =>
    obtain ⟨kind, sender⟩ := r
    by_cases hk : target.kind = kind
    · rw [targetBody_same hk] at ha
      rw [mem_singleton.mp ha]
      rfl
    · rw [targetBody_other hk] at ha
      rcases mem_pair.mp ha with rfl | rfl
      · rfl
      · rfl

lemma component_unitBody {pending : Option (NewGate I × I)} {running : Option (K × I)}
    {a : Action I K S R} (ha : a ∈ (unitBody roto name unit pending running).1) :
    a.component = .unit name := by
  cases pending with
  | none =>
    cases running with
    | none => cases ha
    | some r =>
      rw [mem_singleton.mp ha]
      rfl
  | some g =>
    obtain ⟨gate, new⟩ := g
    cases running with
    | none =>
      rw [mem_singleton.mp ha]
      rfl
    | some r =>
      obtain ⟨kind, agent⟩ := r
      by_cases hk : unit.kind = kind
      · rw [unitBody_same hk] at ha
        rw [mem_singleton.mp ha]
        rfl
      · rw [unitBody_other hk] at ha
        rcases mem_pair.mp ha with rfl | rfl
        · rfl
        · rfl

/-- what the loop over the targets leaves, where the names differ -/
structure TargetsDone (roto : Option R) (commands : Name → I) (es : List (Name × Part K S (Link I)))
    (s s' : Spawning I K S R) : Prop where
  pending : s'.pendingGates = s.pendingGates
  units : s'.runningUnits = s.runningUnits
  newUnits : s'.newRunningUnits = s.newRunningUnits
  running : ∀ name, s'.runningTargets.lookup name =
    if name ∈ es.map Prod.fst then none else s.runningTargets.lookup name
  new : ∀ e ∈ es, s'.newRunningTargets.lookup e.1 =
    some (targetBody roto e.1 e.2 (commands e.1) (s.runningTargets.lookup e.1)).2
  newElse : ∀ name, name ∉ es.map Prod.fst →
    s'.newRunningTargets.lookup name = s.newRunningTargets.lookup name
  actions : s'.actions = s.actions ++ es.flatMap fun e =>
    (targetBody roto e.1 e.2 (commands e.1) (s.runningTargets.lookup e.1)).1

lemma foldl_target (es : List (Name × Part K S (Link I))) (hn : (es.map Prod.fst).Nodup)
    (s : Spawning I K S R) :
    TargetsDone roto commands es s (es.foldl (Spawning.target roto commands) s) := by
  induction es generalizing s with
  | nil =>
    exact ⟨rfl, rfl, rfl, fun _ => rfl, fun _ he => (nomatch he), fun _ _ => rfl,
      (append_nil _).symm⟩
  | cons e es ih =>
    obtain ⟨he, hn'⟩ := nodup_cons.mp hn
    have h := ih hn' (s.target roto commands e)
    -- the other names are looked up as if this one had not been taken out
    have hother : ∀ e' ∈ es, (s.target roto commands e).runningTargets.lookup e'.1 =
        s.runningTargets.lookup e'.1 := by
      intro e' he'
      refine AList.lookup_erase_ne fun heq => he ?_
      rw [← heq]
      exact mem_map_of_mem he'
    refine ⟨h.pending, h.units, h.newUnits, ?_, ?_, ?_, ?_⟩
    · exact fun name => (h.running name).trans (lookup_taken ..)
    · intro e' he'
      rcases mem_cons.mp he' with rfl | he''
      · rw [foldl_cons, h.newElse e'.1 he]
        exact AList.lookup_insert _
      · rw [foldl_cons, h.new e' he'', hother e' he'']
    · intro name hname
      rw [map_cons, mem_cons, not_or] at hname
      rw [foldl_cons, h.newElse name hname.2]
      exact AList.lookup_insert_ne hname.1
    · rw [foldl_cons, h.actions, flatMap_cons, ← append_assoc]
      congr 1
      refine flatMap_congr fun e' he' => ?_
      rw [hother e' he']

/-- what the loop over the units leaves -/
structure UnitsDone (roto : Option R) (es : List (Name × Part K S (Link I)))
    (s s' : Spawning I K S R) : Prop where
  targets : s'.runningTargets = s.runningTargets
  newTargets : s'.newRunningTargets = s.newRunningTargets
  pending : ∀ name, s'.pendingGates.lookup name =
    if name ∈ es.map Prod.fst then none else s.pendingGates.lookup name
  running : ∀ name, s'.runningUnits.lookup name =
    if name ∈ es.map Prod.fst then none else s.runningUnits.lookup name
  new : ∀ e ∈ es, s'.newRunningUnits.lookup e.1 =
    (unitBody roto e.1 e.2 (s.pendingGates.lookup e.1) (s.runningUnits.lookup e.1)).2.or
      (s.newRunningUnits.lookup e.1)
  newElse : ∀ name, name ∉ es.map Prod.fst →
    s'.newRunningUnits.lookup name = s.newRunningUnits.lookup name
  actions : s'.actions = s.actions ++ es.flatMap fun e =>
    (unitBody roto e.1 e.2 (s.pendingGates.lookup e.1) (s.runningUnits.lookup e.1)).1

lemma lookup_newRunningUnits (s : Spawning I K S R) (e : Name × Part K S (Link I)) (name : Name) :
    (s.unit roto e).newRunningUnits.lookup name =
      if name = e.1 then
        (unitBody roto e.1 e.2 (s.pendingGates.lookup e.1) (s.runningUnits.lookup e.1)).2.or
          (s.newRunningUnits.lookup e.1)
      else s.newRunningUnits.lookup name := by
  cases hb : (unitBody roto e.1 e.2 (s.pendingGates.lookup e.1) (s.runningUnits.lookup e.1)).2 with
  | none =>
    simp only [Spawning.unit, hb, Option.none_or]
    split
    · next h => rw [h]
    · rfl
  | some entry =>
    simp only [Spawning.unit, hb, Option.some_or]
    exact lookup_insert_eq ..

lemma foldl_unit (es : List (Name × Part K S (Link I))) (hn : (es.map Prod.fst).Nodup)
    (s : Spawning I K S R) : UnitsDone roto es s (es.foldl (Spawning.unit roto) s) := by
  induction es generalizing s with
  | nil =>
    exact ⟨rfl, rfl, fun _ => rfl, fun _ => rfl, fun _ he => (nomatch he), fun _ _ => rfl,
      (append_nil _).symm⟩
  | cons e es ih =>
    obtain ⟨he, hn'⟩ := nodup_cons.mp hn
    have h := ih hn' (s.unit roto e)
    have hne : ∀ e' ∈ es, e'.1 ≠ e.1 := by
      intro e' he' heq
      apply he
      rw [← heq]
      exact mem_map_of_mem he'
    have hrunning : ∀ e' ∈ es, (s.unit roto e).runningUnits.lookup e'.1 =
        s.runningUnits.lookup e'.1 := fun e' he' => AList.lookup_erase_ne (hne e' he')
    have hpending : ∀ e' ∈ es, (s.unit roto e).pendingGates.lookup e'.1 =
        s.pendingGates.lookup e'.1 := fun e' he' => AList.lookup_erase_ne (hne e' he')
    refine ⟨h.targets, h.newTargets, ?_, ?_, ?_, ?_, ?_⟩
    · exact fun name => (h.pending name).trans (lookup_taken ..)
    · exact fun name => (h.running name).trans (lookup_taken ..)
    · intro e' he'
      rcases mem_cons.mp he' with rfl | he''
      · rw [foldl_cons, h.newElse e'.1 he, lookup_newRunningUnits, if_pos rfl]
      · rw [foldl_cons, h.new e' he'', hrunning e' he'', hpending e' he'', lookup_newRunningUnits,
          if_neg (hne e' he'')]
    · intro name hname
      rw [map_cons, mem_cons, not_or] at hname
      rw [foldl_cons, h.newElse name hname.2, lookup_newRunningUnits, if_neg hname.1]
    · rw [foldl_cons, h.actions, flatMap_cons, ← append_assoc]
      congr 1
      refine flatMap_congr fun e' he' => ?_
      rw [hrunning e' he', hpending e' he']

/-! ## `spawn`, component by component -/

variable (commands) (m : Manager I K R P) (c : Config K S R P (Link I))

/-- both loops, from the state of the manager -/
lemma spawnAll_loops :
    ∃ s s' : Spawning I K S R,
      TargetsDone m.rotoPackage commands (pairs c.targets)
        ⟨m.pendingGates, m.runningUnits, m.runningTargets, ∅, ∅, []⟩ s ∧
      UnitsDone m.rotoPackage (pairs c.units) s s' ∧
      m.spawnAll commands c =
        ({ m with
          pendingGates := s'.pendingGates
          runningUnits := s'.newRunningUnits
          runningTargets := s'.newRunningTargets },
          s'.actions ++ (s'.runningUnits.entries.map fun e => .terminateUnit e.1 e.2.2) ++
            s'.runningTargets.entries.map fun e => .terminateTarget e.1 e.2.2) := by
  refine ⟨_, _, foldl_target _ ?_ _, foldl_unit _ ?_ _, rfl⟩
  · rw [keys_pairs]
    exact AList.keys_nodup _
  · rw [keys_pairs]
    exact AList.keys_nodup _

lemma about_unit (name : Name) :
    about (.unit name) (m.spawnAll commands c).2 =
      ((c.units.lookup name).map fun u =>
        (unitBody m.rotoPackage name u (m.pendingGates.lookup name) (m.runningUnits.lookup name)).1).getD
        ((m.runningUnits.lookup name).map fun v => .terminateUnit name v.2).toList := by
  obtain ⟨s, s', ht, hu, heq⟩ := spawnAll_loops commands m c
  have htargets : about (.unit name) s.actions = [] := by
    rw [ht.actions]
    refine about_eq_nil fun a ha => ?_
    obtain ⟨e, -, hae⟩ := mem_flatMap.mp ha
    rw [component_targetBody hae]
    exact fun h => nomatch h
  have hleft : about (.unit name)
      (s'.runningTargets.entries.map fun e => (.terminateTarget e.1 e.2.2 : Action I K S R)) = [] := by
    refine about_eq_nil fun a ha => ?_
    obtain ⟨e, -, rfl⟩ := mem_map.mp ha
    exact fun h => nomatch h
  have hrun : s'.runningUnits.lookup name =
      if (c.units.lookup name).isSome then none else m.runningUnits.lookup name := by
    rw [hu.running, ht.units, ite_keys]
  rw [heq, about_append, about_append, hleft, append_nil,
    about_left unit_injective (fun _ _ => rfl), hrun, hu.actions, about_append, htargets,
    nil_append, about_loop unit_injective fun e a ha => component_unitBody ha, ht.pending, ht.units]
  cases c.units.lookup name with
  | some u => exact append_nil _
  | none => rfl

lemma about_target (name : Name) :
    about (.target name) (m.spawnAll commands c).2 =
      ((c.targets.lookup name).map fun t =>
        (targetBody m.rotoPackage name t (commands name) (m.runningTargets.lookup name)).1).getD
        ((m.runningTargets.lookup name).map fun v => .terminateTarget name v.2).toList := by
  obtain ⟨s, s', ht, hu, heq⟩ := spawnAll_loops commands m c
  have hunits : about (.target name) s'.actions =
      about (.target name) s.actions := by
    rw [hu.actions, about_append]
    refine (congrArg _ (about_eq_nil fun a ha => ?_)).trans (append_nil _)
    obtain ⟨e, -, hae⟩ := mem_flatMap.mp ha
    rw [component_unitBody hae]
    exact fun h => nomatch h
  have hleft : about (.target name)
      (s'.runningUnits.entries.map fun e => (.terminateUnit e.1 e.2.2 : Action I K S R)) = [] := by
    refine about_eq_nil fun a ha => ?_
    obtain ⟨e, -, rfl⟩ := mem_map.mp ha
    exact fun h => nomatch h
  have hrun : s'.runningTargets.lookup name =
      if (c.targets.lookup name).isSome then none else m.runningTargets.lookup name := by
    rw [hu.targets, ht.running, ite_keys]
  rw [heq, about_append, about_append, hleft, append_nil,
    about_left target_injective (fun _ _ => rfl), hrun, hunits, ht.actions, nil_append,
    about_loop target_injective fun e a ha => component_targetBody ha]
  cases c.targets.lookup name with
  | some t => exact append_nil _
  | none => rfl

/-- what runs afterwards, and which gates are left -/
lemma lookup_spawnAll (name : Name) :
    (m.spawnAll commands c).1.runningUnits.lookup name =
        (c.units.lookup name).bind (fun u =>
          (unitBody m.rotoPackage name u (m.pendingGates.lookup name) (m.runningUnits.lookup name)).2) ∧
      (m.spawnAll commands c).1.runningTargets.lookup name =
        (c.targets.lookup name).map (fun t =>
          (targetBody m.rotoPackage name t (commands name) (m.runningTargets.lookup name)).2) ∧
      (m.spawnAll commands c).1.pendingGates.lookup name =
        if (c.units.lookup name).isSome then none else m.pendingGates.lookup name := by
  obtain ⟨s, s', ht, hu, heq⟩ := spawnAll_loops commands m c
  rw [heq]
  refine ⟨?_, ?_, ?_⟩
  · show s'.newRunningUnits.lookup name = _
    cases hl : c.units.lookup name with
    | some u =>
      have h := hu.new (name, u) (mem_pairs.mpr hl)
      rw [h, ht.newUnits, ht.pending, ht.units]
      exact Option.or_none
    | none =>
      rw [hu.newElse name (notMem_keys.mpr hl), ht.newUnits]
      rfl
  · show s'.newRunningTargets.lookup name = _
    rw [hu.newTargets]
    cases hl : c.targets.lookup name with
    | some t => exact ht.new (name, t) (mem_pairs.mpr hl)
    | none =>
      rw [ht.newElse name (notMem_keys.mpr hl)]
      rfl
  · show s'.pendingGates.lookup name = _
    rw [hu.pending, ht.pending, ite_keys]

end loops

end Netom.Reload
