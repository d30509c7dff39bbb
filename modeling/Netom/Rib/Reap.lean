import Netom.Rib.Owned
import Netom.Rib.Collect

/-!
# The retirement of idle path children

`reap_idle_path_children` looks for path children that own no active record, and marks those
disconnected that owned none in two sweeps in a row and whose activity count has not moved.  The
walk over the stores is long, and announcements go on meanwhile: an announcement is first resolved
to the ingress that its path has, and stored later.

* `ReapState.reapStep`  one sweep, an access at a time;
* `Reap.Timely`  an announcement is stored before the second sweep after its resolution;
* `Reap.Recorded`  an announcement for a path child moves its activity count;
* `reap_spares`  **in a run with both, no path child is retired while it owns an active
  record**;
* `reap_takes_routed`  the MRT input does not move the count, and its children are retired.
-/

namespace Netom
open List Register

/-! ## one sweep -/

/-- where a sweep stands; a map from ids to counts is the list of its entries, met in any order -/
inductive ReapPhase where
  | waiting (prev : List (IngressId × Nat))
  | scanning (prev children : List (IngressId × Nat)) (stores : List StoreKind)
      (keys : List Slot) (activeMuis : List IngressId)
  | retiring (todo idle : List (IngressId × Nat))

/-- an announcement that is resolved and not yet stored; `aged` once a sweep has begun since -/
structure Resolved (env : FlowSpecEnv) where
  id : IngressId
  announcement : Announcement env
  aged : Bool

structure ReapState (env : FlowSpecEnv) where
  rib : FlowRib
  phase : ReapPhase
  pending : List (Resolved env)

namespace ReapState
variable {env : FlowSpecEnv} (s : ReapState env)

def reg : Register := s.rib.rib.ingressRegister

/-- the path children that are connected, with their counts -/
def children : List (IngressId × Nat) :=
  (s.reg.info.entries.filter fun e =>
    e.2.ingressType = some .bgpPath && e.2.state = some .connected).map
    fun e => (e.1, e.2.pathActivity)

/-- the next access of `reap_idle_path_children`: `n` is the position of the id that comes next, and
a read of the stores may fail -/
def reapStep (n : Nat) (fails : Bool) : ReapState env :=
  match s.phase with
  | .waiting prev =>
    { s with
      phase := if s.children.isEmpty then .waiting []
        else .scanning prev s.children [.unicast, .multicast, .flowspec] [] []
      pending := s.pending.map fun x => { x with aged := true } }
  | .scanning prev children stores (slot :: keys) active =>
    if fails then { s with phase := .waiting [] }
    else { s with phase := .scanning prev children stores keys (active ++ s.rib.activeMuis slot) }
  | .scanning prev children (kind :: stores) [] active =>
    { s with phase := .scanning prev children stores (s.rib.prefixesKeys kind) active }
  | .scanning prev children [] [] active =>
    let idle := children.filter fun x => !active.contains x.1
    { s with phase := .retiring (idle.filter prev.contains) idle }
  | .retiring [] idle => { s with phase := .waiting idle }
  | .retiring todo idle =>
    match todo[n]? with
    | none => s
    | some (id, activity) =>
      { s with
        rib := s.rib.setRegister (s.reg.retirePathChild id activity).2
        phase := .retiring (todo.eraseIdx n) idle }

end ReapState

/-! ## what happens meanwhile -/

/-- how an announcement gets its ingress -/
inductive Resolution where
  | refresh (id parent : IngressId) (pathId : Nat)
  | claim (parent : IngressId) (pathId : Nat) (pick : IngressId)
  | mint (id : IngressId) (info : IngressInfo)
  /-- the ingress is known and the register is not asked: a session's own, or one that the MRT input
  remembers -/
  | known (id : IngressId)

def Resolution.run (reg : Register) : Resolution → Option IngressId × Register
  | .refresh id parent pathId =>
    let (ok, reg') := reg.refreshPathChild id parent pathId
    (if ok then some id else none, reg')
  | .claim parent pathId pick => reg.claim (.pathChild parent pathId) pick
  | .mint id info => (some id, reg.updateInfo id info)
  | .known id => (some id, reg)

inductive ReapEvent (env : FlowSpecEnv) where
  | op (op : RegisterOp)
  | remove (o : Removal env)
  | resolve (how : Resolution) (a : Announcement env)
  | store (n : Nat)
  | drop (n : Nat)
  | reap (n : Nat) (fails : Bool)

namespace ReapState
variable {env : FlowSpecEnv} (s : ReapState env)

def resolve (how : Resolution) (a : Announcement env) : ReapState env :=
  let (id, reg) := how.run s.reg
  { s with
    rib := s.rib.setRegister reg
    pending := s.pending ++ id.toList.map fun id => ⟨id, a, false⟩ }

def store (n : Nat) : ReapState env :=
  match s.pending[n]? with
  | none => s
  | some x =>
    { s with rib := s.rib.step env (x.announcement.op x.id), pending := s.pending.eraseIdx n }

def step : ReapEvent env → ReapState env
  | .op op => { s with rib := s.rib.setRegister (op.effect s.reg) }
  | .remove o => { s with rib := s.rib.step env o.op }
  | .resolve how a => s.resolve how a
  | .store n => s.store n
  | .drop n => { s with pending := s.pending.eraseIdx n }
  | .reap n fails => s.reapStep n fails

/-- a sweep begins -/
def begins : ReapEvent env → Bool
  | .reap _ _ => match s.phase with
    | .waiting _ => true
    | _ => false
  | _ => false

/-- the ingress that an announcement is resolved to -/
def resolved : ReapEvent env → Option IngressId
  | .resolve how _ => (how.run s.reg).1
  | _ => none

/-- the path child that is retired -/
def retires : ReapEvent env → Option IngressId
  | .reap n _ => match s.phase with
    | .retiring todo _ => todo[n]?.bind fun x =>
      if (s.reg.retirePathChild x.1 x.2).1 then some x.1 else none
    | _ => none
  | _ => none

end ReapState

/-- what the sweep does not know -/
structure ReapHistory where
  /-- the id is or was a path child -/
  child : IngressId → Bool
  /-- an announcement was resolved to it since the latest sweep began -/
  since : IngressId → Bool
  /-- or since the sweep before that began -/
  sinceBefore : IngressId → Bool

structure Reap (env : FlowSpecEnv) where
  now : ReapState env
  past : ReapHistory

namespace Reap
variable {env : FlowSpecEnv}

def step (g : Reap env) (e : ReapEvent env) : Reap env where
  now := g.now.step e
  past :=
    { child := fun id => g.past.child id || ((g.now.step e).reg.activity id).isSome
      since := fun id => !g.now.begins e && (g.past.since id || g.now.resolved e = some id)
      sinceBefore := fun id =>
        if g.now.begins e then g.past.since id
        else g.past.sinceBefore id || g.now.resolved e = some id }

/-- no sweep has run, and nothing is on its way to the stores -/
def new (r : FlowRib) : Reap env where
  now := ⟨r, .waiting [], []⟩
  past := ⟨fun id => (r.rib.ingressRegister.activity id).isSome, fun _ => false, fun _ => false⟩

/-- when a sweep begins, what is still to be stored was resolved after the one before it began -/
def Timely (g : Reap env) (e : ReapEvent env) : Prop :=
  g.now.begins e = true → ∀ x ∈ g.now.pending, x.aged = false

/-- nothing is announced for a path child without a move of its count, and no id becomes a path
child twice -/
def Recorded (g : Reap env) : ReapEvent env → Prop
  | .resolve (.known id) _ => g.past.child id = false
  | .resolve (.mint id _) _ => g.past.child id = false
  | .op (.updateInfo id info) => info.ingressType = some .bgpPath → g.now.reg.activity id = none →
      g.past.child id = false
  | _ => True

/-- a path child that is retired owns no active record -/
def Spares (g : Reap env) (e : ReapEvent env) : Prop :=
  ∀ id, g.now.retires e = some id → ∀ slot, g.now.rib.activeAt slot id = false

end Reap

/-! ## one access -/

namespace ReapPhase

/-- the counts that the latest sweep read -/
def latest : ReapPhase → List (IngressId × Nat)
  | .waiting prev => prev
  | .scanning _ children _ _ _ => children
  | .retiring _ idle => idle

/-- the counts that the running sweep compares with those -/
def earlier : ReapPhase → List (IngressId × Nat)
  | .waiting _ => []
  | .scanning prev _ _ _ _ => prev
  | .retiring todo _ => todo

/-- a record at the slot is found before its owner is retired -/
def Covers (slot : Slot) (id : IngressId) : ReapPhase → Prop
  | .waiting _ => True
  | .scanning _ _ stores keys active => slot.kind ∈ stores ∨ slot ∈ keys ∨ id ∈ active
  | .retiring todo _ => ∀ n, (id, n) ∉ todo

end ReapPhase

/-- what an access of a sweep does -/
inductive ReapAccess {env : FlowSpecEnv} (s : ReapState env) (n : Nat) (s' : ReapState env) : Prop
  | begin (prev : List (IngressId × Nat)) (hp : s.phase = .waiting prev) (hr : s'.rib = s.rib)
      (hs : s'.phase = if s.children.isEmpty then .waiting []
        else .scanning prev s.children [.unicast, .multicast, .flowspec] [] [])
      (hpend : s'.pending = s.pending.map fun x => { x with aged := true })
  | scan (hp : ∀ prev, s.phase ≠ .waiting prev) (hr : s'.rib = s.rib)
      (hpend : s'.pending = s.pending) (hl : s'.phase.latest ⊆ s.phase.latest)
      (he : s'.phase.earlier ⊆ s.phase.earlier)
      (hc : ∀ slot id, s.rib.activeAt slot id = true → s.phase.Covers slot id →
        s'.phase.Covers slot id)
  | retire (id : IngressId) (activity : Nat) (todo idle : List (IngressId × Nat))
      (hp : s.phase = .retiring todo idle) (hn : todo[n]? = some (id, activity))
      (hr : s'.rib = s.rib.setRegister (s.reg.retirePathChild id activity).2)
      (hs : s'.phase = .retiring (todo.eraseIdx n) idle) (hpend : s'.pending = s.pending)

lemma reapStep_access {env : FlowSpecEnv} (s : ReapState env) (n : Nat) (fails : Bool) :
    ReapAccess s n (s.reapStep n fails) := by
  obtain ⟨r, phase, pending⟩ := s
  cases phase with
  | waiting prev => exact .begin prev rfl rfl rfl rfl
  | scanning prev children stores keys active =>
    have hp : ∀ prev', ReapPhase.scanning prev children stores keys active ≠ .waiting prev' :=
      fun prev' h => nomatch h
    cases keys with
    | cons slot keys =>
      cases fails with
      | true =>
        exact .scan hp rfl rfl (nil_subset _) (nil_subset _) (fun _ _ _ _ => trivial)
      | false =>
        refine .scan hp rfl rfl (List.Subset.refl _) (List.Subset.refl _) ?_
        intro slot' id ha hc
        rcases hc with hk | hk | hk
        · exact .inl hk
        · rcases mem_cons.mp hk with rfl | hk
          · exact .inr (.inr (mem_append_right _ (FlowRib.mem_activeMuis ha)))
          · exact .inr (.inl hk)
        · exact .inr (.inr (mem_append_left _ hk))
    | nil =>
      cases stores with
      | cons kind stores =>
        refine .scan hp rfl rfl (List.Subset.refl _) (List.Subset.refl _) ?_
        intro slot id ha hc
        rcases hc with hk | hk | hk
        · rcases mem_cons.mp hk with rfl | hk
          · exact .inr (.inl (mem_map.mpr ⟨(slot.pfx, id), FlowRib.mem_recordKeys ha, rfl⟩))
          · exact .inl hk
        · cases hk
        · exact .inr (.inr hk)
      | nil =>
        refine .scan hp rfl rfl (filter_subset_self _) ?_ ?_
        · intro x hx
          exact contains_iff_mem.mp (mem_filter.mp hx).2
        · intro slot id ha hc
          have hin : id ∈ active := by
            rcases hc with hk | hk | hk
            · cases hk
            · cases hk
            · exact hk
          intro m hm
          have hnot := (mem_filter.mp (mem_filter.mp hm).1).2
          rw [contains_iff_mem.mpr hin] at hnot
          cases hnot
  | retiring todo idle =>
    have hp : ∀ prev, ReapPhase.retiring todo idle ≠ .waiting prev := fun prev h => nomatch h
    cases todo with
    | nil =>
      exact .scan hp rfl rfl (List.Subset.refl _) (nil_subset _) (fun _ _ _ _ => trivial)
    | cons x xs =>
      cases hn : (x :: xs)[n]? with
      | none =>
        have hs : ReapState.reapStep ⟨r, .retiring (x :: xs) idle, pending⟩ n fails =
            ⟨r, .retiring (x :: xs) idle, pending⟩ := by
          simp only [ReapState.reapStep, hn]
        rw [hs]
        exact .scan hp rfl rfl (List.Subset.refl _) (List.Subset.refl _) (fun _ _ _ h => h)
      | some y =>
        refine .retire y.1 y.2 (x :: xs) idle rfl hn ?_ ?_ ?_
        all_goals simp only [ReapState.reapStep, hn]

/-! ## the invariant -/

/-- the count has not gone back since it was `a`; at its end it stays -/
def Follows (a : Nat) (now : Option Nat) : Prop := ∀ b, now = some b → a ≤ b ∨ b = 2 ^ 64 - 1

/-- the count has moved on since it was `a` -/
def Passed (a : Nat) (now : Option Nat) : Prop := ∀ b, now = some b → a < b ∨ b = 2 ^ 64 - 1

section counts
variable {a : Nat} {old new : Option Nat}

lemma follows_self (n : Nat) : Follows n (some n) := by
  intro b hb
  cases hb
  exact .inl (le_refl n)

lemma passed_next (h : Follows a old) {n : Nat} (ho : old = some n)
    (hn : new = some (saturatingSucc n)) : Passed a new := by
  intro b hb
  rw [hn] at hb
  cases hb
  have := h n ho
  unfold saturatingSucc
  omega

lemma Follows.moves (h : Follows a old) (hm : CountMoves old new) : Follows a new := by
  cases hm with
  | same he => rwa [he]
  | gone hn =>
    intro b hb
    rw [hn] at hb
    cases hb
  | next n ho hn =>
    intro b hb
    exact (passed_next h ho hn b hb).imp_left Nat.le_of_lt

lemma Passed.moves (h : Passed a old) (hm : CountMoves old new) : Passed a new := by
  cases hm with
  | same he => rwa [he]
  | gone hn =>
    intro b hb
    rw [hn] at hb
    cases hb
  | next n ho hn =>
    have hf : Follows a old := fun b hb => (h b hb).imp_left Nat.le_of_lt
    exact passed_next hf ho hn

end counts

namespace Reap
variable {env : FlowSpecEnv} {g : Reap env}

/-- a count that a sweep read of a path child: since then it has not gone back, and it has moved if
something was announced for the child -/
structure Watched (g : Reap env) (announced : IngressId → Bool) (x : IngressId × Nat) : Prop where
  child : g.past.child x.1 = true
  follows : Follows x.2 (g.now.reg.activity x.1)
  passed : announced x.1 = true → Passed x.2 (g.now.reg.activity x.1)

structure Inv (g : Reap env) : Prop where
  latest : ∀ x ∈ g.now.phase.latest, g.Watched g.past.since x
  earlier : ∀ x ∈ g.now.phase.earlier, g.Watched g.past.sinceBefore x
  pending : ∀ x ∈ g.now.pending, g.past.sinceBefore x.id = true ∧
    (x.aged = false → g.past.since x.id = true)
  covers : ∀ slot id, g.now.rib.activeAt slot id = true →
    g.past.sinceBefore id = true ∨ g.now.phase.Covers slot id

lemma inv_new (r : FlowRib) : (Reap.new r : Reap env).Inv where
  latest x h := by cases h
  earlier x h := by cases h
  pending x h := by cases h
  covers slot id _ := .inr trivial

/-- what an event does to the counts of the path children -/
structure CountsMove (g : Reap env) (e : ReapEvent env) : Prop where
  moves : ∀ id, g.past.child id = true →
    CountMoves (g.now.reg.activity id) ((g.now.step e).reg.activity id)
  resolved : ∀ id, g.now.resolved e = some id → g.past.child id = true →
    ∃ n, g.now.reg.activity id = some n ∧
      (g.now.step e).reg.activity id = some (saturatingSucc n)

variable {e : ReapEvent env}

lemma Watched.step (hm : CountsMove g e) {announced announced' : IngressId → Bool}
    (ha : ∀ id, announced' id = true → announced id = true ∨ g.now.resolved e = some id)
    {x : IngressId × Nat} (h : g.Watched announced x) : (g.step e).Watched announced' x where
  child := Bool.or_eq_true_iff.mpr (.inl h.child)
  follows := h.follows.moves (hm.moves x.1 h.child)
  passed hx := by
    rcases ha x.1 hx with hold | hres
    · exact (h.passed hold).moves (hm.moves x.1 h.child)
    · obtain ⟨n, ho, hn⟩ := hm.resolved x.1 hres h.child
      exact passed_next h.follows ho hn

lemma born_step (e : ReapEvent env) (id : IngressId)
    (h : ((g.step e).now.reg.activity id).isSome = true) : (g.step e).past.child id = true :=
  Bool.or_eq_true_iff.mpr (.inr h)

lemma sinceBefore_step (hb : g.now.begins e = false) {id : IngressId} :
    (g.step e).past.sinceBefore id = true ↔
      g.past.sinceBefore id = true ∨ g.now.resolved e = some id := by
  show (if g.now.begins e = true then _ else _) = true ↔ _
  rw [hb, if_neg Bool.false_ne_true, Bool.or_eq_true_iff, decide_eq_true_eq]

/-- an event that begins no sweep keeps the invariant -/
lemma inv_of_quiet (h : g.Inv) (hb : g.now.begins e = false) (hm : CountsMove g e)
    (hl : (g.now.step e).phase.latest ⊆ g.now.phase.latest)
    (he : (g.now.step e).phase.earlier ⊆ g.now.phase.earlier)
    (hp : ∀ x ∈ (g.now.step e).pending, x ∈ g.now.pending ∨ g.now.resolved e = some x.id)
    (hc : ∀ slot id, (g.now.step e).rib.activeAt slot id = true →
      g.past.sinceBefore id = true ∨ (g.now.rib.activeAt slot id = true ∧
      (g.now.phase.Covers slot id → (g.now.step e).phase.Covers slot id))) : (g.step e).Inv where
  latest x hx := (h.latest x (hl hx)).step hm fun id hs =>
    (Bool.or_eq_true_iff.mp (Bool.and_eq_true_iff.mp hs).2).imp_right of_decide_eq_true
  earlier x hx := (h.earlier x (he hx)).step hm fun id => (sinceBefore_step hb).mp
  pending x hx := by
    have hkeep : ∀ {id}, g.past.since id = true ∨ g.now.resolved e = some id →
        (g.step e).past.since id = true := by
      intro id hid
      show (!g.now.begins e && _) = true
      rw [hb]
      exact Bool.or_eq_true_iff.mpr (hid.imp_right decide_eq_true)
    rcases hp x hx with hold | hres
    · obtain ⟨hs, hs'⟩ := h.pending x hold
      exact ⟨(sinceBefore_step hb).mpr (.inl hs), fun ha => hkeep (.inl (hs' ha))⟩
    · exact ⟨(sinceBefore_step hb).mpr (.inr hres), fun _ => hkeep (.inr hres)⟩
  covers slot id ha := by
    rcases hc slot id ha with hs | ⟨hold, hcov⟩
    · exact .inl ((sinceBefore_step hb).mpr (.inl hs))
    · rcases h.covers slot id hold with hs | hs
      · exact .inl ((sinceBefore_step hb).mpr (.inl hs))
      · exact .inr (hcov hs)

lemma CountsMove.of_same (hr : g.now.resolved e = none)
    (h : ∀ id, (g.now.step e).reg.activity id = g.now.reg.activity id) : CountsMove g e where
  moves id _ := .same (h id)
  resolved id hid := by
    rw [hr] at hid
    cases hid

/-! ## each event -/

/-- a sweep begins: what it compares with was read by the one before, and what is still to be stored
was announced since then -/
lemma inv_begin (h : g.Inv) {n : Nat} {fails : Bool} {prev : List (IngressId × Nat)}
    (ht : g.Timely (.reap n fails)) (hp : g.now.phase = .waiting prev)
    (hr : (g.now.reapStep n fails).rib = g.now.rib)
    (hs : (g.now.reapStep n fails).phase = if g.now.children.isEmpty then .waiting []
        else .scanning prev g.now.children [.unicast, .multicast, .flowspec] [] [])
    (hpend : (g.now.reapStep n fails).pending = g.now.pending.map fun x => { x with aged := true }) :
    (g.step (.reap n fails)).Inv := by
  have hb : g.now.begins (.reap n fails) = true := by
    show (match g.now.phase with | .waiting _ => true | _ => false) = true
    rw [hp]
  have hsince : ∀ id, (g.step (.reap n fails)).past.since id = false := by
    intro id
    show (!g.now.begins (.reap n fails) && _) = false
    rw [hb]
    rfl
  have hbefore : ∀ id, (g.step (.reap n fails)).past.sinceBefore id = g.past.since id := by
    intro id
    show (if g.now.begins (.reap n fails) = true then _ else _) = _
    rw [if_pos hb]
  have hreg : (g.step (.reap n fails)).now.reg = g.now.reg :=
    congrArg (fun r : FlowRib => r.rib.ingressRegister) hr
  have hm : CountsMove g (.reap n fails) := .of_same rfl fun id => congrArg (·.activity id) hreg
  have hphase : (g.step (.reap n fails)).now.phase = if g.now.children.isEmpty then .waiting []
      else .scanning prev g.now.children [.unicast, .multicast, .flowspec] [] [] := hs
  constructor
  · intro x hx
    have hxc : x ∈ g.now.children := by
      rw [hphase] at hx
      split at hx
      · cases hx
      · exact hx
    obtain ⟨⟨id, info⟩, hmem, rfl⟩ := mem_map.mp hxc
    obtain ⟨hmem, hcond⟩ := mem_filter.mp hmem
    have hl : g.now.reg.info.lookup id = some info := AList.mem_lookup_iff.mpr hmem
    have hty : info.ingressType = some .bgpPath :=
      of_decide_eq_true (Bool.and_eq_true_iff.mp hcond).1
    have ha : g.now.reg.activity id = some info.pathActivity :=
      (activity_of_lookup hl).trans (if_pos hty)
    refine ⟨born_step _ id ?_, ?_, ?_⟩
    · rw [hreg, ha]
      rfl
    · show Follows info.pathActivity ((g.step (.reap n fails)).now.reg.activity id)
      rw [hreg, ha]
      exact follows_self _
    · intro hx'
      rw [hsince] at hx'
      cases hx'
  · intro x hx
    have hxp : x ∈ g.now.phase.latest := by
      rw [hphase] at hx
      rw [hp]
      split at hx
      · cases hx
      · exact hx
    refine (h.latest x hxp).step hm fun id hid => .inl ?_
    rwa [hbefore] at hid
  · intro x hx
    have hx' : x ∈ g.now.pending.map fun x => { x with aged := true } := hpend ▸ hx
    obtain ⟨y, hy, rfl⟩ := mem_map.mp hx'
    refine ⟨?_, fun ha => by cases ha⟩
    rw [hbefore]
    exact (h.pending y hy).2 (ht hb y hy)
  · intro slot id _
    refine .inr ?_
    rw [hphase]
    split
    · trivial
    · refine .inl ?_
      cases slot.kind with
      | unicast => exact .head _
      | multicast => exact .tail _ (.head _)
      | flowspec => exact .tail _ (.tail _ (.head _))

lemma begins_false {s : ReapState env} (h : ∀ prev, s.phase ≠ .waiting prev) (n : Nat)
    (fails : Bool) : s.begins (.reap n fails) = false := by
  show (match s.phase with | .waiting _ => true | _ => false) = false
  cases hp : s.phase with
  | waiting prev => exact absurd hp (h prev)
  | scanning prev children stores keys active | retiring todo idle => rfl

lemma inv_reap (h : g.Inv) {n : Nat} {fails : Bool} (ht : g.Timely (.reap n fails)) :
    (g.step (.reap n fails)).Inv := by
  cases reapStep_access g.now n fails with
  | begin prev hp hr hs hpend => exact inv_begin h ht hp hr hs hpend
  | scan hp hr hpend hl he hc =>
    have hreg : (g.now.step (.reap n fails)).reg = g.now.reg :=
      congrArg (fun r : FlowRib => r.rib.ingressRegister) hr
    refine inv_of_quiet h (begins_false hp n fails)
      (.of_same rfl fun id => congrArg (·.activity id) hreg) hl he ?_ ?_
    · intro x hx
      exact .inl (hpend ▸ (show x ∈ (g.now.reapStep n fails).pending from hx))
    · intro slot id ha
      have ha' : g.now.rib.activeAt slot id = true := by
        rw [← hr]
        exact ha
      exact .inr ⟨ha', hc slot id ha'⟩
  | retire id activity todo idle hp hn hr hs hpend =>
    have hreg : (g.now.step (.reap n fails)).reg = (g.now.reg.retirePathChild id activity).2 :=
      congrArg (fun r : FlowRib => r.rib.ingressRegister) hr
    have hphase : (g.now.step (.reap n fails)).phase = .retiring (todo.eraseIdx n) idle := hs
    refine inv_of_quiet h (begins_false (fun prev hw => by rw [hp] at hw; cases hw) n fails)
      (.of_same rfl ?_) ?_ ?_ ?_ ?_
    · intro k
      rw [hreg]
      exact activity_retirePathChild id activity k
    · rw [hphase, hp]
      exact List.Subset.refl _
    · rw [hphase, hp]
      exact eraseIdx_subset
    · intro x hx
      exact .inl (hpend ▸ (show x ∈ (g.now.reapStep n fails).pending from hx))
    · intro slot k ha
      have ha' : g.now.rib.activeAt slot k = true := by
        have hr' : (g.now.step (.reap n fails)).rib = _ := hr
        rw [hr'] at ha
        exact ha
      refine .inr ⟨ha', ?_⟩
      rw [hphase, hp]
      intro hc m hm
      exact hc m (eraseIdx_subset hm)

lemma inv_op (h : g.Inv) {op : RegisterOp} (hok : g.Recorded (.op op)) :
    (g.step (.op op)).Inv := by
  have hm : CountsMove g (.op op) := by
    constructor
    · intro id hchild
      rcases RegisterOp.activity_effect g.now.reg op id with hmove | ⟨new, rfl, hty, hnone⟩
      · exact hmove
      · have hnot : g.past.child id = false := hok hty hnone
        rw [hchild] at hnot
        cases hnot
    · intro id hid
      cases hid
  exact inv_of_quiet h rfl hm (List.Subset.refl _) (List.Subset.refl _) (fun x hx => .inl hx)
    fun slot id ha => .inr ⟨ha, fun hc => hc⟩

lemma inv_remove (h : g.Inv) (o : Removal env) : (g.step (.remove o)).Inv := by
  have hreg : (g.now.step (.remove o)).reg = g.now.reg := FlowRib.register_removal g.now.rib o
  exact inv_of_quiet h rfl (.of_same rfl fun id => congrArg (·.activity id) hreg)
    (List.Subset.refl _) (List.Subset.refl _) (fun x hx => .inl hx)
    fun slot id ha => .inr ⟨FlowRib.activeAt_of_removal o ha, fun hc => hc⟩

lemma inv_drop (h : g.Inv) (n : Nat) : (g.step (.drop n)).Inv :=
  inv_of_quiet h rfl (.of_same rfl fun _ => rfl) (List.Subset.refl _) (List.Subset.refl _)
    (fun _ hx => .inl (eraseIdx_subset hx)) fun _ _ ha => .inr ⟨ha, fun hc => hc⟩

lemma inv_store (h : g.Inv) (n : Nat) : (g.step (.store n)).Inv := by
  cases hn : g.now.pending[n]? with
  | none =>
    have hs : g.now.step (.store n) = g.now := by
      show g.now.store n = _
      simp only [ReapState.store, hn]
    refine inv_of_quiet h rfl (.of_same rfl fun id => by rw [hs]) ?_ ?_ ?_ ?_
    · rw [hs]
      exact List.Subset.refl _
    · rw [hs]
      exact List.Subset.refl _
    · rw [hs]
      exact fun x hx => .inl hx
    · rw [hs]
      exact fun slot id ha => .inr ⟨ha, fun hc => hc⟩
  | some x =>
    have hs : g.now.step (.store n) = { g.now with
        rib := g.now.rib.step env (x.announcement.op x.id)
        pending := g.now.pending.eraseIdx n } := by
      show g.now.store n = _
      simp only [ReapState.store, hn]
    refine inv_of_quiet h rfl (.of_same rfl ?_) ?_ ?_ ?_ ?_
    · intro id
      rw [hs]
      exact FlowRib.activity_announcement g.now.rib x.announcement x.id id
    · rw [hs]
      exact List.Subset.refl _
    · rw [hs]
      exact List.Subset.refl _
    · rw [hs]
      exact fun y hy => .inl (eraseIdx_subset hy)
    · rw [hs]
      intro slot id ha
      by_cases hid : id = x.id
      · exact .inl (hid ▸ (h.pending x (mem_of_getElem? hn)).1)
      · exact .inr ⟨FlowRib.activeAt_of_announcement x.announcement hid ha, fun hc => hc⟩

variable {how : Resolution}

lemma countsMove_of_advances {a : Announcement env}
    (h : ∀ id, (how.run g.now.reg).1 = some id → g.now.reg.Advances (how.run g.now.reg).2 id)
    (hm : ∀ id, CountMoves (g.now.reg.activity id) ((how.run g.now.reg).2.activity id)) :
    CountsMove g (.resolve how a) where
  moves id _ := hm id
  resolved id hid _ := (h id hid).at_id

/-- a resolution that leaves the counts of the path children is for another ingress -/
lemma countsMove_of_other {a : Announcement env} {id : IngressId}
    (hid : (how.run g.now.reg).1 = some id) (hnot : g.past.child id = false)
    (hm : ∀ k, g.past.child k = true →
      CountMoves (g.now.reg.activity k) ((how.run g.now.reg).2.activity k)) :
    CountsMove g (.resolve how a) where
  moves := hm
  resolved k hk hchild := by
    have hk' : (how.run g.now.reg).1 = some k := hk
    rw [hid] at hk'
    cases hk'
    rw [hnot] at hchild
    cases hchild

lemma countsMove_resolve {a : Announcement env} (hok : g.Recorded (.resolve how a)) :
    CountsMove g (.resolve how a) := by
  cases how with
  | refresh id parent pathId =>
    have heff := RegisterOp.activity_effect g.now.reg (.refreshPathChild id parent pathId)
    refine countsMove_of_advances ?_ ?_
    · intro k hk
      have hk' : (if (g.now.reg.refreshPathChild id parent pathId).1 = true then some id else none)
          = some k := hk
      by_cases hr : (g.now.reg.refreshPathChild id parent pathId).1 = true
      · rw [if_pos hr] at hk'
        cases hk'
        exact advances_refreshPathChild hr
      · rw [if_neg hr] at hk'
        cases hk'
    · intro k
      rcases heff k with hmove | ⟨new, hop, _⟩
      · exact hmove
      · cases hop
  | claim parent pathId pick =>
    exact countsMove_of_advances (fun k hk => advances_claim_pathChild hk)
      (fun k => activity_claim (.pathChild parent pathId) pick k)
  | mint id info =>
    have hnot : g.past.child id = false := hok
    refine countsMove_of_other rfl hnot ?_
    intro k hchild
    rcases activity_updateInfo id k info with hmove | ⟨rfl, _⟩
    · exact hmove
    · rw [hnot] at hchild
      cases hchild
  | known id =>
    have hnot : g.past.child id = false := hok
    exact countsMove_of_other rfl hnot (fun k _ => .same rfl)

lemma inv_resolve (h : g.Inv) {a : Announcement env} (hok : g.Recorded (.resolve how a)) :
    (g.step (.resolve how a)).Inv := by
  refine inv_of_quiet h rfl (countsMove_resolve hok) (List.Subset.refl _) (List.Subset.refl _) ?_
    fun slot id ha => .inr ⟨ha, fun hc => hc⟩
  intro x hx
  have hx' : x ∈ g.now.pending ++ (how.run g.now.reg).1.toList.map fun id => ⟨id, a, false⟩ := hx
  rcases mem_append.mp hx' with hold | hnew
  · exact .inl hold
  · obtain ⟨id, hid, rfl⟩ := mem_map.mp hnew
    exact .inr (Option.mem_toList.mp hid)

lemma inv_step (h : g.Inv) (ht : g.Timely e) (hok : g.Recorded e) : (g.step e).Inv := by
  cases e with
  | op op => exact inv_op h hok
  | remove o => exact inv_remove h o
  | resolve how a => exact inv_resolve h hok
  | store n => exact inv_store h n
  | drop n => exact inv_drop h n
  | reap n fails => exact inv_reap h ht

/-! ## every step of a run -/

/-- what is retired has the count that both sweeps read, so nothing was announced for it since the
first of them began -/
lemma spares_of_inv (h : g.Inv) (e : ReapEvent env) : g.Spares e := by
  intro id hret slot
  cases e with
  | reap n fails =>
    have hret' : (match g.now.phase with
      | .retiring todo _ => todo[n]?.bind fun x =>
        if (g.now.reg.retirePathChild x.1 x.2).1 then some x.1 else none
      | _ => none) = some id := hret
    cases hp : g.now.phase with
    | waiting prev | scanning prev children stores keys active =>
      rw [hp] at hret'
      cases hret'
    | retiring todo idle =>
      rw [hp] at hret'
      obtain ⟨x, hx, hx'⟩ := Option.bind_eq_some_iff.mp hret'
      have hmem : x ∈ todo := mem_of_getElem? hx
      by_cases hok : (g.now.reg.retirePathChild x.1 x.2).1 = true
      · rw [if_pos hok] at hx'
        cases hx'
        have hw := h.earlier x (by rw [hp]; exact hmem)
        obtain ⟨hact, hmax⟩ := activity_of_retired hok
        by_contra hne
        rcases h.covers slot x.1 (Bool.not_eq_false _ |>.mp hne) with hs | hc
        · rcases hw.passed hs x.2 hact with hlt | hend
          · omega
          · exact hmax hend
        · rw [hp] at hc
          exact hc x.2 hmem
      · rw [if_neg hok] at hx'
        cases hx'
  | op op | remove o | resolve how a | store n | drop n => cases hret

lemma along_spares (h : g.Inv) {es : List (ReapEvent env)}
    (ht : Run.Along step Timely g es) (hr : Run.Along step Recorded g es) :
    Run.Along step Spares g es := by
  induction es generalizing g with
  | nil => trivial
  | cons e es ih => exact ⟨spares_of_inv h e, ih (inv_step h ht.1 hr.1) ht.2 hr.2⟩

end Reap

/-- **No path child is retired while it owns an active record**, in every run where each announcement
is stored in time and moves the count of the path child that it is for. -/
theorem reap_spares {env : FlowSpecEnv} (r : FlowRib) (es : List (ReapEvent env))
    (ht : Run.Along Reap.step Reap.Timely (Reap.new r) es)
    (hr : Run.Along Reap.step Reap.Recorded (Reap.new r) es) :
    Run.Along Reap.step Reap.Spares (Reap.new r) es :=
  Reap.along_spares (Reap.inv_new r) ht hr

/-! ## a child that is idle, and one that the MRT input uses -/

instance {env : FlowSpecEnv} (g : Reap env) (e : ReapEvent env) : Decidable (g.Timely e) :=
  inferInstanceAs (Decidable (_ → _))

instance {env : FlowSpecEnv} (g : Reap env) (e : ReapEvent env) : Decidable (g.Recorded e) :=
  match e with
  | .resolve (.known id) _ => inferInstanceAs (Decidable (g.past.child id = false))
  | .resolve (.mint id _) _ => inferInstanceAs (Decidable (g.past.child id = false))
  | .op (.updateInfo id _) => inferInstanceAs (Decidable (_ → _ → g.past.child id = false))
  | .resolve (.refresh _ _ _) _ | .resolve (.claim _ _ _) _ | .remove _ | .store _ | .drop _
  | .reap _ _ => .isTrue trivial
  | .op .register | .op (.claim _ _) | .op (.markDisconnected _) | .op (.refreshPathChild _ _ _)
  | .op (.retirePathChild _ _) | .op (.remove _) | .op (.removeIfDisconnected _) => .isTrue trivial

/-- the path child 1 of a session that is up -/
def sessionChild : IngressInfo :=
  { IngressInfo.new with
    ingressType := some .bgpPath, parentIngress := some 7, pathId := some 3
    state := some .connected }

def oneRoute : Announcement noRules :=
  .route (defaultRoute .v4) false RotondaPaMap.emptyPathAttributes true

def routeGone : ReapEvent noRules :=
  .remove (.route (defaultRoute .v4) false RotondaPaMap.emptyPathAttributes 1 true)

/-- a sweep up to the point where it retires: it looks at the register and reads the only key -/
def scanOnce : List (ReapEvent noRules) := List.replicate 6 (.reap 0 false)

/-- a path is announced and withdrawn, and two sweeps find nothing of its child -/
def pathGone : List (ReapEvent noRules) :=
  [.op .register, .resolve (.mint 1 sessionChild) oneRoute, .store 0, routeGone] ++
    scanOnce ++ [.reap 0 false] ++ scanOnce

theorem reap_spares_idle :
    Run.Along Reap.step Reap.Spares (Reap.new (FlowRib.new Register.new)) (pathGone ++ [.reap 0 false]) ∧
    (Run.run Reap.step (Reap.new (FlowRib.new Register.new)) pathGone).now.retires (.reap 0 false) =
      some 1 :=
  ⟨reap_spares _ _ (by decide) (by decide), by decide⟩

/-- the path child of an MRT peer -/
def mrtChild : IngressInfo := { sessionChild with state := some .nonNetwork }

/-- a peer of an MRT file goes down and comes back: the first route after that connects the entry of
its path child.  The route is withdrawn, two sweeps find nothing, and the path is announced again
after the second has read the stores. -/
def mrtPathBack : List (ReapEvent noRules) :=
  [.op .register, .resolve (.mint 1 mrtChild) oneRoute, .store 0,
    .remove (.withdrawForIngresses [(1, none)] true),
    .resolve (.known 1) oneRoute, .store 0, routeGone] ++
    scanOnce ++ [.reap 0 false] ++ scanOnce ++ [.resolve (.known 1) oneRoute, .store 0]

theorem reap_takes_routed :
    Run.Along Reap.step Reap.Timely (Reap.new (FlowRib.new Register.new))
      (mrtPathBack ++ [.reap 0 false]) ∧
    ¬ Run.Along Reap.step Reap.Spares (Reap.new (FlowRib.new Register.new))
      (mrtPathBack ++ [.reap 0 false]) := by
  refine ⟨by decide, ?_⟩
  intro h
  have hlast := (Run.along_append.mp h).2.1 1 (by decide) ⟨.unicast, defaultRoute .v4⟩
  exact absurd hlast (by decide)

end Netom
