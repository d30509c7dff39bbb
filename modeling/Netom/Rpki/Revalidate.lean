import Netom.Rib.Query
import Netom.Rpki.Rov

/-!
# Revalidation against concurrent route updates

When VRPs change, the unit walks over stored routes: it reads records, validates them anew and
inserts each of them again, whole.  Meanwhile other tasks announce and withdraw routes.  The model
takes every read and every write of the store as one step of its own.

* `revalidated`  a record with its new ROV status;
* `UpdaterPc`  where `insert_prefix` stands between two accesses of the store;
* `WalkState.step`  the steps of one updater of a route and of any number of walks;
* `content_apply`  what an update leaves when nothing comes between its steps;
* `walk_settled_iff`  the walks preserve that exactly as long as no record changes between their
  read and their write.
-/

namespace Netom

/-! ## one record -/

/-- the AS_PATH, if there is one that parses -/
def RotondaPaMap.hopPath (m : RotondaPaMap) : Option HopPath :=
  m.pathAttributes.findSome? fun
    | some (.asPath path) => some path
    | _ => none

/-- the last hop, unless it is a set -/
def RotondaPaMap.originAsn (m : RotondaPaMap) : Option Asn :=
  m.hopPath.bind fun path => match path.getLast? with
    | some (.asn a) => some a
    | _ => none

/-- the record that is written back; a route without an origin is left alone -/
def revalidated (mt : VrpMatcher) (vrps : VrpStore) (q : Prefix) (r : Record) : Option Record :=
  r.pamap.originAsn.map fun origin =>
    { r with pamap := r.pamap.setRpkiInfo (checkRov q origin mt vrps) }

lemma butRov_revalidated {mt : VrpMatcher} {vrps : VrpStore} {q : Prefix} {r r' : Record}
    (h : revalidated mt vrps q r = some r') : r'.butRov = r.butRov := by
  obtain ⟨origin, -, rfl⟩ := Option.map_eq_some_iff.mp h
  rfl

/-! ## one route update -/

inductive UpdateOp where
  | announce (pamap : RotondaPaMap)
  | withdraw (retainWithdrawnAttributes : Bool)

/-- what an update makes of the route, by itself -/
def UpdateOp.leaves (op : UpdateOp) (mui : IngressId) (last : Option Record) : Option Record :=
  match op with
  | .announce pamap => some (Record.butRov ⟨mui, .active, pamap⟩)
  | .withdraw false => last.map fun _ => (withdrawnRecord mui).butRov
  | .withdraw true => last.map fun r => { r with status := .withdrawn }

/-- the whole update, as `insert_prefix` makes it on the unicast store -/
def UpdateOp.apply (op : UpdateOp) (rib : Rib) (p : Prefix) (mui : IngressId) : Rib :=
  match op with
  | .announce pamap => rib.insertPrefix p false pamap .active mui false
  | .withdraw retain =>
    rib.insertPrefix p false RotondaPaMap.emptyPathAttributes .withdrawn mui retain

/-- **what an update leaves of its route depends on nothing else in the RIB** -/
theorem content_apply (op : UpdateOp) (rib : Rib) (p : Prefix) (mui : IngressId) :
    (op.apply rib p mui).unicast.content p mui = op.leaves mui (rib.unicast.content p mui) := by
  cases op with
  | announce pamap =>
    have hstore : (rib.insertPrefix p false pamap .active mui false).unicast =
        (resetPrefixFamily rib.unicast mui p.family).insert p ⟨mui, .active, pamap⟩ :=
      insertPrefix_active_store rib p false pamap mui false false
    have hclear := not_mem_resetPrefixFamily rib.unicast mui p.family
    have hrep : (resetPrefixFamily rib.unicast mui p.family).report (p, mui)
        ⟨mui, .active, pamap⟩ = ⟨mui, .active, pamap⟩ :=
      report_of_withdrawn rfl fun hw => absurd (of_decide_eq_true hw) hclear
    show (rib.insertPrefix p false pamap .active mui false).unicast.content p mui = _
    rw [hstore, content_insert, if_pos ⟨rfl, rfl⟩, hrep]
    rfl
  | withdraw retain =>
    cases retain with
    | true =>
      show (rib.unicast.markMuiAsWithdrawnForPrefix p mui).content p mui = _
      exact content_markMuiAsWithdrawnForPrefix rib.unicast p mui
    | false =>
      show (if !rib.unicast.contains p mui then rib
        else rib.setStore false (rib.unicast.insert p (withdrawnRecord mui))).unicast.content
          p mui = _
      cases hg : rib.unicast.get p mui with
      | none =>
        have hc : rib.unicast.content p mui = none := by
          unfold Store.content
          rw [hg]
          rfl
        rw [if_pos (by simp [Store.contains, hg]), hc]
        rfl
      | some r =>
        have hc : (rib.unicast.content p mui).isSome := by
          unfold Store.content
          rw [hg]
          rfl
        obtain ⟨r', hr'⟩ := Option.isSome_iff_exists.mp hc
        have hrep : rib.unicast.report (p, mui) (withdrawnRecord mui) = withdrawnRecord mui :=
          report_of_withdrawn rfl fun _ => rfl
        rw [if_neg (by simp [Store.contains, hg]), hr']
        show (rib.unicast.insert p (withdrawnRecord mui)).content p mui = _
        rw [content_insert, if_pos ⟨rfl, rfl⟩, hrep]
        rfl

/-! ## the same update, access by access -/

/-- the next access of the store -/
inductive UpdaterPc where
  | idle
  /-- `mui_is_withdrawn` before an insert -/
  | checkMark (pamap : RotondaPaMap)
  /-- again, in `reset_prefix_family` under its lock -/
  | recheckMark (pamap : RotondaPaMap)
  | listKeys (pamap : RotondaPaMap)
  /-- `contains` of the next key; the mark is cleared after the last -/
  | resetKeys (pamap : RotondaPaMap) (keys : List Prefix)
  | resetWrite (pamap : RotondaPaMap) (q : Prefix) (keys : List Prefix)
  | insert (pamap : RotondaPaMap)
  /-- `contains` before a withdrawn record is inserted -/
  | checkContains
  | withdrawWrite
  /-- `mark_mui_as_withdrawn_for_prefix` -/
  | markWithdrawn

/-- no write of the current update has happened -/
def UpdaterPc.quiet : UpdaterPc → Bool
  | .idle | .checkMark _ | .checkContains | .withdrawWrite | .markWithdrawn => true
  | _ => false

def UpdateOp.start : UpdateOp → UpdaterPc
  | .announce pamap => .checkMark pamap
  | .withdraw false => .checkContains
  | .withdraw true => .markWithdrawn

/-- The store, the records that walks have read and not yet dealt with, the updater of one route,
and what the updates that have ended leave of the route. -/
structure WalkState where
  store : Store
  held : List (Prefix × Record)
  pc : UpdaterPc
  last : Option Record

inductive WalkEvent where
  | start (op : UpdateOp)
  | tick
  | read (includeWithdrawn : Bool) (qs : List Prefix)
  /-- a walk validates the `i`th record it holds, against the VRPs of that moment -/
  | writeBack (i : Nat) (vrps : VrpStore)

namespace WalkState
variable (mt : VrpMatcher) (p : Prefix) (mui : IngressId)

def init (store : Store) : WalkState := ⟨store, [], .idle, store.content p mui⟩

def tick (s : WalkState) : WalkState :=
  match s.pc with
  | .idle => s
  | .checkMark pamap =>
    if s.store.muiIsWithdrawn p.family mui then { s with pc := .recheckMark pamap }
    else { s with pc := .insert pamap }
  | .recheckMark pamap =>
    if s.store.muiIsWithdrawn p.family mui then { s with pc := .listKeys pamap }
    else { s with pc := .insert pamap }
  | .listKeys pamap =>
    let keys := (s.store.records.keys.map (·.1)).dedup.filter (·.family = p.family)
    { s with pc := .resetKeys pamap keys }
  | .resetKeys pamap [] =>
    { s with store := s.store.markMuiAsActiveIn p.family mui, pc := .insert pamap }
  | .resetKeys pamap (q :: keys) =>
    if s.store.contains q mui then { s with pc := .resetWrite pamap q keys }
    else { s with pc := .resetKeys pamap keys }
  | .resetWrite pamap q keys =>
    { s with store := s.store.insert q (withdrawnRecord mui), pc := .resetKeys pamap keys }
  | .insert pamap =>
    { s with
      store := s.store.insert p ⟨mui, .active, pamap⟩
      pc := .idle
      last := UpdateOp.leaves (.announce pamap) mui s.last }
  | .checkContains =>
    if s.store.contains p mui then { s with pc := .withdrawWrite }
    else { s with pc := .idle, last := UpdateOp.leaves (.withdraw false) mui s.last }
  | .withdrawWrite =>
    { s with
      store := s.store.insert p (withdrawnRecord mui)
      pc := .idle
      last := UpdateOp.leaves (.withdraw false) mui s.last }
  | .markWithdrawn =>
    { s with
      store := s.store.markMuiAsWithdrawnForPrefix p mui
      pc := .idle
      last := UpdateOp.leaves (.withdraw true) mui s.last }

def writeBack (s : WalkState) (i : Nat) (vrps : VrpStore) : WalkState :=
  match s.held[i]? with
  | none => s
  | some (q, r) =>
    let s := { s with held := s.held.eraseIdx i }
    match revalidated mt vrps q r with
    | some r' => { s with store := s.store.insert q r' }
    | none => s

def step (s : WalkState) : WalkEvent → WalkState
  | .start op => match s.pc with
    | .idle => { s with pc := op.start }
    | _ => s
  | .tick => s.tick p mui
  | .read includeWithdrawn qs => { s with held := s.held ++ s.store.read includeWithdrawn qs }
  | .writeBack i vrps => s.writeBack mt i vrps

/-- the store has what the last update left of the route, or an update is at work on it -/
def Settled (s : WalkState) : Prop := s.pc.quiet = true → s.store.content p mui = s.last

/-- a record of the route is written back with the status and the attributes it still has -/
def Fresh (s : WalkState) : WalkEvent → Prop
  | .writeBack i _ => ∀ r, s.held[i]? = some (p, r) → r.multiUniqId = mui →
      r.pamap.originAsn.isSome → s.pc.quiet = true → s.store.content p mui = some r.butRov
  | _ => True

/-! ## what holds in every run -/

/-- the updater has seen what it goes on, and a route of a withdrawn mui is held as withdrawn -/
structure Aux (s : WalkState) : Prop where
  insert_clear : ∀ pamap, s.pc = .insert pamap → s.store.muiIsWithdrawn p.family mui = false
  write_contains : s.pc = .withdrawWrite → s.store.contains p mui = true
  held_withdrawn : ∀ r, (p, r) ∈ s.held → r.multiUniqId = mui →
    s.store.muiIsWithdrawn p.family mui = true → r.status = .withdrawn

lemma contains_insert {store : Store} {q : Prefix} {r : Record}
    (h : store.contains p mui = true) : (store.insert q r).contains p mui = true := by
  unfold Store.contains Store.get Store.insert at *
  rw [Assoc.lookup_insert_eq]
  split
  · rfl
  · exact h

lemma aux_init (store : Store) : Aux p mui (init p mui store) where
  insert_clear pamap h := by cases h
  write_contains h := by cases h
  held_withdrawn r h := by cases h

variable {s : WalkState}

lemma aux_tick (h : Aux p mui s) : Aux p mui (s.tick p mui) := by
  obtain ⟨store, held, pc, last⟩ := s
  have hheld := h.held_withdrawn
  -- the mark is read, cleared or left alone, and never set
  have clear : ∀ {b : Bool}, ¬ b = true → b = false := fun hb => Bool.eq_false_iff.mpr hb
  cases pc with
  | idle => exact h
  | checkMark pamap | recheckMark pamap =>
    by_cases hm : store.muiIsWithdrawn p.family mui = true
    · simp only [tick, hm, if_true]
      exact ⟨by rintro _ ⟨⟩, by rintro ⟨⟩, hheld⟩
    · simp only [tick, hm]
      exact ⟨fun _ _ => clear hm, by rintro ⟨⟩, hheld⟩
  | listKeys pamap | resetWrite pamap q keys | insert pamap | withdrawWrite | markWithdrawn =>
    exact ⟨by rintro _ ⟨⟩, by rintro ⟨⟩, hheld⟩
  | resetKeys pamap keys =>
    cases keys with
    | nil =>
      have hc : (store.markMuiAsActiveIn p.family mui).muiIsWithdrawn p.family mui = false := by
        simp [Store.muiIsWithdrawn, Store.markMuiAsActiveIn]
      exact ⟨fun _ _ => hc, by rintro ⟨⟩, fun r _ _ hw => absurd (hw.symm.trans hc) (by decide)⟩
    | cons q keys =>
      by_cases hq : store.contains q mui = true
      · simp only [tick, hq, if_true]
        exact ⟨by rintro _ ⟨⟩, by rintro ⟨⟩, hheld⟩
      · simp only [tick, hq]
        exact ⟨by rintro _ ⟨⟩, by rintro ⟨⟩, hheld⟩
  | checkContains =>
    by_cases hq : store.contains p mui = true
    · simp only [tick, hq, if_true]
      exact ⟨by rintro _ ⟨⟩, fun _ => hq, hheld⟩
    · simp only [tick, hq]
      exact ⟨by rintro _ ⟨⟩, by rintro ⟨⟩, hheld⟩

lemma writeBack_cases (s : WalkState) (i : Nat) (vrps : VrpStore) :
    (s.held[i]? = none ∧ s.writeBack mt i vrps = s) ∨
    ∃ q r, s.held[i]? = some (q, r) ∧
      ((r.pamap.originAsn = none ∧
        s.writeBack mt i vrps = { s with held := s.held.eraseIdx i }) ∨
      ∃ r', revalidated mt vrps q r = some r' ∧ s.writeBack mt i vrps =
        { s with held := s.held.eraseIdx i, store := s.store.insert q r' }) := by
  unfold writeBack
  cases hi : s.held[i]? with
  | none => exact .inl ⟨rfl, rfl⟩
  | some e =>
    obtain ⟨q, r⟩ := e
    refine .inr ⟨q, r, rfl, ?_⟩
    cases hr : revalidated mt vrps q r with
    | none => exact .inl ⟨Option.map_eq_none_iff.mp hr, by simp only [hr]⟩
    | some r' => exact .inr ⟨r', rfl, by simp only [hr]⟩

lemma aux_writeBack (h : Aux p mui s) (i : Nat) (vrps : VrpStore) :
    Aux p mui (s.writeBack mt i vrps) := by
  have hheld : ∀ r, (p, r) ∈ s.held.eraseIdx i → r.multiUniqId = mui →
      s.store.muiIsWithdrawn p.family mui = true → r.status = .withdrawn := fun r hm =>
    h.held_withdrawn r ((List.eraseIdx_sublist s.held i).subset hm)
  obtain ⟨-, heq⟩ | ⟨q, r, -, ⟨-, heq⟩ | ⟨r', -, heq⟩⟩ := writeBack_cases mt s i vrps
  · rw [heq]
    exact h
  · rw [heq]
    exact ⟨h.insert_clear, h.write_contains, hheld⟩
  · rw [heq]
    exact ⟨h.insert_clear, fun hpc => contains_insert p mui (h.write_contains hpc), hheld⟩

lemma aux_step (h : Aux p mui s) (e : WalkEvent) : Aux p mui (s.step mt p mui e) := by
  cases e with
  | start op =>
    obtain ⟨store, held, pc, last⟩ := s
    cases pc with
    | idle =>
      have hheld := h.held_withdrawn
      cases op with
      | announce pamap => exact ⟨nofun, nofun, hheld⟩
      | withdraw retain => cases retain <;> exact ⟨nofun, nofun, hheld⟩
    | _ => exact h
  | tick => exact aux_tick p mui h
  | read includeWithdrawn qs =>
    refine ⟨h.insert_clear, h.write_contains, fun r hm hmui hw => ?_⟩
    rcases List.mem_append.mp hm with hm | hm
    · exact h.held_withdrawn r hm hmui hw
    · exact status_of_mem_read hm (hmui ▸ hw)
  | writeBack i vrps => exact aux_writeBack mt p mui h i vrps

/-! ## the route between updates -/

lemma settled_tick (h : Settled p mui s) (ha : Aux p mui s) : Settled p mui (s.tick p mui) := by
  obtain ⟨store, held, pc, last⟩ := s
  cases pc with
  | idle => exact h
  | checkMark pamap | recheckMark pamap =>
    by_cases hm : store.muiIsWithdrawn p.family mui = true
    · simp only [tick, hm, if_true]
      exact nofun
    · simp only [tick, hm]
      exact nofun
  | listKeys pamap | resetWrite pamap q keys => exact nofun
  | resetKeys pamap keys =>
    cases keys with
    | nil => exact nofun
    | cons q keys =>
      by_cases hq : store.contains q mui = true
      · simp only [tick, hq, if_true]
        exact nofun
      · simp only [tick, hq]
        exact nofun
  | insert pamap =>
    intro _
    show (store.insert p ⟨mui, .active, pamap⟩).content p mui = some (Record.butRov _)
    have hclear : store.muiIsWithdrawn p.family mui = false := ha.insert_clear pamap rfl
    have hrep : store.report (p, mui) ⟨mui, .active, pamap⟩ = ⟨mui, .active, pamap⟩ :=
      report_of_withdrawn rfl fun hw => absurd (hw.symm.trans hclear) (by decide)
    rw [content_insert, if_pos ⟨rfl, rfl⟩, hrep]
  | checkContains =>
    have hc : store.content p mui = last := h rfl
    by_cases hq : store.contains p mui = true
    · simp only [tick, hq, if_true]
      exact fun _ => hc
    · simp only [tick, hq]
      intro _
      -- there is no such route, and the withdrawal leaves none
      have hnone : store.get p mui = none := by simpa [Store.contains] using hq
      have hcn : store.content p mui = none := by
        unfold Store.content
        rw [hnone]
        rfl
      show store.content p mui = last.map _
      rw [← hc, hcn]
      rfl
  | withdrawWrite =>
    intro _
    have hc : store.content p mui = last := h rfl
    have hsome : (store.content p mui).isSome := by
      unfold Store.content
      rw [Option.isSome_map]
      exact ha.write_contains rfl
    obtain ⟨r, hr⟩ := Option.isSome_iff_exists.mp hsome
    show (store.insert p (withdrawnRecord mui)).content p mui = last.map _
    have hrep : store.report (p, mui) (withdrawnRecord mui) = withdrawnRecord mui :=
      report_of_withdrawn rfl fun _ => rfl
    rw [content_insert, if_pos ⟨rfl, rfl⟩, hrep, ← hc, hr]
    rfl
  | markWithdrawn =>
    intro _
    have hc : store.content p mui = last := h rfl
    show (store.markMuiAsWithdrawnForPrefix p mui).content p mui = last.map _
    rw [content_markMuiAsWithdrawnForPrefix, hc]

/-- a write-back leaves the content as it is, or puts back what was read -/
lemma settled_writeBack_iff (h : Settled p mui s) (ha : Aux p mui s) (i : Nat) (vrps : VrpStore) :
    Settled p mui (s.writeBack mt i vrps) ↔ Fresh p mui s (.writeBack i vrps) := by
  obtain ⟨hi, heq⟩ | ⟨q, r, hi, ⟨hnone, heq⟩ | ⟨r', hr, heq⟩⟩ := writeBack_cases mt s i vrps
  · rw [heq]
    refine iff_of_true h fun r hr => ?_
    rw [hi] at hr
    cases hr
  · rw [heq]
    refine iff_of_true h fun r' hr' _ ho => ?_
    rw [hi] at hr'
    cases hr'
    rw [hnone] at ho
    cases ho
  · rw [heq]
    show (s.pc.quiet = true → (s.store.insert q r').content p mui = s.last) ↔ _
    have hbut := butRov_revalidated hr
    have hmui : r'.multiUniqId = r.multiUniqId := by
      show r'.butRov.multiUniqId = r.butRov.multiUniqId
      rw [hbut]
    rw [content_insert, hmui]
    by_cases hk : p = q ∧ mui = r.multiUniqId
    · obtain ⟨rfl, rfl⟩ := hk
      have hrep : (s.store.report (p, r.multiUniqId) r').butRov = r.butRov := by
        rw [report_of_withdrawn hmui, hbut]
        intro hw
        show r'.butRov.status = .withdrawn
        rw [hbut]
        exact ha.held_withdrawn r (List.mem_of_getElem? hi) rfl hw
      rw [if_pos ⟨rfl, rfl⟩, hrep]
      constructor
      · intro hs r₂ hr₂ _ _ hq
        rw [hi] at hr₂
        cases hr₂
        rw [hs hq]
        exact h hq
      · intro hf hq
        have ho : r.pamap.originAsn.isSome := by
          obtain ⟨origin, ho, -⟩ := Option.map_eq_some_iff.mp hr
          rw [ho]
          rfl
        rw [← hf r hi rfl ho hq]
        exact h hq
    · rw [if_neg hk]
      refine iff_of_true h fun r₂ hr₂ hm _ _ => ?_
      rw [hi] at hr₂
      cases hr₂
      exact absurd ⟨rfl, hm.symm⟩ hk

lemma settled_step_iff (h : Settled p mui s) (ha : Aux p mui s) (e : WalkEvent) :
    Settled p mui (s.step mt p mui e) ↔ Fresh p mui s e := by
  cases e with
  | start op =>
    refine iff_of_true ?_ trivial
    obtain ⟨store, held, pc, last⟩ := s
    cases pc with
    | idle => exact fun _ => h rfl
    | _ => exact h
  | tick => exact iff_of_true (settled_tick p mui h ha) trivial
  | read includeWithdrawn qs => exact iff_of_true h trivial
  | writeBack i vrps => exact settled_writeBack_iff mt p mui h ha i vrps

/-- **Between updates the store has what the last one left of the route, throughout a run, exactly
when every write-back finds the status and the attributes that were read.** -/
theorem walk_settled_iff (store : Store) (es : List WalkEvent) :
    (∀ es', es' <+: es → Settled p mui (Run.run (step mt p mui) (init p mui store) es')) ↔
      Run.Along (step mt p mui) (Fresh p mui) (init p mui store) es := by
  have hinit : Settled p mui (init p mui store) ∧ Aux p mui (init p mui store) :=
    ⟨fun _ => rfl, aux_init p mui store⟩
  have hstep : ∀ s e, Settled p mui s ∧ Aux p mui s →
      (Settled p mui (step mt p mui s e) ∧ Aux p mui (step mt p mui s e) ↔ Fresh p mui s e) := by
    rintro s e ⟨hs, ha⟩
    rw [← settled_step_iff mt p mui hs ha e]
    exact and_iff_left (aux_step mt p mui ha e)
  have haux : ∀ es, Aux p mui (Run.run (step mt p mui) (init p mui store) es) := by
    intro es
    induction es using List.reverseRecOn with
    | nil => exact hinit.2
    | append_singleton es e ih =>
      rw [Run.run_append]
      exact aux_step mt p mui ih e
  rw [← Run.along_iff hstep hinit es]
  exact forall_congr' fun es' => forall_congr' fun _ => (and_iff_left (haux es')).symm

/-! ## a withdrawal between read and write -/

/-- 0.0.0.0/1 -/
def half : Prefix := lowerHalf

/-- an active route of ingress 7 that AS 1 originates -/
def halfRoute : Record := ⟨7, .active, ⟨.notChecked, true, [some (.asPath [.asn 1])]⟩⟩

/-- a walk reads the route, the route is withdrawn, the walk writes back -/
def withdrawnMeanwhile : List WalkEvent :=
  [.read false [half], .start (.withdraw false), .tick, .tick, .writeBack 0 ∅]

/-- the withdrawn route is active again -/
theorem withdrawnMeanwhile_active :
    let s := Run.run (step (PrefixMatch.Matcher.reference _) half 7)
      (init half 7 (Store.empty.insert half halfRoute)) withdrawnMeanwhile
    s.pc = .idle ∧ s.last = some (withdrawnRecord 7).butRov ∧
      s.store.content half 7 = some halfRoute.butRov ∧ (s.store.active half 7).isSome := by
  refine ⟨rfl, ?_, ?_, ?_⟩ <;> decide

end WalkState

end Netom
