import Netom.Session.Process
import Netom.Session.Registry

/-!
# The state of a peer in the session registry

A session task writes the state of its FSM to the registry after each tick that succeeds, and is in
the map of live sessions from `SessionNegotiated` on until it leaves its loop.  It leaves at an
error of the FSM, when the connection is lost, when its unit terminates, and at a reconfiguration
that concerns it; none of these exits writes a state.

The FSM is a dependency: each tick ends in some state and has put some messages in the channel to
the task.  UPDATEs and NOTIFICATIONs concern neither of the two and are left out.

* `MirrorTask`, `MirrorEvent`, `Mirror.step`  the tasks, the dialers and the publishes;
* `Up`  the registry says Established for an address;
* `Orderly`  the condition on the steps of a run;
* `Waiting`  what a task still has to read, and what it has done about it;
* `up_iff_live`  the registry and the map agree whenever no message waits.
-/

set_option linter.unusedSectionVars false

namespace Netom.BgpSession
open SessionRegistry Option List Function Run

/-! ## session tasks -/

inductive SessionMessage where
  | sessionNegotiated (asn : Asn)
  | connectionLost
  deriving DecidableEq, Repr

structure MirrorTask where
  addr : IpAddr
  /-- the status of the peer; none if the address of the connection was not known -/
  status : Option Nat
  fsm : FsmState
  /-- the id of the session, once it is negotiated with `asn` -/
  sid : Option Nat
  asn : Asn
  queue : List SessionMessage

structure Mirror (C : Type) where
  registry : SessionRegistry
  /-- the ids of the live sessions -/
  live : Assoc PeerKey Nat
  sessionIdCounter : Nat
  tasks : C → Option MirrorTask

inductive MirrorEvent (C : Type) where
  | connect (c : C) (addr : IpAddr) (known : Bool) (st : FsmState)
  /-- the FSM ends a tick in `st` and has sent `msgs` -/
  | tick (c : C) (now : Int) (st : FsmState) (msgs : List SessionMessage)
  | tickErr (c : C)
  /-- terminated, deconfigured, or another configuration of the unit -/
  | leave (c : C)
  | receive (c : C)
  /-- a dialer does not reach its peer -/
  | dialError (addr : IpAddr) (now : Int)
  | publish (peers : PeerConfigs)

namespace Mirror
variable {C : Type} [DecidableEq C]

def start : Mirror C := ⟨new, ∅, 0, fun _ => none⟩

def put (s : Mirror C) (c : C) (t : Option MirrorTask) : Mirror C :=
  { s with tasks := update s.tasks c t }

def writeStatus (s : Mirror C) (t : MirrorTask) (f : SessionStatus → SessionStatus) : Mirror C :=
  match t.status with
  | some cell => { s with registry := s.registry.write cell f }
  | none => s

def connect (s : Mirror C) (c : C) (addr : IpAddr) (known : Bool) (st : FsmState) : Mirror C :=
  if known then
    match getOrCreate s.registry addr with
    | (cell, r) => { s with registry := r }.put c (some ⟨addr, some cell, st, none, 0, []⟩)
  else s.put c (some ⟨addr, none, st, none, 0, []⟩)

/-- the end of `process`: only the owner of the entry removes it -/
def finish (s : Mirror C) (c : C) (t : MirrorTask) : Mirror C :=
  if t.sid.isSome ∧ s.live.lookup (t.addr, t.asn) = t.sid then
    { s with live := s.live.erase (t.addr, t.asn) }.put c none
  else s.put c none

/-- `SessionNegotiated`: the entry of an older session with the peer is replaced -/
def negotiate (s : Mirror C) (c : C) (t : MirrorTask) (asn : Asn) (rest : List SessionMessage) :
    Mirror C :=
  { s.writeStatus t (·.setRemoteAsn asn) with
    live := (s.live.erase (t.addr, asn)).insert (t.addr, asn) s.sessionIdCounter
    sessionIdCounter := s.sessionIdCounter + 1 }.put c
      (some { t with sid := some s.sessionIdCounter, asn := asn, queue := rest })

def receive (s : Mirror C) (c : C) (t : MirrorTask) : Mirror C :=
  match t.queue with
  | [] => s
  | .sessionNegotiated asn :: rest => s.negotiate c t asn rest
  | .connectionLost :: _ => s.finish c t

/-- in `connect_loop`: waiting to try again is Active -/
def dialError (s : Mirror C) (addr : IpAddr) (now : Int) : Mirror C :=
  match getOrCreate s.registry addr with
  | (cell, r) => { s with registry := r.write cell (·.setState now .active) }

def step (s : Mirror C) : MirrorEvent C → Mirror C
  | .connect c addr known st => if (s.tasks c).isSome then s else s.connect c addr known st
  | .tick c now st msgs =>
    match s.tasks c with
    | some t =>
      (s.writeStatus t (·.setState now st)).put c (some { t with fsm := st, queue := t.queue ++ msgs })
    | none => s
  | .tickErr c | .leave c =>
    match s.tasks c with
    | some t => s.finish c t
    | none => s
  | .receive c =>
    match s.tasks c with
    | some t => s.receive c t
    | none => s
  | .dialError addr now => s.dialError addr now
  | .publish peers => { s with registry := publishPeerRoster peers s.registry }

end Mirror

/-! ## what the registry says -/

/-- the state kept for the address is Established -/
def Up (r : SessionRegistry) (addr : IpAddr) : Prop :=
  ∃ s, r.view addr = some s ∧ s.state = .established

section up
variable {r : SessionRegistry} {addr addr' : IpAddr} {cell : Nat}

lemma up_congr {r' : SessionRegistry} (h : r'.view addr = r.view addr) :
    Up r' addr ↔ Up r addr := by
  unfold Up
  rw [h]

lemma up_getOrCreate : Up (getOrCreate r addr').2 addr ↔ Up r addr := by
  unfold Up
  rw [getOrCreate, Shared.view_getOrCreate]
  by_cases h : addr = addr'
  · subst h
    cases hv : r.view addr with
    | none => simp [SessionStatus.default, SessionStatus.state, FsmState.fromU8_asU8]
    | some s => simp
  · simp [h]

lemma up_write_setState (h : r.inner.lookup addr = some cell) (now : Int) (st : FsmState) :
    Up (r.write cell (·.setState now st)) addr ↔ st = .established := by
  unfold Up
  rw [Shared.view_write_of_lookup h, if_pos rfl, Shared.view_of_lookup h]
  simp

lemma up_write_setRemoteAsn (asn : Asn) :
    Up (r.write cell (·.setRemoteAsn asn)) addr ↔ Up r addr := by
  unfold Up
  rw [Shared.view_write]
  split
  · cases r.view addr with
    | none => simp
    | some s => simp [SessionStatus.setRemoteAsn, SessionStatus.state]
  · rfl

lemma view_write_of_ne {f : SessionStatus → SessionStatus} (h : r.inner.lookup addr = some cell)
    (hne : addr' ≠ addr) : (r.write cell f).view addr' = r.view addr' := by
  rw [Shared.view_write_of_lookup h, if_neg hne]

lemma view_getOrCreate_of_ne (hne : addr' ≠ addr) :
    (getOrCreate r addr).2.view addr' = r.view addr' := by
  rw [getOrCreate, Shared.view_getOrCreate, if_neg hne]

lemma up_publishPeer (e : IpAddr × PeerConfig) : Up (publishPeer r e) addr ↔ Up r addr := by
  unfold Up
  rw [view_publishPeer]
  by_cases h : addr = e.1
  · subst h
    cases r.view e.1 with
    | none => simp [configuredAs, SessionStatus.default, SessionStatus.state]
    | some s => simp [configuredAs, SessionStatus.state]
  · simp [h]

lemma up_foldl (es : List (IpAddr × PeerConfig)) :
    Up (es.foldl publishPeer r) addr ↔ Up r addr := by
  induction es generalizing r with
  | nil => rfl
  | cons e es ih => rw [foldl_cons, ih, up_publishPeer]

lemma up_publish (peers : PeerConfigs) : Up (publishPeerRoster peers r) addr ↔ Up r addr := by
  have hforget : ∀ r' : SessionRegistry, Up (forgetUnconfiguredIdle r') addr ↔ Up r' addr := by
    intro r'
    unfold Up
    rw [forgetUnconfiguredIdle, Shared.view_retain]
    constructor
    · rintro ⟨s, hs, hst⟩
      exact ⟨s, (filter_eq_some_iff.mp hs).1, hst⟩
    · rintro ⟨s, hs, hst⟩
      have hkeep : s.keep = true := by simp [SessionStatus.keep, hst]
      exact ⟨s, filter_eq_some_iff.mpr ⟨hs, hkeep⟩, hst⟩
  rw [publishPeerRoster, hforget, up_foldl]
  unfold Up
  rw [clearConfiguredMarks, Shared.view_mapAll]
  cases r.view addr with
  | none => simp
  | some s => simp [SessionStatus.setConfigured, SessionStatus.state]

/-- a status that is in the registry stays the same cell, in the same state, while peers are marked -/
lemma lookup_foldl (es : List (IpAddr × PeerConfig)) (h : r.inner.lookup addr = some cell) :
    (es.foldl publishPeer r).inner.lookup addr = some cell ∧
      ((es.foldl publishPeer r).cells cell).state = (r.cells cell).state := by
  induction es generalizing r with
  | nil => exact ⟨h, rfl⟩
  | cons e es ih =>
    have hl : (publishPeer r e).inner.lookup addr = some cell := by
      show (Shared.getOrCreate r e.1 .default).2.inner.lookup addr = some cell
      by_cases he : addr = e.1
      · subst he
        rw [Shared.getOrCreate, h]
        exact h
      · rw [Shared.lookup_getOrCreate_of_ne he, h]
    have hview : (publishPeer r e).view addr = _ := view_publishPeer e
    rw [Shared.view_of_lookup hl, Shared.view_of_lookup h] at hview
    have hst : ((publishPeer r e).cells cell).state = (r.cells cell).state := by
      split at hview
      · rename_i he
        subst he
        rw [Shared.view_of_lookup h] at hview
        rw [some.inj hview]
        rfl
      · rw [some.inj hview]
    obtain ⟨hl', hst'⟩ := ih hl
    exact ⟨hl', hst'.trans hst⟩

lemma lookup_publish {peers : PeerConfigs} (h : r.inner.lookup addr = some cell)
    (hkeep : addr ∈ peers.exactAddrs ∨ (r.cells cell).state ≠ .idle) :
    (publishPeerRoster peers r).inner.lookup addr = some cell := by
  have hclear : (clearConfiguredMarks r).inner.lookup addr = some cell := h
  have hst : ((clearConfiguredMarks r).cells cell).state = (r.cells cell).state := by
    have hview : (clearConfiguredMarks r).view addr = (r.view addr).map (·.setConfigured false) :=
      Shared.view_mapAll
    rw [Shared.view_of_lookup hclear, Shared.view_of_lookup h] at hview
    rw [some.inj hview]
    rfl
  obtain ⟨hl, hst'⟩ := lookup_foldl peers.exacts hclear
  rw [publishPeerRoster, forgetUnconfiguredIdle, Shared.lookup_retain, hl]
  refine filter_eq_some_iff.mpr ⟨rfl, ?_⟩
  rcases hkeep with hmem | hne
  · obtain ⟨s, hs, hc⟩ := (marked_foldl peers.exacts).mpr (Or.inl hmem)
    rw [Shared.view_of_lookup hl] at hs
    simp [SessionStatus.keep, some.inj hs, hc]
  · simp [SessionStatus.keep, hst', hst, hne]

end up

/-! ## the condition -/

/-- the FSM reports the negotiation with the tick that enters Established, and the loss of the
connection with the one that leaves it -/
def FsmTells (t : MirrorTask) (st : FsmState) (msgs : List SessionMessage) : Prop :=
  if st = .established then
    if t.fsm = .established then msgs = []
    else (∃ asn, msgs = [.sessionNegotiated asn]) ∧ .connectionLost ∉ t.queue
  else if t.fsm = .established then msgs = [.connectionLost]
  else msgs = [] ∨ msgs = [.connectionLost]

namespace Mirror
variable {C : Type} [DecidableEq C]

/-- no task has a connection from the address -/
def Free (s : Mirror C) (addr : IpAddr) : Prop := ∀ c t, s.tasks c = some t → t.addr ≠ addr

/-- one connection at a time from an address, whose status is known and is not forgotten; a dial
fails only where there is none; and an established session ends by losing its connection -/
def Orderly (s : Mirror C) : MirrorEvent C → Prop
  | .connect _ addr known st => known = true ∧ st ≠ .established ∧ s.Free addr
  | .tick c _ st msgs => ∀ t, s.tasks c = some t → FsmTells t st msgs
  | .tickErr c | .leave c => ∀ t, s.tasks c = some t → t.fsm ≠ .established
  | .receive _ => True
  | .dialError addr _ => s.Free addr
  | .publish peers => ∀ c t, s.tasks c = some t → t.addr ∈ peers.exactAddrs ∨
      ∀ st, s.registry.view t.addr = some st → st.state ≠ .idle

/-- no task has a message to read -/
def Quiet (s : Mirror C) : Prop := ∀ c t, s.tasks c = some t → t.queue = []

end Mirror

/-! ## what a task has to read -/

inductive Waiting (t : MirrorTask) : Prop where
  | up (hf : t.fsm = .established) (hs : t.sid.isSome = true) (hq : t.queue = [])
  | rising (hf : t.fsm = .established) (hs : t.sid = none) (asn : Asn)
      (hq : t.queue = [.sessionNegotiated asn])
  | down (hf : t.fsm ≠ .established) (hs : t.sid = none) (hq : t.queue = [])
  | falling (hf : t.fsm ≠ .established) (n : Nat)
      (hq : t.queue = replicate (n + 1) .connectionLost)
  | missed (hf : t.fsm ≠ .established) (hs : t.sid = none) (asn : Asn) (n : Nat)
      (hq : t.queue = .sessionNegotiated asn :: replicate (n + 1) .connectionLost)

variable {t : MirrorTask}

lemma waiting_enter {asn : Asn} (hw : Waiting t) (hf : t.fsm ≠ .established)
    (hlost : .connectionLost ∉ t.queue) :
    Waiting { t with fsm := .established, queue := t.queue ++ [.sessionNegotiated asn] } := by
  cases hw with
  | up hf' | rising hf' => exact absurd hf' hf
  | down _ hs hq => exact .rising rfl hs asn (by simp [hq])
  | falling _ n hq | missed _ _ _ n hq =>
    rw [hq] at hlost
    simp at hlost

variable {st : FsmState}

lemma waiting_lost (hw : Waiting t) (hst : st ≠ .established) :
    Waiting { t with fsm := st, queue := t.queue ++ [.connectionLost] } := by
  cases hw with
  | up _ _ hq | down _ _ hq => exact .falling hst 0 (by simp [hq])
  | rising _ hs asn hq => exact .missed hst hs asn 0 (by simp [hq])
  | falling _ n hq => exact .falling hst (n + 1) (by simp [hq, ← replicate_succ'])
  | missed _ hs asn n hq =>
    exact .missed hst hs asn (n + 1) (by simp [hq, ← replicate_succ'])

/-- a tick that sends nothing stays on the same side of Established -/
lemma waiting_same (hw : Waiting t)
    (hst : st = .established ↔ t.fsm = .established) :
    Waiting { t with fsm := st, queue := t.queue ++ [] } := by
  have hne : t.fsm ≠ .established → st ≠ .established := fun h h' => h (hst.mp h')
  cases hw with
  | up hf hs hq => exact .up (hst.mpr hf) hs (by simp [hq])
  | rising hf hs asn hq => exact .rising (hst.mpr hf) hs asn (by simp [hq])
  | down hf hs hq => exact .down (hne hf) hs (by simp [hq])
  | falling hf n hq => exact .falling (hne hf) n (by simp [hq])
  | missed hf hs asn n hq => exact .missed (hne hf) hs asn n (by simp [hq])

lemma waiting_tick {msgs : List SessionMessage} (hw : Waiting t)
    (h : FsmTells t st msgs) : Waiting { t with fsm := st, queue := t.queue ++ msgs } := by
  unfold FsmTells at h
  by_cases hst : st = .established <;> by_cases hf : t.fsm = .established
  · rw [if_pos hst, if_pos hf] at h
    subst h
    exact waiting_same hw (iff_of_true hst hf)
  · rw [if_pos hst, if_neg hf] at h
    obtain ⟨⟨asn, rfl⟩, hlost⟩ := h
    subst hst
    exact waiting_enter hw hf hlost
  · rw [if_neg hst, if_pos hf] at h
    subst h
    exact waiting_lost hw hst
  · rw [if_neg hst, if_neg hf] at h
    rcases h with rfl | rfl
    · exact waiting_same hw (iff_of_false hst hf)
    · exact waiting_lost hw hst

variable {rest : List SessionMessage}

/-- a negotiation is read at most once, and by a session that has no id yet -/
lemma waiting_negotiated {asn : Asn} (sid : Nat)
    (hw : Waiting t) (hq : t.queue = .sessionNegotiated asn :: rest) :
    t.sid = none ∧ Waiting { t with sid := some sid, asn := asn, queue := rest } := by
  cases hw with
  | up _ _ hq' | down _ _ hq' => simp [hq] at hq'
  | rising hf hs asn' hq' =>
    rw [hq] at hq'
    cases hq'
    exact ⟨hs, .up hf rfl rfl⟩
  | falling _ n hq' => simp [hq, replicate_succ] at hq'
  | missed hf hs asn' n hq' =>
    rw [hq] at hq'
    cases hq'
    exact ⟨hs, .falling hf n rfl⟩

lemma waiting_connectionLost (hw : Waiting t)
    (hq : t.queue = .connectionLost :: rest) : t.fsm ≠ .established := by
  cases hw with
  | up _ _ hq' | rising _ _ _ hq' => simp [hq] at hq'
  | down hf | falling hf | missed hf => exact hf

lemma waiting_quiet (hw : Waiting t) (hq : t.queue = []) :
    t.fsm = .established ↔ t.sid.isSome = true := by
  cases hw with
  | up hf hs => exact iff_of_true hf hs
  | rising _ _ _ hq' | missed _ _ _ _ hq' => simp [hq] at hq'
  | down hf hs => exact iff_of_false hf (by simp [hs])
  | falling _ n hq' => simp [hq, replicate_succ] at hq'

/-! ## the invariant -/

/-- the registry and the map of live sessions at the address of a task -/
structure TaskOk (r : SessionRegistry) (live : Assoc PeerKey Nat) (t : MirrorTask) : Prop where
  held : ∃ cell, t.status = some cell ∧ r.inner.lookup t.addr = some cell
  up_iff : Up r t.addr ↔ t.fsm = .established
  waiting : Waiting t
  live_iff : ∀ asn sid, live.lookup (t.addr, asn) = some sid ↔ t.asn = asn ∧ t.sid = some sid

/-- the same at an address without a task -/
structure Down (r : SessionRegistry) (live : Assoc PeerKey Nat) (addr : IpAddr) : Prop where
  not_up : ¬ Up r addr
  not_live : ∀ asn, live.lookup (addr, asn) = none

namespace Mirror
variable {C : Type} [DecidableEq C]

structure Inv (s : Mirror C) : Prop where
  alone : ∀ c c' t t', s.tasks c = some t → s.tasks c' = some t' → t.addr = t'.addr → c = c'
  task : ∀ c t, s.tasks c = some t → TaskOk s.registry s.live t
  free : ∀ addr, s.Free addr → Down s.registry s.live addr

/-- the states do not differ at the address -/
structure AgreesAt (s s' : Mirror C) (addr : IpAddr) : Prop where
  view : s'.registry.view addr = s.registry.view addr
  lookup : s'.registry.inner.lookup addr = s.registry.inner.lookup addr
  live : ∀ asn, s'.live.lookup (addr, asn) = s.live.lookup (addr, asn)

variable {s s' : Mirror C} {c : C} {t : MirrorTask} {addr : IpAddr}

lemma AgreesAt.taskOk (h : AgreesAt s s' t.addr) (ht : TaskOk s.registry s.live t) :
    TaskOk s'.registry s'.live t where
  held := by
    rw [h.lookup]
    exact ht.held
  up_iff := (up_congr h.view).trans ht.up_iff
  waiting := ht.waiting
  live_iff asn sid := by
    rw [h.live]
    exact ht.live_iff asn sid

lemma AgreesAt.down (h : AgreesAt s s' addr) (hd : Down s.registry s.live addr) :
    Down s'.registry s'.live addr where
  not_up := fun hup => hd.not_up ((up_congr h.view).mp hup)
  not_live asn := by
    rw [h.live]
    exact hd.not_live asn

/-- a step of one task changes nothing at other addresses -/
lemma inv_put (addr : IpAddr) (c : C) {o : Option MirrorTask} (hs : s.Inv)
    (hagree : ∀ b, b ≠ addr → AgreesAt s s' b)
    (htasks : s'.tasks = update s.tasks c o)
    (hmine : ∀ c' t, s.tasks c' = some t → (t.addr = addr ↔ c' = c))
    (hsome : ∀ t, o = some t → t.addr = addr ∧ TaskOk s'.registry s'.live t)
    (hnone : o = none → Down s'.registry s'.live addr) : s'.Inv := by
  have hself : s'.tasks c = o := by
    rw [htasks]
    exact update_self ..
  have hother : ∀ c', c' ≠ c → s'.tasks c' = s.tasks c' := by
    intro c' hc'
    rw [htasks]
    exact update_of_ne hc' ..
  have hmine' : ∀ c' t, s'.tasks c' = some t → (t.addr = addr ↔ c' = c) := by
    intro c' t ht
    by_cases hc' : c' = c
    · subst hc'
      exact iff_of_true (hsome t (hself.symm.trans ht)).1 rfl
    · exact hmine c' t ((hother c' hc').symm.trans ht)
  refine ⟨?_, ?_, ?_⟩
  · intro c₁ c₂ t₁ t₂ h₁ h₂ heq
    by_cases hc₁ : c₁ = c
    · have haddr : t₂.addr = addr := heq.symm.trans ((hmine' c₁ t₁ h₁).mpr hc₁)
      exact hc₁.trans ((hmine' c₂ t₂ h₂).mp haddr).symm
    · have hc₂ : c₂ ≠ c := by
        intro hc₂
        exact hc₁ ((hmine' c₁ t₁ h₁).mp (heq.trans ((hmine' c₂ t₂ h₂).mpr hc₂)))
      rw [hother c₁ hc₁] at h₁
      rw [hother c₂ hc₂] at h₂
      exact hs.alone c₁ c₂ t₁ t₂ h₁ h₂ heq
  · intro c' t ht
    by_cases hc' : c' = c
    · subst hc'
      exact (hsome t (hself.symm.trans ht)).2
    · have hne : t.addr ≠ addr := fun h => hc' ((hmine' c' t ht).mp h)
      exact (hagree _ hne).taskOk (hs.task c' t ((hother c' hc').symm.trans ht))
  · intro b hb
    by_cases hba : b = addr
    · subst hba
      apply hnone
      cases ho : o with
      | none => rfl
      | some t => exact absurd (hsome t ho).1 (hb c t (hself.trans ho))
    · refine (hagree b hba).down (hs.free b ?_)
      intro c' t ht htb
      by_cases hc' : c' = c
      · exact hba (htb.symm.trans ((hmine c' t ht).mpr hc'))
      · exact hb c' t ((hother c' hc').trans ht) htb

/-! ## one step -/

lemma mine_of_task (hs : s.Inv) (ht : s.tasks c = some t) (c' : C) (t' : MirrorTask)
    (ht' : s.tasks c' = some t') : t'.addr = t.addr ↔ c' = c := by
  constructor
  · intro h
    exact hs.alone c' c t' t ht' ht h
  · intro h
    subst h
    rw [some.inj (ht'.symm.trans ht)]

lemma inv_connect {known : Bool} (hs : s.Inv) (hc : s.tasks c = none)
    (hok : s.Orderly (.connect c addr known st)) : (s.connect c addr known st).Inv := by
  obtain ⟨rfl, hst, hfree⟩ := hok
  have hdown := hs.free addr hfree
  refine inv_put addr c hs ?_ rfl ?_ ?_ ?_
  · intro b hb
    exact ⟨view_getOrCreate_of_ne hb, Shared.lookup_getOrCreate_of_ne hb, fun _ => rfl⟩
  · intro c' t ht
    refine iff_of_false (hfree c' t ht) ?_
    intro h
    subst h
    rw [hc] at ht
    cases ht
  · intro t ht
    cases ht
    refine ⟨rfl, ⟨_, rfl, Shared.lookup_getOrCreate⟩, ?_, .down hst rfl rfl, ?_⟩
    · exact iff_of_false (fun h => hdown.not_up (up_getOrCreate.mp h)) hst
    · intro asn sid
      have hnone : (s.connect c addr true st).live.lookup (addr, asn) = none := hdown.not_live asn
      rw [hnone]
      simp
  · intro h
    cases h

lemma writeStatus_eq {cell : Nat} {f : SessionStatus → SessionStatus}
    (h : t.status = some cell) :
    s.writeStatus t f = { s with registry := s.registry.write cell f } := by
  rw [writeStatus, h]

lemma inv_tick {now : Int} {msgs : List SessionMessage} (hs : s.Inv)
    (ht : s.tasks c = some t) (htells : FsmTells t st msgs) :
    ((s.writeStatus t (·.setState now st)).put c
      (some { t with fsm := st, queue := t.queue ++ msgs })).Inv := by
  have hok := hs.task c t ht
  obtain ⟨cell, hcell, hlookup⟩ := hok.held
  rw [writeStatus_eq hcell]
  refine inv_put t.addr c hs ?_ rfl (mine_of_task hs ht) ?_ ?_
  · intro b hb
    exact ⟨view_write_of_ne hlookup hb, rfl, fun _ => rfl⟩
  · intro t' ht'
    cases ht'
    exact ⟨rfl, ⟨cell, hcell, hlookup⟩, up_write_setState hlookup now st,
      waiting_tick hok.waiting htells, hok.live_iff⟩
  · intro h
    cases h

lemma inv_negotiate {asn : Asn} (hs : s.Inv)
    (ht : s.tasks c = some t) (hq : t.queue = .sessionNegotiated asn :: rest) :
    (s.negotiate c t asn rest).Inv := by
  have hok := hs.task c t ht
  obtain ⟨cell, hcell, hlookup⟩ := hok.held
  obtain ⟨hsid, hwaiting⟩ := waiting_negotiated s.sessionIdCounter hok.waiting hq
  have hlive : ∀ key : PeerKey, (s.negotiate c t asn rest).live.lookup key =
      if key = (t.addr, asn) then some s.sessionIdCounter else s.live.lookup key := by
    intro key
    show ((s.live.erase (t.addr, asn)).insert (t.addr, asn) s.sessionIdCounter).lookup key = _
    rw [Assoc.lookup_insert_eq, Assoc.lookup_erase_eq]
    split <;> rfl
  have hreg : (s.negotiate c t asn rest).registry = s.registry.write cell (·.setRemoteAsn asn) :=
    congrArg Mirror.registry (writeStatus_eq hcell)
  have hsame : (s.writeStatus t (·.setRemoteAsn asn)).tasks = s.tasks := by
    rw [writeStatus_eq hcell]
  have htasks : (s.negotiate c t asn rest).tasks = update s.tasks c
      (some { t with sid := some s.sessionIdCounter, asn := asn, queue := rest }) := by
    show update (s.writeStatus t _).tasks c _ = _
    rw [hsame]
  refine inv_put t.addr c hs ?_ htasks (mine_of_task hs ht) ?_ ?_
  · intro b hb
    refine ⟨?_, ?_, ?_⟩
    · rw [hreg]
      exact view_write_of_ne hlookup hb
    · rw [hreg]
      rfl
    · intro asn'
      rw [hlive, if_neg (by simp [hb])]
  · intro t' ht'
    cases ht'
    refine ⟨rfl, ⟨cell, hcell, ?_⟩, ?_, hwaiting, ?_⟩
    · rw [hreg]
      exact hlookup
    · rw [hreg]
      exact (up_write_setRemoteAsn asn).trans hok.up_iff
    · intro asn' sid
      rw [hlive]
      by_cases hasn : asn' = asn
      · subst hasn
        simp
      · rw [if_neg (by simp [hasn])]
        -- the session had no entry before
        have hno : ¬ s.live.lookup (t.addr, asn') = some sid := by
          intro h
          rw [hok.live_iff, hsid] at h
          cases h.2
        exact iff_of_false hno fun h => hasn h.1.symm
  · intro h
    cases h

lemma inv_finish (hs : s.Inv) (ht : s.tasks c = some t) (hf : t.fsm ≠ .established) :
    (s.finish c t).Inv := by
  have hok := hs.task c t ht
  have hnot_up : ¬ Up s.registry t.addr := fun h => hf (hok.up_iff.mp h)
  unfold finish
  split
  · rename_i h
    refine inv_put t.addr c hs ?_ rfl (mine_of_task hs ht) (by simp) ?_
    · intro b hb
      refine ⟨rfl, rfl, fun asn => ?_⟩
      show (s.live.erase (t.addr, t.asn)).lookup (b, asn) = _
      rw [Assoc.lookup_erase_eq, if_neg (by simp [hb])]
    · intro _
      refine ⟨hnot_up, fun asn => ?_⟩
      show (s.live.erase (t.addr, t.asn)).lookup (t.addr, asn) = none
      rw [Assoc.lookup_erase_eq]
      by_cases hasn : asn = t.asn
      · rw [if_pos (by rw [hasn])]
      · rw [if_neg (by simp [hasn])]
        cases hl : s.live.lookup (t.addr, asn) with
        | none => rfl
        | some sid => exact absurd ((hok.live_iff asn sid).mp hl).1.symm hasn
  · rename_i h
    -- a session without an entry of its own has never been negotiated
    have hsid : t.sid = none := by
      cases hsid : t.sid with
      | none => rfl
      | some sid =>
        have hl := (hok.live_iff t.asn sid).mpr ⟨rfl, hsid⟩
        exact absurd ⟨by rw [hsid]; rfl, hl.trans hsid.symm⟩ h
    refine inv_put t.addr c hs (fun b _ => ⟨rfl, rfl, fun _ => rfl⟩) rfl (mine_of_task hs ht)
      (by simp) ?_
    intro _
    refine ⟨hnot_up, fun asn => ?_⟩
    cases hl : s.live.lookup (t.addr, asn) with
    | none => exact hl
    | some sid =>
      have := ((hok.live_iff asn sid).mp hl).2
      rw [hsid] at this
      cases this

lemma inv_dialError {now : Int} (hs : s.Inv) (hfree : s.Free addr) :
    (s.dialError addr now).Inv := by
  have hl : (getOrCreate s.registry addr).2.inner.lookup addr =
      some (getOrCreate s.registry addr).1 := Shared.lookup_getOrCreate
  have hagree : ∀ b, b ≠ addr → AgreesAt s (s.dialError addr now) b := by
    intro b hb
    refine ⟨?_, Shared.lookup_getOrCreate_of_ne hb, fun _ => rfl⟩
    exact (view_write_of_ne hl hb).trans (view_getOrCreate_of_ne hb)
  refine ⟨hs.alone, ?_, ?_⟩
  · intro c t ht
    exact (hagree t.addr (hfree c t ht)).taskOk (hs.task c t ht)
  · intro b hb
    by_cases hba : b = addr
    · subst hba
      refine ⟨fun hup => ?_, (hs.free b hb).not_live⟩
      have hst := (up_write_setState hl now .active).mp hup
      cases hst
    · exact (hagree b hba).down (hs.free b hb)

lemma inv_publish {peers : PeerConfigs} (hs : s.Inv) (hok : s.Orderly (.publish peers)) :
    (s.step (.publish peers)).Inv := by
  refine ⟨hs.alone, ?_, ?_⟩
  · intro c t ht
    have htask := hs.task c t ht
    obtain ⟨cell, hcell, hlookup⟩ := htask.held
    have hkeep : t.addr ∈ peers.exactAddrs ∨ (s.registry.cells cell).state ≠ .idle :=
      (hok c t ht).imp_right fun h => h _ (Shared.view_of_lookup hlookup)
    exact ⟨⟨cell, hcell, lookup_publish hlookup hkeep⟩, (up_publish peers).trans htask.up_iff,
      htask.waiting, htask.live_iff⟩
  · intro b hb
    have hdown := hs.free b hb
    exact ⟨fun hup => hdown.not_up ((up_publish peers).mp hup), hdown.not_live⟩

lemma inv_receive (hs : s.Inv) (ht : s.tasks c = some t) : (s.receive c t).Inv := by
  unfold receive
  split
  · exact hs
  · rename_i asn rest hq
    exact inv_negotiate hs ht hq
  · rename_i rest hq
    exact inv_finish hs ht (waiting_connectionLost (hs.task c t ht).waiting hq)

lemma inv_mirror_step (hs : s.Inv) {e : MirrorEvent C} (hok : s.Orderly e) : (s.step e).Inv := by
  cases e with
  | connect c addr known st =>
    simp only [step]
    split
    · exact hs
    · rename_i hc
      exact inv_connect hs (not_isSome_iff_eq_none.mp hc) hok
  | tick c now st msgs =>
    simp only [step]
    split
    · rename_i t ht
      exact inv_tick hs ht (hok t ht)
    · exact hs
  | tickErr c | leave c =>
    simp only [step]
    split
    · rename_i t ht
      exact inv_finish hs ht (hok t ht)
    · exact hs
  | receive c =>
    simp only [step]
    split
    · rename_i t ht
      exact inv_receive hs ht
    · exact hs
  | dialError addr now => exact inv_dialError hs hok
  | publish peers => exact inv_publish hs hok

lemma inv_start : (start : Mirror C).Inv := by
  refine ⟨?_, ?_, ?_⟩
  · intro c c' t t' h
    cases h
  · intro c t h
    cases h
  · intro b _
    refine ⟨?_, fun _ => rfl⟩
    rintro ⟨s, hs, -⟩
    cases hs

/-! ## whole runs -/

lemma up_iff_live_of_quiet (hs : s.Inv) (hq : s.Quiet) (addr : IpAddr) :
    Up s.registry addr ↔ ∃ asn, (s.live.lookup (addr, asn)).isSome = true := by
  by_cases hfree : s.Free addr
  · have hdown := hs.free addr hfree
    exact iff_of_false hdown.not_up (by simp [hdown.not_live])
  · unfold Free at hfree
    push Not at hfree
    obtain ⟨c, t, ht, rfl⟩ := hfree
    have hok := hs.task c t ht
    rw [hok.up_iff, waiting_quiet hok.waiting (hq c t ht), isSome_iff_exists]
    constructor
    · rintro ⟨sid, hsid⟩
      exact ⟨t.asn, by rw [(hok.live_iff t.asn sid).mpr ⟨rfl, hsid⟩]; rfl⟩
    · rintro ⟨asn, hlive⟩
      obtain ⟨sid, hsid⟩ := isSome_iff_exists.mp hlive
      exact ⟨sid, ((hok.live_iff asn sid).mp hsid).2⟩

/-- **In an orderly run, whenever no task has a message to read, the registry says Established for
an address exactly if a session of that address is in the map of live sessions.** -/
theorem up_iff_live (es : List (MirrorEvent C)) (h : Run.Along step Orderly start es)
    (hq : (run step (start : Mirror C) es).Quiet) (addr : IpAddr) :
    Up (run step (start : Mirror C) es).registry addr ↔
      ∃ asn, ((run step (start : Mirror C) es).live.lookup (addr, asn)).isSome = true := by
  have hinv : (run step (start : Mirror C) es).Inv :=
    @Run.run_inv _ _ step Orderly Inv (fun s e hs hok => inv_mirror_step hs hok) _ inv_start es h
  exact up_iff_live_of_quiet hinv hq addr

/-- a session that is established -/
def establish (c : C) (addr : IpAddr) : List (MirrorEvent C) :=
  [.connect c addr true .openSent, .tick c 0 .established [.sessionNegotiated 65001], .receive c]

/-- an established session that loses its connection -/
theorem up_iff_live_lost :
    Up (run step (start : Mirror Bool) (establish true sampleAddr ++
        [.tick true 0 .idle [.connectionLost], .receive true])).registry sampleAddr ↔
      ∃ asn, ((run step (start : Mirror Bool) (establish true sampleAddr ++
        [.tick true 0 .idle [.connectionLost], .receive true])).live.lookup
          (sampleAddr, asn)).isSome = true := by
  apply up_iff_live
  · refine ⟨⟨rfl, by decide, ?_⟩, ?_, trivial, ?_, trivial, trivial⟩
    · intro c t ht
      cases ht
    · intro t ht
      cases ht
      exact ⟨⟨65001, rfl⟩, by decide⟩
    · intro t ht
      cases ht
      rfl
  · intro c t ht
    cases c <;> cases ht

/-- after an error of the FSM the registry says Established for a peer without a session, and a
second connection hides that the first session is established -/
theorem up_ne_live :
    ((run step (start : Mirror Bool) (establish true sampleAddr ++ [.tickErr true])).Quiet ∧
      Up (run step (start : Mirror Bool)
        (establish true sampleAddr ++ [.tickErr true])).registry sampleAddr ∧
      (run step (start : Mirror Bool)
        (establish true sampleAddr ++ [.tickErr true])).live = ∅) ∧
    (run step (start : Mirror Bool) (establish true sampleAddr ++
        [.connect false sampleAddr true .connect, .tick false 1 .openSent []])).Quiet ∧
      ¬ Up (run step (start : Mirror Bool) (establish true sampleAddr ++
        [.connect false sampleAddr true .connect, .tick false 1 .openSent []])).registry sampleAddr ∧
      ((run step (start : Mirror Bool) (establish true sampleAddr ++
        [.connect false sampleAddr true .connect, .tick false 1 .openSent []])).live.lookup
          (sampleAddr, 65001)).isSome = true := by
  refine ⟨⟨?_, ⟨_, rfl, rfl⟩, rfl⟩, ?_, ?_, rfl⟩
  · intro c t ht
    cases c <;> cases ht
  · intro c t ht
    cases c <;> cases ht <;> rfl
  · rintro ⟨s, hs, hst⟩
    cases hs
    cases hst

end Mirror

end Netom.BgpSession
