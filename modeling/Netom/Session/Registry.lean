import Netom.Lib.Shared
import Netom.Session.PeerConfig

/-!
# The session registry and the rosters of the units

One registry, keyed by peer address, serves all bgp-tcp-in units.  A unit publishes its exactly
configured peers when it starts and at every reconfiguration: all marks are cleared, the peers of
the unit are marked, and entries that are neither marked nor in use are forgotten.  Session tasks
and dialers hold the status of their peer by reference.

* `SessionStatus`, `SessionRegistry`  the statuses, and the operations on the map;
* `publishPeerRoster`  one publish;
* `marked_publish`  the marks after it are exactly the peers of that unit;
* `RosterEvent`, `Rosters.step`  the units, and the sessions that use the registry;
* `Rosters.Rostered`  every configured peer of every unit is marked, and no other address;
* `Rosters.Covers`  no unit configures a peer that the publishing one does not.
-/

namespace Netom.BgpSession

/-! ## statuses -/

inductive FsmState where
  | idle
  | connect
  | active
  | openSent
  | openConfirm
  | established
  deriving DecidableEq, Repr

namespace FsmState

def asU8 : FsmState → Nat
  | idle => 1
  | connect => 2
  | active => 3
  | openSent => 4
  | openConfirm => 5
  | established => 6

def fromU8 : Nat → FsmState
  | 2 => connect
  | 3 => active
  | 4 => openSent
  | 5 => openConfirm
  | 6 => established
  | _ => idle

@[simp] lemma fromU8_asU8 (s : FsmState) : fromU8 s.asU8 = s := by cases s <;> rfl

end FsmState

structure SessionStatus where
  fsm : Nat
  /-- when the session last came up, 0 if it never has -/
  establishedUnix : Int
  /-- 0 if it is not known -/
  remoteAsn : Asn
  connectMode : Bool
  configured : Bool
  name : Option String
  deriving DecidableEq, Repr

namespace SessionStatus

def default : SessionStatus := ⟨FsmState.idle.asU8, 0, 0, false, false, none⟩

def state (s : SessionStatus) : FsmState := .fromU8 s.fsm

/-- the time changes with the state only -/
def setState (now : Int) (st : FsmState) (s : SessionStatus) : SessionStatus :=
  if s.fsm = st.asU8 then s
  else
    { s with
      fsm := st.asU8
      establishedUnix := if st = .established then now else s.establishedUnix }

def setConfigured (on : Bool) (s : SessionStatus) : SessionStatus := { s with configured := on }

def setRemoteAsn (asn : Asn) (s : SessionStatus) : SessionStatus := { s with remoteAsn := asn }

@[simp] lemma state_setState (now : Int) (st : FsmState) (s : SessionStatus) :
    (s.setState now st).state = st := by
  unfold setState
  split
  · rename_i h
    rw [state, h, FsmState.fromU8_asU8]
  · exact FsmState.fromU8_asU8 st

@[simp] lemma configured_setState (now : Int) (st : FsmState) (s : SessionStatus) :
    (s.setState now st).configured = s.configured := by
  unfold setState
  split <;> rfl

/-- neither configured nor in use -/
def keep (s : SessionStatus) : Bool := s.configured || s.state != .idle

end SessionStatus

/-! ## the registry -/

abbrev SessionRegistry := Shared IpAddr SessionStatus

namespace SessionRegistry

def new : SessionRegistry := Shared.empty .default

/-- the cell of the peer's status, which the caller keeps -/
def getOrCreate (r : SessionRegistry) (peer : IpAddr) : Nat × SessionRegistry :=
  Shared.getOrCreate r peer .default

def clearConfiguredMarks (r : SessionRegistry) : SessionRegistry := r.mapAll (·.setConfigured false)

def forgetUnconfiguredIdle (r : SessionRegistry) : SessionRegistry := r.retain SessionStatus.keep

/-- the peer is in the registry, and marked as configured -/
def Marked (r : SessionRegistry) (peer : IpAddr) : Prop :=
  ∃ s, r.view peer = some s ∧ s.configured = true

end SessionRegistry

open SessionRegistry Option

/-- what `publish_peer_roster` writes for one peer -/
def configuredAs (cfg : PeerConfig) (s : SessionStatus) : SessionStatus :=
  { s with
    configured := true
    name := some cfg.name
    connectMode := cfg.connect
    remoteAsn := cfg.configuredAsn.getD s.remoteAsn }

def publishPeer (r : SessionRegistry) (e : IpAddr × PeerConfig) : SessionRegistry :=
  match getOrCreate r e.1 with
  | (c, r') => r'.write c (configuredAs e.2)

def publishPeerRoster (peers : PeerConfigs) (r : SessionRegistry) : SessionRegistry :=
  forgetUnconfiguredIdle (peers.exacts.foldl publishPeer (clearConfiguredMarks r))

/-! ## the marks after a publish -/

section marks
variable {r : SessionRegistry} {peer : IpAddr}

lemma view_publishPeer (e : IpAddr × PeerConfig) : (publishPeer r e).view peer =
    if peer = e.1 then some (configuredAs e.2 ((r.view e.1).getD .default)) else r.view peer := by
  show ((Shared.getOrCreate r e.1 .default).2.write (Shared.getOrCreate r e.1 .default).1
    (configuredAs e.2)).view peer = _
  rw [Shared.view_write_of_lookup Shared.lookup_getOrCreate]
  by_cases h : peer = e.1
  · rw [if_pos h, if_pos h, Shared.view_getOrCreate, if_pos rfl]
    rfl
  · rw [if_neg h, if_neg h, Shared.view_getOrCreate, if_neg h]

lemma marked_publishPeer (e : IpAddr × PeerConfig) :
    Marked (publishPeer r e) peer ↔ peer = e.1 ∨ Marked r peer := by
  unfold Marked
  rw [view_publishPeer]
  by_cases h : peer = e.1
  · simp [h, configuredAs]
  · simp [h]

lemma marked_foldl (es : List (IpAddr × PeerConfig)) :
    Marked (es.foldl publishPeer r) peer ↔ peer ∈ es.map (·.1) ∨ Marked r peer := by
  induction es generalizing r with
  | nil => simp
  | cons e es ih =>
    rw [List.foldl_cons, ih, marked_publishPeer, List.map_cons, List.mem_cons]
    tauto

lemma not_marked_clear : ¬ Marked (clearConfiguredMarks r) peer := by
  rintro ⟨s, hs, hc⟩
  rw [clearConfiguredMarks, Shared.view_mapAll] at hs
  obtain ⟨s', -, rfl⟩ := map_eq_some_iff.mp hs
  cases hc

lemma marked_forget : Marked (forgetUnconfiguredIdle r) peer ↔ Marked r peer := by
  unfold Marked
  rw [forgetUnconfiguredIdle, Shared.view_retain]
  constructor
  · rintro ⟨s, hs, hc⟩
    exact ⟨s, (filter_eq_some_iff.mp hs).1, hc⟩
  · rintro ⟨s, hs, hc⟩
    have hkeep : s.keep = true := by simp [SessionStatus.keep, hc]
    exact ⟨s, filter_eq_some_iff.mpr ⟨hs, hkeep⟩, hc⟩

/-- after a publish the marked addresses are those that the publishing unit configures -/
lemma marked_publish (peers : PeerConfigs) :
    Marked (publishPeerRoster peers r) peer ↔ peer ∈ peers.exactAddrs := by
  rw [publishPeerRoster, marked_forget, marked_foldl]
  exact or_iff_left not_marked_clear

lemma marked_getOrCreate (addr : IpAddr) : Marked (getOrCreate r addr).2 peer ↔ Marked r peer := by
  unfold Marked
  rw [getOrCreate, Shared.view_getOrCreate]
  by_cases h : peer = addr
  · subst h
    cases hv : r.view peer with
    | none => simp [SessionStatus.default]
    | some s => simp
  · simp [h]

lemma marked_write {f : SessionStatus → SessionStatus}
    (hf : ∀ s, (f s).configured = s.configured) (c : Nat) :
    Marked (r.write c f) peer ↔ Marked r peer := by
  unfold Marked
  rw [Shared.view_write]
  split
  · constructor
    · rintro ⟨s, hs, hc⟩
      obtain ⟨s', hs', rfl⟩ := map_eq_some_iff.mp hs
      exact ⟨s', hs', (hf s').symm.trans hc⟩
    · rintro ⟨s, hs, hc⟩
      exact ⟨f s, by rw [hs]; rfl, (hf s).trans hc⟩
  · rfl

end marks

/-! ## several units -/

/-- `last` is the configuration that each unit has published last -/
structure Rosters (U : Type) where
  registry : SessionRegistry
  last : U → Option PeerConfigs

inductive RosterEvent (U : Type) where
  /-- a unit starts, or takes a new configuration -/
  | publish (u : U) (peers : PeerConfigs)
  /-- a session or a dialer gets the status of its peer -/
  | connected (addr : IpAddr)
  /-- a session or a dialer records a state, in the map or not -/
  | mirrored (c : Nat) (now : Int) (st : FsmState)
  | negotiated (c : Nat) (asn : Asn)

namespace Rosters
variable {U : Type} [DecidableEq U]

def start : Rosters U := ⟨new, fun _ => none⟩

def step (s : Rosters U) : RosterEvent U → Rosters U
  | .publish u peers =>
    ⟨publishPeerRoster peers s.registry, Function.update s.last u (some peers)⟩
  | .connected addr => { s with registry := (getOrCreate s.registry addr).2 }
  | .mirrored c now st => { s with registry := s.registry.write c (·.setState now st) }
  | .negotiated c asn => { s with registry := s.registry.write c (·.setRemoteAsn asn) }

/-- some unit has published the address last -/
def Configures (s : Rosters U) (u : U) (addr : IpAddr) : Prop :=
  ∃ peers, s.last u = some peers ∧ addr ∈ peers.exactAddrs

def Rostered (s : Rosters U) : Prop :=
  (∀ u addr, s.Configures u addr → Marked s.registry addr) ∧
    ∀ addr, Marked s.registry addr → ∃ u, s.Configures u addr

/-- the publishing unit configures all that another unit configures -/
def Covers (s : Rosters U) : RosterEvent U → Prop
  | .publish u peers => ∀ v addr, v ≠ u → s.Configures v addr → addr ∈ peers.exactAddrs
  | _ => True

variable {s : Rosters U}

lemma rostered_publish_iff (u : U) (peers : PeerConfigs) :
    (s.step (.publish u peers)).Rostered ↔ s.Covers (.publish u peers) := by
  have hself : (s.step (.publish u peers)).last u = some peers := Function.update_self ..
  have hother : ∀ v, v ≠ u → (s.step (.publish u peers)).last v = s.last v :=
    fun v hv => Function.update_of_ne hv ..
  constructor
  · rintro ⟨hall, -⟩ v addr hv ⟨q, hq, haddr⟩
    exact (marked_publish peers).mp (hall v addr ⟨q, (hother v hv).trans hq, haddr⟩)
  · intro h
    refine ⟨?_, ?_⟩
    · rintro v addr ⟨q, hq, haddr⟩
      apply (marked_publish peers).mpr
      by_cases hv : v = u
      · subst hv
        rwa [some.inj (hself.symm.trans hq)]
      · exact h v addr hv ⟨q, (hother v hv).symm.trans hq, haddr⟩
    · intro addr hm
      exact ⟨u, peers, hself, (marked_publish peers).mp hm⟩

lemma rostered_step_iff (hs : s.Rostered) (e : RosterEvent U) :
    (s.step e).Rostered ↔ s.Covers e := by
  cases e with
  | publish u peers => exact rostered_publish_iff u peers
  | connected addr =>
    refine iff_of_true ?_ trivial
    exact ⟨fun u a h => (marked_getOrCreate addr).mpr (hs.1 u a h),
      fun a h => hs.2 a ((marked_getOrCreate addr).mp h)⟩
  | mirrored c now st =>
    refine iff_of_true ?_ trivial
    have hmark : ∀ a, Marked (s.registry.write c (·.setState now st)) a ↔ Marked s.registry a :=
      fun a => marked_write (fun s => s.configured_setState now st) c
    exact ⟨fun u a h => (hmark a).mpr (hs.1 u a h), fun a h => hs.2 a ((hmark a).mp h)⟩
  | negotiated c asn =>
    refine iff_of_true ?_ trivial
    have hmark : ∀ a, Marked (s.registry.write c (·.setRemoteAsn asn)) a ↔ Marked s.registry a :=
      fun a => marked_write (f := fun s => s.setRemoteAsn asn) (fun _ => rfl) c
    exact ⟨fun u a h => (hmark a).mpr (hs.1 u a h), fun a h => hs.2 a ((hmark a).mp h)⟩

/-- **The marks stay right throughout a run iff no unit publishes a roster that lacks a peer of
another unit.** -/
theorem rostered_iff_along (es : List (RosterEvent U)) :
    (∀ es', es' <+: es → (Run.run step start es').Rostered) ↔ Run.Along step Covers start es := by
  have hstart : (start : Rosters U).Rostered := by
    refine ⟨?_, ?_⟩
    · rintro u addr ⟨peers, hpeers, -⟩
      cases hpeers
    · rintro addr ⟨s, hs, -⟩
      cases hs
  exact @Run.along_iff _ _ step Covers Rostered (fun s e hs => rostered_step_iff hs e) _ hstart es

/-- two units with one peer each: the second to publish takes the mark of the first, and its entry -/
theorem not_rostered_second_unit :
    ¬ (Run.run step (start : Rosters Bool)
      [.publish false (onePeer (.exact sampleAddr) samplePeer),
        .publish true (onePeer (.exact (.v4 0x0a000002#32)) samplePeer)]).Rostered := by
  intro h
  obtain ⟨s, hs, -⟩ := h.1 false sampleAddr ⟨_, rfl, by decide⟩
  have hnone : (Run.run step (start : Rosters Bool)
      [.publish false (onePeer (.exact sampleAddr) samplePeer),
        .publish true (onePeer (.exact (.v4 0x0a000002#32)) samplePeer)]).registry.view sampleAddr =
      none := by decide +kernel
  rw [hnone] at hs
  cases hs

end Rosters

end Netom.BgpSession
