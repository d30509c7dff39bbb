import Netom.Session.PeerConfig

/-!
# Native sessions and the reconfigurations of their unit

The unit stores each new configuration, and the gate hands a copy to every session task.  A session
compares it with the configuration that it was started with: another listen address, AS number or
BGP identifier ends it, a changed or a removed entry under its own key makes it disconnect.  It
looks neither at the entries under other keys nor at what the equality of `PeerConfig` leaves out.

* `SessionTask.react`  what a session does with a new configuration;
* `UnitEvent`, `UnitState.step`  connections, reconfigurations and their way to the sessions;
* `Follows`  a session runs with what the configuration has for its address;
* `Noticed`  the new configuration differs only in what the comparison sees.
-/

namespace Netom.BgpSession
open BgpListener (PrefixOrExact)

/-! ## one session -/

inductive DisconnectReason where
  | reconfiguration
  | deconfigured
  deriving DecidableEq, Repr

structure SessionTask where
  addr : IpAddr
  /-- the configuration of the unit when the session was started; it is never replaced -/
  unitCfg : BgpTcpIn
  key : PrefixOrExact
  peerConfig : PeerConfig
  /-- the new configurations that wait in the gate -/
  inbox : List BgpTcpIn
  /-- started from a configuration that was not the current one, and told of none since -/
  behind : Bool
  told : Bool
  own : unitCfg.peerConfigs.getExact key = some peerConfig
  key_contains : key.contains addr = true

namespace SessionTask
variable {t : SessionTask} {newUnit : BgpTcpIn}

def config (t : SessionTask) : CombinedConfig := .new t.unitCfg t.peerConfig t.key

inductive Reaction where
  | noop
  | disconnect (reason : DisconnectReason)
  | finish (reason : DisconnectReason)
  | missing
  deriving DecidableEq, Repr

/-- the `Reconfiguring` branch of `process` -/
def react (t : SessionTask) (newUnit : BgpTcpIn) : Reaction :=
  if !newUnit.eq t.unitCfg then .finish .reconfiguration
  else
    match newUnit.peerConfigs.getExact t.key with
    | some newPeerConfig =>
      match t.unitCfg.peerConfigs.getExact t.key with
      | some current => if !newPeerConfig.eq current then .disconnect .reconfiguration else .noop
      | none => .missing
    | none => .finish .deconfigured

/-- the next new configuration; a session that leaves the loop is gone -/
def hear (t : SessionTask) : Option SessionTask :=
  match t.inbox with
  | [] => some t
  | newUnit :: rest =>
    match t.react newUnit with
    | .noop => some { t with inbox := rest, behind := false }
    | .disconnect _ => some { t with inbox := rest, behind := false, told := true }
    | .finish _ | .missing => none

/-- the session has the settings that `get` finds for its address, and the unit's own numbers -/
def Follows (t : SessionTask) (b : BgpTcpIn) : Prop :=
  (b.peerConfigs.get t.addr).map (fun hit => hit.2.settings) = some t.config.peerConfig.settings ∧
    t.config.myAsn = b.myAsn ∧ t.config.myBgpId = b.myBgpId

instance : Decidable (t.Follows newUnit) := inferInstanceAs (Decidable (_ ∧ _ ∧ _))

/-- the session has taken every new configuration and is not about to disconnect -/
def Settled (t : SessionTask) : Prop := t.inbox = [] ∧ t.behind = false ∧ t.told = false

instance : Decidable t.Settled := decidable_of_iff
  (t.inbox.isEmpty = true ∧ t.behind = false ∧ t.told = false) (by simp [Settled])

/-- the first entry that matches the session's address is still the one that it was started with,
and its protocols and ADD-PATH families do not change without a setting that is compared -/
def Noticed (t : SessionTask) (newUnit : BgpTcpIn) : Prop :=
  (∀ hit, newUnit.peerConfigs.get t.addr = some hit → hit.1 = t.key) ∧
  ∀ c, newUnit.peerConfigs.getExact t.key = some c → c.eq t.peerConfig = true →
    c.protocols = t.peerConfig.protocols ∧ c.addpath = t.peerConfig.addpath

lemma react_eq_noop_iff : t.react newUnit = .noop ↔
    newUnit.eq t.unitCfg = true ∧
      ∃ c, newUnit.peerConfigs.getExact t.key = some c ∧ c.eq t.peerConfig = true := by
  unfold react
  rw [t.own]
  cases newUnit.eq t.unitCfg with
  | false => simp
  | true =>
    cases newUnit.peerConfigs.getExact t.key with
    | none => simp
    | some c => cases hc : c.eq t.peerConfig <;> simp [hc]

lemma follows_of_noop (h : t.react newUnit = .noop) (hn : t.Noticed newUnit) :
    t.Follows newUnit := by
  obtain ⟨hunit, c, hc, heq⟩ := react_eq_noop_iff.mp h
  simp only [BgpTcpIn.eq, Bool.and_eq_true, beq_iff_eq] at hunit
  obtain ⟨⟨-, hasn⟩, hid⟩ := hunit
  obtain ⟨hfirst, hsame⟩ := hn
  obtain ⟨⟨key, c'⟩, hget⟩ := PeerConfigs.exists_get hc t.key_contains
  have hkey : key = t.key := hfirst _ hget
  subst hkey
  have hcc' : c' = c := Option.some.inj ((PeerConfigs.get_spec hget).1.symm.trans hc)
  subst hcc'
  obtain ⟨hprotocols, haddpath⟩ := hsame _ hc heq
  refine ⟨?_, hasn.symm, hid.symm⟩
  rw [hget]
  exact congrArg some (PeerConfig.settings_eq_of_eq heq hprotocols haddpath)

end SessionTask

/-! ## the unit -/

/-- `past` are the configurations before `bgp`, the latest first -/
structure UnitState (C : Type) where
  bgp : BgpTcpIn
  past : List BgpTcpIn
  sessions : C → Option SessionTask

inductive UnitEvent (C : Type) where
  | accepted (c : C) (addr : IpAddr)
  /-- a dialed peer answers; the dialer has loaded the configuration `age` reconfigurations ago -/
  | dialed (c : C) (age : Nat) (addr : IpAddr)
  | reconfiguring (newUnit : BgpTcpIn)
  /-- the task takes the next configuration from its gate -/
  | hear (c : C)
  | ended (c : C)

namespace UnitState
variable {C : Type} [DecidableEq C]

def start (b : BgpTcpIn) : UnitState C := ⟨b, [], fun _ => none⟩

def put (u : UnitState C) (c : C) (t : Option SessionTask) : UnitState C :=
  { u with sessions := Function.update u.sessions c t }

def loaded (u : UnitState C) (age : Nat) : Option BgpTcpIn := (u.bgp :: u.past)[age]?

/-- `spawn_session` for an accepted connection -/
def accept (u : UnitState C) (c : C) (addr : IpAddr) : UnitState C :=
  match h : u.bgp.peerConfigs.get addr with
  | some (key, cfg) =>
    u.put c (some ⟨addr, u.bgp, key, cfg, [], false, false, (PeerConfigs.get_spec h).1,
      (PeerConfigs.get_spec h).2⟩)
  | none => u

/-- `spawn_session` in `connect_loop`, with the configuration loaded before the dial -/
def dialed (u : UnitState C) (c : C) (addr : IpAddr) (b : BgpTcpIn) (behind : Bool) : UnitState C :=
  match h : b.peerConfigs.getExact (.exact addr) with
  | some cfg =>
    if cfg.connect then
      u.put c (some ⟨addr, b, .exact addr, cfg, [], behind, false, h, beq_self_eq_true addr⟩)
    else u
  | none => u

def tell (newUnit : BgpTcpIn) (t : SessionTask) : SessionTask :=
  { t with inbox := t.inbox ++ [newUnit] }

def step (u : UnitState C) : UnitEvent C → UnitState C
  | .accepted c addr => if (u.sessions c).isSome then u else u.accept c addr
  | .dialed c age addr =>
    match u.loaded age with
    | some b => if (u.sessions c).isSome then u else u.dialed c addr b (age != 0)
    | none => u
  | .reconfiguring newUnit =>
    ⟨newUnit, u.bgp :: u.past, fun c => (u.sessions c).map (tell newUnit)⟩
  | .hear c => u.put c ((u.sessions c).bind SessionTask.hear)
  | .ended c => u.put c none

/-- the last configuration in the gate of a session is one whose changes it notices -/
def Notices (u : UnitState C) : UnitEvent C → Prop
  | .hear c => ∀ t newUnit, u.sessions c = some t → t.inbox = [newUnit] → t.Noticed newUnit
  | _ => True

/-! ## one step -/

/-- the current configuration is the last one in the gate, and a settled session follows it -/
def UpToDate (b : BgpTcpIn) (t : SessionTask) : Prop :=
  (t.inbox ≠ [] → t.inbox.getLast? = some b) ∧ (t.Settled → t.Follows b)

def Inv (u : UnitState C) : Prop := ∀ c t, u.sessions c = some t → UpToDate u.bgp t

variable {u : UnitState C} {c : C} {addr : IpAddr}

lemma inv_put {o : Option SessionTask} (hu : u.Inv)
    (ho : ∀ t, o = some t → UpToDate u.bgp t) : (u.put c o).Inv := by
  intro c' t ht
  by_cases hc : c' = c
  · subst hc
    exact ho t (by simpa [put] using ht)
  · exact hu c' t (by simpa [put, hc] using ht)

lemma inv_accept (hu : u.Inv) : (u.accept c addr).Inv := by
  unfold accept
  split
  · rename_i key cfg h
    apply inv_put hu
    intro t ht
    cases ht
    have hget : (u.bgp.peerConfigs.get addr).map (fun hit => hit.2.settings) = some cfg.settings :=
      congrArg (Option.map fun hit => hit.2.settings) h
    exact ⟨fun hne => absurd rfl hne, fun _ => ⟨hget, rfl, rfl⟩⟩
  · exact hu

lemma inv_dialed {age : Nat} {b : BgpTcpIn} (hu : u.Inv) (hb : u.loaded age = some b) :
    (u.dialed c addr b (age != 0)).Inv := by
  unfold dialed
  split
  · rename_i cfg h
    split
    · apply inv_put hu
      intro t ht
      cases ht
      refine ⟨fun hne => absurd rfl hne, fun hs => ?_⟩
      -- a session that is not behind has been started from the current configuration
      have hage : age = 0 := by simpa using hs.2.1
      subst hage
      have hbgp : u.bgp = b := Option.some.inj hb
      subst hbgp
      refine ⟨?_, rfl, rfl⟩
      rw [PeerConfigs.get_of_getExact_exact h]
      rfl
    · exact hu
  · exact hu

lemma upToDate_tell (newUnit : BgpTcpIn) (t : SessionTask) :
    UpToDate newUnit (tell newUnit t) := by
  refine ⟨fun _ => by simp [tell], fun hs => ?_⟩
  have hempty : t.inbox ++ [newUnit] = [] := hs.1
  simp at hempty

lemma upToDate_hear {b : BgpTcpIn} {t t' : SessionTask} (ht : UpToDate b t)
    (hn : ∀ newUnit, t.inbox = [newUnit] → t.Noticed newUnit) (h : t.hear = some t') :
    UpToDate b t' := by
  unfold SessionTask.hear at h
  split at h
  · cases h
    exact ht
  · rename_i newUnit rest hin
    have hlast := ht.1 (by rw [hin]; exact List.cons_ne_nil _ _)
    rw [hin] at hlast
    have hrest : rest ≠ [] → rest.getLast? = some b := by
      intro hne
      rwa [List.getLast?_cons_of_ne_nil hne] at hlast
    split at h
    · rename_i hnoop
      cases h
      refine ⟨hrest, fun hs => ?_⟩
      have hnil : rest = [] := hs.1
      subst hnil
      have hb : newUnit = b := Option.some.inj hlast
      subst hb
      exact SessionTask.follows_of_noop hnoop (hn _ hin)
    · cases h
      exact ⟨hrest, fun hs => absurd hs.2.2 Bool.noConfusion⟩
    · cases h
    · cases h

lemma inv_step {e : UnitEvent C} (hu : u.Inv) (hok : u.Notices e) : (u.step e).Inv := by
  cases e with
  | accepted c addr =>
    simp only [step]
    split
    · exact hu
    · exact inv_accept hu
  | dialed c age addr =>
    simp only [step]
    split
    · rename_i b hb
      split
      · exact hu
      · exact inv_dialed hu hb
    · exact hu
  | reconfiguring newUnit =>
    intro c t ht
    obtain ⟨t', -, rfl⟩ := Option.map_eq_some_iff.mp ht
    exact upToDate_tell newUnit t'
  | hear c =>
    apply inv_put hu
    intro t' ht'
    obtain ⟨t, ht, hhear⟩ := Option.bind_eq_some_iff.mp ht'
    exact upToDate_hear (hu c t ht) (fun newUnit hin => hok t newUnit ht hin) hhear
  | ended c =>
    apply inv_put hu
    intro t ht
    cases ht

/-! ## whole runs -/

/-- **If every session notices the changes for its address, then each session that has taken all
new configurations and was not told to disconnect runs with the current one.** -/
theorem settled_follows (b : BgpTcpIn) (es : List (UnitEvent C))
    (h : Run.Along step Notices (start b) es) (c : C) (t : SessionTask)
    (ht : (Run.run step (start b) es).sessions c = some t) (hs : t.Settled) :
    t.Follows (Run.run step (start b) es).bgp := by
  have hstart : (start b : UnitState C).Inv := by
    intro c t ht
    cases ht
  exact (Run.run_inv (fun u e hu hok => inv_step hu hok) hstart h c t ht).2 hs

end UnitState

/-! ## two sessions -/

section sample

def exactAndNet (c c' : PeerConfig) : PeerConfigs :=
  ⟨⟨[⟨.exact sampleAddr, c⟩, ⟨sampleNet, c'⟩], by simp [List.NodupKeys, List.keys, sampleNet]⟩,
    by simp [PrefixOrExact.isExact]⟩

/-- one session of the peer, which takes the new configuration -/
def reconfigured (new : PeerConfigs) : List (UnitEvent Unit) :=
  [.accepted () sampleAddr, .reconfiguring (sampleUnit new), .hear ()]

namespace UnitState

/-- a session keeps the protocols that it was started with, and the entry of a prefix where the
address has an entry of its own by now -/
theorem settled_not_follows :
    (∃ t, (Run.run step (start (sampleUnit (onePeer (.exact sampleAddr) samplePeer)))
        (reconfigured (onePeer (.exact sampleAddr)
          { samplePeer with protocols := [.ipv4Unicast, .ipv4FlowSpec] }))).sessions () = some t ∧
      t.Settled ∧ ¬ t.Follows (sampleUnit (onePeer (.exact sampleAddr)
          { samplePeer with protocols := [.ipv4Unicast, .ipv4FlowSpec] }))) ∧
    ∃ t, (Run.run step (start (sampleUnit (onePeer sampleNet samplePeer)))
        (reconfigured (exactAndNet { samplePeer with holdTime := some 30 } samplePeer))).sessions ()
          = some t ∧
      t.Settled ∧
      ¬ t.Follows (sampleUnit (exactAndNet { samplePeer with holdTime := some 30 } samplePeer)) := by
  exact ⟨⟨_, rfl, by decide +kernel, by decide +kernel⟩, ⟨_, rfl, by decide +kernel, by decide +kernel⟩⟩

/-- another name for the peer is nothing that a session has to notice -/
theorem settled_follows_renamed :
    ∃ t, (Run.run step (start (sampleUnit (onePeer (.exact sampleAddr) samplePeer)))
        (reconfigured (onePeer (.exact sampleAddr)
          { samplePeer with name := "other" }))).sessions () = some t ∧ t.Settled ∧
      t.Follows (sampleUnit (onePeer (.exact sampleAddr) { samplePeer with name := "other" })) := by
  refine ⟨_, rfl, by decide +kernel, ?_⟩
  apply settled_follows (sampleUnit (onePeer (.exact sampleAddr) samplePeer))
    (reconfigured (onePeer (.exact sampleAddr) { samplePeer with name := "other" })) ?_ () _ rfl
  · decide +kernel
  refine ⟨trivial, trivial, ?_, trivial⟩
  intro t newUnit ht hin
  cases ht
  cases hin
  refine ⟨?_, ?_⟩
  · intro hit hhit
    cases hhit
    rfl
  · intro c hc heq
    cases hc
    exact ⟨rfl, rfl⟩

end UnitState

end sample

end Netom.BgpSession
