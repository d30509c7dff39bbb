import Netom.Lib.Assoc
import Netom.Lib.Run
import Netom.Types

/-!
# The listener of a bgp-tcp-in unit and its TCP MD5 keys

The unit binds a listening socket, installs the keys of its configured peers there
(`configureListenerMd5`), and accepts connections until an accept fails or a new configuration has
another listen address; then it binds again.  A new configuration with the same listen address is
stored and nothing else happens.

* `configureMd5`  one key for one peer, as the socket takes or refuses it;
* `ListenerEvent`, `Listener.step`  the loop of `run`, with `process_until` inside;
* `KeysMatch`  the keys on the socket are those of the current configuration;
* `keysMatch_iff_along`  what every step has to meet for that.
-/

namespace Netom.BgpListener

/-! ## peers and keys -/

abbrev Key := List UInt8

inductive PrefixOrExact where
  | exact (addr : IpAddr)
  | net (p : Prefix)
  deriving DecidableEq, Repr

/-- the address and prefix length that the socket option is set for; without a prefix length it is
the whole address -/
def PrefixOrExact.target : PrefixOrExact → Prefix
  | .exact addr => addr.hostPrefix
  | .net p => p

structure PeerConfig where
  name : String
  md5Key : Option Key

/-- an empty key is no key -/
def PeerConfig.key (c : PeerConfig) : Option Key := c.md5Key.filter fun value => !value.isEmpty

structure BgpTcpIn where
  listen : String
  peerConfigs : Assoc PrefixOrExact PeerConfig

/-- the peers with a key, each as the entry that the socket should have for it -/
def BgpTcpIn.keyed (cfg : BgpTcpIn) : List (Prefix × Key) :=
  cfg.peerConfigs.entries.filterMap fun e => e.2.key.map fun key => (e.1.target, key)

/-! ## the socket -/

/-- what the kernel does: the family of a socket bound to a listen address, and whether it accepts a
key for a peer -/
structure Kernel where
  family : String → AddrFamily
  setsockopt : String → Prefix → Key → Bool

structure Socket where
  listen : String
  keys : Assoc Prefix Key

def tcpMd5sigMaxkeylen : Nat := 80

def familyError : AddrFamily → AddrFamily → Option String
  | .v4, .v6 => some "TCP listener is IPv4, cannot set TCP MD5 for IPv6 peer"
  | .v6, .v4 => some "TCP listener is IPv6, cannot set TCP MD5 for IPv4 peer"
  | _, _ => none

/-- `configure_md5_fd`: at most one key for each address and prefix length -/
def configureMd5 (kernel : Kernel) (s : Socket) (peer : Prefix) (key : Key) : Except String Socket :=
  match familyError (kernel.family s.listen) peer.family with
  | some text => .error text
  | none =>
    if tcpMd5sigMaxkeylen < key.length then .error "TCP MD5 key length exceeds 80 bytes"
    else if kernel.setsockopt s.listen peer key then .ok { s with keys := s.keys.insert peer key }
    else .error "os error"

/-- an error is logged, and the next peer follows -/
def installKey (kernel : Kernel) (s : Socket) (e : Prefix × Key) : Socket :=
  match configureMd5 kernel s e.1 e.2 with
  | .ok s' => s'
  | .error _ => s

def configureListenerMd5 (kernel : Kernel) (cfg : BgpTcpIn) (s : Socket) : Socket :=
  cfg.keyed.foldl (installKey kernel) s

/-! ## the loop -/

structure Listener where
  bgp : BgpTcpIn
  /-- the address that is bound, or is to be bound -/
  listenAddr : String
  socket : Option Socket

def Listener.start (cfg : BgpTcpIn) : Listener := ⟨cfg, cfg.listen, none⟩

inductive ListenerEvent where
  /-- the listen address cannot be bound; it is tried again later -/
  | bindError
  | bound
  | accepted (peer : IpAddr)
  | acceptError
  | reconfiguring (newUnit : BgpTcpIn)

/-- back to the head of the loop -/
def Listener.rebind (l : Listener) : Listener := { l with listenAddr := l.bgp.listen, socket := none }

def Listener.step (kernel : Kernel) (l : Listener) : ListenerEvent → Listener
  | .bindError => l
  | .bound =>
    match l.socket with
    | none => { l with socket := some (configureListenerMd5 kernel l.bgp ⟨l.listenAddr, ∅⟩) }
    | some _ => l
  | .accepted _ => l
  | .acceptError => if l.socket.isSome then l.rebind else l
  | .reconfiguring newUnit =>
    if l.bgp.listen ≠ newUnit.listen then Listener.rebind { l with bgp := newUnit }
    else { l with bgp := newUnit }

/-! ## which keys are on the socket -/

variable {kernel : Kernel}

/-- the socket that is bound to `listen` takes the key -/
def Accepts (kernel : Kernel) (listen : String) (peer : Prefix) (key : Key) : Prop :=
  kernel.family listen = peer.family ∧ key.length ≤ tcpMd5sigMaxkeylen ∧
    kernel.setsockopt listen peer key = true

instance decidableAccepts (listen : String) (peer : Prefix) (key : Key) :
    Decidable (Accepts kernel listen peer key) :=
  inferInstanceAs (Decidable (_ ∧ _ ∧ _))

lemma familyError_eq_none_iff {f f' : AddrFamily} : familyError f f' = none ↔ f = f' := by
  cases f <;> cases f' <;> decide

lemma configureMd5_of_accepts {s : Socket} {peer : Prefix} {key : Key}
    (h : Accepts kernel s.listen peer key) :
    configureMd5 kernel s peer key = .ok { s with keys := s.keys.insert peer key } := by
  obtain ⟨hf, hlen, hk⟩ := h
  unfold configureMd5
  rw [familyError_eq_none_iff.mpr hf]
  simp [Nat.not_lt.mpr hlen, hk]

lemma configureMd5_error {s : Socket} {peer : Prefix} {key : Key}
    (h : ¬ Accepts kernel s.listen peer key) : ∃ text, configureMd5 kernel s peer key = .error text := by
  unfold configureMd5
  cases hf : familyError (kernel.family s.listen) peer.family with
  | some text => exact ⟨text, rfl⟩
  | none =>
    have hfam := familyError_eq_none_iff.mp hf
    by_cases hlen : tcpMd5sigMaxkeylen < key.length
    · exact ⟨_, if_pos hlen⟩
    · have hk : ¬ kernel.setsockopt s.listen peer key = true :=
        fun hk => h ⟨hfam, Nat.le_of_not_lt hlen, hk⟩
      refine ⟨"os error", ?_⟩
      simp [hlen, hk]

lemma installKey_eq (s : Socket) (e : Prefix × Key) :
    installKey kernel s e =
      if Accepts kernel s.listen e.1 e.2 then { s with keys := s.keys.insert e.1 e.2 } else s := by
  unfold installKey
  by_cases h : Accepts kernel s.listen e.1 e.2
  · rw [configureMd5_of_accepts h, if_pos h]
  · obtain ⟨text, ht⟩ := configureMd5_error h
    rw [ht, if_neg h]

/-- what is on the socket after all keys: nothing that was refused, and one key for each entry -/
lemma lookup_foldl_installKey (es : List (Prefix × Key)) (s : Socket) (peer : Prefix) (key : Key) :
    (es.foldl (installKey kernel) s).keys.lookup peer = some key →
      (peer, key) ∈ es ∧ Accepts kernel s.listen peer key ∨ s.keys.lookup peer = some key := by
  induction es generalizing s with
  | nil => exact .inr
  | cons e es ih =>
    intro h
    have hl : (installKey kernel s e).listen = s.listen := by
      rw [installKey_eq]
      split <;> rfl
    rcases ih (installKey kernel s e) h with ⟨hm, ha⟩ | hs
    · rw [hl] at ha
      exact .inl ⟨List.mem_cons_of_mem e hm, ha⟩
    · rw [installKey_eq] at hs
      split at hs
      · next ha =>
        rw [Assoc.lookup_insert_eq] at hs
        split at hs
        · next heq =>
          cases hs
          subst heq
          exact .inl ⟨List.mem_cons_self, ha⟩
        · exact .inr hs
      · exact .inr hs

/-- an accepted entry stays, as long as no other key comes for it -/
lemma lookup_foldl_of_mem {es : List (Prefix × Key)} {s : Socket} {peer : Prefix} {key : Key}
    (hone : ∀ key', (peer, key') ∈ es → key' = key)
    (h : (peer, key) ∈ es ∧ Accepts kernel s.listen peer key ∨ s.keys.lookup peer = some key) :
    (es.foldl (installKey kernel) s).keys.lookup peer = some key := by
  induction es generalizing s with
  | nil =>
    rcases h with ⟨hm, -⟩ | h
    · cases hm
    · exact h
  | cons e es ih =>
    have hl : (installKey kernel s e).listen = s.listen := by
      rw [installKey_eq]
      split <;> rfl
    apply ih fun key' hm => hone key' (List.mem_cons_of_mem e hm)
    rw [hl]
    -- the head is an entry for this peer, then with this key, or leaves the peer alone
    by_cases he : e.1 = peer
    · have hek : e.2 = key := hone e.2 (he ▸ List.mem_cons_self)
      by_cases ha : Accepts kernel s.listen e.1 e.2
      · right
        rw [installKey_eq, if_pos ha, Assoc.lookup_insert_eq, if_pos he.symm, hek]
      · rcases h with ⟨-, ha'⟩ | h
        · rw [he, hek] at ha
          exact absurd ha' ha
        · right
          rw [installKey_eq, if_neg ha]
          exact h
    · rcases h with ⟨hm, ha⟩ | h
      · left
        rcases List.mem_cons.mp hm with heq | hm
        · exact absurd (congrArg Prod.fst heq).symm he
        · exact ⟨hm, ha⟩
      · right
        rw [installKey_eq]
        split
        · rw [Assoc.lookup_insert_eq, if_neg fun h => he h.symm]
          exact h
        · exact h

/-- the socket takes every key of the configuration, and no two peers that are one for the socket
have different keys -/
def Installable (kernel : Kernel) (cfg : BgpTcpIn) (listen : String) : Prop :=
  ∀ e ∈ cfg.keyed, Accepts kernel listen e.1 e.2 ∧ ∀ e' ∈ cfg.keyed, e'.1 = e.1 → e'.2 = e.2

/-- the socket has an entry for every peer with a key, and no others -/
def HasKeys (s : Socket) (cfg : BgpTcpIn) : Prop :=
  ∀ peer key, s.keys.lookup peer = some key ↔ (peer, key) ∈ cfg.keyed

lemma hasKeys_configure_iff (cfg : BgpTcpIn) (listen : String) :
    HasKeys (configureListenerMd5 kernel cfg ⟨listen, ∅⟩) cfg ↔ Installable kernel cfg listen := by
  constructor
  · intro h e hm
    have hl := (h e.1 e.2).mpr hm
    refine ⟨?_, ?_⟩
    · rcases lookup_foldl_installKey _ _ _ _ hl with ⟨-, ha⟩ | hs
      · exact ha
      · cases hs
    · intro e' hm' heq
      have hl' := (h e'.1 e'.2).mpr hm'
      rw [heq, hl] at hl'
      exact (Option.some.inj hl').symm
  · intro h peer key
    constructor
    · intro hl
      rcases lookup_foldl_installKey _ _ _ _ hl with ⟨hm, -⟩ | hs
      · exact hm
      · cases hs
    · intro hm
      obtain ⟨ha, hone⟩ := h (peer, key) hm
      exact lookup_foldl_of_mem (fun key' hm' => hone (peer, key') hm' rfl) (.inl ⟨hm, ha⟩)

/-! ## whole runs -/

variable {l : Listener}

/-- wherever the unit can accept a connection, the keys of the current configuration are installed -/
def KeysMatch (l : Listener) : Prop := ∀ s ∈ l.socket, HasKeys s l.bgp

/-- a bound socket takes the keys, and a new configuration with the same listen address has the same
keys -/
def Kept (kernel : Kernel) (l : Listener) : ListenerEvent → Prop
  | .bound => l.socket = none → Installable kernel l.bgp l.listenAddr
  | .reconfiguring newUnit =>
    l.socket.isSome = true → l.bgp.listen = newUnit.listen →
      ∀ e, e ∈ newUnit.keyed ↔ e ∈ l.bgp.keyed
  | _ => True

lemma keysMatch_rebind : KeysMatch l.rebind := by
  intro s hs
  cases hs

lemma keysMatch_step_iff (h : KeysMatch l) (e : ListenerEvent) :
    KeysMatch (l.step kernel e) ↔ Kept kernel l e := by
  cases e with
  | bindError | accepted _ => exact ⟨fun _ => trivial, fun _ => h⟩
  | acceptError =>
    refine ⟨fun _ => trivial, fun _ => ?_⟩
    show KeysMatch (if l.socket.isSome then l.rebind else l)
    split
    · exact keysMatch_rebind
    · exact h
  | bound =>
    cases hs : l.socket with
    | none =>
      have hstep : l.step kernel .bound =
          { l with socket := some (configureListenerMd5 kernel l.bgp ⟨l.listenAddr, ∅⟩) } := by
        simp only [Listener.step, hs]
      rw [hstep]
      constructor
      · intro hk _
        exact (hasKeys_configure_iff l.bgp l.listenAddr).mp (hk _ rfl)
      · intro hk s' hs'
        cases hs'
        exact (hasKeys_configure_iff l.bgp l.listenAddr).mpr (hk hs)
    | some s =>
      have hstep : l.step kernel .bound = l := by simp only [Listener.step, hs]
      rw [hstep]
      refine ⟨fun _ hn => ?_, fun _ => h⟩
      rw [hs] at hn
      cases hn
  | reconfiguring newUnit =>
    by_cases hlisten : l.bgp.listen = newUnit.listen
    · have hstep : l.step kernel (.reconfiguring newUnit) = { l with bgp := newUnit } := by
        simp only [Listener.step, ne_eq, hlisten, not_true_eq_false, if_false]
      rw [hstep]
      constructor
      · intro hk hsome _ e
        obtain ⟨s, hs⟩ := Option.isSome_iff_exists.mp hsome
        have hnew : s.keys.lookup e.1 = some e.2 ↔ e ∈ newUnit.keyed := hk s hs e.1 e.2
        have hold : s.keys.lookup e.1 = some e.2 ↔ e ∈ l.bgp.keyed := h s hs e.1 e.2
        exact hnew.symm.trans hold
      · intro hk s hs peer key
        have hsome : l.socket.isSome = true := Option.isSome_iff_exists.mpr ⟨s, hs⟩
        exact (h s hs peer key).trans (hk hsome hlisten (peer, key)).symm
    · have hstep : l.step kernel (.reconfiguring newUnit) =
          Listener.rebind { l with bgp := newUnit } := if_pos hlisten
      rw [hstep]
      exact ⟨fun _ _ heq => absurd heq hlisten, fun _ => keysMatch_rebind⟩

/-- **in every run, the keys on the listening socket are those of the current configuration at every
point iff each bound socket takes the keys and each new configuration that keeps the listen address
keeps the keys** -/
theorem keysMatch_iff_along (kernel : Kernel) (cfg : BgpTcpIn) (es : List ListenerEvent) :
    (∀ es', es' <+: es → KeysMatch (Run.run (Listener.step kernel) (Listener.start cfg) es')) ↔
      Run.Along (Listener.step kernel) (Kept kernel) (Listener.start cfg) es := by
  have hstart : KeysMatch (Listener.start cfg) := by
    intro s hs
    cases hs
  exact Run.along_iff (fun l e (h : KeysMatch l) => keysMatch_step_iff h e) hstart es

/-! ## a key that is changed -/

def peer : PrefixOrExact := .exact (.v4 0xC0000201#32)

def withKey (key : Key) : BgpTcpIn := ⟨"0.0.0.0:179", AList.singleton peer ⟨"peer", some key⟩⟩

/-- the kernel takes every key -/
def lenient : Kernel := ⟨fun _ => .v4, fun _ _ _ => true⟩

/-- the key of a peer is changed while the unit listens: the old one stays on the socket -/
theorem changedKey_not_installed :
    let l := Run.run (Listener.step lenient) (Listener.start (withKey [1]))
      [.bound, .reconfiguring (withKey [2])]
    ∃ s, l.socket = some s ∧ s.keys.lookup peer.target = some [1] ∧
      l.bgp.keyed = [(peer.target, [2])] := by
  refine ⟨_, rfl, ?_, ?_⟩ <;> decide +kernel

end Netom.BgpListener
