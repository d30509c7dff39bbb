import Netom.Session.Listener

/-!
# The configuration of a bgp-tcp-in unit and of its peers

A peer is configured under an exact address or under a prefix.  A connection gets the first entry
that matches its address; the map has the exact addresses before the prefixes.

* `PeerConfigs.get`, `PeerConfigs.getExact`  by address, and by the key of an entry;
* `PeerConfig.eq`, `BgpTcpIn.eq`  the equalities that the source writes by hand;
* `CombinedConfig`  what one session runs with;
* `PeerConfigs.exactAddrs`  the peers that have an address of their own.
-/

namespace Netom.BgpListener.PrefixOrExact

def isExact : PrefixOrExact → Bool
  | .exact _ => true
  | .net _ => false

def contains : PrefixOrExact → IpAddr → Bool
  | .exact a, addr => a == addr
  | .net p, addr => p.covers addr.hostPrefix

end Netom.BgpListener.PrefixOrExact

namespace Netom.BgpSession
open BgpListener (PrefixOrExact)

/-! ## peers -/

inductive OneOrManyAsns where
  /-- one of these, or any if there are none -/
  | many (asns : List Asn)
  | one (asn : Asn)
  deriving DecidableEq, Repr

structure PeerConfig where
  name : String
  remoteAsn : OneOrManyAsns
  holdTime : Option Nat
  md5Key : Option String
  protocols : List AfiSafiType
  addpath : List AfiSafiType
  extendedMessages : Bool
  connect : Bool
  remotePort : Nat
  sourceAddr : Option IpAddr
  connectRetrySecs : Nat
  deriving DecidableEq, Repr

namespace PeerConfig

/-- the peer's ASN where the configuration allows only one -/
def configuredAsn (c : PeerConfig) : Option Asn :=
  match c.remoteAsn with
  | .one asn => some asn
  | .many [asn] => some asn
  | .many _ => none

/-- `PartialEq`: the name, the protocols and the ADD-PATH families are not compared -/
def eq (c c' : PeerConfig) : Bool :=
  c.remoteAsn == c'.remoteAsn && c.holdTime == c'.holdTime && c.md5Key == c'.md5Key &&
    c.extendedMessages == c'.extendedMessages && c.connect == c'.connect &&
    c.remotePort == c'.remotePort && c.sourceAddr == c'.sourceAddr &&
    c.connectRetrySecs == c'.connectRetrySecs

/-- what a session takes from the configuration of its peer -/
structure Settings where
  remoteAsn : OneOrManyAsns
  holdTime : Option Nat
  md5Key : Option String
  protocols : List AfiSafiType
  addpath : List AfiSafiType
  extendedMessages : Bool
  deriving DecidableEq, Repr

def settings (c : PeerConfig) : Settings :=
  ⟨c.remoteAsn, c.holdTime, c.md5Key, c.protocols, c.addpath, c.extendedMessages⟩

lemma settings_eq_of_eq {c c' : PeerConfig} (h : c.eq c' = true)
    (hp : c.protocols = c'.protocols) (ha : c.addpath = c'.addpath) :
    c.settings = c'.settings := by
  simp only [eq, Bool.and_eq_true, beq_iff_eq] at h
  obtain ⟨⟨⟨⟨⟨⟨⟨hasn, hhold⟩, hmd5⟩, hext⟩, -⟩, -⟩, -⟩, -⟩ := h
  unfold settings
  rw [hasn, hhold, hmd5, hext, hp, ha]

end PeerConfig

/-! ## the peers of a unit -/

/-- the entries are in the order of the map, where an exact address comes before every prefix -/
structure PeerConfigs where
  map : Assoc PrefixOrExact PeerConfig
  exactFirst : map.entries.Pairwise fun e e' => e'.1.isExact = true → e.1.isExact = true

namespace PeerConfigs
variable {p : PeerConfigs} {addr : IpAddr}

def getExact (p : PeerConfigs) (key : PrefixOrExact) : Option PeerConfig := p.map.lookup key

def get (p : PeerConfigs) (addr : IpAddr) : Option (PrefixOrExact × PeerConfig) :=
  (p.map.entries.find? fun e => e.1.contains addr).map fun e => (e.1, e.2)

/-- the addresses that are configured exactly, with their entries -/
def exacts (p : PeerConfigs) : List (IpAddr × PeerConfig) :=
  p.map.entries.filterMap fun e =>
    match e.1 with
    | .exact addr => some (addr, e.2)
    | .net _ => none

def exactAddrs (p : PeerConfigs) : List IpAddr := p.exacts.map (·.1)

lemma get_spec {key : PrefixOrExact} {c : PeerConfig} (h : p.get addr = some (key, c)) :
    p.getExact key = some c ∧ key.contains addr = true := by
  obtain ⟨e, he, heq⟩ := Option.map_eq_some_iff.mp h
  cases heq
  have hk : e.1.contains addr = true := by simpa using List.find?_some he
  exact ⟨AList.mem_lookup_iff.mpr (List.mem_of_find?_eq_some he), hk⟩

lemma exists_get {key : PrefixOrExact} {c : PeerConfig} (h : p.getExact key = some c)
    (hk : key.contains addr = true) : ∃ hit, p.get addr = some hit := by
  have hmem : (⟨key, c⟩ : Sigma fun _ => PeerConfig) ∈ p.map.entries := AList.mem_lookup_iff.mp h
  cases hf : p.map.entries.find? fun e => e.1.contains addr with
  | none => exact absurd hk (List.find?_eq_none.mp hf _ hmem)
  | some e => exact ⟨(e.1, e.2), by rw [get, hf]; rfl⟩

lemma get_of_getExact_exact {c : PeerConfig} (h : p.getExact (.exact addr) = some c) :
    p.get addr = some (.exact addr, c) := by
  have hself : (PrefixOrExact.exact addr).contains addr = true := by simp [PrefixOrExact.contains]
  obtain ⟨⟨key, c'⟩, hget⟩ := exists_get h hself
  obtain ⟨hc', hk⟩ := get_spec hget
  cases key with
  | exact a =>
    have ha : a = addr := by simpa [PrefixOrExact.contains] using hk
    subst ha
    rw [hget, Option.some.inj (h.symm.trans hc')]
  | net q =>
    exfalso
    have hmem : (⟨.exact addr, c⟩ : Sigma fun _ => PeerConfig) ∈ p.map.entries :=
      AList.mem_lookup_iff.mp h
    obtain ⟨⟨key, c''⟩, he, heq⟩ := Option.map_eq_some_iff.mp hget
    obtain ⟨hkey, -⟩ := Prod.mk.inj heq
    obtain ⟨-, before, after, hsplit, hbefore⟩ := List.find?_eq_some_iff_append.mp he
    have hpw := p.exactFirst
    rw [hsplit] at hmem hpw
    rcases List.mem_append.mp hmem with hin | hin
    · have hno := hbefore _ hin
      rw [hself] at hno
      cases hno
    · rcases List.mem_cons.mp hin with hin | hin
      · cases hin
        cases hkey
      · have hexact := (List.pairwise_cons.mp (List.pairwise_append.mp hpw).2.1).1 _ hin rfl
        subst hkey
        cases hexact

end PeerConfigs

/-! ## the unit -/

structure BgpTcpIn where
  listen : String
  myAsn : Asn
  myBgpId : BgpId
  peerConfigs : PeerConfigs

/-- `PartialEq`: the part that all sessions of the unit depend on -/
def BgpTcpIn.eq (b b' : BgpTcpIn) : Bool :=
  b.listen == b'.listen && b.myAsn == b'.myAsn && b.myBgpId == b'.myBgpId

structure CombinedConfig where
  myAsn : Asn
  myBgpId : BgpId
  remotePrefixOrExact : PrefixOrExact
  peerConfig : PeerConfig

def CombinedConfig.new (b : BgpTcpIn) (peerConfig : PeerConfig) (key : PrefixOrExact) :
    CombinedConfig := ⟨b.myAsn, b.myBgpId, key, peerConfig⟩

/-! ## sample peers -/

def samplePeer : PeerConfig where
  name := "peer"
  remoteAsn := .one 65001
  holdTime := some 90
  md5Key := none
  protocols := [.ipv4Unicast]
  addpath := []
  extendedMessages := true
  connect := false
  remotePort := 179
  sourceAddr := none
  connectRetrySecs := 30

def sampleAddr : IpAddr := .v4 0x0a000001#32

def sampleNet : PrefixOrExact := .net (defaultRoute .v4)

def sampleUnit (peerConfigs : PeerConfigs) : BgpTcpIn := ⟨"0.0.0.0:179", 65000, 1, peerConfigs⟩

def onePeer (key : PrefixOrExact) (c : PeerConfig) : PeerConfigs :=
  ⟨AList.singleton key c, List.pairwise_singleton _ _⟩

end Netom.BgpSession
