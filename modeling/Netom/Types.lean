import Netom.Lib.Comparator

/-!
# The data of a route: addresses, path attributes, records, ingress information

* `Prefix`  a family and the leading bits, so a host bit cannot be set;
* `PathAttribute` one decoded attribute, `PaMap` the map of them that selection reads;
* `RotondaPaMap`  what a RIB record carries: the RPKI byte and the attributes as received;
* `Record`  one stored route of a prefix: its ingress, its status and its attributes;
* `IngressInfo`  what the ingress register knows about an ingress.

The attribute blob is kept as the results of decoding its attributes in wire order; `none` is an
attribute that does not parse.
-/

namespace Netom

/-! ## addresses and prefixes -/

abbrev IngressId := Nat
abbrev Asn := Nat

inductive AddrFamily where
  | v4
  | v6
  deriving DecidableEq, Repr

/-- the number of bits of an address -/
def AddrFamily.width : AddrFamily → Nat
  | .v4 => 32
  | .v6 => 128

inductive IpAddr where
  | v4 (addr : BitVec 32)
  | v6 (addr : BitVec 128)
  deriving DecidableEq, Repr

/-- every IPv4 address comes before every IPv6 address -/
def IpAddr.version : IpAddr → Nat
  | .v4 _ => 4
  | .v6 _ => 6

def IpAddr.value : IpAddr → Nat
  | .v4 a => a.toNat
  | .v6 a => a.toNat

def IpAddr.cmp (a b : IpAddr) : Ordering :=
  (compare a.version b.version).then (compare a.value b.value)

instance : Std.TransCmp IpAddr.cmp :=
  inferInstanceAs (Std.TransCmp (compareLex (compareOn IpAddr.version) (compareOn IpAddr.value)))

/-- a prefix is its leading bits -/
structure Prefix where
  family : AddrFamily
  bits : List Bool
  len_le : bits.length ≤ family.width
  deriving DecidableEq, Repr

def defaultRoute (family : AddrFamily) : Prefix := ⟨family, [], Nat.zero_le _⟩

/-- 0.0.0.0/1, 10.0.0.0/8 and 11.0.0.0/8, for the examples -/
def lowerHalf : Prefix := ⟨.v4, [false], by decide⟩
def tenNet : Prefix := ⟨.v4, [false, false, false, false, true, false, true, false], by decide⟩
def elevenNet : Prefix := ⟨.v4, [false, false, false, false, true, false, true, true], by decide⟩

def Prefix.len (p : Prefix) : Nat := p.bits.length

/-- `p` covers `q`: the same family, and the bits of `q` start with those of `p` -/
def Prefix.covers (p q : Prefix) : Bool := p.family == q.family && p.bits.isPrefixOf q.bits

def bitsOf {n : Nat} (addr : BitVec n) : List Bool := (List.finRange n).map fun i => addr.getMsb i

/-- an address as the prefix that has all its bits -/
def IpAddr.hostPrefix : IpAddr → Prefix
  | .v4 addr => ⟨.v4, bitsOf addr, by simp [bitsOf, AddrFamily.width]⟩
  | .v6 addr => ⟨.v6, bitsOf addr, by simp [bitsOf, AddrFamily.width]⟩

/-! ## path attributes -/

abbrev BgpId := BitVec 32

inductive SegmentType where
  | set
  | sequence
  | confedSequence
  | confedSet
  deriving DecidableEq, Repr

/-- a hop of an AS path: one AS of an AS_SEQUENCE, or any other segment as a whole -/
inductive Hop where
  | asn (a : Asn)
  | segment (stype : SegmentType) (asns : List Asn)
  deriving DecidableEq, Repr

abbrev HopPath := List Hop

inductive Origin where
  | igp
  | egp
  | incomplete
  | unknown (code : Nat)
  deriving DecidableEq, Repr

/-- the position of an ORIGIN in its order -/
def Origin.rank : Origin → Nat
  | .igp => 0
  | .egp => 1
  | .incomplete => 2
  | .unknown c => 3 + c

inductive PathAttribute where
  | origin (o : Origin)
  | asPath (p : HopPath)
  | multiExitDisc (med : Nat)
  | localPref (pref : Nat)
  | originatorId (id : BgpId)
  | clusterList (ids : List BgpId)
  | as4Path (p : HopPath)
  | other (typeCode : Nat) (value : List (BitVec 8))
  deriving DecidableEq, Repr

/-- the attributes by type, each at most once -/
structure PaMap where
  origin : Option Origin
  hopPath : Option HopPath
  multiExitDisc : Option Nat
  localPref : Option Nat
  originatorId : Option BgpId
  clusterIds : Option (List BgpId)
  as4Path : Option HopPath
  deriving DecidableEq, Repr

def PaMap.empty : PaMap := ⟨none, none, none, none, none, none, none⟩

/-- an attribute takes the place of an earlier one of its type -/
def PaMap.insert (m : PaMap) : PathAttribute → PaMap
  | .origin o => { m with origin := some o }
  | .asPath p => { m with hopPath := some p }
  | .multiExitDisc med => { m with multiExitDisc := some med }
  | .localPref pref => { m with localPref := some pref }
  | .originatorId id => { m with originatorId := some id }
  | .clusterList ids => { m with clusterIds := some ids }
  | .as4Path p => { m with as4Path := some p }
  | .other _ _ => m

inductive RovStatus where
  | notChecked
  | notFound
  | valid
  | invalid
  deriving DecidableEq, Repr

/-- `RotondaPaMap`: the RPKI byte, the parse flag and the attributes -/
structure RotondaPaMap where
  rov : RovStatus
  fourOctet : Bool
  pathAttributes : List (Option PathAttribute)
  deriving DecidableEq, Repr

def RotondaPaMap.emptyPathAttributes : RotondaPaMap := ⟨.notChecked, true, []⟩

def RotondaPaMap.setRpkiInfo (m : RotondaPaMap) (rov : RovStatus) : RotondaPaMap :=
  { m with rov := rov }

/-! ## records and ingresses -/

inductive RouteStatus where
  | active
  | inActive
  | withdrawn
  deriving DecidableEq, Repr

structure Record where
  multiUniqId : IngressId
  status : RouteStatus
  pamap : RotondaPaMap
  deriving DecidableEq, Repr

inductive IngressType where
  | bmp
  | bgpViaBmp
  | bgp
  | mrt
  | rtr
  | bgpPath
  deriving DecidableEq, Repr

inductive IngressState where
  | connected
  | disconnected
  | nonNetwork
  deriving DecidableEq, Repr

inductive PeerRibType where
  | inPre
  | inPost
  | loc
  | outPre
  | outPost
  deriving DecidableEq, Repr

/-- The fields of a register entry that the modelled functions read or write.  All but the three
counters may be unset. -/
structure IngressInfo where
  ingressType : Option IngressType
  parentIngress : Option IngressId
  state : Option IngressState
  remoteAddr : Option IpAddr
  remoteAsn : Option Asn
  bgpId : Option BgpId
  ribType : Option Nat
  peerRibType : Option PeerRibType
  localAsn : Option Asn
  peerType : Option Nat
  distinguisher : Option (BitVec 64)
  vrfName : Option String
  name : Option String
  pathId : Option Nat
  addpathFamilies : Option (List Nat)
  pathActivity : Nat
  historyGeneration : Nat
  historyRevision : Nat
  deriving DecidableEq, Repr

def IngressInfo.new : IngressInfo :=
  { ingressType := none, parentIngress := none, state := none, remoteAddr := none,
    remoteAsn := none, bgpId := none, ribType := none, peerRibType := none, localAsn := none,
    peerType := none, distinguisher := none, vrfName := none, name := none,
    pathId := none, addpathFamilies := none, pathActivity := 0, historyGeneration := 0,
    historyRevision := 0 }

/-! ## families -/

inductive AfiSafiType where
  | ipv4Unicast
  | ipv6Unicast
  | ipv4Multicast
  | ipv6Multicast
  | ipv4FlowSpec
  | ipv6FlowSpec
  | other (afi safi : Nat)
  deriving DecidableEq, Repr

end Netom
