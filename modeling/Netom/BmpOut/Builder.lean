import Netom.BmpOut.Message
import Netom.Lib.BgpWire
import Netom.Lib.NlriWire

/-!
# The bytes of the messages of a bmp-out client

The builders of BMP messages, byte for byte.  A length is computed before the bytes it covers are
written, and is cut to the width of its field.

* `filterPaFromRaw`  the stored attributes without MP_REACH_NLRI and MP_UNREACH_NLRI, and the
  next hop of the former;
* `buildBgpUpdate`, `buildFlowspecBgpUpdate`  the UPDATE of one route or rule, unless it is too long;
* `buildAggregatedBgpUpdate`  the UPDATE of prefixes that share their attributes;
* `buildRouteMonitoring` …  a BMP message around it.

Stored attributes are the bytes of a `RotondaPaMap`: two bytes that are not sent, then the
attributes.  A path id has 32 bits.  The time of the clock is a parameter (`now`).
-/

namespace Netom.Builder
open AttrWire BigEndian BgpWire NlriWire List

abbrev PathId := BitVec 32

/-! ## headers -/

def bmpVersion : Byte := 3
def bmpCommonHeaderLen : Nat := 6

inductive MsgType where
  | routeMonitoring
  | statisticsReport
  | peerDown
  | peerUp
  | initiation
  | termination
  deriving DecidableEq, Repr

def MsgType.code : MsgType → Byte
  | .routeMonitoring => 0
  | .statisticsReport => 1
  | .peerDown => 2
  | .peerUp => 3
  | .initiation => 4
  | .termination => 5

def writeCommonHeader (msgType : MsgType) (totalLen : Nat) : Bytes :=
  bmpVersion :: (be32 totalLen ++ [msgType.code])

/-- 16 bytes, of which an IPv4 address is the last four -/
def addrField : IpAddr → Bytes
  | .v4 a => replicate 12 0 ++ be32 a.toNat
  | .v6 a => beBytes 16 a.toNat

section now
variable (now : Nat × Nat)

/-- seconds and microseconds; those of the clock if no others are given -/
def writePerPeerHeader (peer : PeerInfo) (timestamp : Option (Nat × Nat)) : Bytes :=
  [BitVec.ofNat 8 peer.peerType, peer.peerFlags] ++ beBytes 8 peer.peerDistinguisher.toNat ++
    addrField peer.peerAddress ++ be32 peer.peerAsn ++ be32 peer.peerBgpId.toNat ++
    be32 (timestamp.getD now).1 ++ be32 (timestamp.getD now).2

/-- a message about a peer: both headers and a body -/
def wrapPeer (msgType : MsgType) (peer : PeerInfo) (timestamp : Option (Nat × Nat))
    (body : Bytes) : Bytes :=
  let totalLen := bmpCommonHeaderLen + bmpPerPeerHeaderLen + body.length
  writeCommonHeader msgType totalLen ++ (writePerPeerHeader now peer timestamp ++ body)

end now

lemma length_addrField (a : IpAddr) : (addrField a).length = 16 := by
  cases a with
  | v4 a => rfl
  | v6 a => exact length_beBytes 16 a.toNat

lemma length_writePerPeerHeader (now : Nat × Nat) (peer : PeerInfo)
    (timestamp : Option (Nat × Nat)) :
    (writePerPeerHeader now peer timestamp).length = bmpPerPeerHeaderLen := by
  simp only [writePerPeerHeader, length_append, length_be32, length_beBytes, length_addrField,
    length_cons, length_nil, bmpPerPeerHeaderLen]

/-! ## Initiation, Termination, Peer Down -/

/-- an information TLV: type and length in two bytes each -/
def writeInfoTlv (type : Nat) (value : Bytes) : Bytes :=
  be16 type ++ (be16 value.length ++ value)

def buildInitiationMessage (sysName sysDescr : Bytes) : Bytes :=
  let sysDescrTlvLen := 4 + sysDescr.length
  let sysNameTlvLen := 4 + sysName.length
  let totalLen := bmpCommonHeaderLen + sysDescrTlvLen + sysNameTlvLen
  writeCommonHeader .initiation totalLen ++ (writeInfoTlv 1 sysDescr ++ writeInfoTlv 2 sysName)

/-- the reason is that the session is administratively closed -/
def buildTerminationMessage : Bytes :=
  let totalLen := bmpCommonHeaderLen + 6
  writeCommonHeader .termination totalLen ++ (be16 0 ++ (be16 2 ++ be16 0))

/-- the remote system closed without a notification -/
def buildPeerDown (now : Nat × Nat) (peer : PeerInfo) : Bytes :=
  wrapPeer now .peerDown peer none [4]

def buildStatisticsReport (now : Nat × Nat) (peer : PeerInfo) (body : Bytes) : Bytes :=
  wrapPeer now .statisticsReport peer none body

/-! ## stored attributes -/

/-- the next hop of the value of an MP_REACH_NLRI, if it is long enough -/
def mpReachNextHop (value : Bytes) : Option Bytes :=
  if 4 ≤ value.length then
    let nhLen := (value.getD 3 0).toNat
    if 4 + nhLen ≤ value.length then some ((value.drop 4).take nhLen) else none
  else none

/-- an attribute is kept, or is an MP_REACH_NLRI, of which the next hop is kept, or is dropped -/
def filterPa (acc : Bytes × Option Bytes) (a : Attr) : Bytes × Option Bytes :=
  if a.typeCode = 14 then
    match mpReachNextHop a.value with
    | some nh => (acc.1, some nh)
    | none => acc
  else if a.typeCode ≠ 15 then (acc.1 ++ a.encode, acc.2)
  else acc

/-- the walk ends at the first attribute that is cut short -/
def filterPaFromRaw (raw : Bytes) : Bytes × Option Bytes :=
  if raw.length < 2 then ([], none) else (attrs (raw.drop 2)).foldl filterPa ([], none)

/-! ## NLRI -/

def Prefix.isV4 (p : Prefix) : Bool := p.family == .v4

/-- an optional path id, the length and the bytes of a prefix -/
def encodePrefixNlri (p : Prefix) (pathId : Option PathId) : Bytes :=
  encodePathId pathId ++ BitVec.ofNat 8 p.len :: packBits p.bits

def nlriEncodedLen (p : Prefix) (hasPathId : Bool) : Nat :=
  1 + (p.len + 7) / 8 + 4 * hasPathId.toNat

/-- what is over the largest length is cut off -/
def appendFlowspecNlri (raw : Bytes) (pathId : Option PathId) : Bytes :=
  let len := min raw.length 4095
  encodePathId pathId ++ (encodeFlowLen len ++ raw.take len)

def flowspecNlriEncodedLen (raw : Bytes) (hasPathId : Bool) : Nat :=
  4 * hasPathId.toNat + raw.length + if 240 ≤ raw.length then 2 else 1

/-! ## multiprotocol attributes -/

def afiOf (isV4 : Bool) : Nat := if isV4 then 1 else 2

/-- the header of an optional attribute; the length is extended if it has to be -/
def writeMpHeader (typeCode : Byte) (valueLen : Nat) : Bytes :=
  if 255 < valueLen then 0x90#8 :: typeCode :: be16 valueLen
  else [0x80#8, typeCode, BitVec.ofNat 8 valueLen]

def buildMpReachNlri (p : Prefix) (nextHop : Option Bytes) (pathId : Option PathId) : Bytes :=
  let nlriBytes := encodePrefixNlri p pathId
  let nh := nextHop.getD (replicate (if Prefix.isV4 p then 4 else 16) 0)
  let valueLen := 2 + 1 + 1 + nh.length + 1 + nlriBytes.length
  writeMpHeader 14 valueLen ++ (be16 (afiOf (Prefix.isV4 p)) ++
    1#8 :: BitVec.ofNat 8 nh.length :: (nh ++ 0#8 :: nlriBytes))

def buildMpUnreachNlri (p : Prefix) (pathId : Option PathId) : Bytes :=
  let nlriBytes := encodePrefixNlri p pathId
  let valueLen := 2 + 1 + nlriBytes.length
  writeMpHeader 15 valueLen ++ (be16 (afiOf (Prefix.isV4 p)) ++ 1#8 :: nlriBytes)

/-! ## updates -/

/-- an UPDATE with its lengths as they were computed -/
def writeUpdate (totalLen withdrawnLen : Nat) (withdrawn : Bytes) (paLen : Nat) (pa nlri : Bytes) :
    Bytes :=
  marker ++ (be16 totalLen ++ 2#8 :: (be16 withdrawnLen ++ (withdrawn ++ (be16 paLen ++ (pa ++ nlri)))))

def buildBgpUpdateWithdrawal (p : Prefix) (pathId : Option PathId) : Bytes :=
  if Prefix.isV4 p then
    let nlriBytes := encodePrefixNlri p pathId
    let totalLen := 19 + (2 + nlriBytes.length + 2)
    writeUpdate totalLen nlriBytes.length nlriBytes 0 [] []
  else
    let mpUnreach := buildMpUnreachNlri p pathId
    let totalLen := 19 + (2 + 2 + mpUnreach.length)
    writeUpdate totalLen 0 [] mpUnreach.length mpUnreach []

def buildBgpUpdate (p : Prefix) (raw : Bytes) (isWithdrawal : Bool) (pathId : Option PathId) :
    Option Bytes :=
  if isWithdrawal then some (buildBgpUpdateWithdrawal p pathId)
  else
    let (paBytes, origNextHop) := filterPaFromRaw raw
    if Prefix.isV4 p then
      let nlriBytes := encodePrefixNlri p pathId
      let totalLen := 19 + (2 + 2 + paBytes.length + nlriBytes.length)
      if 65535 < totalLen then none
      else some (writeUpdate totalLen 0 [] paBytes.length paBytes nlriBytes)
    else
      let mpReach := buildMpReachNlri p origNextHop pathId
      let totalPaLen := paBytes.length + mpReach.length
      let totalLen := 19 + (2 + 2 + totalPaLen)
      if 65535 < totalLen then none
      else some (writeUpdate totalLen 0 [] totalPaLen (paBytes ++ mpReach) [])

/-- a rule is withdrawn without attributes, and announced with no next hop -/
def buildFlowspecBgpUpdate (isV4 : Bool) (nlriRaw raw : Bytes) (isWithdrawal : Bool)
    (pathId : Option PathId) : Option Bytes :=
  let nlriLen := flowspecNlriEncodedLen nlriRaw pathId.isSome
  let mpAttr :=
    if isWithdrawal then
      writeMpHeader 15 (3 + nlriLen) ++
        (be16 (afiOf isV4) ++ 133#8 :: appendFlowspecNlri nlriRaw pathId)
    else
      writeMpHeader 14 (5 + nlriLen) ++
        (be16 (afiOf isV4) ++ 133#8 :: 0#8 :: 0#8 :: appendFlowspecNlri nlriRaw pathId)
  let paBytes := if isWithdrawal then [] else (filterPaFromRaw raw).1
  let totalPaLen := paBytes.length + mpAttr.length
  let totalLen := 19 + (2 + 2 + totalPaLen)
  if maxBgpUpdateLen < totalLen then none
  else some (writeUpdate totalLen 0 [] totalPaLen (paBytes ++ mpAttr) [])

/-- several rules of one family under one set of attributes -/
def buildFlowspecsBgpUpdate (isV4 : Bool) (paBytes : Bytes) (nlris : List (Option PathId × Bytes)) :
    Bytes :=
  let nlri := nlris.flatMap fun (pathId, raw) => appendFlowspecNlri raw pathId
  let valueLen := 2 + 1 + 1 + 1 + nlri.length
  let totalPaLen := paBytes.length + 4 + valueLen
  let totalLen := 19 + (2 + 2 + totalPaLen)
  writeUpdate totalLen 0 [] totalPaLen (paBytes ++ 0x90#8 :: 14#8 :: (be16 valueLen ++
    (be16 (afiOf isV4) ++ 133#8 :: 0#8 :: 0#8 :: nlri))) []

def buildAggregatedBgpUpdate (prefixes : List (Prefix × Option PathId)) (paBytes : Bytes)
    (nextHop : Option Bytes) (isV4 : Bool) : Bytes :=
  let nlri := prefixes.flatMap fun (p, pathId) => encodePrefixNlri p pathId
  if isV4 then
    let totalLen := 19 + (2 + 2 + paBytes.length + nlri.length)
    writeUpdate totalLen 0 [] paBytes.length paBytes nlri
  else
    let nh := nextHop.getD (replicate 16 0)
    let valueLen := 2 + 1 + 1 + nh.length + 1 + nlri.length
    let mpReachLen := 4 + valueLen
    let totalPaLen := paBytes.length + mpReachLen
    let totalLen := 19 + (2 + 2 + totalPaLen)
    writeUpdate totalLen 0 [] totalPaLen (paBytes ++ 0x90#8 :: 14#8 :: (be16 valueLen ++
      (be16 2 ++ 1#8 :: BitVec.ofNat 8 nh.length :: (nh ++ 0#8 :: nlri)))) []

def buildEorIpv4 : Bytes := writeUpdate 23 0 [] 0 [] []

def buildEorMpUnreach (afi safi : Nat) : Bytes :=
  let mpUnreach := 0x80#8 :: 15#8 :: 3#8 :: (be16 afi ++ [BitVec.ofNat 8 safi])
  let totalPaLen := mpUnreach.length
  let bgpUpdateLen := 19 + (2 + 2 + totalPaLen)
  writeUpdate bgpUpdateLen 0 [] totalPaLen mpUnreach []

/-! ## Route Monitoring -/

section now
variable (now : Nat × Nat)

def buildRouteMonitoring (peer : PeerInfo) (p : Prefix) (raw : Bytes) (isWithdrawal : Bool)
    (pathId : Option PathId) : Option Bytes :=
  (buildBgpUpdate p raw isWithdrawal pathId).map (wrapPeer now .routeMonitoring peer none)

def buildFlowspecRouteMonitoring (peer : PeerInfo) (isV4 : Bool) (nlriRaw raw : Bytes)
    (isWithdrawal : Bool) (pathId : Option PathId) : Option Bytes :=
  (buildFlowspecBgpUpdate isV4 nlriRaw raw isWithdrawal pathId).map
    (wrapPeer now .routeMonitoring peer none)

def buildAggregatedRouteMonitoring (peer : PeerInfo) (prefixes : List (Prefix × Option PathId))
    (paBytes : Bytes) (nextHop : Option Bytes) (isV4 : Bool) : Bytes :=
  wrapPeer now .routeMonitoring peer none (buildAggregatedBgpUpdate prefixes paBytes nextHop isV4)

def buildEndOfRibMarker (peer : PeerInfo) (afisafi : AfiSafiType) : Option Bytes :=
  match afisafi with
  | .ipv4Unicast => some (wrapPeer now .routeMonitoring peer none buildEorIpv4)
  | .ipv6Unicast => some (wrapPeer now .routeMonitoring peer none (buildEorMpUnreach 2 1))
  | .ipv4FlowSpec => some (wrapPeer now .routeMonitoring peer none (buildEorMpUnreach 1 133))
  | .ipv6FlowSpec => some (wrapPeer now .routeMonitoring peer none (buildEorMpUnreach 2 133))
  | _ => none

def be32At (bs : Bytes) (i : Nat) : Nat :=
  ofBe32 (bs.getD i 0) (bs.getD (i + 1) 0) (bs.getD (i + 2) 0) (bs.getD (i + 3) 0)

/-- the message around an UPDATE as it came; the time is that of the original header -/
def buildRouteMonitoringRawBytes (peer : PeerInfo) (body : Bytes) : Option Bytes :=
  match buildRouteMonitoringRaw peer body with
  | some (.routeMonitoring peer bgpUpdate) =>
    some (wrapPeer now .routeMonitoring peer (some (be32At body 34, be32At body 38)) bgpUpdate)
  | _ => none

end now

end Netom.Builder
