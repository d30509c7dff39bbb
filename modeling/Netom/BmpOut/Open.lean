import Netom.BmpOut.Builder

/-!
# Peer Up and its two OPENs

A Peer Up holds two synthetic OPENs, the one the monitored router sent and the one it received.
Their capabilities are those of the encoding of the messages that follow, and, in the received one,
what is known of the peer as far as there is room.  The length of the capabilities is checked
against 255, but two more bytes go into the length of the optional parameters.

* `buildBgpOpen`, `buildPeerUp`  the messages;
* `OpenOk`  the lengths are those of the bytes they cover, and a parser gets the
  capabilities that were pushed;
* `Room`  what is pushed leaves room for these two bytes;
* `opens_ok_iff_room`  **both OPENs of a Peer Up are right if and only if there is room**.

The iterator over the capabilities of a peer is a parameter (`CapabilityReader`).
-/

namespace Netom.Builder
open AttrWire BigEndian BgpWire NlriWire List

/-! ## peers -/

/-- the data of a peer that only its Peer Up uses; the texts are bytes -/
structure PeerUpInfo extends PeerInfo where
  localAddr : IpAddr
  peerHostname : Option Bytes
  peerSoftwareVersion : Option Bytes
  peerRole : Option Byte
  sessionUpTime : Option (Nat × Nat)
  peerCapabilities : Bytes
  addpathCapValue : Bytes
  adminLabel : Option Bytes
  deriving DecidableEq, Repr

/-- the capabilities in the bytes of some, each of them whole -/
structure CapabilityReader where
  iter : Bytes → List Tlv
  fits : ∀ blob, ∀ c ∈ iter blob, c.Fits
  iter_nil : iter [] = []

/-- AFI and SAFI of the families that are sent -/
def familyCode : AfiSafiType → Option (Nat × Byte)
  | .ipv4Unicast => some (1, 1)
  | .ipv6Unicast => some (2, 1)
  | .ipv4FlowSpec => some (1, 133)
  | .ipv6FlowSpec => some (2, 133)
  | _ => none

section reader
variable (reader : CapabilityReader)

/-- a capability is the multiprotocol one for a family -/
def isMpCapability (afi : Nat) (safi : Byte) (raw : Bytes) : Bool :=
  raw.length == 6 && raw.getD 0 0 == 1 && raw.getD 1 0 == 4 &&
    ofBe16 (raw.getD 2 0) (raw.getD 3 0) == afi && raw.getD 5 0 == safi

def PeerUpInfo.supportsAfisafi (peer : PeerUpInfo) (afisafi : AfiSafiType) : Bool :=
  if afisafi = .ipv4Unicast then true
  else
    match familyCode afisafi with
    | some (afi, safi) =>
      (reader.iter peer.peerCapabilities).any fun cap => isMpCapability afi safi cap.encode
    | none => false

def PeerUpInfo.supportedAfisafis (peer : PeerUpInfo) : List AfiSafiType :=
  [.ipv4Unicast, .ipv6Unicast, .ipv4FlowSpec, .ipv6FlowSpec].filter
    (peer.supportsAfisafi reader ·)

/-! ## capabilities -/

/-- a capability as it is written: the length byte need not be the length -/
structure Cap where
  code : Byte
  len : Byte
  value : Bytes
  deriving DecidableEq, Repr

def Cap.bytes (c : Cap) : Bytes := c.code :: c.len :: c.value

def Cap.tlv (c : Cap) : Tlv := ⟨c.code, c.value⟩

def capsBytes (caps : List Cap) : Bytes := caps.flatMap Cap.bytes

/-- the length is cut to a byte -/
def Cap.of (code : Byte) (value : Bytes) : Cap := ⟨code, BitVec.ofNat 8 value.length, value⟩

structure OpenCapExtras where
  hostname : Option Bytes
  softwareVersion : Option Bytes
  role : Option Byte
  passthrough : Bytes

def OpenCapExtras.default : OpenCapExtras := ⟨none, none, none, []⟩

/-- capabilities that are not passed through -/
def passthroughExclude : List Byte := [1, 5, 6, 9, 64, 65, 69, 73, 75]

def mpCaps (afisafis : List AfiSafiType) : List Cap :=
  afisafis.filterMap fun afisafi =>
    (familyCode afisafi).map fun (afi, safi) => Cap.of 1 (be16 afi ++ [0, safi])

def addpathCap (addpathCapValue : Bytes) : List Cap :=
  if addpathCapValue = [] then [] else [Cap.of 69 addpathCapValue]

/-- no family preserves its forwarding state -/
def gracefulRestartCap (afisafis : List AfiSafiType) : Cap :=
  { code := 64
    len := BitVec.ofNat 8 (2 + afisafis.length * 4)
    value := be16 0 ++ afisafis.flatMap fun afisafi =>
      match familyCode afisafi with
      | some (afi, safi) => be16 afi ++ [safi, 0]
      | none => [] }

/-- what is pushed whatever its size -/
def encodingCaps (asn : Asn) (afisafis : List AfiSafiType) (advertiseGracefulRestart : Bool)
    (addpathCapValue : Bytes) : List Cap :=
  [Cap.of 65 (be32 asn), Cap.of 6 []] ++ mpCaps afisafis ++ addpathCap addpathCapValue ++
    if advertiseGracefulRestart then [gracefulRestartCap afisafis] else []

/-- one more capability, if it fits -/
def pushCap (caps : List Cap) (code : Byte) (value : Bytes) : List Cap :=
  if value.length ≤ 255 ∧ (capsBytes caps).length + 2 + value.length ≤ 255 then
    caps ++ [Cap.of code value]
  else caps

/-- the domain name is left empty -/
def pushHostname (caps : List Cap) : Option Bytes → List Cap
  | some host =>
    if host ≠ [] ∧ host.length ≤ 255 then
      pushCap caps 73 (BitVec.ofNat 8 host.length :: (host ++ [0]))
    else caps
  | none => caps

def pushSoftwareVersion (caps : List Cap) : Option Bytes → List Cap
  | some ver =>
    if ver ≠ [] ∧ ver.length ≤ 255 then pushCap caps 75 (BitVec.ofNat 8 ver.length :: ver) else caps
  | none => caps

def pushRole (caps : List Cap) : Option Byte → List Cap
  | some role => pushCap caps 9 [role]
  | none => caps

def passThrough (caps : List Cap) (cap : Tlv) : List Cap :=
  if cap.code ∈ passthroughExclude then caps
  else if (capsBytes caps).length + cap.encode.length ≤ 255 then caps ++ [Cap.of cap.code cap.value]
  else caps

def pushExtras (caps : List Cap) (extras : OpenCapExtras) : List Cap :=
  (reader.iter extras.passthrough).foldl passThrough
    (pushRole (pushSoftwareVersion (pushHostname caps extras.hostname) extras.softwareVersion)
      extras.role)

def openCaps (asn : Asn) (extras : OpenCapExtras) (afisafis : List AfiSafiType)
    (advertiseGracefulRestart : Bool) (addpathCapValue : Bytes) : List Cap :=
  pushExtras reader (encodingCaps asn afisafis advertiseGracefulRestart addpathCapValue) extras

/-! ## messages -/

/-- an AS number that needs four bytes is written as AS_TRANS -/
def twoByteAsn (asn : Asn) : Nat := if 65535 < asn then 23456 else asn

/-- the capabilities are one optional parameter -/
def writeOpen (asn : Asn) (bgpId : BgpId) (caps : Bytes) : Bytes :=
  let optParams := 2#8 :: BitVec.ofNat 8 caps.length :: caps
  let openBodyLen := 10 + optParams.length
  let totalLen := 19 + openBodyLen
  marker ++ (be16 totalLen ++ 1#8 :: 4#8 :: (be16 (twoByteAsn asn) ++ (be16 90 ++ (be32 bgpId.toNat ++
    BitVec.ofNat 8 optParams.length :: optParams))))

def buildBgpOpen (asn : Asn) (bgpId : BgpId) (extras : OpenCapExtras) (afisafis : List AfiSafiType)
    (advertiseGracefulRestart : Bool) (addpathCapValue : Bytes) : Bytes :=
  writeOpen asn bgpId
    (capsBytes (openCaps reader asn extras afisafis advertiseGracefulRestart addpathCapValue))

def PeerUpInfo.receivedExtras (peer : PeerUpInfo) : OpenCapExtras :=
  ⟨peer.peerHostname, peer.peerSoftwareVersion, peer.peerRole, peer.peerCapabilities⟩

/-- the identifier of the monitored router is not known -/
def sentOpen (peer : PeerUpInfo) (advertiseGracefulRestart : Bool) : Bytes :=
  buildBgpOpen reader peer.peerAsn 0 .default (peer.supportedAfisafis reader)
    advertiseGracefulRestart peer.addpathCapValue

def receivedOpen (peer : PeerUpInfo) (advertiseGracefulRestart : Bool) : Bytes :=
  buildBgpOpen reader peer.peerAsn peer.peerBgpId peer.receivedExtras
    (peer.supportedAfisafis reader) advertiseGracefulRestart peer.addpathCapValue

/-- a label that does not fit its TLV is left out -/
def adminLabelTlv (adminLabel : Option Bytes) : Bytes :=
  match adminLabel with
  | some label => if label.length ≤ 65535 then writeInfoTlv 4 label else []
  | none => []

/-- the ports are 0 and 179 -/
def buildPeerUp (now : Nat × Nat) (peer : PeerUpInfo) (advertiseGracefulRestart : Bool) : Bytes :=
  wrapPeer now .peerUp peer.toPeerInfo peer.sessionUpTime
    (addrField peer.localAddr ++ (be16 0 ++ (be16 179 ++
      (sentOpen reader peer advertiseGracefulRestart ++
        (receivedOpen reader peer advertiseGracefulRestart ++ adminLabelTlv peer.adminLabel)))))

end reader

/-! ## what a parser makes of an OPEN -/

structure OpenOk (caps : List Cap) (bs : Bytes) : Prop where
  messageLen : ofBe16 (bs.getD 16 0) (bs.getD 17 0) = bs.length
  optParamsLen : (bs.getD 28 0).toNat = bs.length - 29
  capsLen : (bs.getD 30 0).toNat = bs.length - 31
  parsed : readOpen bs = some (caps.map Cap.tlv)

/-- what comes before the optional parameters -/
def openFields (asn : Asn) (bgpId : BgpId) : Bytes :=
  4#8 :: (be16 (twoByteAsn asn) ++ (be16 90 ++ be32 bgpId.toNat))

lemma writeOpen_eq_pdu (asn : Asn) (bgpId : BgpId) (caps : Bytes) :
    writeOpen asn bgpId caps = pdu openType (openFields asn bgpId ++
      BitVec.ofNat 8 (Tlv.mk capabilitiesParam caps).encode.length ::
        (Tlv.mk capabilitiesParam caps).encode) := by
  apply pdu_of_length
  show 19 + (10 + (caps.length + 1 + 1)) = 19 + (caps.length + 1 + 1 + 1 + 9)
  omega

lemma length_writeOpen (asn : Asn) (bgpId : BgpId) (caps : Bytes) :
    (writeOpen asn bgpId caps).length = 31 + caps.length := by
  rw [writeOpen_eq_pdu, length_pdu]
  show 19 + (caps.length + 1 + 1 + 1 + 9) = _
  omega

/-- a capability with its own length -/
def Cap.Written (c : Cap) : Prop := c.len = BitVec.ofNat 8 c.value.length

variable {caps : List Cap}

lemma capsBytes_eq_flatMap_tlv (h : ∀ c ∈ caps, c.Written) :
    capsBytes caps = (caps.map Cap.tlv).flatMap Tlv.encode := by
  rw [capsBytes, flatMap_map]
  apply flatMap_congr
  intro c hc
  show c.code :: c.len :: c.value = c.code :: BitVec.ofNat 8 c.value.length :: c.value
  rw [h c hc]

lemma length_bytes_le {c : Cap} (hc : c ∈ caps) :
    2 + c.value.length ≤ (capsBytes caps).length := by
  obtain ⟨before, after, rfl⟩ := append_of_mem hc
  rw [capsBytes, flatMap_append, flatMap_cons, length_append, length_append]
  show _ ≤ _ + (c.value.length + 1 + 1 + _)
  omega

/-- **an OPEN is right if and only if its capabilities leave room for two bytes** -/
theorem openOk_writeOpen_iff (h : ∀ c ∈ caps, c.Written) (asn : Asn) (bgpId : BgpId) :
    OpenOk caps (writeOpen asn bgpId (capsBytes caps)) ↔ (capsBytes caps).length ≤ 253 := by
  have hopt : (writeOpen asn bgpId (capsBytes caps)).getD 28 0 =
      BitVec.ofNat 8 ((capsBytes caps).length + 1 + 1) := rfl
  have hcap : (writeOpen asn bgpId (capsBytes caps)).getD 30 0 =
      BitVec.ofNat 8 (capsBytes caps).length := rfl
  constructor
  · intro hok
    have hlen := hok.optParamsLen
    rw [hopt, length_writeOpen, BitVec.toNat_ofNat] at hlen
    omega
  · intro hroom
    constructor
    · show ofBe16 (BitVec.ofNat 8 ((19 + (10 + ((capsBytes caps).length + 1 + 1))) / 256))
        (BitVec.ofNat 8 (19 + (10 + ((capsBytes caps).length + 1 + 1)))) = _
      rw [ofBe16_be16 (by omega), length_writeOpen]
      omega
    · rw [hopt, length_writeOpen, BitVec.toNat_ofNat]
      omega
    · rw [hcap, length_writeOpen, BitVec.toNat_ofNat]
      omega
    · have hfits : ∀ t ∈ caps.map Cap.tlv, t.Fits := by
        intro t ht
        obtain ⟨c, hc, rfl⟩ := mem_map.mp ht
        have hle := length_bytes_le hc
        show c.value.length < 256
        omega
      have hbytes := capsBytes_eq_flatMap_tlv h
      have hread : readParams _ = some (caps.map Cap.tlv) :=
        readParams_capabilities hfits (congrArg (Tlv.mk capabilitiesParam) hbytes)
          (by rw [← hbytes]; exact hroom)
      have hlen := length_writeOpen asn bgpId (capsBytes caps)
      rw [writeOpen_eq_pdu, length_pdu] at hlen
      rw [writeOpen_eq_pdu, readOpen_pdu rfl (by omega), hread]

/-! ## room for the capabilities -/

def Cap.size (c : Cap) : Nat := 2 + c.value.length

/-- Capabilities of these sizes are offered one after the other to an OPEN that has `used` bytes of
them, and each is taken unless there would be more than 255.  In the end there are at most 253. -/
def Room : Nat → List Nat → Prop
  | used, [] => used ≤ 253
  | used, size :: sizes => if used + size ≤ 255 then Room (used + size) sizes else Room used sizes

/-- the sizes of what is always pushed -/
def encodingSize (families : Nat) (advertiseGracefulRestart : Bool) (addpathCapValue : Bytes) :
    Nat :=
  8 + 6 * families + (if addpathCapValue = [] then 0 else 2 + addpathCapValue.length) +
    if advertiseGracefulRestart then 4 + 4 * families else 0

/-- the capabilities that are offered besides -/
def offered (reader : CapabilityReader) (extras : OpenCapExtras) : List Cap :=
  ((extras.hostname.filter fun host => host ≠ [] ∧ host.length ≤ 255).map fun host =>
      Cap.of 73 (BitVec.ofNat 8 host.length :: (host ++ [0]))).toList ++
    ((extras.softwareVersion.filter fun ver => ver ≠ [] ∧ ver.length ≤ 255).map fun ver =>
      Cap.of 75 (BitVec.ofNat 8 ver.length :: ver)).toList ++
    (extras.role.map fun role => Cap.of 9 [role]).toList ++
    ((reader.iter extras.passthrough).filter (·.code ∉ passthroughExclude)).map fun cap =>
      Cap.of cap.code cap.value

def offer (caps : List Cap) (c : Cap) : List Cap :=
  if (capsBytes caps).length + c.size ≤ 255 then caps ++ [c] else caps

lemma pushCap_eq_offer (caps : List Cap) (code : Byte) (value : Bytes) :
    pushCap caps code value = offer caps (Cap.of code value) := by
  have h : (value.length ≤ 255 ∧ (capsBytes caps).length + 2 + value.length ≤ 255) ↔
      (capsBytes caps).length + (Cap.of code value).size ≤ 255 := by
    show _ ↔ (capsBytes caps).length + (2 + value.length) ≤ 255
    omega
  unfold pushCap offer
  simp only [h]

lemma foldl_passThrough (caps : List Cap) (tlvs : List Tlv) : tlvs.foldl passThrough caps =
    ((tlvs.filter (·.code ∉ passthroughExclude)).map fun cap =>
      Cap.of cap.code cap.value).foldl offer caps := by
  induction tlvs generalizing caps with
  | nil => rfl
  | cons tlv tlvs ih =>
    have hoffer : passThrough caps tlv = if tlv.code ∈ passthroughExclude then caps
        else offer caps (Cap.of tlv.code tlv.value) := by
      rw [passThrough, Tlv.length_encode]
      rfl
    rw [foldl_cons, ih, hoffer]
    by_cases h : tlv.code ∈ passthroughExclude
    · rw [if_pos h, filter_cons_of_neg (by simpa using h)]
    · rw [if_neg h, filter_cons_of_pos (by simpa using h)]
      rfl

lemma pushHostname_eq (caps : List Cap) (hostname : Option Bytes) : pushHostname caps hostname =
    ((hostname.filter fun host => host ≠ [] ∧ host.length ≤ 255).map fun host =>
      Cap.of 73 (BitVec.ofNat 8 host.length :: (host ++ [0]))).toList.foldl offer caps := by
  cases hostname with
  | none => rfl
  | some host =>
    by_cases h : host ≠ [] ∧ host.length ≤ 255
    · simp only [pushHostname, if_pos h, Option.filter, decide_eq_true h, if_true, pushCap_eq_offer]
      rfl
    · simp only [pushHostname, if_neg h, Option.filter, decide_eq_false h]
      rfl

lemma pushSoftwareVersion_eq (caps : List Cap) (version : Option Bytes) :
    pushSoftwareVersion caps version =
      ((version.filter fun ver => ver ≠ [] ∧ ver.length ≤ 255).map fun ver =>
        Cap.of 75 (BitVec.ofNat 8 ver.length :: ver)).toList.foldl offer caps := by
  cases version with
  | none => rfl
  | some ver =>
    by_cases h : ver ≠ [] ∧ ver.length ≤ 255
    · simp only [pushSoftwareVersion, if_pos h, Option.filter, decide_eq_true h, if_true,
        pushCap_eq_offer]
      rfl
    · simp only [pushSoftwareVersion, if_neg h, Option.filter, decide_eq_false h]
      rfl

lemma pushRole_eq (caps : List Cap) (role : Option Byte) : pushRole caps role =
    (role.map fun role => Cap.of 9 [role]).toList.foldl offer caps := by
  cases role with
  | none => rfl
  | some role => exact pushCap_eq_offer caps 9 [role]

lemma pushExtras_eq_foldl_offer (reader : CapabilityReader) (caps : List Cap)
    (extras : OpenCapExtras) :
    pushExtras reader caps extras = (offered reader extras).foldl offer caps := by
  rw [pushExtras, foldl_passThrough, pushRole_eq, pushSoftwareVersion_eq, pushHostname_eq,
    offered, foldl_append, foldl_append, foldl_append]

lemma length_capsBytes_append (caps : List Cap) (c : Cap) :
    (capsBytes (caps ++ [c])).length = (capsBytes caps).length + c.size := by
  rw [capsBytes, capsBytes, flatMap_append, length_append, flatMap_singleton]
  show _ + (c.value.length + 1 + 1) = _ + (2 + c.value.length)
  omega

lemma room_iff_foldl_offer (caps cs : List Cap) :
    Room (capsBytes caps).length (cs.map Cap.size) ↔ (capsBytes (cs.foldl offer caps)).length ≤ 253 := by
  induction cs generalizing caps with
  | nil => exact Iff.rfl
  | cons c cs ih =>
    rw [map_cons, Room, foldl_cons, offer]
    by_cases h : (capsBytes caps).length + c.size ≤ 255
    · rw [if_pos h, if_pos h, ← length_capsBytes_append]
      exact ih (caps ++ [c])
    · rw [if_neg h, if_neg h]
      exact ih caps

lemma le_of_room {used : Nat} {sizes : List Nat} (h : Room used sizes) : used ≤ 253 := by
  induction sizes generalizing used with
  | nil => exact h
  | cons size sizes ih =>
    rw [Room] at h
    split at h
    · exact Nat.le_trans (Nat.le_add_right used size) (ih h)
    · exact ih h

/-! ## sizes and lengths of what is pushed -/

def Known (afisafis : List AfiSafiType) : Prop := ∀ f ∈ afisafis, (familyCode f).isSome

lemma known_supportedAfisafis (reader : CapabilityReader) (peer : PeerUpInfo) :
    Known (peer.supportedAfisafis reader) := by
  intro f hf
  have hmem := mem_of_mem_filter hf
  simp only [mem_cons, not_mem_nil, or_false] at hmem
  rcases hmem with rfl | rfl | rfl | rfl <;> rfl

variable {afisafis : List AfiSafiType}

lemma length_mpCaps (h : Known afisafis) :
    (capsBytes (mpCaps afisafis)).length = 6 * afisafis.length := by
  induction afisafis with
  | nil => rfl
  | cons f fs ih =>
    obtain ⟨hf, hfs⟩ := forall_mem_cons.mp h
    obtain ⟨⟨afi, safi⟩, hcode⟩ := Option.isSome_iff_exists.mp hf
    have hcons : mpCaps (f :: fs) = Cap.of 1 (be16 afi ++ [0, safi]) :: mpCaps fs := by
      simp only [mpCaps, filterMap_cons, hcode, Option.map_some]
    rw [hcons]
    show (capsBytes (mpCaps fs)).length + 6 = _
    rw [ih hfs, length_cons]
    omega

lemma length_gracefulRestartCap (h : Known afisafis) :
    (gracefulRestartCap afisafis).value.length = 2 + afisafis.length * 4 := by
  have hlist : (afisafis.flatMap fun afisafi =>
      match familyCode afisafi with
      | some (afi, safi) => be16 afi ++ [safi, 0]
      | none => []).length = afisafis.length * 4 := by
    induction afisafis with
    | nil => rfl
    | cons f fs ih =>
      obtain ⟨hf, hfs⟩ := forall_mem_cons.mp h
      obtain ⟨⟨afi, safi⟩, hcode⟩ := Option.isSome_iff_exists.mp hf
      rw [flatMap_cons, length_append, ih hfs, hcode, length_cons]
      show 4 + fs.length * 4 = _
      omega
  rw [gracefulRestartCap, length_append, hlist]
  rfl

lemma length_encodingCaps (asn : Asn) (h : Known afisafis) (advertiseGracefulRestart : Bool)
    (addpathCapValue : Bytes) :
    (capsBytes (encodingCaps asn afisafis advertiseGracefulRestart addpathCapValue)).length =
      encodingSize afisafis.length advertiseGracefulRestart addpathCapValue := by
  have hmp := length_mpCaps h
  have hadd : (capsBytes (addpathCap addpathCapValue)).length =
      if addpathCapValue = [] then 0 else 2 + addpathCapValue.length := by
    unfold addpathCap
    split
    · rfl
    · exact (length_capsBytes_append [] _).trans (Nat.zero_add _)
  have hgr : (capsBytes (if advertiseGracefulRestart then [gracefulRestartCap afisafis] else
      [])).length = if advertiseGracefulRestart then 4 + 4 * afisafis.length else 0 := by
    cases advertiseGracefulRestart with
    | false => rfl
    | true =>
      have hsize := (length_capsBytes_append [] (gracefulRestartCap afisafis)).trans
        (Nat.zero_add _)
      rw [Cap.size, length_gracefulRestartCap h] at hsize
      rw [if_pos rfl, if_pos rfl]
      exact hsize.trans (by omega)
  unfold capsBytes at hmp hadd hgr
  rw [capsBytes, encodingCaps, encodingSize, flatMap_append, flatMap_append,
    flatMap_append, length_append, length_append, length_append, hmp, hadd, hgr]
  rfl

lemma written_encodingCaps (asn : Asn) (h : Known afisafis) (advertiseGracefulRestart : Bool)
    (addpathCapValue : Bytes) :
    ∀ c ∈ encodingCaps asn afisafis advertiseGracefulRestart addpathCapValue, c.Written := by
  intro c hc
  simp only [encodingCaps, mem_append, mem_cons, not_mem_nil, or_false] at hc
  rcases hc with ((((rfl | rfl) | hmp) | hadd) | hgr)
  · rfl
  · rfl
  · obtain ⟨f, -, hf⟩ := mem_filterMap.mp hmp
    obtain ⟨⟨afi, safi⟩, -, rfl⟩ := Option.map_eq_some_iff.mp hf
    rfl
  · unfold addpathCap at hadd
    split at hadd
    · cases hadd
    · cases mem_singleton.mp hadd
      rfl
  · cases advertiseGracefulRestart with
    | false => cases hgr
    | true =>
      cases mem_singleton.mp hgr
      unfold Cap.Written
      rw [length_gracefulRestartCap h]
      rfl

lemma written_offered (reader : CapabilityReader) (extras : OpenCapExtras) :
    ∀ c ∈ offered reader extras, c.Written := by
  intro c hc
  simp only [offered, mem_append, Option.mem_toList, Option.map_eq_some_iff,
    mem_map] at hc
  rcases hc with (((⟨_, -, rfl⟩ | ⟨_, -, rfl⟩) | ⟨_, -, rfl⟩) | ⟨_, -, rfl⟩) <;> rfl

lemma mem_foldl_offer {cs : List Cap} {c : Cap} (h : c ∈ cs.foldl offer caps) :
    c ∈ caps ∨ c ∈ cs := by
  induction cs generalizing caps with
  | nil => exact .inl h
  | cons d cs ih =>
    rcases ih h with hc | hc
    · unfold offer at hc
      split at hc
      · rcases mem_append.mp hc with hc | hc
        · exact .inl hc
        · exact .inr (mem_cons.mpr (.inl (mem_singleton.mp hc)))
      · exact .inl hc
    · exact .inr (mem_cons_of_mem d hc)

lemma openOk_buildBgpOpen_iff (reader : CapabilityReader) (asn : Asn) (bgpId : BgpId)
    (extras : OpenCapExtras) (h : Known afisafis) (advertiseGracefulRestart : Bool)
    (addpathCapValue : Bytes) :
    OpenOk (openCaps reader asn extras afisafis advertiseGracefulRestart addpathCapValue)
        (buildBgpOpen reader asn bgpId extras afisafis advertiseGracefulRestart addpathCapValue) ↔
      Room (encodingSize afisafis.length advertiseGracefulRestart addpathCapValue)
        ((offered reader extras).map Cap.size) := by
  have hwritten : ∀ c ∈ openCaps reader asn extras afisafis advertiseGracefulRestart
      addpathCapValue, c.Written := by
    intro c hc
    rw [openCaps, pushExtras_eq_foldl_offer] at hc
    rcases mem_foldl_offer hc with hc | hc
    · exact written_encodingCaps asn h advertiseGracefulRestart addpathCapValue c hc
    · exact written_offered reader extras c hc
  rw [buildBgpOpen, openOk_writeOpen_iff hwritten, openCaps, pushExtras_eq_foldl_offer,
    ← room_iff_foldl_offer, length_encodingCaps asn h]

lemma offered_default (reader : CapabilityReader) : offered reader .default = [] := by
  unfold offered OpenCapExtras.default
  rw [reader.iter_nil]
  rfl

/-- **both OPENs of a Peer Up are right if and only if there is room** -/
theorem opens_ok_iff_room (reader : CapabilityReader) (peer : PeerUpInfo)
    (advertiseGracefulRestart : Bool) :
    (OpenOk (openCaps reader peer.peerAsn .default (peer.supportedAfisafis reader)
          advertiseGracefulRestart peer.addpathCapValue)
        (sentOpen reader peer advertiseGracefulRestart) ∧
      OpenOk (openCaps reader peer.peerAsn peer.receivedExtras (peer.supportedAfisafis reader)
          advertiseGracefulRestart peer.addpathCapValue)
        (receivedOpen reader peer advertiseGracefulRestart)) ↔
      Room (encodingSize (peer.supportedAfisafis reader).length advertiseGracefulRestart
          peer.addpathCapValue)
        ((offered reader peer.receivedExtras).map Cap.size) := by
  have hknown := known_supportedAfisafis reader peer
  rw [sentOpen, receivedOpen, openOk_buildBgpOpen_iff reader _ _ _ hknown,
    openOk_buildBgpOpen_iff reader _ _ _ hknown, offered_default]
  constructor
  · intro h
    exact h.2
  · intro h
    exact ⟨le_of_room h, h⟩

/-! ## a host name that leaves one byte -/

def tlvReader : CapabilityReader where
  iter blob := (Items.all nextTlv blob).getD []
  fits := by
    intro blob c hc
    cases h : Items.all nextTlv blob with
    | none =>
      rw [h] at hc
      cases hc
    | some caps =>
      rw [h] at hc
      exact Items.forall_of_readAll (fun hn => fits_of_nextTlv hn) h c hc
  iter_nil := rfl

/-- an IPv4 peer whose only capability is its name, of 236 bytes -/
def longNamedPeer : PeerUpInfo where
  peerType := 0
  peerFlags := 0
  peerDistinguisher := 0
  peerAddress := .v4 0x0a000001
  peerAsn := 65001
  peerBgpId := 0x0a000001
  localAddr := .v4 0
  peerHostname := some (List.replicate 236 0x61)
  peerSoftwareVersion := none
  peerRole := none
  sessionUpTime := none
  peerCapabilities := (Tlv.mk 73 (236 :: (List.replicate 236 0x61 ++ [0]))).encode
  addpathCapValue := []
  adminLabel := none

/-- 254 bytes of capabilities are pushed, and the optional parameters are said to have none -/
theorem longNamedPeer_wraps :
    (capsBytes (openCaps tlvReader 65001 longNamedPeer.receivedExtras [.ipv4Unicast] false
        [])).length = 254 ∧
      (receivedOpen tlvReader longNamedPeer false).getD 28 0 = 0 ∧
      (receivedOpen tlvReader longNamedPeer false).length = 29 + 256 ∧
      readOpen (receivedOpen tlvReader longNamedPeer false) = none ∧
      ¬ OpenOk (openCaps tlvReader longNamedPeer.peerAsn longNamedPeer.receivedExtras
          (longNamedPeer.supportedAfisafis tlvReader) false longNamedPeer.addpathCapValue)
        (receivedOpen tlvReader longNamedPeer false) := by
  refine ⟨by decide +kernel, by decide +kernel, by decide +kernel, by decide +kernel, fun h => ?_⟩
  exact absurd h.optParamsLen (by decide +kernel)

end Netom.Builder
