import Netom.BmpOut.Updates

/-!
# The lengths of the messages of a bmp-out client

A client finds the messages of its stream by the length of the BMP header, the PDUs in them by the
length of the BGP header, and the parts of an UPDATE by the lengths it holds.

* `readBmp`  the type and the body of a message whose length is the one it says;
* `Tiles`  the lengths in the UPDATE of a Route Monitoring message tile it;
* `BuilderCall`  a call of a builder, `BuilderCall.message` what it returns;
* `BuilderCall.Admissible`  what the callers of a builder promise;
* `framed_of_message`  **every message that is returned is framed**.

A raw message holds the PDU that was received: its inner lengths are right if they were.
-/

namespace Netom.Builder
open AttrWire BigEndian BgpWire NlriWire List Option

/-! ## reading a message -/

def readBmp : Bytes → Option (Byte × Bytes)
  | version :: a :: b :: c :: d :: msgType :: body =>
    if version = bmpVersion ∧ ofBe32 a b c d = bmpCommonHeaderLen + body.length then
      some (msgType, body)
    else none
  | _ => none

/-- the PDU of a Route Monitoring message -/
def pduOf (bs : Bytes) : Option Bytes :=
  match readBmp bs with
  | some (msgType, body) =>
    if msgType = MsgType.routeMonitoring.code ∧ bmpPerPeerHeaderLen ≤ body.length then
      some (body.drop bmpPerPeerHeaderLen)
    else none
  | none => none

/-- the value of a multiprotocol attribute is well formed -/
def MpTiled (a : Attr) : Prop :=
  (a.typeCode = 14 → (readMpReach a.value).isSome) ∧
    (a.typeCode = 15 → (readMpUnreach a.value).isSome)

/-- the lengths of the message, of its UPDATE and of the parts of the UPDATE tile it -/
def Tiles (bs : Bytes) : Prop :=
  ∃ bgp u, pduOf bs = some bgp ∧ readUpdate bgp = some u ∧ ∀ a ∈ u.attrs, MpTiled a

/-- local address and ports -/
def peerUpFieldsLen : Nat := 20

/-- the two PDUs of a Peer Up, and what follows them -/
def opensOf (bs : Bytes) : Option ((Byte × Bytes) × (Byte × Bytes) × Bytes) :=
  match readBmp bs with
  | some (msgType, body) =>
    if msgType = MsgType.peerUp.code ∧ bmpPerPeerHeaderLen + peerUpFieldsLen ≤ body.length then
      match readPdu (body.drop (bmpPerPeerHeaderLen + peerUpFieldsLen)) with
      | some (sent, rest) => (readPdu rest).map fun (received, rest) => (sent, received, rest)
      | none => none
    else none
  | none => none

lemma readBmp_common {msgType : MsgType} {n : Nat} {body : Bytes}
    (hn : n = bmpCommonHeaderLen + body.length) (hlt : n < 2 ^ 32) :
    readBmp (writeCommonHeader msgType n ++ body) = some (msgType.code, body) := by
  show (if bmpVersion = bmpVersion ∧ ofBe32 _ _ _ _ = _ then some (msgType.code, body) else none) = _
  rw [ofBe32_be32, Nat.mod_eq_of_lt hlt, if_pos ⟨rfl, hn⟩]

lemma readBmp_wrapPeer (now : Nat × Nat) (msgType : MsgType) (peer : PeerInfo)
    (timestamp : Option (Nat × Nat)) {body : Bytes} (h : body.length < 2 ^ 32 - 48) :
    readBmp (wrapPeer now msgType peer timestamp body) =
      some (msgType.code, writePerPeerHeader now peer timestamp ++ body) := by
  have hlen := length_writePerPeerHeader now peer timestamp
  unfold wrapPeer
  apply readBmp_common
  · rw [length_append, hlen]
    omega
  · unfold bmpCommonHeaderLen bmpPerPeerHeaderLen
    omega

lemma pduOf_wrapPeer (now : Nat × Nat) (peer : PeerInfo) (timestamp : Option (Nat × Nat))
    {bgp : Bytes} (h : bgp.length < 2 ^ 32 - 48) :
    pduOf (wrapPeer now .routeMonitoring peer timestamp bgp) = some bgp := by
  have hlen := length_writePerPeerHeader now peer timestamp
  have hle : bmpPerPeerHeaderLen ≤ (writePerPeerHeader now peer timestamp ++ bgp).length := by
    rw [length_append, hlen]
    omega
  unfold pduOf
  simp only [readBmp_wrapPeer now .routeMonitoring peer timestamp h, true_and, if_pos hle,
    drop_left' hlen]

/-! ## the UPDATEs fit -/

/-- an attribute of an UPDATE that is not too long is well formed -/
structure AttrOk (a : Attr) : Prop where
  fits : a.value.length < 65536 → a.Fits
  mp : MpTiled a

lemma length_value_le {as : List Attr} {a : Attr} (h : a ∈ as) :
    a.value.length ≤ (as.flatMap Attr.encode).length := by
  obtain ⟨before, after, rfl⟩ := append_of_mem h
  have hle : a.value.length ≤ a.encode.length := by
    simp only [Attr.encode, length_append, length_cons]
    omega
  rw [flatMap_append, flatMap_cons, length_append, length_append]
  omega

lemma fits_of_attrOk {u : BgpUpdate} (hlen : headerLen + u.encode.length ≤ 65535)
    (hok : ∀ a ∈ u.attrs, AttrOk a) : u.Fits := by
  refine ⟨fun a ha => (hok a ha).fits ?_, Nat.lt_succ_of_le hlen⟩
  have hle := length_value_le ha
  rw [BgpUpdate.length_encode] at hlen
  omega

/-- **a message around an UPDATE of parts that are well formed tiles** -/
theorem tiles_wrapPeer (now : Nat × Nat) (peer : PeerInfo) (timestamp : Option (Nat × Nat))
    {u : BgpUpdate} (hlen : headerLen + u.encode.length ≤ 65535) (hok : ∀ a ∈ u.attrs, AttrOk a) :
    Tiles (wrapPeer now .routeMonitoring peer timestamp (pdu updateType u.encode)) := by
  refine ⟨pdu updateType u.encode, u, pduOf_wrapPeer now peer timestamp ?_,
    readUpdate_pdu (fits_of_attrOk hlen hok), fun a ha => (hok a ha).mp⟩
  rw [length_pdu]
  omega

lemma attrOk_of_mem_keptAttrs {raw : Bytes} {a : Attr} (h : a ∈ keptAttrs raw) : AttrOk a := by
  have hk := isKept_of_mem_keptAttrs h
  simp only [isKept, ne_eq, decide_not, Bool.and_eq_true, Bool.not_eq_eq_eq_not, Bool.not_true,
    decide_eq_false_iff_not] at hk
  exact ⟨fun _ => fits_of_mem_keptAttrs h, fun h14 => absurd h14 hk.1, fun h15 => absurd h15 hk.2⟩

lemma mpTiled_reach (flags : Byte) {m : MpReach} (ha : m.afi < 65536)
    (hn : m.nextHop.length < 256) : MpTiled ⟨flags, 14, m.encode⟩ := by
  refine ⟨fun _ => ?_, fun h15 => absurd h15 (show ¬ (14 : Byte) = 15 by decide)⟩
  show (readMpReach m.encode).isSome
  rw [readMpReach_encode ha hn]
  rfl

lemma mpTiled_unreach (flags : Byte) {m : MpUnreach} (ha : m.afi < 65536) :
    MpTiled ⟨flags, 15, m.encode⟩ := by
  refine ⟨fun h14 => absurd h14 (show ¬ (15 : Byte) = 14 by decide), fun _ => ?_⟩
  show (readMpUnreach m.encode).isSome
  rw [readMpUnreach_encode ha]
  rfl

variable (isV4 : Bool)

lemma afiOf_lt : afiOf isV4 < 65536 := by
  cases isV4 <;> decide

lemma attrOk_reachAttr (safi : Byte) {nextHop : Bytes} (hn : nextHop.length < 256)
    (nlri : Bytes) : AttrOk (reachAttr isV4 safi nextHop nlri) :=
  ⟨fun h => fits_mpAttr 14 h, mpTiled_reach _ (afiOf_lt isV4) hn⟩

lemma attrOk_unreachAttr (safi : Byte) (nlri : Bytes) : AttrOk (unreachAttr isV4 safi nlri) :=
  ⟨fun h => fits_mpAttr 15 h, mpTiled_unreach _ (afiOf_lt isV4)⟩

lemma attrOk_extended {m : MpReach} (ha : m.afi < 65536) (hn : m.nextHop.length < 256) :
    AttrOk ⟨0x90, 14, m.encode⟩ := by
  refine ⟨fun h => ?_, mpTiled_reach _ ha hn⟩
  have hx : extended (Attr.mk 0x90 14 m.encode).flags = true := by
    show extended 0x90#8 = true
    decide
  rw [Attr.Fits, if_pos hx]
  exact h

lemma attrOk_kept_append {raw : Bytes} {a : Attr} (h : AttrOk a) :
    ∀ a' ∈ keptAttrs raw ++ [a], AttrOk a' := by
  intro a' ha'
  rcases mem_append.mp ha' with hk | hl
  · exact attrOk_of_mem_keptAttrs hk
  · cases mem_singleton.mp hl
    exact h

lemma attrOk_announcementUpdate (p : Prefix) (raw : Bytes) (pathId : Option PathId) :
    ∀ a ∈ (announcementUpdate p raw pathId).attrs, AttrOk a := by
  unfold announcementUpdate
  split
  · exact fun a ha => attrOk_of_mem_keptAttrs ha
  · exact attrOk_kept_append (attrOk_reachAttr false 1 (length_nextHopV6 raw) _)

lemma attrOk_withdrawalUpdate (p : Prefix) (pathId : Option PathId) :
    ∀ a ∈ (withdrawalUpdate p pathId).attrs, AttrOk a := by
  unfold withdrawalUpdate
  split
  · exact forall_mem_nil _
  · exact forall_mem_singleton.mpr (attrOk_unreachAttr false 1 _)

lemma attrOk_flowspecUpdate (rule raw : Bytes) (isWithdrawal : Bool) (pathId : Option PathId) :
    ∀ a ∈ (flowspecUpdate isV4 rule raw isWithdrawal pathId).attrs, AttrOk a := by
  unfold flowspecUpdate
  split
  · exact forall_mem_singleton.mpr (attrOk_unreachAttr isV4 133 _)
  · have hn : ([] : Bytes).length < 256 := by decide
    exact attrOk_kept_append (attrOk_reachAttr isV4 133 hn _)

lemma attrOk_aggregatedUpdate (prefixes : List (Prefix × Option PathId)) (raw : Bytes)
    (isV4 : Bool) : ∀ a ∈ (aggregatedUpdate prefixes raw isV4).attrs, AttrOk a := by
  unfold aggregatedUpdate
  split
  · exact fun a ha => attrOk_of_mem_keptAttrs ha
  · exact attrOk_kept_append (attrOk_extended (afiOf_lt false) (length_nextHopV6 raw))

lemma attrOk_flowspecsUpdate (raw : Bytes) (rules : List (Option PathId × Bytes)) :
    ∀ a ∈ (flowspecsUpdate isV4 raw rules).attrs, AttrOk a := by
  refine attrOk_kept_append (attrOk_extended (afiOf_lt isV4) ?_)
  show 0 < 256
  decide

lemma length_encodePrefixNlri (p : Prefix) (pathId : Option PathId) :
    (encodePrefixNlri p pathId).length ≤ 21 := by
  have hlen := PrefixNlri.length_encode ⟨pathId, p.bits⟩
  have hbits : p.bits.length ≤ 128 := by
    have hle := p.len_le
    cases hf : p.family with
    | v4 => rw [hf] at hle; exact Nat.le_trans hle (by decide)
    | v6 => rw [hf] at hle; exact hle
  show (PrefixNlri.encode ⟨pathId, p.bits⟩).length ≤ 21
  rw [hlen]
  simp only
  split <;> omega

lemma length_withdrawalUpdate (p : Prefix) (pathId : Option PathId) :
    headerLen + (withdrawalUpdate p pathId).encode.length ≤ 65535 := by
  have hlen := length_encodePrefixNlri p pathId
  rw [BgpUpdate.length_encode]
  unfold withdrawalUpdate
  split
  · simp only [headerLen, flatMap_nil, length_nil]
    omega
  · have hvalue := MpUnreach.length_encode ⟨afiOf false, 1, encodePrefixNlri p pathId⟩
    simp only at hvalue
    have hshort : ¬ 255 < (MpUnreach.mk (afiOf false) 1 (encodePrefixNlri p pathId)).encode.length := by
      omega
    have hattr : (unreachAttr false 1 (encodePrefixNlri p pathId)).encode.length =
        3 + (MpUnreach.mk (afiOf false) 1 (encodePrefixNlri p pathId)).encode.length := by
      rw [unreachAttr, ← encode_mpAttr 15 rfl, writeMpHeader, if_neg hshort, length_append]
      rfl
    simp only [headerLen, flatMap_singleton, length_nil, hattr, hvalue]
    omega

/-- no routes are withdrawn -/
def eorUpdate (afi safi : Nat) : BgpUpdate :=
  ⟨[], [⟨0x80, 15, (MpUnreach.mk afi (BitVec.ofNat 8 safi) []).encode⟩], []⟩

lemma encode_eorUpdate_attrs (afi safi : Nat) :
    (eorUpdate afi safi).attrs.flatMap Attr.encode =
      0x80#8 :: 15#8 :: 3#8 :: (be16 afi ++ [BitVec.ofNat 8 safi]) := by
  have hx : ¬ extended 0x80#8 = true := by decide
  show 0x80#8 :: 15#8 :: (encodeLen 0x80#8 3 ++ _) ++ [] = _
  rw [encodeLen, if_neg hx, append_nil]
  rfl

lemma length_eorUpdate (afi safi : Nat) : (eorUpdate afi safi).encode.length = 10 := by
  rw [BgpUpdate.length_encode, encode_eorUpdate_attrs]
  rfl

lemma buildEorMpUnreach_eq (afi safi : Nat) :
    buildEorMpUnreach afi safi = pdu updateType (eorUpdate afi safi).encode := by
  refine writeUpdate_eq (eorUpdate afi safi) (encode_eorUpdate_attrs afi safi).symm rfl rfl ?_
  rw [length_eorUpdate]
  rfl

lemma buildEorIpv4_eq : buildEorIpv4 = pdu updateType (BgpUpdate.mk [] [] []).encode := rfl

lemma of_sendable {u : BgpUpdate} {bs : Bytes} (h : sendable u = some bs) :
    headerLen + u.encode.length ≤ 65535 ∧ bs = pdu updateType u.encode := by
  obtain ⟨hlen, h⟩ := ite_none_left_eq_some.mp h
  cases h
  exact ⟨Nat.le_of_not_lt hlen, rfl⟩

/-! ## calls of the builders -/

inductive BuilderCall where
  | initiation (sysName sysDescr : Bytes)
  | termination
  | peerUp (peer : PeerUpInfo) (advertiseGracefulRestart : Bool)
  | peerDown (peer : PeerInfo)
  | statisticsReport (peer : PeerInfo) (body : Bytes)
  | route (peer : PeerInfo) (p : Prefix) (raw : Bytes) (isWithdrawal : Bool)
      (pathId : Option PathId)
  | flowspec (peer : PeerInfo) (isV4 : Bool) (rule raw : Bytes) (isWithdrawal : Bool)
      (pathId : Option PathId)
  | aggregated (peer : PeerInfo) (prefixes : List (Prefix × Option PathId)) (paBytes : Bytes)
      (nextHop : Option Bytes) (isV4 : Bool)
  /-- what a group of rules is sent as -/
  | flowspecs (peer : PeerInfo) (isV4 : Bool) (paBytes : Bytes) (rules : List (Option PathId × Bytes))
  | endOfRib (peer : PeerInfo) (afisafi : AfiSafiType)
  | raw (peer : PeerInfo) (body : Bytes)

section calls
variable (reader : CapabilityReader) (now : Nat × Nat)

def BuilderCall.message : BuilderCall → Option Bytes
  | .initiation sysName sysDescr => some (buildInitiationMessage sysName sysDescr)
  | .termination => some buildTerminationMessage
  | .peerUp peer gracefulRestart => some (buildPeerUp reader now peer gracefulRestart)
  | .peerDown peer => some (buildPeerDown now peer)
  | .statisticsReport peer body => some (buildStatisticsReport now peer body)
  | .route peer p blob isWithdrawal pathId => buildRouteMonitoring now peer p blob isWithdrawal pathId
  | .flowspec peer isV4 rule blob isWithdrawal pathId =>
    buildFlowspecRouteMonitoring now peer isV4 rule blob isWithdrawal pathId
  | .aggregated peer prefixes paBytes nextHop isV4 =>
    some (buildAggregatedRouteMonitoring now peer prefixes paBytes nextHop isV4)
  | .flowspecs peer isV4 paBytes rules =>
    some (wrapPeer now .routeMonitoring peer none (buildFlowspecsBgpUpdate isV4 paBytes rules))
  | .endOfRib peer afisafi => buildEndOfRibMarker now peer afisafi
  | .raw peer body => buildRouteMonitoringRawBytes now peer body

/-- What the callers promise: texts and statistics of less than 4 GiB, an ADD-PATH value that leaves an
OPEN below 64 KiB, a rule that its length header can describe, and, for several prefixes or rules,
attributes that were filtered and an UPDATE that fits. -/
def BuilderCall.Admissible : BuilderCall → Prop
  | .initiation sysName sysDescr => 14 + sysDescr.length + sysName.length < 2 ^ 32
  | .peerUp peer gracefulRestart =>
    31 + encodingSize (peer.supportedAfisafis reader).length gracefulRestart peer.addpathCapValue <
      65536
  | .statisticsReport _ body => body.length < 2 ^ 32 - 48
  | .flowspec _ _ rule _ _ _ => rule.length ≤ 4095
  | .aggregated _ prefixes paBytes nextHop isV4 =>
    (∃ blob, (paBytes, nextHop) = filterPaFromRaw blob) ∧
      (buildAggregatedBgpUpdate prefixes paBytes nextHop isV4).length ≤ maxBgpUpdateLen
  | .flowspecs _ isV4 paBytes rules =>
    (∃ blob, paBytes = (filterPaFromRaw blob).1) ∧ (∀ r ∈ rules, r.2.length ≤ 4095) ∧
      (buildFlowspecsBgpUpdate isV4 paBytes rules).length ≤ maxBgpUpdateLen
  | .termination | .peerDown _ | .route _ _ _ _ _ | .endOfRib _ _ | .raw _ _ => True

def IsBmp (msgType : MsgType) (bs : Bytes) : Prop := ∃ body, readBmp bs = some (msgType.code, body)

/-- What is said of the message of a call.  A raw message is as long as it says, and so is its PDU,
which is the one that was received. -/
def BuilderCall.Framed (bs : Bytes) : BuilderCall → Prop
  | .initiation _ _ => IsBmp .initiation bs
  | .termination => IsBmp .termination bs
  | .peerDown _ => IsBmp .peerDown bs
  | .statisticsReport _ _ => IsBmp .statisticsReport bs
  | .peerUp peer gracefulRestart => ∃ sent received,
    opensOf bs = some ((openType, sent), (openType, received), adminLabelTlv peer.adminLabel) ∧
      pdu openType sent = sentOpen reader peer gracefulRestart ∧
      pdu openType received = receivedOpen reader peer gracefulRestart
  | .raw _ body =>
    pduOf bs = some (body.drop bmpPerPeerHeaderLen) ∧
      ofBe16 ((body.drop bmpPerPeerHeaderLen).getD 16 0)
        ((body.drop bmpPerPeerHeaderLen).getD 17 0) = (body.drop bmpPerPeerHeaderLen).length
  | .route _ _ _ _ _ | .flowspec _ _ _ _ _ _ | .aggregated _ _ _ _ _ | .flowspecs _ _ _ _
  | .endOfRib _ _ => Tiles bs

/-! ### one builder after the other -/

lemma framed_initiation {sysName sysDescr : Bytes}
    (h : 14 + sysDescr.length + sysName.length < 2 ^ 32) :
    IsBmp .initiation (buildInitiationMessage sysName sysDescr) := by
  refine ⟨_, readBmp_common ?_ ?_⟩
  · simp only [writeInfoTlv, be16, length_append, length_cons, length_nil]
    omega
  · unfold bmpCommonHeaderLen
    omega

variable {bs : Bytes} {peer : PeerInfo}

lemma tiles_route {p : Prefix} {raw : Bytes} {isWithdrawal : Bool} {pathId : Option PathId}
    (h : buildRouteMonitoring now peer p raw isWithdrawal pathId = some bs) : Tiles bs := by
  obtain ⟨bgp, hbgp, rfl⟩ := map_eq_some_iff.mp h
  rw [buildBgpUpdate_eq] at hbgp
  cases isWithdrawal with
  | true =>
    cases hbgp
    exact tiles_wrapPeer now peer none (length_withdrawalUpdate p pathId)
      (attrOk_withdrawalUpdate p pathId)
  | false =>
    obtain ⟨hlen, rfl⟩ := of_sendable hbgp
    exact tiles_wrapPeer now peer none hlen (attrOk_announcementUpdate p raw pathId)

lemma tiles_flowspec {isV4 : Bool} {rule raw : Bytes} {isWithdrawal : Bool}
    {pathId : Option PathId} (hr : rule.length ≤ 4095)
    (h : buildFlowspecRouteMonitoring now peer isV4 rule raw isWithdrawal pathId = some bs) :
    Tiles bs := by
  obtain ⟨bgp, hbgp, rfl⟩ := map_eq_some_iff.mp h
  rw [buildFlowspecBgpUpdate_eq hr] at hbgp
  obtain ⟨hlen, rfl⟩ := of_sendable hbgp
  exact tiles_wrapPeer now peer none hlen
    (attrOk_flowspecUpdate isV4 rule raw isWithdrawal pathId)

lemma tiles_aggregated (peer : PeerInfo) {prefixes : List (Prefix × Option PathId)}
    {paBytes : Bytes} {nextHop : Option Bytes} {isV4 : Bool}
    (hpa : ∃ raw, (paBytes, nextHop) = filterPaFromRaw raw)
    (hlen : (buildAggregatedBgpUpdate prefixes paBytes nextHop isV4).length ≤ maxBgpUpdateLen) :
    Tiles (buildAggregatedRouteMonitoring now peer prefixes paBytes nextHop isV4) := by
  obtain ⟨raw, hraw⟩ := hpa
  have heq := buildAggregatedBgpUpdate_eq prefixes raw isV4
  rw [← hraw] at heq
  rw [heq, length_pdu] at hlen
  rw [buildAggregatedRouteMonitoring, heq]
  exact tiles_wrapPeer now peer none hlen (attrOk_aggregatedUpdate prefixes raw isV4)

lemma tiles_flowspecs (peer : PeerInfo) {isV4 : Bool} {raw : Bytes}
    {rules : List (Option PathId × Bytes)} (hr : ∀ r ∈ rules, r.2.length ≤ 4095)
    (hlen : (buildFlowspecsBgpUpdate isV4 (filterPaFromRaw raw).1 rules).length ≤ maxBgpUpdateLen) :
    Tiles (wrapPeer now .routeMonitoring peer none
      (buildFlowspecsBgpUpdate isV4 (filterPaFromRaw raw).1 rules)) := by
  rw [buildFlowspecsBgpUpdate_eq hr] at hlen ⊢
  rw [length_pdu] at hlen
  exact tiles_wrapPeer now peer none hlen (attrOk_flowspecsUpdate isV4 raw rules)

lemma tiles_eor (peer : PeerInfo) {afi : Nat} (h : afi < 65536) (safi : Nat) :
    Tiles (wrapPeer now .routeMonitoring peer none (buildEorMpUnreach afi safi)) := by
  rw [buildEorMpUnreach_eq]
  refine tiles_wrapPeer now peer none ?_ (forall_mem_singleton.mpr ⟨fun _ => ?_, ?_⟩)
  · rw [length_eorUpdate]
    decide
  · show 3 < if extended 0x80#8 then 65536 else 256
    decide
  · exact mpTiled_unreach _ h

lemma tiles_endOfRib {afisafi : AfiSafiType}
    (h : buildEndOfRibMarker now peer afisafi = some bs) : Tiles bs := by
  cases afisafi with
  | ipv4Unicast =>
    cases h
    rw [buildEorIpv4_eq]
    exact tiles_wrapPeer now peer none (by decide) (forall_mem_nil _)
  | ipv6Unicast =>
    cases h
    exact tiles_eor now peer (by decide) 1
  | ipv4FlowSpec | ipv6FlowSpec =>
    cases h
    exact tiles_eor now peer (by decide) 133
  | ipv4Multicast | ipv6Multicast | other afi safi => cases h

/-! ### Peer Up and raw messages -/

lemma length_foldl_offer_le (caps cs : List Cap) :
    (capsBytes (cs.foldl offer caps)).length ≤ max (capsBytes caps).length 255 := by
  induction cs generalizing caps with
  | nil => exact Nat.le_max_left _ _
  | cons c cs ih =>
    refine Nat.le_trans (ih (offer caps c)) ?_
    unfold offer
    split
    · rw [length_capsBytes_append]
      omega
    · exact Nat.le_refl _

variable {gracefulRestart : Bool}

/-- the length of an OPEN is right as long as what is always pushed is not too long -/
lemma exists_pdu_buildBgpOpen (asn : Asn) (bgpId : BgpId) (extras : OpenCapExtras)
    {afisafis : List AfiSafiType} (hk : Known afisafis) {addpathCapValue : Bytes}
    (h : 31 + encodingSize afisafis.length gracefulRestart addpathCapValue < 65536) :
    ∃ body, buildBgpOpen reader asn bgpId extras afisafis gracefulRestart addpathCapValue =
      pdu openType body ∧ headerLen + body.length < 65536 := by
  have hlen := length_foldl_offer_le
    (encodingCaps asn afisafis gracefulRestart addpathCapValue) (offered reader extras)
  rw [length_encodingCaps asn hk, ← pushExtras_eq_foldl_offer] at hlen
  refine ⟨_, writeOpen_eq_pdu asn bgpId _, ?_⟩
  rw [← length_pdu openType, ← writeOpen_eq_pdu, length_writeOpen]
  show 31 + (capsBytes (pushExtras reader _ extras)).length < 65536
  omega

lemma opensOf_wrapPeer (peer : PeerInfo) (timestamp : Option (Nat × Nat))
    {fields sent received rest : Bytes} (hf : fields.length = peerUpFieldsLen)
    (hs : headerLen + sent.length < 65536) (hr : headerLen + received.length < 65536)
    (hrest : rest.length < 2 ^ 31) :
    opensOf (wrapPeer now .peerUp peer timestamp
        (fields ++ (pdu openType sent ++ (pdu openType received ++ rest)))) =
      some ((openType, sent), (openType, received), rest) := by
  have hpph := length_writePerPeerHeader now peer timestamp
  have hlen : (fields ++ (pdu openType sent ++ (pdu openType received ++ rest))).length <
      2 ^ 32 - 48 := by
    simp only [length_append, length_pdu, hf, peerUpFieldsLen]
    omega
  have hdrop : (writePerPeerHeader now peer timestamp ++ (fields ++ (pdu openType sent ++
      (pdu openType received ++ rest)))).drop (bmpPerPeerHeaderLen + peerUpFieldsLen) =
        pdu openType sent ++ (pdu openType received ++ rest) := by
    rw [← append_assoc]
    exact drop_left' (by rw [length_append, hpph, hf])
  have hle : bmpPerPeerHeaderLen + peerUpFieldsLen ≤ (writePerPeerHeader now peer timestamp ++
      (fields ++ (pdu openType sent ++ (pdu openType received ++ rest)))).length := by
    rw [length_append, length_append, hpph, hf]
    omega
  unfold opensOf
  simp only [readBmp_wrapPeer now .peerUp peer timestamp hlen, true_and, if_pos hle, hdrop,
    readPdu_pdu hs, readPdu_pdu hr]
  rfl

lemma length_adminLabelTlv (label : Option Bytes) : (adminLabelTlv label).length < 2 ^ 31 := by
  unfold adminLabelTlv
  split
  · split
    · simp only [writeInfoTlv, be16, length_append, length_cons, length_nil]
      omega
    · decide
  · decide

lemma framed_peerUp {peer : PeerUpInfo}
    (h : 31 + encodingSize (peer.supportedAfisafis reader).length gracefulRestart
      peer.addpathCapValue < 65536) : ∃ sent received,
    opensOf (buildPeerUp reader now peer gracefulRestart) =
        some ((openType, sent), (openType, received), adminLabelTlv peer.adminLabel) ∧
      pdu openType sent = sentOpen reader peer gracefulRestart ∧
      pdu openType received = receivedOpen reader peer gracefulRestart := by
  have hk := known_supportedAfisafis reader peer
  obtain ⟨sent, hs, hslen⟩ := exists_pdu_buildBgpOpen reader peer.peerAsn 0 .default hk h
  obtain ⟨received, hr, hrlen⟩ :=
    exists_pdu_buildBgpOpen reader peer.peerAsn peer.peerBgpId peer.receivedExtras hk h
  have hfields : (addrField peer.localAddr ++ (be16 0 ++ be16 179)).length = peerUpFieldsLen := by
    rw [length_append, length_addrField]
    rfl
  refine ⟨sent, received, ?_, hs.symm, hr.symm⟩
  have hopens := opensOf_wrapPeer now peer.toPeerInfo peer.sessionUpTime hfields hslen hrlen
    (length_adminLabelTlv peer.adminLabel)
  rw [append_assoc, append_assoc] at hopens
  rw [buildPeerUp, sentOpen, receivedOpen, hs, hr]
  exact hopens

lemma framed_raw {body : Bytes} (h : buildRouteMonitoringRawBytes now peer body = some bs) :
    pduOf bs = some (body.drop bmpPerPeerHeaderLen) ∧
      ofBe16 ((body.drop bmpPerPeerHeaderLen).getD 16 0)
        ((body.drop bmpPerPeerHeaderLen).getD 17 0) = (body.drop bmpPerPeerHeaderLen).length := by
  have hraw : ∃ peer', buildRouteMonitoringRaw peer body =
      some (.routeMonitoring peer' (body.drop bmpPerPeerHeaderLen)) ∧
      ofBe16 ((body.drop bmpPerPeerHeaderLen).getD 16 0)
        ((body.drop bmpPerPeerHeaderLen).getD 17 0) = (body.drop bmpPerPeerHeaderLen).length := by
    unfold buildRouteMonitoringRawBytes at h
    unfold buildRouteMonitoringRaw at h ⊢
    split at h
    · rename_i hsome
      obtain ⟨hlong, hsome⟩ := ite_none_left_eq_some.mp hsome
      obtain ⟨hframed, -⟩ := ite_none_left_eq_some.mp hsome
      rw [if_neg hlong, if_neg hframed]
      exact ⟨_, rfl, not_not.mp (not_or.mp (not_or.mp hframed).2).1⟩
    · cases h
  obtain ⟨peer', hmsg, hdeclared⟩ := hraw
  unfold buildRouteMonitoringRawBytes at h
  rw [hmsg] at h
  cases h
  refine ⟨pduOf_wrapPeer now peer' _ ?_, hdeclared⟩
  rw [← hdeclared]
  exact Nat.lt_trans (ofBe16_lt _ _) (by decide)

/-- **every message that a builder returns is framed** -/
theorem framed_of_message (call : BuilderCall) (hcall : call.Admissible reader) {bs : Bytes}
    (h : call.message reader now = some bs) : call.Framed reader bs := by
  cases call with
  | initiation sysName sysDescr =>
    cases h
    exact framed_initiation hcall
  | termination =>
    cases h
    exact ⟨_, readBmp_common rfl (by decide)⟩
  | peerUp peer gracefulRestart =>
    cases h
    exact framed_peerUp reader now hcall
  | peerDown peer =>
    cases h
    exact ⟨_, readBmp_wrapPeer now .peerDown peer none (by decide)⟩
  | statisticsReport peer body =>
    cases h
    exact ⟨_, readBmp_wrapPeer now .statisticsReport peer none hcall⟩
  | route peer p blob isWithdrawal pathId => exact tiles_route now h
  | flowspec peer isV4 rule blob isWithdrawal pathId => exact tiles_flowspec now hcall h
  | aggregated peer prefixes paBytes nextHop isV4 =>
    cases h
    exact tiles_aggregated now peer hcall.1 hcall.2
  | flowspecs peer isV4 paBytes rules =>
    cases h
    obtain ⟨⟨raw, rfl⟩, hr, hlen⟩ := hcall
    exact tiles_flowspecs now peer hr hlen
  | endOfRib peer afisafi => exact tiles_endOfRib now h
  | raw peer body => exact framed_raw now h

end calls

def examplePeer : PeerInfo := ⟨0, 0, 0, .v4 0x0a000001, 65001, 0x0a000001⟩

/-- an ORIGIN, and an MP_REACH_NLRI with the next hop ::1 -/
def exampleAttrs : Bytes :=
  [0, 0, 0x40, 1, 1, 0, 0x80, 14, 21, 0, 2, 1, 16] ++ List.replicate 15 0 ++ [1, 0]

/-- 2000::/3 and 8000::/1 -/
def examplePrefixes : List (Prefix × Option PathId) :=
  [(⟨.v6, [false, false, true], by decide⟩, none), (⟨.v6, [true], by decide⟩, none)]

theorem framed_two_prefixes :
    (filterPaFromRaw exampleAttrs).2 = some (List.replicate 15 0 ++ [1]) ∧
      Tiles (buildAggregatedRouteMonitoring (0, 0) examplePeer examplePrefixes
        (filterPaFromRaw exampleAttrs).1 (filterPaFromRaw exampleAttrs).2 false) :=
  ⟨by decide +kernel, framed_of_message tlvReader (0, 0)
    (.aggregated examplePeer examplePrefixes (filterPaFromRaw exampleAttrs).1
      (filterPaFromRaw exampleAttrs).2 false) ⟨⟨exampleAttrs, rfl⟩, by decide +kernel⟩ rfl⟩

/-- a received UPDATE that says it withdraws five bytes of routes and has none -/
def cutWithdrawals : Bytes :=
  List.replicate 42 0 ++ (marker ++ [0, 23, 2, 0, 5, 0, 0])

/-- what is received is sent on with the lengths it has -/
theorem raw_keeps_inner_lengths :
    ∃ bs, (BuilderCall.raw examplePeer cutWithdrawals).message tlvReader (0, 0) = some bs ∧
      ¬ Tiles bs := by
  refine ⟨_, rfl, ?_⟩
  rintro ⟨bgp, u, hpdu, hu, -⟩
  have heq : pduOf (wrapPeer (0, 0) .routeMonitoring examplePeer (some (0, 0))
      (marker ++ [0, 23, 2, 0, 5, 0, 0])) = some (marker ++ [0, 23, 2, 0, 5, 0, 0]) := by
    decide +kernel
  have hbgp : marker ++ [0, 23, 2, 0, 5, 0, 0] = bgp :=
    some.inj (heq.symm.trans hpdu)
  have hnone : readUpdate (marker ++ [0, 23, 2, 0, 5, 0, 0]) = none := by decide +kernel
  rw [← hbgp, hnone] at hu
  cases hu

end Netom.Builder
