import Netom.BmpOut.Framing

/-!
# The routes of a Route Monitoring message

What a client of bmp-out reads from the UPDATEs it is sent: the routes that are withdrawn and those
that are announced, each with its family, and the attributes they share.  Whether the NLRI of a
family starts with a path id is what the OPENs of its Peer Up have negotiated (`addPath`).

* `readRoutes`  the routes of an UPDATE;
* `readRouteMonitoring`  those of a message, and the peer it is about;
* `readRoutes_announcement`, `readRoutes_withdrawal`, `readRoutes_flowspec`  the builders of one
  route;
* `readRoutes_aggregated`  the builder of several prefixes.
-/

namespace Netom.Builder
open AttrWire BigEndian BgpWire NlriWire List Option

/-! ## reading -/

inductive NlriValue where
  | pfx (bits : List Bool)
  | rule (bytes : Bytes)
  deriving DecidableEq, Repr

structure Nlri where
  family : AfiSafiType
  pathId : Option PathId
  value : NlriValue
  deriving DecidableEq, Repr

structure Routes where
  withdrawn : List Nlri
  announced : List Nlri
  /-- the next hop of the MP_REACH_NLRI, if there is one -/
  mpNextHop : Option Bytes
  /-- all but those of type 14 and 15 -/
  attrs : List Attr
  deriving DecidableEq, Repr

def familyOf (afi : Nat) (safi : Byte) : Option AfiSafiType :=
  if afi = 1 ∧ safi = 1 then some .ipv4Unicast
  else if afi = 2 ∧ safi = 1 then some .ipv6Unicast
  else if afi = 1 ∧ safi = 133 then some .ipv4FlowSpec
  else if afi = 2 ∧ safi = 133 then some .ipv6FlowSpec
  else none

def isFlowSpec (f : AfiSafiType) : Bool := f = .ipv4FlowSpec || f = .ipv6FlowSpec

section read
variable (addPath : AfiSafiType → Bool)

def readPrefixes (f : AfiSafiType) (bs : Bytes) : Option (List Nlri) :=
  (Items.all (nextPrefix (addPath f)) bs).map (List.map fun n => ⟨f, n.pathId, .pfx n.bits⟩)

def readRules (f : AfiSafiType) (bs : Bytes) : Option (List Nlri) :=
  (Items.all (nextFlow (addPath f)) bs).map (List.map fun n => ⟨f, n.pathId, .rule n.rule⟩)

def readNlri (f : AfiSafiType) (bs : Bytes) : Option (List Nlri) :=
  if isFlowSpec f then readRules addPath f bs else readPrefixes addPath f bs

/-- the next hop and the routes of the first MP_REACH_NLRI -/
def readReach (as : List Attr) : Option (Option Bytes × List Nlri) :=
  match as.find? (·.typeCode = 14) with
  | none => some (none, [])
  | some a => (readMpReach a.value).bind fun m =>
    ((familyOf m.afi m.safi).bind (readNlri addPath · m.nlri)).map (some m.nextHop, ·)

/-- the routes of the first MP_UNREACH_NLRI -/
def readUnreach (as : List Attr) : Option (List Nlri) :=
  match as.find? (·.typeCode = 15) with
  | none => some []
  | some a =>
    (readMpUnreach a.value).bind fun m => (familyOf m.afi m.safi).bind (readNlri addPath · m.nlri)

def readRoutes (u : BgpUpdate) : Option Routes :=
  match readNlri addPath .ipv4Unicast u.withdrawn, readUnreach addPath u.attrs,
    readNlri addPath .ipv4Unicast u.nlri, readReach addPath u.attrs with
  | some withdrawn, some unreach, some announced, some reach =>
    some ⟨withdrawn ++ unreach, announced ++ reach.2, reach.1, u.attrs.filter isKept⟩
  | _, _, _, _ => none

/-- all of a per-peer header but its time: type, flags, distinguisher, address, AS and BGP id -/
def peerFieldsLen : Nat := 34

def peerFields (peer : PeerInfo) : Bytes :=
  [BitVec.ofNat 8 peer.peerType, peer.peerFlags] ++ beBytes 8 peer.peerDistinguisher.toNat ++
    addrField peer.peerAddress ++ be32 peer.peerAsn ++ be32 peer.peerBgpId.toNat

def readRouteMonitoring (bs : Bytes) : Option (Bytes × Routes) :=
  match pduOf bs with
  | some bgp =>
    ((readUpdate bgp).bind (readRoutes addPath)).map fun routes =>
      ((bs.drop bmpCommonHeaderLen).take peerFieldsLen, routes)
  | none => none

end read

/-! ## the parts of an UPDATE -/

section parts
variable {addPath : AfiSafiType → Bool}

lemma length_bits_lt (p : Prefix) : p.bits.length < 256 := by
  have hw : p.family.width ≤ 128 := by
    cases p.family with
    | v4 | v6 => decide
  have hle := p.len_le
  omega

def unicastOf (isV4 : Bool) : AfiSafiType := if isV4 then .ipv4Unicast else .ipv6Unicast
def flowSpecOf (isV4 : Bool) : AfiSafiType := if isV4 then .ipv4FlowSpec else .ipv6FlowSpec

def prefixNlri (isV4 : Bool) (item : Prefix × Option PathId) : Nlri :=
  ⟨unicastOf isV4, item.2, .pfx item.1.bits⟩

def ruleNlri (isV4 : Bool) (item : Option PathId × Bytes) : Nlri :=
  ⟨flowSpecOf isV4, item.1, .rule item.2⟩

lemma readNlri_nil (f : AfiSafiType) : readNlri addPath f [] = some [] := by
  unfold readNlri
  split
  · rfl
  · rfl

lemma familyOf_unicast (isV4 : Bool) : familyOf (afiOf isV4) 1 = some (unicastOf isV4) := by
  cases isV4 with
  | true | false => rfl

lemma familyOf_flowSpec (isV4 : Bool) : familyOf (afiOf isV4) 133 = some (flowSpecOf isV4) := by
  cases isV4 with
  | true | false => rfl

lemma readNlri_prefixes {isV4 : Bool} {items : List (Prefix × Option PathId)}
    (h : ∀ i ∈ items, i.2.isSome = addPath (unicastOf isV4)) :
    readNlri addPath (unicastOf isV4) (prefixesNlri items) =
      some (items.map (prefixNlri isV4)) := by
  have hread : ∀ i ∈ items, Items.Reads (nextPrefix (addPath (unicastOf isV4))) PrefixNlri.encode
      ⟨i.2, i.1.bits⟩ := by
    intro i hi
    rw [← h i hi]
    exact reads_prefix (length_bits_lt i.1)
  have hfs : isFlowSpec (unicastOf isV4) = false := by
    cases isV4 with
    | true | false => rfl
  rw [readNlri, hfs, if_neg Bool.false_ne_true, readPrefixes]
  show (Items.all _ (items.flatMap fun i => (PrefixNlri.mk i.2 i.1.bits).encode)).map _ = _
  rw [Items.all_flatMap_map hread, Option.map_some, List.map_map]
  rfl

lemma readNlri_rules {isV4 : Bool} {items : List (Option PathId × Bytes)}
    (h : ∀ i ∈ items, i.1.isSome = addPath (flowSpecOf isV4)) (hl : ∀ i ∈ items, i.2.length ≤ 4095) :
    readNlri addPath (flowSpecOf isV4) (items.flatMap fun i => (FlowNlri.mk i.1 i.2).encode) =
      some (items.map (ruleNlri isV4)) := by
  have hread : ∀ i ∈ items, Items.Reads (nextFlow (addPath (flowSpecOf isV4))) FlowNlri.encode
      ⟨i.1, i.2⟩ := by
    intro i hi
    rw [← h i hi]
    exact reads_flow (Nat.lt_succ_of_le (hl i hi))
  have hfs : isFlowSpec (flowSpecOf isV4) = true := by
    cases isV4 with
    | true | false => rfl
  rw [readNlri, hfs, if_pos rfl, readRules, Items.all_flatMap_map hread, Option.map_some,
    List.map_map]
  rfl

lemma find_keptAttrs (raw : Bytes) {t : Byte} (ht : t = 14 ∨ t = 15) (as : List Attr) :
    (keptAttrs raw ++ as).find? (·.typeCode = t) = as.find? (·.typeCode = t) := by
  rw [find?_append]
  have hnone : (keptAttrs raw).find? (·.typeCode = t) = none := by
    refine find?_eq_none.mpr fun a ha => ?_
    have hk := isKept_of_mem_keptAttrs ha
    simp only [isKept, ne_eq, decide_not, Bool.and_eq_true, Bool.not_eq_eq_eq_not, Bool.not_true,
      decide_eq_false_iff_not] at hk
    rw [decide_eq_true_eq]
    rintro rfl
    exact ht.elim hk.1 hk.2
  rw [hnone, none_or]

lemma filter_keptAttrs (raw : Bytes) : (keptAttrs raw).filter isKept = keptAttrs raw :=
  filter_eq_self.mpr fun _ => isKept_of_mem_keptAttrs

/-- an UPDATE whose routes are those of its last attribute, an MP_REACH_NLRI -/
lemma readRoutes_reach {raw : Bytes} {flags : Byte} {m : MpReach} (ha : m.afi < 65536)
    (hn : m.nextHop.length < 256) {f : AfiSafiType} (hf : familyOf m.afi m.safi = some f)
    {nlri : List Nlri} (hr : readNlri addPath f m.nlri = some nlri) :
    readRoutes addPath ⟨[], keptAttrs raw ++ [⟨flags, 14, m.encode⟩], []⟩ =
      some ⟨[], nlri, some m.nextHop, keptAttrs raw⟩ := by
  have hreach : readReach addPath (keptAttrs raw ++ [⟨flags, 14, m.encode⟩]) =
      some (some m.nextHop, nlri) := by
    rw [readReach, find_keptAttrs raw (.inl rfl)]
    show (readMpReach m.encode).bind _ = _
    rw [readMpReach_encode ha hn, bind_some, hf, bind_some, hr]
    rfl
  have hunreach : readUnreach addPath (keptAttrs raw ++ [⟨flags, 14, m.encode⟩]) = some [] := by
    rw [readUnreach, find_keptAttrs raw (.inr rfl)]
    rfl
  have hkept : (keptAttrs raw ++ [Attr.mk flags 14 m.encode]).filter isKept = keptAttrs raw := by
    rw [filter_append, filter_keptAttrs]
    exact append_nil _
  unfold readRoutes
  simp only [readNlri_nil, hreach, hunreach, hkept]
  rfl

lemma readRoutes_nlri {raw bs : Bytes} {nlri : List Nlri}
    (hr : readNlri addPath .ipv4Unicast bs = some nlri) :
    readRoutes addPath ⟨[], keptAttrs raw, bs⟩ = some ⟨[], nlri, none, keptAttrs raw⟩ := by
  have hfind : ∀ t : Byte, t = 14 ∨ t = 15 → (keptAttrs raw).find? (·.typeCode = t) = none := by
    intro t ht
    have h := find_keptAttrs raw ht []
    rw [append_nil] at h
    exact h
  have hreach : readReach addPath (keptAttrs raw) = some (none, []) := by
    rw [readReach, hfind 14 (.inl rfl)]
  have hunreach : readUnreach addPath (keptAttrs raw) = some [] := by
    rw [readUnreach, hfind 15 (.inr rfl)]
  unfold readRoutes
  simp only [readNlri_nil, hreach, hunreach, hr, filter_keptAttrs, append_nil]

end parts

/-! ## the UPDATEs of the builders -/

section builders
variable {addPath : AfiSafiType → Bool}

/-- the next hop of an MP_REACH_NLRI around prefixes; one of IPv4 is in its own attribute -/
def reachHop (isV4 : Bool) (raw : Bytes) : Option Bytes :=
  if isV4 then none else some (nextHopV6 raw)

/-- **several prefixes** -/
theorem readRoutes_aggregated {isV4 : Bool} {items : List (Prefix × Option PathId)}
    (h : ∀ i ∈ items, i.2.isSome = addPath (unicastOf isV4)) (raw : Bytes) :
    readRoutes addPath (aggregatedUpdate items raw isV4) =
      some ⟨[], items.map (prefixNlri isV4), reachHop isV4 raw, keptAttrs raw⟩ := by
  have hr := readNlri_prefixes h
  unfold aggregatedUpdate
  cases isV4 with
  | true => exact readRoutes_nlri hr
  | false =>
    exact readRoutes_reach (show (2 : Nat) < 65536 by decide) (length_nextHopV6 raw)
      (familyOf_unicast false) hr

lemma prefixesNlri_singleton (item : Prefix × Option PathId) :
    prefixesNlri [item] = encodePrefixNlri item.1 item.2 := flatMap_singleton _ _

variable {pathId : Option PathId}

/-- **one prefix** -/
theorem readRoutes_announcement (p : Prefix) (raw : Bytes)
    (h : pathId.isSome = addPath (unicastOf (Prefix.isV4 p))) :
    readRoutes addPath (announcementUpdate p raw pathId) =
      some ⟨[], [prefixNlri (Prefix.isV4 p) (p, pathId)], reachHop (Prefix.isV4 p) raw,
        keptAttrs raw⟩ := by
  have hr := readNlri_prefixes (forall_mem_singleton (a := (p, pathId)).mpr h)
  rw [prefixesNlri_singleton] at hr
  unfold announcementUpdate
  cases hv : Prefix.isV4 p with
  | true =>
    rw [hv] at hr
    exact readRoutes_nlri hr
  | false =>
    rw [hv] at hr
    exact readRoutes_reach (show (2 : Nat) < 65536 by decide) (length_nextHopV6 raw)
      (familyOf_unicast false) hr

lemma readNlri_rule {isV4 : Bool} {rule : Bytes} (hl : rule.length ≤ 4095)
    (h : pathId.isSome = addPath (flowSpecOf isV4)) :
    readNlri addPath (flowSpecOf isV4) (FlowNlri.mk pathId rule).encode =
      some [ruleNlri isV4 (pathId, rule)] := by
  have hr := readNlri_rules (forall_mem_singleton (a := (pathId, rule)).mpr h)
    (forall_mem_singleton.mpr hl)
  rw [flatMap_singleton] at hr
  exact hr

/-- **one rule**, which has no next hop -/
theorem readRoutes_flowspec {rule : Bytes} (hl : rule.length ≤ 4095) (isV4 : Bool) (raw : Bytes)
    (h : pathId.isSome = addPath (flowSpecOf isV4)) :
    readRoutes addPath (flowspecUpdate isV4 rule raw false pathId) =
      some ⟨[], [ruleNlri isV4 (pathId, rule)], some [], keptAttrs raw⟩ :=
  readRoutes_reach (m := ⟨afiOf isV4, 133, [], _⟩) (afiOf_lt isV4) (show 0 < 256 by decide)
    (familyOf_flowSpec isV4) (readNlri_rule hl h)

lemma readRoutes_unreach {flags : Byte} {m : MpUnreach} (ha : m.afi < 65536) {f : AfiSafiType}
    (hf : familyOf m.afi m.safi = some f) {nlri : List Nlri}
    (hr : readNlri addPath f m.nlri = some nlri) :
    readRoutes addPath ⟨[], [⟨flags, 15, m.encode⟩], []⟩ = some ⟨nlri, [], none, []⟩ := by
  have hunreach : readUnreach addPath [⟨flags, 15, m.encode⟩] = some nlri := by
    have hfind : [Attr.mk flags 15 m.encode].find? (·.typeCode = 15) =
        some ⟨flags, 15, m.encode⟩ := find?_cons_of_pos (decide_eq_true rfl)
    rw [readUnreach, hfind]
    show (readMpUnreach m.encode).bind _ = _
    rw [readMpUnreach_encode ha, bind_some, hf, bind_some, hr]
  have hreach : readReach addPath [⟨flags, 15, m.encode⟩] = some (none, []) := rfl
  unfold readRoutes
  simp only [readNlri_nil, hreach, hunreach]
  rfl

/-- **one prefix that is withdrawn** -/
theorem readRoutes_withdrawal (p : Prefix)
    (h : pathId.isSome = addPath (unicastOf (Prefix.isV4 p))) :
    readRoutes addPath (withdrawalUpdate p pathId) =
      some ⟨[prefixNlri (Prefix.isV4 p) (p, pathId)], [], none, []⟩ := by
  have hr := readNlri_prefixes (forall_mem_singleton (a := (p, pathId)).mpr h)
  rw [prefixesNlri_singleton] at hr
  unfold withdrawalUpdate
  cases hv : Prefix.isV4 p with
  | true =>
    rw [hv] at hr
    show readRoutes addPath ⟨encodePrefixNlri p pathId, [], []⟩ = _
    unfold readRoutes
    have hr' : readNlri addPath .ipv4Unicast (encodePrefixNlri p pathId) = _ := hr
    simp only [hr', readNlri_nil]
    rfl
  | false =>
    rw [hv] at hr
    exact readRoutes_unreach (show (2 : Nat) < 65536 by decide) (familyOf_unicast false) hr

/-- **one rule that is withdrawn** -/
theorem readRoutes_flowspecWithdrawal {rule : Bytes} (hl : rule.length ≤ 4095) (isV4 : Bool)
    (raw : Bytes) (h : pathId.isSome = addPath (flowSpecOf isV4)) :
    readRoutes addPath (flowspecUpdate isV4 rule raw true pathId) =
      some ⟨[ruleNlri isV4 (pathId, rule)], [], none, []⟩ :=
  readRoutes_unreach (afiOf_lt isV4) (familyOf_flowSpec isV4) (readNlri_rule hl h)

end builders

/-! ## messages -/

lemma writePerPeerHeader_eq (now : Nat × Nat) (peer : PeerInfo) (timestamp : Option (Nat × Nat)) :
    writePerPeerHeader now peer timestamp = peerFields peer ++
      (be32 (timestamp.getD now).1 ++ be32 (timestamp.getD now).2) := by
  simp only [writePerPeerHeader, peerFields, append_assoc]

lemma length_peerFields (peer : PeerInfo) : (peerFields peer).length = peerFieldsLen := by
  simp only [peerFields, length_append, length_be32, length_beBytes, length_addrField,
    length_cons, length_nil, peerFieldsLen]

/-- **a message is read as its UPDATE, under the peer of its header** -/
theorem readRouteMonitoring_wrapPeer {addPath : AfiSafiType → Bool} (now : Nat × Nat)
    (peer : PeerInfo) (timestamp : Option (Nat × Nat)) {u : BgpUpdate} (hu : u.Fits)
    {routes : Routes} (hr : readRoutes addPath u = some routes) :
    readRouteMonitoring addPath (wrapPeer now .routeMonitoring peer timestamp
      (pdu updateType u.encode)) = some (peerFields peer, routes) := by
  have hlen : (pdu updateType u.encode).length < 2 ^ 32 - 48 := by
    have hall := hu.all
    rw [length_pdu]
    omega
  have hpeer : ((wrapPeer now .routeMonitoring peer timestamp (pdu updateType u.encode)).drop
      bmpCommonHeaderLen).take peerFieldsLen = peerFields peer := by
    have hcommon : ∀ n, (writeCommonHeader .routeMonitoring n).length = bmpCommonHeaderLen :=
      fun n => rfl
    rw [wrapPeer, drop_left' (hcommon _), writePerPeerHeader_eq, append_assoc]
    exact take_left' (length_peerFields peer)
  unfold readRouteMonitoring
  rw [pduOf_wrapPeer now peer timestamp hlen]
  simp only [readUpdate_pdu hu, bind_some, hr, hpeer, map_some]

end Netom.Builder
