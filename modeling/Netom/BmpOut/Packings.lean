import Netom.BmpOut.Aggregator

/-!
# What the groups of the aggregator are sent as

The UPDATE of a group is as long as its counters say, and a client reads from it the items of the
group under the attributes of the group.

* `Meaning`  what is asked of a kind of groups;
* `prefixMeaning`, `ruleMeaning`  both kinds have it;
* `group_reads_alike`  **the message of a group says what the messages of its routes say**;
* `rules_read_alike`  **and so does the message of a group of rules**;
* `routeMonitoring_reads_back`  **and that of a route says that route**.
-/

namespace Netom.Builder
open AttrWire BigEndian BgpWire NlriWire List

structure Announces (addPath : AfiSafiType → Bool) (u : BgpUpdate) (nlri : List Nlri)
    (nextHop : Option Bytes) (attrs : List Attr) : Prop where
  fits : u.Fits
  read : readRoutes addPath u = some ⟨[], nlri, nextHop, attrs⟩

structure Meaning {ι : Type} (k : Packing ι) where
  family : Bool → AfiSafiType
  nlri : Bool → ι → Nlri
  nextHop : Bool → Bytes → Option Bytes
  /-- what the callers promise of an item -/
  Valid : Bool → ι → Prop
  updateOfAll : Bool → Bytes → List ι → BgpUpdate
  updateOfOne : Bool → Bytes → ι → BgpUpdate
  buildAll_eq : ∀ isV4 raw items, (∀ i ∈ items, Valid isV4 i) →
    k.buildAll isV4 raw items = pdu updateType (updateOfAll isV4 raw items).encode
  length_updateOfAll : ∀ isV4 raw items, headerLen + (updateOfAll isV4 raw items).encode.length =
    k.baseLen isV4 raw + (items.map k.nlriLen).sum
  announces_all : ∀ isV4 raw items addPath,
    (∀ i ∈ items, Valid isV4 i ∧ k.hasPathId i = addPath (family isV4)) →
    headerLen + (updateOfAll isV4 raw items).encode.length ≤ maxBgpUpdateLen →
    Announces addPath (updateOfAll isV4 raw items) (items.map (nlri isV4)) (nextHop isV4 raw)
      (keptAttrs raw)
  buildOne_eq : ∀ isV4 raw item, Valid isV4 item →
    k.buildOne isV4 raw item = sendable (updateOfOne isV4 raw item)
  /-- alone, an item is at most as long as in a group -/
  length_updateOfOne : ∀ isV4 raw item, Valid isV4 item →
    headerLen + (updateOfOne isV4 raw item).encode.length ≤ k.baseLen isV4 raw + k.nlriLen item
  announces_one : ∀ isV4 raw item addPath, Valid isV4 item →
    k.hasPathId item = addPath (family isV4) →
    headerLen + (updateOfOne isV4 raw item).encode.length ≤ maxBgpUpdateLen →
    Announces addPath (updateOfOne isV4 raw item) [nlri isV4 item] (nextHop isV4 raw) (keptAttrs raw)

/-- what is read from the UPDATE of a group is what is read from those of its items -/
lemma Meaning.reads_alike {ι : Type} {k : Packing ι} (μ : Meaning k) (now now' : Nat × Nat)
    (peer : PeerInfo) (addPath : AfiSafiType → Bool) {isV4 : Bool} {raw : Bytes} {items : List ι}
    (h : ∀ i ∈ items, μ.Valid isV4 i ∧ k.hasPathId i = addPath (μ.family isV4))
    (hlen : k.baseLen isV4 raw + (items.map k.nlriLen).sum ≤ maxBgpUpdateLen) :
    readRouteMonitoring addPath
        (wrapPeer now .routeMonitoring peer none (k.buildAll isV4 raw items)) =
      some (peerFields peer, ⟨[], items.map (μ.nlri isV4), μ.nextHop isV4 raw, keptAttrs raw⟩) ∧
    ∀ i ∈ items, ∃ bgp, k.buildOne isV4 raw i = some bgp ∧
      readRouteMonitoring addPath (wrapPeer now' .routeMonitoring peer none bgp) =
        some (peerFields peer, ⟨[], [μ.nlri isV4 i], μ.nextHop isV4 raw, keptAttrs raw⟩) := by
  constructor
  · have hall := μ.announces_all isV4 raw items addPath h
      ((μ.length_updateOfAll isV4 raw items).trans_le hlen)
    rw [μ.buildAll_eq isV4 raw items fun i hi => (h i hi).1]
    exact readRouteMonitoring_wrapPeer now peer none hall.fits hall.read
  · intro i hi
    obtain ⟨hvalid, hpath⟩ := h i hi
    have hle : headerLen + (μ.updateOfOne isV4 raw i).encode.length ≤ maxBgpUpdateLen :=
      (μ.length_updateOfOne isV4 raw i hvalid).trans
        ((Nat.add_le_add_left (le_sum_of_mem (mem_map_of_mem hi)) _).trans hlen)
    have hone := μ.announces_one isV4 raw i addPath hvalid hpath hle
    exact ⟨_, (μ.buildOne_eq isV4 raw i hvalid).trans (if_neg (Nat.not_lt.mpr hle)),
      readRouteMonitoring_wrapPeer now' peer none hone.fits hone.read⟩

/-! ## prefixes -/

lemma length_encodePrefixNlri_eq (p : Prefix) (pathId : Option PathId) :
    (encodePrefixNlri p pathId).length = nlriEncodedLen p pathId.isSome := by
  have hlen : (PrefixNlri.mk pathId p.bits).encode.length =
    (if pathId.isSome then 4 else 0) + 1 + (p.bits.length + 7) / 8 := PrefixNlri.length_encode _
  refine hlen.trans ?_
  rw [nlriEncodedLen, Prefix.len]
  cases pathId with
  | none =>
    simp only [Option.isSome_none, Bool.toNat_false, Bool.false_eq_true, if_false]
    omega
  | some id =>
    simp only [Option.isSome_some, Bool.toNat_true, if_true]
    omega

variable (isV4 : Bool) (raw : Bytes) (items : List (Prefix × Option PathId))

lemma length_prefixesNlri : (prefixesNlri items).length = (items.map aggGroup.nlriLen).sum := by
  induction items with
  | nil => rfl
  | cons item items ih =>
    rw [map_cons, sum_cons, ← ih]
    show (encodePrefixNlri item.1 item.2 ++ prefixesNlri items).length = _
    rw [length_append, length_encodePrefixNlri_eq]
    rfl

lemma nhLen_eq : ((storedNextHop raw).map List.length).getD 16 = (nextHopV6 raw).length := by
  unfold nextHopV6
  cases storedNextHop raw with
  | none | some nh => rfl

lemma length_kept_append (a : Attr) :
    headerLen + (BgpUpdate.mk [] (keptAttrs raw ++ [a]) []).encode.length =
      19 + 2 + 2 + ((keptAttrs raw).flatMap Attr.encode).length + a.encode.length := by
  rw [BgpUpdate.length_encode, flatMap_encode_append, length_append]
  simp only [headerLen, length_nil]
  omega

lemma length_aggregatedUpdate : headerLen + (aggregatedUpdate items raw isV4).encode.length =
      aggGroup.baseLen isV4 raw + (items.map aggGroup.nlriLen).sum := by
  rw [← length_prefixesNlri]
  simp only [aggGroup, filterPaFromRaw_eq, nhLen_eq]
  unfold aggregatedUpdate
  cases isV4 with
  | true =>
    rw [if_pos rfl, if_pos rfl, BgpUpdate.length_encode]
    simp only [headerLen, length_nil]
    omega
  | false =>
    have hvalue := MpReach.length_encode ⟨2, 1, nextHopV6 raw, prefixesNlri items⟩
    rw [if_neg Bool.false_ne_true, if_neg Bool.false_ne_true, length_kept_append]
    rw [extendedReach, length_extended, hvalue]
    simp only
    omega

lemma buildAll_aggGroup :
    aggGroup.buildAll isV4 raw items = pdu updateType (aggregatedUpdate items raw isV4).encode := by
  rw [← buildAggregatedBgpUpdate_eq]
  cases isV4 with
  | true => rfl
  | false =>
    simp only [aggGroup, filterPaFromRaw_eq]
    cases storedNextHop raw with
    | none | some nh => rfl

lemma length_reachAttr_le (safi : Byte) (nextHop nlri : Bytes) :
    (reachAttr isV4 safi nextHop nlri).encode.length ≤ 4 + (5 + nextHop.length + nlri.length) := by
  have hvalue : (MpReach.mk (afiOf isV4) safi nextHop nlri).encode.length =
      5 + nextHop.length + nlri.length := MpReach.length_encode _
  rw [reachAttr, ← encode_mpAttr 14 rfl, length_append, hvalue]
  have hheader : ∀ n, (writeMpHeader 14 n).length ≤ 4 := by
    intro n
    unfold writeMpHeader
    split
    · exact Nat.le_refl 4
    · exact Nat.le_succ 3
  exact Nat.add_le_add_right (hheader _) _

lemma length_announcementUpdate (p : Prefix) (raw : Bytes) (pathId : Option PathId) :
    headerLen + (announcementUpdate p raw pathId).encode.length ≤
      aggGroup.baseLen (Prefix.isV4 p) raw + aggGroup.nlriLen (p, pathId) := by
  have hn : (encodePrefixNlri p pathId).length = aggGroup.nlriLen (p, pathId) :=
    length_encodePrefixNlri_eq p pathId
  rw [← hn]
  simp only [aggGroup, filterPaFromRaw_eq, nhLen_eq]
  unfold announcementUpdate
  cases Prefix.isV4 p with
  | true =>
    rw [if_pos rfl, if_pos rfl, BgpUpdate.length_encode]
    simp only [headerLen, length_nil]
    omega
  | false =>
    have hle := length_reachAttr_le false 1 (nextHopV6 raw) (encodePrefixNlri p pathId)
    rw [if_neg Bool.false_ne_true, if_neg Bool.false_ne_true, length_kept_append]
    omega

def prefixMeaning : Meaning aggGroup where
  family := unicastOf
  nlri := prefixNlri
  nextHop := reachHop
  Valid isV4 item := Prefix.isV4 item.1 = isV4
  updateOfAll isV4 raw items := aggregatedUpdate items raw isV4
  updateOfOne _ raw item := announcementUpdate item.1 raw item.2
  buildAll_eq isV4 raw items _ := buildAll_aggGroup isV4 raw items
  length_updateOfAll := length_aggregatedUpdate
  announces_all isV4 raw items addPath h hlen :=
    ⟨fits_of_attrOk hlen (attrOk_aggregatedUpdate items raw isV4),
      readRoutes_aggregated (fun i hi => (h i hi).2) raw⟩
  buildOne_eq _ raw item _ := buildBgpUpdate_announce item.1 raw item.2
  length_updateOfOne isV4 raw item h := by
    rw [← h]
    exact length_announcementUpdate item.1 raw item.2
  announces_one isV4 raw item addPath h hpath hlen := by
    rw [← h] at hpath ⊢
    exact ⟨fits_of_attrOk hlen (attrOk_announcementUpdate item.1 raw item.2),
      readRoutes_announcement item.1 raw hpath⟩

/-! ## a group, or its routes one by one -/

/-- a route with the bytes of its attributes -/
inductive RawRoute where
  | route (multicast : Bool) (p : Prefix) (raw : Bytes)
  | flowSpec (isV4 : Bool) (rule raw : Bytes)

/-- a multicast route is sent as a unicast one -/
def buildRouteMonitoringFromRouteBytes (now : Nat × Nat) (peer : PeerInfo) (route : RawRoute)
    (isWithdrawal : Bool) (pathId : Option PathId) : Option Bytes :=
  match route with
  | .route _ p raw => buildRouteMonitoring now peer p raw isWithdrawal pathId
  | .flowSpec isV4 rule raw =>
    buildFlowspecRouteMonitoring now peer isV4 rule raw isWithdrawal pathId

/-- a route of a group: its prefix and path id, its own two bytes before the attributes, and whether
it is a multicast route -/
structure GroupRoute where
  multicast : Bool
  item : Prefix × Option PathId
  raw : Bytes

/-- the route has the family, the path id mode and the attributes of the group -/
structure GroupRoute.Shares (isV4 hasPathId : Bool) (raw : Bytes) (r : GroupRoute) : Prop where
  isV4 : Prefix.isV4 r.item.1 = isV4
  hasPathId : r.item.2.isSome = hasPathId
  blob : blobOf r.raw = blobOf raw

lemma announcementUpdate_of_blob {raw raw' : Bytes} (h : blobOf raw = blobOf raw') (p : Prefix)
    (pathId : Option PathId) : announcementUpdate p raw pathId = announcementUpdate p raw' pathId := by
  unfold blobOf at h
  simp only [announcementUpdate, nextHopV6, keptAttrs, storedNextHop, h]

/-- **a client reads from the message of a group what it reads from the messages of its routes** -/
theorem group_reads_alike (now now' : Nat × Nat) (peer : PeerInfo) (isV4 : Bool) (raw : Bytes)
    (addPath : AfiSafiType → Bool) (routes : List GroupRoute)
    (h : ∀ r ∈ routes, r.Shares isV4 (addPath (unicastOf isV4)) raw)
    (hlen : aggGroup.baseLen isV4 raw + ((routes.map (·.item)).map aggGroup.nlriLen).sum ≤
      maxBgpUpdateLen) :
    ∃ nextHop attrs,
      readRouteMonitoring addPath (buildAggregatedRouteMonitoring now peer (routes.map (·.item))
        (filterPaFromRaw raw).1 (if isV4 then none
          else (filterPaFromRaw raw).2.or (some (List.replicate 16 0))) isV4) =
        some (peerFields peer,
          ⟨[], routes.map fun r => prefixNlri isV4 r.item, nextHop, attrs⟩) ∧
      ∀ r ∈ routes, ∃ msg,
        buildRouteMonitoringFromRouteBytes now' peer (.route r.multicast r.item.1 r.raw) false
          r.item.2 = some msg ∧
        readRouteMonitoring addPath msg =
          some (peerFields peer, ⟨[], [prefixNlri isV4 r.item], nextHop, attrs⟩) := by
  have hitems : ∀ i ∈ routes.map (·.item),
      prefixMeaning.Valid isV4 i ∧ aggGroup.hasPathId i = addPath (unicastOf isV4) :=
    forall_mem_map.mpr fun r hr => ⟨(h r hr).isV4, (h r hr).hasPathId⟩
  obtain ⟨hall, hone⟩ := prefixMeaning.reads_alike now now' peer addPath hitems hlen
  rw [map_map] at hall
  refine ⟨reachHop isV4 raw, keptAttrs raw, hall, fun r hr => ?_⟩
  obtain ⟨bgp, hbgp, hread⟩ := hone r.item (mem_map_of_mem hr)
  refine ⟨_, ?_, hread⟩
  have hraw : buildBgpUpdate r.item.1 r.raw false r.item.2 = some bgp := by
    rw [buildBgpUpdate_announce, announcementUpdate_of_blob (h r hr).blob, ← buildBgpUpdate_announce]
    exact hbgp
  exact congrArg (Option.map _) hraw

/-- a unicast and a multicast route with path ids, under one ORIGIN -/
theorem group_reads_alike_two : ∃ nextHop attrs,
    readRouteMonitoring (fun _ => true) (buildAggregatedRouteMonitoring (0, 0) examplePeer
      [(⟨.v4, [true], by decide⟩, some 1), (⟨.v4, [], by decide⟩, some 2)] [0x40, 1, 1, 0] none true) =
      some (peerFields examplePeer, ⟨[], [⟨.ipv4Unicast, some 1, .pfx [true]⟩,
        ⟨.ipv4Unicast, some 2, .pfx []⟩], nextHop, attrs⟩) := by
  obtain ⟨nextHop, attrs, h, -⟩ := group_reads_alike (0, 0) (0, 0) examplePeer true
    [0, 0, 0x40, 1, 1, 0] (fun _ => true)
    [⟨false, (⟨.v4, [true], by decide⟩, some 1), [0, 0, 0x40, 1, 1, 0]⟩,
      ⟨true, (⟨.v4, [], by decide⟩, some 2), [3, 1, 0x40, 1, 1, 0]⟩]
    (by
      intro r hr
      rcases mem_pair.mp hr with rfl | rfl
      · exact ⟨rfl, rfl, rfl⟩
      · exact ⟨rfl, rfl, rfl⟩)
    (by decide +kernel)
  exact ⟨nextHop, attrs, h⟩

/-! ## rules -/

lemma length_rulesNlri (items : List (Option PathId × Bytes)) :
    (rulesNlri items).length = (items.map fsAggGroup.nlriLen).sum := by
  induction items with
  | nil => rfl
  | cons item items ih =>
    rw [map_cons, sum_cons, ← ih]
    show ((FlowNlri.mk item.1 item.2).encode ++ rulesNlri items).length = _
    rw [length_append, ← flowspecNlriEncodedLen_eq]
    rfl

lemma length_flowspecsUpdate (items : List (Option PathId × Bytes)) :
    headerLen + (flowspecsUpdate isV4 raw items).encode.length =
      fsAggGroup.baseLen isV4 raw + (items.map fsAggGroup.nlriLen).sum := by
  have hvalue := MpReach.length_encode ⟨afiOf isV4, 133, [], rulesNlri items⟩
  rw [← length_rulesNlri, flowspecsUpdate, length_kept_append, length_extended, hvalue]
  simp only [fsAggGroup, filterPaFromRaw_eq, length_nil]
  omega

lemma length_flowspecUpdate (item : Option PathId × Bytes) :
    headerLen + (flowspecUpdate isV4 item.2 raw false item.1).encode.length ≤
      fsAggGroup.baseLen isV4 raw + fsAggGroup.nlriLen item := by
  have hn : (FlowNlri.mk item.1 item.2).encode.length = fsAggGroup.nlriLen item :=
    (flowspecNlriEncodedLen_eq item.2 item.1).symm
  have hle := length_reachAttr_le isV4 133 [] (FlowNlri.mk item.1 item.2).encode
  rw [← hn, flowspecUpdate, if_neg Bool.false_ne_true, length_kept_append]
  simp only [fsAggGroup, filterPaFromRaw_eq]
  simp only [length_nil] at hle
  omega

lemma buildAll_fsAggGroup (items : List (Option PathId × Bytes)) : fsAggGroup.buildAll isV4 raw items =
    buildFlowspecsBgpUpdate isV4 (filterPaFromRaw raw).1 items := by rw [fsAggGroup]

lemma buildOne_fsAggGroup (item : Option PathId × Bytes) : fsAggGroup.buildOne isV4 raw item =
    buildFlowspecBgpUpdate isV4 item.2 raw false item.1 := by rw [fsAggGroup]

/-- groups of rules, each of them as long as its header can say -/
def ruleMeaning : Meaning fsAggGroup where
  family := flowSpecOf
  nlri := ruleNlri
  nextHop _ _ := some []
  Valid _ item := item.2.length ≤ 4095
  updateOfAll := flowspecsUpdate
  updateOfOne isV4 raw item := flowspecUpdate isV4 item.2 raw false item.1
  buildAll_eq _ _ _ h := buildFlowspecsBgpUpdate_eq h
  length_updateOfAll := length_flowspecsUpdate
  announces_all isV4 raw items addPath h hlen := by
    refine ⟨fits_of_attrOk hlen (attrOk_flowspecsUpdate isV4 raw items),
      readRoutes_reach (afiOf_lt isV4) ?_ (familyOf_flowSpec isV4)
        (readNlri_rules (fun i hi => (h i hi).2) fun i hi => (h i hi).1)⟩
    show 0 < 256
    decide
  buildOne_eq isV4 raw item h := by
    rw [buildOne_fsAggGroup]
    exact buildFlowspecBgpUpdate_eq h isV4 raw false item.1
  length_updateOfOne isV4 raw item _ := length_flowspecUpdate isV4 raw item
  announces_one isV4 raw item addPath h hpath hlen :=
    ⟨fits_of_attrOk hlen (attrOk_flowspecUpdate isV4 item.2 raw false item.1),
      readRoutes_flowspec h isV4 raw hpath⟩

/-- **a client reads from the message of a group of rules what it reads from their own messages** -/
theorem rules_read_alike (now now' : Nat × Nat) (peer : PeerInfo) (isV4 : Bool) (raw : Bytes)
    (hasPathId : Bool) (items : List (Option PathId × Bytes))
    (h : ∀ i ∈ items, i.2.length ≤ 4095 ∧ i.1.isSome = hasPathId)
    (hlen : fsAggGroup.baseLen isV4 raw + (items.map fsAggGroup.nlriLen).sum ≤ maxBgpUpdateLen) :
    (∃ nextHop, readRouteMonitoring (fun _ => hasPathId) (wrapPeer now .routeMonitoring peer none
        (buildFlowspecsBgpUpdate isV4 (filterPaFromRaw raw).1 items)) =
      some (peerFields peer, ⟨[], items.map (ruleNlri isV4), nextHop, keptAttrs raw⟩)) ∧
    ∀ i ∈ items, ∃ msg nextHop,
      buildFlowspecRouteMonitoring now' peer isV4 i.2 raw false i.1 = some msg ∧
      readRouteMonitoring (fun _ => hasPathId) msg =
        some (peerFields peer, ⟨[], [ruleNlri isV4 i], nextHop, keptAttrs raw⟩) := by
  obtain ⟨hall, hone⟩ := ruleMeaning.reads_alike now now' peer (fun _ => hasPathId) h hlen
  rw [buildAll_fsAggGroup] at hall
  refine ⟨⟨_, hall⟩, fun i hi => ?_⟩
  obtain ⟨bgp, hbgp, hread⟩ := hone i hi
  rw [buildOne_fsAggGroup] at hbgp
  exact ⟨_, _, congrArg (Option.map _) hbgp, hread⟩

/-- two rules under one ORIGIN -/
theorem rules_read_alike_two : ∃ nextHop, readRouteMonitoring (fun _ => false)
    (wrapPeer (0, 0) .routeMonitoring examplePeer none
      (buildFlowspecsBgpUpdate true [0x40, 1, 1, 0] [(none, [1]), (none, [2, 3])])) =
    some (peerFields examplePeer, ⟨[], [ruleNlri true (none, [1]), ruleNlri true (none, [2, 3])],
      nextHop, keptAttrs [0, 0, 0x40, 1, 1, 0]⟩) :=
  (rules_read_alike (0, 0) (0, 0) examplePeer true [0, 0, 0x40, 1, 1, 0] false
    [(none, [1]), (none, [2, 3])] (by decide) (by decide +kernel)).1

/-! ## one route -/

namespace RawRoute

def family : RawRoute → AfiSafiType
  | .route false p _ => unicastOf (Prefix.isV4 p)
  | .route true p _ => if Prefix.isV4 p then .ipv4Multicast else .ipv6Multicast
  | .flowSpec isV4 _ _ => flowSpecOf isV4

/-- the family whose NLRI the message has -/
def sentAs : RawRoute → AfiSafiType
  | .route _ p _ => unicastOf (Prefix.isV4 p)
  | .flowSpec isV4 _ _ => flowSpecOf isV4

def value : RawRoute → NlriValue
  | .route _ p _ => .pfx p.bits
  | .flowSpec _ rule _ => .rule rule

def update (isWithdrawal : Bool) (pathId : Option PathId) : RawRoute → BgpUpdate
  | .route _ p raw => routeUpdate p raw isWithdrawal pathId
  | .flowSpec isV4 rule raw => flowspecUpdate isV4 rule raw isWithdrawal pathId

/-- the next hop of its MP_REACH_NLRI: that of a rule is empty -/
def mpNextHop : RawRoute → Option Bytes
  | .route _ p raw => reachHop (Prefix.isV4 p) raw
  | .flowSpec _ _ _ => some []

def attrs : RawRoute → List Attr
  | .route _ _ raw => keptAttrs raw
  | .flowSpec _ _ raw => keptAttrs raw

/-- the route as a client is to read it; a withdrawal has no attributes -/
def said (isWithdrawal : Bool) (pathId : Option PathId) (route : RawRoute) : Routes :=
  if isWithdrawal then ⟨[⟨route.sentAs, pathId, route.value⟩], [], none, []⟩
  else ⟨[], [⟨route.sentAs, pathId, route.value⟩], route.mpNextHop, route.attrs⟩

/-- the length of a rule is what the header of an NLRI could say -/
def Valid : RawRoute → Prop
  | .route _ _ _ => True
  | .flowSpec _ rule _ => rule.length ≤ 4095

variable {route : RawRoute} {isWithdrawal : Bool} {pathId : Option PathId}

lemma build_eq (now : Nat × Nat) (peer : PeerInfo) (h : route.Valid) :
    buildRouteMonitoringFromRouteBytes now peer route isWithdrawal pathId =
      (sendable (route.update isWithdrawal pathId)).map
        (wrapPeer now .routeMonitoring peer none) := by
  cases route with
  | flowSpec isV4 rule raw =>
    exact congrArg (Option.map _) (buildFlowspecBgpUpdate_eq h isV4 raw isWithdrawal pathId)
  | route multicast p raw =>
    refine congrArg (Option.map _) ((buildBgpUpdate_eq p raw isWithdrawal pathId).trans ?_)
    cases isWithdrawal with
    | true => exact (if_neg (Nat.not_lt.mpr (length_withdrawalUpdate p pathId))).symm
    | false => rfl

lemma attrOk_update : ∀ a ∈ (route.update isWithdrawal pathId).attrs, AttrOk a := by
  cases route with
  | flowSpec isV4 rule raw => exact attrOk_flowspecUpdate isV4 rule raw isWithdrawal pathId
  | route multicast p raw =>
    cases isWithdrawal with
    | true => exact attrOk_withdrawalUpdate p pathId
    | false => exact attrOk_announcementUpdate p raw pathId

lemma readRoutes_update {addPath : AfiSafiType → Bool} (h : route.Valid)
    (hpath : pathId.isSome = addPath route.sentAs) :
    readRoutes addPath (route.update isWithdrawal pathId) =
      some (route.said isWithdrawal pathId) := by
  cases route with
  | flowSpec isV4 rule raw =>
    cases isWithdrawal with
    | true => exact readRoutes_flowspecWithdrawal h isV4 raw hpath
    | false => exact readRoutes_flowspec h isV4 raw hpath
  | route multicast p raw =>
    cases isWithdrawal with
    | true => exact readRoutes_withdrawal p hpath
    | false => exact readRoutes_announcement p raw hpath

end RawRoute

/-- **a client reads from the message of a route that route**, under the path ids it has negotiated;
a route whose UPDATE is too long has no message -/
theorem routeMonitoring_reads_back (now : Nat × Nat) (peer : PeerInfo) (route : RawRoute)
    (isWithdrawal : Bool) (pathId : Option PathId) (addPath : AfiSafiType → Bool)
    (h : route.Valid) (hpath : pathId.isSome = addPath route.sentAs) :
    if 65535 < headerLen + (route.update isWithdrawal pathId).encode.length then
      buildRouteMonitoringFromRouteBytes now peer route isWithdrawal pathId = none
    else ∃ msg, buildRouteMonitoringFromRouteBytes now peer route isWithdrawal pathId = some msg ∧
      readRouteMonitoring addPath msg =
        some (peerFields peer, route.said isWithdrawal pathId) := by
  rw [RawRoute.build_eq now peer h, sendable]
  split
  · rfl
  · rename_i hlen
    exact ⟨_, rfl, readRouteMonitoring_wrapPeer now peer none
      (fits_of_attrOk (Nat.le_of_not_lt hlen) RawRoute.attrOk_update)
      (RawRoute.readRoutes_update h hpath)⟩

def multicastRoute : RawRoute := .route true ⟨.v4, [true], by decide⟩ [0, 0, 0x40, 1, 1, 0]

theorem routeMonitoring_reads_back_multicast : ∃ msg,
    buildRouteMonitoringFromRouteBytes (0, 0) examplePeer multicastRoute false none = some msg ∧
      readRouteMonitoring (fun _ => false) msg =
        some (peerFields examplePeer, multicastRoute.said false none) := by
  have h := routeMonitoring_reads_back (0, 0) examplePeer multicastRoute false none (fun _ => false)
    trivial rfl
  rw [if_neg (by decide +kernel)] at h
  exact h

/-- a multicast route is not read in its own family -/
theorem multicast_read_as_unicast :
    ((buildRouteMonitoringFromRouteBytes (0, 0) examplePeer multicastRoute false none).bind
      (readRouteMonitoring fun _ => false)).map (·.2.announced.map (·.family)) ≠
        some [multicastRoute.family] := by
  decide +kernel

end Netom.Builder
