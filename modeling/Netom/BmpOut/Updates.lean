import Netom.BmpOut.Open

/-!
# The UPDATEs of the builders, part by part

What a builder writes is put together from the parts of an UPDATE.

* `keptAttrs`, `storedNextHop`  what is taken from the stored attributes;
* `withdrawalUpdate`, `announcementUpdate`, `flowspecUpdate`  the parts of one route;
* `aggregatedUpdate`, `flowspecsUpdate`  the parts of several;
* `sendable`  the bytes of an UPDATE, unless it is too long;
* `buildBgpUpdate_eq`, `buildFlowspecBgpUpdate_eq`, `buildAggregatedBgpUpdate_eq`,
  `buildFlowspecsBgpUpdate_eq`   the bytes a builder returns are those of the parts.
-/

namespace Netom.Builder
open AttrWire BigEndian BgpWire NlriWire List FlowNlri Option

/-! ## stored attributes -/

def isKept (a : Attr) : Bool := a.typeCode ≠ 14 && a.typeCode ≠ 15

def keptAttrs (raw : Bytes) : List Attr := (attrs (raw.drop 2)).filter isKept

def reachNextHop (a : Attr) : Option Bytes :=
  if a.typeCode = 14 then mpReachNextHop a.value else none

/-- the next hop of the last MP_REACH_NLRI that has one -/
def storedNextHop (raw : Bytes) : Option Bytes :=
  ((attrs (raw.drop 2)).filterMap reachNextHop).getLast?

lemma foldl_filterPa (as : List Attr) (acc : Bytes × Option Bytes) : as.foldl filterPa acc =
    (acc.1 ++ (as.filter isKept).flatMap Attr.encode,
      ((as.filterMap reachNextHop).getLast?).or acc.2) := by
  induction as generalizing acc with
  | nil =>
    show acc = (acc.1 ++ [], acc.2)
    rw [append_nil]
  | cons a as ih =>
    rw [foldl_cons, ih]
    by_cases h14 : a.typeCode = 14
    · have hk : isKept a = false := by simp [isKept, h14]
      have hr : reachNextHop a = mpReachNextHop a.value := if_pos h14
      rw [filter_cons_of_neg (by rw [hk]; exact Bool.false_ne_true), filterPa, if_pos h14]
      cases hn : mpReachNextHop a.value with
      | none => rw [filterMap_cons_none (hr.trans hn)]
      | some nh =>
        rw [filterMap_cons_some (hr.trans hn), getLast?_cons]
        cases (as.filterMap reachNextHop).getLast? with
        | none | some nh' => rfl
    · have hr : reachNextHop a = none := if_neg h14
      rw [filterMap_cons_none hr, filterPa, if_neg h14]
      by_cases h15 : a.typeCode = 15
      · have hk : isKept a = false := by simp [isKept, h15]
        rw [filter_cons_of_neg (by rw [hk]; exact Bool.false_ne_true), if_neg (not_not.mpr h15)]
      · have hk : isKept a = true := by simpa [isKept] using ⟨h14, h15⟩
        rw [filter_cons_of_pos hk, if_pos h15, flatMap_cons, append_assoc]

lemma filterPaFromRaw_eq (raw : Bytes) :
    filterPaFromRaw raw = ((keptAttrs raw).flatMap Attr.encode, storedNextHop raw) := by
  have hfold := foldl_filterPa (attrs (raw.drop 2)) ([], none)
  rw [or_none] at hfold
  unfold filterPaFromRaw
  split
  · rename_i hlen
    have hnil : raw.drop 2 = [] := drop_eq_nil_of_le (by omega)
    rw [keptAttrs, storedNextHop, hnil]
    rfl
  · exact hfold

variable {raw : Bytes}

lemma fits_of_mem_keptAttrs {a : Attr} (h : a ∈ keptAttrs raw) : a.Fits :=
  fits_of_mem_attrs (mem_of_mem_filter h)

lemma isKept_of_mem_keptAttrs {a : Attr} (h : a ∈ keptAttrs raw) : isKept a :=
  (mem_filter.mp h).2

variable {value : Bytes}

lemma length_of_mpReachNextHop {nh : Bytes} (h : mpReachNextHop value = some nh) :
    nh.length < 256 := by
  unfold mpReachNextHop at h
  obtain ⟨-, h⟩ := ite_none_right_eq_some.mp h
  obtain ⟨-, h⟩ := ite_none_right_eq_some.mp h
  cases h
  have hlt := (value.getD 3 0).isLt
  rw [length_take]
  omega

lemma length_of_storedNextHop {nh : Bytes} (h : storedNextHop raw = some nh) :
    nh.length < 256 := by
  obtain ⟨a, -, ha⟩ := mem_filterMap.mp (mem_of_getLast? h)
  exact length_of_mpReachNextHop (ite_none_right_eq_some.mp ha).2

/-- the next hop of an IPv6 route: zeros if none is stored -/
def nextHopV6 (raw : Bytes) : Bytes := (storedNextHop raw).getD (List.replicate 16 0)

lemma length_nextHopV6 (raw : Bytes) : (nextHopV6 raw).length < 256 := by
  unfold nextHopV6
  cases h : storedNextHop raw with
  | none => exact Nat.lt_of_sub_eq_succ rfl
  | some nh => exact length_of_storedNextHop h

/-! ## parts -/

/-- an attribute that is written by `writeMpHeader` -/
def mpAttr (typeCode : Byte) (value : Bytes) : Attr :=
  ⟨if 255 < value.length then 0x90 else 0x80, typeCode, value⟩

lemma encode_mpAttr (typeCode : Byte) {n : Nat} (h : n = value.length) :
    writeMpHeader typeCode n ++ value = (mpAttr typeCode value).encode := by
  subst h
  unfold writeMpHeader mpAttr Attr.encode
  by_cases hl : 255 < value.length
  · simp only [if_pos hl]
    rfl
  · simp only [if_neg hl]
    rfl

lemma fits_mpAttr (typeCode : Byte) (h : value.length < 65536) :
    (mpAttr typeCode value).Fits := by
  unfold Attr.Fits mpAttr
  by_cases hl : 255 < value.length
  · simp only [if_pos hl]
    exact h
  · simp only [if_neg hl]
    exact Nat.lt_succ_of_le (Nat.le_of_not_lt hl)

def reachAttr (isV4 : Bool) (safi : Byte) (nextHop nlri : Bytes) : Attr :=
  mpAttr 14 (MpReach.mk (afiOf isV4) safi nextHop nlri).encode

def unreachAttr (isV4 : Bool) (safi : Byte) (nlri : Bytes) : Attr :=
  mpAttr 15 (MpUnreach.mk (afiOf isV4) safi nlri).encode

def withdrawalUpdate (p : Prefix) (pathId : Option PathId) : BgpUpdate :=
  if Prefix.isV4 p then ⟨encodePrefixNlri p pathId, [], []⟩
  else ⟨[], [unreachAttr false 1 (encodePrefixNlri p pathId)], []⟩

def announcementUpdate (p : Prefix) (raw : Bytes) (pathId : Option PathId) : BgpUpdate :=
  if Prefix.isV4 p then ⟨[], keptAttrs raw, encodePrefixNlri p pathId⟩
  else ⟨[], keptAttrs raw ++ [reachAttr false 1 (nextHopV6 raw) (encodePrefixNlri p pathId)], []⟩

def routeUpdate (p : Prefix) (raw : Bytes) (isWithdrawal : Bool) (pathId : Option PathId) :
    BgpUpdate :=
  if isWithdrawal then withdrawalUpdate p pathId else announcementUpdate p raw pathId

def flowspecUpdate (isV4 : Bool) (rule raw : Bytes) (isWithdrawal : Bool)
    (pathId : Option PathId) : BgpUpdate :=
  if isWithdrawal then ⟨[], [unreachAttr isV4 133 (FlowNlri.mk pathId rule).encode], []⟩
  else ⟨[], keptAttrs raw ++ [reachAttr isV4 133 [] (FlowNlri.mk pathId rule).encode], []⟩

def prefixesNlri (prefixes : List (Prefix × Option PathId)) : Bytes :=
  prefixes.flatMap fun (p, pathId) => encodePrefixNlri p pathId

/-- an MP_REACH_NLRI whose length is always extended -/
def extendedReach (prefixes : List (Prefix × Option PathId)) (raw : Bytes) : Attr :=
  ⟨0x90, 14, (MpReach.mk 2 1 (nextHopV6 raw) (prefixesNlri prefixes)).encode⟩

def aggregatedUpdate (prefixes : List (Prefix × Option PathId)) (raw : Bytes) (isV4 : Bool) :
    BgpUpdate :=
  if isV4 then ⟨[], keptAttrs raw, prefixesNlri prefixes⟩
  else ⟨[], keptAttrs raw ++ [extendedReach prefixes raw], []⟩

def rulesNlri (items : List (Option PathId × Bytes)) : Bytes :=
  items.flatMap fun i => (FlowNlri.mk i.1 i.2).encode

def flowspecsUpdate (isV4 : Bool) (raw : Bytes) (items : List (Option PathId × Bytes)) : BgpUpdate :=
  ⟨[], keptAttrs raw ++ [⟨0x90, 14, (MpReach.mk (afiOf isV4) 133 [] (rulesNlri items)).encode⟩], []⟩

def sendable (u : BgpUpdate) : Option Bytes :=
  if 65535 < headerLen + u.encode.length then none else some (pdu updateType u.encode)

/-! ## what the builders write -/

lemma flatMap_encode_append (as : List Attr) (a : Attr) :
    (as ++ [a]).flatMap Attr.encode = as.flatMap Attr.encode ++ a.encode := by
  rw [flatMap_append, flatMap_singleton]

section write
variable (u : BgpUpdate) {pa : Bytes} {totalLen paLen withdrawnLen : Nat}

lemma writeUpdate_eq (hpa : pa = u.attrs.flatMap Attr.encode) (hp : paLen = pa.length)
    (hw : withdrawnLen = u.withdrawn.length) (ht : totalLen = headerLen + u.encode.length) :
    writeUpdate totalLen withdrawnLen u.withdrawn paLen pa u.nlri = pdu updateType u.encode := by
  subst hp hw
  rw [← pdu_of_length ht, writeUpdate, BgpUpdate.encode, block, block, ← hpa, append_assoc,
    append_assoc]
  rfl

lemma ite_writeUpdate_eq (hpa : pa = u.attrs.flatMap Attr.encode) (hp : paLen = pa.length)
    (hw : withdrawnLen = u.withdrawn.length) (ht : totalLen = headerLen + u.encode.length) :
    (if 65535 < totalLen then none
      else some (writeUpdate totalLen withdrawnLen u.withdrawn paLen pa u.nlri)) = sendable u := by
  rw [writeUpdate_eq u hpa hp hw ht, sendable, ht]

end write

lemma buildMpUnreachNlri_eq {p : Prefix} (h : Prefix.isV4 p = false) (pathId : Option PathId) :
    buildMpUnreachNlri p pathId = (unreachAttr false 1 (encodePrefixNlri p pathId)).encode := by
  unfold buildMpUnreachNlri
  rw [h]
  exact encode_mpAttr 15 (MpUnreach.length_encode ⟨2, 1, encodePrefixNlri p pathId⟩).symm

lemma buildMpReachNlri_eq {p : Prefix} (h : Prefix.isV4 p = false) (raw : Bytes)
    (pathId : Option PathId) : buildMpReachNlri p (storedNextHop raw) pathId =
      (reachAttr false 1 (nextHopV6 raw) (encodePrefixNlri p pathId)).encode := by
  have hlen := MpReach.length_encode ⟨2, 1, nextHopV6 raw, encodePrefixNlri p pathId⟩
  unfold buildMpReachNlri
  rw [h]
  refine encode_mpAttr 14 (Eq.trans ?_ hlen.symm)
  show 2 + 1 + 1 + (nextHopV6 raw).length + 1 + (encodePrefixNlri p pathId).length =
    5 + (nextHopV6 raw).length + (encodePrefixNlri p pathId).length
  omega

lemma buildBgpUpdateWithdrawal_eq (p : Prefix) (pathId : Option PathId) :
    buildBgpUpdateWithdrawal p pathId = pdu updateType (withdrawalUpdate p pathId).encode := by
  unfold buildBgpUpdateWithdrawal withdrawalUpdate
  cases h : Prefix.isV4 p with
  | true =>
    rw [if_pos rfl, if_pos rfl]
    refine writeUpdate_eq ⟨encodePrefixNlri p pathId, [], []⟩ rfl rfl rfl ?_
    rw [BgpUpdate.length_encode]
    simp only [headerLen, flatMap_nil, length_nil]
    omega
  | false =>
    rw [if_neg Bool.false_ne_true, if_neg Bool.false_ne_true, buildMpUnreachNlri_eq h]
    refine writeUpdate_eq ⟨[], [unreachAttr false 1 (encodePrefixNlri p pathId)], []⟩
      (flatMap_singleton _ _).symm rfl rfl ?_
    rw [BgpUpdate.length_encode, flatMap_singleton]
    simp only [headerLen, length_nil]
    omega

lemma buildBgpUpdate_announce (p : Prefix) (raw : Bytes) (pathId : Option PathId) :
    buildBgpUpdate p raw false pathId = sendable (announcementUpdate p raw pathId) := by
  unfold buildBgpUpdate announcementUpdate
  rw [if_neg Bool.false_ne_true, filterPaFromRaw_eq]
  cases h : Prefix.isV4 p with
  | true =>
    rw [if_pos rfl]
    refine ite_writeUpdate_eq ⟨[], keptAttrs raw, encodePrefixNlri p pathId⟩ rfl rfl rfl ?_
    rw [BgpUpdate.length_encode]
    simp only [headerLen, length_nil]
  | false =>
    simp only [Bool.false_eq_true, if_false, buildMpReachNlri_eq h]
    refine ite_writeUpdate_eq ⟨[], keptAttrs raw ++ [reachAttr false 1 (nextHopV6 raw)
      (encodePrefixNlri p pathId)], []⟩ (flatMap_encode_append _ _).symm ?_ rfl ?_
    · rw [length_append]
    · rw [BgpUpdate.length_encode, flatMap_encode_append, length_append]
      simp only [headerLen, length_nil]
      omega

/-- **the UPDATE of one route** -/
theorem buildBgpUpdate_eq (p : Prefix) (raw : Bytes) (isWithdrawal : Bool)
    (pathId : Option PathId) : buildBgpUpdate p raw isWithdrawal pathId =
      if isWithdrawal then some (pdu updateType (withdrawalUpdate p pathId).encode)
      else sendable (announcementUpdate p raw pathId) := by
  cases isWithdrawal with
  | true => exact congrArg some (buildBgpUpdateWithdrawal_eq p pathId)
  | false => exact buildBgpUpdate_announce p raw pathId

/-! ## rules -/

lemma appendFlowspecNlri_eq {rule : Bytes} (h : rule.length ≤ 4095) (pathId : Option PathId) :
    appendFlowspecNlri rule pathId = (FlowNlri.mk pathId rule).encode := by
  unfold appendFlowspecNlri encode
  simp only [Nat.min_eq_left h, take_length]

lemma flowspecNlriEncodedLen_eq (rule : Bytes) (pathId : Option PathId) :
    flowspecNlriEncodedLen rule pathId.isSome = (FlowNlri.mk pathId rule).encode.length := by
  rw [length_encode, flowspecNlriEncodedLen]
  cases pathId with
  | none =>
    simp only [isSome_none, Bool.toNat_false, Bool.false_eq_true, if_false]
    omega
  | some id =>
    simp only [isSome_some, Bool.toNat_true, if_true]
    omega

/-- **the UPDATE of one rule**, which has at most the length its header can say -/
theorem buildFlowspecBgpUpdate_eq {rule : Bytes} (h : rule.length ≤ 4095) (isV4 : Bool)
    (raw : Bytes) (isWithdrawal : Bool) (pathId : Option PathId) :
    buildFlowspecBgpUpdate isV4 rule raw isWithdrawal pathId =
      sendable (flowspecUpdate isV4 rule raw isWithdrawal pathId) := by
  have hlen := flowspecNlriEncodedLen_eq rule pathId
  unfold buildFlowspecBgpUpdate flowspecUpdate
  rw [appendFlowspecNlri_eq h, hlen, filterPaFromRaw_eq]
  cases isWithdrawal with
  | true =>
    have hmp : writeMpHeader 15 (3 + (mk pathId rule).encode.length) ++
        (be16 (afiOf isV4) ++ 133#8 :: (mk pathId rule).encode) =
          (unreachAttr isV4 133 (mk pathId rule).encode).encode :=
      encode_mpAttr 15 (MpUnreach.length_encode ⟨afiOf isV4, 133, _⟩).symm
    simp only [if_true, hmp]
    refine ite_writeUpdate_eq ⟨[], [unreachAttr isV4 133 (mk pathId rule).encode], []⟩
      (flatMap_singleton _ _).symm (Nat.zero_add _) rfl ?_
    rw [BgpUpdate.length_encode, flatMap_singleton]
    simp only [headerLen, length_nil]
    omega
  | false =>
    have hmp : writeMpHeader 14 (5 + (mk pathId rule).encode.length) ++
        (be16 (afiOf isV4) ++ 133#8 :: 0#8 :: 0#8 :: (mk pathId rule).encode) =
          (reachAttr isV4 133 [] (mk pathId rule).encode).encode :=
      encode_mpAttr 14 (MpReach.length_encode ⟨afiOf isV4, 133, [], _⟩).symm
    simp only [Bool.false_eq_true, if_false, hmp]
    refine ite_writeUpdate_eq ⟨[], keptAttrs raw ++ [reachAttr isV4 133 []
      (mk pathId rule).encode], []⟩ (flatMap_encode_append _ _).symm ?_ rfl ?_
    · rw [length_append]
    · rw [BgpUpdate.length_encode, flatMap_encode_append, length_append]
      simp only [headerLen, length_nil]
      omega

/-! ## several prefixes -/

lemma encode_extended {n : Nat} (h : n = value.length) :
    0x90#8 :: 14#8 :: (be16 n ++ value) = (Attr.mk 0x90 14 value).encode := by
  have hx : extended (Attr.mk 0x90 14 value).flags = true := by
    show extended 0x90#8 = true
    decide
  rw [h, Attr.encode, encodeLen, if_pos hx]
  rfl

lemma length_extended (value : Bytes) : (Attr.mk 0x90 14 value).encode.length = 4 + value.length := by
  rw [← encode_extended rfl]
  simp only [be16, length_append, length_cons, length_nil]
  omega

lemma writeUpdate_kept {pa : Bytes} {a : Attr} {totalLen paLen : Nat}
    (hpa : pa = (keptAttrs raw).flatMap Attr.encode) (hp : paLen = pa.length + a.encode.length)
    (ht : totalLen = headerLen + (4 + paLen)) :
    writeUpdate totalLen 0 [] paLen (pa ++ a.encode) [] =
      pdu updateType (BgpUpdate.mk [] (keptAttrs raw ++ [a]) []).encode := by
  have hattrs : (keptAttrs raw ++ [a]).flatMap Attr.encode = pa ++ a.encode := by
    rw [flatMap_encode_append, hpa]
  have hlen : paLen = (pa ++ a.encode).length := by
    rw [length_append, hp]
  refine writeUpdate_eq ⟨[], keptAttrs raw ++ [a], []⟩ hattrs.symm hlen rfl ?_
  rw [BgpUpdate.length_encode, hattrs, ← hlen, ht]
  rfl

/-- **the UPDATE of prefixes that share their attributes**; nothing bounds its length -/
theorem buildAggregatedBgpUpdate_eq (prefixes : List (Prefix × Option PathId)) (raw : Bytes)
    (isV4 : Bool) : buildAggregatedBgpUpdate prefixes (filterPaFromRaw raw).1 (filterPaFromRaw raw).2
      isV4 = pdu updateType (aggregatedUpdate prefixes raw isV4).encode := by
  unfold buildAggregatedBgpUpdate aggregatedUpdate
  rw [filterPaFromRaw_eq]
  cases isV4 with
  | true =>
    rw [if_pos rfl, if_pos rfl]
    refine writeUpdate_eq ⟨[], keptAttrs raw, prefixesNlri prefixes⟩ rfl rfl rfl ?_
    rw [BgpUpdate.length_encode]
    simp only [headerLen, length_nil]
    show 19 + (2 + 2 + _ + (prefixesNlri prefixes).length) = _
    omega
  | false =>
    have hlen := MpReach.length_encode ⟨2, 1, nextHopV6 raw, prefixesNlri prefixes⟩
    have hvalue : 2 + 1 + 1 + (nextHopV6 raw).length + 1 + (prefixesNlri prefixes).length =
        (MpReach.mk 2 1 (nextHopV6 raw) (prefixesNlri prefixes)).encode.length := by
      rw [hlen]
      simp only
      omega
    rw [if_neg Bool.false_ne_true, if_neg Bool.false_ne_true]
    have hattr := encode_extended hvalue
    refine (congrArg (fun bs => writeUpdate _ 0 [] _ (_ ++ bs) []) hattr).trans
      (writeUpdate_kept rfl ?_ rfl)
    rw [length_extended, ← hvalue]
    rfl

/-- **the UPDATE of rules that share their attributes** -/
theorem buildFlowspecsBgpUpdate_eq {isV4 : Bool} {raw : Bytes}
    {rules : List (Option PathId × Bytes)} (h : ∀ r ∈ rules, r.2.length ≤ 4095) :
    buildFlowspecsBgpUpdate isV4 (filterPaFromRaw raw).1 rules =
      pdu updateType (flowspecsUpdate isV4 raw rules).encode := by
  have hnlri : (rules.flatMap fun r => appendFlowspecNlri r.2 r.1) = rulesNlri rules :=
    flatMap_congr fun r hr => appendFlowspecNlri_eq (h r hr) r.1
  have hlen := MpReach.length_encode ⟨afiOf isV4, 133, [], rulesNlri rules⟩
  have hvalue : 2 + 1 + 1 + 1 + (rulesNlri rules).length =
      (MpReach.mk (afiOf isV4) 133 [] (rulesNlri rules)).encode.length := by
    rw [hlen]
    rfl
  simp only [buildFlowspecsBgpUpdate, hnlri, filterPaFromRaw_eq]
  refine (congrArg (fun bs => writeUpdate _ 0 [] _ (_ ++ bs) []) (encode_extended hvalue)).trans
    (writeUpdate_kept rfl ?_ rfl)
  rw [length_extended, ← hvalue]
  omega

end Netom.Builder
