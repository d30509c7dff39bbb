import Netom.FlowSpec.Validity
import Netom.BestPath.Paths
import Netom.Lib.BigEndian

/-!
# The attribute scanner of FlowSpec validation

`flowspec_validation_attrs` looks for ORIGINATOR_ID and the AS_PATH in stored attribute bytes without
parsing them.  It reads bytes by their position; a read outside of them would be a panic, and here it
is `none`, like a loop that does not end.

* `headerAt`  the header at a position;
* `scanLoop`  the loop;
* `readOff`  originator and neighbour of a list of parsed attributes;
* `scanAttrs_eq`  **the scanner ends, stays in bounds and reads what a parser would**;
* `scanAttrs_encode`  **the neighbour in the terms of the segments of the AS_PATHs**.
-/

namespace Netom
open AttrWire BitVec

/-! ## reading by position -/

def slice (b : List Byte) (lo hi : Nat) : Option (List Byte) :=
  if lo ≤ hi ∧ hi ≤ b.length then some ((b.drop lo).take (hi - lo)) else none

/-- a difference of two sizes, which panics below zero -/
def sizeSub (a b : Nat) : Option Nat := if b ≤ a then some (a - b) else none

/-- where a value of `len` bytes ends, unless the bytes end before -/
def endAt (attrs : List Byte) (typeCode : Byte) (start len : Nat) : Option (Byte × Nat × Nat) :=
  if start + len ≤ attrs.length then some (typeCode, start, start + len) else none

/-- type code, start and end of the value at a position; `some none` leaves the loop -/
def headerAt (attrs : List Byte) (pos : Nat) : Option (Option (Byte × Nat × Nat)) := do
  let left ← sizeSub attrs.length pos
  if left < 3 then return none
  let flags ← attrs[pos]?
  let typeCode ← attrs[pos + 1]?
  if extended flags then
    if left < 4 then return none
    let hi ← attrs[pos + 2]?
    let lo ← attrs[pos + 3]?
    return endAt attrs typeCode (pos + 4) (ofBe16 hi lo)
  else
    let len ← attrs[pos + 2]?
    return endAt attrs typeCode (pos + 3) len.toNat

/-- the number that is written in some bytes -/
def ofBytes (b : List Byte) : Nat := b.foldl (fun n x => n * 256 + x.toNat) 0

/-- what one attribute adds to what was found -/
def noteValue (asnLen : Nat) (found : Option BgpId × Option Asn) (typeCode : Byte)
    (value : List Byte) : Option (Option BgpId × Option Asn) :=
  if typeCode = 9#8 ∧ value.length = 4 then do
    let id ← bgpIdOf value
    return (some id, found.2)
  else if typeCode = 2#8 ∧ found.2.isNone ∧ 2 + asnLen ≤ value.length then do
    let segment ← value[0]?
    if segment = 2#8 then
      let count ← value[1]?
      if count ≠ 0#8 then
        let asn ← slice value 2 (if asnLen = 4 then 6 else 4)
        return (found.1, some (ofBytes asn))
      else return found
    else return found
  else some found

def scanLoop (attrs : List Byte) (asnLen : Nat) :
    Nat → Nat → Option BgpId × Option Asn → Option (Option BgpId × Option Asn)
  | 0, _, _ => none
  | fuel + 1, pos, found =>
    if pos < attrs.length then
      match headerAt attrs pos with
      | none => none
      | some none => some found
      | some (some (typeCode, start, stop)) =>
        match (slice attrs start stop).bind (noteValue asnLen found typeCode) with
        | none => none
        | some found' => scanLoop attrs asnLen fuel stop found'
    else some found

/-- the scanner over the stored bytes: a validity byte, the parse information and the attributes -/
def scanAttrs (raw : List Byte) : Option (Option BgpId × Option Asn) :=
  if raw.length < 2 then some (none, none)
  else do
    let parseInfo ← raw[1]?
    let asnLen := if parseInfo = 1#8 then 4 else 2
    let attrs ← slice raw 2 raw.length
    scanLoop attrs asnLen (attrs.length + 1) 0 (none, none)

/-! ## one turn -/

lemma slice_eq {b : List Byte} {lo n : Nat} (h : lo + n ≤ b.length) :
    slice b lo (lo + n) = some ((b.drop lo).take n) := by
  rw [slice, if_pos ⟨Nat.le_add_right lo n, h⟩, Nat.add_sub_cancel_left]

section turns
variable {attrs : List Byte}

lemma endAt_spec (flags typeCode : Byte) {start : Nat} (len : Nat)
    (hs : start ≤ attrs.length) :
    (endAt attrs typeCode start len = none ∧
      takeValue flags typeCode len (attrs.drop start) = none) ∨
    ∃ a, endAt attrs typeCode start len = some (a.typeCode, start, start + len) ∧
      takeValue flags typeCode len (attrs.drop start) = some (a, attrs.drop (start + len)) ∧
      slice attrs start (start + len) = some a.value ∧ start + len ≤ attrs.length := by
  unfold endAt takeValue
  rw [List.length_drop]
  by_cases h : start + len ≤ attrs.length
  · have hl : len ≤ attrs.length - start := by omega
    rw [if_pos h, if_pos hl, List.drop_drop]
    exact .inr ⟨⟨flags, typeCode, (attrs.drop start).take len⟩, rfl, rfl, slice_eq h, h⟩
  · have hl : ¬ len ≤ attrs.length - start := by omega
    rw [if_neg h, if_neg hl]
    exact .inl ⟨rfl, rfl⟩

variable {pos : Nat}

lemma sizeSub_of_drop {b rest : List Byte} {x : Byte}
    (hd : b.drop pos = x :: rest) : sizeSub b.length pos = some (rest.length + 1) := by
  have hlen : b.length - pos = rest.length + 1 := by
    rw [← List.length_drop, hd, List.length_cons]
  rw [sizeSub, if_pos (by omega), hlen]

lemma getElem?_of_drop {b rest : List Byte} (hd : b.drop pos = rest) (k : Nat) :
    b[pos + k]? = rest[k]? := by
  rw [← hd, List.getElem?_drop]

lemma headerAt_extended {attrs rest : List Byte} {flags typeCode x : Byte}
    (hd : attrs.drop pos = flags :: typeCode :: x :: rest) (hx : extended flags = true) :
    headerAt attrs pos = match rest with
      | [] => some none
      | lo :: _ => some (endAt attrs typeCode (pos + 4) (ofBe16 x lo)) := by
  have hsub : sizeSub attrs.length pos = some (rest.length + 3) := sizeSub_of_drop hd
  have hget := getElem?_of_drop hd
  have h0 : attrs[pos]? = some flags := hget 0
  cases rest with
  | nil | cons lo rest => simp [headerAt, hsub, h0, hget, hx]

lemma headerAt_short {attrs rest : List Byte} {flags typeCode len : Byte}
    (hd : attrs.drop pos = flags :: typeCode :: len :: rest) (hx : extended flags = false) :
    headerAt attrs pos = some (endAt attrs typeCode (pos + 3) len.toNat) := by
  have hsub : sizeSub attrs.length pos = some (rest.length + 3) := sizeSub_of_drop hd
  have hget := getElem?_of_drop hd
  have h0 : attrs[pos]? = some flags := hget 0
  simp [headerAt, hsub, h0, hget, hx]

lemma headerAt_cut (hpos : pos ≤ attrs.length)
    (hd : (attrs.drop pos).length < 3) : headerAt attrs pos = some none := by
  rw [List.length_drop] at hd
  simp [headerAt, sizeSub, hpos, hd]

/-- the header at a position is that of the parser's next attribute -/
lemma headerAt_spec (hpos : pos ≤ attrs.length) :
    (headerAt attrs pos = some none ∧ next (attrs.drop pos) = none) ∨
    ∃ a start stop, headerAt attrs pos = some (some (a.typeCode, start, stop)) ∧
      next (attrs.drop pos) = some (a, attrs.drop stop) ∧
      slice attrs start stop = some a.value ∧ pos < stop ∧ stop ≤ attrs.length := by
  have hdrop : ∀ k, attrs.drop (pos + k) = (attrs.drop pos).drop k := fun k => by
    rw [List.drop_drop]
  have hlen : attrs.length - pos = (attrs.drop pos).length := by rw [List.length_drop]
  match hd : attrs.drop pos with
  | [] => exact .inl ⟨headerAt_cut hpos (by rw [hd]; decide), rfl⟩
  | [flags] =>
    exact .inl ⟨headerAt_cut hpos (by rw [hd]; exact Nat.lt_add_of_pos_left Nat.two_pos), rfl⟩
  | [flags, typeCode] =>
    refine .inl ⟨headerAt_cut hpos (by rw [hd]; exact Nat.lt_succ_self 2), ?_⟩
    show (if extended flags = true then none else none) = none
    exact ite_self none
  | flags :: typeCode :: x :: rest =>
    rw [hd, List.length_cons, List.length_cons, List.length_cons] at hlen
    cases hx : extended flags with
    | false =>
      have hnext : next (flags :: typeCode :: x :: rest) =
          takeValue flags typeCode x.toNat (attrs.drop (pos + 3)) := by
        rw [hdrop, hd]
        simp [next, hx]
      rw [headerAt_short hd hx, hnext]
      rcases endAt_spec flags typeCode x.toNat (show pos + 3 ≤ attrs.length by omega)
        with ⟨he, ht⟩ | ⟨a, he, ht, hs, hl⟩
      · exact .inl ⟨congrArg some he, ht⟩
      · exact .inr ⟨a, pos + 3, pos + 3 + x.toNat, congrArg some he, ht, hs, by omega, hl⟩
    | true =>
      rw [headerAt_extended hd hx]
      cases rest with
      | nil =>
        refine .inl ⟨rfl, ?_⟩
        simp [next, hx]
      | cons lo rest =>
        have hnext : next (flags :: typeCode :: x :: lo :: rest) =
            takeValue flags typeCode (ofBe16 x lo) (attrs.drop (pos + 4)) := by
          rw [hdrop, hd]
          simp [next, hx]
        rw [List.length_cons] at hlen
        rw [hnext]
        rcases endAt_spec flags typeCode (ofBe16 x lo) (show pos + 4 ≤ attrs.length by omega)
          with ⟨he, ht⟩ | ⟨a, he, ht, hs, hl⟩
        · exact .inl ⟨congrArg some he, ht⟩
        · exact .inr ⟨a, pos + 4, pos + 4 + ofBe16 x lo, congrArg some he, ht, hs, by omega, hl⟩

lemma bgpIdOf_isSome {value : List Byte} (h : value.length = 4) :
    ∃ id, bgpIdOf value = some id := by
  match value, h with
  | [a, b, c, d], _ => exact ⟨_, rfl⟩

/-- reading a value of the parser by position adds what the parsed attribute does -/
lemma noteValue_eq {asnLen : Nat} (hasn : asnLen = 2 ∨ asnLen = 4)
    (found : Option BgpId × Option Asn) (a : Attr) :
    noteValue asnLen found a.typeCode a.value = some (noteAttr asnLen found a) := by
  unfold noteValue noteAttr
  by_cases h9 : a.typeCode = 9#8 ∧ a.value.length = 4
  · obtain ⟨id, hid⟩ := bgpIdOf_isSome h9.2
    rw [if_pos h9, if_pos h9, hid]
    rfl
  rw [if_neg h9, if_neg h9]
  by_cases h2 : a.typeCode = 2#8 ∧ found.2.isNone
  · obtain ⟨originator, neighbor⟩ := found
    obtain rfl : neighbor = none := Option.isNone_iff_eq_none.mp h2.2
    rw [if_pos h2]
    have hstop : (if asnLen = 4 then 6 else 4) = 2 + asnLen := by
      rcases hasn with rfl | rfl <;> rfl
    match hv : a.value with
    | [] => rw [if_neg (by rintro ⟨-, -, h⟩; exact absurd h (by simp))]; rfl
    | [segment] =>
      rw [if_neg (by rintro ⟨-, -, h⟩; rw [List.length_singleton] at h; omega)]
      rfl
    | segment :: count :: rest =>
      have hlen : (segment :: count :: rest).length = 2 + rest.length := by
        rw [List.length_cons, List.length_cons]
        omega
      by_cases hl : asnLen ≤ rest.length
      · have hslice : slice (segment :: count :: rest) 2 (2 + asnLen) =
          some (rest.take asnLen) := slice_eq (by rw [hlen]; omega)
        rw [if_pos ⟨h2.1, h2.2, by rw [hlen]; omega⟩, hstop, hslice, firstSequenceAsn]
        by_cases hs : segment = 2#8
        · by_cases hc : count ≠ 0#8
          · simp [hs, hc, hl, ofBytes]
          · simp [hs, hc]
        · simp [hs]
      · rw [if_neg (by rintro ⟨-, -, h⟩; rw [hlen] at h; omega), firstSequenceAsn,
          if_neg fun h => hl h.2.2]
  · rw [if_neg h2, if_neg fun h => h2 ⟨h.1, h.2.1⟩]

/-! ## the whole scan -/

lemma scanLoop_eq {asnLen : Nat} (hasn : asnLen = 2 ∨ asnLen = 4)
    {fuel pos n : Nat} (found : Option BgpId × Option Asn) (hpos : pos ≤ attrs.length)
    (hfuel : attrs.length - pos < fuel) (hn : attrs.length - pos ≤ n) :
    scanLoop attrs asnLen fuel pos found =
      some ((walk n (attrs.drop pos)).foldl (noteAttr asnLen) found) := by
  induction fuel generalizing pos n found with
  | zero => omega
  | succ fuel ih =>
    unfold scanLoop
    by_cases hlt : pos < attrs.length
    · rw [if_pos hlt]
      obtain ⟨n, rfl⟩ : ∃ m, n = m + 1 := ⟨n - 1, by omega⟩
      rw [walk]
      rcases headerAt_spec hpos with ⟨hh, hnext⟩ | ⟨a, start, stop, hh, hnext, hs, hps, hle⟩
      · rw [hh, hnext]
        rfl
      · rw [hh, hnext]
        simp only [hs, Option.bind_some, noteValue_eq hasn, List.foldl_cons]
        exact ih (noteAttr asnLen found a) hle (by omega) (by omega)
    · have hdrop : attrs.drop pos = [] := List.drop_eq_nil_of_le (by omega)
      have hwalk : walk n [] = [] := by cases n <;> rfl
      rw [if_neg hlt, hdrop, hwalk]
      rfl

lemma scanAttrs_flowspecValidationAttrs (raw : List Byte) :
    scanAttrs raw = some (flowspecValidationAttrs raw) := by
  match raw with
  | [] => rfl
  | [validity] => rfl
  | validity :: parseInfo :: blob =>
    have hslice : slice (validity :: parseInfo :: blob) 2 (validity :: parseInfo :: blob).length =
        some blob := by
      rw [slice, if_pos ⟨by simp, Nat.le_refl _⟩]
      simp
    have hasn : ∀ b : Byte, (if b = 1#8 then 4 else 2) = 2 ∨ (if b = 1#8 then 4 else 2) = 4 := by
      intro b
      by_cases hb : b = 1#8
      · exact .inr (if_pos hb)
      · exact .inl (if_neg hb)
    have hloop := scanLoop_eq (hasn parseInfo) (none, none) (Nat.zero_le blob.length)
      (Nat.lt_succ_self _) (Nat.le_refl _)
    rw [Nat.sub_zero] at hloop
    unfold scanAttrs flowspecValidationAttrs
    rw [if_neg (by simp), hslice]
    exact hloop

end turns

/-! ## what a parser would give -/

/-- the last ORIGINATOR_ID -/
def originatorOf (as : List Attr) : Option BgpId :=
  as.reverse.findSome? fun a => if a.typeCode = 9#8 then bgpIdOf a.value else none

/-- the first AS of the first AS_PATH that starts with an AS_SEQUENCE -/
def neighborOf (asnLen : Nat) (as : List Attr) : Option Asn :=
  as.findSome? fun a => if a.typeCode = 2#8 then firstSequenceAsn asnLen a.value else none

/-- the attribute bytes behind the two bytes that are stored in front of them -/
def attrBlob (raw : List Byte) : List Byte := raw.drop 2

/-- the width of an AS in the attributes -/
def asnWidth (raw : List Byte) : Nat := if raw[1]? = some 1#8 then 4 else 2

def readOff (raw : List Byte) : Option BgpId × Option Asn :=
  (originatorOf (attrs (attrBlob raw)), neighborOf (asnWidth raw) (attrs (attrBlob raw)))

lemma bgpIdOf_eq_none {value : List Byte} (h : value.length ≠ 4) : bgpIdOf value = none := by
  unfold bgpIdOf
  split
  · exact absurd rfl h
  · rfl

lemma originatorOf_concat (as : List Attr) (a : Attr) : originatorOf (as ++ [a]) =
    (if a.typeCode = 9#8 then bgpIdOf a.value else none).or (originatorOf as) := by
  rw [originatorOf, List.reverse_concat, List.findSome?_cons]
  cases (if a.typeCode = 9#8 then bgpIdOf a.value else none) with
  | none | some id => rfl

lemma foldl_noteAttr (asnLen : Nat) (as : List Attr) :
    as.foldl (noteAttr asnLen) (none, none) = (originatorOf as, neighborOf asnLen as) := by
  induction as using List.reverseRecOn with
  | nil => rfl
  | append_singleton as a ih =>
    have hneighbor : neighborOf asnLen (as ++ [a]) = (neighborOf asnLen as).or
        (if a.typeCode = 2#8 then firstSequenceAsn asnLen a.value else none) := by
      rw [neighborOf, List.findSome?_append, List.findSome?_singleton]
      rfl
    rw [List.foldl_append, ih, originatorOf_concat, hneighbor]
    show noteAttr asnLen (originatorOf as, neighborOf asnLen as) a = _
    unfold noteAttr
    by_cases h9 : a.typeCode = 9#8
    · have h2 : a.typeCode ≠ 2#8 := by rw [h9]; decide
      by_cases hl : a.value.length = 4
      · obtain ⟨id, hid⟩ := bgpIdOf_isSome hl
        simp [h9, hl, hid]
      · simp [h9, hl, bgpIdOf_eq_none hl]
    · by_cases h2 : a.typeCode = 2#8
      · cases hn : neighborOf asnLen as with
        | none | some asn => simp [h2]
      · simp [h9, h2]

lemma flowspecValidationAttrs_eq_readOff (raw : List Byte) :
    flowspecValidationAttrs raw = readOff raw := by
  match raw with
  | [] => rfl
  | [validity] => rfl
  | validity :: parseInfo :: blob =>
    have hwidth : asnWidth (validity :: parseInfo :: blob) =
        if parseInfo = 1#8 then 4 else 2 := by
      simp [asnWidth]
    rw [readOff, hwidth]
    exact foldl_noteAttr _ (attrs blob)

/-- **The scanner ends, reads no byte outside of the attributes, and gives the originator and the
neighbour of the attributes that are well formed, in order.** -/
theorem scanAttrs_eq (raw : List Byte) :
    scanAttrs raw = some (readOff raw) ∧
    ∃ rest, attrBlob raw = (attrs (attrBlob raw)).flatMap Attr.encode ++ rest ∧
      next rest = none := by
  refine ⟨?_, attrs_append (attrBlob raw)⟩
  rw [scanAttrs_flowspecValidationAttrs, flowspecValidationAttrs_eq_readOff]

/-! ## the segments of an AS_PATH -/

def SegmentType.code : SegmentType → Nat
  | .set => 1
  | .sequence => 2
  | .confedSequence => 3
  | .confedSet => 4

def Segment.encode (asnLen : Nat) (s : Segment) : List Byte :=
  BitVec.ofNat 8 s.stype.code :: BitVec.ofNat 8 s.asns.length ::
    s.asns.flatMap (BigEndian.beBytes asnLen)

/-- a count of one byte, and numbers that fit their width -/
def Segment.Fits (asnLen : Nat) (s : Segment) : Prop :=
  s.asns.length < 256 ∧ ∀ asn ∈ s.asns, asn < 256 ^ asnLen

def firstOfSequence : List Segment → Option Asn
  | ⟨.sequence, asn :: _⟩ :: _ => some asn
  | _ => none

lemma ofBytes_beBytes {asnLen : Nat} (hasn : asnLen = 2 ∨ asnLen = 4) {asn : Nat}
    (h : asn < 256 ^ asnLen) : ofBytes (BigEndian.beBytes asnLen asn) = asn := by
  rcases hasn with rfl | rfl
  · have hb : BigEndian.beBytes 2 asn = [BitVec.ofNat 8 (asn / 256), BitVec.ofNat 8 (asn / 1)] := rfl
    simp only [hb, ofBytes, List.foldl_cons, List.foldl_nil, toNat_ofNat]
    omega
  · have hb : BigEndian.beBytes 4 asn = [BitVec.ofNat 8 (asn / 16777216),
        BitVec.ofNat 8 (asn / 65536), BitVec.ofNat 8 (asn / 256), BitVec.ofNat 8 (asn / 1)] := rfl
    simp only [hb, ofBytes, List.foldl_cons, List.foldl_nil, toNat_ofNat]
    omega

lemma firstSequenceAsn_encode {asnLen : Nat} (hasn : asnLen = 2 ∨ asnLen = 4)
    {segments : List Segment} (h : ∀ s ∈ segments, s.Fits asnLen) :
    firstSequenceAsn asnLen (segments.flatMap (Segment.encode asnLen)) =
      firstOfSequence segments := by
  match segments with
  | [] => rfl
  | ⟨.sequence, asn :: asns⟩ :: segments =>
    obtain ⟨hcount, hfit⟩ := h _ List.mem_cons_self
    have hne : BitVec.ofNat 8 (asns.length + 1) ≠ 0#8 := by
      intro he
      have hn := congrArg BitVec.toNat he
      rw [toNat_ofNat] at hn
      rw [List.length_cons] at hcount
      simp at hn
      omega
    have hrest : ∀ tail : List Byte, firstSequenceAsn asnLen (2#8 ::
        BitVec.ofNat 8 (asns.length + 1) :: (BigEndian.beBytes asnLen asn ++ tail)) = some asn := by
      intro tail
      have hlen := BigEndian.length_beBytes asnLen asn
      rw [firstSequenceAsn, if_pos ⟨rfl, hne, by rw [List.length_append]; omega⟩,
        List.take_left' hlen]
      exact congrArg some (ofBytes_beBytes hasn (hfit asn List.mem_cons_self))
    have happ := hrest (asns.flatMap (BigEndian.beBytes asnLen) ++
      segments.flatMap (Segment.encode asnLen))
    rw [← List.append_assoc] at happ
    exact happ
  | ⟨.sequence, []⟩ :: segments => rfl
  | ⟨.set, asns⟩ :: segments => rfl
  | ⟨.confedSequence, asns⟩ :: segments => rfl
  | ⟨.confedSet, asns⟩ :: segments => rfl

def asnLenOf (parseInfo : Byte) : Nat := if parseInfo = 1#8 then 4 else 2

/-- **The neighbour that is read from stored attributes is the first AS of the first AS_PATH that
starts with a sequence that is not empty; an AS_PATH that starts otherwise is passed over.** -/
theorem scanAttrs_encode (validity parseInfo : Byte) (as : List Attr) (path : Attr → List Segment)
    (hfits : ∀ a ∈ as, a.Fits)
    (hpath : ∀ a ∈ as, a.typeCode = 2#8 →
      a.value = (path a).flatMap (Segment.encode (asnLenOf parseInfo)) ∧
        ∀ s ∈ path a, s.Fits (asnLenOf parseInfo)) :
    scanAttrs (validity :: parseInfo :: as.flatMap Attr.encode) =
      some (originatorOf as,
        as.findSome? fun a => if a.typeCode = 2#8 then firstOfSequence (path a) else none) := by
  have hblob : attrs (attrBlob (validity :: parseInfo :: as.flatMap Attr.encode)) = as :=
    attrs_encode hfits
  have hwidth : asnWidth (validity :: parseInfo :: as.flatMap Attr.encode) = asnLenOf parseInfo := by
    simp [asnWidth, asnLenOf]
  have hasn : asnLenOf parseInfo = 2 ∨ asnLenOf parseInfo = 4 := by
    unfold asnLenOf
    split
    · exact .inr rfl
    · exact .inl rfl
  rw [scanAttrs_flowspecValidationAttrs, flowspecValidationAttrs_eq_readOff, readOff, hblob, hwidth,
    neighborOf, ← List.head?_filterMap, ← List.head?_filterMap]
  congr 3
  refine List.filterMap_congr fun a ha => ?_
  by_cases h2 : a.typeCode = 2#8
  · obtain ⟨hvalue, hsegments⟩ := hpath a ha h2
    rw [if_pos h2, if_pos h2, hvalue, firstSequenceAsn_encode hasn hsegments]
  · rw [if_neg h2, if_neg h2]

/-- an AS_PATH that starts with a set, and another one with numbers of four bytes -/
theorem scanAttrs_encode_twoPaths :
    scanAttrs [0, 1, 0x40, 2, 6, 1, 1, 0, 0, 0, 9, 0x40, 2, 10, 2, 2, 0, 1, 0, 0, 0, 0, 0, 1] =
      some (none, some 65536) :=
  scanAttrs_encode 0 1 [⟨0x40, 2, [1, 1, 0, 0, 0, 9]⟩, ⟨0x40, 2, [2, 2, 0, 1, 0, 0, 0, 0, 0, 1]⟩]
    (fun a => if a.value.length = 6 then [⟨.set, [9]⟩] else [⟨.sequence, [65536, 1]⟩])
    (by unfold Attr.Fits; decide +kernel) (by unfold Segment.Fits; decide +kernel)

end Netom
