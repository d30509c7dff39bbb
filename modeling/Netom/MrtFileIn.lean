import Netom.BmpOut.Filter

/-!
# The next hops of an MRT table dump

A table dump keeps of MP_REACH_NLRI the next hop only (RFC 6396, 4.3.4).  `normalize_mrt_mp_reach`
puts the family and the prefix back.  A read outside of the bytes is `none`.

* `normalizeLoop`, `normalizeMrtMpReach`  the loop and the function;
* `fullForm`  an attribute in wire form;
* `normalizeMrtMpReach_full`  **the attributes are written in wire form up to the first malformed
  one, the rest as it is**.
-/

namespace Netom.MrtFileIn
open AttrWire NlriWire Builder Option
open List hiding next

/-- the bytes of the address of a prefix -/
def octets (p : Prefix) : Bytes := packBits (p.bits ++ replicate (p.family.width - p.len) false)

def encodeNlri (p : Prefix) : Option Bytes :=
  (slice (octets p) 0 ((p.len + 7) / 8)).map (BitVec.ofNat 8 p.len :: ·)

def pushMpReach (flags : Byte) (afi : BitVec 16) (safi nhLen : Byte) (nh nlri : Bytes) : Bytes :=
  let newValueLen := 2 + 1 + 1 + nh.length + 1 + nlri.length
  let newFlags := if 255 < newValueLen then flags ||| 0x10 else flags &&& ~~~0x10
  let len := if 255 < newValueLen then be16 newValueLen else [BitVec.ofNat 8 newValueLen]
  [newFlags, 14] ++ len ++ be16 afi.toNat ++ [safi] ++ [nhLen] ++ nh ++ [0] ++ nlri

/-- what is written for the attribute from `pos` to `stop`, whose value is from `start` on -/
def normalizeAt (raw : Bytes) (afi : BitVec 16) (safi : Byte) (nlri : Bytes) (typeCode : Byte)
    (pos start stop : Nat) : Option Bytes :=
  if typeCode = 14 then do
    let mrtValue ← slice raw start stop
    if mrtValue.isEmpty then slice raw pos stop
    else
      let nhLen ← mrtValue[0]?
      if 1 + nhLen.toNat ≤ mrtValue.length then
        let nh ← slice mrtValue 1 (1 + nhLen.toNat)
        let flags ← raw[pos]?
        return pushMpReach flags afi safi nhLen nh nlri
      else slice raw pos stop
  else slice raw pos stop

/-- the loop, of at most `fuel` turns -/
def normalizeLoop (raw : Bytes) (afi : BitVec 16) (safi : Byte) (nlri : Bytes) :
    Nat → Nat → Bytes → Option Bytes
  | 0, _, _ => none
  | fuel + 1, pos, out =>
    if pos < raw.length then
      match paHeaderAt raw pos with
      | none => none
      | some none => (slice raw pos raw.length).map (out ++ ·)
      | some (some (typeCode, start, stop)) =>
        (normalizeAt raw afi safi nlri typeCode pos start stop).bind fun bytes =>
          normalizeLoop raw afi safi nlri fuel stop (out ++ bytes)
    else some out

def normalizeMrtMpReach (raw : Bytes) (afi : BitVec 16) (safi : Byte) (p : Prefix) :
    Option Bytes :=
  (encodeNlri p).bind fun nlri => normalizeLoop raw afi safi nlri (raw.length + 1) 0 []

/-! ## the prefix -/

lemma byteOf_append (bits : List Bool) (n : Nat) :
    byteOf (bits ++ replicate n false) = byteOf bits := by
  have h : octet (bits ++ replicate n false) = octet bits := by
    refine map_congr_left fun i _ => ?_
    rw [getD_eq_getElem?_getD, getD_eq_getElem?_getD, getElem?_append, getElem?_replicate]
    split
    · rfl
    · rw [getElem?_eq_none (by omega)]
      split <;> rfl
  rw [byteOf, h, byteOf]

lemma encodeNlri_eq (p : Prefix) : encodeNlri p = some (PrefixNlri.encode ⟨none, p.bits⟩) := by
  have hw : p.len ≤ p.family.width := p.len_le
  have hall : (p.bits ++ replicate (p.family.width - p.len) false).length = p.family.width := by
    rw [length_append, length_replicate]
    exact Nat.add_sub_of_le hw
  have hle : (p.len + 7) / 8 ≤ (octets p).length := by
    rw [octets, length_packBits, hall]
    omega
  have htake : (octets p).take ((p.len + 7) / 8) = packBits p.bits := by
    rw [octets, length_packBits] at hle
    rw [octets, packBits, ← map_take, take_range, Nat.min_eq_left hle]
    refine map_congr_left fun i _ => ?_
    rw [drop_append, drop_replicate, byteOf_append]
  rw [encodeNlri, slice, if_pos ⟨Nat.zero_le _, hle⟩, drop_zero, Nat.sub_zero, htake]
  rfl

/-! ## one turn -/

/-- the value is a next hop behind its length -/
def Abbreviated (a : Attr) : Prop :=
  ∃ nhLen nh, a.value = nhLen :: nh ∧ nhLen.toNat = nh.length

/-- MP_REACH_NLRI with family, next hop, reserved byte and prefix; other attributes as they are -/
def fullForm (afi : BitVec 16) (safi : Byte) (p : Prefix) (a : Attr) : Attr :=
  if a.typeCode = 14 then
    let value := be16 afi.toNat ++ [safi] ++ a.value ++ [0] ++ PrefixNlri.encode ⟨none, p.bits⟩
    ⟨if 255 < value.length then a.flags ||| 0x10 else a.flags &&& ~~~0x10, 14, value⟩
  else a

lemma extended_set : ∀ flags : Byte, extended (flags ||| 0x10) = true := by decide

lemma extended_clear : ∀ flags : Byte, extended (flags &&& ~~~0x10) = false := by decide

section turn
variable (afi : BitVec 16) (safi : Byte) (p : Prefix) {a : Attr}

lemma length_encode_le : (PrefixNlri.encode ⟨none, p.bits⟩).length ≤ 17 := by
  have hw : p.len ≤ 128 := by
    have hle := p.len_le
    cases hf : p.family <;> rw [hf] at hle
    · exact Nat.le_trans hle (by decide)
    · exact hle
  rw [PrefixNlri.length_encode]
  show 0 + 1 + (p.len + 7) / 8 ≤ 17
  omega

/-- the new length fits its field -/
lemma fits_fullForm (h : a.Fits) (ha : a.typeCode = 14 → Abbreviated a) :
    (fullForm afi safi p a).Fits := by
  unfold fullForm
  split
  · rename_i h14
    obtain ⟨nhLen, nh, hv, hnh⟩ := ha h14
    have hlt := nhLen.isLt
    have hp := length_encode_le p
    unfold Attr.Fits
    simp only [hv, length_append, length_cons, length_nil, be16]
    split
    · rw [extended_set, if_pos rfl]
      omega
    · rw [extended_clear, if_neg Bool.false_ne_true]
      omega
  · exact h

lemma pushMpReach_eq {nhLen : Byte} {nh : Bytes} (h14 : a.typeCode = 14)
    (hv : a.value = nhLen :: nh) :
    pushMpReach a.flags afi safi nhLen nh (PrefixNlri.encode ⟨none, p.bits⟩) =
      (fullForm afi safi p a).encode := by
  rw [fullForm, if_pos h14, hv]
  unfold pushMpReach Attr.encode encodeLen
  have hlen : (be16 afi.toNat ++ [safi] ++ nhLen :: nh ++ [0] ++
      PrefixNlri.encode ⟨none, p.bits⟩).length =
      2 + 1 + 1 + nh.length + 1 + (PrefixNlri.encode ⟨none, p.bits⟩).length := by
    simp only [length_append, length_cons, length_nil, be16]
    omega
  simp only [hlen]
  split
  · rw [extended_set, if_pos rfl]
    simp
  · rw [extended_clear, if_neg Bool.false_ne_true]
    simp

variable {raw : Bytes} {pos start stop : Nat}

lemma normalizeAt_eq (ha : a.typeCode = 14 → Abbreviated a)
    (hflags : raw[pos]? = some a.flags) (hvalue : slice raw start stop = some a.value)
    (hbytes : slice raw pos stop = some a.encode) :
    normalizeAt raw afi safi (PrefixNlri.encode ⟨none, p.bits⟩) a.typeCode pos start stop =
      some (fullForm afi safi p a).encode := by
  unfold normalizeAt
  by_cases h14 : a.typeCode = 14
  · obtain ⟨nhLen, nh, hv, hnh⟩ := ha h14
    have hle : 1 + nh.length ≤ (nhLen :: nh).length := by rw [length_cons, Nat.add_comm]
    have hslice : slice (nhLen :: nh) 1 (1 + nh.length) = some nh := by
      rw [slice_eq hle, drop_one, tail_cons, take_length]
    rw [if_pos h14, hvalue, ← pushMpReach_eq afi safi p h14 hv, hv]
    simp only [bind_eq_bind, bind_some, isEmpty_cons, Bool.false_eq_true, if_false,
      getElem?_cons_zero, hnh, if_pos hle, hslice, hflags]
    rfl
  · rw [if_neg h14, fullForm, if_neg h14, hbytes]

/-! ## the whole loop -/

lemma normalizeLoop_eq {fuel n : Nat} (out : Bytes) (hpos : pos ≤ raw.length)
    (hfuel : raw.length - pos < fuel) (hn : raw.length - pos ≤ n)
    (ha : ∀ a ∈ walk n (raw.drop pos), a.typeCode = 14 → Abbreviated a) :
    ∃ rest, raw.drop pos = (walk n (raw.drop pos)).flatMap Attr.encode ++ rest ∧
      next rest = none ∧
      normalizeLoop raw afi safi (PrefixNlri.encode ⟨none, p.bits⟩) fuel pos out =
        some (out ++ (((walk n (raw.drop pos)).map (fullForm afi safi p)).flatMap Attr.encode ++
          rest)) := by
  induction fuel generalizing pos n out with
  | zero => omega
  | succ fuel ih =>
    unfold normalizeLoop
    by_cases hlt : pos < raw.length
    · obtain ⟨n, rfl⟩ : ∃ m, n = m + 1 := ⟨n - 1, by omega⟩
      rw [if_pos hlt, paHeaderAt_eq hpos, walk]
      rw [walk] at ha
      rcases headerAt_spec hpos with ⟨hh, hnext⟩ | ⟨a, start, stop, hh, hnext, hs, hps, hle⟩
      · have hslice : slice raw pos raw.length = some (raw.drop pos) := by
          rw [slice, if_pos ⟨hpos, Nat.le_refl _⟩, take_of_length_le (by rw [length_drop])]
        rw [hh, hnext, hslice]
        exact ⟨raw.drop pos, rfl, hnext, rfl⟩
      · rw [hnext] at ha
        obtain ⟨henc, -⟩ := encode_of_next hnext
        have hflags : raw[pos]? = some a.flags := by
          rw [← Nat.add_zero pos, getElem?_of_drop henc]
          rfl
        have hat := normalizeAt_eq afi safi p (ha a mem_cons_self) hflags hs
          (slice_of_next hnext hps hle)
        obtain ⟨rest, hrest, hnone, hloop⟩ := ih (n := n) (out ++ (fullForm afi safi p a).encode) hle
          (by omega) (by omega) fun b hb => ha b (mem_cons_of_mem a hb)
        rw [hh, hnext]
        refine ⟨rest, ?_, hnone, ?_⟩
        · rw [flatMap_cons, append_assoc, ← hrest]
          exact henc
        · simp only [hat, bind_some, hloop, map_cons, flatMap_cons, append_assoc]
    · have hdrop : raw.drop pos = [] := drop_eq_nil_of_le (by omega)
      have hwalk : walk n [] = [] := by cases n <;> rfl
      rw [if_neg hlt, hdrop, hwalk]
      exact ⟨[], rfl, rfl, by rw [map_nil, flatMap_nil, append_nil, append_nil]⟩

end turn

/-- **the attributes before the first malformed header in wire form, each with a length that fits
its field, and the bytes from there on** -/
theorem normalizeMrtMpReach_full (raw : Bytes) (afi : BitVec 16) (safi : Byte) (p : Prefix)
    (ha : ∀ a ∈ attrs raw, a.typeCode = 14 → Abbreviated a) :
    ∃ rest, raw = (attrs raw).flatMap Attr.encode ++ rest ∧ next rest = none ∧
      (∀ a ∈ attrs raw, (fullForm afi safi p a).Fits) ∧
      normalizeMrtMpReach raw afi safi p =
        some (((attrs raw).map (fullForm afi safi p)).flatMap Attr.encode ++ rest) := by
  obtain ⟨rest, hrest, hnone, hloop⟩ := normalizeLoop_eq afi safi p [] (Nat.zero_le _)
    (Nat.lt_succ_self _) (Nat.le_refl _) ha
  refine ⟨rest, hrest, hnone, fun a h => fits_fullForm afi safi p (fits_of_mem_attrs h) (ha a h), ?_⟩
  rw [normalizeMrtMpReach, encodeNlri_eq, bind_some]
  exact hloop

/-- a next hop of two bytes in an attribute of extended length, and a byte too many -/
theorem normalizeMrtMpReach_full_hop : ∃ rest : Bytes,
    normalizeMrtMpReach [0x90, 14, 0, 3, 2, 7, 8, 9] 2 1 ⟨.v6, [true], by decide⟩ =
      some ([0x80, 14, 9, 0, 2, 1, 2, 7, 8, 0, 1, 0x80] ++ rest) := by
  have hattrs : attrs [0x90, 14, 0, 3, 2, 7, 8, 9] = [⟨0x90, 14, [2, 7, 8]⟩] := by decide
  obtain ⟨rest, -, -, -, h⟩ := normalizeMrtMpReach_full [0x90, 14, 0, 3, 2, 7, 8, 9] 2 1
    ⟨.v6, [true], by decide⟩ fun a h _ => by
      rw [hattrs] at h
      exact ⟨2, [7, 8], by rw [mem_singleton.mp h], rfl⟩
  rw [hattrs] at h
  exact ⟨rest, h⟩

end Netom.MrtFileIn
