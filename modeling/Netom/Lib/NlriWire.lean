import Netom.Lib.BigEndian
import Netom.Lib.Items

/-!
# Reachability information on the wire

A prefix is a length in bits and as many bytes as its bits need, the last one filled up with zeros.
A flow specification is its own length, in one byte or in two, and its components.  Both follow a
path id of four bytes if the session has negotiated path ids.

* `packBits`, `unpackBits`  bits as bytes, the high bit first;
* `PrefixNlri`, `nextPrefix`  a prefix with its path id, and the first one of a list of bytes;
* `FlowNlri`, `nextFlow`  a flow specification with its path id, and the first one;
* `reads_prefix`, `reads_flow`  the readers take the encodings apart.
-/

namespace NlriWire
open AttrWire BigEndian List

/-! ## bits -/

/-- eight bits, `false` where there are none -/
def octet (bits : List Bool) : List Bool := (range 8).map (bits.getD · false)

def byteOf (bits : List Bool) : Byte :=
  BitVec.ofNat 8 ((octet bits).foldl (fun n b => 2 * n + b.toNat) 0)

def bitsOf (b : Byte) : List Bool := (range 8).map fun i => b.getLsbD (7 - i)

def packBits (bits : List Bool) : List Byte :=
  (range ((bits.length + 7) / 8)).map fun i => byteOf (bits.drop (8 * i))

def unpackBits (n : Nat) (bs : List Byte) : List Bool := (bs.flatMap bitsOf).take n

variable (bits : List Bool)

lemma bitsOf_byteOf : bitsOf (byteOf bits) = octet bits := by
  have h : ∀ a b c d e f g h : Bool,
      bitsOf (BitVec.ofNat 8 ([a, b, c, d, e, f, g, h].foldl (fun n b => 2 * n + b.toNat) 0)) =
        [a, b, c, d, e, f, g, h] := by decide
  exact h _ _ _ _ _ _ _ _

lemma length_packBits : (packBits bits).length = (bits.length + 7) / 8 := by
  rw [packBits, length_map, length_range]

lemma octet_eq_take : octet bits = (bits ++ replicate 8 false).take 8 := by
  apply ext_getElem?
  intro i
  rw [octet, getElem?_map, getElem?_take]
  by_cases hi : i < 8
  · rw [getElem?_range hi, if_pos hi, getElem?_append]
    by_cases hb : i < bits.length
    · rw [if_pos hb, getElem?_eq_getElem hb]
      simp [getD, getElem?_eq_getElem hb]
    · have hlt : i - bits.length < 8 := by omega
      rw [if_neg hb, getElem?_replicate, if_pos hlt]
      simp [getD, getElem?_eq_none (Nat.le_of_not_lt hb)]
  · rw [if_neg hi, getElem?_eq_none (by rw [length_range]; omega)]
    rfl

lemma flatMap_octet (n : Nat) : (range n).flatMap (fun i => octet (bits.drop (8 * i))) =
      (bits ++ replicate (8 * n) false).take (8 * n) := by
  induction n with
  | zero => rfl
  | succ n ih =>
    have hfill : (bits ++ replicate (8 * n) false).take (8 * n) =
        (bits ++ replicate (8 * (n + 1)) false).take (8 * n) := by
      rw [take_append, take_append, take_replicate, take_replicate]
      congr 2
      omega
    have hdrop : octet (bits.drop (8 * n)) =
        ((bits ++ replicate (8 * (n + 1)) false).drop (8 * n)).take 8 := by
      rw [octet_eq_take, drop_append, take_append, take_append, drop_replicate,
        take_replicate, take_replicate, length_drop]
      congr 2
      omega
    rw [range_succ, flatMap_append, ih, flatMap_singleton, hfill, hdrop,
      Nat.mul_succ, take_add]

lemma unpackBits_packBits : unpackBits bits.length (packBits bits) = bits := by
  have h : (packBits bits).flatMap bitsOf =
      (range ((bits.length + 7) / 8)).flatMap (fun i => octet (bits.drop (8 * i))) := by
    rw [packBits, flatMap_map]
    simp only [bitsOf_byteOf]
  have hle : bits.length ≤ 8 * ((bits.length + 7) / 8) := by omega
  rw [unpackBits, h, flatMap_octet, take_take, Nat.min_eq_left hle, take_left]

/-! ## path ids -/

def encodePathId : Option (BitVec 32) → List Byte
  | some id => be32 id.toNat
  | none => []

/-- a path id is there if the session has negotiated path ids -/
def readPathId : Bool → List Byte → Option (Option (BitVec 32) × List Byte)
  | true, a :: b :: c :: d :: rest => some (some (BitVec.ofNat 32 (ofBe32 a b c d)), rest)
  | true, _ => none
  | false, bs => some (none, bs)

lemma length_encodePathId (pathId : Option (BitVec 32)) :
    (encodePathId pathId).length = if pathId.isSome then 4 else 0 := by
  cases pathId with
  | none | some id => rfl

lemma readPathId_encode (pathId : Option (BitVec 32)) (rest : List Byte) :
    readPathId pathId.isSome (encodePathId pathId ++ rest) = some (pathId, rest) := by
  cases pathId with
  | none => rfl
  | some id =>
    show some (some (BitVec.ofNat 32 (ofBe32 _ _ _ _)), rest) = _
    rw [ofBe32_be32, Nat.mod_eq_of_lt id.isLt, BitVec.ofNat_toNat, BitVec.setWidth_eq]

/-! ## prefixes -/

structure PrefixNlri where
  pathId : Option (BitVec 32)
  bits : List Bool
  deriving DecidableEq, Repr

def PrefixNlri.encode (n : PrefixNlri) : List Byte :=
  encodePathId n.pathId ++ BitVec.ofNat 8 n.bits.length :: packBits n.bits

def takePrefix (pathId : Option (BitVec 32)) (n : Nat) (rest : List Byte) :
    Option (PrefixNlri × List Byte) :=
  if (n + 7) / 8 ≤ rest.length then
    some (⟨pathId, unpackBits n (rest.take ((n + 7) / 8))⟩, rest.drop ((n + 7) / 8))
  else none

def nextPrefix (addPath : Bool) (bs : List Byte) : Option (PrefixNlri × List Byte) :=
  match readPathId addPath bs with
  | some (pathId, n :: rest) => takePrefix pathId n.toNat rest
  | _ => none

lemma PrefixNlri.length_encode (n : PrefixNlri) : n.encode.length =
    (if n.pathId.isSome then 4 else 0) + 1 + (n.bits.length + 7) / 8 := by
  rw [encode, length_append, length_cons, length_encodePathId, length_packBits]
  omega

lemma encode_append_ne_nil {bs rest : List Byte} {b : Byte} : bs ++ b :: rest ≠ [] := by
  intro h
  exact cons_ne_nil b rest (append_eq_nil_iff.mp h).2

lemma reads_prefix {n : PrefixNlri} (h : n.bits.length < 256) :
    Items.Reads (nextPrefix n.pathId.isSome) PrefixNlri.encode n := by
  refine ⟨encode_append_ne_nil, fun rest => ?_⟩
  have hlen : (BitVec.ofNat 8 n.bits.length).toNat = n.bits.length := by
    rw [BitVec.toNat_ofNat]
    omega
  have htake : takePrefix n.pathId n.bits.length (packBits n.bits ++ rest) = some (n, rest) := by
    have hp := length_packBits n.bits
    rw [takePrefix, if_pos (by rw [length_append]; omega), take_left' hp,
      drop_left' hp, unpackBits_packBits]
  rw [PrefixNlri.encode, append_assoc, nextPrefix, readPathId_encode]
  show takePrefix n.pathId (BitVec.ofNat 8 n.bits.length).toNat (packBits n.bits ++ rest) = _
  rw [hlen, htake]

/-! ## flow specifications -/

structure FlowNlri where
  pathId : Option (BitVec 32)
  rule : List Byte
  deriving DecidableEq, Repr

/-- one byte below 240, and `0xf000` plus the length in two bytes from there on -/
def encodeFlowLen (n : Nat) : List Byte :=
  if 240 ≤ n then be16 (0xf000 + n) else [BitVec.ofNat 8 n]

def FlowNlri.encode (n : FlowNlri) : List Byte :=
  encodePathId n.pathId ++ (encodeFlowLen n.rule.length ++ n.rule)

def readFlowLen : List Byte → Option (Nat × List Byte)
  | [] => none
  | hi :: rest =>
    if 240 ≤ hi.toNat then
      match rest with
      | lo :: rest => some (ofBe16 hi lo - 0xf000, rest)
      | [] => none
    else some (hi.toNat, rest)

def takeFlow (pathId : Option (BitVec 32)) (n : Nat) (rest : List Byte) :
    Option (FlowNlri × List Byte) :=
  if n ≤ rest.length then some (⟨pathId, rest.take n⟩, rest.drop n) else none

def nextFlow (addPath : Bool) (bs : List Byte) : Option (FlowNlri × List Byte) :=
  match readPathId addPath bs with
  | some (pathId, rest) =>
    match readFlowLen rest with
    | some (n, rest) => takeFlow pathId n rest
    | none => none
  | none => none

lemma length_encodeFlowLen (n : Nat) :
    (encodeFlowLen n).length = if 240 ≤ n then 2 else 1 := by
  unfold encodeFlowLen
  by_cases h : 240 ≤ n
  · rw [if_pos h, if_pos h]
    rfl
  · rw [if_neg h, if_neg h]
    rfl

lemma readFlowLen_encode {n : Nat} (h : n < 4096) (rest : List Byte) :
    readFlowLen (encodeFlowLen n ++ rest) = some (n, rest) := by
  unfold encodeFlowLen
  by_cases h240 : 240 ≤ n
  · rw [if_pos h240]
    show readFlowLen (BitVec.ofNat 8 ((0xf000 + n) / 256) :: BitVec.ofNat 8 (0xf000 + n) :: rest) = _
    have hhi : 240 ≤ (BitVec.ofNat 8 ((0xf000 + n) / 256)).toNat := by
      rw [BitVec.toNat_ofNat]
      omega
    rw [readFlowLen, if_pos hhi]
    show some (ofBe16 _ _ - 0xf000, rest) = _
    rw [ofBe16_be16 (by omega), Nat.add_sub_cancel_left]
  · rw [if_neg h240]
    have hlen : (BitVec.ofNat 8 n).toNat = n := by
      rw [BitVec.toNat_ofNat]
      omega
    show readFlowLen (BitVec.ofNat 8 n :: rest) = _
    simp only [readFlowLen, hlen, if_neg h240]

lemma FlowNlri.length_encode (n : FlowNlri) : n.encode.length =
    (if n.pathId.isSome then 4 else 0) + (if 240 ≤ n.rule.length then 2 else 1) + n.rule.length := by
  rw [encode, length_append, length_append, length_encodePathId, length_encodeFlowLen]
  omega

lemma FlowNlri.encode_ne_nil (n : FlowNlri) : n.encode ≠ [] := by
  have hlen : 0 < (encodeFlowLen n.rule.length).length := by
    rw [length_encodeFlowLen]
    split <;> omega
  apply ne_nil_of_length_pos
  rw [encode, length_append, length_append]
  omega

lemma reads_flow {n : FlowNlri} (h : n.rule.length < 4096) :
    Items.Reads (nextFlow n.pathId.isSome) FlowNlri.encode n := by
  refine ⟨n.encode_ne_nil, fun rest => ?_⟩
  rw [FlowNlri.encode, append_assoc, append_assoc, nextFlow, readPathId_encode]
  show (match readFlowLen (encodeFlowLen n.rule.length ++ (n.rule ++ rest)) with
    | some (m, rest) => takeFlow n.pathId m rest
    | none => none) = _
  rw [readFlowLen_encode h]
  show takeFlow n.pathId n.rule.length (n.rule ++ rest) = _
  rw [takeFlow, if_pos (by rw [length_append]; omega), take_left, drop_left]

end NlriWire
