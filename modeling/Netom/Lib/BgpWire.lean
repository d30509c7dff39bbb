import Netom.Lib.AttrWire
import Netom.Lib.Items

/-!
# BGP messages on the wire

A PDU is a marker, its own length in two bytes, a type and a body.  The body of an UPDATE is two
blocks of a length in two bytes each, the withdrawn routes and the path attributes, and the NLRI
that are left.  Optional parameters and capabilities are a code, a length in one byte and a value.
A reader accepts what its length fields tile.

* `pdu`, `readPdu`  a PDU, and the first PDU of a list of bytes;
* `BgpUpdate`  the parts of an UPDATE, `BgpUpdate.encode` and `readUpdate`;
* `MpReach`, `MpUnreach`  the values of the two multiprotocol attributes;
* `Tlv`  a code and a value of at most 255 bytes;
* `readOpen`  the capabilities of an OPEN.

Each reader takes apart what the encoder of the same name puts together if the lengths fit their
fields.
-/

namespace BgpWire
open AttrWire BitVec List

/-! ## messages -/

def marker : List Byte := replicate 16 0xff#8

def headerLen : Nat := 19

def pdu (type : Byte) (body : List Byte) : List Byte :=
  marker ++ (be16 (headerLen + body.length) ++ type :: body)

lemma length_pdu (type : Byte) (body : List Byte) :
    (pdu type body).length = headerLen + body.length := by
  simp only [pdu, marker, be16, headerLen, length_append, length_replicate,
    length_cons, length_nil]
  omega

lemma pdu_of_length {type : Byte} {body : List Byte} {n : Nat} (h : n = headerLen + body.length) :
    marker ++ (be16 n ++ type :: body) = pdu type body := by
  rw [h, pdu]

/-- `n` bytes in all, of which the header has been read -/
def takeBody (type : Byte) (n : Nat) (rest : List Byte) : Option ((Byte × List Byte) × List Byte) :=
  if headerLen ≤ n ∧ n - headerLen ≤ rest.length then
    some ((type, rest.take (n - headerLen)), rest.drop (n - headerLen))
  else none

/-- the type and the body of the first PDU, and what follows it -/
def readPdu (bs : List Byte) : Option ((Byte × List Byte) × List Byte) :=
  if bs.take 16 = marker then
    match bs.drop 16 with
    | hi :: lo :: type :: rest => takeBody type (ofBe16 hi lo) rest
    | _ => none
  else none

lemma readPdu_pdu {type : Byte} {body : List Byte} (h : headerLen + body.length < 65536)
    (rest : List Byte) : readPdu (pdu type body ++ rest) = some ((type, body), rest) := by
  rw [pdu, List.append_assoc]
  show takeBody type (ofBe16 (BitVec.ofNat 8 ((headerLen + body.length) / 256))
    (BitVec.ofNat 8 (headerLen + body.length))) (body ++ rest) = _
  rw [ofBe16_be16 h, takeBody, Nat.add_sub_cancel_left, List.take_left, List.drop_left, if_pos]
  rw [List.length_append]
  omega

/-! ## blocks -/

def block (bs : List Byte) : List Byte := be16 bs.length ++ bs

lemma length_block (bs : List Byte) : (block bs).length = 2 + bs.length := by
  rw [block, length_append]
  rfl

def takeBlock (n : Nat) (rest : List Byte) : Option (List Byte × List Byte) :=
  if n ≤ rest.length then some (rest.take n, rest.drop n) else none

def readBlock : List Byte → Option (List Byte × List Byte)
  | hi :: lo :: rest => takeBlock (ofBe16 hi lo) rest
  | _ => none

lemma takeBlock_append (bs rest : List Byte) :
    takeBlock bs.length (bs ++ rest) = some (bs, rest) := by
  rw [takeBlock, if_pos (by rw [length_append]; omega), take_left, drop_left]

lemma readBlock_block {bs : List Byte} (h : bs.length < 65536) (rest : List Byte) :
    readBlock (block bs ++ rest) = some (bs, rest) := by
  show takeBlock (ofBe16 (BitVec.ofNat 8 (bs.length / 256)) (BitVec.ofNat 8 bs.length))
    (bs ++ rest) = _
  rw [ofBe16_be16 h, takeBlock_append]

/-! ## updates -/

def updateType : Byte := 2

structure BgpUpdate where
  withdrawn : List Byte
  attrs : List Attr
  nlri : List Byte
  deriving DecidableEq, Repr

def BgpUpdate.encode (u : BgpUpdate) : List Byte :=
  block u.withdrawn ++ (block (u.attrs.flatMap Attr.encode) ++ u.nlri)

/-- the body of an UPDATE; the attributes have to fill their block -/
def BgpUpdate.decode (bs : List Byte) : Option BgpUpdate :=
  match readBlock bs with
  | some (withdrawn, rest) =>
    match readBlock rest with
    | some (pa, nlri) => (Items.all next pa).map (⟨withdrawn, ·, nlri⟩)
    | none => none
  | none => none

def readUpdate (bs : List Byte) : Option BgpUpdate :=
  match readPdu bs with
  | some ((type, body), []) => if type = updateType then BgpUpdate.decode body else none
  | _ => none

/-- the lengths fit their fields -/
structure BgpUpdate.Fits (u : BgpUpdate) : Prop where
  attr : ∀ a ∈ u.attrs, a.Fits
  all : headerLen + u.encode.length < 65536

lemma BgpUpdate.length_encode (u : BgpUpdate) : u.encode.length =
    4 + u.withdrawn.length + (u.attrs.flatMap Attr.encode).length + u.nlri.length := by
  rw [encode, length_append, length_append, length_block, length_block]
  omega

lemma BgpUpdate.decode_encode {u : BgpUpdate} (h : u.Fits) : BgpUpdate.decode u.encode = some u := by
  have hall := h.all
  rw [length_encode] at hall
  have hw : readBlock u.encode = some (u.withdrawn, _) := readBlock_block (by omega) _
  have hp : readBlock (block (u.attrs.flatMap Attr.encode) ++ u.nlri) =
      some (u.attrs.flatMap Attr.encode, u.nlri) := readBlock_block (by omega) _
  have ha : Items.all next (u.attrs.flatMap Attr.encode) = some u.attrs :=
    Items.all_flatMap fun a ha => ⟨cons_ne_nil _ _, next_encode (h.attr a ha)⟩
  unfold decode
  simp only [hw, hp, ha]
  rfl

lemma readUpdate_pdu {u : BgpUpdate} (h : u.Fits) :
    readUpdate (pdu updateType u.encode) = some u := by
  have hp : readPdu (pdu updateType u.encode ++ []) = some ((updateType, u.encode), []) :=
    readPdu_pdu h.all []
  rw [append_nil] at hp
  unfold readUpdate
  simp only [hp, if_true]
  exact BgpUpdate.decode_encode h

/-! ## multiprotocol attributes -/

structure MpReach where
  afi : Nat
  safi : Byte
  nextHop : List Byte
  nlri : List Byte
  deriving DecidableEq, Repr

/-- the byte after the next hop is reserved -/
def MpReach.encode (m : MpReach) : List Byte :=
  be16 m.afi ++ m.safi :: BitVec.ofNat 8 m.nextHop.length :: (m.nextHop ++ 0#8 :: m.nlri)

lemma MpReach.length_encode (m : MpReach) :
    m.encode.length = 5 + m.nextHop.length + m.nlri.length := by
  simp only [encode, be16, length_append, length_cons, length_nil]
  omega

def takeNextHop (afi : Nat) (safi : Byte) (n : Nat) (rest : List Byte) : Option MpReach :=
  if n < rest.length then some ⟨afi, safi, rest.take n, rest.drop (n + 1)⟩ else none

def readMpReach : List Byte → Option MpReach
  | hi :: lo :: safi :: n :: rest => takeNextHop (ofBe16 hi lo) safi n.toNat rest
  | _ => none

lemma readMpReach_encode {m : MpReach} (ha : m.afi < 65536) (hn : m.nextHop.length < 256) :
    readMpReach m.encode = some m := by
  have hlen : (BitVec.ofNat 8 m.nextHop.length).toNat = m.nextHop.length := by
    rw [toNat_ofNat]
    omega
  show takeNextHop (ofBe16 (BitVec.ofNat 8 (m.afi / 256)) (BitVec.ofNat 8 m.afi)) m.safi
    (BitVec.ofNat 8 m.nextHop.length).toNat (m.nextHop ++ 0#8 :: m.nlri) = some m
  rw [ofBe16_be16 ha, hlen, takeNextHop, if_pos, take_left, drop_append]
  · rw [drop_eq_nil_of_le (Nat.le_succ _), Nat.add_sub_cancel_left]
    rfl
  · rw [length_append, length_cons]
    omega

structure MpUnreach where
  afi : Nat
  safi : Byte
  nlri : List Byte
  deriving DecidableEq, Repr

def MpUnreach.encode (m : MpUnreach) : List Byte := be16 m.afi ++ m.safi :: m.nlri

lemma MpUnreach.length_encode (m : MpUnreach) : m.encode.length = 3 + m.nlri.length := by
  simp only [encode, be16, length_append, length_cons, length_nil]
  omega

def readMpUnreach : List Byte → Option MpUnreach
  | hi :: lo :: safi :: nlri => some ⟨ofBe16 hi lo, safi, nlri⟩
  | _ => none

lemma readMpUnreach_encode {m : MpUnreach} (ha : m.afi < 65536) :
    readMpUnreach m.encode = some m := by
  show some (MpUnreach.mk (ofBe16 (BitVec.ofNat 8 (m.afi / 256)) (BitVec.ofNat 8 m.afi)) m.safi
    m.nlri) = some m
  rw [ofBe16_be16 ha]

/-! ## codes with a length of one byte -/

structure Tlv where
  code : Byte
  value : List Byte
  deriving DecidableEq, Repr

def Tlv.encode (t : Tlv) : List Byte := t.code :: BitVec.ofNat 8 t.value.length :: t.value

def Tlv.Fits (t : Tlv) : Prop := t.value.length < 256

lemma Tlv.length_encode (t : Tlv) : t.encode.length = 2 + t.value.length := by
  rw [encode, length_cons, length_cons]
  omega

def takeTlv (code : Byte) (n : Nat) (rest : List Byte) : Option (Tlv × List Byte) :=
  if n ≤ rest.length then some (⟨code, rest.take n⟩, rest.drop n) else none

def nextTlv : List Byte → Option (Tlv × List Byte)
  | code :: n :: rest => takeTlv code n.toNat rest
  | _ => none

lemma reads_tlv {t : Tlv} (h : t.Fits) : Items.Reads nextTlv Tlv.encode t := by
  refine ⟨cons_ne_nil _ _, fun rest => ?_⟩
  have hlen : (BitVec.ofNat 8 t.value.length).toNat = t.value.length := by
    unfold Tlv.Fits at h
    rw [toNat_ofNat]
    omega
  show takeTlv t.code (BitVec.ofNat 8 t.value.length).toNat (t.value ++ rest) = _
  rw [hlen, takeTlv, if_pos (by rw [length_append]; omega), take_left, drop_left]

lemma fits_of_nextTlv {bs : List Byte} {t : Tlv} {rest : List Byte}
    (h : nextTlv bs = some (t, rest)) : t.Fits := by
  unfold nextTlv at h
  split at h
  · rename_i code n tail
    obtain ⟨hn, heq⟩ := Option.ite_none_right_eq_some.mp h
    cases heq
    have hlt := n.isLt
    show (tail.take n.toNat).length < 256
    rw [length_take]
    omega
  · cases h

/-! ## opens -/

def openType : Byte := 1
def capabilitiesParam : Byte := 2

/-- the capabilities of the parameters that hold some, one after the other -/
def readCapabilities : List Tlv → Option (List Tlv)
  | [] => some []
  | p :: ps =>
    if p.code = capabilitiesParam then
      match Items.all nextTlv p.value with
      | some caps => (readCapabilities ps).map (caps ++ ·)
      | none => none
    else readCapabilities ps

/-- the optional parameters: their length in one byte, and parameters that fill it -/
def readParams : List Byte → Option (List Tlv)
  | n :: params =>
    if n.toNat = params.length then (Items.all nextTlv params).bind readCapabilities else none
  | [] => none

/-- the capabilities of a message that is one OPEN; version, AS number, hold time and identifier are
nine bytes -/
def readOpen (bs : List Byte) : Option (List Tlv) :=
  match readPdu bs with
  | some ((type, body), []) =>
    if type = openType ∧ 9 ≤ body.length then readParams (body.drop 9) else none
  | _ => none

lemma readOpen_pdu {fields params : List Byte} (hf : fields.length = 9)
    (hlen : headerLen + (fields ++ params).length < 65536) :
    readOpen (pdu openType (fields ++ params)) = readParams params := by
  have hp : readPdu (pdu openType (fields ++ params) ++ []) =
      some ((openType, fields ++ params), []) := readPdu_pdu hlen []
  have hle : 9 ≤ (fields ++ params).length := by
    rw [length_append]
    omega
  rw [append_nil] at hp
  unfold readOpen
  simp only [hp, true_and, if_pos hle]
  rw [← hf, drop_left]

lemma readParams_capabilities {caps : List Tlv} (h : ∀ c ∈ caps, c.Fits) {param : Tlv}
    (hp : param = ⟨capabilitiesParam, caps.flatMap Tlv.encode⟩)
    (hlen : (caps.flatMap Tlv.encode).length ≤ 253) :
    readParams (BitVec.ofNat 8 param.encode.length :: param.encode) = some caps := by
  have hfits : param.value.length ≤ 253 := by rw [hp]; exact hlen
  have hn : (BitVec.ofNat 8 param.encode.length).toNat = param.encode.length := by
    rw [BitVec.toNat_ofNat, Tlv.length_encode]
    omega
  have hone : Items.all nextTlv ([param].flatMap Tlv.encode) = some [param] := by
    apply Items.all_flatMap
    intro t ht
    cases mem_singleton.mp ht
    exact reads_tlv (Nat.lt_of_le_of_lt hfits (by decide))
  have hcaps : Items.all nextTlv (caps.flatMap Tlv.encode) = some caps :=
    Items.all_flatMap fun c hc => reads_tlv (h c hc)
  rw [flatMap_singleton] at hone
  rw [readParams, if_pos hn, hone]
  show readCapabilities [param] = some caps
  rw [hp, readCapabilities, if_pos rfl, hcaps]
  show some (caps ++ []) = some caps
  rw [append_nil]

end BgpWire
