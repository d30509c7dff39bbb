import Mathlib

/-!
# Path attributes on the wire

An attribute is a flags byte, a type code, a length of one byte, or of two if the extended length
flag is set, and that many bytes of value.  A run of attributes is read up to the first that does
not fit in what is left.

* `next`  the first attribute, and what follows it;
* `attrs`  the attributes of a run;
* `next_encode`, `encode_of_next`  `next` takes apart what `encode` puts together, and nothing else;
* `attrs_encode`  a run of attributes reads back;
* `attrs_append`  what is read of a run is a first part of it, up to where no attribute follows.
-/

namespace AttrWire
open BitVec List

abbrev Byte := BitVec 8

/-- two bytes, the high one first -/
def be16 (n : Nat) : List Byte := [BitVec.ofNat 8 (n / 256), BitVec.ofNat 8 n]

def ofBe16 (hi lo : Byte) : Nat := hi.toNat * 256 + lo.toNat

lemma ofBe16_be16 {n : Nat} (h : n < 65536) :
    ofBe16 (BitVec.ofNat 8 (n / 256)) (BitVec.ofNat 8 n) = n := by
  unfold ofBe16
  rw [toNat_ofNat, toNat_ofNat]
  omega

lemma ofBe16_lt (hi lo : Byte) : ofBe16 hi lo < 65536 := by
  have h1 := hi.isLt
  have h2 := lo.isLt
  unfold ofBe16
  omega

lemma be16_ofBe16 (hi lo : Byte) : be16 (ofBe16 hi lo) = [hi, lo] := by
  have h1 := hi.isLt
  have h2 := lo.isLt
  have hh : BitVec.ofNat 8 (ofBe16 hi lo / 256) = hi := by
    apply eq_of_toNat_eq
    rw [toNat_ofNat]
    unfold ofBe16
    omega
  have hl : BitVec.ofNat 8 (ofBe16 hi lo) = lo := by
    apply eq_of_toNat_eq
    rw [toNat_ofNat]
    unfold ofBe16
    omega
  unfold be16
  rw [hh, hl]

structure Attr where
  flags : Byte
  typeCode : Byte
  value : List Byte
  deriving DecidableEq, Repr

def extended (flags : Byte) : Bool := flags &&& 0x10#8 != 0#8

/-- the bytes of a length -/
def encodeLen (flags : Byte) (n : Nat) : List Byte :=
  if extended flags then be16 n else [BitVec.ofNat 8 n]

/-- the length fits its field -/
def Attr.Fits (a : Attr) : Prop :=
  a.value.length < if extended a.flags then 65536 else 256

def Attr.encode (a : Attr) : List Byte :=
  a.flags :: a.typeCode :: (encodeLen a.flags a.value.length ++ a.value)

/-- an attribute of `n` bytes -/
def takeValue (flags typeCode : Byte) (n : Nat) (body : List Byte) : Option (Attr × List Byte) :=
  if n ≤ body.length then some (⟨flags, typeCode, body.take n⟩, body.drop n) else none

def next : List Byte → Option (Attr × List Byte)
  | flags :: typeCode :: rest =>
    if extended flags then
      match rest with
      | hi :: lo :: body => takeValue flags typeCode (ofBe16 hi lo) body
      | _ => none
    else
      match rest with
      | len :: body => takeValue flags typeCode len.toNat body
      | _ => none
  | _ => none

lemma takeValue_append (flags typeCode : Byte) (value rest : List Byte) :
    takeValue flags typeCode value.length (value ++ rest) = some (⟨flags, typeCode, value⟩, rest) := by
  unfold takeValue
  rw [if_pos (by simp), take_left, drop_left]

variable {a : Attr} {rest : List Byte}

lemma of_takeValue {flags typeCode : Byte} {n : Nat} {body : List Byte}
    (h : takeValue flags typeCode n body = some (a, rest)) :
    a.flags = flags ∧ a.typeCode = typeCode ∧ a.value.length = n ∧ body = a.value ++ rest := by
  obtain ⟨hn, heq⟩ := Option.ite_none_right_eq_some.mp h
  cases heq
  refine ⟨rfl, rfl, ?_, (take_append_drop n body).symm⟩
  rw [length_take]
  omega

lemma next_encode (h : a.Fits) (rest : List Byte) : next (a.encode ++ rest) = some (a, rest) := by
  unfold Attr.Fits at h
  unfold Attr.encode encodeLen
  by_cases hx : extended a.flags = true
  · rw [if_pos hx] at h
    rw [if_pos hx]
    show next (a.flags :: a.typeCode :: BitVec.ofNat 8 (a.value.length / 256) ::
      BitVec.ofNat 8 a.value.length :: (a.value ++ rest)) = _
    simp only [next, hx, if_true]
    rw [ofBe16_be16 h, takeValue_append]
  · rw [if_neg hx] at h
    rw [if_neg hx]
    show next (a.flags :: a.typeCode :: BitVec.ofNat 8 a.value.length :: (a.value ++ rest)) = _
    have hlen : (BitVec.ofNat 8 a.value.length).toNat = a.value.length := by
      rw [toNat_ofNat]
      omega
    simp only [next, hx]
    rw [if_neg Bool.false_ne_true, hlen, takeValue_append]

variable {b : List Byte}

lemma encode_of_next (h : next b = some (a, rest)) : b = a.encode ++ rest ∧ a.Fits := by
  unfold next at h
  split at h
  · rename_i flags typeCode tail
    by_cases hx : extended flags = true
    · rw [if_pos hx] at h
      split at h
      · rename_i hi lo body
        obtain ⟨hf, ht, hl, hb⟩ := of_takeValue h
        unfold Attr.encode Attr.Fits encodeLen
        rw [hf, ht, hl, hx, if_pos rfl, if_pos rfl, be16_ofBe16, hb]
        exact ⟨rfl, ofBe16_lt hi lo⟩
      · cases h
    · rw [if_neg hx] at h
      split at h
      · rename_i len body
        obtain ⟨hf, ht, hl, hb⟩ := of_takeValue h
        unfold Attr.encode Attr.Fits encodeLen
        rw [hf, ht, hl, if_neg hx, if_neg hx, ofNat_toNat, setWidth_eq, hb]
        exact ⟨rfl, len.isLt⟩
      · cases h
  · cases h

lemma length_of_next (h : next b = some (a, rest)) : rest.length < b.length := by
  obtain ⟨rfl, -⟩ := encode_of_next h
  unfold Attr.encode
  simp only [length_append, length_cons]
  omega

/-- the attributes of a run, at most `fuel` of them -/
def walk : Nat → List Byte → List Attr
  | 0, _ => []
  | fuel + 1, b =>
    match next b with
    | some (a, rest) => a :: walk fuel rest
    | none => []

def attrs (b : List Byte) : List Attr := walk b.length b

lemma fits_of_mem_walk {fuel : Nat} (h : a ∈ walk fuel b) : a.Fits := by
  induction fuel generalizing b with
  | zero => exact absurd h not_mem_nil
  | succ fuel ih =>
    rw [walk] at h
    split at h
    · rename_i a' rest hn
      rcases mem_cons.mp h with rfl | h
      · exact (encode_of_next hn).2
      · exact ih h
    · exact absurd h not_mem_nil

lemma fits_of_mem_attrs (h : a ∈ attrs b) : a.Fits :=
  fits_of_mem_walk h

lemma walk_encode {as : List Attr} (h : ∀ a ∈ as, a.Fits) {fuel : Nat}
    (hf : as.length ≤ fuel) : walk fuel (as.flatMap Attr.encode) = as := by
  induction as generalizing fuel with
  | nil =>
    cases fuel with
    | zero | succ fuel => rfl
  | cons a as ih =>
    cases fuel with
    | zero => simp at hf
    | succ fuel =>
      have hn := next_encode (h a mem_cons_self) (as.flatMap Attr.encode)
      have hrest : as.length ≤ fuel := Nat.succ_le_succ_iff.mp hf
      rw [flatMap_cons, walk, hn]
      show a :: walk fuel (as.flatMap Attr.encode) = a :: as
      rw [ih (fun a' ha' => h a' (mem_cons_of_mem a ha')) hrest]

lemma length_le_flatMap_encode (as : List Attr) :
    as.length ≤ (as.flatMap Attr.encode).length := by
  induction as with
  | nil => exact Nat.le_refl 0
  | cons a as ih =>
    have hpos : 0 < a.encode.length := Nat.succ_pos _
    rw [flatMap_cons, length_append, length_cons]
    omega

lemma attrs_encode {as : List Attr} (h : ∀ a ∈ as, a.Fits) :
    attrs (as.flatMap Attr.encode) = as :=
  walk_encode h (length_le_flatMap_encode as)

lemma walk_append {fuel : Nat} (h : b.length ≤ fuel) :
    ∃ rest, b = (walk fuel b).flatMap Attr.encode ++ rest ∧ next rest = none := by
  induction fuel generalizing b with
  | zero =>
    obtain rfl : b = [] := length_eq_zero_iff.mp (Nat.le_zero.mp h)
    exact ⟨[], rfl, rfl⟩
  | succ fuel ih =>
    rw [walk]
    cases hn : next b with
    | none => exact ⟨b, rfl, hn⟩
    | some found =>
      obtain ⟨a, tail⟩ := found
      have hlt := length_of_next hn
      obtain ⟨rest, hrest, hnone⟩ := ih (b := tail) (by omega)
      refine ⟨rest, ?_, hnone⟩
      rw [List.flatMap_cons, List.append_assoc, ← hrest]
      exact (encode_of_next hn).1

lemma attrs_append (b : List Byte) :
    ∃ rest, b = (attrs b).flatMap Attr.encode ++ rest ∧ next rest = none :=
  walk_append (Nat.le_refl _)

end AttrWire
