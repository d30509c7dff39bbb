import Netom.Lib.AttrWire

/-!
# Numbers of four bytes, and of more

* `be32`, `ofBe32`  a number modulo 2^32 and its bytes, the high one first;
* `ofBe32_be32`  the bytes read back;
* `beBytes n`  a number in `n` bytes.
-/

namespace BigEndian
open AttrWire

def be32 (n : Nat) : List Byte := be16 (n / 65536) ++ be16 n

def ofBe32 (a b c d : Byte) : Nat := ofBe16 a b * 65536 + ofBe16 c d

lemma length_be32 (n : Nat) : (be32 n).length = 4 := rfl

lemma ofBe32_be32 (n : Nat) : ofBe32 (BitVec.ofNat 8 (n / 65536 / 256))
    (BitVec.ofNat 8 (n / 65536)) (BitVec.ofNat 8 (n / 256)) (BitVec.ofNat 8 n) = n % 2 ^ 32 := by
  unfold ofBe32 ofBe16
  simp only [BitVec.toNat_ofNat]
  omega

def beBytes (n v : Nat) : List Byte :=
  (List.range n).map fun i => BitVec.ofNat 8 (v / 256 ^ (n - 1 - i))

lemma length_beBytes (n v : Nat) : (beBytes n v).length = n := by
  rw [beBytes, List.length_map, List.length_range]

end BigEndian
