import Netom.Lib.AttrWire

/-!
# Numbers of four bytes, the low one first

* `le32`, `ofLe32`  a number modulo 2^32 and its bytes;
* `ofLe32_le32`  the bytes read back.
-/

namespace LittleEndian
open AttrWire

def le32 (n : Nat) : List Byte :=
  [BitVec.ofNat 8 n, BitVec.ofNat 8 (n / 256), BitVec.ofNat 8 (n / 65536),
    BitVec.ofNat 8 (n / 16777216)]

def ofLe32 (bs : List Byte) : Nat := bs.foldr (fun b n => b.toNat + 256 * n) 0

lemma length_le32 (n : Nat) : (le32 n).length = 4 := rfl

lemma ofLe32_le32 {n : Nat} (h : n < 2 ^ 32) : ofLe32 (le32 n) = n := by
  simp only [ofLe32, le32, List.foldr_cons, List.foldr_nil, BitVec.toNat_ofNat]
  omega

end LittleEndian
