import Netom.FlowSpec.Scan
import Netom.BmpOut.Updates

/-!
# The loop that drops multiprotocol attributes

`filter_pa_from_raw` reads bytes by their position.  As in the scanner of FlowSpec
validation, a read outside of them is `none`, like a loop that does not end.

* `filterLoop`  the loop, `filterPaChecked` the function;
* `filterPaChecked_eq` it returns what `filterPaFromRaw` does;
* `filter_spec`  **it keeps the attributes before the first malformed one, other than those of
  type 14 and 15, and keeps all of what it has written**.
-/

namespace Netom.Builder
open AttrWire Option

/-- type code, start and end of the value at a position; `some none` leaves the loop -/
def paHeaderAt (paBlob : Bytes) (pos : Nat) : Option (Option (Byte × Nat × Nat)) := do
  if paBlob.length < pos + 2 then return none
  let flags ← paBlob[pos]?
  let typeCode ← paBlob[pos + 1]?
  if extended flags then
    if paBlob.length < pos + 4 then return none
    let hi ← paBlob[pos + 2]?
    let lo ← paBlob[pos + 3]?
    return endAt paBlob typeCode (pos + 4) (ofBe16 hi lo)
  else
    if paBlob.length < pos + 3 then return none
    let len ← paBlob[pos + 2]?
    return endAt paBlob typeCode (pos + 3) len.toNat

/-- what is kept of the attribute from `pos` to `stop`, whose value is from `start` on -/
def keepAt (paBlob : Bytes) (acc : Bytes × Option Bytes) (typeCode : Byte) (pos start stop : Nat) :
    Option (Bytes × Option Bytes) :=
  if typeCode = 14 then do
    let value ← slice paBlob start stop
    if 4 ≤ value.length then
      let nhLen ← value[3]?
      if 4 + nhLen.toNat ≤ value.length then
        let nh ← slice value 4 (4 + nhLen.toNat)
        return (acc.1, some nh)
      else return acc
    else return acc
  else if typeCode ≠ 15 then do
    let bytes ← slice paBlob pos stop
    return (acc.1 ++ bytes, acc.2)
  else some acc

def filterLoop (paBlob : Bytes) : Nat → Nat → Bytes × Option Bytes → Option (Bytes × Option Bytes)
  | 0, _, _ => none
  | fuel + 1, pos, acc =>
    if pos < paBlob.length then
      match paHeaderAt paBlob pos with
      | none => none
      | some none => some acc
      | some (some (typeCode, start, stop)) =>
        (keepAt paBlob acc typeCode pos start stop).bind (filterLoop paBlob fuel stop)
    else some acc

def filterPaChecked (raw : Bytes) : Option (Bytes × Option Bytes) :=
  if raw.length < 2 then some ([], none)
  else (slice raw 2 raw.length).bind fun paBlob =>
    filterLoop paBlob (paBlob.length + 1) 0 ([], none)

/-! ## one turn -/

section turn
variable {paBlob : Bytes} {pos : Nat}

/-- the same header as that of the scanner, which checks the length once more often -/
lemma paHeaderAt_eq (hpos : pos ≤ paBlob.length) :
    paHeaderAt paBlob pos = headerAt paBlob pos := by
  have hget := getElem?_of_drop (rfl : paBlob.drop pos = _)
  have hlen : (paBlob.drop pos).length = paBlob.length - pos := List.length_drop
  have hsub : sizeSub paBlob.length pos = some (paBlob.drop pos).length := by
    rw [hlen, sizeSub, if_pos hpos]
  have hlt : ∀ k, paBlob.length < pos + k ↔ (paBlob.drop pos).length < k := fun k => by omega
  have h0 : paBlob[pos]? = (paBlob.drop pos)[0]? := hget 0
  simp only [paHeaderAt, headerAt, hsub, hlt, h0, hget]
  rcases paBlob.drop pos with _ | ⟨flags, _ | ⟨typeCode, _ | ⟨x, _ | ⟨y, rest⟩⟩⟩⟩
  · simp
  · simp
  all_goals cases hx : extended flags <;> simp [hx]

lemma slice_of_next {a : Attr} {stop : Nat} (hn : next (paBlob.drop pos) = some (a, paBlob.drop stop))
    (hlt : pos < stop) (hle : stop ≤ paBlob.length) : slice paBlob pos stop = some a.encode := by
  obtain ⟨henc, -⟩ := encode_of_next hn
  have hlen := congrArg List.length henc
  rw [List.length_append, List.length_drop, List.length_drop] at hlen
  rw [slice, if_pos ⟨Nat.le_of_lt hlt, hle⟩, henc, List.take_left' (by omega)]

lemma keepAt_eq {a : Attr} {start stop : Nat} (acc : Bytes × Option Bytes)
    (hvalue : slice paBlob start stop = some a.value) (hbytes : slice paBlob pos stop = some a.encode) :
    keepAt paBlob acc a.typeCode pos start stop = some (filterPa acc a) := by
  unfold keepAt filterPa mpReachNextHop
  by_cases h14 : a.typeCode = 14
  · rw [if_pos h14, if_pos h14, hvalue]
    by_cases h4 : 4 ≤ a.value.length
    · have hget : a.value[3]? = some (a.value.getD 3 0) := by
        rw [List.getD_eq_getElem?_getD, List.getElem?_eq_getElem h4, getD_some]
      simp only [bind_eq_bind, bind_some, if_pos h4, hget]
      by_cases hnh : 4 + (a.value.getD 3 0).toNat ≤ a.value.length
      · simp only [if_pos hnh, slice_eq hnh, bind_some]
        rfl
      · simp only [if_neg hnh]
        rfl
    · simp only [bind_eq_bind, bind_some, if_neg h4]
      rfl
  · rw [if_neg h14, if_neg h14, hbytes]
    split
    · rfl
    · rfl

end turn

/-! ## the whole loop -/

lemma filterLoop_eq {paBlob : Bytes} {fuel pos n : Nat} (acc : Bytes × Option Bytes)
    (hpos : pos ≤ paBlob.length) (hfuel : paBlob.length - pos < fuel) (hn : paBlob.length - pos ≤ n) :
    filterLoop paBlob fuel pos acc = some ((walk n (paBlob.drop pos)).foldl filterPa acc) := by
  induction fuel generalizing pos n acc with
  | zero => omega
  | succ fuel ih =>
    unfold filterLoop
    by_cases hlt : pos < paBlob.length
    · obtain ⟨n, rfl⟩ : ∃ m, n = m + 1 := ⟨n - 1, by omega⟩
      rw [if_pos hlt, paHeaderAt_eq hpos, walk]
      rcases headerAt_spec hpos with ⟨hh, hnext⟩ | ⟨a, start, stop, hh, hnext, hs, hps, hle⟩
      · rw [hh, hnext]
        rfl
      · rw [hh, hnext]
        simp only [keepAt_eq acc hs (slice_of_next hnext hps hle), bind_some, List.foldl_cons]
        exact ih (filterPa acc a) hle (by omega) (by omega)
    · have hdrop : paBlob.drop pos = [] := List.drop_eq_nil_of_le (by omega)
      have hwalk : walk n [] = [] := by cases n <;> rfl
      rw [if_neg hlt, hdrop, hwalk]
      rfl

/-- it ends, stays in bounds, and returns what is kept of the parsed attributes -/
lemma filterPaChecked_eq (raw : Bytes) : filterPaChecked raw = some (filterPaFromRaw raw) := by
  unfold filterPaChecked filterPaFromRaw
  by_cases h : raw.length < 2
  · rw [if_pos h, if_pos h]
  · have hslice : slice raw 2 raw.length = some (raw.drop 2) := by
      rw [slice, if_pos ⟨by omega, Nat.le_refl _⟩, List.take_of_length_le (by rw [List.length_drop])]
    rw [if_neg h, if_neg h, hslice, bind_some]
    exact filterLoop_eq ([], none) (Nat.zero_le _) (Nat.lt_succ_self _) (Nat.le_refl _)

/-- what was written is kept when it is read again, behind any two bytes -/
lemma filterPaFromRaw_kept (raw : Bytes) (x y : Byte) :
    filterPaFromRaw (x :: y :: (filterPaFromRaw raw).1) = ((filterPaFromRaw raw).1, none) := by
  have hattrs : attrs ((keptAttrs raw).flatMap Attr.encode) = keptAttrs raw :=
    attrs_encode fun a ha => fits_of_mem_keptAttrs ha
  have hkept : keptAttrs (x :: y :: (keptAttrs raw).flatMap Attr.encode) = keptAttrs raw := by
    show (attrs ((keptAttrs raw).flatMap Attr.encode)).filter isKept = _
    rw [hattrs]
    exact List.filter_eq_self.mpr fun a => isKept_of_mem_keptAttrs
  have hhop : storedNextHop (x :: y :: (keptAttrs raw).flatMap Attr.encode) = none := by
    show ((attrs ((keptAttrs raw).flatMap Attr.encode)).filterMap reachNextHop).getLast? = none
    rw [hattrs, List.filterMap_eq_nil_iff.mpr]
    · rfl
    · intro a ha
      have hk := isKept_of_mem_keptAttrs ha
      refine if_neg fun h14 => ?_
      simp [isKept, h14] at hk
  simp only [filterPaFromRaw_eq, hkept, hhop]

/-- **the attributes before the first malformed one, without those of type 14 and 15, byte for byte,
and the last next hop of those of type 14; what was written is kept behind any two bytes** -/
theorem filter_spec (raw : Bytes) : ∃ (as : List Attr) (rest out : Bytes),
    raw.drop 2 = as.flatMap Attr.encode ++ rest ∧ next rest = none ∧ (∀ a ∈ as, a.Fits) ∧
    out = (as.filter fun a => a.typeCode ≠ 14 && a.typeCode ≠ 15).flatMap Attr.encode ∧
    filterPaChecked raw = some (out, (as.filterMap reachNextHop).getLast?) ∧
    ∀ x y, filterPaChecked (x :: y :: out) = some (out, none) := by
  obtain ⟨rest, hrest, hnone⟩ := attrs_append (raw.drop 2)
  refine ⟨attrs (raw.drop 2), rest, (filterPaFromRaw raw).1, hrest, hnone,
    fun a => fits_of_mem_attrs, ?_, ?_, fun x y => ?_⟩
  · rw [filterPaFromRaw_eq]
    rfl
  · rw [filterPaChecked_eq, filterPaFromRaw_eq]
    rfl
  · rw [filterPaChecked_eq, filterPaFromRaw_kept]

/-- an ORIGIN, read again without two bytes in front of it, is lost -/
theorem filter_again_lossy : filterPaChecked [0, 0, 0x40, 1, 1, 0] = some ([0x40, 1, 1, 0], none) ∧
    filterPaChecked [0x40, 1, 1, 0] = some ([], none) := by decide

end Netom.Builder
