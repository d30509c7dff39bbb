import Netom.Lib.BigEndian
import Netom.Lib.Segments
import Netom.Lib.Run
import Netom.FlowSpec.Store

/-!
# The bytes of a set of FlowSpec rules

The store keeps a set of rules as one run of bytes: a version, and for each rule a flags byte, the
lengths of its NLRI and of its attributes, and the two themselves.

* `entryAt`  the rule at a position;
* `iter`, `remove`, `upsert`  as the source walks over the bytes;
* `RawRules`  the rules that the bytes stand for, each NLRI once;
* `blob_iter`  after any operations, `iter` yields these rules;
* `decoded_run`  **with the attributes decoded they are a `FlowSpecRuleSet`**.
-/

namespace Netom
open AttrWire BigEndian List Segments Run

/-! ## attributes -/

/-- `RotondaPaMap`: the RPKI byte, the parse flag and the attributes -/
abbrev RawPaMap := List (BitVec 8)

/-- no attributes, not validated, and parsed with four-octet AS numbers -/
def RawPaMap.emptyPathAttributes : RawPaMap := [0, 1]

/-- less than the two bytes in front is taken for no attributes -/
def RawPaMap.fromRaw (raw : List (BitVec 8)) : RawPaMap :=
  if raw.length < 2 then emptyPathAttributes else raw

def FlowSpecValidity.toFlags : FlowSpecValidity → BitVec 8
  | .notValidated => 0
  | .valid => 1
  | .invalid => 2
  | .unvalidatable => 3

def FlowSpecValidity.fromFlags (flags : BitVec 8) : FlowSpecValidity :=
  if flags &&& 0x03 = 1 then .valid
  else if flags &&& 0x03 = 2 then .invalid
  else if flags &&& 0x03 = 3 then .unvalidatable
  else .notValidated

lemma fromFlags_toFlags (v : FlowSpecValidity) : .fromFlags v.toFlags = v := by
  cases v <;> decide

structure RawRule where
  validity : FlowSpecValidity
  nlri : RawNlri
  pamap : RawPaMap
  deriving DecidableEq, Repr

/-! ## the bytes -/

def blobVersion : BitVec 8 := 1
def entryHeader : Nat := 1 + 2 + 4

structure RuleBlob where
  raw : List (BitVec 8)
  deriving DecidableEq, Repr

/-- an entry as it is found, with its length -/
structure FoundEntry where
  flags : BitVec 8
  nlri : List (BitVec 8)
  pa : List (BitVec 8)
  len : Nat

/-- the entry at `pos`, unless the rest is cut short -/
def entryAt (body : List (BitVec 8)) (pos : Nat) : Option FoundEntry :=
  match body.drop pos with
  | flags :: n1 :: n0 :: p3 :: p2 :: p1 :: p0 :: rest =>
    let nlriLen := ofBe16 n1 n0
    let paLen := ofBe32 p3 p2 p1 p0
    let entryLen := entryHeader + nlriLen + paLen
    if body.length - pos < entryLen then none
    else some ⟨flags, rest.take nlriLen, (rest.drop nlriLen).take paLen, entryLen⟩
  | _ => none

def FoundEntry.rule (e : FoundEntry) : RawRule := ⟨.fromFlags e.flags, e.nlri, .fromRaw e.pa⟩

namespace RuleBlob

def default : RuleBlob := ⟨[]⟩

/-- what follows the version -/
def body (s : RuleBlob) : List (BitVec 8) := if s.raw.head? = some blobVersion then s.raw.drop 1 else []

/-- the rules from `pos` on; each step moves on by an entry, so there are no more steps than bytes -/
def rulesFrom (body : List (BitVec 8)) : Nat → Nat → List RawRule
  | 0, _ => []
  | fuel + 1, pos =>
    match entryAt body pos with
    | none => []
    | some e => e.rule :: rulesFrom body fuel (pos + e.len)

def iter (s : RuleBlob) : List RawRule := rulesFrom s.body (s.body.length + 1) 0

/-- where the entry with this NLRI is, and its length -/
def findFrom (body : List (BitVec 8)) (nlri : RawNlri) : Nat → Nat → Option (Nat × Nat)
  | 0, _ => none
  | fuel + 1, pos =>
    match entryAt body pos with
    | none => none
    | some e => if e.nlri = nlri then some (pos, e.len) else findFrom body nlri fuel (pos + e.len)

def remove (s : RuleBlob) (nlri : RawNlri) : Bool × RuleBlob :=
  if s.raw.head? ≠ some blobVersion then (false, s)
  else
    match findFrom s.body nlri (s.body.length + 1) 0 with
    | none => (false, s)
    | some (pos, len) =>
      let raw := s.raw.take (1 + pos) ++ s.raw.drop (1 + pos + len)
      (true, ⟨if raw.length = 1 then [] else raw⟩)

/-- an entry of the blob; the lengths go through 16 and 32 bits -/
def encodeEntry (rule : RawRule) : List (BitVec 8) :=
  rule.validity.toFlags :: (be16 rule.nlri.length ++ be32 rule.pamap.length ++ rule.nlri ++ rule.pamap)

def upsert (s : RuleBlob) (rule : RawRule) : Bool × RuleBlob :=
  let (replaced, s) := s.remove rule.nlri
  (replaced, ⟨(if s.raw.isEmpty then [blobVersion] else s.raw) ++ encodeEntry rule⟩)

def asRef (s : RuleBlob) : List (BitVec 8) := s.raw

def fromVec (value : List (BitVec 8)) : RuleBlob := ⟨value⟩

end RuleBlob

/-! ## entries -/

/-- the lengths fit their fields, and the attributes have the two bytes in front -/
structure RawRule.Fits (rule : RawRule) : Prop where
  nlri_lt : rule.nlri.length < 65536
  two_le : 2 ≤ rule.pamap.length
  pamap_lt : rule.pamap.length < 2 ^ 32

lemma length_encodeEntry (rule : RawRule) : (RuleBlob.encodeEntry rule).length =
    entryHeader + rule.nlri.length + rule.pamap.length := by
  show (_ :: (be16 _ ++ be32 _ ++ rule.nlri ++ rule.pamap)).length = _
  simp only [length_cons, length_append, be16, be32, entryHeader, length_nil]
  omega

lemma encodeEntry_append (rule : RawRule) (tail : List (BitVec 8)) :
    RuleBlob.encodeEntry rule ++ tail = rule.validity.toFlags ::
      BitVec.ofNat 8 (rule.nlri.length / 256) :: BitVec.ofNat 8 rule.nlri.length ::
      BitVec.ofNat 8 (rule.pamap.length / 65536 / 256) ::
      BitVec.ofNat 8 (rule.pamap.length / 65536) :: BitVec.ofNat 8 (rule.pamap.length / 256) ::
      BitVec.ofNat 8 rule.pamap.length :: (rule.nlri ++ (rule.pamap ++ tail)) := by
  rw [← append_assoc rule.nlri]
  rfl

lemma entryAt_encode {body tail : List (BitVec 8)} {pos : Nat} {rule : RawRule}
    (hf : rule.Fits) (h : body.drop pos = RuleBlob.encodeEntry rule ++ tail) :
    entryAt body pos = some ⟨rule.validity.toFlags, rule.nlri, rule.pamap,
      (RuleBlob.encodeEntry rule).length⟩ := by
  have hlen : body.length - pos = (RuleBlob.encodeEntry rule).length + tail.length := by
    rw [← length_drop, h, length_append]
  rw [encodeEntry_append] at h
  unfold entryAt
  simp only [h, ofBe16_be16 hf.nlri_lt, ofBe32_be32, Nat.mod_eq_of_lt hf.pamap_lt]
  rw [if_neg, take_left, drop_left, take_left, length_encodeEntry]
  rw [hlen, length_encodeEntry]
  omega

lemma rule_found {rule : RawRule} (hf : rule.Fits) (len : Nat) :
    FoundEntry.rule ⟨rule.validity.toFlags, rule.nlri, rule.pamap, len⟩ = rule := by
  have hraw : RawPaMap.fromRaw rule.pamap = rule.pamap := if_neg (Nat.not_lt.mpr hf.two_le)
  show RawRule.mk (.fromFlags rule.validity.toFlags) rule.nlri (.fromRaw rule.pamap) = rule
  rw [fromFlags_toFlags, hraw]

/-! ## the walk -/

def encodeEntries (rules : List RawRule) : List (List (BitVec 8)) := rules.map RuleBlob.encodeEntry

section walk
variable {rules : List RawRule}

lemma entryAt_offset (hf : ∀ r ∈ rules, r.Fits) (k : Nat) :
    (∃ r, rules[k]? = some r ∧ r.Fits ∧
      entryAt (encodeEntries rules).flatten (Segments.offset (encodeEntries rules) k) =
        some ⟨r.validity.toFlags, r.nlri, r.pamap, (RuleBlob.encodeEntry r).length⟩ ∧
      Segments.offset (encodeEntries rules) k + (RuleBlob.encodeEntry r).length =
        Segments.offset (encodeEntries rules) (k + 1)) ∨
    rules[k]? = none ∧
      entryAt (encodeEntries rules).flatten (Segments.offset (encodeEntries rules) k) = none := by
  cases hk : rules[k]? with
  | none =>
    refine .inr ⟨rfl, ?_⟩
    unfold entryAt
    rw [drop_offset, drop_of_length_le]
    · rfl
    · unfold encodeEntries
      rw [length_map]
      exact getElem?_eq_none_iff.mp hk
  | some r =>
    have hfit := hf r (mem_of_getElem? hk)
    have hx : (encodeEntries rules)[k]? = some (RuleBlob.encodeEntry r) := by
      unfold encodeEntries
      rw [getElem?_map, hk]
      rfl
    have hdrop : (encodeEntries rules).flatten.drop (offset (encodeEntries rules) k) =
        RuleBlob.encodeEntry r ++ ((encodeEntries rules).drop (k + 1)).flatten := by
      rw [drop_offset, drop_eq_getElem?_toList_append, hx]
      rfl
    exact .inl ⟨r, rfl, hfit, entryAt_encode hfit hdrop, (offset_succ hx).symm⟩

lemma rulesFrom_offset (hf : ∀ r ∈ rules, r.Fits) (fuel k : Nat) (hlen : rules.length < fuel + k) :
    RuleBlob.rulesFrom (encodeEntries rules).flatten fuel
      (Segments.offset (encodeEntries rules) k) = rules.drop k := by
  induction fuel generalizing k with
  | zero =>
    rw [drop_of_length_le (by omega)]
    rfl
  | succ fuel ih =>
    rcases entryAt_offset hf k with ⟨r, hk, hfit, he, hnext⟩ | ⟨hk, he⟩
    · rw [RuleBlob.rulesFrom, he]
      show FoundEntry.rule _ :: RuleBlob.rulesFrom _ fuel (_ + (RuleBlob.encodeEntry r).length) = _
      rw [rule_found hfit, hnext, ih (k + 1) (by omega), drop_eq_getElem?_toList_append (i := k), hk]
      rfl
    · rw [RuleBlob.rulesFrom, he, drop_of_length_le (getElem?_eq_none_iff.mp hk)]

lemma findFrom_offset (hf : ∀ r ∈ rules, r.Fits) (nlri : RawNlri) (fuel k : Nat)
    (hlen : rules.length < fuel + k) :
    (∃ j r, rules[j]? = some r ∧ r.nlri = nlri ∧
      RuleBlob.findFrom (encodeEntries rules).flatten nlri fuel
        (Segments.offset (encodeEntries rules) k) =
        some (Segments.offset (encodeEntries rules) j, (RuleBlob.encodeEntry r).length)) ∨
    (∀ r ∈ rules.drop k, r.nlri ≠ nlri) ∧
      RuleBlob.findFrom (encodeEntries rules).flatten nlri fuel
        (Segments.offset (encodeEntries rules) k) = none := by
  induction fuel generalizing k with
  | zero =>
    refine .inr ⟨?_, rfl⟩
    rw [drop_of_length_le (by omega)]
    intro r hr
    cases hr
  | succ fuel ih =>
    rcases entryAt_offset hf k with ⟨r, hk, hfit, he, hnext⟩ | ⟨hk, he⟩
    · rw [RuleBlob.findFrom, he]
      by_cases hn : r.nlri = nlri
      · exact .inl ⟨k, r, hk, hn, if_pos hn⟩
      · simp only [hn, if_false, hnext]
        rcases ih (k + 1) (by omega) with h | ⟨hno, hnone⟩
        · exact .inl h
        · refine .inr ⟨?_, hnone⟩
          rw [drop_eq_getElem?_toList_append (i := k), hk]
          intro r' hr'
          rcases mem_cons.mp hr' with rfl | hr'
          · exact hn
          · exact hno r' hr'
    · refine .inr ⟨?_, ?_⟩
      · rw [drop_of_length_le (getElem?_eq_none_iff.mp hk)]
        intro r hr
        cases hr
      · rw [RuleBlob.findFrom, he]

end walk

/-! ## the bytes of a list of rules -/

/-- no bytes for no rules -/
def blobOf (rules : List RawRule) : RuleBlob :=
  ⟨if rules = [] then [] else blobVersion :: (encodeEntries rules).flatten⟩

section blob
variable {rules : List RawRule}

lemma body_blobOf (rules : List RawRule) : (blobOf rules).body = (encodeEntries rules).flatten := by
  unfold blobOf RuleBlob.body
  by_cases h : rules = []
  · rw [h]
    rfl
  · rw [if_neg h]
    rfl

lemma length_le_flatten (rules : List RawRule) :
    rules.length ≤ (encodeEntries rules).flatten.length := by
  induction rules with
  | nil => exact Nat.le_refl 0
  | cons r rules ih =>
    show rules.length + 1 ≤ (RuleBlob.encodeEntry r ++ (encodeEntries rules).flatten).length
    rw [length_append, length_encodeEntry]
    unfold entryHeader
    omega

lemma iter_blobOf (hf : ∀ r ∈ rules, r.Fits) : (blobOf rules).iter = rules := by
  unfold RuleBlob.iter
  rw [body_blobOf]
  have hlen := length_le_flatten rules
  exact rulesFrom_offset hf _ 0 (by omega)

lemma raw_blobOf (h : rules ≠ []) :
    (blobOf rules).raw = blobVersion :: (encodeEntries rules).flatten := if_neg h

/-- in rules with distinct NLRIs, the others are all but the one at `j` -/
lemma eraseIdx_eq_filter {j : Nat} {r : RawRule} (hn : (rules.map (·.nlri)).Nodup)
    (hj : rules[j]? = some r) :
    rules.eraseIdx j = rules.filter fun x => x.nlri ≠ r.nlri := by
  induction rules generalizing j with
  | nil => cases hj
  | cons x rules ih =>
    obtain ⟨hx, hrest⟩ := nodup_cons.mp hn
    cases j with
    | zero =>
      cases hj
      have hall : rules.filter (fun y => y.nlri ≠ r.nlri) = rules := by
        rw [filter_eq_self]
        intro y hy
        refine decide_eq_true ?_
        intro he
        exact hx (mem_map.mpr ⟨y, hy, he⟩)
      rw [filter_cons, hall]
      simp
    | succ j =>
      have hr : r ∈ rules := mem_of_getElem? hj
      have hne : x.nlri ≠ r.nlri := by
        intro he
        exact hx (mem_map.mpr ⟨r, hr, he.symm⟩)
      rw [filter_cons, if_pos (decide_eq_true hne), eraseIdx_cons_succ, ih hrest hj]

lemma cut_entry {j : Nat} {r : RawRule} (hj : rules[j]? = some r) :
    (encodeEntries rules).flatten.take (Segments.offset (encodeEntries rules) j) ++
      (encodeEntries rules).flatten.drop (Segments.offset (encodeEntries rules) j +
        (RuleBlob.encodeEntry r).length) = (encodeEntries (rules.eraseIdx j)).flatten := by
  have hx : (encodeEntries rules)[j]? = some (RuleBlob.encodeEntry r) := by
    unfold encodeEntries
    rw [getElem?_map, hj]
    rfl
  rw [← offset_succ hx, take_offset, drop_offset, ← flatten_append]
  unfold encodeEntries
  rw [eraseIdx_eq_take_drop_succ, map_append, map_take, map_drop]

lemma remove_blobOf (hf : ∀ r ∈ rules, r.Fits) (hn : (rules.map (·.nlri)).Nodup)
    (nlri : RawNlri) : (blobOf rules).remove nlri =
      (rules.any fun r => r.nlri = nlri, blobOf (rules.filter fun r => r.nlri ≠ nlri)) := by
  by_cases h : rules = []
  · rw [h]
    rfl
  have hhead : (blobOf rules).raw.head? = some blobVersion := by
    rw [raw_blobOf h]
    rfl
  have hlen := length_le_flatten rules
  unfold RuleBlob.remove
  rw [if_neg (not_not_intro hhead), body_blobOf]
  rcases findFrom_offset hf nlri ((encodeEntries rules).flatten.length + 1) 0 (by omega) with
    ⟨j, r, hj, rfl, hfind⟩ | ⟨hno, hfind⟩
  · have hany : (rules.any fun x => x.nlri = r.nlri) = true :=
      any_eq_true.mpr ⟨r, mem_of_getElem? hj, decide_eq_true rfl⟩
    rw [offset_zero] at hfind
    rw [hfind, hany, ← eraseIdx_eq_filter hn hj, raw_blobOf h]
    have hcut : (blobVersion :: (encodeEntries rules).flatten).take
          (1 + offset (encodeEntries rules) j) ++
        (blobVersion :: (encodeEntries rules).flatten).drop
          (1 + offset (encodeEntries rules) j + (RuleBlob.encodeEntry r).length) =
        blobVersion :: (encodeEntries (rules.eraseIdx j)).flatten := by
      rw [show 1 + offset (encodeEntries rules) j + (RuleBlob.encodeEntry r).length =
        (offset (encodeEntries rules) j + (RuleBlob.encodeEntry r).length) + 1 by omega,
        Nat.add_comm 1, take_succ_cons, drop_succ_cons, cons_append, cut_entry hj]
    show (true, RuleBlob.mk (if ((_ : List (BitVec 8)) ++ _).length = 1 then [] else _ ++ _)) = _
    rw [hcut]
    unfold blobOf
    congr 2
    have hle := length_le_flatten (rules.eraseIdx j)
    cases he : rules.eraseIdx j with
    | nil => rfl
    | cons x xs =>
      rw [he, length_cons] at hle
      rw [if_neg (cons_ne_nil x xs), if_neg]
      rw [length_cons]
      omega
  · rw [offset_zero] at hfind
    rw [hfind]
    have hany : (rules.any fun x => x.nlri = nlri) = false := by
      refine any_eq_false.mpr ?_
      intro x hx he
      exact hno x hx (of_decide_eq_true he)
    have hall : rules.filter (fun x => x.nlri ≠ nlri) = rules := by
      rw [filter_eq_self]
      intro x hx
      exact decide_eq_true (hno x hx)
    rw [hany, hall]

lemma upsert_blobOf (hf : ∀ r ∈ rules, r.Fits) (hn : (rules.map (·.nlri)).Nodup)
    (rule : RawRule) : (blobOf rules).upsert rule =
      (rules.any fun r => r.nlri = rule.nlri,
        blobOf ((rules.filter fun r => r.nlri ≠ rule.nlri) ++ [rule])) := by
  unfold RuleBlob.upsert
  rw [remove_blobOf hf hn]
  show (_, RuleBlob.mk _) = _
  refine congrArg (Prod.mk _) ?_
  have hflat : ∀ xs : List RawRule, (encodeEntries (xs ++ [rule])).flatten =
      (encodeEntries xs).flatten ++ RuleBlob.encodeEntry rule := by
    intro xs
    unfold encodeEntries
    rw [map_append, flatten_append]
    exact congrArg _ (append_nil _)
  unfold blobOf
  rw [if_neg (append_ne_nil_of_right_ne_nil _ (cons_ne_nil rule [])), hflat]
  by_cases h : (rules.filter fun r => r.nlri ≠ rule.nlri) = []
  · rw [h]
    rfl
  · rw [if_neg h]
    rfl

end blob

/-! ## runs -/

inductive RuleOp where
  | upsert (rule : RawRule)
  | remove (nlri : RawNlri)

def RuleOp.Fits : RuleOp → Prop
  | .upsert rule => rule.Fits
  | .remove _ => True

/-- the longest NLRI has 4095 bytes -/
def RuleOp.InRange : RuleOp → Prop
  | .upsert rule => rule.nlri.length ≤ 4095 ∧ 2 ≤ rule.pamap.length ∧ rule.pamap.length < 2 ^ 32
  | .remove nlri => nlri.length ≤ 4095

structure RawRules where
  rules : List RawRule
  answers : List Bool

namespace RawRules

def empty : RawRules := ⟨[], []⟩

def step (s : RawRules) : RuleOp → RawRules
  | .upsert rule => ⟨(s.rules.filter fun r => r.nlri ≠ rule.nlri) ++ [rule],
      s.answers ++ [s.rules.any fun r => r.nlri = rule.nlri]⟩
  | .remove nlri => ⟨s.rules.filter fun r => r.nlri ≠ nlri,
      s.answers ++ [s.rules.any fun r => r.nlri = nlri]⟩

end RawRules

/-- the bytes, and the answers so far -/
structure BlobRun where
  blob : RuleBlob
  answers : List Bool

namespace BlobRun

def empty : BlobRun := ⟨.default, []⟩

def step (s : BlobRun) : RuleOp → BlobRun
  | .upsert rule => ⟨(s.blob.upsert rule).2, s.answers ++ [(s.blob.upsert rule).1]⟩
  | .remove nlri => ⟨(s.blob.remove nlri).2, s.answers ++ [(s.blob.remove nlri).1]⟩

end BlobRun

/-- the bytes are those of the rules -/
structure Stands (s : BlobRun) (t : RawRules) : Prop where
  blob : s.blob = blobOf t.rules
  answers : s.answers = t.answers
  fits : ∀ r ∈ t.rules, r.Fits
  nodup : (t.rules.map (·.nlri)).Nodup

lemma stands_empty : Stands .empty .empty := by
  refine ⟨rfl, rfl, ?_, nodup_nil⟩
  intro r hr
  cases hr

lemma nodup_filter {rules : List RawRule} (hn : (rules.map (·.nlri)).Nodup)
    (p : RawRule → Bool) : ((rules.filter p).map (·.nlri)).Nodup :=
  hn.sublist (filter_sublist.map _)

lemma stands_step {s : BlobRun} {t : RawRules} (h : Stands s t) {op : RuleOp} (ho : op.Fits) :
    Stands (s.step op) (t.step op) := by
  cases op with
  | upsert rule =>
    have hu := upsert_blobOf h.fits h.nodup rule
    rw [← h.blob] at hu
    refine ⟨congrArg Prod.snd hu, ?_, ?_, ?_⟩
    · show s.answers ++ [_] = t.answers ++ [_]
      rw [h.answers, hu]
    · intro r hr
      rcases mem_append.mp hr with hr | hr
      · exact h.fits r (mem_of_mem_filter hr)
      · rw [mem_singleton.mp hr]
        exact ho
    · show (map _ (_ ++ [rule])).Nodup
      rw [map_append, nodup_append]
      refine ⟨nodup_filter h.nodup _, nodup_singleton _, ?_⟩
      intro a ha b hb hab
      obtain ⟨r, hr, rfl⟩ := mem_map.mp ha
      rw [map_singleton, mem_singleton] at hb
      have hne := of_decide_eq_true (mem_filter.mp hr).2
      exact hne (hab.trans hb)
  | remove nlri =>
    have hu := remove_blobOf h.fits h.nodup nlri
    rw [← h.blob] at hu
    refine ⟨congrArg Prod.snd hu, ?_, ?_, nodup_filter h.nodup _⟩
    · show s.answers ++ [_] = t.answers ++ [_]
      rw [h.answers, hu]
    · intro r hr
      exact h.fits r (mem_of_mem_filter hr)

lemma stands_run {s : BlobRun} {t : RawRules} (h : Stands s t) {ops : List RuleOp}
    (ho : ∀ op ∈ ops, op.Fits) : Stands (run BlobRun.step s ops) (run RawRules.step t ops) := by
  induction ops generalizing s t with
  | nil => exact h
  | cons op ops ih =>
    exact ih (stands_step h (ho op mem_cons_self)) fun o hm => ho o (mem_cons_of_mem op hm)

/-- **The bytes stand for the rules**: after any `upsert` and `remove`, of NLRIs of at most 4095
bytes and attributes whose bytes are at least two and fewer than 2^32, `iter` yields each NLRI once,
with the attributes and the validity of its last `upsert`, in the order of the last `upsert`s; the
answers tell whether the NLRI was there; and the bytes are all there is to the set. -/
theorem blob_iter {ops : List RuleOp}
    (ho : ∀ op ∈ ops, op.InRange) :
    let s := run BlobRun.step .empty ops
    let t := run RawRules.step .empty ops
    s.blob.iter = t.rules ∧ (t.rules.map (·.nlri)).Nodup ∧ s.answers = t.answers ∧
      RuleBlob.fromVec s.blob.asRef = s.blob := by
  intro s t
  have hfits : ∀ op ∈ ops, op.Fits := by
    intro op hm
    cases op with
    | upsert rule =>
      obtain ⟨hn, htwo, hp⟩ := ho _ hm
      exact ⟨by omega, htwo, hp⟩
    | remove nlri => exact trivial
  have h : Stands s t := stands_run stands_empty hfits
  refine ⟨?_, h.nodup, h.answers, rfl⟩
  rw [h.blob]
  exact iter_blobOf h.fits

/-- a rule that replaces another one goes to the end -/
theorem blob_iter_replaced :
    let a : RawRule := ⟨.notValidated, [1, 0], [0, 1]⟩
    let b : RawRule := ⟨.valid, [3], [2, 1, 7]⟩
    let ops : List RuleOp := [.upsert a, .upsert b, .upsert { a with validity := .invalid }]
    (run BlobRun.step .empty ops).blob.iter = [b, { a with validity := .invalid }] ∧
      (run BlobRun.step .empty ops).answers = [false, false, true] := by
  intro a b ops
  have ho : ∀ op ∈ ops, op.InRange := by
    intro op hm
    simp only [ops, mem_cons, not_mem_nil, or_false] at hm
    rcases hm with rfl | rfl | rfl <;> exact ⟨by decide, by decide, by decide⟩
  obtain ⟨hiter, _, hans, _⟩ := blob_iter ho
  rw [hiter, hans]
  exact ⟨by decide, by decide⟩

/-- attributes of a multiple of 2^32 bytes have the length 0 in their entry -/
lemma head_iter_wrapped (v : FlowSpecValidity) {n : Nat} (hn : n % 2 ^ 32 = 0) :
    (RuleBlob.default.upsert ⟨v, [], List.replicate n 0⟩).2.iter.head? = some ⟨v, [], [0, 1]⟩ := by
  have hraw : (RuleBlob.default.upsert ⟨v, [], replicate n 0⟩).2 =
      ⟨blobVersion :: RuleBlob.encodeEntry ⟨v, [], replicate n 0⟩⟩ := rfl
  have hentry : entryAt (RuleBlob.encodeEntry ⟨v, [], replicate n 0⟩) 0 =
      some ⟨v.toFlags, [], [], 7⟩ := by
    have happ := encodeEntry_append ⟨v, [], replicate n 0⟩ []
    rw [append_nil] at happ
    unfold entryAt
    rw [drop_zero, happ]
    simp only [length_replicate, ofBe32_be32, hn]
    have hlong : ¬ (RuleBlob.encodeEntry ⟨v, [], replicate n 0⟩).length - 0 <
        entryHeader + 0 + 0 := by
      rw [length_encodeEntry]
      omega
    rw [happ] at hlong
    rw [length_replicate] at hlong
    exact if_neg hlong
  rw [hraw]
  unfold RuleBlob.iter
  show (RuleBlob.rulesFrom (RuleBlob.encodeEntry _) (_ + 1) 0).head? = _
  rw [RuleBlob.rulesFrom, hentry]
  show some (FoundEntry.rule ⟨v.toFlags, [], [], 7⟩) = _
  unfold FoundEntry.rule
  rw [fromFlags_toFlags]
  rfl

/-- attributes without the two bytes in front come back as no attributes, and so do attributes of
2^32 bytes -/
theorem blob_iter_lossy :
    (RuleBlob.default.upsert ⟨.valid, [], []⟩).2.iter = [⟨.valid, [], [0, 1]⟩] ∧
      (RuleBlob.default.upsert ⟨.valid, [], List.replicate (2 ^ 32) 0⟩).2.iter.head? =
        some ⟨.valid, [], [0, 1]⟩ :=
  ⟨by decide, head_iter_wrapped .valid (by decide)⟩

/-! ## the set of rules of the store -/

section decoded
variable (decode : RawPaMap → RotondaPaMap)

def RawRule.decoded (rule : RawRule) : FlowSpecRule := ⟨rule.validity, rule.nlri, decode rule.pamap⟩

/-- the operation on a `FlowSpecRuleSet` -/
def RuleOp.apply (s : FlowSpecRuleSet) : RuleOp → FlowSpecRuleSet
  | .upsert rule => (s.upsert (rule.decoded decode)).2
  | .remove nlri => (s.remove nlri).2

lemma decoded_filter (rules : List RawRule) (nlri : RawNlri) :
    (rules.filter fun r => r.nlri ≠ nlri).map (RawRule.decoded decode) =
      FlowSpecRuleSet.without (rules.map (RawRule.decoded decode)) nlri := by
  unfold FlowSpecRuleSet.without
  rw [filter_map]
  rfl

lemma decoded_step {t : RawRules} {s : FlowSpecRuleSet} (op : RuleOp)
    (h : s.rules = t.rules.map (RawRule.decoded decode)) :
    (op.apply decode s).rules = (t.step op).rules.map (RawRule.decoded decode) := by
  cases op with
  | upsert rule =>
    show FlowSpecRuleSet.without s.rules rule.nlri ++ [rule.decoded decode] =
      ((t.rules.filter fun r => r.nlri ≠ rule.nlri) ++ [rule]).map _
    rw [map_append, decoded_filter, h]
    rfl
  | remove nlri =>
    show FlowSpecRuleSet.without s.rules nlri = (t.rules.filter fun r => r.nlri ≠ nlri).map _
    rw [decoded_filter, h]

/-- **the rules in the bytes are the set of rules that the model of the store has** -/
theorem decoded_run {ops : List RuleOp} (ho : ∀ op ∈ ops, op.Fits) :
    (run (RuleOp.apply decode) FlowSpecRuleSet.default ops).rules =
      (run BlobRun.step .empty ops).blob.iter.map (RawRule.decoded decode) := by
  have hrules : ∀ (ops : List RuleOp) (t : RawRules) (s : FlowSpecRuleSet),
      s.rules = t.rules.map (RawRule.decoded decode) →
      (run (RuleOp.apply decode) s ops).rules =
        (run RawRules.step t ops).rules.map (RawRule.decoded decode) := by
    intro ops
    induction ops with
    | nil => exact fun _ _ h => h
    | cons op ops ih => exact fun t s h => ih _ _ (decoded_step decode op h)
  have hs := stands_run stands_empty ho
  rw [hs.blob, iter_blobOf hs.fits]
  exact hrules ops .empty FlowSpecRuleSet.default rfl

end decoded

def readWidth (raw : RawPaMap) : RotondaPaMap := ⟨.notChecked, raw[1]? = some 1, []⟩

/-- a rule is replaced, and another one taken out -/
def changedRules : List RuleOp :=
  [.upsert ⟨.valid, [3], [0, 1]⟩, .upsert ⟨.valid, [4], [0, 1]⟩, .upsert ⟨.invalid, [3], [0, 2]⟩,
    .remove [4]]

theorem decoded_run_changed :
    (run (RuleOp.apply readWidth) FlowSpecRuleSet.default changedRules).rules =
        [⟨.invalid, [3], ⟨.notChecked, false, []⟩⟩] ∧
      (run (RuleOp.apply readWidth) FlowSpecRuleSet.default changedRules).rules =
        (run BlobRun.step .empty changedRules).blob.iter.map (RawRule.decoded readWidth) := by
  refine ⟨by decide, decoded_run readWidth ?_⟩
  simp only [changedRules, forall_mem_cons]
  exact ⟨⟨by decide, by decide, by decide⟩, ⟨by decide, by decide, by decide⟩,
    ⟨by decide, by decide, by decide⟩, trivial, forall_mem_nil _⟩

end Netom
