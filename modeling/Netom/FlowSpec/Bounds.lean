import Netom.FlowSpec.Blob
import Netom.FlowSpec.Scan

/-!
# Any bytes as a set of FlowSpec rules

The two loops over the bytes read them by position.  A read, a range or a difference outside of what
there is is `none`, like a loop that does not end.

* `nextChecked`, `iterChecked`  the iterator;
* `findLoop`, `removeChecked`, `upsertChecked`  the search for an NLRI, and what is built on it;
* `any_bytes`  **whatever the bytes are, nothing panics and each loop ends; `remove` finds the
  NLRIs that `iter` yields**.
-/

namespace Netom.RuleBlob
open AttrWire BigEndian List

/-- the lengths of the NLRI and of the attributes at `pos`; `some none` leaves the loop, and `sub` is
the difference that the first test takes -/
def lengthsAt (sub : Nat → Nat → Option Nat) (body : List (BitVec 8)) (pos : Nat) :
    Option (Option (Nat × Nat)) := do
  if (← sub body.length pos) < entryHeader then return none
  let n1 ← body[pos + 1]?
  let n0 ← body[pos + 2]?
  let p3 ← body[pos + 3]?
  let p2 ← body[pos + 4]?
  let p1 ← body[pos + 5]?
  let p0 ← body[pos + 6]?
  let lens := (ofBe16 n1 n0, ofBe32 p3 p2 p1 p0)
  if (← sizeSub body.length pos) < entryHeader + lens.1 + lens.2 then return none
  return some lens

/-- `saturating_sub` -/
def saturatingSub (a b : Nat) : Option Nat := some (a - b)

/-- the rule at `pos`, and where the next one starts -/
def nextChecked (body : List (BitVec 8)) (pos : Nat) : Option (Option (RawRule × Nat)) := do
  match ← lengthsAt saturatingSub body pos with
  | none => return none
  | some (nlriLen, paLen) =>
    let flags ← body[pos]?
    let nlri ← slice body (pos + entryHeader) (pos + entryHeader + nlriLen)
    let pa ← slice body (pos + entryHeader + nlriLen) (pos + entryHeader + nlriLen + paLen)
    return some (⟨.fromFlags flags, nlri, .fromRaw pa⟩, pos + (entryHeader + nlriLen + paLen))

def iterLoop (body : List (BitVec 8)) : Nat → Nat → Option (List RawRule)
  | 0, _ => none
  | fuel + 1, pos => do
    match ← nextChecked body pos with
    | none => return []
    | some (rule, stop) => return rule :: (← iterLoop body fuel stop)

def iterChecked (s : RuleBlob) : Option (List RawRule) := iterLoop s.body (s.body.length + 1) 0

def findLoop (body : List (BitVec 8)) (nlri : RawNlri) : Nat → Nat → Option (Option (Nat × Nat))
  | 0, _ => none
  | fuel + 1, pos => do
    match ← lengthsAt sizeSub body pos with
    | none => return none
    | some (nlriLen, paLen) =>
      let found ← slice body (pos + entryHeader) (pos + entryHeader + nlriLen)
      if found = nlri then return some (pos, entryHeader + nlriLen + paLen)
      findLoop body nlri fuel (pos + (entryHeader + nlriLen + paLen))

def removeChecked (s : RuleBlob) (nlri : RawNlri) : Option (Bool × RuleBlob) :=
  if s.raw.head? ≠ some blobVersion then some (false, s)
  else do
    match ← findLoop s.body nlri (s.body.length + 1) 0 with
    | none => return (false, s)
    | some (pos, len) =>
      -- the range of `drain`
      if s.raw.length < 1 + pos + len then none
      let raw := s.raw.take (1 + pos) ++ s.raw.drop (1 + pos + len)
      return (true, ⟨if raw.length = 1 then [] else raw⟩)

def upsertChecked (s : RuleBlob) (rule : RawRule) : Option (Bool × RuleBlob) := do
  let (replaced, s) ← s.removeChecked rule.nlri
  return (replaced, ⟨(if s.raw.isEmpty then [blobVersion] else s.raw) ++ encodeEntry rule⟩)

/-! ## one entry -/

section entry
variable {body : List (BitVec 8)} {pos : Nat} {sub : Nat → Nat → Option Nat}

/-- where `entryAt` finds an entry, all that the loops read of it is there -/
structure Readable (body : List (BitVec 8)) (pos : Nat) (e : FoundEntry) : Prop where
  len : e.len = entryHeader + e.nlri.length + e.pa.length
  bound : pos + e.len ≤ body.length
  flags : body[pos]? = some e.flags
  nlri : slice body (pos + entryHeader) (pos + entryHeader + e.nlri.length) = some e.nlri
  pa : slice body (pos + entryHeader + e.nlri.length)
    (pos + entryHeader + e.nlri.length + e.pa.length) = some e.pa

lemma Readable.len_pos {e : FoundEntry} (h : Readable body pos e) : 0 < e.len := by
  rw [h.len, entryHeader]
  omega

lemma entryAt_cases (hpos : pos ≤ body.length)
    (hsub : sub body.length pos = some (body.length - pos)) :
    (entryAt body pos = none ∧ lengthsAt sub body pos = some none) ∨
    ∃ e, entryAt body pos = some e ∧ Readable body pos e ∧
      lengthsAt sub body pos = some (some (e.nlri.length, e.pa.length)) := by
  have hget := getElem?_of_drop (rfl : body.drop pos = _)
  have hlen : body.length - pos = (body.drop pos).length := length_drop.symm
  have hsize : sizeSub body.length pos = some (body.drop pos).length := by
    rw [← hlen]
    exact if_pos hpos
  have h7 : entryHeader = 7 := rfl
  rw [hlen] at hsub
  simp only [lengthsAt, entryAt, hsub, hsize, hget, hlen]
  match hd : body.drop pos with
  | [] | [_] | [_, _] | [_, _, _] | [_, _, _, _] | [_, _, _, _, _] | [_, _, _, _, _, _] =>
    exact .inl ⟨rfl, rfl⟩
  | flags :: n1 :: n0 :: p3 :: p2 :: p1 :: p0 :: rest =>
    rw [hd] at hlen
    have hrest : body.drop (pos + entryHeader) = rest := by
      rw [← drop_drop, hd]
      rfl
    by_cases hlt : (flags :: n1 :: n0 :: p3 :: p2 :: p1 :: p0 :: rest).length <
        entryHeader + ofBe16 n1 n0 + ofBe32 p3 p2 p1 p0
    · refine .inl ⟨if_pos hlt, ?_⟩
      simp only [length_cons] at hlt
      simp [hlt]
    · simp only [length_cons] at hlen hlt
      have hn : (rest.take (ofBe16 n1 n0)).length = ofBe16 n1 n0 := length_take_of_le (by omega)
      have hp : ((rest.drop (ofBe16 n1 n0)).take (ofBe32 p3 p2 p1 p0)).length =
          ofBe32 p3 p2 p1 p0 := length_take_of_le (by rw [length_drop]; omega)
      refine .inr ⟨⟨flags, _, _, _⟩, if_neg hlt, ⟨?_, ?_, getElem?_of_drop hd 0, ?_, ?_⟩, ?_⟩
      · rw [hn, hp]
      · show pos + (entryHeader + _ + _) ≤ _
        omega
      · rw [hn, slice_eq (by omega), hrest]
      · rw [hn, hp, slice_eq (by omega), ← drop_drop, hrest]
      · simp [hlt, hn, hp]
        omega

end entry

/-! ## the loops -/

section loops
variable {body : List (BitVec 8)} (nlri : RawNlri)

lemma iterLoop_eq (fuel pos : Nat) (hpos : pos ≤ body.length) (hf : body.length < pos + fuel) :
    iterLoop body fuel pos = some (rulesFrom body fuel pos) := by
  induction fuel generalizing pos with
  | zero => omega
  | succ fuel ih =>
    have hsub : saturatingSub body.length pos = some (body.length - pos) := rfl
    rw [iterLoop, rulesFrom, nextChecked]
    rcases entryAt_cases hpos hsub with ⟨he, hl⟩ | ⟨e, he, hr, hl⟩
    · simp [he, hl]
    · have hlt := hr.len_pos
      have hi := ih (pos + e.len) hr.bound (by omega)
      simp [he, hl, hr.flags, hr.nlri, hr.pa, ← hr.len, hi, FoundEntry.rule]

lemma findLoop_eq (fuel pos : Nat) (hpos : pos ≤ body.length) (hf : body.length < pos + fuel) :
    findLoop body nlri fuel pos = some (findFrom body nlri fuel pos) ∧
      ((findFrom body nlri fuel pos).isSome ↔ ∃ r ∈ rulesFrom body fuel pos, r.nlri = nlri) ∧
      ∀ p len, findFrom body nlri fuel pos = some (p, len) → p + len ≤ body.length := by
  induction fuel generalizing pos with
  | zero => omega
  | succ fuel ih =>
    have hsub : sizeSub body.length pos = some (body.length - pos) := if_pos hpos
    rw [findLoop, findFrom, rulesFrom]
    rcases entryAt_cases hpos hsub with ⟨he, hl⟩ | ⟨e, he, hr, hl⟩
    · simp [he, hl]
    · have hlt := hr.len_pos
      obtain ⟨hi, hiff, hb⟩ := ih (pos + e.len) hr.bound (by omega)
      have hrule : e.rule.nlri = e.nlri := rfl
      by_cases hn : e.nlri = nlri
      · subst hn
        refine ⟨by simp [he, hl, hr.nlri, ← hr.len], by simp [he, hrule], ?_⟩
        intro p len h
        simp only [he, if_true, Option.some.injEq, Prod.mk.injEq] at h
        rw [← h.1, ← h.2]
        exact hr.bound
      · simp only [he, hn, if_false, mem_cons, exists_eq_or_imp, hrule, false_or]
        exact ⟨by simp [hl, hr.nlri, hn, ← hr.len, hi], hiff, hb⟩

end loops

lemma removeChecked_eq (s : RuleBlob) (nlri : RawNlri) :
    s.removeChecked nlri = some (s.remove nlri) ∧
      ((s.remove nlri).1 = true ↔ ∃ r ∈ s.iter, r.nlri = nlri) := by
  have hfuel : s.body.length < 0 + (s.body.length + 1) := by omega
  obtain ⟨hl, hiff, hb⟩ := findLoop_eq nlri _ 0 (Nat.zero_le _) hfuel
  unfold removeChecked remove iter
  rw [← hiff, hl]
  by_cases hv : s.raw.head? = some blobVersion
  · have hlen : s.body.length = s.raw.length - 1 := by
      rw [body, if_pos hv, length_drop]
    have hpos : 0 < s.raw.length := length_pos_of_mem (mem_of_mem_head? hv)
    rw [if_neg (not_not_intro hv), if_neg (not_not_intro hv)]
    cases hfind : findFrom s.body nlri (s.body.length + 1) 0 with
    | none => exact ⟨rfl, by simp⟩
    | some found =>
      have hle := hb _ _ hfind
      have hin : ¬ s.raw.length < 1 + found.1 + found.2 := by omega
      exact ⟨by simp [hin], by simp⟩
  · -- without the version in front there is no body to search
    have hbody : s.body = [] := if_neg hv
    rw [if_pos hv, if_pos hv, hbody]
    exact ⟨rfl, by simp [findFrom, entryAt]⟩

/-- **Any bytes can be read**: whatever a blob holds, `iter`, `remove` and `upsert` return, without
a read, a range or a difference out of bounds, and `remove` finds an NLRI if and only if `iter`
yields it. -/
theorem any_bytes (s : RuleBlob) (nlri : RawNlri) (rule : RawRule) :
    s.iterChecked = some s.iter ∧ s.removeChecked nlri = some (s.remove nlri) ∧
      s.upsertChecked rule = some (s.upsert rule) ∧
      ((s.remove nlri).1 = true ↔ ∃ r ∈ s.iter, r.nlri = nlri) := by
  obtain ⟨hremove, hiff⟩ := removeChecked_eq s nlri
  refine ⟨iterLoop_eq _ 0 (Nat.zero_le _) (by omega), hremove, ?_, hiff⟩
  unfold upsertChecked
  rw [(removeChecked_eq s rule.nlri).1]
  rfl

end Netom.RuleBlob
