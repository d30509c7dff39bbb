import Netom.Lib.PrefixMatch

/-!
# Longest matches

Prefixes that cover a common prefix are nested.  `IsLongest` is the longest of those that cover `p` and
have a property; it is unique (`IsLongest.unique`), stays the longest of fewer if it is one of them
(`IsLongest.restrict`), and exists as soon as one of finitely many has the property
(`exists_isLongest`).

A `LongestMatcher` is a search in a table of prefixes and owners that answers with the longest prefix
that has a record (of one owner, if it is asked for one) and with its records.
`LongestMatcher.reference` is a linear search.
-/

namespace LongestMatch
open List Prod
variable {P M R : Type}

/-- what `covers` has to be: the prefixes that cover one prefix are a chain -/
structure Nested (covers : P → P → Bool) : Prop where
  refl : ∀ p, covers p p = true
  trans : ∀ {p q r}, covers p q = true → covers q r = true → covers p r = true
  antisymm : ∀ {p q}, covers p q = true → covers q p = true → p = q
  chain : ∀ {p q q'}, covers q p = true → covers q' p = true → covers q q' = true ∨ covers q' q = true

/-- `q` covers `p` and has the property, and every other prefix that does covers `q` -/
structure IsLongest (covers : P → P → Bool) (has : P → Prop) (p q : P) : Prop where
  cover : covers q p = true
  holds : has q
  longest : ∀ q', covers q' p = true → has q' → covers q' q = true

variable {covers : P → P → Bool} {has has' : P → Prop} {p q q' : P}

lemma IsLongest.unique (hn : Nested covers) (h : IsLongest covers has p q)
    (h' : IsLongest covers has p q') : q = q' :=
  hn.antisymm (h'.longest q h.cover h.holds) (h.longest q' h'.cover h'.holds)

lemma IsLongest.restrict (h : IsLongest covers has p q) (hsub : ∀ q, has' q → has q) (hq : has' q) :
    IsLongest covers has' p q where
  cover := h.cover
  holds := hq
  longest := fun q' hc hq' => h.longest q' hc (hsub q' hq')

lemma exists_isLongest (hn : Nested covers) (l : List P) (hl : ∀ q, has q → q ∈ l)
    (hex : ∃ q, covers q p = true ∧ has q) : ∃ q, IsLongest covers has p q := by
  -- the longest of those in an initial part of the list
  have hstep : ∀ l : List P, (∃ q ∈ l, covers q p = true ∧ has q) →
      ∃ q ∈ l, covers q p = true ∧ has q ∧
        ∀ q' ∈ l, covers q' p = true → has q' → covers q' q = true := by
    intro l
    induction l with
    | nil =>
      rintro ⟨q, hq, -⟩
      cases hq
    | cons a l ih =>
      intro hex
      by_cases ha : covers a p = true ∧ has a
      · by_cases hrest : ∃ q ∈ l, covers q p = true ∧ has q
        · obtain ⟨q, hq, hc, hh, hmax⟩ := ih hrest
          rcases hn.chain ha.1 hc with h | h
          · refine ⟨q, mem_cons_of_mem a hq, hc, hh, forall_mem_cons.mpr ⟨fun _ _ => h, hmax⟩⟩
          · refine ⟨a, mem_cons_self, ha.1, ha.2, forall_mem_cons.mpr ⟨fun _ _ => hn.refl a, ?_⟩⟩
            intro q' hq' hc' hh'
            exact hn.trans (hmax q' hq' hc' hh') h
        · refine ⟨a, mem_cons_self, ha.1, ha.2, forall_mem_cons.mpr ⟨fun _ _ => hn.refl a, ?_⟩⟩
          intro q' hq' hc' hh'
          exact absurd ⟨q', hq', hc', hh'⟩ hrest
      · obtain ⟨q, hq, hc, hh⟩ := hex
        have hq' : q ∈ l := by
          rcases mem_cons.mp hq with rfl | hq
          · exact absurd ⟨hc, hh⟩ ha
          · exact hq
        obtain ⟨q, hq, hc, hh, hmax⟩ := ih ⟨q, hq', hc, hh⟩
        refine ⟨q, mem_cons_of_mem a hq, hc, hh, forall_mem_cons.mpr ⟨?_, hmax⟩⟩
        intro hca hha
        exact absurd ⟨hca, hha⟩ ha
  obtain ⟨q, hc, hq⟩ := hex
  obtain ⟨q, -, hc, hh, hmax⟩ := hstep l ⟨q, hl q hq, hc, hq⟩
  exact ⟨q, hc, hh, fun q' hc' hq' => hmax q' (hl q' hq') hc' hq'⟩

/-! ## searches in a table -/

variable [DecidableEq P] [DecidableEq M]

/-- the record of `m` at `q`, where the search is for the owner `mui` or for all -/
def Held (t : Assoc (P × M) R) (mui : Option M) (q : P) (m : M) (r : R) : Prop :=
  t.lookup (q, m) = some r ∧ mui.all (· = m) = true

def Stored (t : Assoc (P × M) R) (mui : Option M) (q : P) : Prop := ∃ m r, Held t mui q m r

/-- the longest covering prefix with a record, and its records -/
structure LongestMatcher (covers : P → P → Bool) (M R : Type) [DecidableEq M] where
  run : Assoc (P × M) R → P → Option M → Option (P × List (M × R))
  matched : ∀ {t p mui q rs}, run t p mui = some (q, rs) →
    IsLongest covers (Stored t mui) p q ∧ (rs.map fst).Nodup ∧
      ∀ m r, (m, r) ∈ rs ↔ Held t mui q m r
  unmatched : ∀ {t p mui}, run t p mui = none → ∀ q, covers q p = true → ¬ Stored t mui q

def recordsOf (t : Assoc (P × M) R) (mui : Option M) (q : P) : List (M × R) :=
  t.entries.filterMap fun e =>
    if e.1.1 = q ∧ mui.all (· = e.1.2) = true then some (e.1.2, e.2) else none

variable {t : Assoc (P × M) R}

lemma mem_recordsOf {mui : Option M} {q : P} {m : M} {r : R} :
    (m, r) ∈ recordsOf t mui q ↔ Held t mui q m r :=
  @PrefixMatch.mem_recordsAt _ _ _ _ _ ⟨.exactMatch, false, false, mui⟩ t q m r

lemma nodup_recordsOf (t : Assoc (P × M) R) (mui : Option M) (q : P) :
    ((recordsOf t mui q).map fst).Nodup := by
  have hkeys : (recordsOf t mui q).map fst = t.keys.filterMap fun k =>
      if k.1 = q ∧ mui.all (· = k.2) = true then some k.2 else none := by
    unfold recordsOf AList.keys keys
    rw [map_filterMap, filterMap_map]
    refine filterMap_congr ?_
    intro e _
    rw [Option.map_if]
    rfl
  rw [hkeys]
  refine List.Nodup.filterMap ?_ t.nodupKeys
  intro k k' m hk hk'
  obtain ⟨⟨hq, -⟩, hm⟩ := Option.ite_none_right_eq_some.mp hk
  obtain ⟨⟨hq', -⟩, hm'⟩ := Option.ite_none_right_eq_some.mp hk'
  exact Prod.ext (hq.trans hq'.symm) (Option.some.inj (hm.trans hm'.symm))

/-- the first prefix that covers `p`, has a record and is covered by all others that do -/
def search (covers : P → P → Bool) (t : Assoc (P × M) R) (p : P) (mui : Option M) :
    Option (P × List (M × R)) :=
  let found := (t.keys.map fst).filter fun q => covers q p && !(recordsOf t mui q).isEmpty
  (found.find? fun q => found.all fun q' => covers q' q).map fun q => (q, recordsOf t mui q)

lemma stored_iff {mui : Option M} {q : P} :
    Stored t mui q ↔ (recordsOf t mui q).isEmpty = false := by
  rw [← Bool.not_eq_true, List.isEmpty_iff, ← ne_eq, List.ne_nil_iff_exists_cons]
  constructor
  · rintro ⟨m, r, h⟩
    have hm := mem_recordsOf.mpr h
    cases hr : recordsOf t mui q with
    | nil =>
      rw [hr] at hm
      cases hm
    | cons x xs => exact ⟨x, xs, rfl⟩
  · rintro ⟨x, xs, hx⟩
    exact ⟨x.1, x.2, mem_recordsOf.mp (by rw [hx]; exact mem_cons_self)⟩

lemma mem_found {mui : Option M} :
    q ∈ ((t.keys.map fst).filter fun q => covers q p && !(recordsOf t mui q).isEmpty) ↔
      covers q p = true ∧ Stored t mui q := by
  rw [mem_filter, Bool.and_eq_true, Bool.not_eq_true', ← stored_iff]
  constructor
  · rintro ⟨-, h⟩
    exact h
  · rintro ⟨hc, hs⟩
    refine ⟨?_, hc, hs⟩
    obtain ⟨m, r, hl, -⟩ := hs
    have hk : (q, m) ∈ t.keys := AList.mem_keys.mp (AList.lookup_isSome.mp (by rw [hl]; rfl))
    exact mem_map_of_mem hk

def LongestMatcher.reference (hn : Nested covers) : LongestMatcher covers M R where
  run := search covers
  matched := by
    intro t p mui q rs h
    obtain ⟨q', hq', heq⟩ := Option.map_eq_some_iff.mp h
    cases heq
    obtain ⟨hc, hs⟩ := mem_found.mp (mem_of_find?_eq_some hq')
    refine ⟨⟨hc, hs, ?_⟩, nodup_recordsOf t mui q, fun m r => mem_recordsOf⟩
    intro q'' hc'' hs''
    have hall := find?_some hq'
    exact all_eq_true.mp hall q'' (mem_found.mpr ⟨hc'', hs''⟩)
  unmatched := by
    intro t p mui h q hc hs
    have hl : ∀ q, covers q p = true ∧ Stored t mui q →
        q ∈ ((t.keys.map fst).filter fun q => covers q p && !(recordsOf t mui q).isEmpty) :=
      fun q hq => mem_found.mpr hq
    have hex : ∃ q₀, IsLongest covers (fun q => covers q p = true ∧ Stored t mui q) p q₀ :=
      exists_isLongest hn _ hl ⟨q, hc, hc, hs⟩
    obtain ⟨q₀, h₀⟩ := hex
    have hnone := find?_eq_none.mp (Option.map_eq_none_iff.mp h) q₀ (hl q₀ h₀.holds)
    apply hnone
    rw [all_eq_true]
    intro q' hq'
    obtain ⟨hc', hs'⟩ := mem_found.mp hq'
    exact h₀.longest q' hc' ⟨hc', hs'⟩

end LongestMatch
