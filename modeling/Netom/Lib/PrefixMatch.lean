import Netom.Lib.Tally

/-!
# Queries on a table of prefixes

A table holds one record for each prefix and owner.  A query matches a prefix, exactly or by the
longest stored prefix that covers it, and may ask for the less and for the more specific prefixes
as well.  How a search tree finds the answer is left open:

* `Matcher`  any search whose answers are sound and complete, `FullMatcher` for the less
  specifics of an exact match too;
* `exists_found_iff`  what a longest match with its less specifics finds;
* `Matcher.reference`  a linear search, which is one.
-/

namespace PrefixMatch
open List Option
variable {P M R : Type}

inductive MatchType where
  | exactMatch
  | longestMatch
  deriving DecidableEq, Repr

/-- what a query asks for; `mui` restricts it to one owner -/
structure MatchOptions (M : Type) where
  matchType : MatchType
  includeLessSpecifics : Bool
  includeMoreSpecifics : Bool
  mui : Option M

structure QueryResult (P M R : Type) where
  records : List (M × R)
  lessSpecifics : Option (List (P × List (M × R)))
  moreSpecifics : Option (List (P × List (M × R)))

/-- the record of `m` at `q` is listed in a set of prefixes with their records -/
def Listed (set : List (P × List (M × R))) (q : P) (m : M) (r : R) : Prop :=
  ∃ records, (q, records) ∈ set ∧ (m, r) ∈ records

/-- the records of an answer and of its less specifics -/
def QueryResult.found (res : QueryResult P M R) : List (M × R) :=
  res.records ++ (res.lessSpecifics.getD []).flatMap (·.2)

lemma mem_found {res : QueryResult P M R} {m : M} {r : R} :
    (m, r) ∈ res.found ↔
      (m, r) ∈ res.records ∨ ∃ set, res.lessSpecifics = some set ∧ ∃ q, Listed set q m r := by
  unfold QueryResult.found Listed
  rw [mem_append, mem_flatMap]
  cases res.lessSpecifics with
  | none | some set => simp

section table
variable [DecidableEq P] [DecidableEq M]

/-- the table has the record, and the query asks for its owner -/
def Selected (t : Assoc (P × M) R) (opts : MatchOptions M) (q : P) (m : M) (r : R) : Prop :=
  t.lookup (q, m) = some r ∧ opts.mui.all (· = m) = true

/-- a search over tables: an exact match answers with the records of the prefix, the more specifics
are there whenever they are asked for, and a longest match with its less specifics lists every
covering prefix -/
structure Matcher (covers : P → P → Bool) (M R : Type) [DecidableEq M] where
  run : Assoc (P × M) R → P → MatchOptions M → QueryResult P M R
  exact : ∀ t p opts, opts.matchType = .exactMatch → ∀ m r,
    (m, r) ∈ (run t p opts).records ↔ Selected t opts p m r
  more : ∀ t p opts, opts.matchType = .exactMatch → opts.includeMoreSpecifics = true →
    ∃ set, (run t p opts).moreSpecifics = some set ∧ ∀ q m r,
      Listed set q m r ↔ (covers p q = true ∧ q ≠ p) ∧ Selected t opts q m r
  records_covering : ∀ t p opts, opts.matchType = .longestMatch → ∀ m r,
    (m, r) ∈ (run t p opts).records → ∃ q, covers q p = true ∧ Selected t opts q m r
  less_covering : ∀ t p opts, opts.matchType = .longestMatch → ∀ set,
    (run t p opts).lessSpecifics = some set → ∀ q m r,
      Listed set q m r → covers q p = true ∧ Selected t opts q m r
  covering_listed : ∀ t p opts, opts.matchType = .longestMatch →
    opts.includeLessSpecifics = true → ∀ q m r, covers q p = true → Selected t opts q m r →
      (m, r) ∈ (run t p opts).records ∨
        ∃ set, (run t p opts).lessSpecifics = some set ∧ Listed set q m r

/-- a longest match with its less specifics answers with the records of the covering prefixes -/
lemma Matcher.exists_found_iff {covers : P → P → Bool} (mt : Matcher covers M R)
    (t : Assoc (P × M) R) (p : P) (opts : MatchOptions M) (ht : opts.matchType = .longestMatch)
    (hl : opts.includeLessSpecifics = true) (good : M × R → Prop) :
    (∃ e ∈ (mt.run t p opts).found, good e) ↔
      ∃ q m r, covers q p = true ∧ Selected t opts q m r ∧ good (m, r) := by
  constructor
  · rintro ⟨⟨m, r⟩, hmem, hgood⟩
    rcases mem_found.mp hmem with hmem | ⟨set, hset, q, hlisted⟩
    · obtain ⟨q, hq, hs⟩ := mt.records_covering t p opts ht m r hmem
      exact ⟨q, m, r, hq, hs, hgood⟩
    · obtain ⟨hq, hs⟩ := mt.less_covering t p opts ht set hset q m r hlisted
      exact ⟨q, m, r, hq, hs, hgood⟩
  · rintro ⟨q, m, r, hq, hs, hgood⟩
    refine ⟨(m, r), mem_found.mpr ?_, hgood⟩
    rcases mt.covering_listed t p opts ht hl q m r hq hs with hmem | ⟨set, hset, hlisted⟩
    · exact .inl hmem
    · exact .inr ⟨set, hset, q, hlisted⟩

/-- a search that lists the less specifics of an exact match as well, and neither set unless it is
asked for -/
structure FullMatcher (covers : P → P → Bool) (M R : Type) [DecidableEq M] extends
    Matcher covers M R where
  less : ∀ t p opts, opts.matchType = .exactMatch → opts.includeLessSpecifics = true →
    ∃ set, (run t p opts).lessSpecifics = some set ∧ ∀ q m r,
      Listed set q m r ↔ (covers q p = true ∧ q ≠ p) ∧ Selected t opts q m r
  less_none : ∀ t p opts, opts.includeLessSpecifics = false → (run t p opts).lessSpecifics = none
  more_none : ∀ t p opts, opts.includeMoreSpecifics = false → (run t p opts).moreSpecifics = none

/-! ## linear search -/

def recordsAt (t : Assoc (P × M) R) (opts : MatchOptions M) (q : P) : List (M × R) :=
  t.entries.filterMap fun e =>
    if e.1.1 = q ∧ opts.mui.all (· = e.1.2) = true then some (e.1.2, e.2) else none

variable {opts : MatchOptions M} {t : Assoc (P × M) R}

lemma mem_recordsAt {q : P} {m : M} {r : R} :
    (m, r) ∈ recordsAt t opts q ↔ Selected t opts q m r := by
  unfold recordsAt Selected
  rw [mem_filterMap]
  constructor
  · rintro ⟨⟨⟨q', m'⟩, r'⟩, hmem, he⟩
    obtain ⟨⟨rfl, hm⟩, heq⟩ := ite_none_right_eq_some.mp he
    cases heq
    exact ⟨AList.mem_lookup_iff.mpr hmem, hm⟩
  · rintro ⟨hl, hm⟩
    exact ⟨⟨(q, m), r⟩, AList.mem_lookup_iff.mp hl, if_pos ⟨rfl, hm⟩⟩

lemma sum_recordsAt (t : Assoc (P × M) R) (ho : opts.mui = none) (g : P × M → R → Nat)
    {ps : List P} (hn : ps.Nodup) (hmem : ∀ k r, t.lookup k = some r → g k r ≠ 0 → k.1 ∈ ps) :
    (ps.map fun p => ((recordsAt t opts p).map fun e => g (p, e.1) e.2).sum).sum =
      Assoc.tally g t := by
  have hentries : ∀ es : List (Sigma fun _ : P × M => R),
      (∀ e ∈ es, g e.1 e.2 ≠ 0 → e.1.1 ∈ ps) →
      ∑ p ∈ ps.toFinset, ((es.filterMap fun e =>
        if e.1.1 = p ∧ opts.mui.all (· = e.1.2) = true then some (e.1.2, e.2) else none).map
          fun x => g (p, x.1) x.2).sum = (es.map fun e => g e.1 e.2).sum := by
    intro es hes
    induction es with
    | nil => simp
    | cons e es ih =>
      obtain ⟨⟨q, m⟩, r⟩ := e
      have hhead : ∀ p, ((((⟨(q, m), r⟩ : Sigma fun _ : P × M => R) :: es).filterMap fun e =>
          if e.1.1 = p ∧ opts.mui.all (· = e.1.2) = true then some (e.1.2, e.2) else none).map
            fun x => g (p, x.1) x.2).sum = (if q = p then g (q, m) r else 0) +
          ((es.filterMap fun e =>
            if e.1.1 = p ∧ opts.mui.all (· = e.1.2) = true then some (e.1.2, e.2) else none).map
              fun x => g (p, x.1) x.2).sum := by
        intro p
        rw [filterMap_cons]
        by_cases hp : q = p
        · subst hp
          simp [ho]
        · simp [hp]
      rw [Finset.sum_congr rfl fun p _ => hhead p, Finset.sum_add_distrib,
        ih fun e he => hes e (mem_cons_of_mem _ he), Finset.sum_ite_eq, map_cons,
        sum_cons]
      by_cases hz : g (q, m) r = 0
      · simp [hz]
      · rw [if_pos (mem_toFinset.mpr (hes ⟨(q, m), r⟩ mem_cons_self hz))]
  have hsum : ∑ p ∈ ps.toFinset, ((recordsAt t opts p).map fun e => g (p, e.1) e.2).sum =
      (ps.map fun p => ((recordsAt t opts p).map fun e => g (p, e.1) e.2).sum).sum :=
    sum_toFinset _ hn
  rw [← hsum]
  exact hentries t.entries fun e he => hmem e.1 e.2 (AList.mem_lookup_iff.mpr he)

def prefixes (t : Assoc (P × M) R) : List P := (t.keys.map (·.1)).dedup

lemma mem_prefixes {q : P} {m : M} {r : R} (h : t.lookup (q, m) = some r) : q ∈ prefixes t := by
  have hk : (q, m) ∈ t.keys := by
    have hs : (t.lookup (q, m)).isSome := by rw [h]; rfl
    exact AList.lookup_isSome.mp hs
  exact mem_dedup.mpr (mem_map.mpr ⟨(q, m), hk, rfl⟩)

/-- the stored prefixes that satisfy `f`, with their records -/
def recordSet (t : Assoc (P × M) R) (opts : MatchOptions M) (f : P → Bool) :
    List (P × List (M × R)) :=
  ((prefixes t).filter f).map fun q => (q, recordsAt t opts q)

lemma listed_recordSet {f : P → Bool} {q : P} {m : M} {r : R} :
    Listed (recordSet t opts f) q m r ↔ f q = true ∧ Selected t opts q m r := by
  constructor
  · rintro ⟨records, hmem, hr⟩
    obtain ⟨q', hq', heq⟩ := mem_map.mp hmem
    cases heq
    exact ⟨(mem_filter.mp hq').2, mem_recordsAt.mp hr⟩
  · rintro ⟨hf, hs⟩
    refine ⟨recordsAt t opts q, ?_, mem_recordsAt.mpr hs⟩
    exact mem_map.mpr ⟨q, mem_filter.mpr ⟨mem_prefixes hs.1, hf⟩, rfl⟩

/-- the stored prefix that covers `p` and that all others that do cover -/
def longest (covers : P → P → Bool) (t : Assoc (P × M) R) (p : P) : Option P :=
  let covering := (prefixes t).filter fun q => covers q p
  covering.find? fun q => covering.all fun q' => covers q' q

omit [DecidableEq M] in
def search (covers : P → P → Bool) (t : Assoc (P × M) R) (p : P) (opts : MatchOptions M) :
    QueryResult P M R :=
  let matched := match opts.matchType with
    | .exactMatch => some p
    | .longestMatch => longest covers t p
  { records := (matched.map (recordsAt t opts)).getD []
    lessSpecifics :=
      if opts.includeLessSpecifics then
        some (recordSet t opts fun q => covers q p && matched != some q)
      else none
    moreSpecifics :=
      if opts.includeMoreSpecifics then
        some (recordSet t opts fun q => covers p q && decide (q ≠ p))
      else none }

def Matcher.reference (covers : P → P → Bool) : Matcher covers M R where
  run := search covers
  exact t p opts ht m r := by
    simp only [search, ht, map_some, getD_some]
    exact mem_recordsAt
  more t p opts ht hm := by
    refine ⟨_, by simp only [search, hm, if_true]; rfl, ?_⟩
    intro q m r
    rw [listed_recordSet]
    simp
  records_covering t p opts ht m r h := by
    simp only [search, ht] at h
    cases hl : longest covers t p with
    | none => rw [hl] at h; cases h
    | some q =>
      rw [hl] at h
      exact ⟨q, (List.mem_filter.mp (List.mem_of_find?_eq_some hl)).2, mem_recordsAt.mp h⟩
  less_covering t p opts ht set hset q m r h := by
    simp only [search, ht] at hset
    obtain ⟨-, heq⟩ := ite_none_right_eq_some.mp hset
    cases heq
    obtain ⟨hf, hs⟩ := listed_recordSet.mp h
    exact ⟨(Bool.and_eq_true_iff.mp hf).1, hs⟩
  covering_listed t p opts ht hl q m r hq hs := by
    simp only [search, ht, hl, if_true]
    by_cases hm : longest covers t p = some q
    · refine .inl ?_
      rw [hm]
      exact mem_recordsAt.mpr hs
    · refine .inr ⟨_, rfl, listed_recordSet.mpr ⟨?_, hs⟩⟩
      simp [hq, hm]

def FullMatcher.reference (covers : P → P → Bool) : FullMatcher covers M R where
  toMatcher := Matcher.reference covers
  less t p opts ht hl := by
    refine ⟨recordSet t opts fun q => covers q p && some p != some q, ?_, ?_⟩
    · simp only [Matcher.reference, search, ht, hl, if_true]
    · intro q m r
      rw [listed_recordSet]
      simp [@eq_comm P p q]
  less_none t p opts h := by simp [Matcher.reference, search, h]
  more_none t p opts h := by simp [Matcher.reference, search, h]

end table

end PrefixMatch
