import Netom.Lib.Memo
import Netom.FlowSpec.Rib

/-!
# Queries for FlowSpec rules

A query lists the visible rules of a family, or those at a prefix and at its less and more specific
ones, and validates each rule again against the unicast store of the moment.  Verdicts are shared
among rows with the same key prefix and the same originator.

* `queryFlowspec`  the query;
* `mem_candidateRows`  the rules it lists;
* `query_validity_iff`  every row has its own verdict unless, under one key and originator, the
  query lists a rule with and a rule without a destination prefix;
* `sharedVerdict_wrong`  and that can be, under the default route.
-/

namespace Netom
open PrefixMatch List FlowSpecStore Assoc

abbrev FlowSpecMatcher := FullMatcher Prefix.covers IngressId FlowSpecRecord

/-- what a query asks for; the prefix is of the family asked for -/
structure FlowSpecQuery where
  family : AddrFamily
  pfx : Option Prefix
  includeLessSpecifics : Bool
  includeMoreSpecifics : Bool
  ingressId : Option IngressId
  /-- rules, and bytes of NLRIs and attributes -/
  limits : Option (Nat × Nat)
  family_eq : ∀ p, pfx = some p → p.family = family

/-- the whole table of a family -/
def FlowSpecQuery.unfiltered (family : AddrFamily) : FlowSpecQuery :=
  ⟨family, none, false, false, none, none, fun _ h => by cases h⟩

structure FlowSpecQueryRow where
  keyPrefix : Prefix
  ingressId : IngressId
  rule : FlowSpecRule
  deriving DecidableEq, Repr

/-! ## rows -/

/-- the records that a query sees -/
def FlowSpecStore.table (s : FlowSpecStore) : Assoc (Prefix × IngressId) FlowSpecRecord :=
  filterMapVals (fun k r =>
    if s.muiIsWithdrawn k.1.family k.2 || r.status = .withdrawn then none else some r) s.records

def FlowSpecQuery.options (q : FlowSpecQuery) : MatchOptions IngressId :=
  { matchType := .exactMatch, includeLessSpecifics := q.includeLessSpecifics,
    includeMoreSpecifics := q.includeMoreSpecifics, mui := q.ingressId }

def FlowSpecStore.getRecordsForPrefix (s : FlowSpecStore) (key : Prefix) :
    List (IngressId × FlowSpecRecord) :=
  recordsAt s.table ⟨.exactMatch, false, false, none⟩ key

/-- the records the query goes through, by key -/
def FlowSpecStore.recordSets (fm : FlowSpecMatcher) (s : FlowSpecStore) (q : FlowSpecQuery) :
    List (Prefix × List (IngressId × FlowSpecRecord)) :=
  match q.pfx with
  | none =>
    ((prefixes s.records).filter fun key => key.family = q.family).map fun key =>
      (key, s.getRecordsForPrefix key)
  | some p =>
    let res := fm.run s.table p q.options
    (p, res.records) :: (res.lessSpecifics.getD [] ++ res.moreSpecifics.getD [])

def recordRows (q : FlowSpecQuery) (key : Prefix) (e : IngressId × FlowSpecRecord) :
    List FlowSpecQueryRow :=
  if e.2.status = .withdrawn then []
  else if q.ingressId.all (· = e.1) then e.2.ruleset.rules.map fun rule => ⟨key, e.1, rule⟩
  else []

def FlowSpecStore.candidateRows (fm : FlowSpecMatcher) (s : FlowSpecStore) (q : FlowSpecQuery) :
    List FlowSpecQueryRow :=
  (s.recordSets fm q).flatMap fun pr => pr.2.flatMap (recordRows q pr.1)

def limitError (maxRows maxRawBytes : Nat) : String :=
  s!"FlowSpec query exceeds the response limit ({maxRows} rules or {maxRawBytes} raw bytes)"

/-- add a row, within the limits -/
def pushRow (env : FlowSpecEnv) (limits : Option (Nat × Nat))
    (acc : List FlowSpecQueryRow × Nat) (row : FlowSpecQueryRow) :
    Except String (List FlowSpecQueryRow × Nat) :=
  match limits with
  | none => .ok (acc.1 ++ [row], acc.2)
  | some (maxRows, maxRawBytes) =>
    let ruleBytes := row.rule.nlri.length + (env.raw row.rule.pamap).length
    if maxRows ≤ acc.1.length ∨ maxRawBytes < acc.2 + ruleBytes then
      .error (limitError maxRows maxRawBytes)
    else .ok (acc.1 ++ [row], acc.2 + ruleBytes)

def pushRows (env : FlowSpecEnv) (limits : Option (Nat × Nat))
    (rows : List FlowSpecQueryRow) : Except String (List FlowSpecQueryRow × Nat) :=
  rows.foldlM (pushRow env limits) ([], 0)

/-! ## verdicts -/

def FlowSpecQueryRow.originator (env : FlowSpecEnv) (reg : Register) (row : FlowSpecQueryRow) :
    FlowSpecOriginator :=
  (flowspecIdentity env reg row.rule.pamap row.ingressId).1

/-- the verdict on the rule of a row -/
def FlowSpecQueryRow.ownValidity (env : FlowSpecEnv) (rib : Rib) (family : AddrFamily)
    (row : FlowSpecQueryRow) : FlowSpecValidity :=
  validateFlowspec env rib row.rule.nlri (row.originator env rib.ingressRegister) family

def FlowSpecQueryRow.setValidity (row : FlowSpecQueryRow) (validity : FlowSpecValidity) :
    FlowSpecQueryRow :=
  { row with rule := { row.rule with validity := validity } }

/-- what the verdict of a row is kept under -/
def FlowSpecQueryRow.cacheKey (env : FlowSpecEnv) (reg : Register) (row : FlowSpecQueryRow) :
    Prefix × FlowSpecOriginator :=
  (row.keyPrefix, row.originator env reg)

def revalidate (env : FlowSpecEnv) (rib : Rib) (family : AddrFamily)
    (rows : List FlowSpecQueryRow) : List FlowSpecQueryRow :=
  (Memo.memo (FlowSpecQueryRow.cacheKey env rib.ingressRegister)
    (FlowSpecQueryRow.ownValidity env rib family) rows).map fun e => e.1.setValidity e.2

def FlowRib.queryFlowspec (env : FlowSpecEnv) (fm : FlowSpecMatcher) (r : FlowRib)
    (q : FlowSpecQuery) : Except String (List FlowSpecQueryRow) :=
  match pushRows env q.limits (r.flowspec.candidateRows fm q) with
  | .error e => .error e
  | .ok (rows, _) => .ok (revalidate env r.rib q.family rows)

/-! ## the rows of a query -/

variable (fm : FlowSpecMatcher) (s : FlowSpecStore) (family : AddrFamily)

lemma lookup_table (key : Prefix) (mui : IngressId) (r : FlowSpecRecord) :
    s.table.lookup (key, mui) = some r ↔
      s.get key mui = some r ∧ s.muiIsWithdrawn key.family mui = false ∧ r.status ≠ .withdrawn := by
  unfold table
  rw [lookup_filterMapVals]
  show (s.get key mui).bind _ = _ ↔ _
  cases s.get key mui with
  | none => simp
  | some r' =>
    by_cases hw : s.muiIsWithdrawn key.family mui = true
    · simp [hw]
    · by_cases hs : r'.status = .withdrawn
      · simp only [hs, decide_true, Bool.or_true, if_true, Option.bind_some, reduceCtorEq,
          false_iff]
        rintro ⟨heq, -, hne⟩
        cases heq
        exact hne hs
      · simp only [hs, hw, decide_false, Bool.or_false, Option.bind_some, if_false,
          Bool.false_eq_true, Option.some.injEq]
        constructor
        · rintro rfl
          exact ⟨rfl, trivial, hs⟩
        · exact fun h => h.1

lemma mem_visible_iff (key : Prefix) (mui : IngressId) (rule : FlowSpecRule) :
    rule ∈ s.visible key mui ↔
      ∃ r, s.table.lookup (key, mui) = some r ∧ rule ∈ r.ruleset.rules := by
  simp only [lookup_table]
  unfold visible
  by_cases hw : s.muiIsWithdrawn key.family mui = true
  · simp [hw]
  · cases hg : s.get key mui with
    | none => simp [hw]
    | some r =>
      by_cases hs : r.status = .withdrawn
      · simp [hw, hs]
      · simp [hw, hs]

/-- the query asks for the rules of an ingress under a key -/
def FlowSpecQuery.asks (q : FlowSpecQuery) (key : Prefix) (mui : IngressId) : Prop :=
  (match q.pfx with
    | none => key.family = q.family
    | some p => key = p ∨ (q.includeLessSpecifics = true ∧ key.covers p = true ∧ key ≠ p) ∨
        (q.includeMoreSpecifics = true ∧ p.covers key = true ∧ key ≠ p)) ∧
    q.ingressId.all (· = mui) = true

variable {q : FlowSpecQuery}

lemma mem_recordRows {key : Prefix} {e : IngressId × FlowSpecRecord} {row : FlowSpecQueryRow} :
    row ∈ recordRows q key e ↔
      q.ingressId.all (· = e.1) = true ∧ ∃ rule ∈ e.2.ruleset.rules, row = ⟨key, e.1, rule⟩ := by
  unfold recordRows
  by_cases hs : e.2.status = .withdrawn
  · simp [hs, e.2.rules_nil hs]
  · by_cases hi : q.ingressId.all (· = e.1) = true
    · simp only [hs, hi, if_true, if_false, mem_map, true_and]
      constructor
      · rintro ⟨rule, hr, rfl⟩
        exact ⟨rule, hr, rfl⟩
      · rintro ⟨rule, hr, rfl⟩
        exact ⟨rule, hr, rfl⟩
    · simp [hs, hi]

/-- some key of the sets that the query goes through has the record -/
lemma listed_recordSets (q : FlowSpecQuery) (key : Prefix) (mui : IngressId)
    (r : FlowSpecRecord) (hi : q.ingressId.all (· = mui) = true) :
    Listed (s.recordSets fm q) key mui r ↔
      q.asks key mui ∧ s.table.lookup (key, mui) = some r := by
  unfold recordSets FlowSpecQuery.asks
  cases hp : q.pfx with
  | none =>
    have hat := @mem_recordsAt _ _ _ _ _ ⟨.exactMatch, false, false, none⟩ s.table key mui r
    constructor
    · rintro ⟨records, hmem, hr⟩
      obtain ⟨key', hkey', heq⟩ := mem_map.mp hmem
      cases heq
      refine ⟨⟨?_, hi⟩, (hat.mp hr).1⟩
      exact of_decide_eq_true (mem_filter.mp hkey').2
    · rintro ⟨⟨hf, -⟩, hl⟩
      have hget := ((lookup_table s key mui r).mp hl).1
      refine ⟨_, mem_map.mpr ⟨key, ?_, rfl⟩, hat.mpr ⟨hl, rfl⟩⟩
      exact mem_filter.mpr ⟨mem_prefixes hget, decide_eq_true hf⟩
  | some p =>
    have hexact := fm.exact s.table p q.options rfl mui r
    have hsel : ∀ k, Selected s.table q.options k mui r ↔ s.table.lookup (k, mui) = some r := by
      intro k
      exact and_iff_left hi
    have hless : Listed ((fm.run s.table p q.options).lessSpecifics.getD []) key mui r ↔
        (q.includeLessSpecifics = true ∧ key.covers p = true ∧ key ≠ p) ∧
          s.table.lookup (key, mui) = some r := by
      cases hl : q.includeLessSpecifics with
      | false =>
        rw [fm.less_none s.table p q.options hl]
        simp [Listed]
      | true =>
        obtain ⟨set, hset, hlist⟩ := fm.less s.table p q.options rfl hl
        rw [hset]
        show Listed set key mui r ↔ _
        rw [hlist, hsel]
        simp
    have hmore : Listed ((fm.run s.table p q.options).moreSpecifics.getD []) key mui r ↔
        (q.includeMoreSpecifics = true ∧ p.covers key = true ∧ key ≠ p) ∧
          s.table.lookup (key, mui) = some r := by
      cases hm : q.includeMoreSpecifics with
      | false =>
        rw [fm.more_none s.table p q.options hm]
        simp [Listed]
      | true =>
        obtain ⟨set, hset, hlist⟩ := fm.more s.table p q.options rfl hm
        rw [hset]
        show Listed set key mui r ↔ _
        rw [hlist, hsel]
        simp
    have hhead : Listed ((p, (fm.run s.table p q.options).records) ::
        ((fm.run s.table p q.options).lessSpecifics.getD [] ++
          (fm.run s.table p q.options).moreSpecifics.getD [])) key mui r ↔
        (key = p ∧ (mui, r) ∈ (fm.run s.table p q.options).records) ∨
          Listed ((fm.run s.table p q.options).lessSpecifics.getD []) key mui r ∨
          Listed ((fm.run s.table p q.options).moreSpecifics.getD []) key mui r := by
      unfold Listed
      constructor
      · rintro ⟨records, hmem, hr⟩
        rcases mem_cons.mp hmem with heq | hmem
        · cases heq
          exact .inl ⟨rfl, hr⟩
        · rcases mem_append.mp hmem with hmem | hmem
          · exact .inr (.inl ⟨records, hmem, hr⟩)
          · exact .inr (.inr ⟨records, hmem, hr⟩)
      · rintro (⟨rfl, hr⟩ | ⟨records, hmem, hr⟩ | ⟨records, hmem, hr⟩)
        · exact ⟨_, mem_cons_self, hr⟩
        · exact ⟨records, mem_cons_of_mem _ (mem_append_left _ hmem), hr⟩
        · exact ⟨records, mem_cons_of_mem _ (mem_append_right _ hmem), hr⟩
    rw [hhead, hexact, hsel, hless, hmore]
    constructor
    · rintro (⟨rfl, hl⟩ | ⟨hc, hl⟩ | ⟨hc, hl⟩)
      · exact ⟨⟨.inl rfl, hi⟩, hl⟩
      · exact ⟨⟨.inr (.inl hc), hi⟩, hl⟩
      · exact ⟨⟨.inr (.inr hc), hi⟩, hl⟩
    · rintro ⟨⟨rfl | hc | hc, -⟩, hl⟩
      · exact .inl ⟨rfl, hl⟩
      · exact .inr (.inl ⟨hc, hl⟩)
      · exact .inr (.inr ⟨hc, hl⟩)

lemma mem_candidateRows (q : FlowSpecQuery) (row : FlowSpecQueryRow) : row ∈ s.candidateRows fm q ↔
      q.asks row.keyPrefix row.ingressId ∧ row.rule ∈ s.visible row.keyPrefix row.ingressId := by
  unfold candidateRows
  rw [mem_visible_iff]
  constructor
  · intro h
    obtain ⟨⟨key, records⟩, hset, h⟩ := mem_flatMap.mp h
    obtain ⟨⟨mui, r⟩, hr, h⟩ := mem_flatMap.mp h
    obtain ⟨hi, rule, hrule, rfl⟩ := mem_recordRows.mp h
    obtain ⟨hasks, hl⟩ := (listed_recordSets fm s q key mui r hi).mp ⟨records, hset, hr⟩
    exact ⟨hasks, r, hl, hrule⟩
  · obtain ⟨key, mui, rule⟩ := row
    rintro ⟨hasks, r, hl, hrule⟩
    obtain ⟨records, hset, hr⟩ := (listed_recordSets fm s q key mui r hasks.2).mpr ⟨hasks, hl⟩
    refine mem_flatMap.mpr ⟨(key, records), hset, mem_flatMap.mpr ⟨(mui, r), hr, ?_⟩⟩
    exact mem_recordRows.mpr ⟨hasks.2, rule, hrule, rfl⟩

variable {env : FlowSpecEnv}

/-- what is pushed within the limits is everything -/
lemma pushRows_from {limits : Option (Nat × Nat)} {rows : List FlowSpecQueryRow}
    {acc acc' : List FlowSpecQueryRow × Nat} (h : rows.foldlM (pushRow env limits) acc = .ok acc') :
    acc'.1 = acc.1 ++ rows := by
  induction rows generalizing acc with
  | nil =>
    cases h
    simp
  | cons row rows ih =>
    rw [foldlM_cons] at h
    cases hp : pushRow env limits acc row with
    | error e =>
      rw [hp] at h
      cases h
    | ok mid =>
      rw [hp] at h
      have hmid : mid.1 = acc.1 ++ [row] := by
        unfold pushRow at hp
        cases limits with
        | none =>
          cases hp
          rfl
        | some lim =>
          simp only at hp
          split at hp
          · cases hp
          · cases hp
            rfl
      rw [ih h, hmid, append_assoc]
      rfl

lemma queryFlowspec_rows {fm : FlowSpecMatcher} {r : FlowRib} {rows : List FlowSpecQueryRow}
    (h : r.queryFlowspec env fm q = .ok rows) :
    rows = revalidate env r.rib q.family (r.flowspec.candidateRows fm q) := by
  unfold FlowRib.queryFlowspec at h
  cases hp : pushRows env q.limits (r.flowspec.candidateRows fm q) with
  | error e =>
    rw [hp] at h
    cases h
  | ok acc =>
    rw [hp] at h
    cases h
    rw [pushRows_from hp]
    rfl

lemma pushRows_none (env : FlowSpecEnv) (rows : List FlowSpecQueryRow)
    (acc : List FlowSpecQueryRow × Nat) :
    rows.foldlM (pushRow env none) acc = .ok (acc.1 ++ rows, acc.2) := by
  induction rows generalizing acc with
  | nil => simp [pure, Except.pure]
  | cons row rows ih =>
    rw [foldlM_cons]
    show rows.foldlM (pushRow env none) (acc.1 ++ [row], acc.2) = _
    rw [ih, append_assoc]
    rfl

lemma queryFlowspec_unlimited (env : FlowSpecEnv) (fm : FlowSpecMatcher) (r : FlowRib)
    (h : q.limits = none) : r.queryFlowspec env fm q =
      .ok (revalidate env r.rib q.family (r.flowspec.candidateRows fm q)) := by
  unfold FlowRib.queryFlowspec pushRows
  rw [h, pushRows_none]
  rfl

/-! ## the number of rows -/

lemma length_recordRows_unfiltered (key : Prefix) (e : IngressId × FlowSpecRecord) :
    (recordRows (.unfiltered family) key e).length = e.2.ruleset.ruleCount := by
  unfold recordRows FlowSpecRuleSet.ruleCount
  by_cases hs : e.2.status = .withdrawn
  · rw [if_pos hs, e.2.rules_nil hs]
    rfl
  · rw [if_neg hs]
    exact length_map ..

/-- the rules under a key, as a query for all of them adds them up -/
def FlowSpecStore.rulesAt (s : FlowSpecStore) (key : Prefix) : Nat :=
  ((s.getRecordsForPrefix key).map fun e => e.2.ruleset.ruleCount).sum

lemma length_visible_eq (key : Prefix) (mui : IngressId) : (s.visible key mui).length =
      (s.table.lookup (key, mui)).elim 0 fun r => r.ruleset.ruleCount := by
  cases hl : s.table.lookup (key, mui) with
  | some r =>
    obtain ⟨hget, hw, hs⟩ := (lookup_table s key mui r).mp hl
    unfold visible
    rw [hw, hget]
    simp [hs, FlowSpecRuleSet.ruleCount]
  | none =>
    have hnil : s.visible key mui = [] := by
      rw [eq_nil_iff_forall_not_mem]
      intro rule hr
      obtain ⟨r, hr, -⟩ := (mem_visible_iff s key mui rule).mp hr
      rw [hl] at hr
      cases hr
    rw [hnil]
    rfl

lemma sum_rulesAt :
    ((prefixes s.records).map fun key => if key.family = family then s.rulesAt key else 0).sum =
      s.visibleCount (fun _ => true) family := by
  have htally : tally (fun k r => if k.1.family = family then r.ruleset.ruleCount else 0)
      s.table = s.visibleCount (fun _ => true) family := by
    apply tally_congr
    rintro ⟨key, mui⟩
    refine Eq.trans ?_ (s.weight_visibleCount (fun _ => true) family (key, mui)).symm
    unfold weight
    rw [length_visible_eq]
    by_cases hf : key.family = family
    · simp [hf]
    · cases s.table.lookup (key, mui) with
      | none | some r => simp [hf]
  have hmem : ∀ (k : Prefix × IngressId) (r : FlowSpecRecord), s.table.lookup k = some r →
      (if k.1.family = family then r.ruleset.ruleCount else 0) ≠ 0 → k.1 ∈ prefixes s.records := by
    rintro ⟨key, mui⟩ r hl _
    exact mem_prefixes ((lookup_table s key mui r).mp hl).1
  have hsum := @sum_recordsAt _ _ _ _ _ ⟨.exactMatch, false, false, none⟩ s.table rfl
    (fun k r => if k.1.family = family then r.ruleset.ruleCount else 0) _ (nodup_dedup _) hmem
  rw [← htally, ← hsum]
  refine congrArg sum (map_congr_left fun key _ => ?_)
  by_cases hf : key.family = family
  · simp [hf, rulesAt, getRecordsForPrefix]
  · simp [hf]

lemma length_candidateRows_unfiltered : (s.candidateRows fm (.unfiltered family)).length =
      s.visibleCount (fun _ => true) family := by
  have hkey : ∀ key, ((s.getRecordsForPrefix key).flatMap
      (recordRows (.unfiltered family) key)).length = s.rulesAt key := by
    intro key
    rw [length_flatMap]
    exact congrArg sum (map_congr_left fun e _ =>
      length_recordRows_unfiltered family key e)
  have hfilter : ∀ ps : List Prefix, ((ps.filter fun key => key.family = family).map
      s.rulesAt).sum = (ps.map fun key => if key.family = family then s.rulesAt key else 0).sum := by
    intro ps
    induction ps with
    | nil => rfl
    | cons p ps ih =>
      rw [filter_cons, map_cons, sum_cons]
      by_cases hf : p.family = family
      · simp [hf, ih]
      · simp [hf, ih]
  rw [← sum_rulesAt, ← hfilter]
  show ((((prefixes s.records).filter fun key => key.family = family).map fun key =>
    (key, s.getRecordsForPrefix key)).flatMap
      fun pr => pr.2.flatMap (recordRows (.unfiltered family) pr.1)).length = _
  rw [length_flatMap, map_map]
  exact congrArg sum (map_congr_left fun key _ => hkey key)

lemma length_queryFlowspec_unfiltered (env : FlowSpecEnv) (fm : FlowSpecMatcher) (r : FlowRib)
    (family : AddrFamily) :
    (r.queryFlowspec env fm (.unfiltered family)).map List.length =
      .ok (r.flowspec.visibleCount (fun _ => true) family) := by
  have hlen : ∀ rows, (revalidate env r.rib family rows).length = rows.length := by
    intro rows
    unfold revalidate
    rw [length_map, ← length_map (·.1), Memo.memo, Memo.map_fst_memoFrom]
  rw [queryFlowspec_unlimited env fm r rfl, ← length_candidateRows_unfiltered fm]
  exact congrArg Except.ok (hlen _)

/-! ## the verdicts of a query -/

/-- every row has the verdict on its own rule iff rows that share a verdict have the same one -/
lemma revalidate_iff (env : FlowSpecEnv) (rib : Rib) (family : AddrFamily)
    (rows : List FlowSpecQueryRow) :
    (∀ row ∈ revalidate env rib family rows,
      row.rule.validity = row.ownValidity env rib family) ↔
      Memo.Determined (FlowSpecQueryRow.cacheKey env rib.ingressRegister)
        (FlowSpecQueryRow.ownValidity env rib family) rows := by
  rw [← Memo.memo_iff]
  unfold revalidate
  rw [forall_mem_map]
  rfl

lemma FlowSpecQuery.asks_family {key : Prefix} {mui : IngressId} (h : q.asks key mui) :
    key.family = q.family := by
  unfold FlowSpecQuery.asks at h
  have hcovers : ∀ p p' : Prefix, p.covers p' = true → p.family = p'.family := by
    intro p p' hc
    exact eq_of_beq (Bool.and_eq_true_iff.mp hc).1
  cases hp : q.pfx with
  | none =>
    rw [hp] at h
    exact h.1
  | some p =>
    rw [hp] at h
    have hf := q.family_eq p hp
    rcases h.1 with rfl | ⟨-, hc, -⟩ | ⟨-, hc, -⟩
    · exact hf
    · rw [← hf, hcovers key p hc]
    · rw [← hf, hcovers p key hc]

/-- two rules under one key, of one originator, have the same verdict iff both or neither have a
destination prefix -/
lemma ownValidity_eq_iff (rib : Rib) {row row' : FlowSpecQueryRow}
    (h : KeyedAt env row.keyPrefix row.rule.nlri) (h' : KeyedAt env row'.keyPrefix row'.rule.nlri)
    (hkey : row.cacheKey env rib.ingressRegister = row'.cacheKey env rib.ingressRegister) :
    row.ownValidity env rib row.keyPrefix.family = row'.ownValidity env rib row.keyPrefix.family ↔
      ((usableDst env row.keyPrefix.family row.rule.nlri).isSome ↔
        (usableDst env row.keyPrefix.family row'.rule.nlri).isSome) := by
  obtain ⟨hp, ho⟩ := Prod.mk.inj hkey
  have hd := h.eq_usableDst
  have hd' := h'.eq_usableDst
  rw [← hp] at hd'
  unfold FlowSpecQueryRow.ownValidity
  rw [ho, validateFlowspec_eq, validateFlowspec_eq]
  cases hu : usableDst env row.keyPrefix.family row.rule.nlri with
  | none =>
    cases hu' : usableDst env row.keyPrefix.family row'.rule.nlri with
    | none => simp
    | some dst' => simpa using (validateDst_ne env rib dst' _).symm
  | some dst =>
    rw [hu] at hd
    cases hu' : usableDst env row.keyPrefix.family row'.rule.nlri with
    | none => simpa using validateDst_ne env rib dst _
    | some dst' =>
      rw [hu'] at hd'
      have heq : dst = dst' := hd.symm.trans hd'
      simp [heq]

/-- Under one key, among the rules of one originator that the query asks for, both or neither of
any two have a destination prefix. -/
def SameDestination (env : FlowSpecEnv) (r : FlowRib) (q : FlowSpecQuery) : Prop :=
  ∀ key mui rule mui' rule', q.asks key mui → q.asks key mui' →
    rule ∈ r.flowspec.visible key mui → rule' ∈ r.flowspec.visible key mui' →
    (flowspecIdentity env r.rib.ingressRegister rule.pamap mui).1 =
      (flowspecIdentity env r.rib.ingressRegister rule'.pamap mui').1 →
    ((usableDst env q.family rule.nlri).isSome ↔ (usableDst env q.family rule'.nlri).isSome)

lemma determined_iff {r : FlowRib} (hk : WellKeyed env r.flowspec) (q : FlowSpecQuery) :
    Memo.Determined (FlowSpecQueryRow.cacheKey env r.rib.ingressRegister)
      (FlowSpecQueryRow.ownValidity env r.rib q.family) (r.flowspec.candidateRows fm q) ↔
      SameDestination env r q := by
  have hkeyed : ∀ key mui rule, rule ∈ r.flowspec.visible key mui →
      KeyedAt env key rule.nlri := by
    intro key mui rule hr
    rw [visible_eq] at hr
    split at hr
    · cases hr
    · exact hk key mui rule hr
  constructor
  · intro h key mui rule mui' rule' ha ha' hr hr' ho
    have hf := FlowSpecQuery.asks_family ha
    have hrow := (mem_candidateRows fm r.flowspec q ⟨key, mui, rule⟩).mpr ⟨ha, hr⟩
    have hrow' := (mem_candidateRows fm r.flowspec q ⟨key, mui', rule'⟩).mpr ⟨ha', hr'⟩
    have hcache : FlowSpecQueryRow.cacheKey env r.rib.ingressRegister ⟨key, mui, rule⟩ =
        FlowSpecQueryRow.cacheKey env r.rib.ingressRegister ⟨key, mui', rule'⟩ :=
      Prod.ext rfl ho
    have hv := h _ hrow _ hrow' hcache
    rw [← hf] at hv ⊢
    exact (ownValidity_eq_iff r.rib (hkeyed key mui rule hr) (hkeyed key mui' rule' hr')
      hcache).mp hv
  · rintro h ⟨key, mui, rule⟩ hrow ⟨key', mui', rule'⟩ hrow' hcache
    obtain ⟨ha, hr⟩ := (mem_candidateRows fm r.flowspec q _).mp hrow
    obtain ⟨ha', hr'⟩ := (mem_candidateRows fm r.flowspec q _).mp hrow'
    obtain ⟨hkey, ho⟩ := Prod.mk.inj hcache
    have hkey' : key = key' := hkey
    subst hkey'
    have hf : key.family = q.family := FlowSpecQuery.asks_family ha
    have hd := h key mui rule mui' rule' ha ha' hr hr' ho
    rw [← hf] at hd ⊢
    exact (ownValidity_eq_iff r.rib (hkeyed key mui rule hr) (hkeyed key mui' rule' hr')
      hcache).mpr hd

/-- **The verdicts of a query**: after any operations on the RIB, every row of the answer has the
verdict on its own rule iff no rule with a destination prefix shares key and originator with one
that has none. -/
theorem query_validity_iff (env : FlowSpecEnv) (fm : FlowSpecMatcher) (reg : Register)
    (ops : List (FlowRibOp env)) (q : FlowSpecQuery) {rows : List FlowSpecQueryRow}
    (h : (Run.run (FlowRib.step env) (FlowRib.new reg) ops).queryFlowspec env fm q = .ok rows) :
    (∀ row ∈ rows, row.rule.validity =
      row.ownValidity env (Run.run (FlowRib.step env) (FlowRib.new reg) ops).rib q.family) ↔
      SameDestination env (Run.run (FlowRib.step env) (FlowRib.new reg) ops) q := by
  rw [queryFlowspec_rows h, revalidate_iff]
  exact determined_iff fm (wellKeyed_run env reg ops) q

/-! ## the default route -/

/-- a parser that knows two IPv4 rules: destination 0.0.0.0/0, and protocol 6 -/
def twoRules : FlowSpecEnv where
  matcher := Matcher.reference Prefix.covers
  raw _ := []
  parse
    | .v4, [2#8, 1#8, 0#8] => some ⟨[1#8, 0#8], some (defaultRoute .v4)⟩
    | .v4, [3#8, 3#8, 0x81#8, 6#8] => some ⟨[3#8, 0x81#8, 6#8], none⟩
    | _, _ => none
  length_le h := by
    split at h
    · cases h
      decide
    · cases h
      decide
    · cases h
  dst_family h hp := by
    split at h
    · cases h
      cases hp
      rfl
    · cases h
      cases hp
    · cases h
  reparse h hf := by
    split at h
    · cases h
      cases hf
      rfl
    · cases h
      cases hf
      rfl
    · cases h

/-- the rule without a destination prefix -/
lemma twoRules_tcp : ∃ b, twoRules.parse .v4 b = some ⟨[3#8, 0x81#8, 6#8], none⟩ :=
  ⟨[3#8, 3#8, 0x81#8, 6#8], rfl⟩

/-- both rules from one peer -/
def bothRules : List (FlowRibOp twoRules) :=
  [.insertFlowspec .v4 ⟨[1#8, 0#8], some (defaultRoute .v4)⟩ ⟨[2#8, 1#8, 0#8], rfl⟩
      RotondaPaMap.emptyPathAttributes true 1,
    .insertFlowspec .v4 ⟨[3#8, 0x81#8, 6#8], none⟩ twoRules_tcp
      RotondaPaMap.emptyPathAttributes true 1]

/-- the rule without a destination prefix is reported as invalid, as the other is -/
theorem sharedVerdict_wrong :
    let r := Run.run (FlowRib.step twoRules) (FlowRib.new Register.new) bothRules
    ∃ rows, r.queryFlowspec twoRules (FullMatcher.reference Prefix.covers)
        (FlowSpecQuery.unfiltered .v4) = .ok rows ∧
      ∃ row ∈ rows, row.rule.validity = .invalid ∧
        row.ownValidity twoRules r.rib .v4 = .unvalidatable := by
  refine ⟨_, queryFlowspec_unlimited _ _ _ rfl, ?_⟩
  decide

/-- the two rules are under one key and originator -/
theorem query_validity_bothRules :
    let r := Run.run (FlowRib.step twoRules) (FlowRib.new Register.new) bothRules
    ∃ rows, r.queryFlowspec twoRules (FullMatcher.reference Prefix.covers)
        (FlowSpecQuery.unfiltered .v4) = .ok rows ∧ rows.length = 2 ∧
      ((∀ row ∈ rows, row.rule.validity = row.ownValidity twoRules r.rib .v4) ↔
        SameDestination twoRules r (FlowSpecQuery.unfiltered .v4)) :=
  ⟨_, queryFlowspec_unlimited _ _ _ rfl, by decide,
    query_validity_iff twoRules (FullMatcher.reference Prefix.covers) Register.new
      bothRules (FlowSpecQuery.unfiltered .v4) (queryFlowspec_unlimited _ _ _ rfl)⟩

end Netom
