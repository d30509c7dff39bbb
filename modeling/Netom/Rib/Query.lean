import Netom.Lib.PrefixMatch
import Netom.Rib.Rib

/-!
# Queries on the RIB

* `Store.report`  a record as queries report it, with the status of its mui;
* `Store.content`  what is reported of a route apart from its ROV status;
* `Store.matchPrefix` a match over the records that are reported;
* `Rib.matchPrefix`  the match of the RIB: the multicast store is asked where the unicast store
  has no answer at all.
-/

namespace Netom
open PrefixMatch Option Assoc

/-- a record without its ROV status -/
def Record.butRov (r : Record) : Record := { r with pamap := r.pamap.setRpkiInfo .notChecked }

/-! ## reports -/

/-- the record as a query reports it: under its mui, withdrawn if the mui is -/
def Store.report (s : Store) (k : Prefix × IngressId) (r : Record) : Record :=
  ⟨k.2, s.effectiveStatus k.1 r k.2, r.pamap⟩

/-- the records of some prefixes, read in one go -/
def Store.read (s : Store) (includeWithdrawn : Bool) (qs : List Prefix) : List (Prefix × Record) :=
  s.records.entries.filterMap fun e =>
    if qs.contains e.1.1 && (includeWithdrawn || (s.report e.1 e.2).status ≠ .withdrawn) then
      some (e.1.1, s.report e.1 e.2)
    else none

/-- status and path attributes of the route of `q` from `mui`, as queries see them -/
def Store.content (s : Store) (q : Prefix) (mui : IngressId) : Option Record :=
  (s.get q mui).map fun r => (s.report (q, mui) r).butRov

lemma status_of_mem_read {s : Store} {includeWithdrawn : Bool} {qs : List Prefix} {q : Prefix}
    {r : Record} (h : (q, r) ∈ s.read includeWithdrawn qs)
    (hw : s.muiIsWithdrawn q.family r.multiUniqId = true) : r.status = .withdrawn := by
  obtain ⟨e, -, he⟩ := List.mem_filterMap.mp h
  obtain ⟨-, heq⟩ := ite_none_right_eq_some.mp he
  cases heq
  exact if_pos hw

lemma content_insert (s : Store) (q : Prefix) (r : Record) (p : Prefix) (mui : IngressId) :
    (s.insert q r).content p mui =
      if p = q ∧ mui = r.multiUniqId then some (s.report (p, mui) r).butRov
      else s.content p mui := by
  unfold Store.content Store.get Store.insert
  rw [lookup_insert_eq]
  by_cases hk : p = q ∧ mui = r.multiUniqId
  · rw [if_pos hk, if_pos (by rw [hk.1, hk.2])]
    rfl
  · rw [if_neg hk, if_neg fun h => hk (Prod.mk.inj h)]
    rfl

lemma content_markMuiAsWithdrawnForPrefix (s : Store) (p : Prefix) (mui : IngressId) :
    (s.markMuiAsWithdrawnForPrefix p mui).content p mui =
      (s.content p mui).map fun r => { r with status := .withdrawn } := by
  unfold Store.content Store.get Store.markMuiAsWithdrawnForPrefix
  rw [lookup_modify, if_pos rfl, Option.map_map, Option.map_map]
  refine congrArg (fun f => Option.map f _) (funext fun r => ?_)
  simp [Store.report, Store.effectiveStatus, Store.muiIsWithdrawn, Record.butRov]

lemma report_of_withdrawn {s : Store} {p : Prefix} {mui : IngressId} {r : Record}
    (h : r.multiUniqId = mui)
    (hs : s.muiIsWithdrawn p.family mui = true → r.status = .withdrawn) :
    s.report (p, mui) r = r := by
  subst h
  unfold Store.report Store.effectiveStatus
  by_cases hm : s.muiIsWithdrawn p.family r.multiUniqId = true
  · simp only [hm, if_true, ← hs hm]
  · simp only [hm]
    rfl

/-! ## matches -/

/-- the records that a query sees -/
def Store.table (s : Store) (includeWithdrawn : Bool) : Assoc (Prefix × IngressId) Record :=
  filterMapVals (fun k r =>
    if includeWithdrawn || (s.report k r).status ≠ .withdrawn then some (s.report k r) else none)
    s.records

abbrev RibMatcher := Matcher Prefix.covers IngressId Record

def Store.matchPrefix (mt : RibMatcher) (s : Store) (p : Prefix) (includeWithdrawn : Bool)
    (opts : MatchOptions IngressId) : QueryResult Prefix IngressId Record :=
  mt.run (s.table includeWithdrawn) p opts

/-- no records, and no set of less or more specifics -/
def noAnswer (res : QueryResult Prefix IngressId Record) : Bool :=
  res.records.isEmpty && res.lessSpecifics.isNone && res.moreSpecifics.isNone

def Rib.matchPrefix (mt : RibMatcher) (rib : Rib) (p : Prefix) (includeWithdrawn : Bool)
    (opts : MatchOptions IngressId) : QueryResult Prefix IngressId Record :=
  let unicastRes := rib.unicast.matchPrefix mt p includeWithdrawn opts
  if noAnswer unicastRes then
    let multicastRes := rib.multicast.matchPrefix mt p includeWithdrawn opts
    if !noAnswer multicastRes then multicastRes else unicastRes
  else unicastRes

/-- where more specifics are asked for, the unicast store always has an answer -/
lemma matchPrefix_unicast (mt : RibMatcher) (rib : Rib) (p : Prefix) (includeWithdrawn : Bool)
    {opts : MatchOptions IngressId} (ht : opts.matchType = .exactMatch)
    (hm : opts.includeMoreSpecifics = true) :
    rib.matchPrefix mt p includeWithdrawn opts =
      rib.unicast.matchPrefix mt p includeWithdrawn opts := by
  obtain ⟨set, hset, -⟩ := mt.more (rib.unicast.table includeWithdrawn) p opts ht hm
  have hans : noAnswer (rib.unicast.matchPrefix mt p includeWithdrawn opts) = false := by
    unfold noAnswer Store.matchPrefix
    rw [hset]
    simp
  unfold Rib.matchPrefix
  simp only [hans]
  rfl

/-- what a query without withdrawn routes says of the route it reports -/
lemma of_lookup_table {s : Store} {q : Prefix} {mui : IngressId} {r : Record}
    (h : (s.table false).lookup (q, mui) = some r) :
    r.multiUniqId = mui ∧ mui ∉ s.withdrawnMuis q.family ∧ s.content q mui = some r.butRov ∧
      s.active q mui = if r.status = .active then some r.pamap else none := by
  unfold Store.table at h
  rw [lookup_filterMapVals, bind_eq_some_iff] at h
  obtain ⟨r₀, hr₀, hite⟩ := h
  obtain ⟨hst, heq⟩ := ite_none_right_eq_some.mp hite
  cases heq
  have hget : s.get q mui = some r₀ := hr₀
  have hmark : mui ∉ s.withdrawnMuis q.family := by
    intro hm
    have hw : (s.report (q, mui) r₀).status = .withdrawn := if_pos (decide_eq_true hm)
    simp [hw] at hst
  refine ⟨rfl, hmark, ?_, ?_⟩
  · unfold Store.content
    rw [hget]
    rfl
  · unfold Store.active
    rw [hget]
    rfl

lemma lookup_table_of_active {s : Store} {q : Prefix} {mui : IngressId} {pamap : RotondaPaMap}
    (h : s.active q mui = some pamap) :
    (s.table false).lookup (q, mui) = some ⟨mui, .active, pamap⟩ := by
  obtain ⟨r₀, hr₀, hite⟩ := bind_eq_some_iff.mp h
  obtain ⟨hst, heq⟩ := ite_none_right_eq_some.mp hite
  cases heq
  have hrep : s.report (q, mui) r₀ = ⟨mui, .active, r₀.pamap⟩ := by
    unfold Store.report
    rw [hst]
  unfold Store.table
  rw [lookup_filterMapVals, bind_eq_some_iff]
  refine ⟨r₀, hr₀, ?_⟩
  rw [hrep]
  rfl

end Netom
