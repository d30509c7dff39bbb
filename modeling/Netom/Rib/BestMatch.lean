import Netom.Lib.LongestMatch
import Netom.Rib.Query
import Netom.Rib.Filter
import Netom.BestPath.Select

/-!
# The best path for an address

`best_path` with an address asks the store for the longest match of the address, filters the records
of that prefix, and selects among those that are left.  The store matches before the filter is applied:
a longer prefix with records that the filter drops hides a shorter one with records that pass.

* `passes`, `applyFilter_eq`  the filters, one record at a time;
* `searchRoutesWith`, `bestPath`  the query;
* `AnswersFor`  the answer that a filter before the match would give;
* `bestPath_iff`  when the two are the same.
-/

namespace Netom
open LongestMatch PrefixMatch Cmp List

/-! ## the filters, one record at a time -/

section passes
variable (reads : AttributeReads) (all : IngressId → Option IngressInfo) (f : QueryFilter)
  (rotoFilter : Option (RotondaPaMap → Bool))

def passes (r : Record) : Bool :=
  f.ingressId.all (fun id => decide (r.multiUniqId = id)) &&
  f.ingressType.all (fun t =>
    ((all r.multiUniqId).map fun info => ingressTypeMatches t info all).getD false) &&
  f.ribType.all (fun t => entryMeets all (fun info => info.peerRibType = some t) r) &&
  f.peerAsn.all (fun n => entryMeets all (fun info => info.remoteAsn = some n) r) &&
  f.peerAddr.all (fun a => entryMeets all (fun info => info.remoteAddr = some a) r) &&
  rotoFilter.all (fun accepts => accepts r.pamap) &&
  attributesMeet reads f r.pamap

variable {reads all f rotoFilter}

lemma retainBy_eq {α : Type} (filter : Option α) (keep : α → Record → Bool) (records : List Record) :
    retainBy filter keep records = records.filter fun r => filter.all fun x => keep x r := by
  cases filter with
  | none => exact (filter_true records).symm
  | some x => rfl

lemma applyFilter_eq (records : List Record) :
    applyFilter reads all f rotoFilter records = records.filter (passes reads all f rotoFilter) := by
  have hattr : ∀ l : List Record,
      (if f.originAsn.isSome || f.otc.isSome || f.community.isSome || f.largeCommunity.isSome ||
        f.rovStatus.isSome then l.filter (fun r => attributesMeet reads f r.pamap) else l) =
        l.filter fun r => attributesMeet reads f r.pamap := by
    intro l
    split
    · rfl
    · next hset =>
      refine (filter_eq_self.mpr fun r _ => ?_).symm
      exact attributesMeet_of_unset (Bool.eq_false_iff.mpr hset) r.pamap
  refine (hattr _).trans ?_
  unfold filterByIngress
  simp only [retainBy_eq, filter_filter]
  refine filter_congr fun r _ => ?_
  unfold passes
  simp only [Bool.and_comm, Bool.and_left_comm, Bool.and_assoc]

lemma ingressId_of_passes {r : Record} (h : passes reads all f rotoFilter r = true) :
    f.ingressId.all (· = r.multiUniqId) = true := by
  unfold passes at h
  simp only [Bool.and_eq_true] at h
  obtain ⟨⟨⟨⟨⟨⟨hid, -⟩, -⟩, -⟩, -⟩, -⟩, -⟩ := h
  cases hf : f.ingressId with
  | none => rfl
  | some id =>
    rw [hf] at hid
    simpa [eq_comm] using hid

/-- only the entry of the ingress and that of its parent are read -/
lemma passes_congr {all' : IngressId → Option IngressInfo} {r : Record}
    (h : all r.multiUniqId = all' r.multiUniqId)
    (hp : ∀ info p, all' r.multiUniqId = some info → info.parentIngress = some p → all p = all' p) :
    passes reads all f rotoFilter r = passes reads all' f rotoFilter r := by
  have htype : ∀ t, ((all r.multiUniqId).map fun info => ingressTypeMatches t info all) =
      (all' r.multiUniqId).map fun info => ingressTypeMatches t info all' := by
    intro t
    rw [h]
    cases hi : all' r.multiUniqId with
    | none => rfl
    | some info =>
      have hbind : info.parentIngress.bind all = info.parentIngress.bind all' := by
        cases hpar : info.parentIngress with
        | none => rfl
        | some p => exact hp info p hi hpar
      simp only [Option.map_some, ingressTypeMatches, hbind]
  unfold passes
  simp only [htype]
  unfold entryMeets
  rw [h]

end passes

/-! ## the query -/

/-- the searches of the store that queries use -/
structure RibSearch where
  exact : RibMatcher
  longest : LongestMatcher Prefix.covers IngressId Record

/-- the matched prefix and its records -/
def RibSearch.run (search : RibSearch) (table : Assoc (Prefix × IngressId) Record)
    (matchType : MatchType) (nlri : Prefix) (mui : Option IngressId) :
    Option Prefix × List (IngressId × Record) :=
  match matchType with
  | .exactMatch =>
    let res := search.exact.run table nlri ⟨.exactMatch, false, false, mui⟩
    (if res.records.isEmpty then none else some nlri, res.records)
  | .longestMatch =>
    match search.longest.run table nlri mui with
    | some (q, records) => (some q, records)
    | none => (none, [])

structure SearchResult where
  matched : Option Prefix
  records : List Record
  ingressInfo : IngressId → Option IngressInfo

structure BestPathResult where
  matched : Option Prefix
  queryAddr : Option IpAddr
  exactMatch : Bool
  strategy : Strategy
  best : Option Ranked
  alternatives : List Ranked
  excluded : List Excluded
  total : Nat
  ingressInfo : IngressId → Option IngressInfo

section query
variable (search : RibSearch) (sort : SortBy Nat) (rc : Routecore) (reads : AttributeReads) (rib : Rib)

/-- the entries of the register that come with the result are those of its records -/
def searchRoutesWith (matchType : MatchType) (multicast : Bool) (nlri : Prefix) (f : QueryFilter)
    (rotoFilter : Option (RotondaPaMap → Bool)) : SearchResult :=
  let res := search.run ((rib.store multicast).table false) matchType nlri f.ingressId
  let records := res.2.map Prod.snd
  let ingressInfo := rib.ingressRegister.clonedInfoFor (records.map (·.multiUniqId))
  ⟨res.1, applyFilter reads ingressInfo f rotoFilter records, ingressInfo⟩

def bestPath (multicast : Bool) (nlri : Prefix) (queryAddr : Option IpAddr) (f : QueryFilter)
    (rotoFilter : Option (RotondaPaMap → Bool)) (options : BestPathOptions) : BestPathResult :=
  let matchType := if queryAddr.isSome then MatchType.longestMatch else MatchType.exactMatch
  let res := searchRoutesWith search reads rib matchType multicast nlri f rotoFilter
  let selected := select sort rc res.records res.ingressInfo options
  { matched := res.matched
    queryAddr := queryAddr
    exactMatch := res.matched = some nlri
    strategy := options.strategy
    best := selected.1
    alternatives := selected.2.1
    excluded := selected.2.2
    total := res.records.length
    ingressInfo := res.ingressInfo }

end query

/-! ## what the answer should be -/

section spec
variable (reads : AttributeReads) (rib : Rib) (f : QueryFilter)
  (rotoFilter : Option (RotondaPaMap → Bool))

/-- a record of the unicast RIB that is not withdrawn and passes the filter -/
def Passing (q : Prefix) (r : Record) : Prop :=
  (rib.unicast.table false).lookup (q, r.multiUniqId) = some r ∧
    passes reads rib.ingressRegister.get f rotoFilter r = true

/-- an active record of the prefix passes -/
def HasPassing (q : Prefix) : Prop := ∃ r, Passing reads rib f rotoFilter q r ∧ r.status = .active

/-- the prefix has a record that is not withdrawn, of the ingress that the filter asks for -/
def HasRecord (q : Prefix) : Prop := Stored (rib.unicast.table false) f.ingressId q

/-- the answer is for `q`, selected among the records of `q` that pass -/
def AnswersFor (sort : SortBy Nat) (rc : Routecore) (options : BestPathOptions) (q : Prefix)
    (res : BestPathResult) : Prop :=
  res.matched = some q ∧
    ∃ records : List Record, records.Nodup ∧ (∀ r, r ∈ records ↔ Passing reads rib f rotoFilter q r) ∧
      (res.best, res.alternatives, res.excluded) = select sort rc records res.ingressInfo options ∧
      res.total = records.length

end spec

/-! ## the store's match and the filter -/

lemma nested_covers : Nested Prefix.covers where
  refl := by
    intro p
    simp [Prefix.covers]
  trans := by
    intro p q r hpq hqr
    simp only [Prefix.covers, Bool.and_eq_true, beq_iff_eq, isPrefixOf_iff_prefix] at hpq hqr ⊢
    exact ⟨hpq.1.trans hqr.1, hpq.2.trans hqr.2⟩
  antisymm := by
    intro p q hpq hqp
    simp only [Prefix.covers, Bool.and_eq_true, beq_iff_eq, isPrefixOf_iff_prefix] at hpq hqp
    obtain ⟨fp, bp, lp⟩ := p
    obtain ⟨fq, bq, lq⟩ := q
    obtain ⟨hf, hb⟩ := hpq
    cases hf
    cases hb.eq_of_length (Nat.le_antisymm hb.length_le hqp.2.length_le)
    rfl
  chain := by
    intro p q q' hq hq'
    simp only [Prefix.covers, Bool.and_eq_true, beq_iff_eq, isPrefixOf_iff_prefix] at hq hq' ⊢
    have hf : q.family = q'.family := hq.1.trans hq'.1.symm
    rcases prefix_or_prefix_of_prefix hq.2 hq'.2 with h | h
    · exact Or.inl ⟨hf, h⟩
    · exact Or.inr ⟨hf.symm, h⟩

section answer
variable {search : RibSearch} {sort : SortBy Nat} {rc : Routecore} {reads : AttributeReads} {rib : Rib}
  {f : QueryFilter} {rotoFilter : Option (RotondaPaMap → Bool)}

lemma HasPassing.hasRecord {q : Prefix} (h : HasPassing reads rib f rotoFilter q) :
    HasRecord rib f q := by
  obtain ⟨r, ⟨hl, hp⟩, -⟩ := h
  exact ⟨r.multiUniqId, r, hl, ingressId_of_passes hp⟩

lemma mem_filtered {q : Prefix} {rs : List (IngressId × Record)}
    (hrs : ∀ m r, (m, r) ∈ rs ↔ Held (rib.unicast.table false) f.ingressId q m r) (r : Record) :
    r ∈ applyFilter reads (rib.ingressRegister.clonedInfoFor ((rs.map Prod.snd).map (·.multiUniqId))) f
        rotoFilter (rs.map Prod.snd) ↔ Passing reads rib f rotoFilter q r := by
  have hans : rib.ingressRegister.Answers ((rs.map Prod.snd).map (·.multiUniqId))
      (rib.ingressRegister.clonedInfoFor ((rs.map Prod.snd).map (·.multiUniqId))) := Or.inr rfl
  have hown : ∀ m r, (m, r) ∈ rs → m = r.multiUniqId := by
    intro m r hm
    exact (of_lookup_table ((hrs m r).mp hm).1).1.symm
  have hpass : ∀ r, r ∈ rs.map Prod.snd →
      passes reads (rib.ingressRegister.clonedInfoFor ((rs.map Prod.snd).map (·.multiUniqId))) f
        rotoFilter r = passes reads rib.ingressRegister.get f rotoFilter r := by
    intro r hm
    have hid : r.multiUniqId ∈ (rs.map Prod.snd).map (·.multiUniqId) := mem_map_of_mem hm
    exact passes_congr (hans.get hid) fun info p hi hp => hans.parent hid hi hp
  rw [applyFilter_eq, mem_filter]
  constructor
  · rintro ⟨hm, hp⟩
    rw [hpass r hm] at hp
    obtain ⟨⟨m, r'⟩, hmr, rfl⟩ := mem_map.mp hm
    refine ⟨?_, hp⟩
    have hheld := ((hrs m r').mp hmr).1
    rw [hown m r' hmr] at hheld
    exact hheld
  · rintro ⟨hl, hp⟩
    have hheld : Held (rib.unicast.table false) f.ingressId q r.multiUniqId r :=
      ⟨hl, ingressId_of_passes hp⟩
    have hm : r ∈ rs.map Prod.snd := mem_map.mpr ⟨(r.multiUniqId, r), (hrs _ _).mpr hheld, rfl⟩
    exact ⟨hm, (hpass r hm).trans hp⟩

lemma answersFor_matched {addr : IpAddr} {q : Prefix} {rs : List (IngressId × Record)}
    (options : BestPathOptions)
    (h : search.longest.run (rib.unicast.table false) addr.hostPrefix f.ingressId = some (q, rs)) :
    AnswersFor reads rib f rotoFilter sort rc options q
      (bestPath search sort rc reads rib false addr.hostPrefix (some addr) f rotoFilter options) := by
  obtain ⟨-, hnodup, hrs⟩ := search.longest.matched h
  have hrun : search.run (rib.unicast.table false) .longestMatch addr.hostPrefix f.ingressId =
      (some q, rs) := by
    simp only [RibSearch.run, h]
  have hres : searchRoutesWith search reads rib .longestMatch false addr.hostPrefix f rotoFilter =
      ⟨some q, applyFilter reads (rib.ingressRegister.clonedInfoFor
        ((rs.map Prod.snd).map (·.multiUniqId))) f rotoFilter (rs.map Prod.snd),
        rib.ingressRegister.clonedInfoFor ((rs.map Prod.snd).map (·.multiUniqId))⟩ := by
    show (⟨(search.run (rib.unicast.table false) .longestMatch _ _).1, _, _⟩ : SearchResult) = _
    rw [show (rib.store false) = rib.unicast from rfl, hrun]
  have hbest : bestPath search sort rc reads rib false addr.hostPrefix (some addr) f rotoFilter options =
      let res := searchRoutesWith search reads rib .longestMatch false addr.hostPrefix f rotoFilter
      let selected := select sort rc res.records res.ingressInfo options
      ⟨res.matched, some addr, res.matched = some addr.hostPrefix, options.strategy, selected.1,
        selected.2.1, selected.2.2, res.records.length, res.ingressInfo⟩ := rfl
  rw [hbest, hres]
  refine ⟨rfl, _, ?_, mem_filtered hrs, rfl, rfl⟩
  -- each ingress has one record
  have hsnd : (rs.map Prod.snd).Nodup := by
    refine List.Nodup.of_map (·.multiUniqId) ?_
    have hids : (rs.map Prod.snd).map (·.multiUniqId) = rs.map Prod.fst := by
      rw [map_map]
      refine map_congr_left fun e he => ?_
      exact (of_lookup_table ((hrs e.1 e.2).mp he).1).1
    rw [hids]
    exact hnodup
  rw [applyFilter_eq]
  exact hsnd.filter _

/-- **the best path for an address is answered for the longest covering prefix with an active record
that passes the filter, iff the longest covering prefix with any record has such a record** -/
theorem bestPath_iff (search : RibSearch) (sort : SortBy Nat) (rc : Routecore) (reads : AttributeReads)
    (rib : Rib) (addr : IpAddr) (f : QueryFilter) (rotoFilter : Option (RotondaPaMap → Bool))
    (options : BestPathOptions) :
    (∀ q, IsLongest Prefix.covers (HasPassing reads rib f rotoFilter) addr.hostPrefix q →
        AnswersFor reads rib f rotoFilter sort rc options q
          (bestPath search sort rc reads rib false addr.hostPrefix (some addr) f rotoFilter options)) ↔
      ((∃ q, q.covers addr.hostPrefix = true ∧ HasPassing reads rib f rotoFilter q) →
        ∀ q, IsLongest Prefix.covers (HasRecord rib f) addr.hostPrefix q →
          HasPassing reads rib f rotoFilter q) := by
  have hfinite : ∀ q, HasPassing reads rib f rotoFilter q →
      q ∈ (rib.unicast.table false).keys.map Prod.fst := by
    rintro q ⟨r, ⟨hl, -⟩, -⟩
    have hk : (q, r.multiUniqId) ∈ (rib.unicast.table false).keys :=
      AList.mem_keys.mp (AList.lookup_isSome.mp (by rw [hl]; rfl))
    exact mem_map_of_mem hk
  constructor
  · intro hclaim hex q hq
    obtain ⟨q₁, h₁⟩ := exists_isLongest nested_covers _ hfinite hex
    have hans := (hclaim q₁ h₁).1
    cases hrun : search.longest.run (rib.unicast.table false) addr.hostPrefix f.ingressId with
    | none => exact absurd hq.holds (search.longest.unmatched hrun q hq.cover)
    | some res =>
      obtain ⟨q₂, rs⟩ := res
      have hmatched : AnswersFor reads rib f rotoFilter sort rc options q₂ _ :=
        answersFor_matched options hrun
      have heq := hmatched.1
      rw [hans] at heq
      cases heq
      rw [hq.unique nested_covers (search.longest.matched hrun).1]
      exact h₁.holds
  · intro hcond q hq
    cases hrun : search.longest.run (rib.unicast.table false) addr.hostPrefix f.ingressId with
    | none => exact absurd hq.holds.hasRecord (search.longest.unmatched hrun q hq.cover)
    | some res =>
      obtain ⟨q₂, rs⟩ := res
      have hlongest := (search.longest.matched hrun).1
      have hpass := hcond ⟨q, hq.cover, hq.holds⟩ q₂ hlongest
      have hsame : q = q₂ :=
        hq.unique nested_covers (hlongest.restrict (fun q h => h.hasRecord) hpass)
      rw [hsame]
      exact answersFor_matched options hrun

end answer

/-! ## a route that hides another -/

def everything : Prefix := defaultRoute .v4

def routeWith (mui : IngressId) (rov : RovStatus) : Record := ⟨mui, .active, ⟨rov, true, []⟩⟩

/-- a valid route, and an invalid one for a longer prefix -/
def hidingRib : Rib :=
  { Rib.new Register.new with
    unicast := (Store.empty.insert everything (routeWith 1 .valid)).insert lowerHalf
      (routeWith 2 .invalid) }

def referenceSearch : RibSearch := ⟨Matcher.reference _, LongestMatcher.reference nested_covers⟩

/-- asked for valid routes only, the query finds none -/
theorem invalid_hides_valid :
    let reads : AttributeReads := ⟨fun _ => none, fun _ => none, fun _ => none, fun _ => none⟩
    let f : QueryFilter := { QueryFilter.empty with rovStatus := some .valid }
    let addr : IpAddr := .v4 1#32
    let res := bestPath referenceSearch SortBy.insertion Routecore.reference reads hidingRib false
      addr.hostPrefix (some addr) f none ⟨.rfc4271, .all⟩
    everything.covers addr.hostPrefix = true ∧ HasPassing reads hidingRib f none everything ∧
      res.matched = some lowerHalf ∧ res.best = none ∧ res.total = 0 := by
  refine ⟨by decide +kernel, ⟨routeWith 1 .valid, ⟨?_, ?_⟩, rfl⟩, ?_, ?_, ?_⟩ <;> decide +kernel

end Netom
