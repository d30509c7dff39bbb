import Netom.Ingress.Register

/-!
# The filters of a route query

A query reads records from the store, and the register's entries of their ingresses with the
parents of those.  `apply_filter` keeps a record by what these entries say.  A path child is
attributed to its session when the filter asks for the type of an ingress, and only then.

* `Register.clonedInfoFor`  the entries that come with a result;
* `ingressTypeMatches`, `applyFilter`  the filters;
* `mem_applyFilter`  what a record needs to be kept;
* `kept_child_iff`  a path child with the peer of its session, against the session itself.

What the attribute filters read of a record (`AttributeReads`) is a parameter.
-/

namespace Netom
open Option

/-- the entries of these ingresses, and of their parents -/
def Register.clonedInfoFor (reg : Register) (ids : List IngressId) (id : IngressId) :
    Option IngressInfo :=
  if ids.contains id ||
      ids.any (fun k => (reg.get k).any fun info => info.parentIngress = some id)
  then reg.get id else none

/-- the entries that a query is answered with: a dump has all of them -/
def Register.Answers (reg : Register) (ids : List IngressId)
    (all : IngressId → Option IngressInfo) : Prop :=
  all = reg.get ∨ all = reg.clonedInfoFor ids

/-- Whether a record of an ingress belongs to a session of the type.  BMP stands for everything that
was learned through it. -/
def ingressTypeMatches (want : IngressType) (info : IngressInfo)
    (all : IngressId → Option IngressInfo) : Bool :=
  -- a query for path children asks for the children themselves
  if info.ingressType = some want then true
  else
    let sessionType :=
      if info.ingressType = some .bgpPath then
        (info.parentIngress.bind all).bind (·.ingressType)
      else info.ingressType
    match want, sessionType with
    | .bmp, some .bgpViaBmp => true
    | want, some sessionType => want = sessionType
    | _, none => false

/-! ## filters -/

abbrev LargeCommunity := Nat × Nat × Nat

/-- what is decoded from the attributes of a record -/
structure AttributeReads where
  originAsn : RotondaPaMap → Option Asn
  otc : RotondaPaMap → Option Asn
  communities : RotondaPaMap → Option (List Nat)
  largeCommunities : RotondaPaMap → Option (List LargeCommunity)

structure QueryFilter where
  ingressId : Option IngressId
  originAsn : Option Asn
  otc : Option Asn
  community : Option Nat
  largeCommunity : Option LargeCommunity
  ingressType : Option IngressType
  ribType : Option PeerRibType
  rovStatus : Option RovStatus
  peerAsn : Option Asn
  peerAddr : Option IpAddr

def QueryFilter.empty : QueryFilter :=
  ⟨none, none, none, none, none, none, none, none, none, none⟩

/-- keep the records that meet the filter, if it is set -/
def retainBy {α : Type} (filter : Option α) (keep : α → Record → Bool) (records : List Record) :
    List Record :=
  match filter with
  | none => records
  | some x => records.filter (keep x)

/-- the entry of a record meets a filter; a record without one does, too -/
def entryMeets (all : IngressId → Option IngressInfo) (meets : IngressInfo → Bool) (r : Record) :
    Bool :=
  ((all r.multiUniqId).map meets).getD true

/-- the attributes meet the filters that are set -/
def attributesMeet (reads : AttributeReads) (f : QueryFilter) (m : RotondaPaMap) : Bool :=
  f.rovStatus.all (fun s => m.rov = s) &&
  f.otc.all (fun n => reads.otc m = some n) &&
  f.largeCommunity.all (fun c => (reads.largeCommunities m).any (·.contains c)) &&
  f.community.all (fun c => (reads.communities m).any (·.contains c)) &&
  f.originAsn.all (fun n => reads.originAsn m = some n)

section apply
variable (reads : AttributeReads) (all : IngressId → Option IngressInfo) (f : QueryFilter)
  (rotoFilter : Option (RotondaPaMap → Bool))

/-- the filters on the ingress of a record -/
def filterByIngress (records : List Record) : List Record :=
  let records := retainBy f.ingressId (fun id r => r.multiUniqId = id) records
  -- unlike below, a record whose ingress is unknown is dropped: it has no type
  let records := retainBy f.ingressType (fun t r =>
    ((all r.multiUniqId).map fun info => ingressTypeMatches t info all).getD false) records
  let records := retainBy f.ribType (fun t => entryMeets all fun info => info.peerRibType = some t)
    records
  let records := retainBy f.peerAsn (fun n => entryMeets all fun info => info.remoteAsn = some n)
    records
  retainBy f.peerAddr (fun a => entryMeets all fun info => info.remoteAddr = some a) records

def applyFilter (records : List Record) : List Record :=
  let records := filterByIngress all f records
  let records := retainBy rotoFilter (fun accepts r => accepts r.pamap) records
  if f.originAsn.isSome || f.otc.isSome || f.community.isSome || f.largeCommunity.isSome ||
      f.rovStatus.isSome
  then records.filter fun r => attributesMeet reads f r.pamap
  else records

/-- the entry and the attributes of a record meet all filters -/
structure Kept (info : IngressInfo) (pamap : RotondaPaMap) : Prop where
  ingressType : ∀ t, f.ingressType = some t → ingressTypeMatches t info all = true
  ribType : ∀ t, f.ribType = some t → info.peerRibType = some t
  peerAsn : ∀ n, f.peerAsn = some n → info.remoteAsn = some n
  peerAddr : ∀ a, f.peerAddr = some a → info.remoteAddr = some a
  roto : ∀ accepts, rotoFilter = some accepts → accepts pamap = true
  attributes : attributesMeet reads f pamap = true

end apply

/-! ## the entries at hand -/

section answers
variable {reg : Register} {ids : List IngressId} {all : IngressId → Option IngressInfo}

lemma Register.Answers.get (h : reg.Answers ids all) {id : IngressId} (hid : id ∈ ids) :
    all id = reg.get id := by
  rcases h with rfl | rfl
  · rfl
  · unfold Register.clonedInfoFor
    rw [List.contains_iff_mem.mpr hid]
    rfl

lemma Register.Answers.parent (h : reg.Answers ids all) {id p : IngressId} (hid : id ∈ ids)
    {info : IngressInfo} (hi : reg.get id = some info) (hp : info.parentIngress = some p) :
    all p = reg.get p := by
  rcases h with rfl | rfl
  · rfl
  · unfold Register.clonedInfoFor
    have hany : (ids.any fun k =>
        (reg.get k).any fun info => info.parentIngress = some p) = true := by
      rw [List.any_eq_true]
      refine ⟨id, hid, ?_⟩
      rw [hi]
      exact decide_eq_true hp
    rw [hany, Bool.or_true]
    rfl

end answers

/-! ## one record -/

lemma mem_retainBy {α : Type} {filter : Option α} {keep : α → Record → Bool}
    {records : List Record} {r : Record} :
    r ∈ retainBy filter keep records ↔ r ∈ records ∧ ∀ x, filter = some x → keep x r = true := by
  cases filter with
  | none =>
    constructor
    · intro h
      exact ⟨h, fun x hx => nomatch hx⟩
    · intro h
      exact h.1
  | some y =>
    show r ∈ records.filter (keep y) ↔ _
    rw [List.mem_filter]
    constructor
    · intro h
      refine ⟨h.1, ?_⟩
      intro x hx
      cases hx
      exact h.2
    · intro h
      exact ⟨h.1, h.2 y rfl⟩

section one
variable {reads : AttributeReads} {all all' : IngressId → Option IngressInfo} {f : QueryFilter}
  {rotoFilter : Option (RotondaPaMap → Bool)}

lemma attributesMeet_of_unset (h : (f.originAsn.isSome || f.otc.isSome || f.community.isSome ||
    f.largeCommunity.isSome || f.rovStatus.isSome) = false) (m : RotondaPaMap) :
    attributesMeet reads f m = true := by
  simp only [Bool.or_eq_false_iff, isSome_eq_false_iff, isNone_iff_eq_none] at h
  obtain ⟨⟨⟨⟨h1, h2⟩, h3⟩, h4⟩, h5⟩ := h
  simp [attributesMeet, h1, h2, h3, h4, h5]

lemma mem_filterByIngress (hf : f.ingressId = none) {records : List Record} {r : Record}
    {info : IngressInfo} (hi : all r.multiUniqId = some info) :
    r ∈ filterByIngress all f records ↔ r ∈ records ∧
      (∀ t, f.ingressType = some t → ingressTypeMatches t info all = true) ∧
      (∀ t, f.ribType = some t → info.peerRibType = some t) ∧
      (∀ n, f.peerAsn = some n → info.remoteAsn = some n) ∧
      ∀ a, f.peerAddr = some a → info.remoteAddr = some a := by
  have hentry : ∀ meets : IngressInfo → Bool, entryMeets all meets r = meets info := by
    intro meets
    unfold entryMeets
    rw [hi]
    rfl
  unfold filterByIngress
  simp only [mem_retainBy, hf, hentry, hi, map_some, getD_some, decide_eq_true_eq,
    reduceCtorEq, false_imp_iff, implies_true, and_true, and_assoc]

/-- a record whose ingress has an entry is kept iff that meets the filters -/
lemma mem_applyFilter (hf : f.ingressId = none) {records : List Record} {r : Record}
    (hr : r ∈ records) {info : IngressInfo} (hi : all r.multiUniqId = some info) :
    r ∈ applyFilter reads all f rotoFilter records ↔ Kept reads all f rotoFilter info r.pamap := by
  have hattr : r ∈ applyFilter reads all f rotoFilter records ↔
      r ∈ retainBy rotoFilter (fun accepts r => accepts r.pamap) (filterByIngress all f records) ∧
        attributesMeet reads f r.pamap = true := by
    unfold applyFilter
    by_cases hset : (f.originAsn.isSome || f.otc.isSome || f.community.isSome ||
        f.largeCommunity.isSome || f.rovStatus.isSome) = true
    · simp only [hset, if_true]
      exact List.mem_filter
    · have hall : attributesMeet reads f r.pamap = true :=
        attributesMeet_of_unset (Bool.eq_false_iff.mpr hset) r.pamap
      simp only [hset, hall, and_true]
      rfl
  rw [hattr, mem_retainBy, mem_filterByIngress hf hi]
  constructor
  · rintro ⟨⟨⟨_, ht, hrib, hasn, haddr⟩, hroto⟩, hattr⟩
    exact ⟨ht, hrib, hasn, haddr, hroto, hattr⟩
  · intro h
    exact ⟨⟨⟨hr, h.ingressType, h.ribType, h.peerAsn, h.peerAddr⟩, h.roto⟩, h.attributes⟩

/-! ## a path child and its session -/

lemma ingressTypeMatches_child {want : IngressType} (hw : want ≠ .bgpPath)
    {child session : IngressInfo} {p : IngressId} (ht : child.ingressType = some .bgpPath)
    (hp : child.parentIngress = some p) (hs : all p = some session)
    (hst : session.ingressType ≠ some .bgpPath) :
    ingressTypeMatches want child all = ingressTypeMatches want session all' := by
  have hne : ¬ some IngressType.bgpPath = some want := fun h => hw (some.inj h).symm
  unfold ingressTypeMatches
  rw [ht, if_neg hne, if_pos rfl, hp, bind_some, hs, bind_some, if_neg hst]
  by_cases hown : session.ingressType = some want
  · rw [if_pos hown, hown]
    cases want <;> rfl
  · rw [if_neg hown]

/-- what a path child has of its session: the peer or nothing of it, and no RIB type -/
structure Inherits (child session : IngressInfo) : Prop where
  peer : child.remoteAddr = session.remoteAddr ∧ child.remoteAsn = session.remoteAsn ∨
    child.remoteAddr = none ∧ child.remoteAsn = none
  ribless : child.peerRibType = none

/-- the filter asks for nothing that the child does not have of its session -/
def QueryFilter.Inherited (f : QueryFilter) (child : IngressInfo) : Prop :=
  f.ribType = none ∧
    (f.peerAsn = none ∧ f.peerAddr = none ∨ child.remoteAddr ≠ none ∨ child.remoteAsn ≠ none)

lemma kept_child_iff {child session : IngressInfo} {p : IngressId} {m : RotondaPaMap}
    (hf : f.ingressType ≠ some .bgpPath) (ht : child.ingressType = some .bgpPath)
    (hp : child.parentIngress = some p) (hs : all p = some session)
    (hst : session.ingressType ≠ some .bgpPath) (hi : Inherits child session) :
    (Kept reads all f rotoFilter child m ↔ Kept reads all' f rotoFilter session m) ↔
      (Kept reads all' f rotoFilter session m → f.Inherited child) := by
  have htype : ∀ t, f.ingressType = some t →
      ingressTypeMatches t child all = ingressTypeMatches t session all' := by
    intro t h
    refine ingressTypeMatches_child ?_ ht hp hs hst
    intro he
    exact hf (he ▸ h)
  -- a child that is kept is asked for no RIB type, and only for the peer if it has that
  have hasked : Kept reads all f rotoFilter child m → f.Inherited child := by
    intro hk
    constructor
    · cases hr : f.ribType with
      | none => rfl
      | some t =>
        have h := hk.ribType t hr
        rw [hi.ribless] at h
        cases h
    · cases hn : f.peerAsn with
      | some n => exact .inr (.inr (by rw [hk.peerAsn n hn]; exact some_ne_none n))
      | none =>
        cases ha : f.peerAddr with
        | some a => exact .inr (.inl (by rw [hk.peerAddr a ha]; exact some_ne_none a))
        | none => exact .inl ⟨rfl, rfl⟩
  have hsame : f.Inherited child →
      (Kept reads all f rotoFilter child m ↔ Kept reads all' f rotoFilter session m) := by
    rintro ⟨hrib, hpeer⟩
    have hasn : ∀ n, f.peerAsn = some n → child.remoteAsn = session.remoteAsn := by
      intro n hn
      rcases hi.peer with h | h
      · exact h.2
      · rcases hpeer with h' | h' | h'
        · rw [hn] at h'
          cases h'.1
        · exact absurd h.1 h'
        · exact absurd h.2 h'
    have haddr : ∀ a, f.peerAddr = some a → child.remoteAddr = session.remoteAddr := by
      intro a ha
      rcases hi.peer with h | h
      · exact h.1
      · rcases hpeer with h' | h' | h'
        · rw [ha] at h'
          cases h'.2
        · exact absurd h.1 h'
        · exact absurd h.2 h'
    constructor
    · intro hk
      refine ⟨?_, ?_, ?_, ?_, hk.roto, hk.attributes⟩
      · intro t h
        exact (htype t h).symm.trans (hk.ingressType t h)
      · intro t h
        rw [hrib] at h
        cases h
      · intro n h
        exact (hasn n h).symm.trans (hk.peerAsn n h)
      · intro a h
        exact (haddr a h).symm.trans (hk.peerAddr a h)
    · intro hk
      refine ⟨?_, ?_, ?_, ?_, hk.roto, hk.attributes⟩
      · intro t h
        exact (htype t h).trans (hk.ingressType t h)
      · intro t h
        rw [hrib] at h
        cases h
      · intro n h
        exact (hasn n h).trans (hk.peerAsn n h)
      · intro a h
        exact (haddr a h).trans (hk.peerAddr a h)
  constructor
  · intro h hk
    exact hasked (h.mpr hk)
  · intro h
    constructor
    · intro hk
      exact (hsame (hasked hk)).mp hk
    · intro hk
      exact (hsame (h hk)).mpr hk

end one

end Netom
