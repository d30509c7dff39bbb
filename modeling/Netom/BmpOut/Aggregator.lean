import Netom.Lib.Total
import Netom.BmpOut.Routes

/-!
# The aggregator of the table dump

The dump does not send a message for every route.  Routes of one peer and family that have the same
attributes, and that all have a path id or all have none, are collected in a group, and a group is
sent as one UPDATE: before it gets too long, when another group needs its key, when the groups hold
too many bytes, or at the end.

* `Packing`  what the groups of prefixes and of FlowSpec rules do differently, `aggGroup` and
  `fsAggGroup` the two of them;
* `addTo`  one more item, which both kinds share;
* `RouteAggregator`  the groups, with `add`, `addFlowspec`, `insertPeer` and `flushAll`.

The hash of the attributes, the order in which a hash map is iterated, the clock and the answers of
the sink are parameters (`AggEnv`).
-/

namespace Netom.Builder
open AttrWire BigEndian BgpWire NlriWire

/-! ## groups -/

/-- the key of a group; the last part is the hash of the attributes -/
structure GroupKey where
  ingressId : IngressId
  isV4 : Bool
  hasPathId : Bool
  hash : BitVec 64
  deriving DecidableEq, Repr

structure AggEnv where
  hashPaBlob : Bytes → BitVec 64
  /-- the order in which the keys of a hash map come -/
  order : List GroupKey → List GroupKey
  order_perm : ∀ ks, (order ks).Perm ks
  /-- the time at the `n`-th message -/
  clock : Nat → Nat × Nat
  /-- whether the sink takes the `n`-th message -/
  accepts : Nat → Bool

/-- a group of items, which share the attributes in `raw` -/
structure AggGroup (ι : Type) where
  raw : Bytes
  isV4 : Bool
  items : List ι
  nlriTotal : Nat
  /-- the length of the UPDATE without items -/
  baseLen : Nat
  deriving Repr

def aggMemPerPrefix : Nat := 32
def aggMemPerGroup : Nat := 128

structure Packing (ι : Type) where
  hasPathId : ι → Bool
  nlriLen : ι → Nat
  memCost : ι → Nat
  /-- the length of an UPDATE with the attributes in `raw` and no items -/
  baseLen : Bool → Bytes → Nat
  /-- the UPDATE of several items -/
  buildAll : Bool → Bytes → List ι → Bytes
  /-- the UPDATE of one, unless it is too long -/
  buildOne : Bool → Bytes → ι → Option Bytes

/-- the attributes of `raw` -/
def blobOf (raw : Bytes) : Bytes := raw.drop 2

section group
variable {ι : Type} (k : Packing ι)

def AggGroup.new (raw : Bytes) (isV4 : Bool) : AggGroup ι := ⟨raw, isV4, [], 0, k.baseLen isV4 raw⟩

variable (g : AggGroup ι)

def AggGroup.blob : Bytes := blobOf g.raw
def AggGroup.isEmpty : Bool := g.items.isEmpty
def AggGroup.bgpUpdateLen : Nat := g.baseLen + g.nlriTotal
def AggGroup.cost : Nat := aggMemPerGroup + (g.items.map k.memCost).sum

def AggGroup.push (item : ι) : AggGroup ι :=
  { g with items := g.items ++ [item], nlriTotal := g.nlriTotal + k.nlriLen item }

def AggGroup.reset : AggGroup ι := { g with items := [], nlriTotal := 0 }

end group

/-! ### prefixes and rules -/

def aggGroup : Packing (Prefix × Option PathId) where
  hasPathId item := item.2.isSome
  nlriLen item := nlriEncodedLen item.1 item.2.isSome
  memCost _ := aggMemPerPrefix
  baseLen isV4 raw :=
    let (paBytes, nextHop) := filterPaFromRaw raw
    if isV4 then 19 + 2 + 2 + paBytes.length
    else
      let nhLen := (nextHop.map List.length).getD 16
      19 + 2 + 2 + paBytes.length + 4 + (2 + 1 + 1 + nhLen + 1)
  buildAll isV4 raw items :=
    let (paBytes, nextHop) := filterPaFromRaw raw
    let nh := if isV4 then none else nextHop.or (some (List.replicate 16 0))
    buildAggregatedBgpUpdate items paBytes nh isV4
  buildOne _ raw item := buildBgpUpdate item.1 raw false item.2

def fsAggGroup : Packing (Option PathId × Bytes) where
  hasPathId item := item.1.isSome
  nlriLen item := flowspecNlriEncodedLen item.2 item.1.isSome
  memCost item := aggMemPerPrefix + item.2.length
  baseLen _ raw := 19 + 2 + 2 + (filterPaFromRaw raw).1.length + 4 + 5
  buildAll isV4 raw items := buildFlowspecsBgpUpdate isV4 (filterPaFromRaw raw).1 items
  buildOne isV4 raw item := buildFlowspecBgpUpdate isV4 item.2 raw false item.1

/-! ## groups of one kind -/

/-- what both kinds of groups share, and what the sink was given: messages, and how many routes each
holds -/
structure AggCounters where
  bufferedBytes : Nat
  groupsCreated : Nat
  budgetEvictions : Nat
  sent : List (Bytes × Nat)
  deriving Repr

structure AggTable (ι : Type) where
  groups : Assoc GroupKey (AggGroup ι)
  counters : AggCounters

inductive AddOutcome where
  | gone
  | passed
  | placed
  deriving DecidableEq, Repr

section table
variable {ι : Type} (env : AggEnv) (k : Packing ι)

def AggCounters.sink (s : AggCounters) (peer : PeerInfo) (bgpUpdate : Bytes) (n : Nat) :
    Bool × AggCounters :=
  let msg := wrapPeer (env.clock s.sent.length) .routeMonitoring peer none bgpUpdate
  (env.accepts s.sent.length, { s with sent := s.sent ++ [(msg, n)] })

/-- nothing is sent for an empty group -/
def AggGroup.emit (g : AggGroup ι) (peer : PeerInfo) (s : AggCounters) : Bool × AggCounters :=
  if g.isEmpty then (true, s)
  else s.sink env peer (k.buildAll g.isV4 g.raw g.items) g.items.length

/-- the group is taken out of the table -/
def AggTable.remove (t : AggTable ι) (key : GroupKey) (g : AggGroup ι) : AggTable ι :=
  { groups := t.groups.erase key
    counters := { t.counters with bufferedBytes := t.counters.bufferedBytes - g.cost k } }

def AggTable.created (t : AggTable ι) : AggTable ι :=
  { t with counters := { t.counters with groupsCreated := t.counters.groupsCreated + 1 } }

def AggTable.emit (t : AggTable ι) (g : AggGroup ι) (peer : PeerInfo) : Bool × AggTable ι :=
  let (sent, counters) := g.emit env k peer t.counters
  (sent, { t with counters })

/-- the group of a key and of some attributes, out of the table: one with other attributes is sent
first -/
def AggTable.open (t : AggTable ι) (peer : PeerInfo) (key : GroupKey) (raw : Bytes) :
    Bool × AggGroup ι × AggTable ι :=
  match t.groups.lookup key with
  | some g =>
    if g.blob = blobOf raw then (true, g, t.remove k key g)
    else
      let (sent, t) := (t.remove k key g).emit env k g peer
      (sent, .new k raw key.isV4, if sent then t.created else t)
  | none => (true, .new k raw key.isV4, t.created)

/-- a group that the item would make too long is sent first -/
def AggTable.makeRoom (t : AggTable ι) (peer : PeerInfo) (g : AggGroup ι) (item : ι) :
    Bool × AggGroup ι × AggTable ι :=
  if !g.isEmpty && decide (maxBgpUpdateLen < g.bgpUpdateLen + k.nlriLen item) then
    let (sent, t) := t.emit env k g peer
    (sent, g.reset, t)
  else (true, g, t)

/-- an item that is too long for any group goes on its own, if at all -/
def AggTable.place (t : AggTable ι) (peer : PeerInfo) (key : GroupKey) (raw : Bytes)
    (g : AggGroup ι) (item : ι) : AddOutcome × AggTable ι :=
  if g.isEmpty && decide (maxBgpUpdateLen < g.baseLen + k.nlriLen item) then
    match k.buildOne key.isV4 raw item with
    | some bgpUpdate =>
      let (sent, counters) := t.counters.sink env peer bgpUpdate 1
      (if sent then .passed else .gone, { t with counters })
    | none => (.passed, t)
  else
    let g := g.push k item
    (.placed,
      { groups := t.groups.insert key g
        counters := { t.counters with
          bufferedBytes := t.counters.bufferedBytes + g.cost k } })

def keyOf (ingressId : IngressId) (isV4 : Bool) (item : ι) (raw : Bytes) : GroupKey :=
  ⟨ingressId, isV4, k.hasPathId item, env.hashPaBlob (blobOf raw)⟩

/-- an item of a peer, with its attributes -/
def addTo (t : AggTable ι) (peer : PeerInfo) (key : GroupKey) (raw : Bytes) (item : ι) :
    AddOutcome × AggTable ι :=
  match t.open env k peer key raw with
  | (false, _, t) => (.gone, t)
  | (true, g, t) =>
    match t.makeRoom env k peer g item with
    | (false, _, t) => (.gone, t)
    | (true, g, t) => t.place env k peer key raw g item

/-- groups are sent one after the other until no more than `target` bytes are held -/
def evictKeys (peerInfo : Assoc IngressId PeerInfo) (target : Nat) :
    AggTable ι → List GroupKey → Bool × AggTable ι
  | t, [] => (true, t)
  | t, key :: keys =>
    if t.counters.bufferedBytes ≤ target then (true, t)
    else
      match t.groups.lookup key with
      | none => evictKeys peerInfo target t keys
      | some g =>
        let t := t.remove k key g
        let t := { t with counters := { t.counters with
          budgetEvictions := t.counters.budgetEvictions + 1 } }
        match peerInfo.lookup key.ingressId with
        | none => evictKeys peerInfo target t keys
        | some peer =>
          match t.emit env k g peer with
          | (false, t) => (false, t)
          | (true, t) => evictKeys peerInfo target t keys

/-- the keys of a table, those of the fullest groups first -/
def fullestFirst (groups : Assoc GroupKey (AggGroup ι)) : List GroupKey :=
  let count key := ((groups.lookup key).map fun g => g.items.length).getD 0
  (env.order groups.keys).mergeSort fun a b => count b ≤ count a

def emitAll (peerInfo : Assoc IngressId PeerInfo) :
    AggCounters → List (GroupKey × AggGroup ι) → Bool × AggCounters :=
  Run.loop fun s entry =>
    match peerInfo.lookup entry.1.ingressId with
    | some peer => entry.2.emit env k peer s
    | none => (true, s)

end table

/-! ## the aggregator -/

structure RouteAggregator where
  groups : Assoc GroupKey (AggGroup (Prefix × Option PathId))
  fsGroups : Assoc GroupKey (AggGroup (Option PathId × Bytes))
  peerInfo : Assoc IngressId PeerInfo
  maxBytes : Nat
  counters : AggCounters

namespace RouteAggregator

def new (maxBytes : Nat) (peerInfo : Assoc IngressId PeerInfo) : RouteAggregator :=
  ⟨∅, ∅, peerInfo, maxBytes, ⟨0, 0, 0, []⟩⟩

section calls
variable (env : AggEnv) (agg : RouteAggregator)

def insertPeer (id : IngressId) (info : PeerInfo) : RouteAggregator :=
  { agg with peerInfo := agg.peerInfo.insert id info }

def prefixTable : AggTable (Prefix × Option PathId) := ⟨agg.groups, agg.counters⟩
def ruleTable : AggTable (Option PathId × Bytes) := ⟨agg.fsGroups, agg.counters⟩

def withPrefixes (t : AggTable (Prefix × Option PathId)) : RouteAggregator :=
  { agg with groups := t.groups, counters := t.counters }

def withRules (t : AggTable (Option PathId × Bytes)) : RouteAggregator :=
  { agg with fsGroups := t.groups, counters := t.counters }

/-- down to half the budget; rules only if the prefixes are not enough -/
def evictUntilUnderBudget : Bool × RouteAggregator :=
  let target := agg.maxBytes / 2
  match evictKeys env aggGroup agg.peerInfo target agg.prefixTable (fullestFirst env agg.groups) with
  | (false, t) => (false, agg.withPrefixes t)
  | (true, t) =>
    let agg := agg.withPrefixes t
    if target < agg.counters.bufferedBytes then
      let (sent, t) := evictKeys env fsAggGroup agg.peerInfo target agg.ruleTable
        (fullestFirst env agg.fsGroups)
      (sent, agg.withRules t)
    else (true, agg)

/-- only an item that is placed is checked against the budget -/
def afterAdd : AddOutcome → RouteAggregator → Bool × RouteAggregator
  | .gone, agg => (false, agg)
  | .passed, agg => (true, agg)
  | .placed, agg =>
    if agg.maxBytes < agg.counters.bufferedBytes then agg.evictUntilUnderBudget env else (true, agg)

/-- a route of a peer that is not in the map is dropped -/
def add (ingressId : IngressId) (pathId : Option PathId) (p : Prefix) (raw : Bytes) :
    Bool × RouteAggregator :=
  match agg.peerInfo.lookup ingressId with
  | none => (true, agg)
  | some peer =>
    let key := keyOf env aggGroup ingressId (Prefix.isV4 p) (p, pathId) raw
    let (outcome, t) := addTo env aggGroup agg.prefixTable peer key raw (p, pathId)
    afterAdd env outcome (agg.withPrefixes t)

def addFlowspec (ingressId : IngressId) (pathId : Option PathId) (isV4 : Bool) (nlriRaw raw : Bytes) :
    Bool × RouteAggregator :=
  match agg.peerInfo.lookup ingressId with
  | none => (true, agg)
  | some peer =>
    let key := keyOf env fsAggGroup ingressId isV4 (pathId, nlriRaw) raw
    let (outcome, t) := addTo env fsAggGroup agg.ruleTable peer key raw (pathId, nlriRaw)
    afterAdd env outcome (agg.withRules t)

def flushAll : Bool × RouteAggregator :=
  let groups := Assoc.drain (env.order agg.groups.keys) agg.groups
  match emitAll env aggGroup agg.peerInfo agg.counters groups with
  | (false, s) => (false, { agg with groups := ∅, counters := { s with bufferedBytes := 0 } })
  | (true, s) =>
    let fsGroups := Assoc.drain (env.order agg.fsGroups.keys) agg.fsGroups
    let (sent, s) := emitAll env fsAggGroup agg.peerInfo s fsGroups
    (sent, { agg with groups := ∅, fsGroups := ∅, counters := { s with bufferedBytes := 0 } })

end calls

end RouteAggregator

/-! ## what is called -/

inductive AggCall where
  | add (ingressId : IngressId) (pathId : Option PathId) (p : Prefix) (raw : Bytes)
  | addFlowspec (ingressId : IngressId) (pathId : Option PathId) (isV4 : Bool) (nlriRaw raw : Bytes)
  | insertPeer (id : IngressId) (info : PeerInfo)
  deriving DecidableEq

def AggCall.apply (env : AggEnv) (agg : RouteAggregator) : AggCall → Bool × RouteAggregator
  | .add ingressId pathId p raw => agg.add env ingressId pathId p raw
  | .addFlowspec ingressId pathId isV4 nlriRaw raw =>
    agg.addFlowspec env ingressId pathId isV4 nlriRaw raw
  | .insertPeer id info => (true, agg.insertPeer id info)

end Netom.Builder
