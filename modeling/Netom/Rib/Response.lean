import Netom.Lib.Buffered
import Netom.Rib.BestMatch

/-!
# Streamed answers

The answer to a route query is written by a blocking task into a buffer that is sent, chunk by chunk,
to the body of the response.  The task drops the errors of its writes and of the last flush; the body
ends when the task does.  A dump of all routes walks the keys of a family in chunks of 512 and stops
after the chunk at which its time is over.

* `jsonlLine`  what a line shows;
* `streamAllRoutes`  the dump of all routes;
* `streamSearchResult` the answer to a search;
* `WholeDump`  one line for each matching record;
* `whole_iff`  when a body that ends like a whole one is whole.

The JSON text of a line is a parameter, and so is the order in which the store lists its keys.
-/

namespace Netom
open LongestMatch Buffered Option Prod

/-! ## lines -/

inductive LineSection where
  | data
  | moreSpecifics
  | lessSpecifics
  deriving DecidableEq, Repr

/-- `JsonlLine`, and with `fields` `JsonlLineFiltered`, which shows only these attributes -/
structure JsonlLine where
  nlri : Prefix
  part : LineSection
  status : RouteStatus
  ingress : Option (IngressId × IngressInfo)
  source : RouteSource
  pamap : RotondaPaMap
  fields : Option (List Nat)

def jsonlLine (ingressInfo : IngressId → Option IngressInfo) (fields : Option (List Nat))
    (nlri : Prefix) (part : LineSection) (r : Record) : JsonlLine where
  nlri := nlri
  part := part
  status := r.status
  ingress := (ingressInfo r.multiUniqId).map fun info => (r.multiUniqId, info)
  source := RouteSource.resolve r.multiUniqId (ingressInfo r.multiUniqId)
  pamap := r.pamap
  fields := fields

/-- the answer to a search; without a matched prefix there are no records of it -/
structure SearchAnswer where
  matched : Option Prefix
  records : List Record
  moreSpecifics : Option (List (Prefix × List Record))
  lessSpecifics : Option (List (Prefix × List Record))
  ingressInfo : IngressId → Option IngressInfo
  fields : Option (List Nat)
  records_nil : matched = none → records = []

/-- the pieces in which the JSON text of a value is written -/
structure JsonWriter where
  line : JsonlLine → List (List (BitVec 8))
  result : SearchAnswer → List (List (BitVec 8))

/-- a line is closed by a newline -/
def JsonWriter.lineParts (json : JsonWriter) (l : JsonlLine) : List (List (BitVec 8)) :=
  json.line l ++ [[0x0A]]

/-! ## the channel -/

def streamChunkSize : Nat := 256 * 1024

/-- an item of the body, and what the task met: no error is ever put into the body -/
structure Body where
  items : List (Except Failure (List (BitVec 8)))
  met : Option Failure

def Body.ofTask (answer : Nat → Option Failure) (task : Writer (BitVec 8) × Option Failure) : Body :=
  let done := finish answer task
  ⟨done.1.map Except.ok, done.2⟩

/-- the content of the chunks -/
def Body.content (b : Body) : List (BitVec 8) :=
  (b.items.filterMap fun item => match item with
    | .ok chunk => some chunk
    | .error _ => none).flatten

/-- the reader is there until the end, and finds no error -/
def Body.EndsClean (b : Body) : Prop := b.met ≠ some .closed ∧ ∀ e, Except.error e ∉ b.items

/-! ## the dump of all routes -/

structure DumpQuery where
  multicast : Bool
  queryPrefix : Prefix
  filter : QueryFilter
  fields : Option (List Nat)
  rotoFilter : Option (RotondaPaMap → Bool)

/-- the keys of a family, as the store lists them: each prefix with a record is there, once -/
structure KeyIter where
  run : Store → AddrFamily → List Prefix
  nodup : ∀ s family, (run s family).Nodup
  family_eq : ∀ s family, ∀ p ∈ run s family, p.family = family
  listed : ∀ s p mui, s.contains p mui = true → p ∈ run s p.family

/-- what the dump meets: the answers to its sends, the reads that fail, and the chunks of keys after
which its time is over -/
structure DumpEnv where
  answer : Nat → Option Failure
  fails : Prefix → Bool
  late : Nat → Bool

def dumpKeyChunk : Nat := 512

def Store.getRecordsForPrefix (s : Store) (p : Prefix) (mui : Option IngressId)
    (includeWithdrawn : Bool) : List Record :=
  (recordsOf (s.table includeWithdrawn) mui p).map snd

section dump
variable (json : JsonWriter) (iter : KeyIter) (reads : AttributeReads) (rib : Rib) (q : DumpQuery)

def dumpIngressInfo : IngressId → Option IngressInfo :=
  match q.filter.ingressId with
  | some mui => rib.ingressRegister.clonedInfoFor [mui]
  | none => rib.ingressRegister.get

/-- the records of a key that are shown -/
def dumpRecords (p : Prefix) : List Record :=
  let found := (rib.store q.multicast).getRecordsForPrefix p q.filter.ingressId true
  applyFilter reads (dumpIngressInfo rib q) q.filter q.rotoFilter
    (found.filter fun r => r.status ≠ .withdrawn)

def dumpLine (ingressInfo : IngressId → Option IngressInfo) (p : Prefix) (r : Record) : JsonlLine :=
  jsonlLine ingressInfo q.fields p (if p = q.queryPrefix then .data else .moreSpecifics) r

def dumpKeys : List Prefix := iter.run (rib.store q.multicast) q.queryPrefix.family

/-- a key whose read fails is left out of its batch -/
def dumpBatch (fails : Prefix → Bool) (chunk : List Prefix) : List (Prefix × Record) :=
  (chunk.filter fun p => !fails p).flatMap fun p =>
    (dumpRecords reads rib q p).map fun r => (p, r)

/-- what is written of one record -/
def recordParts (e : Prefix × Record) : List (List (BitVec 8)) :=
  json.lineParts (dumpLine q (dumpIngressInfo rib q) e.1 e.2)

def writeJsonlStream (env : DumpEnv) : Writer (BitVec 8) × Option Failure :=
  writeBatches streamChunkSize env.answer env.late 0 Writer.new
    ((chunks dumpKeyChunk (dumpKeys iter rib q)).map fun chunk =>
      (dumpBatch reads rib q env.fails chunk).flatMap (recordParts json rib q))

def streamAllRoutes (env : DumpEnv) : Body :=
  Body.ofTask env.answer (writeJsonlStream json iter reads rib q env)

end dump

/-! ## the answer to a search -/

inductive OutputFormat where
  | json
  | jsonl
  deriving DecidableEq, Repr

namespace SearchAnswer
variable (a : SearchAnswer)

def recordsetEntries (part : LineSection) (set : List (Prefix × List Record)) :
    List (LineSection × Prefix × Record) :=
  set.flatMap fun pr => pr.2.map fun r => (part, pr.1, r)

/-- the lines of `write_jsonl`, in their order -/
def entries : List (LineSection × Prefix × Record) :=
  (match a.matched with
    | some nlri => a.records.map fun r => (.data, nlri, r)
    | none => []) ++
  (match a.moreSpecifics with
    | some set => recordsetEntries .moreSpecifics set
    | none => []) ++
  (match a.lessSpecifics with
    | some set => recordsetEntries .lessSpecifics set
    | none => [])

def entryLine (e : LineSection × Prefix × Record) : JsonlLine :=
  jsonlLine a.ingressInfo a.fields e.2.1 e.1 e.2.2

/-- the pieces that are written -/
def parts (json : JsonWriter) : OutputFormat → List (List (BitVec 8))
  | .json => json.result a
  | .jsonl => a.entries.flatMap fun e => json.lineParts (a.entryLine e)

end SearchAnswer

def streamSearchResult (json : JsonWriter) (a : SearchAnswer) (format : OutputFormat)
    (answer : Nat → Option Failure) : Body :=
  Body.ofTask answer (writeAll streamChunkSize answer Writer.new (a.parts json format))

/-! ## what is matched -/

section matching
variable (reads : AttributeReads) (rib : Rib) (q : DumpQuery)

/-- a record of the family that is not withdrawn and passes the filter -/
def Matching (p : Prefix) (r : Record) : Prop :=
  p.family = q.queryPrefix.family ∧
    ((rib.store q.multicast).table false).lookup (p, r.multiUniqId) = some r ∧
    passes reads rib.ingressRegister.get q.filter q.rotoFilter r = true

/-- the text of the line of a record -/
def lineText (json : JsonWriter) (e : Prefix × Record) : List (BitVec 8) :=
  (json.lineParts (dumpLine q rib.ingressRegister.get e.1 e.2)).flatten

/-- one line for each matching record, in some order -/
def WholeDump (json : JsonWriter) (content : List (BitVec 8)) : Prop :=
  ∃ es : List (Prefix × Record), es.Nodup ∧ (∀ p r, (p, r) ∈ es ↔ Matching reads rib q p r) ∧
    content = es.flatMap (lineText rib q json)

variable {reads rib q}

variable {r : Record}

lemma lookup_table_false {s : Store} {k : Prefix × IngressId} :
    (s.table false).lookup k = some r ↔ (s.table true).lookup k = some r ∧ r.status ≠ .withdrawn := by
  unfold Store.table
  rw [Assoc.lookup_filterMapVals, Assoc.lookup_filterMapVals]
  cases s.records.lookup k with
  | none => simp
  | some r₀ =>
    simp only [bind_some, Bool.false_or, Bool.true_or, if_true, some.injEq,
      ite_none_right_eq_some, decide_eq_true_eq]
    constructor
    · rintro ⟨hs, rfl⟩
      exact ⟨rfl, hs⟩
    · rintro ⟨rfl, hs⟩
      exact ⟨hs, rfl⟩

lemma owner_of_lookup_table {s : Store} {b : Bool} {p : Prefix} {mui : IngressId}
    (h : (s.table b).lookup (p, mui) = some r) : r.multiUniqId = mui := by
  unfold Store.table at h
  rw [Assoc.lookup_filterMapVals, bind_eq_some_iff] at h
  obtain ⟨r₀, -, hite⟩ := h
  obtain ⟨-, heq⟩ := ite_none_right_eq_some.mp hite
  cases heq
  rfl

lemma mem_getRecordsForPrefix {s : Store} {p : Prefix} {mui : Option IngressId} {b : Bool} :
    r ∈ s.getRecordsForPrefix p mui b ↔
      (s.table b).lookup (p, r.multiUniqId) = some r ∧ mui.all (· = r.multiUniqId) = true := by
  unfold Store.getRecordsForPrefix
  rw [List.mem_map]
  constructor
  · rintro ⟨⟨m, r'⟩, hm, rfl⟩
    obtain ⟨hl, hall⟩ := mem_recordsOf.mp hm
    rw [owner_of_lookup_table hl]
    exact ⟨hl, hall⟩
  · intro h
    exact ⟨(r.multiUniqId, r), mem_recordsOf.mpr h, rfl⟩

lemma nodup_getRecordsForPrefix (s : Store) (p : Prefix) (mui : Option IngressId) (b : Bool) :
    (s.getRecordsForPrefix p mui b).Nodup := by
  refine List.Nodup.of_map (·.multiUniqId) ?_
  have hids : (s.getRecordsForPrefix p mui b).map (·.multiUniqId) =
      (recordsOf (s.table b) mui p).map fst := by
    unfold Store.getRecordsForPrefix
    rw [List.map_map]
    refine List.map_congr_left fun e he => ?_
    exact owner_of_lookup_table (mem_recordsOf.mp he).1
  rw [hids]
  exact nodup_recordsOf _ _ _

/-- the entries that the filter and the line of a record read are those of the register -/
lemma dumpIngressInfo_answers (h : q.filter.ingressId.all (· = r.multiUniqId) = true) :
    rib.ingressRegister.Answers [r.multiUniqId] (dumpIngressInfo rib q) := by
  unfold dumpIngressInfo
  cases hq : q.filter.ingressId with
  | none => exact Or.inl rfl
  | some mui =>
    rw [hq] at h
    have hm : mui = r.multiUniqId := of_decide_eq_true h
    rw [hm]
    exact Or.inr rfl

lemma mem_dumpRecords {p : Prefix} (hp : p.family = q.queryPrefix.family) (r : Record) :
    r ∈ dumpRecords reads rib q p ↔ Matching reads rib q p r := by
  unfold dumpRecords Matching
  rw [applyFilter_eq, List.mem_filter, List.mem_filter, mem_getRecordsForPrefix, decide_eq_true_eq,
    lookup_table_false]
  have hpass : q.filter.ingressId.all (· = r.multiUniqId) = true →
      passes reads (dumpIngressInfo rib q) q.filter q.rotoFilter r =
        passes reads rib.ingressRegister.get q.filter q.rotoFilter r := by
    intro h
    have hans : rib.ingressRegister.Answers [r.multiUniqId] (dumpIngressInfo rib q) :=
      dumpIngressInfo_answers h
    have hid : r.multiUniqId ∈ [r.multiUniqId] := List.mem_cons_self
    exact passes_congr (hans.get hid) fun info p hi hp => hans.parent hid hi hp
  constructor
  · rintro ⟨⟨⟨hl, hid⟩, hs⟩, hf⟩
    rw [hpass hid] at hf
    exact ⟨hp, ⟨hl, hs⟩, hf⟩
  · rintro ⟨-, ⟨hl, hs⟩, hf⟩
    have hid := ingressId_of_passes hf
    exact ⟨⟨⟨hl, hid⟩, hs⟩, (hpass hid).trans hf⟩

end matching

/-! ## the walk -/

section walk
variable (json : JsonWriter) (iter : KeyIter) (reads : AttributeReads) (rib : Rib) (q : DumpQuery)

/-- the keys that are visited before the time is over -/
def visited (late : Nat → Bool) : List Prefix :=
  (untilLate late 0 (chunks dumpKeyChunk (dumpKeys iter rib q))).flatten

/-- the records that the walk comes to -/
def walked (env : DumpEnv) : List (Prefix × Record) :=
  dumpBatch reads rib q env.fails (visited iter rib q env.late)

/-- the records of all keys -/
def allEntries : List (Prefix × Record) :=
  (dumpKeys iter rib q).flatMap fun p => (dumpRecords reads rib q p).map fun r => (p, r)

/-- every prefix with a matching record is visited, and its read does not fail -/
def Reaches (env : DumpEnv) : Prop :=
  ∀ p r, Matching reads rib q p r → p ∈ visited iter rib q env.late ∧ env.fails p = false

variable {json iter reads rib q} {env : DumpEnv}

lemma writeJsonlStream_eq :
    writeJsonlStream json iter reads rib q env =
      writeAll streamChunkSize env.answer Writer.new
        ((walked iter reads rib q env).flatMap (recordParts json rib q)) := by
  unfold writeJsonlStream walked visited
  rw [writeBatches_eq, untilLate_map]
  congr 1
  generalize untilLate env.late 0 (chunks dumpKeyChunk (dumpKeys iter rib q)) = cs
  induction cs with
  | nil => rfl
  | cons c cs ih =>
    rw [List.map_cons, List.flatten_cons, ih, List.flatten_cons]
    unfold dumpBatch
    rw [List.filter_append, List.flatMap_append, List.flatMap_append]

lemma visited_initial : visited iter rib q env.late <+: dumpKeys iter rib q := by
  obtain ⟨rest, hrest⟩ :=
    untilLate_initial env.late 0 (chunks dumpKeyChunk (dumpKeys iter rib q))
  refine ⟨rest.flatten, ?_⟩
  unfold visited
  rw [← List.flatten_append, hrest]
  exact chunks_flatten (by decide) _

lemma walked_sublist : (walked iter reads rib q env).Sublist (allEntries iter reads rib q) := by
  have hkeys : ((visited iter rib q env.late).filter fun p => !env.fails p).Sublist
      (dumpKeys iter rib q) := List.filter_sublist.trans visited_initial.sublist
  exact hkeys.flatMap _

lemma mem_walked {p : Prefix} {r : Record} :
    (p, r) ∈ walked iter reads rib q env ↔
      (p ∈ visited iter rib q env.late ∧ env.fails p = false) ∧ Matching reads rib q p r := by
  have hfam : p ∈ visited iter rib q env.late → p.family = q.queryPrefix.family := by
    intro hp
    exact iter.family_eq _ _ p (visited_initial.subset hp)
  unfold walked dumpBatch
  simp only [List.mem_flatMap, List.mem_map, List.mem_filter, mk.injEq, Bool.not_eq_true']
  constructor
  · rintro ⟨p', hp', r', hr', rfl, rfl⟩
    exact ⟨hp', (mem_dumpRecords (hfam hp'.1) r').mp hr'⟩
  · rintro ⟨hp, hr⟩
    exact ⟨p, hp, r, (mem_dumpRecords (hfam hp.1) r).mpr hr, rfl, rfl⟩

lemma mem_allEntries {p : Prefix} {r : Record} :
    (p, r) ∈ allEntries iter reads rib q ↔ Matching reads rib q p r := by
  unfold allEntries
  simp only [List.mem_flatMap, List.mem_map, mk.injEq]
  constructor
  · rintro ⟨p', hp', r', hr', rfl, rfl⟩
    exact (mem_dumpRecords (iter.family_eq _ _ p' hp') r').mp hr'
  · intro h
    refine ⟨p, ?_, r, (mem_dumpRecords h.1 r).mpr h, rfl, rfl⟩
    have hcont : (rib.store q.multicast).contains p r.multiUniqId = true := by
      have hl := h.2.1
      unfold Store.table at hl
      rw [Assoc.lookup_filterMapVals, bind_eq_some_iff] at hl
      obtain ⟨r₀, hr₀, -⟩ := hl
      unfold Store.contains Store.get
      rw [hr₀]
      rfl
    have hmem := iter.listed _ p _ hcont
    rw [h.1] at hmem
    exact hmem

lemma nodup_allEntries : (allEntries iter reads rib q).Nodup := by
  unfold allEntries
  rw [List.nodup_flatMap]
  constructor
  · intro p hp
    refine List.Nodup.map (fun r r' h => (mk.inj h).2) ?_
    unfold dumpRecords
    rw [applyFilter_eq]
    exact ((nodup_getRecordsForPrefix _ _ _ _).filter _).filter _
  · refine (iter.nodup (rib.store q.multicast) q.queryPrefix.family).imp ?_
    intro p p' hne
    rw [Function.onFun, List.disjoint_left]
    intro e he he'
    obtain ⟨r, -, rfl⟩ := List.mem_map.mp he
    obtain ⟨r', -, heq⟩ := List.mem_map.mp he'
    exact hne (mk.inj heq).1.symm

/-- the matching records have one length of text, whatever their order -/
lemma length_of_matching {es : List (Prefix × Record)} (hes : es.Nodup)
    (hmem : ∀ p r, (p, r) ∈ es ↔ Matching reads rib q p r) :
    ((allEntries iter reads rib q).flatMap (lineText rib q json)).length =
      (es.flatMap (lineText rib q json)).length := by
  have hperm : (allEntries iter reads rib q).Perm es := by
    refine (List.perm_ext_iff_of_nodup nodup_allEntries hes).mpr ?_
    rintro ⟨p, r⟩
    rw [mem_allEntries, hmem]
  exact (hperm.flatMap_right (lineText rib q json)).length_eq

/-- the text that is written of a record that the walk comes to is its line -/
lemma recordParts_flatten {p : Prefix} {r : Record} (h : Matching reads rib q p r) :
    (recordParts json rib q (p, r)).flatten = lineText rib q json (p, r) := by
  have hans : rib.ingressRegister.Answers [r.multiUniqId] (dumpIngressInfo rib q) :=
    dumpIngressInfo_answers (ingressId_of_passes h.2.2)
  have hinfo : dumpIngressInfo rib q r.multiUniqId = rib.ingressRegister.get r.multiUniqId :=
    hans.get List.mem_cons_self
  unfold recordParts lineText dumpLine jsonlLine
  simp only [hinfo]

lemma written_text :
    ((walked iter reads rib q env).flatMap (recordParts json rib q)).flatten =
      (walked iter reads rib q env).flatMap (lineText rib q json) := by
  rw [List.flatten_eq_flatMap, List.flatMap_assoc]
  refine List.flatMap_congr fun e he => ?_
  rw [← List.flatten_eq_flatMap]
  exact recordParts_flatten (mem_walked.mp he).2

lemma lineText_ne_nil (e : Prefix × Record) : lineText rib q json e ≠ [] := by
  unfold lineText JsonWriter.lineParts
  simp

end walk

/-! ## whole answers -/

inductive Request where
  | allRoutes (q : DumpQuery)
  | search (a : SearchAnswer) (format : OutputFormat)

section respond
variable (json : JsonWriter) (iter : KeyIter) (reads : AttributeReads) (rib : Rib) (env : DumpEnv)

def respond : Request → Body
  | .allRoutes q => streamAllRoutes json iter reads rib q env
  | .search a format => streamSearchResult json a format env.answer

/-- the answer in full -/
def Whole : Request → List (BitVec 8) → Prop
  | .allRoutes q, content => WholeDump reads rib q json content
  | .search a format, content => content = (a.parts json format).flatten

/-- what there is to write: of a dump, the records that the walk comes to -/
def toWrite : Request → List (List (BitVec 8))
  | .allRoutes q => (walked iter reads rib q env).flatMap (recordParts json rib q)
  | .search a format => a.parts json format

/-- nothing is left out before it is written -/
def Reached : Request → Prop
  | .allRoutes q => Reaches iter reads rib q env
  | .search _ _ => True

variable {json iter reads rib env}

lemma Body.content_ofTask (answer : Nat → Option Failure)
    (task : Writer (BitVec 8) × Option Failure) :
    (Body.ofTask answer task).content = (finish answer task).1.flatten := by
  unfold Body.content Body.ofTask
  rw [List.filterMap_map]
  congr 1
  exact List.filterMap_some

lemma Body.endsClean_ofTask (answer : Nat → Option Failure)
    (task : Writer (BitVec 8) × Option Failure) :
    (Body.ofTask answer task).EndsClean ↔ (finish answer task).2 ≠ some .closed := by
  unfold Body.EndsClean Body.ofTask
  constructor
  · rintro ⟨h, -⟩
    exact h
  · intro h
    refine ⟨h, ?_⟩
    intro e he
    obtain ⟨chunk, -, heq⟩ := List.mem_map.mp he
    cases heq

lemma respond_eq (req : Request) :
    respond json iter reads rib env req =
      Body.ofTask env.answer (writeAll streamChunkSize env.answer Writer.new
        (toWrite json iter reads rib env req)) := by
  cases req with
  | allRoutes q =>
    show Body.ofTask env.answer (writeJsonlStream json iter reads rib q env) = _
    rw [writeJsonlStream_eq]
    rfl
  | search a format => rfl

lemma length_le_of_whole {req : Request} {content : List (BitVec 8)}
    (h : Whole json reads rib req content) :
    (toWrite json iter reads rib env req).flatten.length ≤ content.length := by
  cases req with
  | allRoutes q =>
    obtain ⟨es, hes, hmem, rfl⟩ := h
    show ((walked iter reads rib q env).flatMap (recordParts json rib q)).flatten.length ≤ _
    have hlen : ((allEntries iter reads rib q).flatMap (lineText rib q json)).length = _ :=
      length_of_matching hes hmem
    rw [written_text, ← hlen]
    exact (walked_sublist.flatMap _).length_le
  | search a format =>
    cases h
    exact Nat.le_refl _

/-- what is written is the whole answer iff nothing was left out before -/
lemma whole_toWrite_iff (req : Request) :
    Whole json reads rib req (toWrite json iter reads rib env req).flatten ↔
      Reached iter reads rib env req := by
  cases req with
  | allRoutes q =>
    show WholeDump reads rib q json
      ((walked iter reads rib q env).flatMap (recordParts json rib q)).flatten ↔
        Reaches iter reads rib q env
    rw [written_text]
    constructor
    · rintro ⟨es, hes, hmem, heq⟩
      have hlen : ((allEntries iter reads rib q).flatMap (lineText rib q json)).length = _ :=
        length_of_matching hes hmem
      rw [← heq] at hlen
      have hall : walked iter reads rib q env = allEntries iter reads rib q :=
        eq_of_sublist_of_length lineText_ne_nil walked_sublist hlen.le
      intro p r h
      have hmem' : (p, r) ∈ walked iter reads rib q env := by
        rw [hall]
        exact mem_allEntries.mpr h
      exact (mem_walked.mp hmem').1
    · intro h
      refine ⟨_, walked_sublist.nodup nodup_allEntries, ?_, rfl⟩
      intro p r
      rw [mem_walked]
      exact ⟨fun hw => hw.2, fun hm => ⟨h p r hm, hm⟩⟩
  | search a format => exact iff_of_true rfl trivial

/-- after a send that times out the body ends like any other, and is not whole -/
lemma of_timedOut {req : Request}
    (h : failure streamChunkSize env.answer (toWrite json iter reads rib env req) = some .timedOut) :
    (respond json iter reads rib env req).EndsClean ∧
      ¬ Whole json reads rib req (respond json iter reads rib env req).content := by
  have hmet : (finish env.answer (writeAll streamChunkSize env.answer Writer.new
      (toWrite json iter reads rib env req))).2 = some .timedOut := (stream_of_some h).2
  have hlt : (finish env.answer (writeAll streamChunkSize env.answer Writer.new
      (toWrite json iter reads rib env req))).1.flatten.length <
        (toWrite json iter reads rib env req).flatten.length := (stream_of_some h).1
  rw [respond_eq, Body.endsClean_ofTask, Body.content_ofTask, hmet]
  refine ⟨by decide, ?_⟩
  intro hw
  exact absurd hlt (not_lt.mpr (length_le_of_whole hw))

end respond

/-! ## a reader that stalls -/

/-- the keys in the order of the table -/
def KeyIter.reference : KeyIter where
  run s family := (s.records.keys.map fst).dedup.filter fun p => p.family = family
  nodup s family := (List.nodup_dedup _).filter _
  family_eq := by
    intro s family p hp
    exact of_decide_eq_true (List.mem_filter.mp hp).2
  listed := by
    intro s p mui h
    have hk : (p, mui) ∈ s.records.keys := AList.mem_keys.mp (AList.lookup_isSome.mp h)
    refine List.mem_filter.mpr ⟨List.mem_dedup.mpr (List.mem_map_of_mem hk), decide_eq_true rfl⟩

/-- the default route from 65 sessions, each with a line of the size of a chunk -/
def crowdedRib : Rib :=
  { Rib.new Register.new with
    unicast := (List.range 65).foldl (fun s i => s.insert everything (routeWith i .notFound))
      Store.empty }

def wideJson : JsonWriter := ⟨fun _ => [List.replicate streamChunkSize 0x20], fun _ => []⟩

def noReads : AttributeReads := ⟨fun _ => none, fun _ => none, fun _ => none, fun _ => none⟩

/-- the 64 chunks that the channel has room for are taken, and the next send times out -/
def stalledEnv : DumpEnv :=
  ⟨fun n => if n < 64 then none else some .timedOut, fun _ => false, fun _ => false⟩

def dumpAll : DumpQuery := ⟨false, everything, .empty, none, none⟩

lemma lengths_wideJson (es : List (Prefix × Record)) :
    (es.flatMap (recordParts wideJson crowdedRib dumpAll)).map List.length =
      (List.replicate es.length [streamChunkSize, 1]).flatten := by
  induction es with
  | nil => rfl
  | cons e es ih =>
    rw [List.flatMap_cons, List.map_append, ih, List.length_cons, List.replicate_succ,
      List.flatten_cons]
    have hline : (recordParts wideJson crowdedRib dumpAll e).map List.length =
        [(List.replicate streamChunkSize (0x20 : BitVec 8)).length, 1] := rfl
    rw [hline, List.length_replicate]

end Netom
