import Netom.Lib.Run
import Netom.ClickHouse.Spool

/-!
# The exporter: senders, the queue and the writer

`send` takes a permit from the budget and puts an event into the queue.  The writer takes events from
the queue, makes rows of them, collects the rows in a frame, appends frames to a segment and seals
segments.  On shutdown the budget is closed and the stop flag is set; the writer ends when it finds
the queue empty and the flag set, with a row that says so.

* `expiry`, `Event`  events and rows;
* `RowOf`, `IdentityOf`  what a row has of its event;
* `Writer.top`, `Writer.check`  the loop of `writer`, before and after it waits for an event;
* `Exporter.step`  any interleaving of senders, shutdown and writer.

Whether a write succeeds, whether a frame or a segment is due and what the clock says is part of each
step.  A segment is the rows that have been appended to it.
-/

namespace Netom.ClickHouse

abbrev Id16 := BitVec 128

/-! ## events -/

structure Event where
  stream : Id16
  epoch : Id16
  seq : Nat
  receivedMs : Int
  expires : Nat
  eventClass : Nat
  /-- 1 announcement, 2 withdrawal, 3 identity, 4 peer invalidation, 5 family invalidation,
  6 reappearance, 7 history start, 8 history end, 9 end of stream -/
  kind : Nat
  peer : Id16
  ingress : Nat
  pathId : Option Nat
  afi : Nat
  safi : Nat
  prefixAddr : Id16
  prefixLen : Nat
  attrs : Bytes
  identity : String
  deriving DecidableEq

def Event.default : Event :=
  ⟨0, 0, 0, 0, 0, 0, 0, 0, 0, none, 0, 0, 0, 0, [], ""⟩

def satI64 (x : Int) : Int := max (-2 ^ 63) (min x (2 ^ 63 - 1))

def hour (ms : Int) : Int := Int.ediv ms 3600000

/-- the end of the hour, and the retention behind it -/
def expiry (ms : Int) (retentionHours : Nat) : Nat :=
  let hourEnd := satI64 (satI64 (hour ms + 1) * 3600)
  (max 0 (min (satI64 (hourEnd + retentionHours * 3600)) (2 ^ 32 - 1))).toNat

/-- the kinds that `direct_update` and `route` send -/
def observedKinds : List Nat := [1, 2, 4, 5, 6, 9]

def Event.isObserved (e : Event) : Bool := e.kind ∈ observedKinds

/-- an event as it is sent: its place and its expiry are not set -/
structure Observation where
  event : Event
  observed : event.kind ∈ observedKinds
  deriving DecidableEq

structure Config where
  stream : Id16
  epoch : Id16
  retentionHours : Nat
  /-- the name of the collector as a JSON string -/
  collectorJson : String
  /-- the size of a queued event without its buffers -/
  queuedSize : Nat

def textBytes (s : String) : Bytes := s.toUTF8.toList.map (·.toBitVec)

section
variable (cfg : Config) (sha : Sha256)

def startEvent (now : Int) : Event :=
  { Event.default with
    stream := cfg.stream
    epoch := cfg.epoch
    receivedMs := now
    kind := 7
    identity := "\x7b\"collector\":" ++ cfg.collectorJson ++
      ",\"coverage\":\"live observations; no initial snapshot\"\x7d" }

def endEvent (now : Int) : Event :=
  { Event.default with stream := cfg.stream, epoch := cfg.epoch, receivedMs := now, kind := 8 }

/-- the row that introduces the peer of an event -/
def identityRow (e : Event) (seq : Nat) : Event :=
  { Event.default with
    stream := e.stream
    epoch := cfg.epoch
    seq := seq
    receivedMs := e.receivedMs
    expires := expiry e.receivedMs cfg.retentionHours
    kind := 3
    peer := e.peer
    ingress := e.ingress
    identity := e.identity }

/-- the row of an event: the identity is left to the row that introduces the peer -/
def eventRow (e : Event) (seq : Nat) : Event :=
  { e with
    seq := seq
    expires := expiry e.receivedMs cfg.retentionHours
    identity := if e.peer ≠ 0 then "" else e.identity }

/-- a row that introduces the peer of an event -/
structure IdentityOf (e row : Event) : Prop where
  kind : row.kind = 3
  stream : row.stream = e.stream
  epoch : row.epoch = cfg.epoch
  receivedMs : row.receivedMs = e.receivedMs
  expires : row.expires = expiry e.receivedMs cfg.retentionHours
  peer : row.peer = e.peer
  ingress : row.ingress = e.ingress
  identity : row.identity = e.identity

/-- a row that says what an event says -/
structure RowOf (e row : Event) : Prop where
  stream : row.stream = e.stream
  epoch : row.epoch = e.epoch
  receivedMs : row.receivedMs = e.receivedMs
  expires : row.expires = expiry e.receivedMs cfg.retentionHours
  eventClass : row.eventClass = e.eventClass
  kind : row.kind = e.kind
  peer : row.peer = e.peer
  ingress : row.ingress = e.ingress
  pathId : row.pathId = e.pathId
  afi : row.afi = e.afi
  safi : row.safi = e.safi
  prefixAddr : row.prefixAddr = e.prefixAddr
  prefixLen : row.prefixLen = e.prefixLen
  attrs : row.attrs = e.attrs
  identity : row.identity = if e.peer ≠ 0 then "" else e.identity

lemma identityOf_identityRow (e : Event) (seq : Nat) : IdentityOf cfg e (identityRow cfg e seq) :=
  ⟨rfl, rfl, rfl, rfl, rfl, rfl, rfl, rfl⟩

lemma rowOf_eventRow (e : Event) (seq : Nat) : RowOf cfg e (eventRow cfg e seq) :=
  ⟨rfl, rfl, rfl, rfl, rfl, rfl, rfl, rfl, rfl, rfl, rfl, rfl, rfl, rfl, rfl⟩

/-! ## the writer -/

abbrev SeenKey := Id16 × Bytes × Int

def seenKey (e : Event) : SeenKey := (e.peer, sha.digest (textBytes e.identity), hour e.receivedMs)

structure Writer where
  segment : Option (List Event)
  frame : List Event
  seen : Finset SeenKey
  seq : Nat
  current : Option Event
  first : Bool
  ended : Bool
  pendingEvent : Option Event
  full : Bool
  /-- the segments that have been sealed, in their order -/
  sealed : List (List Event)

def Writer.new : Writer := ⟨none, [], ∅, 0, none, true, false, none, false, []⟩

inductive Phase where
  /-- before the next turn of the loop -/
  | top
  | receive
  /-- about to look at the stop flag -/
  | check
  | returned (ok : Bool)
  deriving DecidableEq, Repr

/-- what the first half of a turn meets -/
structure TopInput where
  /-- the time for a shutdown is over -/
  expired : Bool
  /-- a look at the disk that fails -/
  spaceFails : Bool
  /-- the answer of a look at the disk, if one is due -/
  space : Option Bool
  appendOk : Bool
  sealOk : Bool

/-- what the second half of a turn meets -/
structure CheckInput where
  now : Int
  createOk : Bool
  /-- the segment is due to be sealed, by its rows, its size or its age -/
  due : Bool
  /-- the frame is due to be appended, by its size or the time -/
  flush : Bool
  appendOk : Bool
  syncDue : Bool
  syncOk : Bool
  sealOk : Bool
  usageOk : Bool

namespace Writer
variable (w : Writer)

/-- the frame goes to the segment -/
def appended : Writer :=
  match w.segment with
  | some rows => { w with segment := some (rows ++ w.frame), frame := [] }
  | none => w

/-- what there is of a segment is sealed -/
def sealSegment : Writer :=
  match w.segment with
  | some rows => { w with segment := none, seen := ∅, sealed := w.sealed ++ [rows] }
  | none => w

/-- the disk is full: what is in memory is appended, and the segment is sealed -/
def drain (i : TopInput) : Phase × Writer :=
  if w.segment.isSome && !w.frame.isEmpty && !i.appendOk then (.top, w)
  else if w.segment.isSome && !i.sealOk then (.returned false, w)
  else (.top, w.appended.sealSegment)

def idle : Bool := w.current.isNone && w.pendingEvent.isNone

def top (stop : Bool) (i : TopInput) : Phase × Writer :=
  if stop && i.expired then (.returned false, w)
  else if i.spaceFails then (.returned false, w)
  else
    let w := { w with full := i.space.getD w.full }
    if w.full then w.drain i
    else if w.idle && !w.first && !w.ended then (.receive, w)
    else (.check, w)

/-- the event of this turn -/
def pick (done : Bool) (now : Int) : Option Event × Writer :=
  if w.pendingEvent.isSome then (w.pendingEvent, { w with pendingEvent := none })
  else if w.first then (some (startEvent cfg now), { w with first := false })
  else
    match w.current with
    | some e => (some e, { w with current := none })
    | none =>
      if done && !w.ended then (some (endEvent cfg now), { w with ended := true }) else (none, w)

/-- the row that introduces the peer, where this segment does not have it -/
def introduce (e : Event) : Writer :=
  if e.peer ≠ 0 ∧ seenKey sha e ∉ w.seen then
    let seen := insert (seenKey sha e) w.seen
    { w with
      frame := w.frame ++ [identityRow cfg e w.seq]
      seq := w.seq + 1
      seen := if 65536 ≤ seen.card then ∅ else seen }
  else w

/-- there is a segment, a new one if need be -/
def withSegment : Writer := { w with segment := some (w.segment.getD []) }

def addRow (e : Event) : Writer :=
  { w with frame := w.frame ++ [eventRow cfg e w.seq], seq := w.seq + 1 }

def record (e : Event) : Writer := (w.introduce cfg sha e).addRow cfg e

def close (done sealNow : Bool) (i : CheckInput) : Phase × Writer :=
  if i.syncDue && w.segment.isSome && !i.syncOk then (.returned false, w)
  else if sealNow && w.segment.isSome && !i.sealOk then (.returned false, w)
  else if sealNow && !i.usageOk then (.returned false, w)
  else
    let w := if sealNow then w.sealSegment else w
    if done && w.ended then (.returned true, w) else (.top, w)

/-- the frame is appended, and the segment sealed, where they are due -/
def finish (done : Bool) (i : CheckInput) : Phase × Writer :=
  let sealNow := w.segment.isSome && i.due || done
  if !w.frame.isEmpty && (i.flush || sealNow) then
    match w.segment with
    | none => (.returned false, w)
    | some _ =>
      if !i.appendOk then (.top, { w with full := true })
      else if (i.syncDue || sealNow) && !i.syncOk then (.returned false, w)
      else w.appended.close done sealNow i
  else w.close done sealNow i

def check (stop : Bool) (i : CheckInput) : Phase × Writer :=
  let done := w.idle && stop
  match w.pick cfg done i.now with
  | (none, w) => w.finish done i
  | (some e, w) =>
    if w.segment.isNone && !i.createOk then (.top, { w with pendingEvent := some e })
    else (w.withSegment.record cfg sha e).finish done i

end Writer

/-! ## the exporter -/

structure Exporter where
  writer : Writer
  phase : Phase
  queue : List Observation
  /-- what the writer has taken from the queue -/
  dequeued : List Observation
  /-- what the senders that hold a permit are about to put into the queue -/
  holding : List Observation
  accepted : List Observation
  stopped : Nat
  errors : Nat
  closed : Bool
  stop : Bool

def Exporter.new : Exporter := ⟨Writer.new, .top, [], [], [], [], 0, 0, false, false⟩

inductive Action where
  /-- `send` up to its permit -/
  | acquire (o : Observation)
  | enqueue (o : Observation)
  | closeBudget
  | setStop
  | top (i : TopInput)
  | receive
  | check (i : CheckInput)

/-- the bytes that an event is accounted with -/
def queuedBytes (o : Observation) : Nat :=
  cfg.queuedSize + o.event.attrs.length + (textBytes o.event.identity).length + 128

def Phase.running : Phase → Bool
  | .returned _ => false
  | _ => true

namespace Exporter
variable (s : Exporter)

def acquire (o : Observation) : Exporter :=
  if 2 ^ 20 < queuedBytes cfg o then { s with errors := s.errors + 1 }
  else if s.closed then { s with stopped := s.stopped + 1 }
  else { s with holding := s.holding ++ [o] }

/-- once the writer has returned, there is no receiver -/
def enqueue (o : Observation) : Exporter :=
  if o ∈ s.holding then
    let s := { s with holding := s.holding.erase o }
    if s.phase.running then { s with queue := s.queue ++ [o], accepted := s.accepted ++ [o] }
    else { s with stopped := s.stopped + 1 }
  else s

def receive : Exporter :=
  match s.queue with
  | [] => { s with phase := .check }
  | o :: queue =>
    { s with
      phase := .check
      queue := queue
      dequeued := s.dequeued ++ [o]
      writer := { s.writer with current := some o.event } }

def turn (r : Phase × Writer) : Exporter := { s with phase := r.1, writer := r.2 }

def step : Action → Exporter
  | .acquire o => s.acquire cfg o
  | .enqueue o => s.enqueue o
  | .closeBudget => { s with closed := true }
  | .setStop => { s with stop := true }
  | .top i => if s.phase = .top then s.turn (s.writer.top s.stop i) else s
  | .receive => if s.phase = .receive then s.receive else s
  | .check i => if s.phase = .check then s.turn (s.writer.check cfg sha s.stop i) else s

end Exporter

def runExporter (acts : List Action) : Exporter := Run.run (Exporter.step cfg sha) Exporter.new acts

end

end Netom.ClickHouse
