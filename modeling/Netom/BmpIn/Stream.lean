import Netom.Lib.Segments
import Netom.BmpOut.Message

/-!
# Reading BMP messages from a byte stream

A call of `next` reads five bytes, takes a length from them and reads the rest of the message.  The
transport hands over some bytes at a time; it may report an error instead, and the gate may report a
status in between.

* `ErrorKind.isFatal`  the errors after which the transport is given up;
* `BmpStream.step`  one thing that happens to the task of a connection;
* `Reader`  the stream with the headers it read and the messages it returned;
* `reader_aligned`  while no error that is not fatal comes within a message, every header is read
  at the start of a message, and messages are returned whole and in order.

The parser that looks at a whole message is a parameter, and so is the status of a gate.
-/

namespace Netom.Bmp
open List Segments Option

/-! ## errors -/

/-- the kinds that the source lists, and any other -/
inductive ErrorKind where
  | timedOut
  | interrupted
  | notFound
  | permissionDenied
  | connectionRefused
  | connectionReset
  | connectionAborted
  | notConnected
  | addrInUse
  | addrNotAvailable
  | brokenPipe
  | alreadyExists
  | wouldBlock
  | invalidInput
  | invalidData
  | writeZero
  | unsupported
  | unexpectedEof
  | outOfMemory
  | other
  | unlisted
  deriving DecidableEq, Repr

def ErrorKind.isFatal : ErrorKind → Bool
  | .timedOut | .interrupted | .other => false
  | _ => true

/-! ## messages -/

inductive TracingMode where
  | off
  | ifRequested
  | on
  deriving DecidableEq, Repr

def minBmpMsgLen : Nat := 6
def maxBmpMsgLen : Nat := 2 * 1024 * 1024

def u32FromBe (b : Bytes) : Nat := b.foldl (fun n x => n * 256 + x.toNat) 0

/-- the length in the first five bytes -/
def msgLen (b : Bytes) : Nat := u32FromBe ((b.drop 1).take 4)

/-- the trace id is in the high half of the version byte, and is taken out of it -/
def TracingMode.strip (mode : TracingMode) (b : Bytes) : Bytes :=
  if mode = .off then b else b.modify 0 fun x => x &&& 0x0f

def TracingMode.traceId (mode : TracingMode) (b : Bytes) : BitVec 8 :=
  if mode = .off then 0 else b.headD 0 >>> 4

/-- a transport: how many bytes have been taken from it, and the bytes to come -/
structure Transport where
  consumed : Nat
  rest : Bytes

/-- a call of `bmp_read` that is under way -/
structure BmpRead where
  mode : TracingMode
  buf : Bytes
  /-- the size of the buffer: five bytes, then the length of the message -/
  want : Nat
  traceId : BitVec 8

def BmpRead.new (mode : TracingMode) : BmpRead := ⟨mode, [], 5, 0⟩

section stream
variable {Status : Type}

/-- the stream between two calls of `next`, or within one -/
inductive BmpStream (Status : Type) where
  | idle (rx : Option Transport)
  | reading (rx : Transport) (msg : BmpRead) (savedGateStatus : Option Status)

inductive Outcome (Status : Type) where
  | message (buf : Bytes) (status : Option Status) (traceId : BitVec 8)
  | terminated
  | error (kind : ErrorKind)

/-- what happens to the task -/
inductive Poll (Status : Type) where
  | next (mode : TracingMode)
  /-- the transport has up to `n` bytes; none is the end of the stream -/
  | read (n : Nat)
  | readError (kind : ErrorKind)
  | gate (status : Status)
  | terminated

namespace BmpStream

/-- the transport is kept unless the error is fatal -/
def fail (rx : Transport) (kind : ErrorKind) : BmpStream Status × Option (Outcome Status) :=
  (.idle (if kind.isFatal then none else some rx), some (.error kind))

def filled (parse : Bytes → Bool) (rx : Transport) (msg : BmpRead) (status : Option Status) :
    BmpStream Status × Option (Outcome Status) :=
  if msg.want = 5 then
    let len := msgLen msg.buf
    if minBmpMsgLen ≤ len ∧ len ≤ maxBmpMsgLen then
      (.reading rx ⟨msg.mode, msg.mode.strip msg.buf, len, msg.mode.traceId msg.buf⟩ status, none)
    else fail rx .invalidData
  else if parse msg.buf then
    (.idle (some rx), some (.message msg.buf status msg.traceId))
  else fail rx .other

def available (rx : Transport) (msg : BmpRead) (n : Nat) : Nat :=
  min n (min (msg.want - msg.buf.length) rx.rest.length)

/-- `k` bytes go from the transport to the buffer -/
def advance (parse : Bytes → Bool) (rx : Transport) (msg : BmpRead) (status : Option Status)
    (k : Nat) : BmpStream Status × Option (Outcome Status) :=
  let rx' : Transport := ⟨rx.consumed + k, rx.rest.drop k⟩
  let msg' := { msg with buf := msg.buf ++ rx.rest.take k }
  if msg'.buf.length < msg.want then (.reading rx' msg' status, none)
  else filled parse rx' msg' status

def step (parse : Bytes → Bool) :
    BmpStream Status → Poll Status → BmpStream Status × Option (Outcome Status)
  | .idle none, .next _ => (.idle none, some (.error .other))
  | .idle (some rx), .next mode => (.reading rx (.new mode) none, none)
  | .idle rx, _ => (.idle rx, none)
  | .reading rx msg _, .gate status => (.reading rx msg (some status), none)
  | .reading _ _ _, .terminated => (.idle none, some .terminated)
  | .reading rx _ _, .readError kind => fail rx kind
  | .reading rx msg status, .read n =>
    if available rx msg n = 0 then fail rx .unexpectedEof
    else advance parse rx msg status (available rx msg n)
  | .reading rx msg status, .next _ => (.reading rx msg status, none)

/-- where in the stream the call that is under way began -/
def start : BmpStream Status → Nat
  | .idle _ => 0
  | .reading rx msg _ => rx.consumed - msg.buf.length

def mode : BmpStream Status → TracingMode
  | .idle _ => .off
  | .reading _ msg _ => msg.mode

/-- whether this makes the first five bytes complete, which are then read as a header -/
def readsHeader : BmpStream Status → Poll Status → Bool
  | .reading rx msg _, .read n =>
    msg.want = 5 && 0 < available rx msg n && msg.buf.length + available rx msg n = 5
  | _, _ => false

end BmpStream

/-! ## the reader -/

/-- a stream, where it read headers, and the messages that it returned: where each began, and the
tracing mode it was read in -/
structure Reader (Status : Type) where
  stream : BmpStream Status
  headers : List Nat
  returned : List (Nat × TracingMode × Bytes)

def Outcome.buffer : Outcome Status → Option Bytes
  | .message buf _ _ => some buf
  | _ => none

namespace Reader

def new (bytes : Bytes) : Reader Status := ⟨.idle (some ⟨0, bytes⟩), [], []⟩

def step (parse : Bytes → Bool) (r : Reader Status) (poll : Poll Status) : Reader Status where
  stream := (r.stream.step parse poll).1
  headers := r.headers ++ if r.stream.readsHeader poll then [r.stream.start] else []
  returned := r.returned ++
    (((r.stream.step parse poll).2.bind Outcome.buffer).map fun buf =>
      (r.stream.start, r.stream.mode, buf)).toList

end Reader

/-! ## frames -/

/-- a message with the length that its header says -/
structure Frame where
  bytes : Bytes
  min_le : minBmpMsgLen ≤ bytes.length
  le_max : bytes.length ≤ maxBmpMsgLen
  len_eq : msgLen bytes = bytes.length

lemma strip_append (mode : TracingMode) {a : Bytes} (ha : 0 < a.length) (b : Bytes) :
    mode.strip (a ++ b) = mode.strip a ++ b := by
  cases a with
  | nil => exact absurd ha (Nat.lt_irrefl 0)
  | cons x a =>
    unfold TracingMode.strip
    split <;> rfl

lemma length_strip (mode : TracingMode) (b : Bytes) : (mode.strip b).length = b.length := by
  unfold TracingMode.strip
  split
  · rfl
  · exact length_modify ..

lemma msgLen_take (b : Bytes) : msgLen (b.take 5) = msgLen b := by
  unfold msgLen
  rw [drop_take, take_take]
  rfl

/-- where the stream is: at the start of the message `k`, or within it -/
inductive Aligned (fs : List Bytes) (k : Nat) : BmpStream Status → Prop
  | lost : Aligned fs k (.idle none)
  | idle {rx : Transport} (hpos : rx.consumed = Segments.offset fs k)
      (hrest : rx.rest = (fs.drop k).flatten) : Aligned fs k (.idle (some rx))
  | header {rx : Transport} {mode : TracingMode} {buf : Bytes} {t : BitVec 8}
      {status : Option Status} (hlen : buf.length < 5)
      (hpos : rx.consumed = Segments.offset fs k + buf.length)
      (hrest : buf ++ rx.rest = (fs.drop k).flatten) :
      Aligned fs k (.reading rx ⟨mode, buf, 5, t⟩ status)
  | body {rx : Transport} {mode : TracingMode} {buf f : Bytes} {t : BitVec 8}
      {status : Option Status} (hf : fs[k]? = some f) (hlen : buf.length < f.length)
      (hge : 5 ≤ buf.length) (hpos : rx.consumed = Segments.offset fs k + buf.length)
      (hrest : buf ++ rx.rest = mode.strip f ++ (fs.drop (k + 1)).flatten) :
      Aligned fs k (.reading rx ⟨mode, buf, f.length, t⟩ status)

section aligned
variable {frames : List Frame} {k : Nat}

lemma exists_frame {fs : List Bytes} {b : Bytes} (hb : 0 < b.length) {rest : Bytes}
    (h : b ++ rest = (fs.drop k).flatten) :
    ∃ f, fs[k]? = some f ∧ (fs.drop k).flatten = f ++ (fs.drop (k + 1)).flatten := by
  cases hd : fs.drop k with
  | nil =>
    rw [hd] at h
    have hlen := congrArg length h
    rw [length_append, flatten_nil, length_nil] at hlen
    omega
  | cons f tl =>
    have hf : fs[k]? = some f := by
      have h0 : (fs.drop k)[0]? = some f := by rw [hd]; rfl
      rw [getElem?_drop] at h0
      exact h0
    have htl : fs.drop (k + 1) = tl := by
      rw [← tail_drop, hd]
      rfl
    exact ⟨f, hf, by rw [htl]; rfl⟩

lemma getElem_of_map {f : Bytes} (hf : (frames.map Frame.bytes)[k]? = some f) :
    ∃ frame, frames[k]? = some frame ∧ frame.bytes = f := by
  rw [getElem?_map] at hf
  exact map_eq_some_iff.mp hf

variable {buf : Bytes}

lemma header_eq {f rest tail : Bytes} (hlen : buf.length = 5) (hf : 5 ≤ f.length)
    (h : buf ++ rest = f ++ tail) : buf = f.take 5 := by
  have hbuf : buf = (f ++ tail).take 5 := by
    rw [← h, take_append_of_le_length (by omega), take_of_length_le (by omega)]
  rw [hbuf, take_append_of_le_length hf]

lemma aligned_filled_header (parse : Bytes → Bool) (rx : Transport) (mode : TracingMode)
    (t : BitVec 8) (status : Option Status) (hlen : buf.length = 5)
    (hpos : rx.consumed = Segments.offset (frames.map Frame.bytes) k + buf.length)
    (hrest : buf ++ rx.rest = ((frames.map Frame.bytes).drop k).flatten) :
    (∃ f, (frames.map Frame.bytes)[k]? = some f) ∧
    (BmpStream.filled parse rx ⟨mode, buf, 5, t⟩ status).2 = none ∧
      Aligned (frames.map Frame.bytes) k
        (BmpStream.filled parse rx ⟨mode, buf, 5, t⟩ status).1 := by
  obtain ⟨f, hf, hflat⟩ := exists_frame (by omega : 0 < buf.length) hrest
  obtain ⟨frame, _, rfl⟩ := getElem_of_map hf
  have hmin : 6 ≤ frame.bytes.length := frame.min_le
  rw [hflat] at hrest
  have hbuf := header_eq hlen (by omega) hrest
  have hmsg : msgLen buf = frame.bytes.length := by
    rw [hbuf, msgLen_take, frame.len_eq]
  have hrange : minBmpMsgLen ≤ msgLen buf ∧ msgLen buf ≤ maxBmpMsgLen := by
    rw [hmsg]
    exact ⟨frame.min_le, frame.le_max⟩
  refine ⟨⟨_, hf⟩, ?_⟩
  unfold BmpStream.filled
  rw [if_pos rfl]
  show (if minBmpMsgLen ≤ msgLen buf ∧ msgLen buf ≤ maxBmpMsgLen then _ else _ :
    BmpStream Status × Option (Outcome Status)).2 = none ∧ Aligned _ _ (if _ then _ else _ :
      BmpStream Status × Option (Outcome Status)).1
  rw [if_pos hrange, hmsg]
  have hstrip : (mode.strip buf).length = 5 := (length_strip mode buf).trans hlen
  refine ⟨rfl, .body hf ?_ ?_ ?_ ?_⟩
  · show (mode.strip buf).length < frame.bytes.length
    omega
  · show 5 ≤ (mode.strip buf).length
    omega
  · show rx.consumed = _ + (mode.strip buf).length
    omega
  · show mode.strip buf ++ rx.rest = _
    rw [← strip_append mode (by omega), hrest, strip_append mode (by omega)]

lemma aligned_filled_body (parse : Bytes → Bool) (rx : Transport) (mode : TracingMode)
    (t : BitVec 8) (status : Option Status) {f : Bytes} {fs : List Bytes} (hf : fs[k]? = some f)
    (hge : 5 < f.length) (hlen : buf.length = f.length)
    (hpos : rx.consumed = Segments.offset fs k + buf.length)
    (hrest : buf ++ rx.rest = mode.strip f ++ (fs.drop (k + 1)).flatten) : buf = mode.strip f ∧
    (BmpStream.filled parse rx ⟨mode, buf, f.length, t⟩ status =
        (.idle (some rx), some (.message buf status t)) ∨
      BmpStream.filled parse rx ⟨mode, buf, f.length, t⟩ status =
        (.idle (some rx), some (.error .other))) ∧
    Aligned fs (k + 1) (.idle (some rx) : BmpStream Status) := by
  obtain ⟨hbuf, hrx⟩ := append_inj hrest (by rw [length_strip, hlen])
  refine ⟨hbuf, ?_, .idle ?_ hrx⟩
  · unfold BmpStream.filled
    have hne : f.length ≠ 5 := by omega
    rw [if_neg hne]
    by_cases hp : parse buf = true
    · exact .inl (if_pos hp)
    · exact .inr (if_neg hp)
  · rw [hpos, hlen, offset_succ hf]

lemma offset_frame_lt {i : Nat} {f : Frame} (hik : i < k) (hf : frames[i]? = some f) :
    Segments.offset (frames.map Frame.bytes) i < Segments.offset (frames.map Frame.bytes) k := by
  refine offset_lt ?_ hik ?_
  · intro x hx
    obtain ⟨g, _, rfl⟩ := mem_map.mp hx
    have hmin : 6 ≤ g.bytes.length := g.min_le
    omega
  · rw [length_map]
    exact (List.getElem?_eq_some_iff.mp hf).1

/-- the stream is at the message `k`, and what it read and returned before was aligned too -/
structure ReaderOk (frames : List Frame) (k : Nat) (r : Reader Status) : Prop where
  aligned : Aligned (frames.map Frame.bytes) k r.stream
  headers : ∀ pos ∈ r.headers, ∃ j f, frames[j]? = some f ∧
    pos = Segments.offset (frames.map Frame.bytes) j
  returned : ∀ x ∈ r.returned, ∃ j f mode, j < k ∧ frames[j]? = some f ∧
    x = (Segments.offset (frames.map Frame.bytes) j, mode, TracingMode.strip mode f.bytes)
  ordered : r.returned.Pairwise fun x y => x.1 < y.1

variable {parse : Bytes → Bool} {r : Reader Status} {poll : Poll Status}

/-- what a step at the message `k` reads as a header and what it returns begins there -/
lemma readerOk_of (h : ReaderOk frames k r) {k' : Nat} (hk : k ≤ k')
    {next : BmpStream Status × Option (Outcome Status)} (hs : r.stream.step parse poll = next)
    (ha : Aligned (frames.map Frame.bytes) k' next.1)
    (hh : r.stream.readsHeader poll = true →
      (∃ f, frames[k]? = some f) ∧ r.stream.start = Segments.offset (frames.map Frame.bytes) k)
    (hb : ∀ buf, next.2.bind Outcome.buffer = some buf →
      k < k' ∧ r.stream.start = Segments.offset (frames.map Frame.bytes) k ∧
        ∃ f, frames[k]? = some f ∧ buf = TracingMode.strip r.stream.mode f.bytes) :
    ReaderOk frames k' (r.step parse poll) := by
  subst hs
  refine ⟨ha, ?_, ?_, pairwise_append.mpr ⟨h.ordered, ?_, ?_⟩⟩
  · intro pos hp
    rcases mem_append.mp hp with hp | hp
    · exact h.headers pos hp
    · by_cases hread : r.stream.readsHeader poll = true
      · rw [if_pos hread] at hp
        obtain ⟨⟨f, hf⟩, hstart⟩ := hh hread
        exact ⟨k, f, hf, (mem_singleton.mp hp).trans hstart⟩
      · rw [if_neg hread] at hp
        cases hp
  · intro x hx
    rcases mem_append.mp hx with hx | hx
    · obtain ⟨i, g, m, hik, hx⟩ := h.returned x hx
      exact ⟨i, g, m, hik.trans_le hk, hx⟩
    · obtain ⟨buf, hbuf, rfl⟩ := map_eq_some_iff.mp (mem_toList.mp hx)
      obtain ⟨hlt, hstart, f, hf, rfl⟩ := hb buf hbuf
      exact ⟨k, f, _, hlt, hf, by rw [hstart]⟩
  · cases (r.stream.step parse poll).2.bind Outcome.buffer with
    | none => exact .nil
    | some buf => exact pairwise_singleton _ _
  · intro x hx y hy
    obtain ⟨buf, hbuf, rfl⟩ := map_eq_some_iff.mp (mem_toList.mp hy)
    obtain ⟨i, g, m, hik, hg, rfl⟩ := h.returned x hx
    show _ < r.stream.start
    rw [(hb buf hbuf).2.1]
    exact offset_frame_lt hik hg

lemma readerOk_quiet (h : ReaderOk frames k r) (hh : r.stream.readsHeader poll = false)
    {next : BmpStream Status × Option (Outcome Status)} (hs : r.stream.step parse poll = next)
    (hb : next.2.bind Outcome.buffer = none) (ha : Aligned (frames.map Frame.bytes) k next.1) :
    ReaderOk frames k (r.step parse poll) := by
  refine readerOk_of h le_rfl hs ha ?_ ?_
  · intro hread
    rw [hh] at hread
    cases hread
  · intro buf hbuf
    rw [hb] at hbuf
    cases hbuf

lemma aligned_fail {rx : Transport} {kind : ErrorKind}
    (h : kind.isFatal = false → Aligned (frames.map Frame.bytes) k
      (.idle (some rx) : BmpStream Status)) :
    Aligned (frames.map Frame.bytes) k
      (BmpStream.fail rx kind : BmpStream Status × Option (Outcome Status)).1 := by
  unfold BmpStream.fail
  cases hk : kind.isFatal with
  | true => exact .lost
  | false => exact h hk

/-- an error that is not fatal comes before the first byte of a message -/
def Poll.Between (r : Reader Status) (poll : Poll Status) : Prop :=
  ∀ kind rx msg status, poll = .readError kind → kind.isFatal = false →
    r.stream = .reading rx msg status → msg.buf = []

variable {rx : Transport} {mode : TracingMode} {t : BitVec 8} {status : Option Status}

/-- a read fails, leaves bytes to be read or fills the buffer -/
lemma read_cases {want pos : Nat} {tail : Bytes}
    (hr : r.stream = .reading rx ⟨mode, buf, want, t⟩ status)
    (hlen : buf.length < want) (hpos : rx.consumed = pos + buf.length)
    (hrest : buf ++ rx.rest = tail) (n : Nat) :
    ∃ j next, r.stream.step parse (.read n) = next ∧
      BmpStream.available rx ⟨mode, buf, want, t⟩ n = j ∧
      (buf ++ rx.rest.take j).length = buf.length + j ∧
      rx.consumed + j = pos + (buf ++ rx.rest.take j).length ∧
      (buf ++ rx.rest.take j) ++ rx.rest.drop j = tail ∧
      (j = 0 ∧ next = BmpStream.fail rx .unexpectedEof ∨
      buf.length + j < want ∧ next = (.reading ⟨rx.consumed + j, rx.rest.drop j⟩
        ⟨mode, buf ++ rx.rest.take j, want, t⟩ status, none) ∨
      buf.length + j = want ∧ next = BmpStream.filled parse ⟨rx.consumed + j, rx.rest.drop j⟩
        ⟨mode, buf ++ rx.rest.take j, want, t⟩ status) := by
  obtain ⟨j, hj⟩ : ∃ j, BmpStream.available rx ⟨mode, buf, want, t⟩ n = j := ⟨_, rfl⟩
  have hle : j ≤ want - buf.length ∧ j ≤ rx.rest.length := by
    rw [← hj]
    unfold BmpStream.available
    show min n (min (want - buf.length) rx.rest.length) ≤ _ ∧ _
    omega
  have hbuf : (buf ++ rx.rest.take j).length = buf.length + j := by
    rw [length_append, length_take]
    omega
  refine ⟨j, if j = 0 then _ else BmpStream.advance parse rx ⟨mode, buf, want, t⟩ status j,
    by rw [hr, ← hj]; rfl, hj, hbuf, by omega, by rw [append_assoc, take_append_drop, hrest], ?_⟩
  by_cases hj0 : j = 0
  · exact .inl ⟨hj0, if_pos hj0⟩
  · rw [if_neg hj0]
    unfold BmpStream.advance
    by_cases hlt : (buf ++ rx.rest.take j).length < want
    · exact .inr (.inl ⟨by omega, if_pos hlt⟩)
    · exact .inr (.inr ⟨by omega, if_neg hlt⟩)

lemma readerOk_readHeader {n : Nat} (h : ReaderOk frames k r)
    (hr : r.stream = .reading rx ⟨mode, buf, 5, t⟩ status) (hlen : buf.length < 5)
    (hpos : rx.consumed = Segments.offset (frames.map Frame.bytes) k + buf.length)
    (hrest : buf ++ rx.rest = ((frames.map Frame.bytes).drop k).flatten) :
    ReaderOk frames k (r.step parse (.read n)) := by
  obtain ⟨j, next, hstep, hj, hbuf, hpos', hrest', hcases⟩ := read_cases hr hlen hpos hrest n
  have hheader : r.stream.readsHeader (.read n) = decide (0 < j ∧ buf.length + j = 5) := by
    rw [hr, ← hj]
    show (decide (5 = 5) && decide _ && decide _) = _
    rw [decide_eq_true rfl, Bool.true_and, Bool.decide_and]
  rcases hcases with ⟨hj0, rfl⟩ | ⟨hlt, rfl⟩ | ⟨hfull, rfl⟩
  · refine readerOk_quiet h ?_ hstep rfl .lost
    rw [hheader, decide_eq_false]
    omega
  · refine readerOk_quiet h ?_ hstep rfl (.header (hbuf.trans_lt hlt) hpos' hrest')
    rw [hheader, decide_eq_false]
    omega
  · obtain ⟨⟨f, hf⟩, hout, hal⟩ := aligned_filled_header parse
      ⟨rx.consumed + j, rx.rest.drop j⟩ mode t status (hbuf.trans hfull) hpos' hrest'
    refine readerOk_of h le_rfl hstep hal ?_ ?_
    · intro _
      obtain ⟨frame, hframe, _⟩ := getElem_of_map hf
      refine ⟨⟨frame, hframe⟩, ?_⟩
      rw [hr]
      show rx.consumed - buf.length = _
      rw [hpos, Nat.add_sub_cancel]
    · intro b hb
      rw [hout] at hb
      cases hb

lemma readerOk_readBody {f : Bytes} {n : Nat} (h : ReaderOk frames k r)
    (hr : r.stream = .reading rx ⟨mode, buf, f.length, t⟩ status)
    (hf : (frames.map Frame.bytes)[k]? = some f) (hlen : buf.length < f.length)
    (hge : 5 ≤ buf.length)
    (hpos : rx.consumed = Segments.offset (frames.map Frame.bytes) k + buf.length)
    (hrest : buf ++ rx.rest = mode.strip f ++ ((frames.map Frame.bytes).drop (k + 1)).flatten) :
    ∃ k', ReaderOk frames k' (r.step parse (.read n)) := by
  obtain ⟨j, next, hstep, hj, hbuf, hpos', hrest', hcases⟩ := read_cases hr hlen hpos hrest n
  have hheader : r.stream.readsHeader (.read n) = false := by
    rw [hr]
    show (decide (f.length = 5) && _ && _) = false
    rw [decide_eq_false (by omega)]
    rfl
  rcases hcases with ⟨hj0, rfl⟩ | ⟨hlt, rfl⟩ | ⟨hfull, rfl⟩
  · exact ⟨k, readerOk_quiet h hheader hstep rfl .lost⟩
  · have hge' : 5 ≤ (buf ++ rx.rest.take j).length := by omega
    exact ⟨k, readerOk_quiet h hheader hstep rfl
      (.body hf (hbuf.trans_lt hlt) hge' hpos' hrest')⟩
  · obtain ⟨hstrip, hout, hal⟩ := aligned_filled_body parse ⟨rx.consumed + j, rx.rest.drop j⟩ mode t
      status hf (by omega) (hbuf.trans hfull) hpos' hrest'
    obtain ⟨frame, hframe, rfl⟩ := getElem_of_map hf
    have hnone : ∀ {p : Prop}, r.stream.readsHeader (.read n) = true → p := fun hread =>
      absurd (hheader.symm.trans hread) Bool.false_ne_true
    rcases hout with hout | hout
    · refine ⟨k + 1, readerOk_of h k.le_succ (hstep.trans hout) hal hnone ?_⟩
      intro b hb
      cases hb
      refine ⟨k.lt_succ_self, ?_, frame, hframe, ?_⟩
      · rw [hr]
        show rx.consumed - buf.length = _
        rw [hpos, Nat.add_sub_cancel]
      · rw [hr]
        exact hstrip
    · refine ⟨k + 1, readerOk_of h k.le_succ (hstep.trans hout) hal hnone ?_⟩
      intro b hb
      cases hb

lemma readerOk_step (h : ReaderOk frames k r) (hp : poll.Between r) :
    ∃ k', ReaderOk frames k' (r.step parse poll) := by
  have hal := h.aligned
  cases hr : r.stream with
  | idle rx =>
    refine ⟨k, readerOk_quiet h (congrArg (·.readsHeader poll) hr)
      (congrArg (·.step parse poll) hr) ?_ ?_⟩
    · cases rx <;> cases poll <;> rfl
    · rw [hr] at hal
      cases hal with
      | lost => cases poll <;> exact .lost
      | @idle rx hpos hrest =>
        cases poll with
        | next mode => exact .header (Nat.zero_lt_succ 4) hpos hrest
        | read n | readError kind | gate status | terminated => exact .idle hpos hrest
  | reading rx msg status =>
    rw [hr] at hal
    have hheader : ∀ p, r.stream.readsHeader p = _ := fun p => congrArg (·.readsHeader p) hr
    have hstep : ∀ p, r.stream.step parse p = _ := fun p => congrArg (·.step parse p) hr
    cases poll with
    | read n =>
      cases hal with
      | header hlen hpos hrest => exact ⟨k, readerOk_readHeader h hr hlen hpos hrest⟩
      | body hf hlen hge hpos hrest => exact readerOk_readBody h hr hf hlen hge hpos hrest
    | readError kind =>
      refine ⟨k, readerOk_quiet h (hheader _) (hstep _) rfl (aligned_fail fun hk => ?_)⟩
      have hbuf : msg.buf = [] := hp kind rx msg status rfl hk hr
      cases hal with
      | header hlen hpos hrest =>
        cases hbuf
        exact .idle hpos hrest
      | body hf hlen hge hpos hrest =>
        cases hbuf
        exact absurd hge (by decide)
    | next mode =>
      exact ⟨k, readerOk_quiet h (hheader _) (hstep _) rfl hal⟩
    | terminated => exact ⟨k, readerOk_quiet h (hheader _) (hstep _) rfl .lost⟩
    | gate status =>
      refine ⟨k, readerOk_quiet h (hheader _) (hstep _) rfl ?_⟩
      cases hal with
      | header hlen hpos hrest => exact .header hlen hpos hrest
      | body hf hlen hge hpos hrest => exact .body hf hlen hge hpos hrest

end aligned

/-- **Every header is read at the start of a message**: for every stream of messages and whatever the
transport and the gate do, as long as each error that is not fatal comes between two messages, the
messages that are returned are whole messages of the stream (with the trace id taken out if tracing
is on), in order and each at most once. -/
theorem reader_aligned (parse : Bytes → Bool) (frames : List Frame) {polls : List (Poll Status)}
    (hp : Run.Along (Reader.step parse) (fun r poll => poll.Between r)
      (Reader.new (frames.map Frame.bytes).flatten) polls) :
    let r := Run.run (Reader.step parse) (Reader.new (frames.map Frame.bytes).flatten) polls
    (∀ pos ∈ r.headers, ∃ k f, frames[k]? = some f ∧
      pos = offset (frames.map Frame.bytes) k) ∧
    (∀ x ∈ r.returned, ∃ k f mode, frames[k]? = some f ∧
      x = (offset (frames.map Frame.bytes) k, mode, TracingMode.strip mode f.bytes)) ∧
    r.returned.Pairwise fun x y => x.1 < y.1 := by
  intro r
  have hstart : ReaderOk frames 0
      (Reader.new (frames.map Frame.bytes).flatten : Reader Status) := by
    refine ⟨.idle rfl rfl, ?_, ?_, List.Pairwise.nil⟩
    · intro pos hpos
      cases hpos
    · intro x hx
      cases hx
  obtain ⟨k, hok⟩ : ∃ k, ReaderOk frames k r := Run.run_inv
    (fun s e (h : ∃ k, ReaderOk frames k s) hb => by
      obtain ⟨k, h⟩ := h
      exact readerOk_step h hb) ⟨0, hstart⟩ hp
  refine ⟨hok.headers, ?_, hok.ordered⟩
  intro x hx
  obtain ⟨j, f, mode, _, hf, he⟩ := hok.returned x hx
  exact ⟨j, f, mode, hf, he⟩

end stream

/-- an Initiation without TLVs -/
def shortFrame : Frame := ⟨[3, 0, 0, 0, 6, 4], by decide, by decide, by decide⟩

/-- a time-out before the first byte, and a message in two parts -/
def timeoutBetween : List (Poll Unit) :=
  [.next .off, .readError .timedOut, .next .off, .read 4, .gate (), .read 8, .read 8]

theorem reader_aligned_timeout :
    let r := Run.run (Reader.step fun _ => true) (Reader.new (shortFrame.bytes ++ [])) timeoutBetween
    r.returned = [(0, .off, shortFrame.bytes)] ∧
      ∀ pos ∈ r.headers, ∃ k f, [shortFrame][k]? = some f ∧
        pos = offset [shortFrame.bytes] k := by
  have hp : Run.Along (Reader.step fun _ => true) (fun r poll => poll.Between r)
      (Reader.new ([shortFrame].map Frame.bytes).flatten) timeoutBetween := by
    refine ⟨?_, ?_, ?_, ?_, ?_, ?_, ?_, trivial⟩
    case refine_2 =>
      intro kind rx msg status _ _ hs
      cases hs
      rfl
    all_goals
      intro kind rx msg status h
      cases h
  exact ⟨rfl, (reader_aligned (fun _ => true) [shortFrame] hp).1⟩

/-- after a time-out within a message the next header is read one byte too late -/
theorem reader_misaligned :
    let r := Run.run (Reader.step fun _ => true)
      (Reader.new ([shortFrame, shortFrame].map Frame.bytes).flatten : Reader Unit)
      [.next .off, .read 1, .readError .timedOut, .next .off, .read 5]
    r.headers = [1] ∧ ∀ k f, [shortFrame, shortFrame][k]? = some f →
      1 ≠ offset ([shortFrame, shortFrame].map Frame.bytes) k := by
  refine ⟨rfl, ?_⟩
  intro k f hk
  have hlt : k < 2 := (List.getElem?_eq_some_iff.mp hk).1
  interval_cases k
  · decide
  · decide

end Netom.Bmp
