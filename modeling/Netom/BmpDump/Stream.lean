import Netom.Lib.BigEndian
import Netom.Lib.Sequence
import Netom.Lib.Total

/-!
# bmpdump: BMP messages out of TCP segments

`Stream` puts the segments of one direction of a connection in order and cuts the bytes into BMP
messages.  Segments that came too early wait in `pending`, under their sequence numbers; bytes in
order that are not yet a whole message wait in `buffer`.

* `Stream.feed`  one segment;
* `drainLoop`  the loop that moves waiting segments into the buffer;
* `frameLoop`  the loop that takes messages off the buffer;
* `frameLoop_messages` on the beginning of a run of valid messages it takes those that are complete.
-/

namespace Netom.BmpDump
open AttrWire BigEndian Sequence

abbrev Seq := BitVec 32

def maxMessage : Nat := 4 * 1024 * 1024

def maxBuffer : Nat := 8 * 1024 * 1024

def maxPending : Nat := 8192

structure Stream where
  nextSeq : Option Seq
  pending : Assoc Seq (List Byte)
  buffer : List Byte
  synchronized : Bool
  skipped : Nat

inductive FeedError where
  | conflict
  | limit
  | header (version : Byte) (length : Nat) (kind : Byte)
  deriving DecidableEq, Repr

def FeedError.text : FeedError → String
  | .conflict => "conflicting TCP retransmission"
  | .limit => "TCP stream buffer limit exceeded (possibly a capture gap)"
  | .header version length kind => "invalid BMP header: version=" ++ toString version.toNat ++
      " length=" ++ toString length ++ " type=" ++ toString kind.toNat

/-! ## messages -/

def minimumOf (kind : Byte) : Nat :=
  if kind = 0#8 then 67
  else if kind = 1#8 then 52
  else if kind = 2#8 then 49
  else if kind = 3#8 then 126
  else if kind = 6#8 then 48
  else 6

/-- version, length and type in the first six bytes -/
def headerOf : List Byte → Option (Byte × Nat × Byte)
  | version :: a :: b :: c :: d :: kind :: _ => some (version, ofBe32 a b c d, kind)
  | _ => none

def headerValid (version : Byte) (length : Nat) (kind : Byte) : Bool :=
  version = 3#8 ∧ minimumOf kind ≤ length ∧ length ≤ maxMessage

/-- what the framing loop has done: the messages it took, the bytes that are left, whether a message
was ever found and how many bytes were skipped before that -/
structure Framed where
  messages : List (List Byte)
  rest : List Byte
  synchronized : Bool
  skipped : Nat
  deriving DecidableEq, Repr

def frameLoop : Nat → Framed → Framed × Option FeedError
  | 0, f => (f, none)
  | fuel + 1, f =>
    match headerOf f.rest with
    | none => (f, none)
    | some (version, length, kind) =>
      if headerValid version length kind then
        if f.rest.length < length then (f, none)
        else frameLoop fuel { f with
          messages := f.messages ++ [f.rest.take length]
          rest := f.rest.drop length
          synchronized := true }
      else if f.synchronized then (f, some (.header version length kind))
      else frameLoop fuel { f with rest := f.rest.drop 1, skipped := f.skipped + 1 }

/-! ## segments -/

namespace Stream

def new (initialSeq : Option Seq) : Stream where
  nextSeq := initialSeq
  pending := ∅
  buffer := []
  synchronized := initialSeq.isSome
  skipped := 0

def pendingBytes (pending : Assoc Seq (List Byte)) : Nat :=
  Assoc.total (fun _ chunk => chunk.length) pending

def buffered (st : Stream) : Nat := st.buffer.length + pendingBytes st.pending

/-- the waiting segment that comes first as seen from `next` -/
def firstPending (pending : Assoc Seq (List Byte)) (next : Seq) : Option Seq :=
  minByKey (fun seq => delta seq next) pending.keys

/-- bytes that came before are cut off -/
def cutBefore (offset : Int) (chunk : List Byte) : List Byte :=
  chunk.drop (min (-offset).toNat chunk.length)

def drainLoop : Nat → Assoc Seq (List Byte) → List Byte → Seq →
    Assoc Seq (List Byte) × List Byte × Seq
  | 0, pending, buffer, next => (pending, buffer, next)
  | fuel + 1, pending, buffer, next =>
    match firstPending pending next with
    | none => (pending, buffer, next)
    | some first =>
      let offset := delta first next
      if 0 < offset then (pending, buffer, next)
      else
        let chunk := cutBefore offset ((pending.lookup first).getD [])
        drainLoop fuel (pending.erase first) (buffer ++ chunk) (next + BitVec.ofNat 32 chunk.length)

/-- put the waiting segments in order and take the messages off -/
def assemble (st : Stream) (next : Seq) : Stream × Except FeedError (List (List Byte)) :=
  let (pending, buffer, next) := drainLoop st.pending.keys.length st.pending st.buffer next
  let st := { st with nextSeq := some next, pending := pending, buffer := buffer }
  match frameLoop (buffer.length + 1) ⟨[], buffer, st.synchronized, st.skipped⟩ with
  | (framed, some error) =>
    -- the buffer is only drained when the loop ends
    ({ st with synchronized := framed.synchronized, skipped := framed.skipped }, .error error)
  | (framed, none) =>
    ({ st with buffer := framed.rest, synchronized := framed.synchronized,
               skipped := framed.skipped }, .ok framed.messages)

/-- the stream with a segment among those that wait -/
def store (st : Stream) (seq : Seq) (payload : List Byte) : Stream :=
  { st with pending := st.pending.insert seq payload }

def withinLimits (st : Stream) : Bool :=
  st.buffered ≤ maxBuffer ∧ st.pending.keys.length ≤ maxPending

def accept (st : Stream) (next seq : Seq) (payload : List Byte) :
    Stream × Except FeedError (List (List Byte)) :=
  let st := st.store seq payload
  if st.withinLimits then st.assemble next else (st, .error .limit)

/-- a segment without the bytes that came before -/
def trim (next seq : Seq) (payload : List Byte) : Seq × List Byte :=
  let offset := delta seq next
  if offset < 0 then (next, cutBefore offset payload) else (seq, payload)

/-- what is left of a segment joins those that wait, unless it is there already -/
def receive (st : Stream) (next seq : Seq) (payload : List Byte) :
    Stream × Except FeedError (List (List Byte)) :=
  if payload.isEmpty then (st, .ok [])
  else match st.pending.lookup seq with
    | some old =>
      let common := min old.length payload.length
      if old.take common ≠ payload.take common then (st, .error .conflict)
      else if payload.length ≤ old.length then (st, .ok [])
      else st.accept next seq payload
    | none => st.accept next seq payload

def feed (st : Stream) (seq : Seq) (payload : List Byte) :
    Stream × Except FeedError (List (List Byte)) :=
  if payload.isEmpty then (st, .ok [])
  else
    let next := st.nextSeq.getD seq
    let left := trim next seq payload
    { st with nextSeq := some next }.receive next left.1 left.2

def unfinished (st : Stream) : Option String :=
  if st.pending.keys ≠ [] then
    some ("TCP gap: " ++ toString st.buffered ++ " bytes remain undecoded")
  else if st.buffer ≠ [] then
    some ("incomplete BMP message: " ++ toString st.buffer.length ++ " trailing bytes")
  else none

end Stream

/-! ## a run of messages -/

/-- a message that the framing loop accepts: version 3, and the length it says within the bounds of
its type -/
def ValidMessage (m : List Byte) : Prop :=
  ∃ kind, headerOf m = some (3#8, m.length, kind) ∧ minimumOf kind ≤ m.length ∧
    m.length ≤ maxMessage

lemma headerOf_append {b : List Byte} {h : Byte × Nat × Byte} (hb : headerOf b = some h)
    (rest : List Byte) : headerOf (b ++ rest) = some h := by
  match b, hb with
  | version :: a :: b :: c :: d :: kind :: tail, hb => exact hb

lemma ValidMessage.headerValid {m : List Byte} (hm : ValidMessage m) {version kind : Byte}
    {length : Nat} (hh : headerOf m = some (version, length, kind)) :
    length = m.length ∧ headerValid version length kind = true := by
  obtain ⟨kind', hm', hmin, hmax⟩ := hm
  rw [hm'] at hh
  cases hh
  exact ⟨rfl, decide_eq_true ⟨rfl, hmin, hmax⟩⟩

lemma ValidMessage.length_pos {m : List Byte} (hm : ValidMessage m) : 0 < m.length := by
  obtain ⟨kind, hh, -, -⟩ := hm
  cases m with
  | nil => cases hh
  | cons b m => exact Nat.succ_pos _

lemma frameLoop_incomplete {m : List Byte} (hm : ValidMessage m) {fuel : Nat} {f : Framed}
    (hp : f.rest <+: m) (hlt : f.rest.length < m.length) : frameLoop fuel f = (f, none) := by
  cases fuel with
  | zero => rfl
  | succ fuel =>
    unfold frameLoop
    cases hh : headerOf f.rest with
    | none => rfl
    | some header =>
      obtain ⟨version, length, kind⟩ := header
      obtain ⟨tail, htail⟩ := hp
      obtain ⟨rfl, hvalid⟩ := hm.headerValid (htail ▸ headerOf_append hh tail)
      simp only [hvalid, if_true, hlt]

lemma frameLoop_message {m : List Byte} (hm : ValidMessage m) (fuel : Nat) {f : Framed}
    {tail : List Byte} (hrest : f.rest = m ++ tail) : frameLoop (fuel + 1) f =
      frameLoop fuel { f with messages := f.messages ++ [m], rest := tail, synchronized := true } := by
  obtain ⟨kind, hh, hmin, hmax⟩ := hm
  have hvalid : headerValid 3#8 m.length kind = true := decide_eq_true ⟨rfl, hmin, hmax⟩
  have hhr : headerOf f.rest = some (3#8, m.length, kind) := by
    rw [hrest]
    exact headerOf_append hh tail
  have hlen : ¬ f.rest.length < m.length := by
    rw [hrest, List.length_append]
    omega
  have htake : f.rest.take m.length = m := by rw [hrest, List.take_left]
  have hdrop : f.rest.drop m.length = tail := by rw [hrest, List.drop_left]
  rw [frameLoop]
  simp only [hhr, hvalid, if_true, hlen, htake, hdrop]
  rfl

/-- **of the beginning of a run of valid messages the loop takes those that are complete** -/
theorem frameLoop_messages {ms : List (List Byte)} (hms : ∀ m ∈ ms, ValidMessage m) {fuel : Nat}
    {f : Framed} (hsync : f.synchronized = true) (hp : f.rest <+: ms.flatten)
    (hfuel : f.rest.length < fuel) :
    ∃ taken rest later, ms = taken ++ later ∧ f.rest = taken.flatten ++ rest ∧
      rest <+: later.flatten ∧ (∀ m ∈ later.head?, rest.length < m.length) ∧
      frameLoop fuel f = ({ f with messages := f.messages ++ taken, rest := rest }, none) := by
  induction ms generalizing fuel f with
  | nil =>
    have hnil : f.rest = [] := List.prefix_nil.mp hp
    obtain ⟨fuel, rfl⟩ : ∃ n, fuel = n + 1 := ⟨fuel - 1, by omega⟩
    refine ⟨[], [], [], rfl, by rw [hnil]; rfl, List.prefix_refl _, by simp, ?_⟩
    have hh : headerOf f.rest = none := by
      rw [hnil]
      rfl
    rw [frameLoop, hh, List.append_nil, ← hnil]
  | cons m ms ih =>
    have hm := hms m List.mem_cons_self
    rw [List.flatten_cons] at hp
    by_cases hlt : f.rest.length < m.length
    · have hpm : f.rest <+: m := List.prefix_of_prefix_length_le hp (List.prefix_append _ _) hlt.le
      refine ⟨[], f.rest, m :: ms, rfl, rfl, by rwa [List.flatten_cons], by simpa using hlt, ?_⟩
      rw [frameLoop_incomplete hm hpm hlt, List.append_nil]
    · obtain ⟨tail, htail⟩ : m <+: f.rest :=
        List.prefix_of_prefix_length_le (List.prefix_append _ _) hp (Nat.le_of_not_lt hlt)
      obtain ⟨fuel, rfl⟩ : ∃ n, fuel = n + 1 := ⟨fuel - 1, by omega⟩
      have hpos := hm.length_pos
      have hlen : f.rest.length = m.length + tail.length := by
        rw [← htail, List.length_append]
      rw [← htail] at hp
      obtain ⟨taken, rest, later, hsplit, hrest, hrp, hshort, hloop⟩ := ih
        (fun m' hm' => hms m' (List.mem_cons_of_mem m hm'))
        (f := { f with messages := f.messages ++ [m], rest := tail, synchronized := true }) rfl
        ((List.prefix_append_right_inj m).mp hp) (show tail.length < fuel by omega)
      refine ⟨m :: taken, rest, later, by rw [hsplit]; rfl, ?_, hrp, hshort, ?_⟩
      · rw [List.flatten_cons, List.append_assoc, ← hrest, htail]
      · rw [frameLoop_message hm fuel htail.symm, hloop, hsync]
        simp only [List.append_assoc, List.singleton_append]

lemma validMessage_take {rest : List Byte} {version kind : Byte} {length : Nat}
    (hh : headerOf rest = some (version, length, kind))
    (hv : headerValid version length kind = true) (hle : length ≤ rest.length) :
    ValidMessage (rest.take length) := by
  obtain ⟨rfl, hmin, hmax⟩ := of_decide_eq_true hv
  have hsix : 6 ≤ minimumOf kind := by
    unfold minimumOf
    split_ifs <;> omega
  have hlen : (rest.take length).length = length := by rw [List.length_take, Nat.min_eq_left hle]
  refine ⟨kind, ?_, by rwa [hlen], by rwa [hlen]⟩
  -- the header is within what is taken
  obtain ⟨n, hn⟩ := Nat.exists_eq_add_of_le' (hsix.trans hmin)
  match rest, hh with
  | v :: a :: b :: c :: d :: k :: tail, hh =>
    rw [hlen, ← hh, hn]
    rfl

lemma frameLoop_valid {fuel : Nat} {f : Framed} (hf : ∀ m ∈ f.messages, ValidMessage m) :
    ∀ m ∈ (frameLoop fuel f).1.messages, ValidMessage m := by
  induction fuel generalizing f with
  | zero => exact hf
  | succ fuel ih =>
    unfold frameLoop
    split
    · exact hf
    · next version length kind hh =>
      split_ifs with hv hlt
      · exact hf
      · refine ih (List.forall_mem_append.mpr ⟨hf, ?_⟩)
        exact List.forall_mem_singleton.mpr (validMessage_take hh hv (Nat.le_of_not_lt hlt))
      · exact hf
      · exact ih hf

end Netom.BmpDump
