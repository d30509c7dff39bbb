import Netom.BmpDump.Stream

/-!
# bmpdump: the messages do not depend on the segments

The bytes of a run of messages are cut into segments of any sizes, which are reordered, repeated and
overlap.  The position of the next expected byte in the stream is not in the state, only its number;
it is the ghost `nx` of the lemmas here.

* `Entry`, `Waiting`  the segments that wait are slices of the stream behind `nx`;
* `drainLoop_spec`  the loop moves bytes of the stream to the buffer until none that waits is next;
* `Inv`, `inv_feed`  what a segment keeps: each byte fed is consumed or waits, and the messages
  taken with the buffer are the stream up to `nx`;
* `reassemble`  **no segment is refused, the messages come out in order, and nothing is left**;
* `feedAll_valid`  **of segments of any bytes only well-formed messages come out**.
-/

namespace Netom.BmpDump
open AttrWire Sequence Netom.BmpDump.Stream AList List Option Assoc

/-! ## the segments that wait -/

section waiting
variable (s : List Byte) (first : Seq) (lo : Nat) (pending : Assoc Seq (List Byte))

/-- a segment that waits, at a position of the stream -/
structure Entry (p : Nat) (chunk : List Byte) : Prop where
  lookup : pending.lookup (seqAt first p) = some chunk
  lo_le : lo ≤ p
  lt_hi : p < lo + 2 ^ 31
  slice : IsSlice s p chunk

def Waiting : Prop :=
  ∀ seq chunk, pending.lookup seq = some chunk →
    ∃ p, seq = seqAt first p ∧ Entry s first lo pending p chunk

/-- the byte at a position waits -/
def Covered (i : Nat) : Prop :=
  ∃ p chunk, Entry s first lo pending p chunk ∧ p ≤ i ∧ i < p + chunk.length

end waiting

section entries
variable {s : List Byte} {first : Seq} {lo : Nat} {pending : Assoc Seq (List Byte)}

variable {chunk : List Byte}

lemma Entry.pos_unique {p q : Nat} (h : Entry s first lo pending p chunk) (hq : lo ≤ q)
    (hq' : q < lo + 2 ^ 31) (he : seqAt first q = seqAt first p) : q = p := by
  have hlo := h.lo_le
  have hhi := h.lt_hi
  exact seqAt_inj first he (by omega) (by omega)

lemma Entry.erase {p q : Nat} {chunk' : List Byte} (h : Entry s first lo pending p chunk)
    (hq : Entry s first lo pending q chunk') (hne : p ≠ q) :
    Entry s first lo (pending.erase (seqAt first q)) p chunk where
  lookup := by
    rw [lookup_erase_eq, if_neg fun he => hne (hq.pos_unique h.lo_le h.lt_hi he)]
    exact h.lookup
  lo_le := h.lo_le
  lt_hi := h.lt_hi
  slice := h.slice

lemma Entry.of_erase {seq : Seq} {p : Nat} (h : Entry s first lo (pending.erase seq) p chunk) :
    Entry s first lo pending p chunk where
  lookup := by
    have hl := h.lookup
    rw [lookup_erase_eq] at hl
    exact (ite_none_left_eq_some.mp hl).2
  lo_le := h.lo_le
  lt_hi := h.lt_hi
  slice := h.slice

lemma Waiting.erase (h : Waiting s first lo pending) {q : Nat} {chunk' : List Byte}
    (hq : Entry s first lo pending q chunk') :
    Waiting s first lo (pending.erase (seqAt first q)) := by
  intro seq chunk hl
  rw [lookup_erase_eq] at hl
  obtain ⟨hne, hl⟩ := ite_none_left_eq_some.mp hl
  obtain ⟨p, rfl, hp⟩ := h seq chunk hl
  exact ⟨p, rfl, hp.erase hq fun he => hne (by rw [he])⟩

lemma delta_entry {p nx : Nat} (h : Entry s first lo pending p chunk) (hlo : lo ≤ nx)
    (hhi : nx ≤ lo + 2 ^ 31) : delta (seqAt first p) (seqAt first nx) = (p : Int) - nx := by
  have h1 := h.lo_le
  have h2 := h.lt_hi
  exact delta_seqAt first (by omega) (by omega)

end entries

/-! ## the loop that moves them -/

lemma cutBefore_slice {s chunk : List Byte} {p nx : Nat} (h : IsSlice s p chunk) (hp : p ≤ nx)
    (hnx : nx ≤ s.length) : IsSlice s nx (cutBefore ((p : Int) - nx) chunk) ∧
      nx + (cutBefore ((p : Int) - nx) chunk).length = max nx (p + chunk.length) := by
  have hn : (-((p : Int) - nx)).toNat = nx - p := by omega
  unfold cutBefore
  rw [hn, length_drop]
  by_cases hle : nx - p ≤ chunk.length
  · have hdrop := h.drop hle
    rw [Nat.min_eq_left hle]
    rw [show p + (nx - p) = nx by omega] at hdrop
    exact ⟨hdrop, by omega⟩
  · rw [Nat.min_eq_right (by omega), drop_length]
    exact ⟨⟨hnx, nil_prefix⟩, by omega⟩

/-- What the loop leaves, started at `nx`: the stream is in order up to `nx'`, what waits is behind
that, and no byte of it was lost. -/
structure Drained (s : List Byte) (first : Seq) (lo nx : Nat) (pending : Assoc Seq (List Byte))
    (done : List Byte) (r : Assoc Seq (List Byte) × List Byte × Seq) (nx' : Nat) : Prop where
  next : r.2.2 = seqAt first nx'
  le : nx ≤ nx'
  le_length : nx' ≤ s.length
  inOrder : done ++ r.2.1 = s.take nx'
  waiting : Waiting s first lo r.1
  ahead : ∀ p chunk, Entry s first lo r.1 p chunk → nx' < p
  kept : ∀ i, nx' ≤ i → Covered s first lo pending i → Covered s first lo r.1 i
  moved : ∀ i, nx ≤ i → i < nx' → Covered s first lo pending i
  sub : ∀ p chunk, Entry s first lo r.1 p chunk → Entry s first lo pending p chunk

section drain
variable {s : List Byte} {first : Seq} {lo : Nat} {done : List Byte}

variable {pending : Assoc Seq (List Byte)}

lemma drained_stop {nx : Nat} {buffer : List Byte}
    (hw : Waiting s first lo pending) (hnx : nx ≤ s.length) (hdone : done ++ buffer = s.take nx)
    (hahead : ∀ p chunk, Entry s first lo pending p chunk → nx < p) :
    Drained s first lo nx pending done (pending, buffer, seqAt first nx) nx where
  next := rfl
  le := Nat.le_refl nx
  le_length := hnx
  inOrder := hdone
  waiting := hw
  ahead := hahead
  kept _ _ h := h
  moved i h h' := absurd h' (by omega)
  sub _ _ h := h

/-- one turn: the segment at `p` is moved, and the next expected byte is `nx₁` -/
lemma Drained.cons {nx nx₁ nx' p : Nat} {chunk : List Byte}
    {r : Assoc Seq (List Byte) × List Byte × Seq} (he : Entry s first lo pending p chunk)
    (hp : p ≤ nx) (h₁ : nx₁ = max nx (p + chunk.length))
    (h : Drained s first lo nx₁ (pending.erase (seqAt first p)) done r nx') :
    Drained s first lo nx pending done r nx' where
  next := h.next
  le := by
    have hle := h.le
    omega
  le_length := h.le_length
  inOrder := h.inOrder
  waiting := h.waiting
  ahead := h.ahead
  kept := by
    rintro i hi ⟨q, c, hq, hqi, hiq⟩
    have hle := h.le
    -- what was moved is before `nx'`, so the byte waits in another segment
    have hne : q ≠ p := by
      rintro rfl
      have hc : c = chunk := some.inj (hq.lookup.symm.trans he.lookup)
      subst hc
      omega
    exact h.kept i hi ⟨q, c, hq.erase he hne, hqi, hiq⟩
  moved := by
    intro i hi hi'
    by_cases hlt : i < nx₁
    · exact ⟨p, chunk, he, by omega, by omega⟩
    · obtain ⟨q, c, hq, hqi, hiq⟩ := h.moved i (by omega) hi'
      exact ⟨q, c, hq.of_erase, hqi, hiq⟩
  sub q c hq := (h.sub q c hq).of_erase

lemma length_keys_erase {seq : Seq} {chunk : List Byte}
    (h : pending.lookup seq = some chunk) :
    (pending.erase seq).keys.length + 1 = pending.keys.length := by
  have hmem : seq ∈ pending.keys :=
    mem_keys.mp (lookup_isSome.mp (isSome_of_eq_some h))
  have hpos := length_pos_of_mem hmem
  rw [keys_erase, length_erase_of_mem hmem]
  omega

lemma firstPending_some {nx : Nat} {seq : Seq}
    (hw : Waiting s first lo pending) (hlo : lo ≤ nx) (hhi : nx ≤ lo + 2 ^ 31)
    (h : firstPending pending (seqAt first nx) = some seq) :
    ∃ p chunk, seq = seqAt first p ∧ Entry s first lo pending p chunk ∧
      ∀ q c, Entry s first lo pending q c → p ≤ q := by
  obtain ⟨hmem, hmin⟩ := minByKey_eq_some h
  obtain ⟨chunk, hl⟩ := isSome_iff_exists.mp (lookup_isSome.mpr (mem_keys.mpr hmem))
  obtain ⟨p, rfl, hp⟩ := hw seq chunk hl
  refine ⟨p, chunk, rfl, hp, fun q c hq => ?_⟩
  have hqm : seqAt first q ∈ pending.keys :=
    mem_keys.mp (lookup_isSome.mp (isSome_of_eq_some hq.lookup))
  have hle := hmin _ hqm
  rw [delta_entry hp hlo hhi, delta_entry hq hlo hhi] at hle
  omega

lemma firstPending_none {nx : Nat}
    (h : firstPending pending (seqAt first nx) = none) (p : Nat) (chunk : List Byte) :
    ¬ Entry s first lo pending p chunk := by
  intro he
  have hmem : seqAt first p ∈ pending.keys :=
    mem_keys.mp (lookup_isSome.mp (isSome_of_eq_some he.lookup))
  rw [minByKey_eq_none h] at hmem
  exact absurd hmem not_mem_nil

/-- **the loop moves what is next to the buffer, and leaves what is behind it** -/
theorem drainLoop_spec {fuel nx : Nat} {pending : Assoc Seq (List Byte)} {buffer : List Byte}
    (hw : Waiting s first lo pending) (hlo : lo ≤ nx) (hnx : nx ≤ s.length)
    (hb : nx + pendingBytes pending ≤ lo + 2 ^ 31)
    (hfuel : pending.keys.length ≤ fuel) (hdone : done ++ buffer = s.take nx) :
    ∃ nx', Drained s first lo nx pending done
      (drainLoop fuel pending buffer (seqAt first nx)) nx' := by
  induction fuel generalizing nx pending buffer with
  | zero =>
    refine ⟨nx, drained_stop hw hnx hdone fun p chunk he => ?_⟩
    have hlen := length_keys_erase he.lookup
    omega
  | succ fuel ih =>
    rw [drainLoop]
    cases hf : firstPending pending (seqAt first nx) with
    | none =>
      exact ⟨nx, drained_stop hw hnx hdone fun p chunk he => absurd he (firstPending_none hf p chunk)⟩
    | some seq =>
      obtain ⟨p, chunk, rfl, he, hmin⟩ := firstPending_some hw hlo (by omega) hf
      have hdelta := delta_entry he hlo (by omega)
      simp only [hdelta]
      by_cases hpos : (0 : Int) < (p : Int) - nx
      · rw [if_pos hpos]
        refine ⟨nx, drained_stop hw hnx hdone fun q c hq => ?_⟩
        have hle := hmin q c hq
        omega
      · rw [if_neg hpos, he.lookup, getD_some, seqAt_add]
        have hp : p ≤ nx := by omega
        obtain ⟨hslice, hlen⟩ := cutBefore_slice he.slice hp hnx
        have htotal : pendingBytes pending =
          chunk.length + pendingBytes (pending.erase (seqAt first p)) := total_of_lookup he.lookup
        have hkeys := length_keys_erase he.lookup
        have horder : done ++ (buffer ++ cutBefore ((p : Int) - nx) chunk) =
            s.take (nx + (cutBefore ((p : Int) - nx) chunk).length) := by
          rw [← append_assoc, hdone, hslice.take_append]
        obtain ⟨nx', h⟩ := ih (hw.erase he) (by omega) hslice.le (by omega) (by omega) horder
        exact ⟨nx', h.cons he hp hlen⟩

end drain

/-! ## one segment -/

/-- a segment of the stream: where it starts, and how long it is -/
structure Seg where
  pos : Nat
  len : Nat
  deriving DecidableEq, Repr

def Seg.payload (s : List Byte) (g : Seg) : List Byte := (s.drop g.pos).take g.len

def Seg.Covers (g : Seg) (i : Nat) : Prop := g.pos ≤ i ∧ i < g.pos + g.len

def Fed (fed : List Seg) (i : Nat) : Prop := ∃ g ∈ fed, g.Covers i

instance (g : Seg) (i : Nat) : Decidable (g.Covers i) :=
  inferInstanceAs (Decidable (g.pos ≤ i ∧ i < g.pos + g.len))

instance (fed : List Seg) (i : Nat) : Decidable (Fed fed i) :=
  inferInstanceAs (Decidable (∃ g ∈ fed, g.Covers i))

/-- the next expected byte: the first that was in no segment -/
structure IsExpected (fed : List Seg) (n : Nat) : Prop where
  before : ∀ i < n, Fed fed i
  missing : ¬ Fed fed n

/-- What holds after the segments `fed`, of which the messages `out` were returned. -/
structure Inv (ms : List (List Byte)) (first : Seq) (fed : List Seg) (out : List (List Byte))
    (nx : Nat) (st : Stream) : Prop where
  next : st.nextSeq = some (seqAt first nx)
  le_length : nx ≤ ms.flatten.length
  waiting : Waiting ms.flatten first nx st.pending
  ahead : ∀ p chunk, Entry ms.flatten first nx st.pending p chunk → nx < p
  waits : ∀ i, nx ≤ i → Fed fed i → Covered ms.flatten first nx st.pending i
  fromFed : ∀ i, Covered ms.flatten first nx st.pending i → Fed fed i
  consumed : ∀ i < nx, Fed fed i
  synchronized : st.synchronized = true
  inOrder : out.flatten ++ st.buffer = ms.flatten.take nx
  framed : ∃ later, ms = out ++ later ∧ ∀ m ∈ later.head?, st.buffer.length < m.length

section feed
variable {ms : List (List Byte)} {first : Seq} {fed : List Seg} {out : List (List Byte)} {nx : Nat}
  {st : Stream}

variable {g : Seg}

lemma Seg.isSlice {s : List Byte} (hg : g.pos + g.len ≤ s.length) :
    IsSlice s g.pos (g.payload s) ∧ (g.payload s).length = g.len := by
  refine ⟨⟨by omega, take_prefix _ _⟩, ?_⟩
  rw [Seg.payload, length_take, length_drop]
  omega

lemma inv_new (ms : List (List Byte)) (hms : ∀ m ∈ ms, ValidMessage m) (first : Seq) :
    Inv ms first [] [] 0 (Stream.new (some first)) where
  next := by rw [seqAt_zero]; rfl
  le_length := Nat.zero_le _
  waiting _ _ h := by cases h
  ahead _ _ h := by cases h.lookup
  waits := by
    rintro i - ⟨g, hg, -⟩
    cases hg
  fromFed := by
    rintro i ⟨p, chunk, h, -⟩
    cases h.lookup
  consumed i h := absurd h (Nat.not_lt_zero i)
  synchronized := rfl
  inOrder := rfl
  framed := by
    refine ⟨ms, rfl, fun m hm => (hms m ?_).length_pos⟩
    exact mem_of_mem_head? hm

lemma Inv.isExpected (h : Inv ms first fed out nx st) : IsExpected fed nx where
  before := h.consumed
  missing hf := by
    obtain ⟨p, chunk, he, hp, -⟩ := h.waits nx (Nat.le_refl nx) hf
    have hlt := h.ahead p chunk he
    omega

lemma fed_append {i : Nat} : Fed (fed ++ [g]) i ↔ Fed fed i ∨ g.Covers i := by
  simp only [Fed, mem_append, mem_singleton, or_and_right, exists_or, exists_eq_left]

/-- a segment of which every byte came before, or waits already -/
lemma Inv.append_old (h : Inv ms first fed out nx st)
    (hg : ∀ i, nx ≤ i → g.Covers i → Covered ms.flatten first nx st.pending i) :
    Inv ms first (fed ++ [g]) out nx st where
  next := h.next
  le_length := h.le_length
  waiting := h.waiting
  ahead := h.ahead
  waits i hi hf := (fed_append.mp hf).elim (h.waits i hi) (hg i hi)
  fromFed i hi := fed_append.mpr (.inl (h.fromFed i hi))
  consumed i hi := fed_append.mpr (.inl (h.consumed i hi))
  synchronized := h.synchronized
  inOrder := h.inOrder
  framed := h.framed

lemma trim_spec (first : Seq) {s : List Byte} (hg : g.pos + g.len ≤ s.length)
    (hnx : nx ≤ s.length) (hlo : nx ≤ g.pos + 2 ^ 31) (hhi : g.pos < nx + 2 ^ 31) :
    ∃ p payload, trim (seqAt first nx) (seqAt first g.pos) (g.payload s) =
        (seqAt first p, payload) ∧ nx ≤ p ∧ p < nx + 2 ^ 31 ∧ IsSlice s p payload ∧
      ∀ i, nx ≤ i → (g.Covers i ↔ p ≤ i ∧ i < p + payload.length) := by
  obtain ⟨hslice, hlen⟩ := Seg.isSlice hg
  have hdelta := delta_seqAt first hlo hhi
  unfold trim
  simp only [hdelta]
  by_cases hneg : (g.pos : Int) - nx < 0
  · obtain ⟨hcut, hmax⟩ := cutBefore_slice hslice (show g.pos ≤ nx by omega) hnx
    rw [if_pos hneg]
    refine ⟨nx, _, rfl, Nat.le_refl nx, by omega, hcut, fun i hi => ?_⟩
    unfold Seg.Covers
    omega
  · rw [if_neg hneg]
    refine ⟨g.pos, _, rfl, by omega, hhi, hslice, fun i hi => ?_⟩
    rw [hlen]
    rfl

/-- what waits behind `nx'`, seen from there -/
lemma entry_shift {s : List Byte} {pending : Assoc Seq (List Byte)} {nx nx' : Nat}
    (hw : Waiting s first nx pending) (hle : nx ≤ nx')
    (hahead : ∀ p chunk, Entry s first nx pending p chunk → nx' < p) (p : Nat) (chunk : List Byte) :
    Entry s first nx' pending p chunk ↔ Entry s first nx pending p chunk := by
  constructor
  · intro h
    obtain ⟨q, hseq, hq⟩ := hw _ chunk h.lookup
    have hlt := hahead q chunk hq
    have hlo := h.lo_le
    have hhi := h.lt_hi
    have hhi' := hq.lt_hi
    obtain rfl : p = q := seqAt_inj first hseq (by omega) (by omega)
    exact hq
  · intro h
    have hlt := hahead p chunk h
    have hhi := h.lt_hi
    exact ⟨h.lookup, by omega, by omega, h.slice⟩

/-- the waiting segments are moved, and the messages that became complete are returned -/
lemma assemble_spec (hms : ∀ m ∈ ms, ValidMessage m) (hnx : nx ≤ ms.flatten.length)
    (hw : Waiting ms.flatten first nx st.pending)
    (hwaits : ∀ i, nx ≤ i → Fed fed i → Covered ms.flatten first nx st.pending i)
    (hfrom : ∀ i, Covered ms.flatten first nx st.pending i → Fed fed i)
    (hconsumed : ∀ i < nx, Fed fed i) (hsync : st.synchronized = true)
    (horder : out.flatten ++ st.buffer = ms.flatten.take nx)
    (hframed : ∃ later, ms = out ++ later) (hb : pendingBytes st.pending ≤ 2 ^ 31) :
    ∃ st' messages nx', st.assemble (seqAt first nx) = (st', .ok messages) ∧
      Inv ms first fed (out ++ messages) nx' st' := by
  obtain ⟨nx', hd⟩ := drainLoop_spec hw (Nat.le_refl nx) hnx (by omega) (Nat.le_refl _) horder
  obtain ⟨later, hlater⟩ := hframed
  cases hr : drainLoop st.pending.keys.length st.pending st.buffer (seqAt first nx) with
  | mk pending r =>
  obtain ⟨buffer, next⟩ := r
  rw [hr] at hd
  have hprefix : buffer <+: later.flatten := by
    have htake : out.flatten ++ buffer <+: out.flatten ++ later.flatten := by
      rw [← flatten_append, ← hlater, hd.inOrder]
      exact take_prefix _ _
    exact (prefix_append_right_inj _).mp htake
  have hlv : ∀ m ∈ later, ValidMessage m := by
    intro m hm
    exact hms m (by rw [hlater]; exact mem_append_right out hm)
  obtain ⟨taken, rest, later', hsplit, hrest, -, hshort, hloop⟩ := frameLoop_messages hlv
    (f := ⟨[], buffer, st.synchronized, st.skipped⟩) hsync hprefix (Nat.lt_succ_self _)
  refine ⟨{ st with nextSeq := some next, pending := pending, buffer := rest }, taken, nx', ?_, ?_⟩
  · simp only [assemble, hr, hloop, nil_append]
  have heshift := entry_shift hd.waiting hd.le hd.ahead
  have hshift : ∀ i, Covered ms.flatten first nx' pending i ↔
      Covered ms.flatten first nx pending i := by
    unfold Covered
    simp only [heshift, implies_true]
  exact {
    next := congrArg some hd.next
    le_length := hd.le_length
    waiting := by
      intro seq chunk hl
      obtain ⟨p, hseq, hp⟩ := hd.waiting seq chunk hl
      exact ⟨p, hseq, (heshift p chunk).mpr hp⟩
    ahead := fun p chunk hp => hd.ahead p chunk ((heshift p chunk).mp hp)
    waits := fun i hi hf => (hshift i).mpr
      (hd.kept i hi (hwaits i (Nat.le_trans hd.le hi) hf))
    fromFed := by
      intro i hi
      obtain ⟨p, chunk, hp, hpi, hip⟩ := (hshift i).mp hi
      exact hfrom i ⟨p, chunk, hd.sub p chunk hp, hpi, hip⟩
    consumed := by
      intro i hi
      by_cases hlt : i < nx
      · exact hconsumed i hlt
      · exact hfrom i (hd.moved i (by omega) hi)
    synchronized := hsync
    inOrder := by
      rw [flatten_append, append_assoc, ← hrest]
      exact hd.inOrder
    framed := ⟨later', by rw [hlater, hsplit, append_assoc], hshort⟩ }

variable {payload : List Byte}

/-- a segment joins those that wait, in the place of a shorter one -/
lemma store_spec (h : Inv ms first fed out nx st) {p : Nat} (hp : nx ≤ p) (hp' : p < nx + 2 ^ 31)
    (hslice : IsSlice ms.flatten p payload)
    (hg : ∀ i, nx ≤ i → (g.Covers i ↔ p ≤ i ∧ i < p + payload.length))
    (hold : ∀ old, st.pending.lookup (seqAt first p) = some old → old.length ≤ payload.length) :
    Waiting ms.flatten first nx (st.store (seqAt first p) payload).pending ∧
    (∀ i, nx ≤ i → Fed (fed ++ [g]) i →
      Covered ms.flatten first nx (st.store (seqAt first p) payload).pending i) ∧
    ∀ i, Covered ms.flatten first nx (st.store (seqAt first p) payload).pending i →
      Fed (fed ++ [g]) i := by
  have hlookup : ∀ seq, (st.store (seqAt first p) payload).pending.lookup seq =
      if seq = seqAt first p then some payload else st.pending.lookup seq :=
    fun seq => lookup_insert_eq seq _ payload st.pending
  have hnew : Entry ms.flatten first nx (st.store (seqAt first p) payload).pending p payload :=
    ⟨by rw [hlookup, if_pos rfl], hp, hp', hslice⟩
  have hother : ∀ q c, seqAt first q ≠ seqAt first p → (Entry ms.flatten first nx
      (st.store (seqAt first p) payload).pending q c ↔
        Entry ms.flatten first nx st.pending q c) := by
    intro q c hne
    have hl := hlookup (seqAt first q)
    rw [if_neg hne] at hl
    exact ⟨fun he => ⟨hl ▸ he.lookup, he.lo_le, he.lt_hi, he.slice⟩,
      fun he => ⟨hl.trans he.lookup, he.lo_le, he.lt_hi, he.slice⟩⟩
  refine ⟨fun seq chunk hl => ?_, fun i hi hf => ?_, ?_⟩
  · rw [hlookup] at hl
    by_cases heq : seq = seqAt first p
    · rw [if_pos heq] at hl
      cases hl
      exact ⟨p, heq, hnew⟩
    · rw [if_neg heq] at hl
      obtain ⟨q, rfl, hq⟩ := h.waiting seq chunk hl
      exact ⟨q, rfl, (hother q chunk heq).mpr hq⟩
  · rcases fed_append.mp hf with hf | hf
    · obtain ⟨q, c, hq, hqi, hiq⟩ := h.waits i hi hf
      by_cases heq : seqAt first q = seqAt first p
      · obtain rfl : p = q := hq.pos_unique hp hp' heq.symm
        have hle := hold c hq.lookup
        exact ⟨p, payload, hnew, hqi, by omega⟩
      · exact ⟨q, c, (hother q c heq).mpr hq, hqi, hiq⟩
    · obtain ⟨hpi, hip⟩ := (hg i hi).mp hf
      exact ⟨p, payload, hnew, hpi, hip⟩
  · rintro i ⟨q, c, hq, hqi, hiq⟩
    have hi : nx ≤ i := Nat.le_trans hq.lo_le hqi
    by_cases heq : seqAt first q = seqAt first p
    · obtain rfl : q = p := hnew.pos_unique hq.lo_le hq.lt_hi heq
      have hc : c = payload := some.inj (hq.lookup.symm.trans hnew.lookup)
      rw [hc] at hiq
      exact fed_append.mpr (.inr ((hg i hi).mpr ⟨hqi, hiq⟩))
    · exact fed_append.mpr (.inl (h.fromFed i ⟨q, c, (hother q c heq).mp hq, hqi, hiq⟩))

lemma accept_spec (hms : ∀ m ∈ ms, ValidMessage m) (h : Inv ms first fed out nx st) {p : Nat}
    (hp : nx ≤ p) (hp' : p < nx + 2 ^ 31) (hslice : IsSlice ms.flatten p payload)
    (hg : ∀ i, nx ≤ i → (g.Covers i ↔ p ≤ i ∧ i < p + payload.length))
    (hold : ∀ old, st.pending.lookup (seqAt first p) = some old → old.length ≤ payload.length)
    (hlimit : (st.accept (seqAt first nx) (seqAt first p) payload).2 ≠ .error .limit) :
    ∃ st' messages nx', st.accept (seqAt first nx) (seqAt first p) payload = (st', .ok messages) ∧
      Inv ms first (fed ++ [g]) (out ++ messages) nx' st' := by
  unfold accept at hlimit ⊢
  by_cases hwithin : (st.store (seqAt first p) payload).withinLimits = true
  · obtain ⟨hw, hwaits, hfrom⟩ := store_spec h hp hp' hslice hg hold
    obtain ⟨hbuf, -⟩ := of_decide_eq_true hwithin
    have hbytes : pendingBytes (st.store (seqAt first p) payload).pending ≤ 2 ^ 31 := by
      unfold buffered maxBuffer at hbuf
      omega
    simp only [hwithin, if_true]
    obtain ⟨later, hlater, -⟩ := h.framed
    exact assemble_spec hms h.le_length hw hwaits hfrom
      (fun i hi => fed_append.mpr (.inl (h.consumed i hi))) h.synchronized h.inOrder
      ⟨later, hlater⟩ hbytes
  · simp only [hwithin] at hlimit
    exact absurd rfl hlimit

/-- what is left of a segment is taken: it waits already, or joins those that wait -/
lemma receive_spec (hms : ∀ m ∈ ms, ValidMessage m) (h : Inv ms first fed out nx st) {p : Nat}
    (hp : nx ≤ p) (hp' : p < nx + 2 ^ 31) (hslice : IsSlice ms.flatten p payload)
    (hg : ∀ i, nx ≤ i → (g.Covers i ↔ p ≤ i ∧ i < p + payload.length))
    (hlimit : (st.receive (seqAt first nx) (seqAt first p) payload).2 ≠ .error .limit) :
    ∃ st' messages nx', st.receive (seqAt first nx) (seqAt first p) payload = (st', .ok messages) ∧
      Inv ms first (fed ++ [g]) (out ++ messages) nx' st' := by
  unfold receive at hlimit ⊢
  by_cases hnil : payload.isEmpty = true
  · rw [if_pos hnil]
    refine ⟨st, [], nx, rfl, ?_⟩
    rw [append_nil]
    refine h.append_old fun i hi hc => ?_
    obtain ⟨h1, h2⟩ := (hg i hi).mp hc
    rw [isEmpty_iff.mp hnil, length_nil] at h2
    omega
  rw [if_neg hnil] at hlimit ⊢
  cases hold : st.pending.lookup (seqAt first p) with
  | none =>
    rw [hold] at hlimit
    refine accept_spec hms h hp hp' hslice hg (fun old ho => ?_) hlimit
    rw [hold] at ho
    cases ho
  | some old =>
    obtain ⟨q, hseq, hq⟩ := h.waiting _ old hold
    obtain rfl : p = q := hq.pos_unique hp hp' hseq
    have htake := hq.slice.take_eq hslice
    rw [hold] at hlimit
    simp only [htake, ne_eq, not_true_eq_false, if_false] at hlimit ⊢
    by_cases hle : payload.length ≤ old.length
    · rw [if_pos hle]
      refine ⟨st, [], nx, rfl, ?_⟩
      rw [append_nil]
      refine h.append_old fun i hi hc => ?_
      obtain ⟨h1, h2⟩ := (hg i hi).mp hc
      exact ⟨p, old, hq, h1, by omega⟩
    · rw [if_neg hle] at hlimit ⊢
      refine accept_spec hms h hp hp' hslice hg (fun old' ho => ?_) hlimit
      rw [hold] at ho
      cases ho
      omega

/-- **a segment of the stream is taken, and keeps the invariant** -/
theorem inv_feed (hms : ∀ m ∈ ms, ValidMessage m) (h : Inv ms first fed out nx st)
    (hg : g.pos + g.len ≤ ms.flatten.length) (hlo : nx ≤ g.pos + 2 ^ 31) (hhi : g.pos < nx + 2 ^ 31)
    (hlimit : (st.feed (seqAt first g.pos) (g.payload ms.flatten)).2 ≠ .error .limit) :
    ∃ st' messages nx', st.feed (seqAt first g.pos) (g.payload ms.flatten) = (st', .ok messages) ∧
      Inv ms first (fed ++ [g]) (out ++ messages) nx' st' := by
  obtain ⟨hslice, hlen⟩ := Seg.isSlice hg
  have hst : { st with nextSeq := some (seqAt first nx) } = st := by
    rw [← h.next]
  unfold feed at hlimit ⊢
  by_cases hempty : (g.payload ms.flatten).isEmpty = true
  · rw [if_pos hempty]
    rw [isEmpty_iff.mp hempty, length_nil] at hlen
    refine ⟨st, [], nx, rfl, ?_⟩
    rw [append_nil]
    refine h.append_old fun i _ hc => ?_
    obtain ⟨h1, h2⟩ := hc
    omega
  · obtain ⟨p, payload, htrim, hp, hp', hslice', hcov⟩ :=
      trim_spec first hg h.le_length hlo hhi
    rw [if_neg hempty, h.next, getD_some] at hlimit ⊢
    simp only [htrim, hst] at hlimit ⊢
    exact receive_spec hms h hp hp' hslice' hcov hlimit

end feed

/-! ## all segments -/

def feedAll : Stream → List (Seq × List Byte) → Stream × List (Except FeedError (List (List Byte)))
  | st, [] => (st, [])
  | st, (seq, payload) :: segments =>
    let fed := st.feed seq payload
    let rest := feedAll fed.1 segments
    (rest.1, fed.2 :: rest.2)

/-- Each segment lies in the stream, starts within `2 ^ 31` bytes of the byte that is expected after
those before it, and does not exceed the limits. -/
def Admissible (s : List Byte) (first : Seq) : List Seg → Stream → List Seg → Prop
  | _, _, [] => True
  | fed, st, g :: gs =>
    g.pos + g.len ≤ s.length ∧
    (∀ n, IsExpected fed n → n ≤ g.pos + 2 ^ 31 ∧ g.pos < n + 2 ^ 31) ∧
    (st.feed (seqAt first g.pos) (g.payload s)).2 ≠ .error .limit ∧
    Admissible s first (fed ++ [g]) (st.feed (seqAt first g.pos) (g.payload s)).1 gs

lemma inv_feedAll {ms : List (List Byte)} (hms : ∀ m ∈ ms, ValidMessage m) {first : Seq}
    {fed : List Seg} {out : List (List Byte)} {nx : Nat} {st : Stream}
    (h : Inv ms first fed out nx st) {gs : List Seg}
    (hok : Admissible ms.flatten first fed st gs) :
    ∃ (st' : Stream) (outs : List (List (List Byte))) (nx' : Nat),
      feedAll st (gs.map fun g => (seqAt first g.pos, g.payload ms.flatten)) =
        (st', outs.map .ok) ∧ Inv ms first (fed ++ gs) (out ++ outs.flatten) nx' st' := by
  induction gs generalizing fed out nx st with
  | nil => exact ⟨st, [], nx, rfl, by simpa using h⟩
  | cons g gs ih =>
    obtain ⟨hg, hnear, hlimit, hrest⟩ := hok
    obtain ⟨hlo, hhi⟩ := hnear nx h.isExpected
    obtain ⟨st₁, messages, nx₁, hfeed, h₁⟩ := inv_feed hms h hg hlo hhi hlimit
    rw [hfeed] at hrest
    obtain ⟨st', outs, nx', hall, h'⟩ := ih h₁ hrest
    refine ⟨st', messages :: outs, nx', ?_, ?_⟩
    · rw [map_cons, feedAll, hfeed, hall]
      rfl
    · rw [append_assoc] at h'
      rwa [flatten_cons, ← append_assoc]

/-- with every byte fed nothing is left -/
lemma Inv.complete {ms : List (List Byte)} {first : Seq} {fed : List Seg}
    {out : List (List Byte)} {nx : Nat} {st : Stream} (h : Inv ms first fed out nx st)
    (hall : ∀ i < ms.flatten.length, Fed fed i) : out = ms ∧ st.unfinished = none := by
  have hnx : nx = ms.flatten.length := by
    refine Nat.le_antisymm h.le_length (Nat.le_of_not_lt fun hlt => ?_)
    exact h.isExpected.missing (hall nx hlt)
  have hpending : st.pending.keys = [] := by
    refine eq_nil_iff_forall_not_mem.mpr fun seq hmem => ?_
    obtain ⟨chunk, hl⟩ := isSome_iff_exists.mp
      (lookup_isSome.mpr (mem_keys.mpr hmem))
    obtain ⟨p, -, hp⟩ := h.waiting seq chunk hl
    have hlt := h.ahead p chunk hp
    have hle := hp.slice.1
    omega
  obtain ⟨later, hlater, hshort⟩ := h.framed
  have horder := h.inOrder
  rw [hnx, take_length] at horder
  have hbuf : st.buffer = later.flatten := by
    have hms' : ms.flatten = out.flatten ++ later.flatten := by
      rw [← flatten_append, ← hlater]
    rw [hms'] at horder
    exact append_cancel_left horder
  have hnil : later = [] := by
    cases later with
    | nil => rfl
    | cons m later =>
      have hlt := hshort m rfl
      rw [hbuf, flatten_cons, length_append] at hlt
      omega
  subst hnil
  refine ⟨by rw [hlater, append_nil], ?_⟩
  unfold unfinished
  rw [hpending, hbuf, if_neg (fun hne => hne rfl), if_neg (fun hne => hne rfl)]

/-- **Segments that together cover a run of messages give these messages, in order and whatever the
segments are, and leave nothing behind.** -/
theorem reassemble {ms : List (List Byte)} (hms : ∀ m ∈ ms, ValidMessage m) (first : Seq)
    {gs : List Seg} (hok : Admissible ms.flatten first [] (Stream.new (some first)) gs)
    (hall : ∀ i < ms.flatten.length, Fed gs i) :
    ∃ (st : Stream) (outs : List (List (List Byte))), feedAll (Stream.new (some first))
        (gs.map fun g => (seqAt first g.pos, g.payload ms.flatten)) = (st, outs.map .ok) ∧
      outs.flatten = ms ∧ st.unfinished = none := by
  obtain ⟨st, outs, nx, hfeed, h⟩ := inv_feedAll hms (inv_new ms hms first) hok
  obtain ⟨hout, hun⟩ := h.complete hall
  exact ⟨st, outs, hfeed, hout, hun⟩

/-- in a stream of at most `2 ^ 31` bytes every segment is near enough -/
lemma IsExpected.near {s : List Byte} (hs : s.length ≤ 2 ^ 31) {fed : List Seg} {n : Nat}
    (h : IsExpected fed n) (hfed : ∀ g ∈ fed, g.pos + g.len ≤ s.length) {g : Seg}
    (hg : g.pos < s.length) : n ≤ g.pos + 2 ^ 31 ∧ g.pos < n + 2 ^ 31 := by
  have hn : n ≤ s.length := by
    refine Nat.le_of_not_lt fun hlt => ?_
    obtain ⟨g', hg', -, hcov⟩ := h.before s.length hlt
    exact absurd (hfed g' hg') (by omega)
  omega

/-- an Initiation and a Termination message without content -/
def twoMessages : List (List Byte) :=
  [[3#8, 0#8, 0#8, 0#8, 6#8, 4#8], [3#8, 0#8, 0#8, 0#8, 6#8, 5#8]]

lemma twoMessages_valid : ∀ m ∈ twoMessages, ValidMessage m := by
  intro m hm
  rcases mem_pair.mp hm with rfl | rfl
  · exact ⟨4#8, rfl, by decide, by decide⟩
  · exact ⟨5#8, rfl, by decide, by decide⟩

/-- three segments that overlap, the last one first -/
def threeSegs : List Seg := [⟨7, 5⟩, ⟨0, 5⟩, ⟨2, 7⟩]

/-- the numbers wrap around in the first message -/
theorem reassemble_wrapped : ∃ (st : Stream) (outs : List (List (List Byte))),
    feedAll (Stream.new (some 0xfffffffe#32)) (threeSegs.map fun g =>
      (seqAt 0xfffffffe#32 g.pos, g.payload twoMessages.flatten)) = (st, outs.map .ok) ∧
    outs.flatten = twoMessages ∧ st.unfinished = none := by
  have hs : twoMessages.flatten.length ≤ 2 ^ 31 := by decide
  refine reassemble twoMessages_valid 0xfffffffe#32 ⟨by decide, ?_, by decide +kernel, by decide, ?_,
    by decide +kernel, by decide, ?_, by decide +kernel, trivial⟩ (by decide)
  · exact fun n h => h.near hs (by decide) (by decide)
  · exact fun n h => h.near hs (by decide) (by decide)
  · exact fun n h => h.near hs (by decide) (by decide)

/-! ## segments of any bytes -/

lemma assemble_valid {st : Stream} {next : Seq} {messages : List (List Byte)}
    (h : (st.assemble next).2 = .ok messages) : ∀ m ∈ messages, ValidMessage m := by
  simp only [assemble] at h
  split at h
  · cases h
  · next framed heq =>
    cases h
    show ∀ m ∈ (framed, (none : Option FeedError)).1.messages, ValidMessage m
    rw [← heq]
    exact frameLoop_valid (forall_mem_nil _)

lemma feed_valid {st : Stream} {seq : Seq} {payload : List Byte} {messages : List (List Byte)}
    (h : (st.feed seq payload).2 = .ok messages) : ∀ m ∈ messages, ValidMessage m := by
  simp only [feed, receive, accept] at h
  repeat' split at h
  all_goals first
    | exact assemble_valid h
    | cases h
      try exact forall_mem_nil _

/-- **whatever the segments, what is returned are well-formed messages**: version 3, the length they
say, and the bounds of their type -/
theorem feedAll_valid (st : Stream) (segments : List (Seq × List Byte))
    {messages : List (List Byte)} (h : .ok messages ∈ (feedAll st segments).2) :
    ∀ m ∈ messages, ValidMessage m := by
  induction segments generalizing st with
  | nil => exact absurd h not_mem_nil
  | cons segment segments ih =>
    rcases mem_cons.mp h with h | h
    · exact feed_valid h.symm
    · exact ih _ h

/-- a Termination message without information -/
theorem feedAll_valid_termination : ValidMessage [3#8, 0#8, 0#8, 0#8, 6#8, 5#8] :=
  feedAll_valid (new none) [(7#32, [3#8, 0#8, 0#8, 0#8, 6#8, 5#8])] (mem_singleton.mpr rfl) _
    (mem_singleton.mpr rfl)

end Netom.BmpDump
