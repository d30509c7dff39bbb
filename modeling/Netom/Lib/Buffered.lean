import Mathlib

/-!
# A buffered writer over a channel that may fail

A writer collects what is written and sends it when the buffer has reached its limit, and once more
when it is flushed.  A send that fails has emptied the buffer already: what it held is lost.  The
computation that writes stops at the first error.

* `Writer`, `send`, `write`, `writeAll`  the writer; `answer n` is what the `n`-th send meets;
* `writeBatches`  writes in batches, with a look at the clock after each;
* `sendCount`  how many sends an output needs, by the lengths of its parts;
* `stream_of_none`  without a failure everything is sent;
* `stream_of_some`  after a failure something is missing;
* `chunks`  a list cut into pieces of one size.
-/

namespace Buffered
variable {α β : Type}

inductive Failure where
  | timedOut
  | closed
  deriving DecidableEq, Repr

structure Writer (α : Type) where
  buffer : List α
  sent : List (List α)
  attempts : Nat

def Writer.new : Writer α := ⟨[], [], 0⟩

section
variable (limit : Nat) (answer : Nat → Option Failure)

def send (w : Writer α) : Writer α × Option Failure :=
  if w.buffer.isEmpty then (w, none)
  else
    match answer w.attempts with
    | none => (⟨[], w.sent ++ [w.buffer], w.attempts + 1⟩, none)
    | some e => (⟨[], w.sent, w.attempts + 1⟩, some e)

def write (w : Writer α) (part : List α) : Writer α × Option Failure :=
  let w := { w with buffer := w.buffer ++ part }
  if limit ≤ w.buffer.length then send answer w else (w, none)

/-- the writes of a computation that stops at its first error -/
def writeAll : Writer α → List (List α) → Writer α × Option Failure
  | w, [] => (w, none)
  | w, part :: parts =>
    match write limit answer w part with
    | (w, none) => writeAll w parts
    | (w, some e) => (w, some e)

/-- the writes of each batch; the computation ends after the first one that is `late` -/
def writeBatches (late : Nat → Bool) :
    Nat → Writer α → List (List (List α)) → Writer α × Option Failure
  | _, w, [] => (w, none)
  | i, w, batch :: batches =>
    match writeAll limit answer w batch with
    | (w, some e) => (w, some e)
    | (w, none) => if late i then (w, none) else writeBatches late (i + 1) w batches

/-- What has been sent after a last flush, and the failure that was met.  The flush is made after an
error, too. -/
def finish (result : Writer α × Option Failure) : List (List α) × Option Failure :=
  let flushed := send answer result.1
  (flushed.1.sent, result.2.or flushed.2)

end

/-- the batches up to the first one that is `late` -/
def untilLate (late : Nat → Bool) : Nat → List β → List β
  | _, [] => []
  | i, b :: bs => if late i then [b] else b :: untilLate late (i + 1) bs

/-! ## batches -/

lemma writeAll_append (limit : Nat) (answer : Nat → Option Failure) (w : Writer α)
    (ps qs : List (List α)) :
    writeAll limit answer w (ps ++ qs) =
      match writeAll limit answer w ps with
      | (w, some e) => (w, some e)
      | (w, none) => writeAll limit answer w qs := by
  induction ps generalizing w with
  | nil => rfl
  | cons p ps ih =>
    rw [List.cons_append, writeAll, writeAll]
    rcases hw : write limit answer w p with ⟨w', _ | e⟩
    · exact ih w'
    · rfl

lemma writeBatches_eq (limit : Nat) (answer : Nat → Option Failure) (late : Nat → Bool) (i : Nat)
    (w : Writer α) (batches : List (List (List α))) :
    writeBatches limit answer late i w batches =
      writeAll limit answer w (untilLate late i batches).flatten := by
  induction batches generalizing i w with
  | nil => rfl
  | cons b bs ih =>
    rw [writeBatches, untilLate]
    by_cases hl : late i = true
    · rw [if_pos hl, List.flatten_singleton]
      rcases writeAll limit answer w b with ⟨w', _ | e⟩
      · exact if_pos hl
      · rfl
    · rw [if_neg hl, List.flatten_cons, writeAll_append]
      rcases writeAll limit answer w b with ⟨w', _ | e⟩
      · exact (if_neg hl).trans (ih (i + 1) w')
      · rfl

lemma untilLate_initial (late : Nat → Bool) (i : Nat) (bs : List β) :
    untilLate late i bs <+: bs := by
  induction bs generalizing i with
  | nil => exact List.prefix_rfl
  | cons b bs ih =>
    rw [untilLate]
    split
    · exact ⟨bs, rfl⟩
    · exact (List.prefix_cons_inj b).mpr (ih (i + 1))

lemma untilLate_map {γ : Type} (f : β → γ) (late : Nat → Bool) (i : Nat) (bs : List β) :
    untilLate late i (bs.map f) = (untilLate late i bs).map f := by
  induction bs generalizing i with
  | nil => rfl
  | cons b bs ih =>
    rw [List.map_cons, untilLate, untilLate, ih]
    split
    · rfl
    · rfl

/-! ## how many sends -/

/-- the sends, and what is held after the last of them, when `held` elements are in the buffer and
parts of these lengths are written -/
def load (limit : Nat) : Nat → List Nat → Nat × Nat
  | held, [] => (0, held)
  | held, n :: ns =>
    if limit ≤ held + n ∧ 0 < held + n then ((load limit 0 ns).1 + 1, (load limit 0 ns).2)
    else load limit (held + n) ns

/-- the sends of a whole output, that of the flush included -/
def sendCount (limit : Nat) (lengths : List Nat) : Nat :=
  (load limit 0 lengths).1 + if 0 < (load limit 0 lengths).2 then 1 else 0

/-- the first failure among the `k` sends from the `a`-th on -/
def firstFailure (answer : Nat → Option Failure) : Nat → Nat → Option Failure
  | _, 0 => none
  | a, k + 1 =>
    match answer a with
    | some e => some e
    | none => firstFailure answer (a + 1) k

lemma firstFailure_add (answer : Nat → Option Failure) (a k j : Nat) :
    firstFailure answer a (k + j) =
      (firstFailure answer a k).or (firstFailure answer (a + k) j) := by
  induction k generalizing a with
  | zero => simp [firstFailure]
  | succ k ih =>
    rw [Nat.succ_add, firstFailure, firstFailure, ih (a + 1)]
    cases answer a with
    | none => rw [Nat.add_right_comm a 1 k, Nat.add_assoc a k 1]
    | some e => rfl

/-! ## what is sent -/

/-- everything that has been written, and the parts that are still to be -/
def total (w : Writer α) (parts : List (List α)) : List α := w.sent.flatten ++ w.buffer ++ parts.flatten

section
variable {limit : Nat} {answer : Nat → Option Failure} {w : Writer α} {part : List α}

lemma send_empty (h : w.buffer = []) : send answer w = (w, none) := by
  unfold send
  rw [h]
  rfl

lemma send_full (h : w.buffer ≠ []) :
    send answer w =
      match answer w.attempts with
      | none => (⟨[], w.sent ++ [w.buffer], w.attempts + 1⟩, none)
      | some e => (⟨[], w.sent, w.attempts + 1⟩, some e) := by
  unfold send
  simp only [List.isEmpty_iff, h, if_false]

lemma write_held (h : ¬ (limit ≤ w.buffer.length + part.length ∧ 0 < w.buffer.length + part.length)) :
    write limit answer w part = ({ w with buffer := w.buffer ++ part }, none) := by
  rw [← List.length_append] at h
  unfold write
  by_cases hl : limit ≤ (w.buffer ++ part).length
  · have hnil : (w.buffer ++ part).length = 0 := by omega
    exact (if_pos hl).trans (send_empty (List.length_eq_zero_iff.mp hnil))
  · exact if_neg hl

lemma write_sent (h : limit ≤ w.buffer.length + part.length ∧ 0 < w.buffer.length + part.length) :
    write limit answer w part =
      match answer w.attempts with
      | none => (⟨[], w.sent ++ [w.buffer ++ part], w.attempts + 1⟩, none)
      | some e => (⟨[], w.sent, w.attempts + 1⟩, some e) := by
  rw [← List.length_append] at h
  exact (if_pos h.1).trans (send_full (List.length_pos_iff.mp h.2))

end

/-- what is left after `n` sends that all succeed, or after one that fails: what it had in its
buffer is missing -/
def Left (n held : Nat) (all : List α) (w : Writer α) : Option Failure → Prop
  | none => w.attempts = n ∧ w.buffer.length = held ∧ w.sent.flatten ++ w.buffer = all
  | some _ => w.buffer = [] ∧ w.sent.flatten.length < all.length

lemma writeAll_left (limit : Nat) (answer : Nat → Option Failure) (w : Writer α)
    (parts : List (List α)) {sends held : Nat}
    (hload : load limit w.buffer.length (parts.map List.length) = (sends, held)) :
    ∃ w', writeAll limit answer w parts = (w', firstFailure answer w.attempts sends) ∧
      Left (w.attempts + sends) held (total w parts) w' (firstFailure answer w.attempts sends) := by
  induction parts generalizing w sends with
  | nil =>
    cases hload
    exact ⟨w, rfl, rfl, rfl, by simp [total]⟩
  | cons part parts ih =>
    rw [List.map_cons, load] at hload
    rw [writeAll]
    by_cases hfull : limit ≤ w.buffer.length + part.length ∧ 0 < w.buffer.length + part.length
    · rw [if_pos hfull] at hload
      cases hload
      rw [write_sent hfull, firstFailure]
      cases answer w.attempts with
      | some e =>
        refine ⟨_, rfl, rfl, ?_⟩
        simp only [total, List.flatten_cons, List.length_append]
        omega
      | none =>
        obtain ⟨w', hw', hleft⟩ := ih ⟨[], w.sent ++ [w.buffer ++ part], w.attempts + 1⟩ rfl
        have htotal : total ⟨[], w.sent ++ [w.buffer ++ part], w.attempts + 1⟩ parts =
            total w (part :: parts) := by simp [total]
        rw [htotal, Nat.add_right_comm] at hleft
        exact ⟨w', hw', hleft⟩
    · rw [if_neg hfull, ← List.length_append] at hload
      rw [write_held hfull]
      obtain ⟨w', hw', hleft⟩ := ih { w with buffer := w.buffer ++ part } hload
      have htotal : total { w with buffer := w.buffer ++ part } parts = total w (part :: parts) := by
        simp [total]
      rw [htotal] at hleft
      exact ⟨w', hw', hleft⟩

section
variable (limit : Nat) (answer : Nat → Option Failure) (parts : List (List α))

/-- the chunks that arrive when an output is written and flushed, and the failure that was met -/
def stream : List (List α) × Option Failure := finish answer (writeAll limit answer Writer.new parts)

/-- the first failure of the sends of an output -/
def failure : Option Failure := firstFailure answer 0 (sendCount limit (parts.map List.length))

variable {limit answer parts}

lemma failure_eq :
    failure limit answer parts =
      (firstFailure answer 0 (load limit 0 (parts.map List.length)).1).or
        (if 0 < (load limit 0 (parts.map List.length)).2 then
          answer (load limit 0 (parts.map List.length)).1 else none) := by
  unfold failure sendCount
  rw [firstFailure_add, Nat.zero_add]
  congr 1
  split
  · unfold firstFailure
    cases answer (load limit 0 (parts.map List.length)).1 with
    | none | some e => rfl
  · rfl

variable (limit answer parts) in
lemma writeAll_new : ∃ w', writeAll limit answer Writer.new parts =
      (w', firstFailure answer 0 (load limit 0 (parts.map List.length)).1) ∧
    Left (load limit 0 (parts.map List.length)).1 (load limit 0 (parts.map List.length)).2
      parts.flatten w' (firstFailure answer 0 (load limit 0 (parts.map List.length)).1) := by
  obtain ⟨w', hw', hleft⟩ := writeAll_left limit answer Writer.new parts rfl
  rw [show Writer.new.attempts + _ = _ from Nat.zero_add _] at hleft
  exact ⟨w', hw', hleft⟩

lemma stream_of_none (h : failure limit answer parts = none) :
    (stream limit answer parts).1.flatten = parts.flatten ∧ (stream limit answer parts).2 = none := by
  rw [failure_eq, Option.or_eq_none_iff] at h
  obtain ⟨w', hw', hleft⟩ := writeAll_new limit answer parts
  rw [h.1] at hw' hleft
  obtain ⟨hatt, hbuf, hsent⟩ := hleft
  unfold stream finish
  rw [hw']
  by_cases hempty : w'.buffer = []
  · rw [hempty, List.append_nil] at hsent
    simp only [send_empty hempty]
    exact ⟨hsent, rfl⟩
  · have hans : answer w'.attempts = none := by
      have hpos := lt_of_lt_of_eq (List.length_pos_iff.mpr hempty) hbuf
      rw [hatt]
      exact (if_pos hpos).symm.trans h.2
    simp only [send_full hempty, hans, List.flatten_append, List.flatten_singleton]
    exact ⟨hsent, rfl⟩

lemma stream_of_some {e : Failure} (h : failure limit answer parts = some e) :
    (stream limit answer parts).1.flatten.length < parts.flatten.length ∧
      (stream limit answer parts).2 = some e := by
  rw [failure_eq, Option.or_eq_some_iff] at h
  obtain ⟨w', hw', hleft⟩ := writeAll_new limit answer parts
  unfold stream finish
  rw [hw']
  rcases h with h | ⟨hnone, h⟩
  · rw [h] at hleft ⊢
    simp only [send_empty hleft.1]
    exact ⟨hleft.2, rfl⟩
  · rw [hnone] at hleft ⊢
    obtain ⟨hatt, hbuf, hsent⟩ := hleft
    obtain ⟨hpos, hans⟩ := Option.ite_none_right_eq_some.mp h
    have hlen := lt_of_lt_of_eq hpos hbuf.symm
    rw [← hatt] at hans
    simp only [send_full (List.length_pos_iff.mp hlen), hans]
    refine ⟨?_, rfl⟩
    rw [← hsent, List.length_append]
    omega

end

lemma eq_of_sublist_of_length {text : β → List α} (hne : ∀ x, text x ≠ []) {xs ys : List β}
    (h : xs.Sublist ys) (hlen : (ys.flatMap text).length ≤ (xs.flatMap text).length) : xs = ys := by
  induction h with
  | slnil => rfl
  | @cons xs ys y h ih =>
    have hle : (xs.flatMap text).length ≤ (ys.flatMap text).length := (h.flatMap text).length_le
    have hpos := List.length_pos_iff.mpr (hne y)
    rw [List.flatMap_cons, List.length_append] at hlen
    omega
  | @cons_cons xs ys y h ih =>
    rw [List.flatMap_cons, List.flatMap_cons, List.length_append, List.length_append] at hlen
    rw [ih (by omega)]

/-! ## pieces of one size -/

def chunksAux (size : Nat) : Nat → List β → List (List β)
  | 0, _ => []
  | fuel + 1, l => if l.isEmpty then [] else l.take size :: chunksAux size fuel (l.drop size)

def chunks (size : Nat) (l : List β) : List (List β) := chunksAux size l.length l

lemma chunksAux_flatten {size : Nat} (hs : 0 < size) (fuel : Nat) (l : List β)
    (h : l.length ≤ fuel) : (chunksAux size fuel l).flatten = l := by
  induction fuel generalizing l with
  | zero =>
    rw [List.length_eq_zero_iff.mp (Nat.le_zero.mp h)]
    rfl
  | succ fuel ih =>
    rw [chunksAux]
    by_cases hl : l = []
    · rw [hl]
      rfl
    · have hlen := List.length_pos_iff.mpr hl
      have hdrop : (l.drop size).length ≤ fuel := by
        rw [List.length_drop]
        omega
      simp only [List.isEmpty_iff, hl, if_false, List.flatten_cons]
      rw [ih _ hdrop]
      exact List.take_append_drop size l

lemma chunks_flatten {size : Nat} (hs : 0 < size) (l : List β) : (chunks size l).flatten = l :=
  chunksAux_flatten hs l.length l (Nat.le_refl _)

end Buffered
