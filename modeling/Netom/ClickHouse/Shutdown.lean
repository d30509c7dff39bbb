import Netom.ClickHouse.Rows

/-!
# Events that are accepted while the writer leaves

A sender that has its permit may put its event into the queue at any time.  The writer leaves when it
has found the queue empty and then finds the stop flag set.  An event that comes in between, or later
while the end is written, is counted as accepted and is never taken from the queue.

* `FoundEmpty`, `Leaving`  the writer has found the queue empty, and will not look again;
* `Spooled`  every accepted event has a row in a sealed segment;
* `Timely`  what a step must not do;
* `spooled_iff`  a run that returns has spooled what it accepted iff its steps are timely;
* `late_event_lost`  an event that is lost.
-/

namespace Netom.ClickHouse
open Exporter List

/-- the last receive found nothing, and the stop flag has not been read yet -/
def FoundEmpty (s : Exporter) : Prop :=
  s.phase = .check ∧ s.writer.idle = true ∧ s.writer.first = false ∧ s.writer.ended = false

def Leaving (s : Exporter) : Prop := s.writer.ended = true ∨ (FoundEmpty s ∧ s.stop = true)

/-- No event comes once the writer is leaving, and the flag is not set while one waits that came after
the queue was found empty. -/
def Timely (s : Exporter) : Action → Prop
  | .enqueue o => o ∈ s.holding → s.phase.running = true → ¬ Leaving s
  | .setStop => FoundEmpty s → s.queue = []
  | _ => True

/-- a row without its number -/
def strip (e : Event) : Event := { e with seq := 0 }

def Spooled (cfg : Config) (s : Exporter) : Prop :=
  (s.accepted.map fun o => eventRow cfg o.event 0).Subperm (s.writer.sealed.flatten.map strip)

def Doomed (s : Exporter) : Prop := Leaving s ∧ s.queue ≠ []

section
variable {cfg : Config} {sha : Sha256}

/-! ## when the writer decides to leave -/

lemma pick_ended (w : Writer) (done : Bool) (now : Int) :
    (w.pick cfg done now).2.ended = (w.ended || (w.idle && !w.first && done)) := by
  unfold Writer.pick Writer.idle
  cases hp : w.pendingEvent with
  | some p => simp
  | none =>
    cases hf : w.first with
    | true => simp
    | false =>
      cases hc : w.current with
      | some e => simp
      | none => cases hd : done <;> cases he : w.ended <;> simp [he]

variable {s : Exporter}

lemma check_ended (h : Inv cfg sha s) (i : CheckInput) :
    (s.writer.check cfg sha s.stop i).2.ended =
      (s.writer.ended || (s.writer.idle && !s.writer.first && s.stop)) := by
  obtain ⟨segs, cur, hw, ha⟩ := h.parts
  have hpick : (s.writer.pick cfg (s.writer.idle && s.stop) i.now).2.ended =
      (s.writer.ended || (s.writer.idle && !s.writer.first && s.stop)) := by
    rw [pick_ended]
    cases s.writer.idle <;> simp
  rw [← hpick]
  rcases check_cases cfg sha s.writer s.stop i with
    ⟨w₁, hp, heq⟩ | ⟨e, w₁, hp, heq⟩ | ⟨e, w₁, hp, heq⟩
  · obtain ⟨rfl, -⟩ := pick_none hp
    obtain ⟨hk, -⟩ : Kept cfg sha _ (s.writer.finish (s.writer.idle && s.stop) i).2 _ ∧ _ :=
      finish_kept hw
    rw [heq, hp]
    exact hk.hand.ended
  · rw [heq, hp]
  · obtain ⟨hrows, -⟩ := pick_some hp ha
    obtain ⟨⟨p, -, hk⟩, -⟩ := record_kept (hw.of_sameRows hrows) e
    rw [heq, hp]
    exact hk.hand.ended

/-- a turn that does not wait has an event in hand, or is the first, or comes after the end -/
lemma top_check {w : Writer} {stop : Bool} {i : TopInput} (h : (w.top stop i).1 = .check) :
    ¬ ((w.top stop i).2.idle = true ∧ (w.top stop i).2.first = false ∧
      (w.top stop i).2.ended = false) := by
  unfold Writer.top at h ⊢
  split at h
  · cases h
  · split at h
    · cases h
    · simp only [] at h
      split at h
      · unfold Writer.drain at h
        split at h
        · cases h
        · split at h
          · cases h
          · cases h
      · split at h
        · cases h
        · next hexp hspace hfull hwait =>
          simp only [if_neg hexp, if_neg hspace, if_neg hfull, if_neg hwait]
          rintro ⟨h1, h2, h3⟩
          apply hwait
          rw [h1, h2, h3]
          rfl

/-! ## one step -/

lemma leaving_turn {r : Phase × Writer}
    (hph : r.1 = .check → ¬ (r.2.idle = true ∧ r.2.first = false ∧ r.2.ended = false)) :
    Leaving (s.turn r) ↔ r.2.ended = true := by
  constructor
  · rintro (he | ⟨⟨hp, hrest⟩, -⟩)
    · exact he
    · exact absurd hrest (hph hp)
  · intro he
    exact .inl he

/-- a step leaves a late event exactly if there was one, or the step is not timely -/
lemma doomed_step_iff (h : Inv cfg sha s) (a : Action) :
    Doomed (s.step cfg sha a) ↔ Doomed s ∨ ¬ Timely s a := by
  have hquiet : ∀ {p : Prop}, p → (Doomed s ∨ ¬ p ↔ Doomed s) :=
    fun hp => or_iff_left (not_not_intro hp)
  cases a with
  | acquire o =>
    refine Iff.trans ?_ (hquiet trivial).symm
    show Doomed (s.acquire cfg o) ↔ _
    unfold acquire
    split
    · rfl
    · split
      · rfl
      · rfl
  | enqueue o =>
    show Doomed (s.enqueue o) ↔ _
    unfold enqueue
    by_cases ho : o ∈ s.holding
    · rw [if_pos ho]
      simp only []
      by_cases hrun : s.phase.running = true
      · rw [if_pos hrun]
        constructor
        · rintro ⟨hl, -⟩
          exact .inr fun ht => ht ho hrun hl
        · rintro (⟨hl, -⟩ | ht)
          · exact ⟨hl, by simp⟩
          · exact ⟨by_contra fun hl => ht fun _ _ => hl, by simp⟩
      · rw [if_neg hrun]
        exact (hquiet fun _ hr => absurd hr hrun).symm
    · rw [if_neg ho]
      exact (hquiet fun ho' => absurd ho' ho).symm
  | closeBudget => exact (hquiet trivial).symm
  | setStop =>
    constructor
    · rintro ⟨he | ⟨hfe, -⟩, hq⟩
      · exact .inl ⟨.inl he, hq⟩
      · exact .inr fun ht => hq (ht hfe)
    · rintro (⟨he | ⟨hfe, -⟩, hq⟩ | ht)
      · exact ⟨.inl he, hq⟩
      · exact ⟨.inr ⟨hfe, rfl⟩, hq⟩
      · obtain ⟨hfe, hq⟩ := Classical.not_imp.mp ht
        exact ⟨.inr ⟨hfe, rfl⟩, hq⟩
  | top i =>
    refine Iff.trans ?_ (hquiet trivial).symm
    show Doomed (if s.phase = .top then _ else s) ↔ _
    split
    · next hp =>
      obtain ⟨segs, cur, hw, -⟩ := h.parts
      obtain ⟨hk, -⟩ : Kept cfg sha s.writer (s.writer.top s.stop i).2 _ ∧ _ := top_kept hw
      refine and_congr_left fun _ => ?_
      rw [leaving_turn top_check, hk.hand.ended]
      refine ⟨.inl, ?_⟩
      rintro (he | ⟨⟨hc, -⟩, -⟩)
      · exact he
      · rw [hp] at hc
        cases hc
    · rfl
  | receive =>
    refine Iff.trans ?_ (hquiet trivial).symm
    show Doomed (if s.phase = .receive then _ else s) ↔ _
    split
    · next hp =>
      -- the writer does not leave where it waits
      obtain ⟨-, -, hended⟩ := h.waits hp
      apply iff_of_false
      · unfold receive
        cases hq : s.queue with
        | nil =>
          rintro ⟨-, hne⟩
          exact hne rfl
        | cons o queue =>
          rintro ⟨he | ⟨⟨-, hidle, -⟩, -⟩, -⟩
          · exact absurd (hended.symm.trans he) Bool.false_ne_true
          · cases hidle
      · rintro ⟨he | ⟨⟨hc, -⟩, -⟩, -⟩
        · exact absurd (hended.symm.trans he) Bool.false_ne_true
        · rw [hp] at hc
          cases hc
    · rfl
  | check i =>
    refine Iff.trans ?_ (hquiet trivial).symm
    show Doomed (if s.phase = .check then _ else s) ↔ _
    split
    · next hp =>
      obtain ⟨segs, cur, hw, ha⟩ := h.parts
      have hturned : (s.writer.check cfg sha s.stop i).1.turned = true := (check_kept hw ha).2.2
      have hph : (s.writer.check cfg sha s.stop i).1 = .check → False := by
        intro hc
        rw [hc] at hturned
        cases hturned
      refine and_congr_left fun _ => ?_
      rw [leaving_turn fun hc => (hph hc).elim, check_ended h, Leaving, FoundEmpty]
      cases s.writer.ended <;> simp [hp, and_assoc]
    · rfl

lemma doomed_step (h : Inv cfg sha s) (hd : ¬ Doomed s) (a : Action) :
    ¬ Doomed (s.step cfg sha a) ↔ Timely s a := by
  rw [doomed_step_iff h, or_iff_right hd, not_not]

/-- what has come late stays in the queue -/
lemma Doomed.step (h : Inv cfg sha s) (hd : Doomed s) (a : Action) : Doomed (s.step cfg sha a) :=
  (doomed_step_iff h a).mpr (.inl hd)

/-! ## whole runs -/

lemma RowOf.strip_eq {e row : Event} (h : RowOf cfg e row) : strip row = eventRow cfg e 0 := by
  obtain ⟨h1, h2, h3, h4, h5, h6, h7, h8, h9, h10, h11, h12, h13, h14, h15⟩ := h
  simp only [strip, eventRow, h1, h2, h3, h4, h5, h6, h7, h8, h9, h10, h11, h12, h13, h14, h15]

lemma map_strip_eq {es rows : List Event} (h : Forall₂ (RowOf cfg) es rows) :
    rows.map strip = es.map (eventRow cfg · 0) := by
  induction h with
  | nil => rfl
  | cons h _ ih => rw [map_cons, map_cons, h.strip_eq, ih]

/-- what is missing from the sealed segments is what is still in the queue -/
lemma spooled_iff_queue (h : Inv cfg sha s) (hr : s.phase = .returned true) :
    Spooled cfg s ↔ s.queue = [] := by
  have hrows : _ = s.dequeued.map fun o => eventRow cfg o.event 0 :=
    (map_strip_eq (h.observed_rows hr)).trans map_map
  unfold Spooled
  constructor
  · intro hsub
    have hobs : ∀ e ∈ s.accepted.map fun o => eventRow cfg o.event 0,
        e.isObserved = true := by
      intro e he
      obtain ⟨o, -, rfl⟩ := mem_map.mp he
      exact decide_eq_true o.observed
    have hfilter := hsub.filter Event.isObserved
    have hstrip : (s.writer.sealed.flatten.map strip).filter Event.isObserved =
        s.dequeued.map fun o => eventRow cfg o.event 0 := by
      rw [← hrows, filter_map]
      rfl
    rw [filter_eq_self.mpr hobs, hstrip] at hfilter
    have hlen := hfilter.length_le
    rw [length_map, length_map, h.taken, length_append] at hlen
    exact length_eq_zero_iff.mp (by omega)
  · intro hq
    have hacc : s.accepted = s.dequeued := by rw [h.taken, hq, append_nil]
    rw [hacc, ← hrows]
    exact (filter_sublist.map strip).subperm

/-- **A run in which the writer returns has spooled every event that it accepted, iff no event comes
into the queue after the writer found it empty and before it returns, other than one before a look at
the stop flag that finds it unset.** -/
theorem spooled_iff (cfg : Config) (sha : Sha256) (acts : List Action)
    (hr : (runExporter cfg sha acts).phase = .returned true) :
    Spooled cfg (runExporter cfg sha acts) ↔
      Run.Along (Exporter.step cfg sha) Timely Exporter.new acts := by
  have hinv : ∀ acts, Inv cfg sha (runExporter cfg sha acts) := inv_run cfg sha
  have hnew : Inv cfg sha new ∧ ¬ Doomed new := by
    refine ⟨inv_new cfg sha, ?_⟩
    rintro ⟨-, hq⟩
    exact hq rfl
  have hstep : ∀ s a, Inv cfg sha s ∧ ¬ Doomed s →
      ((Inv cfg sha (step cfg sha s a) ∧ ¬ Doomed (step cfg sha s a)) ↔
        Timely s a) := by
    rintro s a ⟨hi, hd⟩
    rw [doomed_step hi hd a]
    exact and_iff_right (inv_step hi a)
  rw [← Run.along_iff hstep hnew acts, spooled_iff_queue (hinv acts) hr]
  have hended := ((hinv acts).returned hr).1
  constructor
  · intro hq acts' hp
    refine ⟨hinv acts', ?_⟩
    intro hd
    -- an event that had come late would still be in the queue
    obtain ⟨rest, rfl⟩ := hp
    have hend : Doomed (Run.run (step cfg sha) (runExporter cfg sha acts') rest) := by
      have hkeep : ∀ s a, Inv cfg sha s ∧ Doomed s →
          Inv cfg sha (step cfg sha s a) ∧ Doomed (step cfg sha s a) :=
        fun s a hs => ⟨inv_step hs.1 a, hs.2.step hs.1 a⟩
      exact (Run.run_keeps hkeep ⟨hinv acts', hd⟩ rest).2
    have happ : runExporter cfg sha (acts' ++ rest) =
        Run.run (step cfg sha) (runExporter cfg sha acts') rest := Run.run_append _ _ _ _
    rw [← happ] at hend
    exact hend.2 hq
  · intro h
    by_contra hq
    exact (h acts (prefix_refl acts)).2 ⟨.inl hended, hq⟩

end

/-! ## a late event -/

instance (s : Exporter) : Decidable (FoundEmpty s) :=
  inferInstanceAs (Decidable (s.phase = .check ∧ s.writer.idle = true ∧ s.writer.first = false ∧
    s.writer.ended = false))

instance (s : Exporter) : Decidable (Leaving s) :=
  inferInstanceAs (Decidable (s.writer.ended = true ∨ (FoundEmpty s ∧ s.stop = true)))

instance (s : Exporter) : (a : Action) → Decidable (Timely s a)
  | .enqueue o =>
    inferInstanceAs (Decidable (o ∈ s.holding → s.phase.running = true → ¬ Leaving s))
  | .setStop => inferInstanceAs (Decidable (FoundEmpty s → s.queue = []))
  | .acquire _ | .closeBudget | .top _ | .receive | .check _ => .isTrue trivial

theorem spooled_sampleRun :
    (runExporter sampleConfig headSha sampleRun).phase = .returned true ∧
      Spooled sampleConfig (runExporter sampleConfig headSha sampleRun) := by
  have hr : (runExporter sampleConfig headSha sampleRun).phase = .returned true := by decide +kernel
  exact ⟨hr, (spooled_iff sampleConfig headSha sampleRun hr).mpr (by decide +kernel)⟩

/-- the sender has its permit before the budget is closed; its event comes when the writer has found
the queue empty -/
def lateRun : List Action :=
  [.top smoothTop, .check smoothCheck, .acquire (sampleEvent "a"), .top smoothTop, .receive,
    .closeBudget, .setStop, .enqueue (sampleEvent "a"), .check smoothCheck]

/-- the event is accepted and the end is written, but the event is in no segment -/
theorem late_event_lost :
    (runExporter sampleConfig headSha lateRun).phase = .returned true ∧
      (runExporter sampleConfig headSha lateRun).accepted = [sampleEvent "a"] ∧
      ((runExporter sampleConfig headSha lateRun).writer.sealed.flatten.map (·.kind)) = [7, 8] ∧
      ¬ Spooled sampleConfig (runExporter sampleConfig headSha lateRun) := by
  have hr : (runExporter sampleConfig headSha lateRun).phase = .returned true := by decide +kernel
  refine ⟨hr, by decide +kernel, by decide +kernel, ?_⟩
  rw [spooled_iff_queue (inv_run sampleConfig headSha lateRun) hr]
  decide +kernel

end Netom.ClickHouse
