import Netom.ClickHouse.Writer

/-!
# The rows of a run

Each event becomes one row, with a row before it that introduces its peer where the segment has none
yet.  `Part` is an event with the rows that were made of it.

* `Wrote`  the segments hold the rows of these parts, numbered without a gap;
* `Accounts`  the events that were written, and those that wait, are those that were dequeued;
* `Wrote.record`, `Wrote.sealSegment`, `pick_some`  what one turn does;
* `inv_run`  both hold in every run;
* `rows_of_returned`  the sealed rows of a writer that returned.
-/

namespace Netom.ClickHouse
open List Writer

structure Part where
  event : Event
  /-- the row that introduces the peer, where one was written -/
  identity : Option Event
  row : Event

def Part.rows (p : Part) : List Event := p.identity.toList ++ [p.row]

section
variable (cfg : Config) (sha : Sha256)

/-- only an event with a peer introduces it -/
structure Part.Made (p : Part) : Prop where
  row : RowOf cfg p.event p.row
  identity : ∀ r ∈ p.identity, IdentityOf cfg p.event r ∧ p.event.peer ≠ 0

/-- a part that introduces the peer of a key -/
def Introduces (key : SeenKey) (p : Part) : Prop := p.identity ≠ none ∧ seenKey sha p.event = key

/-- every event with a peer has a part that introduces it, itself or one before -/
def Introduced (seg : List Part) : Prop :=
  ∀ before p after, seg = before ++ p :: after → p.event.peer ≠ 0 →
    ∃ p' ∈ before ++ [p], Introduces sha (seenKey sha p.event) p'

def Writer.openRows (w : Writer) : List Event := w.segment.getD [] ++ w.frame

/-- the sealed segments have the rows of `segs`, the open one and the frame those of `cur` -/
structure Wrote (w : Writer) (segs : List (List Part)) (cur : List Part) : Prop where
  sealed_rows : w.sealed = segs.map (·.flatMap Part.rows)
  open_rows : w.openRows = cur.flatMap Part.rows
  seqs : (w.sealed.flatten ++ w.openRows).map (·.seq) = range w.seq
  noSegment : w.segment = none → w.frame = []
  sealed_introduced : ∀ seg ∈ segs, Introduced sha seg
  open_introduced : Introduced sha cur
  made : ∀ p ∈ segs.flatten ++ cur, p.Made cfg
  seen : ∀ key ∈ w.seen, ∃ p ∈ cur, Introduces sha key p

variable {cfg sha} {w w' : Writer} {segs : List (List Part)} {cur : List Part}

lemma flatMap_rows_eq_nil (h : cur.flatMap Part.rows = []) : cur = [] := by
  cases cur with
  | nil => rfl
  | cons p cur =>
    rw [flatMap_cons, append_eq_nil_iff] at h
    exact absurd h.1 (by simp [Part.rows])

lemma Introduced.nil : Introduced sha [] := by
  intro before p after h
  simp at h

lemma Introduced.append {p : Part} (h : Introduced sha cur)
    (hp : p.event.peer ≠ 0 → ∃ p' ∈ cur ++ [p], Introduces sha (seenKey sha p.event) p') :
    Introduced sha (cur ++ [p]) := by
  intro before q after heq hq
  rcases eq_nil_or_concat after with rfl | ⟨after', q', rfl⟩
  · obtain ⟨rfl, hpq⟩ := append_inj' heq rfl
    cases hpq
    exact hp hq
  · have heq' : cur ++ [p] = (before ++ q :: after') ++ [q'] := by simpa using heq
    obtain ⟨hcur, -⟩ := append_inj' heq' rfl
    exact h before q after' hcur hq

/-! ## writing -/

lemma Wrote.congr (h : Wrote cfg sha w segs cur) (hs : w'.segment = w.segment)
    (hf : w'.frame = w.frame) (hseen : w'.seen = w.seen) (hseq : w'.seq = w.seq)
    (hsealed : w'.sealed = w.sealed) : Wrote cfg sha w' segs cur := by
  have hopen : w'.openRows = w.openRows := by
    unfold openRows
    rw [hs, hf]
  refine ⟨?_, ?_, ?_, ?_, h.sealed_introduced, h.open_introduced, h.made, ?_⟩
  · rw [hsealed]
    exact h.sealed_rows
  · rw [hopen]
    exact h.open_rows
  · rw [hsealed, hopen, hseq]
    exact h.seqs
  · rw [hs, hf]
    exact h.noSegment
  · rw [hseen]
    exact h.seen

lemma openRows_appended (w : Writer) : w.appended.openRows = w.openRows := by
  unfold appended
  cases hs : w.segment with
  | none => rfl
  | some rows =>
    unfold openRows
    rw [hs]
    exact append_nil _

lemma Wrote.appended (h : Wrote cfg sha w segs cur) :
    Wrote cfg sha w.appended segs cur ∧ w.appended.frame = [] := by
  have hopen := openRows_appended w
  cases hs : w.segment with
  | none =>
    have hw : w.appended = w := by
      unfold Writer.appended
      rw [hs]
    rw [hw]
    exact ⟨h, h.noSegment hs⟩
  | some rows =>
    have hw : w.appended = { w with segment := some (rows ++ w.frame), frame := [] } := by
      unfold Writer.appended
      rw [hs]
    rw [hw] at hopen ⊢
    refine ⟨⟨h.sealed_rows, ?_, ?_, fun _ => rfl, h.sealed_introduced, h.open_introduced, h.made,
      h.seen⟩, rfl⟩
    · rw [hopen]
      exact h.open_rows
    · rw [hopen]
      exact h.seqs

lemma Wrote.sealSegment (h : Wrote cfg sha w segs cur) (hf : w.frame = []) :
    ∃ segs', Wrote cfg sha w.sealSegment segs' [] ∧ segs'.flatten = segs.flatten ++ cur ∧
      w.sealSegment.segment = none := by
  cases hs : w.segment with
  | none =>
    have hw : w.sealSegment = w := by
      unfold Writer.sealSegment
      rw [hs]
    have hcur : cur = [] := by
      apply flatMap_rows_eq_nil
      rw [← h.open_rows]
      unfold openRows
      rw [hs, hf]
      rfl
    subst hcur
    rw [hw]
    exact ⟨segs, h, (append_nil _).symm, hs⟩
  | some rows =>
    have hw : w.sealSegment =
        { w with segment := none, seen := ∅, sealed := w.sealed ++ [rows] } := by
      unfold Writer.sealSegment
      rw [hs]
    have hopen : w.openRows = rows := by
      unfold openRows
      rw [hs, hf]
      exact append_nil _
    have hempty : openRows { w with segment := none, seen := ∅, sealed := w.sealed ++ [rows] } =
        [] := hf
    have hflat : (segs ++ [cur]).flatten = segs.flatten ++ cur := by
      rw [flatten_append, flatten_singleton]
    rw [hw]
    refine ⟨segs ++ [cur], ⟨?_, ?_, ?_, fun _ => hf, ?_, Introduced.nil, ?_, ?_⟩, hflat, rfl⟩
    · rw [map_append, h.sealed_rows, ← hopen, h.open_rows]
      rfl
    · rw [hempty]
      rfl
    · rw [hempty, append_nil, flatten_append, flatten_singleton, ← hopen]
      exact h.seqs
    · intro seg hseg
      rcases mem_append.mp hseg with hseg | hseg
      · exact h.sealed_introduced seg hseg
      · rw [mem_singleton.mp hseg]
        exact h.open_introduced
    · rw [hflat, append_nil]
      exact h.made
    · intro key hkey
      exact absurd hkey (Finset.notMem_empty key)

lemma Wrote.push (h : Wrote cfg sha w segs cur) (hs : w.segment ≠ none) {p : Part} {n : Nat}
    {seen : Finset SeenKey} (hp : p.Made cfg)
    (hseq : range w.seq ++ p.rows.map (·.seq) = range n)
    (hseen : ∀ key ∈ seen, key ∈ w.seen ∨ Introduces sha key p)
    (hpeer : p.event.peer ≠ 0 → seenKey sha p.event ∈ w.seen ∨ p.identity ≠ none) :
    Wrote cfg sha { w with frame := w.frame ++ p.rows, seq := n, seen := seen } segs
      (cur ++ [p]) := by
  have hopen : openRows { w with frame := w.frame ++ p.rows, seq := n, seen := seen } =
      w.openRows ++ p.rows := (append_assoc _ _ _).symm
  have hfind : ∀ key, key ∈ w.seen ∨ Introduces sha key p →
      ∃ p' ∈ cur ++ [p], Introduces sha key p' := by
    rintro key (hkey | hi)
    · obtain ⟨p', hp', hi⟩ := h.seen key hkey
      exact ⟨p', mem_append_left _ hp', hi⟩
    · exact ⟨p, mem_append_right _ mem_cons_self, hi⟩
  refine ⟨h.sealed_rows, ?_, ?_, fun hn => absurd hn hs, h.sealed_introduced,
    h.open_introduced.append fun h0 => hfind _ ((hpeer h0).imp_right (⟨·, rfl⟩)), ?_,
    fun key hkey => hfind key (hseen key hkey)⟩
  · rw [hopen, h.open_rows, flatMap_append, flatMap_singleton]
  · rw [hopen, ← append_assoc, map_append, h.seqs, hseq]
  · rw [← append_assoc]
    exact forall_mem_append.mpr ⟨h.made, forall_mem_singleton.mpr hp⟩

lemma Wrote.record (h : Wrote cfg sha w segs cur) (hs : w.segment ≠ none) (e : Event) :
    ∃ p : Part, p.event = e ∧ Wrote cfg sha (w.record cfg sha e) segs (cur ++ [p]) := by
  by_cases hnew : e.peer ≠ 0 ∧ seenKey sha e ∉ w.seen
  · let p : Part := ⟨e, some (identityRow cfg e w.seq), eventRow cfg e (w.seq + 1)⟩
    have hw : w.record cfg sha e =
        { w with
          frame := w.frame ++ [identityRow cfg e w.seq, eventRow cfg e (w.seq + 1)]
          seq := w.seq + 1 + 1
          seen := if 65536 ≤ (insert (seenKey sha e) w.seen).card then ∅
            else insert (seenKey sha e) w.seen } := by
      unfold Writer.record Writer.introduce Writer.addRow
      simp only [if_pos hnew, append_assoc]
      rfl
    have hne : p.identity ≠ none := Option.some_ne_none _
    rw [hw]
    refine ⟨p, rfl, h.push hs ⟨rowOf_eventRow cfg e _, ?_⟩ ?_ ?_ fun _ => .inr hne⟩
    · rintro r ⟨⟩
      exact ⟨identityOf_identityRow cfg e _, hnew.1⟩
    · rw [range_succ, range_succ, append_assoc]
      rfl
    · intro key hkey
      split at hkey
      · exact absurd hkey (Finset.notMem_empty key)
      · rcases Finset.mem_insert.mp hkey with rfl | hold
        · exact .inr ⟨hne, rfl⟩
        · exact .inl hold
  · let p : Part := ⟨e, none, eventRow cfg e w.seq⟩
    have hw : w.record cfg sha e =
        { w with frame := w.frame ++ [eventRow cfg e w.seq], seq := w.seq + 1 } := by
      unfold Writer.record Writer.introduce Writer.addRow
      simp only [if_neg hnew]
    rw [hw]
    have hseq : range w.seq ++ p.rows.map (·.seq) = range (w.seq + 1) := range_succ.symm
    refine ⟨p, rfl, h.push hs ⟨rowOf_eventRow cfg e _, ?_⟩ hseq (fun key hkey => .inl hkey)
      fun hpeer => ?_⟩
    · intro r hr
      cases hr
    · -- the key is in the set, so the segment has a part that introduces it
      by_contra hnot
      exact hnew ⟨hpeer, fun hin => hnot (.inl hin)⟩

/-! ## which events are written -/

/-- the events that are written, and those in hand, are the start, the dequeued ones and the end -/
structure Accounts (cfg : Config) (w : Writer) (dequeued written : List Event) : Prop where
  total : ∃ t₀ t₁, written ++ (w.pendingEvent.toList ++ w.current.toList) =
    (if w.first then [] else [startEvent cfg t₀]) ++
      (dequeued ++ if w.ended then [endEvent cfg t₁] else [])
  pending : w.pendingEvent ≠ none → w.current = none
  ended : w.ended = true → w.current = none ∧ w.first = false
  first : w.first = true → w.pendingEvent = none ∧ w.current = none ∧ dequeued = []

/-- nothing but the rows and the disk changed -/
structure SameHand (w w' : Writer) : Prop where
  current : w'.current = w.current
  first : w'.first = w.first
  ended : w'.ended = w.ended
  pendingEvent : w'.pendingEvent = w.pendingEvent

lemma SameHand.rfl : SameHand w w := ⟨Eq.refl _, Eq.refl _, Eq.refl _, Eq.refl _⟩

lemma SameHand.trans {w'' : Writer} (h : SameHand w w') (h' : SameHand w' w'') : SameHand w w'' :=
  ⟨h'.current.trans h.current, h'.first.trans h.first, h'.ended.trans h.ended,
    h'.pendingEvent.trans h.pendingEvent⟩

lemma Accounts.congr {d written : List Event} (h : Accounts cfg w d written) (hh : SameHand w w') :
    Accounts cfg w' d written := by
  refine ⟨?_, ?_, ?_, ?_⟩
  · rw [hh.pendingEvent, hh.current, hh.first, hh.ended]
    exact h.total
  · rw [hh.pendingEvent, hh.current]
    exact h.pending
  · rw [hh.ended, hh.current, hh.first]
    exact h.ended
  · rw [hh.first, hh.pendingEvent, hh.current]
    exact h.first

lemma sameHand_appended (w : Writer) : SameHand w w.appended := by
  unfold appended
  cases w.segment with
  | none => exact SameHand.rfl
  | some rows => exact ⟨rfl, rfl, rfl, rfl⟩

lemma sameHand_sealSegment (w : Writer) : SameHand w w.sealSegment := by
  unfold sealSegment
  cases w.segment with
  | none => exact SameHand.rfl
  | some rows => exact ⟨rfl, rfl, rfl, rfl⟩

lemma sameHand_record (w : Writer) (e : Event) : SameHand w (w.record cfg sha e) := by
  unfold record introduce addRow
  split
  · exact ⟨rfl, rfl, rfl, rfl⟩
  · exact ⟨rfl, rfl, rfl, rfl⟩

/-- what `pick` leaves as it is -/
structure SameRows (w w' : Writer) : Prop where
  segment : w'.segment = w.segment
  frame : w'.frame = w.frame
  seen : w'.seen = w.seen
  seq : w'.seq = w.seq
  sealed : w'.sealed = w.sealed

lemma Wrote.of_sameRows (h : Wrote cfg sha w segs cur) (hr : SameRows w w') :
    Wrote cfg sha w' segs cur := h.congr hr.segment hr.frame hr.seen hr.seq hr.sealed

variable {done : Bool}

lemma pick_none {now : Int} (h : w.pick cfg done now = (none, w')) :
    w' = w ∧ (done = true → w.idle = true → w.ended = true) := by
  unfold pick at h
  split at h
  · next hp =>
    obtain ⟨e, he⟩ := Option.isSome_iff_exists.mp hp
    rw [he] at h
    cases h
  · split at h
    · cases h
    · split at h
      · cases h
      · split at h
        · cases h
        · next hne =>
          cases h
          refine ⟨rfl, ?_⟩
          intro hd _
          cases hw : w.ended with
          | true => rfl
          | false =>
            rw [hd, hw] at hne
            exact absurd rfl hne

/-- an event that waits for a segment -/
lemma Accounts.hold {e : Event} {d written : List Event} (hc : w.current = none)
    (hf : w.first = false) (t₀ t₁ : Int)
    (ht : written ++ [e] =
      startEvent cfg t₀ :: (d ++ if w.ended then [endEvent cfg t₁] else [])) :
    Accounts cfg { w with pendingEvent := some e } d written := by
  refine ⟨⟨t₀, t₁, ?_⟩, fun _ => hc, fun _ => ⟨hc, hf⟩, fun h => ?_⟩
  · simp [hc, hf, ht]
  · exact absurd (hf.symm.trans h) Bool.false_ne_true

lemma Accounts.written {e : Event} {d written : List Event}
    (h : Accounts cfg { w with pendingEvent := some e } d written) (hp : w.pendingEvent = none) :
    Accounts cfg w d (written ++ [e]) := by
  obtain ⟨t₀, t₁, ht⟩ := h.total
  refine ⟨⟨t₀, t₁, ?_⟩, fun hne => absurd hp hne, h.ended, fun hf => ?_⟩
  · rw [hp, append_assoc]
    exact ht
  · exact absurd (h.first hf).1 (Option.some_ne_none e)

/-- an event that is picked is held, to be written next or kept -/
lemma pick_some {now : Int} {e : Event} {d written : List Event}
    (h : w.pick cfg done now = (some e, w')) (ha : Accounts cfg w d written) :
    SameRows w w' ∧ Accounts cfg { w' with pendingEvent := some e } d written ∧
      w'.current = none ∧ w'.pendingEvent = none := by
  obtain ⟨t₀, t₁, htotal⟩ := ha.total
  unfold pick at h
  split at h
  · next hp =>
    obtain ⟨p, hpe⟩ := Option.isSome_iff_exists.mp hp
    have hne : w.pendingEvent ≠ none := Option.isSome_iff_ne_none.mp hp
    have hcur := ha.pending hne
    have hf : w.first = false := Bool.eq_false_iff.mpr fun hf => hne (ha.first hf).1
    rw [hpe] at h
    cases h
    rw [hpe, hcur, hf] at htotal
    exact ⟨⟨rfl, rfl, rfl, rfl, rfl⟩, .hold hcur hf t₀ t₁ htotal, hcur, rfl⟩
  · next hp =>
    have hpn : w.pendingEvent = none := Option.not_isSome_iff_eq_none.mp hp
    split at h
    · next hf =>
      obtain ⟨-, hcur, rfl⟩ := ha.first hf
      have hend : w.ended = false := Bool.eq_false_iff.mpr fun hw =>
        absurd ((ha.ended hw).2.symm.trans hf) Bool.false_ne_true
      cases h
      refine ⟨⟨rfl, rfl, rfl, rfl, rfl⟩, .hold hcur rfl now t₁ ?_, hcur, hpn⟩
      rw [hpn, hcur, hf, hend] at htotal
      rw [append_eq_nil_iff.mp htotal |>.1, hend]
      rfl
    · next hf =>
      have hf' : w.first = false := Bool.not_eq_true _ ▸ hf
      rw [hpn, hf'] at htotal
      split at h
      · next c hcur =>
        cases h
        rw [hcur] at htotal
        exact ⟨⟨rfl, rfl, rfl, rfl, rfl⟩, .hold rfl hf' t₀ t₁ htotal, rfl, hpn⟩
      · next hcur =>
        split at h
        · next hd =>
          cases h
          rw [Bool.and_eq_true, Bool.not_eq_true'] at hd
          refine ⟨⟨rfl, rfl, rfl, rfl, rfl⟩, .hold hcur hf' t₀ now ?_, hcur, hpn⟩
          rw [hcur, hd.2] at htotal
          simp only [Option.toList_none, append_nil, Bool.false_eq_true, if_false] at htotal
          rw [htotal]
          rfl
        · cases h

/-! ## one turn -/

/-- what a part of a turn leaves: the rows of the same parts, and the same events in hand -/
structure Kept (cfg : Config) (sha : Sha256) (w w' : Writer) (parts : List Part) : Prop where
  wrote : ∃ segs cur, Wrote cfg sha w' segs cur ∧ segs.flatten ++ cur = parts
  hand : SameHand w w'

lemma Wrote.kept (h : Wrote cfg sha w segs cur) : Kept cfg sha w w (segs.flatten ++ cur) :=
  ⟨⟨segs, cur, h, rfl⟩, SameHand.rfl⟩

/-- the end of a run: everything is sealed -/
def AllSealed (done : Bool) (r : Phase × Writer) : Prop :=
  r.1 = .returned true → done = true ∧ r.2.ended = true ∧ r.2.segment = none ∧ r.2.frame = []

def Phase.turned : Phase → Bool
  | .top | .returned _ => true
  | .receive | .check => false

lemma AllSealed.of_ne {r : Phase × Writer} (h : r.1 ≠ .returned true) :
    AllSealed done r := fun hr => absurd hr h

variable {i : CheckInput}

lemma close_kept {sealNow : Bool} (h : Wrote cfg sha w segs cur)
    (hf : sealNow = true → w.frame = []) (hd : done = true → sealNow = true) :
    Kept cfg sha w (w.close done sealNow i).2 (segs.flatten ++ cur) ∧
      AllSealed done (w.close done sealNow i) ∧ (w.close done sealNow i).1.turned = true := by
  have hsame := h.kept
  have hfail : AllSealed done (Phase.returned false, w) := .of_ne (nomatch ·)
  unfold close
  split
  · exact ⟨hsame, hfail, rfl⟩
  · split
    · exact ⟨hsame, hfail, rfl⟩
    · split
      · exact ⟨hsame, hfail, rfl⟩
      · cases hs : sealNow with
        | true =>
          have hframe := hf hs
          obtain ⟨segs', hw', hflat, hnone⟩ := h.sealSegment hframe
          have hkept : Kept cfg sha w w.sealSegment (segs.flatten ++ cur) :=
            ⟨⟨segs', [], hw', by rw [append_nil, hflat]⟩, sameHand_sealSegment w⟩
          simp only [if_true]
          split
          · next hde =>
            rw [Bool.and_eq_true] at hde
            exact ⟨hkept, fun _ => ⟨hde.1, hde.2, hnone, hw'.noSegment hnone⟩, rfl⟩
          · exact ⟨hkept, .of_ne Phase.noConfusion, rfl⟩
        | false =>
          have hdone : done = false := by
            cases hdn : done with
            | false => rfl
            | true =>
              have := hd hdn
              rw [hs] at this
              cases this
          rw [hdone]
          exact ⟨hsame, .of_ne Phase.noConfusion, rfl⟩

lemma finish_kept (h : Wrote cfg sha w segs cur) :
    Kept cfg sha w (w.finish done i).2 (segs.flatten ++ cur) ∧
      AllSealed done (w.finish done i) ∧ (w.finish done i).1.turned = true := by
  have hd : done = true → (w.segment.isSome && i.due || done) = true := by
    intro hd
    rw [hd, Bool.or_true]
  have hsame := h.kept
  unfold finish
  by_cases hfl : (!w.frame.isEmpty && (i.flush || (w.segment.isSome && i.due || done))) = true
  · simp only [if_pos hfl]
    split
    · exact ⟨hsame, .of_ne (nomatch ·), rfl⟩
    · split
      · exact ⟨⟨⟨segs, cur, h.of_sameRows ⟨rfl, rfl, rfl, rfl, rfl⟩, rfl⟩, ⟨rfl, rfl, rfl, rfl⟩⟩,
          .of_ne Phase.noConfusion, rfl⟩
      · split
        · exact ⟨hsame, .of_ne (nomatch ·), rfl⟩
        · obtain ⟨hw, hframe⟩ := h.appended
          obtain ⟨hk, hall, hph⟩ := close_kept (i := i) hw (fun _ => hframe) hd
          exact ⟨⟨hk.wrote, (sameHand_appended w).trans hk.hand⟩, hall, hph⟩
  · simp only [if_neg hfl]
    refine close_kept h ?_ hd
    intro hs
    rw [hs, Bool.or_true, Bool.and_true] at hfl
    simpa using hfl

lemma drain_kept {i : TopInput} (h : Wrote cfg sha w segs cur) :
    Kept cfg sha w (w.drain i).2 (segs.flatten ++ cur) ∧
      (w.drain i).1 ≠ .returned true ∧ (w.drain i).1 ≠ .receive := by
  have hsame := h.kept
  unfold drain
  split
  · exact ⟨hsame, Phase.noConfusion, Phase.noConfusion⟩
  · split
    · exact ⟨hsame, (nomatch ·), Phase.noConfusion⟩
    · obtain ⟨hw, hframe⟩ := h.appended
      obtain ⟨segs', hw', hflat, hnone⟩ := hw.sealSegment hframe
      exact ⟨⟨⟨segs', [], hw', by rw [append_nil, hflat]⟩,
        (sameHand_appended w).trans (sameHand_sealSegment _)⟩, Phase.noConfusion, Phase.noConfusion⟩

/-- what is known of a writer that is about to wait -/
def Waits (w : Writer) : Prop := w.idle = true ∧ w.first = false ∧ w.ended = false

lemma top_kept {stop : Bool} {i : TopInput} (h : Wrote cfg sha w segs cur) :
    Kept cfg sha w (w.top stop i).2 (segs.flatten ++ cur) ∧ (w.top stop i).1 ≠ .returned true ∧
      ((w.top stop i).1 = .receive → Waits (w.top stop i).2) := by
  have hsame := h.kept
  unfold top
  split
  · exact ⟨hsame, (nomatch ·), fun hr => by cases hr⟩
  · split
    · exact ⟨hsame, (nomatch ·), fun hr => by cases hr⟩
    · have h' : Wrote cfg sha { w with full := i.space.getD w.full } segs cur :=
        h.of_sameRows ⟨rfl, rfl, rfl, rfl, rfl⟩
      have hsame' : SameHand w { w with full := i.space.getD w.full } := ⟨rfl, rfl, rfl, rfl⟩
      simp only []
      split
      · obtain ⟨hk, hret, hrec⟩ := drain_kept (i := i) h'
        exact ⟨⟨hk.wrote, hsame'.trans hk.hand⟩, hret, fun hr => absurd hr hrec⟩
      · split
        · next hw =>
          simp only [Bool.and_eq_true, Bool.not_eq_true'] at hw
          exact ⟨⟨⟨segs, cur, h', rfl⟩, hsame'⟩, Phase.noConfusion, fun _ => ⟨hw.1.1, hw.1.2, hw.2⟩⟩
        · exact ⟨⟨⟨segs, cur, h', rfl⟩, hsame'⟩, Phase.noConfusion, fun hr => by cases hr⟩

lemma check_cases (cfg : Config) (sha : Sha256) (w : Writer) (stop : Bool) (i : CheckInput) :
    (∃ w₁, w.pick cfg (w.idle && stop) i.now = (none, w₁) ∧
      w.check cfg sha stop i = w₁.finish (w.idle && stop) i) ∨
    (∃ e w₁, w.pick cfg (w.idle && stop) i.now = (some e, w₁) ∧
      w.check cfg sha stop i = (.top, { w₁ with pendingEvent := some e })) ∨
    ∃ e w₁, w.pick cfg (w.idle && stop) i.now = (some e, w₁) ∧
      w.check cfg sha stop i = (w₁.withSegment.record cfg sha e).finish (w.idle && stop) i := by
  dsimp only [Writer.check]
  rcases hp : w.pick cfg (w.idle && stop) i.now with ⟨_ | e, w₁⟩
  · exact .inl ⟨w₁, rfl, rfl⟩
  · right
    by_cases hc : (w₁.segment.isNone && !i.createOk) = true
    · exact .inl ⟨e, w₁, rfl, if_pos hc⟩
    · exact .inr ⟨e, w₁, rfl, if_neg hc⟩

lemma Wrote.withSegment (h : Wrote cfg sha w segs cur) : Wrote cfg sha w.withSegment segs cur := by
  refine ⟨h.sealed_rows, h.open_rows, h.seqs, ?_, h.sealed_introduced, h.open_introduced, h.made,
    h.seen⟩
  intro hn
  cases hn

lemma record_kept (h : Wrote cfg sha w segs cur) (e : Event) :
    let r := (w.withSegment.record cfg sha e).finish done i
    (∃ p : Part, p.event = e ∧ Kept cfg sha w r.2 (segs.flatten ++ (cur ++ [p]))) ∧
      AllSealed done r ∧ r.1.turned = true := by
  intro r
  have hne : w.withSegment.segment ≠ none := by
    intro hn
    cases hn
  obtain ⟨p, hp, hrec⟩ := h.withSegment.record hne e
  obtain ⟨hk, hall, hph⟩ : Kept cfg sha _ r.2 _ ∧ _ := finish_kept hrec
  have hhand : SameHand w w.withSegment := ⟨rfl, rfl, rfl, rfl⟩
  exact ⟨⟨p, hp, hk.wrote, (hhand.trans (sameHand_record _ e)).trans hk.hand⟩, hall, hph⟩

/-- what is known of a writer that has returned -/
def Returned (w : Writer) : Prop :=
  w.ended = true ∧ w.segment = none ∧ w.frame = [] ∧ w.idle = true

lemma idle_congr (h : SameHand w w') : w'.idle = w.idle := by
  unfold idle
  rw [h.current, h.pendingEvent]

/-- one event more is written, or kept for the next turn, or there is none -/
lemma check_kept {stop : Bool} {d : List Event} (h : Wrote cfg sha w segs cur)
    (ha : Accounts cfg w d ((segs.flatten ++ cur).map (·.event))) :
    (∃ segs' cur', Wrote cfg sha (w.check cfg sha stop i).2 segs' cur' ∧
      Accounts cfg (w.check cfg sha stop i).2 d ((segs'.flatten ++ cur').map (·.event))) ∧
      ((w.check cfg sha stop i).1 = .returned true → Returned (w.check cfg sha stop i).2) ∧
      (w.check cfg sha stop i).1.turned = true := by
  rcases check_cases cfg sha w stop i with ⟨w₁, hp, heq⟩ | ⟨e, w₁, hp, heq⟩ | ⟨e, w₁, hp, heq⟩
  · obtain ⟨rfl, -⟩ := pick_none hp
    rw [heq]
    obtain ⟨⟨⟨segs', cur', hw', hparts⟩, hhand⟩, hall, hph⟩ :
        Kept cfg sha w₁ (w₁.finish (w₁.idle && stop) i).2 (segs.flatten ++ cur) ∧ _ := finish_kept h
    refine ⟨⟨segs', cur', hw', ?_⟩, ?_, hph⟩
    · rw [hparts]
      exact ha.congr hhand
    · intro hr
      obtain ⟨hdone, hend, hseg, hframe⟩ := hall hr
      rw [Bool.and_eq_true] at hdone
      exact ⟨hend, hseg, hframe, (idle_congr hhand).trans hdone.1⟩
  · obtain ⟨hrows, hheld, -⟩ := pick_some hp ha
    rw [heq]
    refine ⟨⟨segs, cur, (h.of_sameRows hrows).of_sameRows ⟨rfl, rfl, rfl, rfl, rfl⟩, hheld⟩, ?_,
      rfl⟩
    intro hr
    cases hr
  · obtain ⟨hrows, hheld, hc, hpn⟩ := pick_some hp ha
    rw [heq]
    obtain ⟨⟨p, rfl, ⟨segs', cur', hw', hparts⟩, hhand⟩, hall, hph⟩ :=
      record_kept (h.of_sameRows hrows) e
    refine ⟨⟨segs', cur', hw', ?_⟩, ?_, hph⟩
    · rw [hparts, ← append_assoc, map_append]
      exact (hheld.written hpn).congr hhand
    · intro hr
      obtain ⟨-, hend, hseg, hframe⟩ := hall hr
      have hidle : w₁.idle = true := by
        rw [idle, hc, hpn]
        rfl
      exact ⟨hend, hseg, hframe, (idle_congr hhand).trans hidle⟩

/-! ## whole runs -/

variable (cfg sha) in
/-- the rows and the events of an exporter agree -/
structure Inv (s : Exporter) : Prop where
  parts : ∃ segs cur, Wrote cfg sha s.writer segs cur ∧
    Accounts cfg s.writer (s.dequeued.map (·.event)) ((segs.flatten ++ cur).map (·.event))
  waits : s.phase = .receive → Waits s.writer
  returned : s.phase = .returned true → Returned s.writer
  taken : s.accepted = s.dequeued ++ s.queue

variable (cfg sha) in
lemma inv_new : Inv cfg sha Exporter.new := by
  refine ⟨⟨[], [], ⟨rfl, rfl, rfl, fun _ => rfl, forall_mem_nil _, Introduced.nil, ?_, ?_⟩,
    ⟨⟨0, 0, rfl⟩, fun _ => rfl, ?_, fun _ => ⟨rfl, rfl, rfl⟩⟩⟩, ?_, ?_, rfl⟩
  · intro p hp
    cases hp
  · intro key hkey
    exact absurd hkey (Finset.notMem_empty key)
  · intro h
    cases h
  · intro h
    cases h
  · intro h
    cases h

variable {s : Exporter}

lemma inv_receive (h : Inv cfg sha s) (hp : s.phase = .receive) : Inv cfg sha s.receive := by
  obtain ⟨segs, cur, hw, ha⟩ := h.parts
  obtain ⟨hidle, hfirst, hended⟩ := h.waits hp
  unfold idle at hidle
  rw [Bool.and_eq_true, Option.isNone_iff_eq_none, Option.isNone_iff_eq_none] at hidle
  unfold Exporter.receive
  cases hq : s.queue with
  | nil =>
    refine ⟨⟨segs, cur, hw, ha⟩, ?_, ?_, ?_⟩
    · intro hr
      cases hr
    · intro hr
      cases hr
    · rw [h.taken, hq]
  | cons o queue =>
    obtain ⟨t₀, t₁, htotal⟩ := ha.total
    refine ⟨⟨segs, cur, hw.of_sameRows ⟨rfl, rfl, rfl, rfl, rfl⟩, ⟨⟨t₀, t₁, ?_⟩, ?_, ?_, ?_⟩⟩,
      ?_, ?_, ?_⟩
    · rw [hidle.1, hidle.2, hfirst, hended] at htotal
      simp only [Option.toList_none, append_nil, Bool.false_eq_true, if_false] at htotal
      have hmap : (s.dequeued ++ [o]).map (·.event) = s.dequeued.map (·.event) ++ [o.event] :=
        map_append
      simp only [hidle.2, hfirst, hended, Option.toList_none, Option.toList_some, nil_append,
        Bool.false_eq_true, if_false, append_nil, hmap]
      rw [htotal, append_assoc]
    · intro hne
      exact absurd hidle.2 hne
    · intro he
      exact absurd (hended.symm.trans he) Bool.false_ne_true
    · intro hf
      exact absurd (hfirst.symm.trans hf) Bool.false_ne_true
    · intro hr
      cases hr
    · intro hr
      cases hr
    · show s.accepted = s.dequeued ++ [o] ++ queue
      rw [h.taken, hq, append_assoc]
      rfl

lemma inv_step (h : Inv cfg sha s) (a : Action) : Inv cfg sha (s.step cfg sha a) := by
  obtain ⟨segs, cur, hw, ha⟩ := h.parts
  cases a with
  | acquire o =>
    show Inv cfg sha (s.acquire cfg o)
    unfold Exporter.acquire
    split
    · exact ⟨h.parts, h.waits, h.returned, h.taken⟩
    · split
      · exact ⟨h.parts, h.waits, h.returned, h.taken⟩
      · exact ⟨h.parts, h.waits, h.returned, h.taken⟩
  | enqueue o =>
    show Inv cfg sha (s.enqueue o)
    unfold Exporter.enqueue
    split
    · simp only []
      split
      · refine ⟨h.parts, h.waits, h.returned, ?_⟩
        rw [h.taken, append_assoc]
      · exact ⟨h.parts, h.waits, h.returned, h.taken⟩
    · exact h
  | closeBudget | setStop => exact ⟨h.parts, h.waits, h.returned, h.taken⟩
  | top i =>
    show Inv cfg sha (if s.phase = .top then _ else s)
    split
    · obtain ⟨⟨⟨segs', cur', hw', hparts⟩, hhand⟩, hret, hwait⟩ :
          Kept cfg sha s.writer (s.writer.top s.stop i).2 (segs.flatten ++ cur) ∧ _ := top_kept hw
      refine ⟨⟨segs', cur', hw', ?_⟩, hwait, fun hr => absurd hr hret, h.taken⟩
      rw [hparts]
      exact ha.congr hhand
    · exact h
  | receive =>
    show Inv cfg sha (if s.phase = .receive then _ else s)
    split
    · next hp => exact inv_receive h hp
    · exact h
  | check i =>
    show Inv cfg sha (if s.phase = .check then _ else s)
    split
    · obtain ⟨hparts, hret, hph⟩ : (∃ segs' cur', Wrote cfg sha
          (s.writer.check cfg sha s.stop i).2 segs' cur' ∧ _) ∧ _ := check_kept hw ha
      refine ⟨hparts, ?_, hret, h.taken⟩
      intro hr
      have hp : (s.writer.check cfg sha s.stop i).1 = .receive := hr
      rw [hp] at hph
      cases hph
    · exact h

variable (cfg sha) in
lemma inv_run (acts : List Action) : Inv cfg sha (runExporter cfg sha acts) := by
  have hstep : ∀ s a, Inv cfg sha s → Inv cfg sha (Exporter.step cfg sha s a) :=
    fun s a h => inv_step h a
  exact Run.run_keeps hstep (inv_new cfg sha) acts

/-! ## a writer that has returned -/

lemma expiry_congr {a b : Int} (h : hour a = hour b) (n : Nat) : expiry a n = expiry b n := by
  unfold expiry
  rw [h]

lemma Wrote.rows (h : Wrote cfg sha w segs cur) :
    w.sealed.flatten = segs.flatten.flatMap Part.rows := by
  rw [h.sealed_rows, ← flatMap_def, ← flatMap_assoc, flatMap_id']

/-- once everything is sealed, the parts are the start, the dequeued events and the end -/
lemma Inv.returned_parts (h : Inv cfg sha s) (hr : s.phase = .returned true) :
    ∃ segs t₀ t₁, Wrote cfg sha s.writer segs [] ∧ (∀ p ∈ segs.flatten, p.Made cfg) ∧
      segs.flatten.map (·.event) =
        startEvent cfg t₀ :: (s.dequeued.map (·.event) ++ [endEvent cfg t₁]) := by
  obtain ⟨segs, cur, hw, ha⟩ := h.parts
  obtain ⟨hended, hseg, hframe, hidle⟩ := h.returned hr
  have hcur : cur = [] := by
    apply flatMap_rows_eq_nil
    rw [← hw.open_rows]
    unfold openRows
    rw [hseg, hframe]
    rfl
  subst hcur
  unfold idle at hidle
  rw [Bool.and_eq_true, Option.isNone_iff_eq_none, Option.isNone_iff_eq_none] at hidle
  obtain ⟨t₀, t₁, htotal⟩ := ha.total
  rw [hidle.1, hidle.2, (ha.ended hended).2, hended] at htotal
  refine ⟨segs, t₀, t₁, hw, ?_, ?_⟩
  · simpa using hw.made
  · simpa using htotal

/-- neither the start nor the end has a peer -/
lemma dequeued_of_peer {ps : List Part} {d : List Observation} {t₀ t₁ : Int}
    (h : ps.map (·.event) = startEvent cfg t₀ :: (d.map (·.event) ++ [endEvent cfg t₁])) {p : Part}
    (hp : p ∈ ps) (hpeer : p.event.peer ≠ 0) : ∃ o ∈ d, o.event = p.event := by
  have hmem : p.event ∈ ps.map (·.event) := mem_map_of_mem hp
  rw [h, mem_cons, mem_append, mem_singleton, mem_map] at hmem
  rcases hmem with hs | ho | he
  · exact absurd (congrArg Event.peer hs) hpeer
  · exact ho
  · exact absurd (congrArg Event.peer he) hpeer

/-- the row that introduces a peer stands before the row of the part -/
lemma mem_rows_before {before : List Part} {p p' : Part} {r : Event} (hp : p' ∈ before ++ [p])
    (hr : p'.identity = some r) : r ∈ before.flatMap Part.rows ++ p.identity.toList := by
  have hr' : r ∈ p'.identity.toList := Option.mem_toList.mpr hr
  rcases mem_append.mp hp with hp | hp
  · exact mem_append_left _ (mem_flatMap.mpr ⟨p', hp, mem_append_left _ hr'⟩)
  · rw [mem_singleton.mp hp] at hr'
    exact mem_append_right _ hr'

lemma filter_rows {p : Part} (h : p.Made cfg) :
    p.rows.filter Event.isObserved = if p.event.isObserved then [p.row] else [] := by
  have hrow : p.row.isObserved = p.event.isObserved := by
    rw [Event.isObserved, h.row.kind]
    rfl
  have hid : p.identity.toList.filter Event.isObserved = [] := by
    rw [filter_eq_nil_iff]
    intro r hr
    rw [Event.isObserved, (h.identity r (Option.mem_toList.mp hr)).1.kind]
    decide
  rw [Part.rows, filter_append, hid, nil_append, filter_cons, filter_nil, hrow]

lemma forall₂_rows {ps : List Part} (h : ∀ p ∈ ps, p.Made cfg) :
    Forall₂ (RowOf cfg) ((ps.map (·.event)).filter Event.isObserved)
      ((ps.flatMap Part.rows).filter Event.isObserved) := by
  induction ps with
  | nil => exact .nil
  | cons p ps ih =>
    obtain ⟨hp, hps⟩ := forall_mem_cons.mp h
    rw [flatMap_cons, filter_append, filter_rows hp, map_cons, filter_cons]
    cases p.event.isObserved with
    | true => exact .cons hp.row (ih hps)
    | false => exact ih hps

/-- the rows of observed kinds are those of the dequeued events -/
lemma Inv.observed_rows (h : Inv cfg sha s) (hr : s.phase = .returned true) :
    Forall₂ (RowOf cfg) (s.dequeued.map (·.event))
      (s.writer.sealed.flatten.filter Event.isObserved) := by
  obtain ⟨segs, t₀, t₁, hw, hmade, hevents⟩ := h.returned_parts hr
  have hrows := forall₂_rows hmade
  have hkeep : (s.dequeued.map (·.event)).filter Event.isObserved =
      s.dequeued.map (·.event) := by
    rw [filter_eq_self]
    intro e he
    obtain ⟨o, -, rfl⟩ := mem_map.mp he
    exact decide_eq_true o.observed
  have hends : (startEvent cfg t₀).isObserved = false ∧
      [endEvent cfg t₁].filter Event.isObserved = [] := ⟨rfl, rfl⟩
  rw [hevents, filter_cons, hends.1, filter_append, hkeep, hends.2, ← hw.rows, append_nil] at hrows
  exact hrows

lemma Inv.ends (h : Inv cfg sha s) (hr : s.phase = .returned true) :
    (s.writer.sealed.flatten.map (·.kind)).head? = some 7 ∧
      (s.writer.sealed.flatten.map (·.kind)).getLast? = some 8 := by
  obtain ⟨segs, t₀, t₁, hw, hmade, hevents⟩ := h.returned_parts hr
  rw [hw.rows]
  constructor
  · cases hps : segs.flatten with
    | nil =>
      rw [hps] at hevents
      cases hevents
    | cons p ps =>
      have hp := hmade p (by rw [hps]; exact mem_cons_self)
      rw [hps, map_cons] at hevents
      have hstart : p.event = startEvent cfg t₀ := (cons.inj hevents).1
      -- the start has no peer to introduce
      have hnone : p.identity = none := Option.eq_none_iff_forall_not_mem.mpr fun r hr =>
        (hp.identity r hr).2 (by rw [hstart]; rfl)
      rw [flatMap_cons, Part.rows, hnone]
      show some p.row.kind = _
      rw [hp.row.kind, hstart]
      rfl
  · rcases eq_nil_or_concat segs.flatten with hps | ⟨ps, p, hps⟩
    · rw [hps] at hevents
      cases hevents
    · rw [concat_eq_append] at hps
      have hp := hmade p (by rw [hps]; exact mem_append_right _ mem_cons_self)
      rw [hps, map_append, ← cons_append] at hevents
      have hend : p.event = endEvent cfg t₁ := (cons.inj (append_inj' hevents rfl).2).1
      rw [hps, flatMap_append, flatMap_singleton, Part.rows, ← append_assoc, map_append]
      refine getLast?_concat.trans (congrArg some (hp.row.kind.trans ?_))
      rw [hend]
      rfl

end

/-! ## three events -/

def sampleConfig : Config := ⟨1, 2, 24, "\"c\"", 256⟩

/-- the first bytes of a text stand for its digest -/
def headSha : Sha256 := ⟨fun b => (b ++ replicate 32 0).take 32, fun b => by simp⟩

def sampleEvent (identity : String) : Observation where
  event := { Event.default with
    stream := 1, epoch := 2, receivedMs := 5, kind := 1, peer := 9, ingress := 4, identity := identity }
  observed := mem_cons_self

/-- nothing fails, and the segment is sealed at the end -/
def smoothTop : TopInput := ⟨false, false, none, true, true⟩
def smoothCheck : CheckInput := ⟨7, true, false, true, true, true, true, true, true⟩
def smoothTurn : List Action := [.top smoothTop, .receive, .check smoothCheck]

/-- the peer has one name, then another, then the first again -/
def sampleRun : List Action :=
  ["a", "b", "a"].flatMap (fun id => [.acquire (sampleEvent id), .enqueue (sampleEvent id)]) ++
    [.top smoothTop, .check smoothCheck] ++ smoothTurn ++ smoothTurn ++ smoothTurn ++
    [.closeBudget, .setStop] ++ smoothTurn

end Netom.ClickHouse
