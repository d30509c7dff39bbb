import Netom.Comms.Gate

/-!
# Slots that the root has cut off

The root takes a slot out of the update map when it processes an unsubscribe, a suspension or a
reconfiguration.  Until the slot is subscribed or unsuspended again it is cut off (`cutAfter`), and no
update should go there.  The root and its clones share the update map, and a clone that processes a
forwarded subscription puts the slot back there, whatever the root has done since.

* `Followed`  a clone is only sent commands that it supports;
* `updates_clone_step` what a clone does to the update map;
* `keepsOff_iff_along` updates keep off the slots that are cut off iff no clone processes a forwarded
  subscription of such a slot.
-/

namespace Netom.Comms
open Assoc Gate
variable {D C : Type}

/-! ## what the clones are sent -/

def GateCommand.isFollow : GateCommand D C → Bool
  | .suspension _ _ | .subscribe _ _ _ | .unsubscribe _ | .reconfigure _ _ => false
  | .followSubscribe _ _ | .followUnsubscribe _ | .followReconfigure _ => true
  | .reportLinks | .trigger | .terminate => true

/-- every command in the queue of a clone is one that the clones support -/
def Followed (g : Gate D C) : Prop :=
  ∀ id c, g.clones.lookup id = some c → ∀ cmd ∈ c.commands, cmd.isFollow = true

variable {g : Gate D C}

variable {cmd : GateCommand D C}

lemma followed_notifyClones (h : Followed g) (hc : cmd.isFollow = true) :
    Followed (g.notifyClones cmd) := by
  intro id c hl cmd' hm
  change (filterMapVals (fun _ c => some (c.send cmd)) g.clones).lookup id = some c at hl
  rw [lookup_filterMapVals] at hl
  obtain ⟨c', hc', heq⟩ := Option.bind_eq_some_iff.mp hl
  cases heq
  unfold CloneGate.send at hm
  split at hm
  · rcases List.mem_append.mp hm with hm | hm
    · exact h id c' hc' cmd' hm
    · rw [List.mem_singleton.mp hm]
      exact hc
  · exact h id c' hc' cmd' hm

lemma followed_congr {g' : Gate D C} (hg : g'.clones = g.clones) (h : Followed g) : Followed g' := by
  intro id c hl
  rw [hg] at hl
  exact h id c hl

lemma followed_subscribe (h : Followed g) (suspended answered : Bool) (directUpdate : Option D) :
    Followed (g.subscribe suspended answered directUpdate) := by
  cases answered with
  | true =>
    refine followed_notifyClones (followed_congr ?_ h) rfl
    cases suspended <;> rfl
  | false =>
    refine followed_congr ?_ h
    cases suspended <;> rfl

lemma followed_suspension (h : Followed g) (slot : Slot) (suspend : Bool) :
    Followed (g.suspension slot suspend) := by
  refine followed_congr ?_ h
  unfold suspension
  split
  · split <;> rfl
  · split <;> rfl

lemma followed_process (h : Followed g) (isClone : Bool) (cmd : GateCommand D C) :
    Followed (g.process isClone cmd).1 := by
  have hforward : ∀ cmd : GateCommand D C, cmd.isFollow = true → Followed (g.forward isClone cmd) := by
    intro cmd hc
    cases isClone with
    | true => exact h
    | false => exact followed_notifyClones h hc
  cases cmd with
  | suspension slot suspend => exact followed_suspension h slot suspend
  | subscribe suspended answered directUpdate =>
    cases isClone with
    | true => exact h
    | false => exact followed_subscribe h suspended answered directUpdate
  | unsubscribe slot | reconfigure newConfig newUpdates =>
    cases isClone with
    | true => exact h
    | false => exact followed_notifyClones (followed_congr rfl h) rfl
  | followSubscribe slot sender | followUnsubscribe slot =>
    cases isClone with
    | true => exact followed_congr rfl h
    | false => exact h
  | followReconfigure newConfig => cases isClone <;> exact h
  | reportLinks => exact hforward .reportLinks rfl
  | trigger => exact h
  | terminate => exact hforward .terminate rfl

/-- the clone `id` with something done to its queue that leaves nothing new there -/
lemma followed_modify (h : Followed g) (id : CloneId) {f : CloneGate D C → CloneGate D C}
    (hf : ∀ c, (f c).commands ⊆ c.commands) :
    Followed { g with clones := Assoc.modify id f g.clones } := by
  intro k c hl cmd hm
  change (modify id f g.clones).lookup k = some c at hl
  rw [lookup_modify] at hl
  split at hl
  · obtain ⟨c', hc', rfl⟩ := Option.map_eq_some_iff.mp hl
    exact h k c' hc' cmd (hf c' hm)
  · exact h k c hl cmd hm

/-- the gate, with the first command taken from the queue of a clone -/
def Gate.taken (g : Gate D C) (id : CloneId) : Gate D C :=
  { g with clones := Assoc.modify id (fun c => { c with commands := c.commands.tail }) g.clones }

lemma step_clone_none {id : CloneId} (hn : g.nextCommand id = none) :
    g.step (.clone id) = g := by
  simp only [step, hn]

lemma step_clone_some {id : CloneId} (hn : g.nextCommand id = some cmd) :
    g.step (.clone id) = ((g.taken id).process true cmd).1 := by
  simp only [step, hn]
  rfl

lemma followed_step (h : Followed g) (e : GateEvent D C) : Followed (g.step e) := by
  cases e with
  | root cmd => exact followed_process h false cmd
  | cloneGate =>
    intro id c hl cmd hm
    change (g.clones.insert g.nextClone ⟨true, []⟩).lookup id = some c at hl
    rw [lookup_insert_eq] at hl
    split at hl
    · cases hl
      cases hm
    · exact h id c hl cmd hm
  | detach id => exact followed_modify h id fun c => List.Subset.refl _
  | dropClone id =>
    intro k c hl
    change (g.clones.erase id).lookup k = some c at hl
    rw [lookup_erase_eq] at hl
    split at hl
    · cases hl
    · exact h k c hl
  | clone id =>
    cases hn : g.nextCommand id with
    | none =>
      rw [step_clone_none hn]
      exact h
    | some cmd =>
      rw [step_clone_some hn]
      exact followed_process (followed_modify h id fun c => List.tail_subset _) true cmd

lemma isFollow_nextCommand (h : Followed g) {id : CloneId} (hn : g.nextCommand id = some cmd) :
    cmd.isFollow = true := by
  obtain ⟨c, hc, hhead⟩ := Option.bind_eq_some_iff.mp hn
  exact h id c hc cmd (List.mem_of_mem_head? hhead)

/-! ## what happens to the update map -/

/-- the slot that a clone would put into the update map -/
def Gate.revived (g : Gate D C) : GateEvent D C → Option Slot
  | .clone id =>
    match g.nextCommand id with
    | some (.followSubscribe slot _) => some slot
    | _ => none
  | _ => none

/-- a clone adds the slot of a forwarded subscription to the update map, and no other -/
lemma updates_clone_step (h : Followed g) (id : CloneId) (slot : Slot) :
    ((g.step (.clone id)).updates.lookup slot).isSome = true →
      g.revived (.clone id) = some slot ∨ (g.updates.lookup slot).isSome = true := by
  intro hs
  cases hn : g.nextCommand id with
  | none =>
    rw [step_clone_none hn] at hs
    exact .inr hs
  | some cmd =>
    rw [step_clone_some hn] at hs
    have hf := isFollow_nextCommand h hn
    cases cmd with
    | suspension _ _ | subscribe _ _ _ | unsubscribe _ | reconfigure _ _ => cases hf
    | followSubscribe slot' sender =>
      change ((g.updates.insert slot' sender).lookup slot).isSome = true at hs
      rw [lookup_insert_eq] at hs
      split at hs
      · next heq =>
        left
        simp only [revived, hn, heq]
      · exact .inr hs
    | followUnsubscribe slot' =>
      change ((g.updates.erase slot').lookup slot).isSome = true at hs
      rw [lookup_erase_eq] at hs
      split at hs
      · cases hs
      · exact .inr hs
    | followReconfigure _ | reportLinks | trigger | terminate => exact .inr hs

lemma updates_revived {e : GateEvent D C} {slot : Slot} (hr : g.revived e = some slot) :
    ((g.step e).updates.lookup slot).isSome = true := by
  cases e with
  | clone id =>
    simp only [revived] at hr
    split at hr
    · next slot' sender hn =>
      cases hr
      rw [step_clone_some hn]
      show ((g.updates.insert slot sender).lookup slot).isSome = true
      rw [lookup_insert_eq, if_pos rfl]
      rfl
    · cases hr
  | root _ | cloneGate | detach _ | dropClone _ => cases hr

/-! ## the slots that are cut off -/

/-- whether a slot is cut off after an event, where `cut` says whether it was before -/
def Gate.cutAfter (g : Gate D C) (cut : Slot → Bool) (slot : Slot) : GateEvent D C → Bool
  | .root (.unsubscribe slot') => decide (slot = slot') || cut slot
  | .root (.suspension slot' true) => decide (slot = slot') || cut slot
  | .root (.suspension slot' false) => decide (slot ≠ slot') && cut slot
  | .root (.subscribe _ _ _) => decide (slot ≠ g.nextSlot) && cut slot
  -- a slot of the new map was subscribed at the new gate
  | .root (.reconfigure _ newUpdates) => !(newUpdates.lookup slot).isSome
  | _ => cut slot

/-- the gate, and the slots that its root has cut off -/
structure Watched (D C : Type) where
  gate : Gate D C
  cut : Slot → Bool

def Watched.new : Watched D C := ⟨Gate.new, fun _ => false⟩

def Watched.step (w : Watched D C) (e : GateEvent D C) : Watched D C :=
  ⟨w.gate.step e, fun slot => w.gate.cutAfter w.cut slot e⟩

/-- no slot that is cut off is in the update map -/
def Uncut (w : Watched D C) : Prop :=
  ∀ slot, w.cut slot = true → (w.gate.updates.lookup slot).isSome = false

/-- a clone processes a forwarded subscription only while the slot is not cut off -/
def Timely (w : Watched D C) (e : GateEvent D C) : Prop :=
  ∀ slot ∈ w.gate.revived e, w.cut slot = false

variable {w : Watched D C}

lemma uncut_root (h : Uncut w) (cmd : GateCommand D C) : Uncut (w.step (.root cmd)) := by
  intro slot
  have hs := h slot
  -- a slot that is taken off the map is cut off
  have herase : ∀ slot', (decide (slot = slot') || w.cut slot) = true →
      ((w.gate.updates.erase slot').lookup slot).isSome = false := by
    intro slot' hc
    rw [lookup_erase_eq]
    split
    · rfl
    · rename_i hne
      exact hs ((Bool.or_eq_true_iff.mp hc).resolve_left fun h => hne (of_decide_eq_true h))
  cases cmd with
  | suspension slot' suspend =>
    show w.gate.cutAfter w.cut slot _ = true →
      ((w.gate.suspension slot' suspend).updates.lookup slot).isSome = false
    unfold suspension
    cases suspend with
    | true =>
      rw [if_pos rfl]
      cases hl : w.gate.updates.lookup slot' with
      | none =>
        intro hc
        rcases Bool.or_eq_true_iff.mp hc with hc | hc
        · rw [of_decide_eq_true hc, hl]
          rfl
        · exact hs hc
      | some removed =>
        exact herase slot'
    | false =>
      rw [if_neg Bool.false_ne_true]
      intro hc
      obtain ⟨hne, hc⟩ := Bool.and_eq_true_iff.mp hc
      split
      · show ((w.gate.updates.insert slot' _).lookup slot).isSome = false
        rw [lookup_insert_eq, if_neg (of_decide_eq_true hne)]
        exact hs hc
      · exact hs hc
  | subscribe suspended answered directUpdate =>
    intro hc
    obtain ⟨hne, hc⟩ := Bool.and_eq_true_iff.mp hc
    have hne := of_decide_eq_true hne
    have hu : (w.gate.subscribe suspended answered directUpdate).updates.lookup slot =
        w.gate.updates.lookup slot := by
      cases suspended <;> cases answered <;>
        simp only [subscribe, notifyClones, if_true, Bool.false_eq_true, if_false,
          lookup_insert_eq, lookup_erase_eq, hne]
    show ((w.gate.subscribe suspended answered directUpdate).updates.lookup slot).isSome = false
    rw [hu]
    exact hs hc
  | unsubscribe slot' =>
    exact herase slot'
  | reconfigure newConfig newUpdates =>
    intro hc
    exact Bool.not_eq_true' _ ▸ hc
  | followSubscribe _ _ | followUnsubscribe _ | followReconfigure _
  | reportLinks | trigger | terminate => exact hs

lemma uncut_step_iff (hf : Followed w.gate) (h : Uncut w) (e : GateEvent D C) :
    Uncut (w.step e) ↔ Timely w e := by
  cases e with
  | root cmd =>
    constructor
    · intro _ slot hr
      cases hr
    · intro _
      exact uncut_root h cmd
  | cloneGate | detach _ | dropClone _ =>
    constructor
    · intro _ slot hr
      cases hr
    · intro _
      exact h
  | clone id =>
    constructor
    · intro hu slot hr
      rw [← Bool.not_eq_true]
      intro hcut
      have hin := updates_revived hr
      have hout : ((w.gate.step (.clone id)).updates.lookup slot).isSome = false := hu slot hcut
      rw [hout] at hin
      cases hin
    · intro ht slot hc
      rw [← Bool.not_eq_true]
      intro hin
      change w.cut slot = true at hc
      rcases updates_clone_step hf id slot hin with hr | hin
      · rw [ht slot hr] at hc
        cases hc
      · rw [h slot hc] at hin
        cases hin

/-! ## whole runs -/

/-- no update reaches a slot that is cut off -/
def KeepsOff (w : Watched D C) : Prop :=
  ∀ reached slot, slot ∈ w.gate.updateData reached → w.cut slot = false

lemma keepsOff_iff : KeepsOff w ↔ Uncut w := by
  constructor
  · intro h slot hc
    rw [← Bool.not_eq_true]
    intro hin
    rw [h (fun _ => true) slot (mem_updateData.mpr ⟨hin, rfl⟩)] at hc
    cases hc
  · intro h reached slot hm
    rw [← Bool.not_eq_true]
    intro hc
    have hin := (mem_updateData.mp hm).1
    rw [h slot hc] at hin
    cases hin

lemma followed_run (hf : Followed w.gate) (es : List (GateEvent D C)) :
    Followed (Run.run Watched.step w es).gate := by
  induction es generalizing w with
  | nil => exact hf
  | cons e es ih => exact ih (followed_step hf e)

/-- **in every run, updates keep off the slots that the root has cut off iff no clone processes a
forwarded subscription of such a slot** -/
theorem keepsOff_iff_along (es : List (GateEvent D C)) :
    (∀ es', es' <+: es → KeepsOff (Run.run Watched.step Watched.new es')) ↔
      Run.Along Watched.step Timely Watched.new es := by
  have hstep : ∀ (w : Watched D C) e, Followed w.gate ∧ Uncut w →
      (Followed (w.step e).gate ∧ Uncut (w.step e) ↔ Timely w e) := by
    rintro w e ⟨hf, h⟩
    rw [uncut_step_iff hf h e]
    exact and_iff_right (followed_step hf e)
  have hstart : Followed (Watched.new : Watched D C).gate ∧ Uncut (Watched.new : Watched D C) :=
    ⟨fun _ _ h => (nomatch h), fun slot hc => nomatch hc⟩
  rw [← Run.along_iff hstep hstart es]
  apply forall_congr'
  intro es'
  apply imp_congr_right
  intro hp
  rw [keepsOff_iff]
  exact (and_iff_right (followed_run hstart.1 es')).symm

/-- a link subscribes and unsubscribes; then a clone comes to the forwarded subscription -/
theorem late_followSubscribe_revives :
    let es : List (GateEvent Unit Unit) :=
      [.cloneGate, .root (.subscribe false true none), .root (.unsubscribe 0), .clone 0]
    let w := Run.run Watched.step Watched.new es
    w.cut 0 = true ∧ 0 ∈ w.gate.updateData fun _ => true := by
  decide

end Netom.Comms
