import Netom.Comms.Gate

/-!
# The links of a gate

What a gate is for: it knows its links, and of each whether it is suspended (`Links`).  The two maps
of the gate are those links, split by suspension (`Shows`), after any sequence of commands
(`shows_run`).  The status of the gate compares the sizes of the two maps, which is not the question
whether some link is unsuspended: `dormant_iff_noneUnsuspended_iff` says for which links the two agree.
-/

namespace Netom.Comms
open Assoc Gate Run
variable {D C : Type}

/-! ## the commands of links and what they mean -/

inductive LinkCommand (D : Type) where
  | subscribe (suspended answered : Bool) (directUpdate : Option D)
  | unsubscribe (slot : Slot)
  | suspension (slot : Slot) (suspend : Bool)

def LinkCommand.toGateCommand : LinkCommand D → GateCommand D C
  | .subscribe suspended answered directUpdate => .subscribe suspended answered directUpdate
  | .unsubscribe slot => .unsubscribe slot
  | .suspension slot suspend => .suspension slot suspend

/-- the root gate processes the command of a link -/
def Gate.linkStep (g : Gate D C) (c : LinkCommand D) : Gate D C :=
  (g.process false c.toGateCommand).1

structure Links where
  slots : Assoc Slot Bool
  next : Slot

def Links.none : Links := ⟨∅, 0⟩

def Links.step (l : Links) : LinkCommand D → Links
  | .subscribe suspended answered _ =>
    if answered then ⟨l.slots.insert l.next suspended, l.next + 1⟩ else { l with next := l.next + 1 }
  | .unsubscribe slot => { l with slots := l.slots.erase slot }
  | .suspension slot suspend => { l with slots := Assoc.modify slot (fun _ => suspend) l.slots }

/-- the links that are suspended, or those that are not -/
def Links.having (l : Links) (suspended : Bool) : Finset Slot :=
  l.slots.keys.toFinset.filter fun slot => l.slots.lookup slot = some suspended

lemma Links.mem_having {l : Links} {b : Bool} {slot : Slot} :
    slot ∈ l.having b ↔ l.slots.lookup slot = some b := by
  unfold having
  rw [Finset.mem_filter, List.mem_toFinset]
  constructor
  · rintro ⟨-, h⟩
    exact h
  · intro h
    refine ⟨AList.mem_keys.mp ?_, h⟩
    exact AList.lookup_isSome.mp (by rw [h]; rfl)

/-! ## the two maps of the gate -/

/-- the map of the suspended slots, or that of the others -/
def Gate.part (g : Gate D C) (suspended : Bool) : Assoc Slot (UpdateSender D) :=
  if suspended then g.suspended else g.updates

/-- the slot is in that map -/
def Gate.holds (g : Gate D C) (suspended : Bool) (slot : Slot) : Bool :=
  ((g.part suspended).lookup slot).isSome

variable {g : Gate D C} {l : Links}

lemma holds_unsubscribe (slot k : Slot) (b : Bool) :
    (g.unsubscribe slot).holds b k = if k = slot then false else g.holds b k := by
  have hpart : (g.unsubscribe slot).part b = (g.part b).erase slot := by cases b <;> rfl
  unfold holds
  rw [hpart, lookup_erase_eq]
  split <;> rfl

lemma part_subscribe_of_ne {b suspended answered : Bool} (hb : b ≠ suspended)
    {directUpdate : Option D} : (g.subscribe suspended answered directUpdate).part b = g.part b := by
  cases b <;> cases suspended <;> cases answered <;> first | rfl | exact absurd rfl hb

lemma holds_subscribe_answered (suspended : Bool) (directUpdate : Option D) (k : Slot) (b : Bool) :
    (g.subscribe suspended true directUpdate).holds b k =
      if k = g.nextSlot ∧ b = suspended then true else g.holds b k := by
  unfold holds
  by_cases hb : b = suspended
  · subst hb
    have hpart : (g.subscribe b true directUpdate).part b =
        (g.part b).insert g.nextSlot (updateSender g.nextSlot directUpdate) := by cases b <;> rfl
    rw [hpart, lookup_insert_eq]
    by_cases hk : k = g.nextSlot
    · simp [hk]
    · simp [hk]
  · rw [part_subscribe_of_ne hb, if_neg (fun h => hb h.2)]

lemma holds_subscribe_unanswered (suspended : Bool) (directUpdate : Option D) (k : Slot)
    (b : Bool) (hfresh : g.holds b g.nextSlot = false) :
    (g.subscribe suspended false directUpdate).holds b k = g.holds b k := by
  unfold holds at hfresh ⊢
  by_cases hb : b = suspended
  · subst hb
    have hpart : (g.subscribe b false directUpdate).part b =
        ((g.part b).insert g.nextSlot (updateSender g.nextSlot directUpdate)).erase g.nextSlot := by
      cases b <;> rfl
    rw [hpart, lookup_erase_eq, lookup_insert_eq]
    by_cases hk : k = g.nextSlot
    · rw [if_pos hk, hk, hfresh]
      rfl
    · rw [if_neg hk, if_neg hk]
  · rw [part_subscribe_of_ne hb]

/-- the slot goes from the one map to the other, if it was there -/
lemma holds_suspension (slot k : Slot) (suspend b : Bool) :
    (g.suspension slot suspend).holds b k =
      if k = slot ∧ g.holds (!suspend) slot = true then decide (b = suspend) else g.holds b k := by
  cases hl : (g.part (!suspend)).lookup slot with
  | none =>
    have hg : g.suspension slot suspend = g := by
      unfold suspension
      cases suspend with
      | true =>
        have : g.updates.lookup slot = none := hl
        rw [if_pos rfl, this]
      | false =>
        have : g.suspended.lookup slot = none := hl
        rw [if_neg Bool.false_ne_true, this]
    have hh : ¬ g.holds (!suspend) slot = true := by
      unfold holds
      rw [hl]
      exact Bool.false_ne_true
    rw [hg, if_neg fun h => hh h.2]
  | some removed =>
    have hh : g.holds (!suspend) slot = true := by
      unfold holds
      rw [hl]
      rfl
    obtain ⟨hfrom, hto⟩ :
        (g.suspension slot suspend).part (!suspend) = (g.part (!suspend)).erase slot ∧
        (g.suspension slot suspend).part suspend = (g.part suspend).insert slot removed := by
      unfold suspension
      cases suspend with
      | true =>
        have : g.updates.lookup slot = some removed := hl
        rw [if_pos rfl, this]
        exact ⟨rfl, rfl⟩
      | false =>
        have : g.suspended.lookup slot = some removed := hl
        rw [if_neg Bool.false_ne_true, this]
        exact ⟨rfl, rfl⟩
    by_cases hb : b = suspend
    · subst hb
      unfold holds at hh ⊢
      rw [hto, lookup_insert_eq]
      by_cases hk : k = slot
      · simp [hk, hh]
      · simp [hk]
    · have hb' : b = !suspend := by cases b <;> cases suspend <;> simp_all
      subst hb'
      unfold holds at hh ⊢
      rw [hfrom, lookup_erase_eq]
      by_cases hk : k = slot
      · simp [hk, hh]
      · simp [hk]

/-! ## the gate shows its links -/

structure Shows (g : Gate D C) (l : Links) : Prop where
  next : g.nextSlot = l.next
  used : ∀ slot, (l.slots.lookup slot).isSome → slot < l.next
  holds : ∀ b slot, g.holds b slot = true ↔ l.slots.lookup slot = some b

lemma shows_new : Shows (Gate.new : Gate D C) Links.none where
  next := rfl
  used := by
    intro slot h
    cases h
  holds := by
    intro b slot
    have hb : (new : Gate D C).holds b slot = false := by cases b <;> rfl
    rw [hb]
    constructor
    · intro h
      cases h
    · intro h
      cases h

lemma Shows.fresh (h : Shows g l) : l.slots.lookup l.next = Option.none := by
  cases hl : l.slots.lookup l.next with
  | none => rfl
  | some b =>
    exact absurd (h.used l.next (by rw [hl]; rfl)) (Nat.lt_irrefl _)

lemma shows_unsubscribe (h : Shows g l) (slot : Slot) :
    Shows (g.unsubscribe slot) { l with slots := l.slots.erase slot } := by
  refine ⟨h.next, ?_, ?_⟩
  · intro k hk
    rw [lookup_erase_eq] at hk
    split at hk
    · cases hk
    · exact h.used k hk
  · intro b k
    rw [holds_unsubscribe, lookup_erase_eq]
    split
    · simp
    · exact h.holds b k

lemma nextSlot_subscribe (suspended answered : Bool) (directUpdate : Option D) :
    (g.subscribe suspended answered directUpdate).nextSlot = g.nextSlot + 1 := by
  cases suspended <;> cases answered <;> rfl

lemma shows_subscribe (h : Shows g l) (suspended answered : Bool) (directUpdate : Option D) :
    Shows (g.subscribe suspended answered directUpdate)
      (l.step (.subscribe suspended answered directUpdate)) := by
  have hfresh : ∀ b, g.holds b g.nextSlot = false := by
    intro b
    rw [← Bool.not_eq_true, h.holds, h.next, h.fresh]
    exact fun h => nomatch h
  cases answered with
  | true =>
    refine ⟨?_, ?_, ?_⟩
    · rw [nextSlot_subscribe, h.next]
      rfl
    · intro k hk
      change ((l.slots.insert l.next suspended).lookup k).isSome at hk
      show k < l.next + 1
      rw [lookup_insert_eq] at hk
      split at hk
      · next heq => exact heq ▸ Nat.lt_succ_self _
      · exact Nat.lt_succ_of_lt (h.used k hk)
    · intro b k
      show _ ↔ (l.slots.insert l.next suspended).lookup k = some b
      rw [holds_subscribe_answered, lookup_insert_eq, h.next]
      by_cases hk : k = l.next
      · subst hk
        have hn : g.holds b l.next = false := h.next ▸ hfresh b
        simp [hn, eq_comm]
      · simpa [hk] using h.holds b k
  | false =>
    refine ⟨?_, ?_, ?_⟩
    · rw [nextSlot_subscribe, h.next]
      rfl
    · intro k hk
      exact Nat.lt_succ_of_lt (h.used k hk)
    · intro b k
      rw [holds_subscribe_unanswered _ _ _ _ (hfresh b)]
      exact h.holds b k

lemma nextSlot_suspension (slot : Slot) (suspend : Bool) :
    (g.suspension slot suspend).nextSlot = g.nextSlot := by
  unfold suspension
  split
  · split <;> rfl
  · split <;> rfl

lemma shows_suspension (h : Shows g l) (slot : Slot) (suspend : Bool) :
    Shows (g.suspension slot suspend)
      { l with slots := Assoc.modify slot (fun _ => suspend) l.slots } := by
  refine ⟨(nextSlot_suspension slot suspend).trans h.next, ?_, ?_⟩
  · intro k hk
    rw [lookup_modify] at hk
    apply h.used k
    split at hk
    · simpa using hk
    · exact hk
  · intro b k
    rw [holds_suspension, lookup_modify]
    by_cases hk : k = slot
    · subst hk
      rw [if_pos rfl]
      have hb := h.holds b k
      have hs := h.holds (!suspend) k
      cases hl : l.slots.lookup k with
      | none => simp_all
      | some c =>
        rw [hl] at hb hs
        by_cases hc : c = suspend
        · subst hc
          simp_all
        · have hc' : c = !suspend := by cases c <;> cases suspend <;> simp_all
          subst hc'
          have hh : g.holds (!suspend) k = true := hs.mpr rfl
          simp [hh, eq_comm]
    · rw [if_neg fun h => hk h.1, if_neg hk]
      exact h.holds b k

lemma shows_step (h : Shows g l) (c : LinkCommand D) : Shows (g.linkStep c) (l.step c) := by
  cases c with
  | subscribe suspended answered directUpdate =>
    exact shows_subscribe h suspended answered directUpdate
  | unsubscribe slot => exact shows_unsubscribe h slot
  | suspension slot suspend => exact shows_suspension h slot suspend

lemma shows_run (h : Shows g l) (cs : List (LinkCommand D)) :
    Shows (run Gate.linkStep g cs) (run Links.step l cs) := by
  induction cs generalizing g l with
  | nil => exact h
  | cons c cs ih => exact ih (shows_step h c)

/-! ## the status -/

lemma Shows.length_part (h : Shows g l) (b : Bool) :
    (g.part b).keys.length = (l.having b).card := by
  have hkeys : (g.part b).keys.toFinset = l.having b := by
    ext slot
    rw [Links.mem_having, ← h.holds, List.mem_toFinset]
    exact AList.lookup_isSome.symm
  rw [← hkeys, List.toFinset_card_of_nodup (AList.keys_nodup _)]

/-- the status compares numbers of links -/
lemma Shows.dormant_iff (h : Shows g l) :
    g.getGateStatus = .dormant ↔ (l.having true).card = (l.having false).card := by
  rw [← h.length_part true, ← h.length_part false]
  unfold getGateStatus
  split
  · next heq => exact ⟨fun _ => heq, fun _ => rfl⟩
  · next hne =>
    constructor
    · intro h
      cases h
    · intro h
      exact absurd h hne

/-- **after any commands, the status says whether all links are suspended iff there are no links, or
there is an unsuspended one and not as many suspended ones** -/
theorem dormant_iff_noneUnsuspended_iff (cs : List (LinkCommand D)) :
    ((run Gate.linkStep (Gate.new : Gate D C) cs).getGateStatus = .dormant ↔
        (run Links.step Links.none cs).having false = ∅) ↔
      (∀ b, (run Links.step Links.none cs).having b = ∅) ∨
        (run Links.step Links.none cs).having false ≠ ∅ ∧
        ((run Links.step Links.none cs).having true).card ≠
          ((run Links.step Links.none cs).having false).card := by
  rw [(shows_run shows_new cs).dormant_iff, Bool.forall_bool]
  simp only [ne_eq, ← Finset.card_eq_zero]
  omega

/-- one link, and a second one that subscribes suspended: the gate is dormant -/
theorem dormant_beside_suspended :
    let cs : List (LinkCommand Unit) := [.subscribe false true none, .subscribe true true none]
    (run linkStep (new : Gate Unit Unit) cs).getGateStatus = .dormant ∧
      (0 : Slot) ∈ (run Links.step Links.none cs).having false := by
  decide

end Netom.Comms
