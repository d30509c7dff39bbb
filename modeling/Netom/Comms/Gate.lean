import Netom.Lib.Assoc
import Netom.Lib.Run

/-!
# The gate of a unit and its clones

A unit sends its updates through a gate.  The links of other units subscribe to it, each in a slot
of its own, and can be suspended.  A unit that sends from several tasks clones its gate: the clones
share the maps of slots with the root gate, and each has a queue of commands of its own, to which the
root forwards some of those it processes.

* `suspension`, `subscribe`, `unsubscribe`  what the root does with the commands of the links;
* `notifyClones`  a command for every clone, dropped where the queue is full;
* `process`  one command, at the root or at a clone;
* `updateData`  the slots that an update is delivered to;
* `GateEvent`, `step`  the root and its clones, in any order.
-/

namespace Netom.Comms

/-- the id of a slot (a random uuid in the source, here the next unused one) -/
abbrev Slot := Nat
abbrev CloneId := Nat

def commandQueueLen : Nat := 16

/-- where the updates for a slot go: the queue that was made for it, or the direct update target of
the link; never both -/
structure UpdateSender (D : Type) where
  queue : Option Slot
  direct : Option D
  one : queue.isSome = !direct.isSome
deriving DecidableEq

inductive GateCommand (D C : Type) where
  | suspension (slot : Slot) (suspend : Bool)
  /-- `answered`: the link still waits for the response -/
  | subscribe (suspended : Bool) (answered : Bool) (directUpdate : Option D)
  | unsubscribe (slot : Slot)
  | followSubscribe (slot : Slot) (updateSender : UpdateSender D)
  | followUnsubscribe (slot : Slot)
  /-- the new configuration, and the update map of the new gate -/
  | reconfigure (newConfig : C) (newUpdates : Assoc Slot (UpdateSender D))
  | followReconfigure (newConfig : C)
  | reportLinks
  | trigger
  | terminate

inductive GateStatus (C : Type) where
  | active
  | dormant
  | reconfiguring (newConfig : C)
  | reportLinks
  | triggered
deriving DecidableEq, Repr

/-- a clone: whether the root has a sender for it, and the commands in its queue -/
structure CloneGate (D C : Type) where
  attached : Bool
  commands : List (GateCommand D C)

structure Gate (D C : Type) where
  updates : Assoc Slot (UpdateSender D)
  suspended : Assoc Slot (UpdateSender D)
  clones : Assoc CloneId (CloneGate D C)
  nextSlot : Slot
  nextClone : CloneId

variable {D C : Type}

def Gate.new : Gate D C := ⟨∅, ∅, ∅, 0, 0⟩

def Gate.getGateStatus (g : Gate D C) : GateStatus C :=
  if g.suspended.keys.length = g.updates.keys.length then .dormant else .active

/-! ## the commands of the links -/

def Gate.suspension (g : Gate D C) (slot : Slot) (suspend : Bool) : Gate D C :=
  if suspend then
    match g.updates.lookup slot with
    | some removed =>
      { g with updates := g.updates.erase slot, suspended := g.suspended.insert slot removed }
    | none => g
  else
    match g.suspended.lookup slot with
    | some removed =>
      { g with suspended := g.suspended.erase slot, updates := g.updates.insert slot removed }
    | none => g

/-- `try_send` to one clone -/
def CloneGate.send (cmd : GateCommand D C) (c : CloneGate D C) : CloneGate D C :=
  if c.attached && decide (c.commands.length < commandQueueLen) then
    { c with commands := c.commands ++ [cmd] }
  else c

def Gate.notifyClones (g : Gate D C) (cmd : GateCommand D C) : Gate D C :=
  { g with clones := Assoc.filterMapVals (fun _ c => some (c.send cmd)) g.clones }

def updateSender (slot : Slot) : Option D → UpdateSender D
  | some d => ⟨none, some d, rfl⟩
  | none => ⟨some slot, none, rfl⟩

def Gate.subscribe (g : Gate D C) (suspended answered : Bool) (directUpdate : Option D) : Gate D C :=
  let slot := g.nextSlot
  let sender := updateSender slot directUpdate
  let g := { g with nextSlot := slot + 1 }
  let g := if suspended then { g with suspended := g.suspended.insert slot sender }
    else { g with updates := g.updates.insert slot sender }
  if answered then g.notifyClones (.followSubscribe slot sender)
  -- nobody waits for the response: the slot goes again
  else if suspended then { g with suspended := g.suspended.erase slot }
  else { g with updates := g.updates.erase slot }

def Gate.unsubscribe (g : Gate D C) (slot : Slot) : Gate D C :=
  Gate.notifyClones
    { g with suspended := g.suspended.erase slot, updates := g.updates.erase slot }
    (.followUnsubscribe slot)

/-! ## one command -/

inductive Outcome (C : Type) where
  | next
  | returned (status : GateStatus C)
  | terminated
  | panicked

/-- the root forwards; a clone has nobody to forward to -/
def Gate.forward (g : Gate D C) (isClone : Bool) (cmd : GateCommand D C) : Gate D C :=
  if isClone then g else g.notifyClones cmd

/-- a trigger cannot be copied, so with a clone to copy it for the root panics -/
def Gate.trigger (g : Gate D C) (isClone : Bool) : Outcome C :=
  if !isClone && g.clones.entries.any (·.2.attached) then .panicked else .returned .triggered

def Gate.process (g : Gate D C) (isClone : Bool) : GateCommand D C → Gate D C × Outcome C
  | .suspension slot suspend => (g.suspension slot suspend, .next)
  | .subscribe suspended answered directUpdate =>
    if isClone then (g, .panicked) else (g.subscribe suspended answered directUpdate, .next)
  | .unsubscribe slot => if isClone then (g, .panicked) else (g.unsubscribe slot, .next)
  | .followSubscribe slot sender =>
    if isClone then ({ g with updates := g.updates.insert slot sender }, .next) else (g, .panicked)
  | .followUnsubscribe slot =>
    if isClone then ({ g with updates := g.updates.erase slot }, .next) else (g, .panicked)
  | .reconfigure newConfig newUpdates =>
    if isClone then (g, .panicked)
    else (Gate.notifyClones { g with updates := newUpdates } (.followReconfigure newConfig),
      .returned (.reconfiguring newConfig))
  | .followReconfigure newConfig =>
    if isClone then (g, .returned (.reconfiguring newConfig)) else (g, .panicked)
  | .reportLinks => (g.forward isClone .reportLinks, .returned .reportLinks)
  | .trigger => (g, g.trigger isClone)
  | .terminate => (g.forward isClone .terminate, .terminated)

/-- the slots that an update reaches; `reached` says of a slot whether its receiver, or its direct
update target, is still there -/
def Gate.updateData (g : Gate D C) (reached : Slot → Bool) : List Slot :=
  g.updates.keys.filter fun slot =>
    match (g.updates.lookup slot).map fun item => (item.queue, item.direct) with
    | some (some _, none) => reached slot
    | some (none, some _) => reached slot
    | _ => false

lemma Gate.mem_updateData {g : Gate D C} {reached : Slot → Bool} {slot : Slot} :
    slot ∈ g.updateData reached ↔ (g.updates.lookup slot).isSome ∧ reached slot = true := by
  unfold updateData
  rw [List.mem_filter, ← AList.mem_keys, ← AList.lookup_isSome]
  apply and_congr_right
  intro h
  obtain ⟨⟨queue, direct, one⟩, hl⟩ := Option.isSome_iff_exists.mp h
  rw [hl]
  cases queue with
  | none =>
    cases direct with
    | none => cases one
    | some d => exact Iff.rfl
  | some q =>
    cases direct with
    | none => exact Iff.rfl
    | some d => cases one

/-! ## the root and its clones together -/

inductive GateEvent (D C : Type) where
  /-- the root processes a command -/
  | root (cmd : GateCommand D C)
  | cloneGate
  /-- the clone is taken out of the root's senders, and still runs -/
  | detach (id : CloneId)
  | dropClone (id : CloneId)
  /-- the clone processes the first command of its queue -/
  | clone (id : CloneId)

/-- the command that the clone takes next -/
def Gate.nextCommand (g : Gate D C) (id : CloneId) : Option (GateCommand D C) :=
  (g.clones.lookup id).bind fun c => c.commands.head?

def Gate.step (g : Gate D C) : GateEvent D C → Gate D C
  | .root cmd => (g.process false cmd).1
  | .cloneGate =>
    { g with clones := g.clones.insert g.nextClone ⟨true, []⟩, nextClone := g.nextClone + 1 }
  | .detach id =>
    { g with clones := Assoc.modify id (fun c => { c with attached := false }) g.clones }
  | .dropClone id => { g with clones := g.clones.erase id }
  | .clone id =>
    match g.nextCommand id with
    | none => g
    | some cmd =>
      Gate.process
        { g with clones := Assoc.modify id (fun c => { c with commands := c.commands.tail }) g.clones }
        true cmd |>.1

end Netom.Comms
