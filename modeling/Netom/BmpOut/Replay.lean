import Netom.Lib.Intake
import Netom.BmpOut.Frame

/-!
# From the dump to live

While a client is dumped the table, the updates that are delivered to it go into its dump buffer.
After the dump its task takes the buffer in batches and replays them, and when it finds the buffer
empty it makes the client live, under the lock that the deliveries check the phase under.

A delivery has two steps: it checks the phase and buffers the update, under the lock, or finds the
client live and sends the update itself, without the lock.  The two steps of deliveries and the
steps of the client's task come in any order (`Transfer.step`).

* `Transfer.abs`  the hand-over as an `Intake`;
* `run_refines`  a run is one of an intake, as long as the client is connected;
* `every_update_sent_once`  every update that arrives is sent, once and in order;
* `overlapping_unordered`  live deliveries that overlap are sent in any order.
-/

namespace Netom
open List ClientState Run

/-! ## the dump buffer -/

/-- the bounds of the dump buffer, and the size that an update counts for -/
structure BufferLimits where
  maxBufferEntries : Nat
  maxBufferBytes : Nat
  shallowBytes : Update → Nat

inductive BufferUpdateResult where
  | buffered
  | notDumping
  | overflow
  deriving DecidableEq, Repr

def saturatingAdd (a b : Nat) : Nat := min (a + b) (2 ^ 64 - 1)

def ClientState.bufferUpdateIfDumping (lim : BufferLimits) (c : ClientState) (update : Update) :
    BufferUpdateResult × ClientState :=
  if c.phase ≠ .dumping then (.notDumping, c)
  else if c.dumpBuffer.length ≥ lim.maxBufferEntries then (.overflow, c)
  else if saturatingAdd c.bufferedBytes (lim.shallowBytes update) > lim.maxBufferBytes then
    (.overflow, c)
  else (.buffered,
    { c with
      dumpBuffer := c.dumpBuffer ++ [update]
      bufferedBytes := (c.bufferedBytes + lim.shallowBytes update) % 2 ^ 64 })

def ClientState.takeBufferedUpdates (c : ClientState) : List Update × ClientState :=
  (c.dumpBuffer, { c with dumpBuffer := [], bufferedBytes := 0 })

/-! ## the task of a client and the deliveries -/

/-- where the task of the client stands -/
inductive DumpPc where
  | starting
  /-- the Peer Ups of the enumerated peers -/
  | enumerating (peerInfoMap : Assoc IngressId PeerInfo) (todo : List (IngressId × IngressInfo))
  | walking (peerInfoMap : Assoc IngressId PeerInfo) (discovered : List IngressId)
  /-- a batch of the replay; the next is taken when it is empty -/
  | draining (batch : List Update)
  /-- without a RIB, the buffer is replayed under the lock -/
  | noRib
  | lockedDraining (batch : List Update)
  | done

def DumpPc.batch : DumpPc → List Update
  | .draining batch | .lockedDraining batch => batch
  | _ => []

def DumpPc.locked : DumpPc → Bool
  | .lockedDraining _ => true
  | _ => false

/-- the dump is over, or there is none -/
def DumpPc.replaying : DumpPc → Bool
  | .draining _ | .noRib | .lockedDraining _ => true
  | _ => false

/-- a client, its task, and the deliveries to it -/
structure Transfer where
  client : ClientState
  pc : DumpPc
  /-- deliveries that found the client live and have not sent yet -/
  inFlight : List Update
  /-- the updates in the order in which they got to the client -/
  arrived : List Update
  /-- the updates that `send_update_to_client` returned true for, in that order -/
  sent : List Update

def Transfer.new : Transfer := ⟨ClientState.new, .starting, [], [], []⟩

inductive TransferEvent where
  /-- a delivery gets to the client -/
  | arrive (update : Update)
  /-- the delivery at this place in `inFlight` sends its update -/
  | send (reg : Register) (i : Nat)
  /-- the task starts, and enumerates the peers if there is a RIB -/
  | start (rib : Option Register)
  | walk (e : DumpEvent)
  | endWalk
  /-- the next step of the task where there is nothing to choose -/
  | tick (reg : Register)

def TransferEvent.isTick : TransferEvent → Bool
  | .tick _ => true
  | _ => false

namespace Transfer
variable (cfg : BmpOutConfig) (ch : Channel) (lim : BufferLimits)

def fail (s : Transfer) (c : ClientState) : Transfer :=
  { s with client := c.requestDisconnect, pc := .done }

/-- the lock section of `direct_update` -/
def arrive (s : Transfer) (update : Update) : Transfer :=
  let arrived := s.arrived ++ [update]
  match s.client.bufferUpdateIfDumping lim update with
  | (.buffered, c) => { s with client := c, arrived := arrived }
  | (.overflow, c) => { s with client := c.requestDisconnect, arrived := arrived }
  | (.notDumping, c) => { s with client := c, inFlight := s.inFlight ++ [update], arrived := arrived }

def tick (s : Transfer) (reg : Register) : Transfer :=
  match s.pc with
  | .enumerating map [] => { s with pc := .walking map [] }
  | .enumerating map (entry :: todo) =>
    match dumpPeerUp cfg ch ⟨s.client, map, []⟩ entry with
    | (true, d) => { s with client := d.client, pc := .enumerating d.peerInfoMap todo }
    | (false, d) => s.fail d.client
  | .draining [] =>
    match s.client.takeBufferedUpdates with
    | ([], c) => { s with client := { c with phase := .live }, pc := .done }
    | (batch, c) => { s with client := c, pc := .draining batch }
  | .draining (update :: batch) =>
    match sendUpdateToClient cfg ch reg true s.client update with
    | (true, c) => { s with client := c, pc := .draining batch, sent := s.sent ++ [update] }
    | (false, c) => s.fail c
  | .noRib =>
    let (batch, c) := s.client.takeBufferedUpdates
    { s with client := c, pc := .lockedDraining batch }
  | .lockedDraining [] => { s with client := { s.client with phase := .live }, pc := .done }
  | .lockedDraining (update :: batch) =>
    match sendUpdateToClient cfg ch reg true s.client update with
    | (true, c) => { s with client := c, pc := .lockedDraining batch, sent := s.sent ++ [update] }
    | (false, c) => { s with client := { c with phase := .live }, pc := .done }
  | .starting | .walking _ _ | .done => s

/-- an event that does not fit has no effect; a delivery passes a client by that was asked to
disconnect, and waits as long as the lock is held -/
def step (s : Transfer) : TransferEvent → Transfer
  | .arrive update =>
    if s.client.disconnectPending || s.pc.locked then s else s.arrive lim update
  | .send reg i =>
    match s.inFlight[i]? with
    | none => s
    | some update =>
      let inFlight := s.inFlight.eraseIdx i
      match sendUpdateToClient cfg ch reg false s.client update with
      | (true, c) => { s with client := c, inFlight := inFlight, sent := s.sent ++ [update] }
      | (false, c) => { s with client := c, inFlight := inFlight }
  | .start rib =>
    match s.pc, rib with
    | .starting, some reg =>
      match beginDump ch s.client with
      | (true, d) => { s with client := d.client, pc := .enumerating d.peerInfoMap (dumpPeers reg) }
      | (false, d) => s.fail d.client
    | .starting, none => { s with client := (beginDump ch s.client).2.client, pc := .noRib }
    | _, _ => s
  | .walk e =>
    match s.pc with
    | .walking map discovered =>
      match walkStep cfg ch ⟨s.client, map, discovered⟩ e with
      | (true, d) => { s with client := d.client, pc := .walking d.peerInfoMap d.discovered }
      | (false, d) => s.fail d.client
    | _ => s
  | .endWalk =>
    match s.pc with
    | .walking map discovered =>
      { s with client := DumpState.finish ⟨s.client, map, discovered⟩, pc := .draining [] }
    | _ => s
  | .tick reg => s.tick cfg ch reg

/-- what the client has but has not been sent -/
def waiting (s : Transfer) : List Update := s.pc.batch ++ s.client.dumpBuffer

/-- the updates that arrive, are in the hands of the client, and are in flight -/
def abs (s : Transfer) : Intake Update := ⟨s.arrived, s.sent ++ s.waiting, s.inFlight⟩

/-- the client was not asked to disconnect, and its connection stands -/
structure Connected (ch : Channel) (s : Transfer) : Prop where
  asked : s.client.disconnectPending = false
  writer : ¬ s.client.Closed ch

/-! ## what a step can do -/

/-- neither a request to disconnect nor the end of the connection is taken back -/
structure Ages (c c' : ClientState) : Prop where
  sends : c.sends ≤ c'.sends
  pending : c.disconnectPending = true → c'.disconnectPending = true

lemma Ages.refl (c : ClientState) : Ages c c := ⟨Nat.le_refl _, fun h => h⟩

lemma ages_of_evolves {ch : Channel} {c : ClientState} {r : Bool × ClientState}
    (h : Evolves ch c r) : Ages c r.2 := ⟨h.sends, h.pending⟩

/-- where the deliveries and the task stand towards each other -/
structure Shape (s : Transfer) : Prop where
  flight : s.inFlight ≠ [] → s.pc = .done
  live : s.pc = .done → s.client.phase = .live ∧ s.client.dumpBuffer = []
  dumping : s.pc ≠ .done → s.client.phase = .dumping
  locked : s.pc.locked = true → s.client.dumpBuffer = []

inductive Moves (ch : Channel) (s : Transfer) : Transfer → Prop where
  | idle : Moves ch s s
  /-- the client is asked to disconnect, or its connection is gone -/
  | gone (s' : Transfer) (ha : Ages s.client s'.client) (h : ¬ Connected ch s') : Moves ch s s'
  | dump (c : ClientState) (pc : DumpPc) (b : Bool) (hev : Evolves ch s.client (b, c))
      (hb : s.pc.batch = []) (hd : s.pc ≠ .done) (hb' : pc.batch = []) (hd' : pc ≠ .done)
      (hl' : pc.locked = false) : Moves ch s { s with client := c, pc := pc }
  | buffer (u : Update) (bytes : Nat) (hph : s.client.phase = .dumping)
      (hl : s.pc.locked = false) :
      Moves ch s
        { s with
          client := { s.client with
            dumpBuffer := s.client.dumpBuffer ++ [u], bufferedBytes := bytes }
          arrived := s.arrived ++ [u] }
  /-- a live delivery, and the end of one -/
  | enter (u : Update) (hph : s.client.phase ≠ .dumping) :
      Moves ch s { s with inFlight := s.inFlight ++ [u], arrived := s.arrived ++ [u] }
  | leave (c : ClientState) (i : Nat) (u : Update) (hi : s.inFlight[i]? = some u)
      (hev : Evolves ch s.client (true, c)) :
      Moves ch s
        { s with client := c, inFlight := s.inFlight.eraseIdx i, sent := s.sent ++ [u] }
  | replay (c : ClientState) (pc : DumpPc) (u : Update) (hb : s.pc.batch = u :: pc.batch)
      (hd' : pc ≠ .done) (hl : pc.locked = s.pc.locked) (hev : Evolves ch s.client (true, c)) :
      Moves ch s { s with client := c, pc := pc, sent := s.sent ++ [u] }
  | takeBatch (pc : DumpPc) (hb : s.pc.batch = []) (hd : s.pc ≠ .done)
      (hb' : pc.batch = s.client.dumpBuffer) (hd' : pc ≠ .done) :
      Moves ch s
        { s with client := { s.client with dumpBuffer := [], bufferedBytes := 0 }, pc := pc }
  | goLive (c : ClientState) (ha : Ages s.client c) (hph : c.phase = .live)
      (hc : c.dumpBuffer = s.client.dumpBuffer) (hb : s.pc.batch = []) (hd : s.pc ≠ .done)
      (hbuf : s.pc.locked = true ∨ s.client.dumpBuffer = []) :
      Moves ch s { s with client := c, pc := .done }

section moves
variable {cfg : BmpOutConfig} {ch : Channel} {lim : BufferLimits} {s : Transfer}

variable {s' : Transfer}

/-- a send that fails has found the connection gone, or has asked for a disconnect -/
lemma not_connected_of_failed {c c' : ClientState} (hev : Evolves ch c' (false, c))
    (hsends : s'.client.sends = c.sends)
    (hpending : s'.client.disconnectPending = c.disconnectPending) : ¬ Connected ch s' := by
  intro h
  rcases hev.failed rfl with hc | hd
  · apply h.writer
    unfold ClientState.Closed
    rw [hsends]
    exact hc
  · have hp := h.asked
    rw [hpending, show c.disconnectPending = true from hd] at hp
    cases hp

lemma not_connected_fail (c : ClientState) : ¬ Connected ch (s.fail c) := by
  intro h
  cases h.asked

lemma bufferUpdateIfDumping_cases (lim : BufferLimits) (c : ClientState) (u : Update) :
    (c.phase ≠ .dumping ∧ c.bufferUpdateIfDumping lim u = (.notDumping, c)) ∨
    (c.phase = .dumping ∧ c.bufferUpdateIfDumping lim u = (.overflow, c)) ∨
    (c.phase = .dumping ∧ ∃ bytes, c.bufferUpdateIfDumping lim u = (.buffered,
      { c with dumpBuffer := c.dumpBuffer ++ [u], bufferedBytes := bytes })) := by
  unfold bufferUpdateIfDumping
  by_cases hph : c.phase = .dumping
  · rw [if_neg (not_not_intro hph)]
    by_cases hn : c.dumpBuffer.length ≥ lim.maxBufferEntries
    · exact .inr (.inl ⟨hph, if_pos hn⟩)
    · rw [if_neg hn]
      by_cases hbytes : saturatingAdd c.bufferedBytes (lim.shallowBytes u) > lim.maxBufferBytes
      · exact .inr (.inl ⟨hph, if_pos hbytes⟩)
      · exact .inr (.inr ⟨hph, _, if_neg hbytes⟩)
  · exact .inl ⟨hph, if_pos hph⟩

lemma arrive_moves (hl : s.pc.locked = false) (u : Update) : Moves ch s (s.arrive lim u) := by
  rcases bufferUpdateIfDumping_cases lim s.client u with ⟨hph, heq⟩ | ⟨hph, heq⟩ | ⟨hph, bytes, heq⟩
  · simp only [arrive, heq]
    exact Moves.enter u hph
  · simp only [arrive, heq]
    refine Moves.gone _ ⟨Nat.le_refl _, fun _ => rfl⟩ fun h => ?_
    cases h.asked
  · simp only [arrive, heq]
    exact Moves.buffer u bytes hph hl

lemma ages_fail {c : ClientState} (h : Ages s.client c) : Ages s.client (s.fail c).client :=
  ⟨h.sends, fun _ => rfl⟩

/-- a step of the dump goes on, or the task gives up -/
lemma moves_of_dump (pc : DumpState → DumpPc) (hb : s.pc.batch = []) (hd : s.pc ≠ .done)
    (hpc : ∀ d, (pc d).batch = [] ∧ pc d ≠ .done ∧ (pc d).locked = false) (r : Bool × DumpState) :
    Evolves ch s.client (r.1, r.2.client) → Moves ch s (match r with
      | (true, d) => { s with client := d.client, pc := pc d }
      | (false, d) => s.fail d.client) := by
  intro hev
  obtain ⟨_ | _, d⟩ := r
  · exact Moves.gone _ (ages_fail (ages_of_evolves hev)) (not_connected_fail _)
  · exact Moves.dump d.client _ true hev hb hd (hpc d).1 (hpc d).2.1 (hpc d).2.2

lemma moves_of_replay {reg : Register} {u : Update} (pc : DumpPc)
    (hb : s.pc.batch = u :: pc.batch) (hd : pc ≠ .done) (hl : pc.locked = s.pc.locked)
    {gone : ClientState → Transfer}
    (hgone : ∀ c, Evolves ch s.client (false, c) →
      Ages s.client (gone c).client ∧ ¬ Connected ch (gone c)) :
    Moves ch s (match sendUpdateToClient cfg ch reg true s.client u with
      | (true, c) => { s with client := c, pc := pc, sent := s.sent ++ [u] }
      | (false, c) => gone c) := by
  have hev : Evolves ch s.client (sendUpdateToClient cfg ch reg true s.client u) :=
    evolves_sendUpdateToClient u
  rcases hr : sendUpdateToClient cfg ch reg true s.client u with ⟨_ | _, c⟩
  · rw [hr] at hev
    exact Moves.gone _ (hgone c hev).1 (hgone c hev).2
  · rw [hr] at hev
    exact Moves.replay c pc u hb hd hl hev

lemma tick_moves (reg : Register) : Moves ch s (s.tick cfg ch reg) := by
  cases hpc : s.pc with
  | starting | walking map discovered | done =>
    simp only [tick, hpc]
    exact Moves.idle
  | enumerating map todo =>
    cases todo with
    | nil =>
      simp only [tick, hpc]
      exact Moves.dump s.client _ true Evolves.refl (by rw [hpc]; rfl) (by rw [hpc]; nofun) rfl
        nofun rfl
    | cons entry todo =>
      simp only [tick, hpc]
      exact moves_of_dump (fun d => .enumerating d.peerInfoMap todo) (by rw [hpc]; rfl)
        (by rw [hpc]; nofun) (fun _ => ⟨rfl, nofun, rfl⟩) _
        (evolves_dumpPeerUp ⟨s.client, map, []⟩ entry)
  | draining batch =>
    cases batch with
    | nil =>
      cases hbuf : s.client.dumpBuffer with
      | nil =>
        simp only [tick, hpc, takeBufferedUpdates, hbuf]
        exact Moves.goLive _ ⟨Nat.le_refl _, fun h => h⟩ rfl hbuf.symm (by rw [hpc]; rfl)
          (by rw [hpc]; nofun) (.inr hbuf)
      | cons u us =>
        simp only [tick, hpc, takeBufferedUpdates, hbuf]
        exact Moves.takeBatch (.draining (u :: us)) (by rw [hpc]; rfl) (by rw [hpc]; nofun)
          hbuf.symm nofun
    | cons u batch =>
      simp only [tick, hpc]
      exact moves_of_replay (.draining batch) (by rw [hpc]; rfl) nofun (by rw [hpc]; rfl)
        fun c hev => ⟨ages_fail (ages_of_evolves hev), not_connected_fail c⟩
  | noRib =>
    simp only [tick, hpc, takeBufferedUpdates]
    exact Moves.takeBatch (.lockedDraining s.client.dumpBuffer) (by rw [hpc]; rfl)
      (by rw [hpc]; nofun) rfl nofun
  | lockedDraining batch =>
    cases batch with
    | nil =>
      simp only [tick, hpc]
      exact Moves.goLive _ ⟨Nat.le_refl _, fun h => h⟩ rfl rfl (by rw [hpc]; rfl)
        (by rw [hpc]; nofun) (.inl (by rw [hpc]; rfl))
    | cons u batch =>
      simp only [tick, hpc]
      exact moves_of_replay (.lockedDraining batch) (by rw [hpc]; rfl) nofun (by rw [hpc]; rfl)
        fun c hev => ⟨⟨hev.sends, hev.pending⟩, not_connected_of_failed hev rfl rfl⟩

lemma step_moves (e : TransferEvent) : Moves ch s (s.step cfg ch lim e) := by
  cases e with
  | tick reg => exact tick_moves reg
  | arrive u =>
    by_cases hw : (s.client.disconnectPending || s.pc.locked) = true
    · simp only [step, hw, if_true]
      exact Moves.idle
    · simp only [step, hw, if_false, Bool.false_eq_true]
      exact arrive_moves (Bool.or_eq_false_iff.mp (Bool.eq_false_iff.mpr hw)).2 u
  | send reg i =>
    cases hi : s.inFlight[i]? with
    | none =>
      simp only [step, hi]
      exact Moves.idle
    | some u =>
      have hev : Evolves ch s.client (sendUpdateToClient cfg ch reg false s.client u) :=
        evolves_sendUpdateToClient u
      cases hr : sendUpdateToClient cfg ch reg false s.client u with
      | mk sent c =>
        rw [hr] at hev
        simp only [step, hi, hr]
        cases sent with
        | true => exact Moves.leave c i u hi hev
        | false =>
          exact Moves.gone _ (ages_of_evolves hev) (not_connected_of_failed hev rfl rfl)
  | start rib =>
    have hev : Evolves ch s.client ((beginDump ch s.client).1, (beginDump ch s.client).2.client) :=
      evolves_sendMessageMode none .initiation
    cases hpc : s.pc with
    | starting =>
      cases rib with
      | none =>
        simp only [step, hpc]
        exact Moves.dump _ .noRib _ hev (by rw [hpc]; rfl) (by rw [hpc]; nofun) rfl nofun rfl
      | some reg =>
        simp only [step, hpc]
        exact moves_of_dump (fun d => .enumerating d.peerInfoMap (dumpPeers reg)) (by rw [hpc]; rfl)
          (by rw [hpc]; nofun) (fun _ => ⟨rfl, nofun, rfl⟩) _ hev
    | _ =>
      simp only [step, hpc]
      exact Moves.idle
  | walk e =>
    cases hpc : s.pc with
    | walking map discovered =>
      simp only [step, hpc]
      exact moves_of_dump (fun d => .walking d.peerInfoMap d.discovered) (by rw [hpc]; rfl)
        (by rw [hpc]; nofun) (fun _ => ⟨rfl, nofun, rfl⟩) _
        (evolves_walkStep ⟨s.client, map, discovered⟩ e)
    | _ =>
      simp only [step, hpc]
      exact Moves.idle
  | endWalk =>
    cases hpc : s.pc with
    | walking map discovered =>
      have hev : Evolves ch s.client (true, DumpState.finish ⟨s.client, map, discovered⟩) :=
        evolves_finish ⟨s.client, map, discovered⟩
      simp only [step, hpc]
      exact Moves.dump _ _ true hev (by rw [hpc]; rfl) (by rw [hpc]; nofun) rfl nofun rfl
    | _ =>
      simp only [step, hpc]
      exact Moves.idle

lemma Moves.ages (h : Moves ch s s') : Ages s.client s'.client := by
  cases h with
  | idle | enter u => exact Ages.refl _
  | gone _ ha _ | goLive c ha => exact ha
  | dump c pc b hev | leave c i u hi hev | replay c pc u hb hd' hl hev => exact ages_of_evolves hev
  | buffer u bytes | takeBatch pc => exact ⟨Nat.le_refl _, fun h => h⟩

lemma Moves.connected (h : Moves ch s s') (hc : Connected ch s') : Connected ch s := by
  have ha := h.ages
  constructor
  · cases hp : s.client.disconnectPending with
    | false => rfl
    | true =>
      have hp' := ha.pending hp
      rw [hc.asked] at hp'
      cases hp'
  · intro hclosed
    exact hc.writer (Channel.closed_mono ha.sends hclosed)

lemma Moves.shape (h : Moves ch s s') (hs : Shape s) (hc : Connected ch s') : Shape s' := by
  cases h with
  | idle => exact hs
  | gone _ ha hn => exact absurd hc hn
  | dump c pc b hev hb hd hb' hd' hl' =>
    have hph : c.phase = .dumping := hev.phase.trans (hs.dumping hd)
    refine ⟨fun hf => absurd (hs.flight hf) hd, fun h => absurd h hd', fun _ => hph, fun h => ?_⟩
    rw [show pc.locked = true from h] at hl'
    cases hl'
  | buffer u bytes hph hl =>
    have hd : s.pc ≠ .done := by
      intro h
      rw [(hs.live h).1] at hph
      cases hph
    refine ⟨hs.flight, fun h => absurd h hd, hs.dumping, fun h => ?_⟩
    rw [show s.pc.locked = true from h] at hl
    cases hl
  | enter u hph =>
    have hd : s.pc = .done := Classical.byContradiction fun h => hph (hs.dumping h)
    exact ⟨fun _ => hd, hs.live, hs.dumping, hs.locked⟩
  | leave c i u hi hev =>
    refine ⟨fun hf => hs.flight ?_, fun hd => ?_, fun hd => ?_, fun hl => ?_⟩
    · intro hnil
      rw [hnil] at hi
      cases hi
    · obtain ⟨hph, hbuf⟩ := hs.live hd
      exact ⟨hev.phase.trans hph, hev.dumpBuffer.trans hbuf⟩
    · exact hev.phase.trans (hs.dumping hd)
    · exact hev.dumpBuffer.trans (hs.locked hl)
  | replay c pc u hb hd' hl hev =>
    have hd : s.pc ≠ .done := by
      intro h
      rw [h] at hb
      cases hb
    refine ⟨fun hf => absurd (hs.flight hf) hd, fun h => absurd h hd', fun _ => ?_, fun h => ?_⟩
    · exact hev.phase.trans (hs.dumping hd)
    · exact hev.dumpBuffer.trans (hs.locked (hl.symm.trans h))
  | takeBatch pc hb hd hb' hd' =>
    exact ⟨fun hf => absurd (hs.flight hf) hd, fun h => absurd h hd', fun _ => hs.dumping hd,
      fun _ => rfl⟩
  | goLive c ha hph hc' hb hd hbuf =>
    have hnil : s.client.dumpBuffer = [] := hbuf.elim hs.locked fun h => h
    exact ⟨fun _ => rfl, fun _ => ⟨hph, hc'.trans hnil⟩, fun h => absurd rfl h, nofun⟩

lemma waiting_done (hs : Shape s) (hd : s.pc = .done) : s.waiting = [] := by
  unfold waiting
  rw [hd, (hs.live hd).2]
  rfl

/-- **Each step is one of an intake.** -/
theorem Moves.refines {alone : Prop} (h : Moves ch s s') (hs : Shape s) (hc : Connected ch s')
    (halone : alone → s.inFlight = [] ∨ s'.arrived = s.arrived) :
    Intake.Step alone s.abs s'.abs := by
  -- most steps leave the three lists as they are
  have hstay : ∀ {t : Transfer}, t.arrived = s.arrived → t.sent ++ t.waiting = s.sent ++ s.waiting →
      t.inFlight = s.inFlight → Intake.Step alone s.abs t.abs := by
    intro t h1 h2 h3
    have heq : t.abs = s.abs := by
      unfold abs
      rw [h1, h2, h3]
    rw [heq]
    exact Intake.Step.stay s.abs
  cases h with
  | idle => exact Intake.Step.stay s.abs
  | gone _ ha hn => exact absurd hc hn
  | dump c pc b hev hb hd hb' hd' hl' =>
    refine hstay rfl ?_ rfl
    show s.sent ++ (pc.batch ++ c.dumpBuffer) = s.sent ++ (s.pc.batch ++ s.client.dumpBuffer)
    rw [hb, hb', hev.dumpBuffer]
  | buffer u bytes hph hl =>
    have hf : s.inFlight = [] := by
      by_contra hne
      rw [(hs.live (hs.flight hne)).1] at hph
      cases hph
    have htake : Intake.Step alone s.abs _ := Intake.Step.take s.abs u hf
    have hassoc : s.sent ++ (s.pc.batch ++ (s.client.dumpBuffer ++ [u])) =
        s.sent ++ (s.pc.batch ++ s.client.dumpBuffer) ++ [u] := by
      simp only [append_assoc]
    show Intake.Step alone s.abs ⟨s.arrived ++ [u],
      s.sent ++ (s.pc.batch ++ (s.client.dumpBuffer ++ [u])), s.inFlight⟩
    rw [hassoc]
    exact htake
  | enter u hph =>
    refine Intake.Step.enter s.abs u fun ha => ?_
    rcases halone ha with hf | harr
    · exact hf
    · simp at harr
  | leave c i u hi hev =>
    have hd : s.pc = .done := by
      apply hs.flight
      intro hnil
      rw [hnil] at hi
      cases hi
    have hw : s.waiting = [] := waiting_done hs hd
    have hw' : s.pc.batch ++ c.dumpBuffer = [] := by
      rw [hev.dumpBuffer]
      exact hw
    have hleave : Intake.Step alone s.abs _ := Intake.Step.leave s.abs i u hi
    show Intake.Step alone s.abs ⟨s.arrived, s.sent ++ [u] ++ (s.pc.batch ++ c.dumpBuffer),
      s.inFlight.eraseIdx i⟩
    rw [hw', append_nil]
    have heq : s.abs.taken = s.sent := by
      show s.sent ++ s.waiting = s.sent
      rw [hw, append_nil]
    rw [heq] at hleave
    exact hleave
  | replay c pc u hb hd' hl hev =>
    refine hstay rfl ?_ rfl
    show s.sent ++ [u] ++ (pc.batch ++ c.dumpBuffer) = s.sent ++ (s.pc.batch ++ s.client.dumpBuffer)
    rw [hb, hev.dumpBuffer]
    simp
  | takeBatch pc hb hd hb' hd' =>
    refine hstay rfl ?_ rfl
    show s.sent ++ (pc.batch ++ []) = s.sent ++ (s.pc.batch ++ s.client.dumpBuffer)
    rw [hb, hb', append_nil, nil_append]
  | goLive c ha hph hc' hb hd hbuf =>
    refine hstay rfl ?_ rfl
    show s.sent ++ ([] ++ c.dumpBuffer) = s.sent ++ (s.pc.batch ++ s.client.dumpBuffer)
    rw [hb, hc']

end moves

/-! ## runs -/

section runs
variable {cfg : BmpOutConfig} {ch : Channel} {lim : BufferLimits}

/-- an update arrives only when no live delivery is under way -/
def OneAtATime (s : Transfer) : TransferEvent → Prop
  | .arrive _ => s.inFlight = []
  | _ => True

lemma arrived_tick (s : Transfer) (reg : Register) : (s.tick cfg ch reg).arrived = s.arrived := by
  simp only [tick]
  repeat' split
  all_goals rfl

variable {s : Transfer}

lemma arrived_step {e : TransferEvent} (h : OneAtATime s e) :
    s.inFlight = [] ∨ (s.step cfg ch lim e).arrived = s.arrived := by
  cases e with
  | arrive u => exact .inl h
  | tick reg => exact .inr (arrived_tick s reg)
  | send reg i | start rib | walk e =>
    right
    simp only [step]
    repeat' split
    all_goals rfl
  | endWalk =>
    right
    simp only [step]
    split <;> rfl

variable {es : List TransferEvent}

lemma run_connected (hc : Connected ch (run (step cfg ch lim) s es)) :
    Connected ch s := by
  induction es generalizing s with
  | nil => exact hc
  | cons e es ih => exact (step_moves e).connected (ih hc)

lemma run_shape (hs : Shape s)
    (hc : Connected ch (run (step cfg ch lim) s es)) : Shape (run (step cfg ch lim) s es) := by
  induction es generalizing s with
  | nil => exact hs
  | cons e es ih => exact ih ((step_moves e).shape hs (run_connected hc)) hc

lemma run_refines {alone : Prop} (hs : Shape s)
    (hc : Connected ch (run (step cfg ch lim) s es))
    (ha : alone → Run.Along (step cfg ch lim) OneAtATime s es) :
    Intake.Steps alone s.abs (run (step cfg ch lim) s es).abs := by
  induction es generalizing s with
  | nil => exact Relation.ReflTransGen.refl
  | cons e es ih =>
    have hm : Moves ch s (s.step cfg ch lim e) := step_moves e
    have hc1 : Connected ch (s.step cfg ch lim e) := run_connected hc
    refine Relation.ReflTransGen.head ?_ (ih (hm.shape hs hc1) hc fun h => (ha h).2)
    exact hm.refines hs hc1 fun h => arrived_step (ha h).1

lemma run_grows (hs : Shape s)
    (hc : Connected ch (run (step cfg ch lim) s es)) :
    s.sent ++ s.waiting <+: (run (step cfg ch lim) s es).sent ++
      (run (step cfg ch lim) s es).waiting := by
  have hsteps : Intake.Steps False s.abs (run (step cfg ch lim) s es).abs :=
    run_refines hs hc nofun
  exact hsteps.taken_grows

lemma shape_new : Shape new := ⟨fun h => absurd rfl h, nofun, fun _ => rfl, nofun⟩

/-! ## the replay goes on -/

lemma tick_replays (hs : Shape s) (hr : s.pc.replaying = true) {reg : Register}
    (hc : Connected ch (s.tick cfg ch reg)) :
    (s.waiting = [] ∧ (s.tick cfg ch reg).pc = .done ∧ (s.tick cfg ch reg).sent = s.sent) ∨
    (s.pc.batch = [] ∧ (s.tick cfg ch reg).pc.batch = s.client.dumpBuffer ∧
      (s.tick cfg ch reg).pc.replaying = true ∧ (s.tick cfg ch reg).sent = s.sent) ∨
    (∃ u, s.pc.batch = u :: (s.tick cfg ch reg).pc.batch ∧
      (s.tick cfg ch reg).pc.replaying = true ∧ (s.tick cfg ch reg).sent = s.sent ++ [u]) := by
  cases hpc : s.pc with
  | noRib =>
    right
    left
    simp only [tick, hpc, takeBufferedUpdates]
    exact ⟨rfl, rfl, rfl, trivial⟩
  | draining batch =>
    cases batch with
    | nil =>
      cases hbuf : s.client.dumpBuffer with
      | nil =>
        left
        simp only [tick, hpc, takeBufferedUpdates, hbuf, waiting]
        exact ⟨rfl, trivial, trivial⟩
      | cons u us =>
        right
        left
        simp only [tick, hpc, takeBufferedUpdates, hbuf]
        exact ⟨rfl, rfl, rfl, trivial⟩
    | cons u batch =>
      cases hsend : sendUpdateToClient cfg ch reg true s.client u with
      | mk sent c =>
        simp only [tick, hpc, hsend] at hc ⊢
        cases sent with
        | false => exact absurd hc (not_connected_fail c)
        | true => exact .inr (.inr ⟨u, rfl, rfl, rfl⟩)
  | lockedDraining batch =>
    cases batch with
    | nil =>
      left
      simp only [tick, hpc, waiting]
      refine ⟨?_, trivial, trivial⟩
      exact hs.locked (by rw [hpc]; rfl)
    | cons u batch =>
      have hev : Evolves ch s.client (sendUpdateToClient cfg ch reg true s.client u) :=
        evolves_sendUpdateToClient u
      cases hsend : sendUpdateToClient cfg ch reg true s.client u with
      | mk sent c =>
        rw [hsend] at hev
        simp only [tick, hpc, hsend] at hc ⊢
        cases sent with
        | false => exact absurd hc (not_connected_of_failed hev rfl rfl)
        | true => exact .inr (.inr ⟨u, rfl, rfl, rfl⟩)
  | _ =>
    rw [hpc] at hr
    cases hr

lemma step_other (hr : s.pc.replaying = true ∨ s.pc = .done) {e : TransferEvent}
    (he : e.isTick = false) :
    (s.step cfg ch lim e).pc = s.pc ∧ s.sent <+: (s.step cfg ch lim e).sent := by
  cases e with
  | tick reg => cases he
  | arrive u =>
    simp only [step, arrive]
    repeat' split
    all_goals exact ⟨rfl, prefix_refl _⟩
  | send reg i =>
    simp only [step]
    repeat' split
    · exact ⟨rfl, prefix_refl _⟩
    · exact ⟨rfl, prefix_append _ _⟩
    · exact ⟨rfl, prefix_refl _⟩
  | start rib =>
    have hpc : s.pc ≠ .starting := by
      rintro h
      rw [h] at hr
      rcases hr with hr | hr <;> cases hr
    simp only [step]
    split
    · exact absurd (by assumption) hpc
    · exact absurd (by assumption) hpc
    · exact ⟨rfl, prefix_refl _⟩
  | walk e | endWalk =>
    simp only [step]
    split
    · rename_i hpc
      rw [hpc] at hr
      rcases hr with hr | hr <;> cases hr
    · exact ⟨rfl, prefix_refl _⟩

/-- the steps of the task until the first `n` updates are sent -/
def stepsTo (n : Nat) (s : Transfer) : Nat :=
  if n ≤ s.sent.length then 0
  else n - s.sent.length + (if n ≤ s.sent.length + s.pc.batch.length then 0 else 1)

lemma stepsTo_eq_zero {n : Nat} : s.stepsTo n = 0 ↔ n ≤ s.sent.length := by
  unfold stepsTo
  split
  · simp only [true_iff]
    assumption
  · constructor <;> omega

lemma stepsTo_other {s s' : Transfer} {n : Nat} (hpc : s'.pc = s.pc) (hsent : s.sent <+: s'.sent) :
    s'.stepsTo n ≤ s.stepsTo n := by
  have hlen := hsent.length_le
  unfold stepsTo
  rw [hpc]
  repeat' split
  all_goals omega

lemma stepsTo_tick {n : Nat} (hs : Shape s)
    (hr : s.pc.replaying = true ∨ s.pc = .done) (hn : n ≤ (s.sent ++ s.waiting).length)
    {reg : Register} (hc : Connected ch (s.tick cfg ch reg)) :
    ((s.tick cfg ch reg).pc.replaying = true ∨ (s.tick cfg ch reg).pc = .done) ∧
    (s.tick cfg ch reg).stepsTo n ≤ s.stepsTo n - 1 := by
  rcases hr with hr | hd
  · rcases tick_replays hs hr hc with ⟨hw, hpc, hsent⟩ | ⟨hb, hb', hpc, hsent⟩ | ⟨u, hb, hpc, hsent⟩
    · rw [hw, append_nil, ← hsent] at hn
      refine ⟨.inr hpc, ?_⟩
      rw [stepsTo_eq_zero.mpr hn]
      exact Nat.zero_le _
    · rw [waiting, hb, nil_append, length_append] at hn
      refine ⟨.inl hpc, ?_⟩
      unfold stepsTo
      rw [hsent, hb, hb', if_pos hn, length_nil]
      repeat' split
      all_goals omega
    · refine ⟨.inl hpc, ?_⟩
      unfold stepsTo
      rw [hsent, hb, length_append, length_cons, length_cons, length_nil]
      repeat' split
      all_goals omega
  · have htick : s.tick cfg ch reg = s := by simp only [tick, hd]
    rw [waiting_done hs hd, append_nil] at hn
    rw [htick, stepsTo_eq_zero.mpr hn]
    exact ⟨.inr hd, Nat.zero_le _⟩

/-- whatever else happens, the task sends what is waiting -/
lemma run_sends {n : Nat} (hs : Shape s)
    (hr : s.pc.replaying = true ∨ s.pc = .done) (hn : n ≤ (s.sent ++ s.waiting).length)
    (hc : Connected ch (run (step cfg ch lim) s es))
    (ht : s.stepsTo n ≤ es.countP TransferEvent.isTick) :
    n ≤ (run (step cfg ch lim) s es).sent.length := by
  induction es generalizing s with
  | nil => exact stepsTo_eq_zero.mp (Nat.le_zero.mp ht)
  | cons e es ih =>
    have hc1 : Connected ch (s.step cfg ch lim e) := run_connected hc
    have hs1 : Shape (s.step cfg ch lim e) := (step_moves e).shape hs hc1
    have hn1 := Nat.le_trans hn (@run_grows cfg ch lim s [e] hs hc1).length_le
    rw [countP_cons] at ht
    cases he : e.isTick with
    | true =>
      cases e with
      | tick reg =>
        obtain ⟨hr1, hsteps⟩ := stepsTo_tick hs hr hn hc1
        rw [he, if_pos rfl] at ht
        refine ih hs1 hr1 hn1 hc ?_
        show (s.tick cfg ch reg).stepsTo n ≤ _
        omega
      | _ => cases he
    | false =>
      obtain ⟨hpc, hsent⟩ := @step_other cfg ch lim s hr e he
      rw [he, if_neg Bool.false_ne_true] at ht
      have hsteps : (s.step cfg ch lim e).stepsTo n ≤ s.stepsTo n := stepsTo_other hpc hsent
      rw [← hpc] at hr
      exact ih hs1 hr hn1 hc (by omega)

end runs

/-! ## every update, once and in order -/

/-- the state after the events, from the moment the client is registered -/
def reached (cfg : BmpOutConfig) (ch : Channel) (lim : BufferLimits) (es : List TransferEvent) :
    Transfer := run (step cfg ch lim) new es

structure SentOnce (cfg : BmpOutConfig) (ch : Channel) (lim : BufferLimits)
    (es : List TransferEvent) : Prop where
  /-- each update that arrived is sent, waits for the replay, or is in flight, and only once -/
  once : ((reached cfg ch lim es).sent ++ (reached cfg ch lim es).waiting ++
    (reached cfg ch lim es).inFlight).Perm (reached cfg ch lim es).arrived
  /-- what comes later is sent later -/
  kept : ∀ es₁ es₂, es = es₁ ++ es₂ →
    (reached cfg ch lim es₁).sent ++ (reached cfg ch lim es₁).waiting <+:
      (reached cfg ch lim es).sent ++ (reached cfg ch lim es).waiting
  /-- if no update arrives during a live delivery, the order is that of the arrivals -/
  inOrder : Run.Along (step cfg ch lim) OneAtATime new es →
    (reached cfg ch lim es).sent ++ (reached cfg ch lim es).waiting ++
      (reached cfg ch lim es).inFlight = (reached cfg ch lim es).arrived
  /-- after the dump, what waits is sent in as many steps of the task, and one to take it -/
  replayed : ∀ es₁ es₂, es = es₁ ++ es₂ → (reached cfg ch lim es₁).pc.replaying = true →
    (reached cfg ch lim es₁).waiting.length < es₂.countP TransferEvent.isTick →
    (reached cfg ch lim es₁).sent ++ (reached cfg ch lim es₁).waiting <+:
      (reached cfg ch lim es).sent
  /-- and the client is live only when nothing waits -/
  finished : (reached cfg ch lim es).pc = .done → (reached cfg ch lim es).waiting = []

section reached
variable {cfg : BmpOutConfig} {ch : Channel} {lim : BufferLimits}

lemma reached_append (es₁ es₂ : List TransferEvent) : reached cfg ch lim (es₁ ++ es₂) =
    run (step cfg ch lim) (reached cfg ch lim es₁) es₂ := run_append _ _ _ _

lemma stepsTo_waiting (s : Transfer) :
    s.stepsTo (s.sent ++ s.waiting).length ≤ s.waiting.length + 1 := by
  unfold stepsTo
  rw [length_append]
  repeat' split
  all_goals omega

lemma replay_sent {s : Transfer} (hs : Shape s) (hr : s.pc.replaying = true)
    {es : List TransferEvent} (hc : Connected ch (run (step cfg ch lim) s es))
    (ht : s.waiting.length < es.countP TransferEvent.isTick) :
    s.sent ++ s.waiting <+: (run (step cfg ch lim) s es).sent := by
  have hlen : (s.sent ++ s.waiting).length ≤ (run (step cfg ch lim) s es).sent.length :=
    run_sends hs (.inl hr) (Nat.le_refl _) hc (Nat.le_trans (stepsTo_waiting s) ht)
  exact prefix_of_prefix_length_le (run_grows hs hc) (prefix_append _ _) hlen

end reached

/-- **Every update that arrives at a client is sent to it exactly once, through the replay or live,
and in the order of the arrivals unless live deliveries overlap.** -/
theorem every_update_sent_once (cfg : BmpOutConfig) (ch : Channel) (lim : BufferLimits)
    {es : List TransferEvent} (hc : Connected ch (reached cfg ch lim es)) :
    SentOnce cfg ch lim es := by
  have hsteps : Intake.Steps False new.abs (reached cfg ch lim es).abs :=
    run_refines shape_new hc nofun
  -- a client that is connected at the end was connected all the time
  have hcut : ∀ es₁ es₂, es = es₁ ++ es₂ → Shape (reached cfg ch lim es₁) ∧
      Connected ch (run (step cfg ch lim) (reached cfg ch lim es₁) es₂) := by
    intro es₁ es₂ heq
    rw [heq, reached_append] at hc
    exact ⟨run_shape shape_new (run_connected hc), hc⟩
  constructor
  case once => exact hsteps.whole (List.Perm.refl _)
  case kept =>
    intro es₁ es₂ heq
    obtain ⟨hs₁, hc₂⟩ := hcut es₁ es₂ heq
    rw [heq, reached_append]
    exact run_grows hs₁ hc₂
  case inOrder =>
    intro ha
    have halone : Intake.Steps True new.abs (reached cfg ch lim es).abs :=
      run_refines shape_new hc fun _ => ha
    exact (halone.inOrder ⟨rfl, Nat.zero_le _⟩).1
  case replayed =>
    intro es₁ es₂ heq hr ht
    obtain ⟨hs₁, hc₂⟩ := hcut es₁ es₂ heq
    rw [heq, reached_append]
    exact replay_sent hs₁ hr hc₂ ht
  case finished => exact waiting_done (run_shape shape_new hc)

/-- room for every update -/
def wide : BufferLimits := ⟨16, 1024, fun _ => 1⟩

/-- a second neighbor -/
def neighborsRegister : Register :=
  ⟨3, neighborRegister.info.insert 2 { neighborInfo with remoteAddr := some (.v4 0xc0000202#32) }⟩

def firstRoute : Update := .single neighborPayload

def secondRoute : Update := .single { neighborPayload with ingressId := 2 }

/-- the dump of an empty RIB -/
def emptyDump : List TransferEvent :=
  [.start (some neighborsRegister), .tick neighborsRegister, .tick neighborsRegister,
    .tick neighborsRegister, .endWalk]

/-- an update during the dump, one during the replay, and a live one -/
def acrossPhases : List TransferEvent :=
  [.arrive firstRoute] ++ emptyDump ++
    [.tick neighborsRegister, .arrive secondRoute, .tick neighborsRegister,
      .tick neighborsRegister, .tick neighborsRegister, .tick neighborsRegister,
      .arrive (.withdraw 1 none), .send neighborsRegister 0]

theorem every_update_sent_once_acrossPhases : SentOnce plainOut roomy wide acrossPhases ∧
    (reached plainOut roomy wide acrossPhases).sent =
      [firstRoute, secondRoute, .withdraw 1 none] :=
  ⟨every_update_sent_once plainOut roomy wide ⟨rfl, nofun⟩, rfl⟩

/-- two live deliveries, of which the second is first to send -/
def overlapping : List TransferEvent :=
  emptyDump ++ [.tick neighborsRegister, .arrive firstRoute, .arrive secondRoute,
    .send neighborsRegister 1, .send neighborsRegister 0]

/-- a connection that ends after the dump, which is noticed when there is something to send -/
def endsAfterDump : Channel := ⟨fun _ => false, some 3⟩

def afterTheEnd : List TransferEvent :=
  emptyDump ++ [.tick neighborsRegister, .arrive firstRoute, .send neighborsRegister 0]

theorem overlapping_unordered :
    ((reached plainOut roomy wide overlapping).client.disconnectPending = false ∧
      (reached plainOut roomy wide overlapping).waiting = [] ∧
      (reached plainOut roomy wide overlapping).inFlight = [] ∧
      (reached plainOut roomy wide overlapping).arrived = [firstRoute, secondRoute] ∧
      (reached plainOut roomy wide overlapping).sent = [secondRoute, firstRoute]) ∧
    ((reached plainOut endsAfterDump wide afterTheEnd).client.disconnectPending = false ∧
      (reached plainOut endsAfterDump wide afterTheEnd).waiting = [] ∧
      (reached plainOut endsAfterDump wide afterTheEnd).inFlight = [] ∧
      (reached plainOut endsAfterDump wide afterTheEnd).arrived = [firstRoute] ∧
      (reached plainOut endsAfterDump wide afterTheEnd).sent = []) :=
  ⟨⟨rfl, rfl, rfl, rfl, rfl⟩, rfl, rfl, rfl, rfl, rfl⟩

end Transfer

end Netom
