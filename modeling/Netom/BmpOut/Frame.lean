import Netom.BmpOut.Client

/-!
# What the send paths leave alone

No send path touches the phase or the dump buffer.  A path that fails has found the channel closed
or has asked for a disconnect, and neither is ever taken back.

* `sendMessageMode_cases`  the three answers of the channel;
* `Evolves`  what holds of the answer of any send path;
* `evolves_sendUpdateToClient`  of an update; the steps of the dump are no different.
-/

namespace Netom

/-- the channel takes no more messages -/
def ClientState.Closed (ch : Channel) (c : ClientState) : Prop := ch.closed c.sends = true

lemma Channel.closed_mono {ch : Channel} {m n : Nat} (hmn : m ≤ n) (h : ch.closed m = true) :
    ch.closed n = true := by
  unfold Channel.closed at h ⊢
  cases hc : ch.closedFrom with
  | none =>
    rw [hc] at h
    cases h
  | some k =>
    rw [hc] at h
    simp only [Option.any_some, decide_eq_true_eq] at h ⊢
    omega

lemma sendMessageMode_cases (ch : Channel) (blocking : Bool) (c : ClientState)
    (i : Option IngressId) (msg : BmpMessage) :
    (c.Closed ch ∧
      c.sendMessageMode ch i msg blocking = (false, { c with sends := c.sends + 1 })) ∨
    (¬ c.Closed ch ∧ c.sendMessageMode ch i msg blocking =
      (true, { c with sends := c.sends + 1, queued := c.queued ++ [(i, msg)] })) ∨
    (¬ c.Closed ch ∧ blocking = false ∧ c.sendMessageMode ch i msg blocking =
      (false, { c with sends := c.sends + 1, disconnectPending := true })) := by
  unfold ClientState.Closed ClientState.sendMessageMode
  by_cases hc : ch.closed c.sends = true
  · exact .inl ⟨hc, if_pos hc⟩
  · by_cases hb : (blocking || !ch.full c.sends) = true
    · refine .inr (.inl ⟨hc, ?_⟩)
      rw [if_neg hc, if_pos hb]
    · refine .inr (.inr ⟨hc, ?_, ?_⟩)
      · cases blocking with
        | true => exact absurd rfl hb
        | false => rfl
      · rw [if_neg hc, if_neg hb]

lemma sendMessageMode_eq_true {ch : Channel} {blocking : Bool} {c c' : ClientState}
    {i : Option IngressId} {msg : BmpMessage}
    (h : c.sendMessageMode ch i msg blocking = (true, c')) : ¬ c.Closed ch ∧
      c' = { c with sends := c.sends + 1, queued := c.queued ++ [(i, msg)] } := by
  rcases sendMessageMode_cases ch blocking c i msg with ⟨hc, heq⟩ | ⟨hc, heq⟩ | ⟨hc, hb, heq⟩
  · rw [h] at heq
    cases heq
  · rw [h] at heq
    cases heq
    exact ⟨hc, rfl⟩
  · rw [h] at heq
    cases heq

structure Evolves (ch : Channel) (c : ClientState) (r : Bool × ClientState) : Prop where
  phase : r.2.phase = c.phase
  dumpBuffer : r.2.dumpBuffer = c.dumpBuffer
  sends : c.sends ≤ r.2.sends
  pending : c.disconnectPending = true → r.2.disconnectPending = true
  failed : r.1 = false → r.2.Closed ch ∨ r.2.disconnectPending = true

section evolves
variable {cfg : BmpOutConfig} {ch : Channel} {reg : Register} {blocking : Bool} {c : ClientState}

lemma Evolves.refl : Evolves ch c (true, c) := ⟨rfl, rfl, Nat.le_refl _, fun h => h, nofun⟩

lemma Evolves.trans {r r' : Bool × ClientState} (h : Evolves ch c r) (h' : Evolves ch r.2 r') :
    Evolves ch c r' where
  phase := h'.phase.trans h.phase
  dumpBuffer := h'.dumpBuffer.trans h.dumpBuffer
  sends := Nat.le_trans h.sends h'.sends
  pending hp := h'.pending (h.pending hp)
  failed := h'.failed

lemma Evolves.andThen {r : Bool × ClientState} {rest : ClientState → Bool × ClientState} :
    Evolves ch c r → (∀ c', Evolves ch c' (rest c')) → Evolves ch c (match r with
      | (false, c) => (false, c)
      | (true, c) => rest c) := by
  intro h hrest
  obtain ⟨sent, c'⟩ := r
  cases sent with
  | false => exact h
  | true => exact h.trans (hrest c')

lemma evolves_sendMessageMode (i : Option IngressId) (msg : BmpMessage) :
    Evolves ch c (c.sendMessageMode ch i msg blocking) := by
  rcases sendMessageMode_cases ch blocking c i msg with ⟨hc, heq⟩ | ⟨hc, heq⟩ | ⟨hc, hb, heq⟩
  · rw [heq]
    exact ⟨rfl, rfl, Nat.le_succ _, fun h => h,
      fun _ => .inl (Channel.closed_mono (Nat.le_succ _) hc)⟩
  · rw [heq]
    exact ⟨rfl, rfl, Nat.le_succ _, fun h => h, nofun⟩
  · rw [heq]
    exact ⟨rfl, rfl, Nat.le_succ _, fun _ => rfl, fun _ => .inr rfl⟩

variable (id : IngressId)

lemma evolves_sendBuilt (msg : Option BmpMessage) :
    Evolves ch c (sendBuilt ch blocking c id msg) := by
  cases msg with
  | none => exact Evolves.refl
  | some m => exact evolves_sendMessageMode _ _

lemma evolves_sendCached (peer : PeerInfo) (msg : Option BmpMessage) :
    Evolves ch c (sendBuilt ch blocking (c.cachePeerInfo id peer) id msg) := by
  have hc : Evolves ch c (true, c.cachePeerInfo id peer) :=
    ⟨rfl, rfl, Nat.le_refl _, fun h => h, nofun⟩
  exact hc.trans (evolves_sendBuilt id msg)

lemma evolves_ensurePeerUp : Evolves ch c (ensurePeerUp cfg ch reg blocking c id) := by
  by_cases hk : id ∈ c.knownPeers
  · rw [ensurePeerUp, if_pos hk]
    exact Evolves.refl
  cases hget : reg.get id with
  | none =>
    simp only [ensurePeerUp, if_neg hk, hget]
    exact ⟨rfl, rfl, Nat.le_refl _, fun h => h, nofun⟩
  | some info =>
    have hs : Evolves ch (c.addKnownPeer id) ((c.addKnownPeer id).sendMessageMode ch (some id)
        (.peerUp (buildPeerInfoForEmit cfg info)) blocking) := evolves_sendMessageMode _ _
    cases hr : (c.addKnownPeer id).sendMessageMode ch (some id)
        (.peerUp (buildPeerInfoForEmit cfg info)) blocking with
    | mk sent c' =>
      rw [hr] at hs
      simp only [ensurePeerUp, if_neg hk, hget, hr]
      cases sent with
      | true => exact ⟨hs.phase, hs.dumpBuffer, hs.sends, hs.pending, nofun⟩
      | false => exact ⟨hs.phase, hs.dumpBuffer, hs.sends, hs.pending, hs.failed⟩

/-- the emit target is found, and only the cache of them changes; or a disconnect is asked for -/
lemma resolveEmitTarget_cases (c : ClientState) (reg : Register) (id : IngressId) :
    c.resolveEmitTarget reg id = (none, c.requestDisconnect) ∨
    ∃ target cache, c.resolveEmitTarget reg id =
      (some target, { c with emitTargetCache := cache }) := by
  cases hl : c.emitTargetCache.lookup id with
  | some target =>
    refine .inr ⟨target, c.emitTargetCache, ?_⟩
    simp only [ClientState.resolveEmitTarget, hl]
  | none =>
    cases hget : reg.get id with
    | none =>
      left
      simp only [ClientState.resolveEmitTarget, hl, hget]
    | some info =>
      right
      simp only [ClientState.resolveEmitTarget, hl, hget, ClientState.cacheEmitTarget]
      split
      · exact ⟨_, _, rfl⟩
      · exact ⟨_, _, rfl⟩

lemma evolves_sendRawRouteMonitoring (body : Bytes) :
    Evolves ch c (sendRawRouteMonitoring cfg ch reg blocking c id body) := by
  cases hl : c.peerInfoCache.lookup id with
  | some peer =>
    simp only [sendRawRouteMonitoring, hl]
    exact evolves_sendBuilt _ _
  | none =>
    simp only [sendRawRouteMonitoring, hl]
    apply (evolves_ensurePeerUp id).andThen
    intro c'
    cases reg.get id with
    | none => exact Evolves.refl
    | some info => exact evolves_sendCached id _ _

lemma evolves_sendPeerStats (body : Bytes) :
    Evolves ch c (sendPeerStats cfg ch reg blocking c id body) := by
  unfold sendPeerStats
  apply (evolves_ensurePeerUp id).andThen
  intro c'
  cases reg.get id with
  | none => exact Evolves.refl
  | some info => exact evolves_sendMessageMode _ _

lemma evolves_sendPayloadToClient (payload : Payload) :
    Evolves ch c (sendPayloadToClient cfg ch reg blocking c payload) := by
  rcases resolveEmitTarget_cases c reg payload.ingressId with heq | ⟨⟨id, pathId⟩, cache, heq⟩
  · simp only [sendPayloadToClient, heq]
    exact ⟨rfl, rfl, Nat.le_refl _, fun _ => rfl, fun _ => .inr rfl⟩
  · have hc : Evolves ch c (true, { c with emitTargetCache := cache }) :=
      ⟨rfl, rfl, Nat.le_refl _, fun h => h, nofun⟩
    simp only [sendPayloadToClient, heq]
    cases hl : c.peerInfoCache.lookup id with
    | some peer => exact hc.trans (evolves_sendBuilt _ _)
    | none =>
      apply (hc.trans (evolves_ensurePeerUp id)).andThen
      intro c'
      cases reg.get id with
      | none => exact ⟨rfl, rfl, Nat.le_refl _, fun _ => rfl, fun _ => .inr rfl⟩
      | some info => exact evolves_sendCached id _ _

lemma evolves_sendPeerDown (entry : IngressId × Option IngressInfo) :
    Evolves ch c (sendPeerDown cfg ch reg blocking c entry) := by
  by_cases hk : entry.1 ∈ c.knownPeers
  · rw [sendPeerDown, if_pos hk]
    have hs : Evolves ch c (c.sendMessageMode ch (some entry.1)
        (.peerDown (buildPeerInfoForEmit cfg (peerDownInfo reg entry.1 entry.2))) blocking) :=
      evolves_sendMessageMode _ _
    exact ⟨hs.phase, hs.dumpBuffer, hs.sends, hs.pending, hs.failed⟩
  · rw [sendPeerDown, if_neg hk]
    exact Evolves.refl

lemma evolves_sendPeerReappeared :
    Evolves ch c (sendPeerReappeared cfg ch reg blocking c id) := by
  rcases resolveEmitTarget_cases c reg id with heq | ⟨⟨id', pathId⟩, cache, heq⟩
  · simp only [sendPeerReappeared, heq]
    exact ⟨rfl, rfl, Nat.le_refl _, fun _ => rfl, fun _ => .inr rfl⟩
  · have hc : Evolves ch c (true, { c with emitTargetCache := cache }) :=
      ⟨rfl, rfl, Nat.le_refl _, fun h => h, nofun⟩
    simp only [sendPeerReappeared, heq]
    cases reg.get id' with
    | none => exact hc
    | some info => exact hc.trans (evolves_ensurePeerUp id')

lemma evolves_loop {ε : Type} {f : ClientState → ε → Bool × ClientState}
    (hf : ∀ c x, Evolves ch c (f c x)) (xs : List ε) : Evolves ch c (Run.loop f c xs) := by
  induction xs generalizing c with
  | nil => exact Evolves.refl
  | cons x xs ih =>
    cases hx : (f c x).1 with
    | true =>
      rw [Run.loop_cons_true hx]
      exact (hf c x).trans ih
    | false =>
      rw [Run.loop_cons_false hx]
      exact hf c x

lemma evolves_sendUpdateToClient (update : Update) :
    Evolves ch c (sendUpdateToClient cfg ch reg blocking c update) := by
  cases update with
  | single payload => exact evolves_sendPayloadToClient payload
  | bulk payloads => exact evolves_loop (fun c p => evolves_sendPayloadToClient p) payloads
  | withdraw id afisafi => exact evolves_sendPeerDown (id, none)
  | withdrawBulk entries => exact evolves_loop (fun c e => evolves_sendPeerDown e) entries
  | ingressReappeared id => exact evolves_sendPeerReappeared id
  | peerStats id body => exact evolves_sendPeerStats id body
  | routeMonitoringRaw id body => exact evolves_sendRawRouteMonitoring id body
  | other => exact Evolves.refl

/-! ## the dump -/

lemma evolves_dumpPeerUp (d : DumpState) (entry : IngressId × IngressInfo) :
    Evolves ch d.client ((dumpPeerUp cfg ch d entry).1, (dumpPeerUp cfg ch d entry).2.client) := by
  have hs : Evolves ch d.client (d.client.sendMessageMode ch (some entry.1)
      (.peerUp (buildPeerInfoForEmit cfg entry.2)) true) := evolves_sendMessageMode _ _
  cases hr : d.client.sendMessageMode ch (some entry.1)
      (.peerUp (buildPeerInfoForEmit cfg entry.2)) true with
  | mk sent c' =>
    rw [hr] at hs
    simp only [dumpPeerUp, hr]
    cases sent with
    | true => exact ⟨hs.phase, hs.dumpBuffer, hs.sends, hs.pending, nofun⟩
    | false => exact hs

lemma evolves_walkStep (d : DumpState) (e : DumpEvent) :
    Evolves ch d.client ((walkStep cfg ch d e).1, (walkStep cfg ch d e).2.client) := by
  cases e with
  | record reg id =>
    cases hl : d.peerInfoMap.lookup id with
    | some peer =>
      simp only [walkStep, hl, Option.isSome_some, if_true]
      exact Evolves.refl
    | none =>
      cases hf : (reg.get id).filter isPeerType with
      | none =>
        simp only [walkStep, hl, hf]
        exact Evolves.refl
      | some info =>
        have hs : Evolves ch d.client (d.client.sendMessageMode ch (some id)
            (.peerUp (buildPeerInfoForEmit cfg info)) true) := evolves_sendMessageMode _ _
        cases hr : d.client.sendMessageMode ch (some id)
            (.peerUp (buildPeerInfoForEmit cfg info)) true with
        | mk sent c' =>
          rw [hr] at hs
          simp only [walkStep, hl, hf, hr]
          cases sent with
          | true | false => exact hs
  | message id bgpUpdate =>
    cases hl : d.peerInfoMap.lookup id with
    | none =>
      simp only [walkStep, hl]
      exact Evolves.refl
    | some peer =>
      simp only [walkStep, hl]
      exact evolves_sendMessageMode _ _

lemma foldl_addKnownPeer (c : ClientState) (ids : List IngressId) :
    ids.foldl ClientState.addKnownPeer c = { c with knownPeers := c.knownPeers ∪ ids.toFinset } := by
  induction ids generalizing c with
  | nil => simp
  | cons id ids ih =>
    rw [List.foldl_cons, ih]
    have hset : insert id c.knownPeers ∪ ids.toFinset = c.knownPeers ∪ (id :: ids).toFinset := by
      rw [List.toFinset_cons, Finset.insert_union, Finset.union_insert]
    simp only [ClientState.addKnownPeer, hset]

lemma evolves_finish (d : DumpState) : Evolves ch d.client (true, d.finish) := by
  unfold DumpState.finish
  rw [foldl_addKnownPeer]
  exact ⟨rfl, rfl, Nat.le_refl _, fun h => h, nofun⟩

end evolves

end Netom
