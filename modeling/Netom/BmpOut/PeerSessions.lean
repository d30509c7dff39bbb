import Netom.Lib.Trace
import Netom.BmpOut.Frame

/-!
# Peer Up and Peer Down in what a client is sent

A collector takes a message about a peer only between a Peer Up and a Peer Down with the header of
that peer, and a Peer Up only if the peer is not up (`PeerOrdered`).

The send paths decide by `knownPeers` whether a Peer Up is due, and build headers from the register.
They keep the order as long as the two agree.

* `Tracking`  the known peers are those that are up;
* `Consistent`, `UpdateOk`  what the register has to say when an update is sent;
* `sendUpdateToClient_spec`  with it, an update keeps the order.
-/

namespace Netom

abbrev Sent := List (Option IngressId × BmpMessage)

/-! ## what a collector sees -/

/-- there was a Peer Up with this header, and no Peer Down since -/
def IsUp (header : PeerInfo) (sent : Sent) : Prop :=
  Trace.Since (fun e => ∃ peer, e.2 = .peerUp peer ∧ peer.header = header)
    (fun e => ∃ peer, e.2 = .peerDown peer ∧ peer.header = header) sent

/-- what the messages before one must be -/
def InSession (sent : Sent) (e : Option IngressId × BmpMessage) : Prop :=
  match e.2 with
  | .initiation => True
  | .peerUp peer => ¬ IsUp peer.header sent
  | .peerDown peer | .routeMonitoring peer _ | .statisticsReport peer _ => IsUp peer.header sent

def PeerOrdered (sent : Sent) : Prop := Trace.Each InSession sent

/-- the header of the last Peer Up that was sent for an ingress -/
def lastUp (id : IngressId) (sent : Sent) : Option PeerInfo :=
  sent.foldl (fun last e => match e with
    | (some i, .peerUp peer) => if i = id then some peer.header else last
    | _ => last) none

section snoc
variable (sent : Sent) (i : Option IngressId) (header : PeerInfo)

lemma not_isUp_nil : ¬ IsUp header [] := Trace.not_since_nil

lemma isUp_peerUp (peer : PeerInfo) :
    IsUp header (sent ++ [(i, .peerUp peer)]) ↔ peer.header = header ∨ IsUp header sent := by
  unfold IsUp
  rw [Trace.since_snoc]
  simp

lemma isUp_peerDown (peer : PeerInfo) :
    IsUp header (sent ++ [(i, .peerDown peer)]) ↔ IsUp header sent ∧ peer.header ≠ header := by
  unfold IsUp
  rw [Trace.since_snoc]
  simp

lemma isUp_report {msg : BmpMessage} {h : PeerInfo} (hm : msg.reports = some h) :
    IsUp header (sent ++ [(i, msg)]) ↔ IsUp header sent := by
  unfold IsUp
  rw [Trace.since_snoc]
  cases msg <;> first | cases hm; done | simp

variable (id : IngressId)

lemma lastUp_peerUp (peer : PeerInfo) (j : IngressId) :
    lastUp id (sent ++ [(some j, .peerUp peer)]) =
      if j = id then some peer.header else lastUp id sent := by
  simp [lastUp, List.foldl_append]

lemma lastUp_peerDown (peer : PeerInfo) :
    lastUp id (sent ++ [(i, .peerDown peer)]) = lastUp id sent := by
  simp [lastUp, List.foldl_append]

lemma lastUp_report {msg : BmpMessage} {h : PeerInfo} (hm : msg.reports = some h) :
    lastUp id (sent ++ [(i, msg)]) = lastUp id sent := by
  cases msg <;> first | cases hm; done | simp [lastUp, List.foldl_append]

end snoc

/-! ## the known peers are those that are up -/

structure Tracking (known : Set IngressId) (sent : Sent) : Prop where
  known_up : ∀ i ∈ known, ∃ h, lastUp i sent = some h ∧ IsUp h sent
  up_known : ∀ h, IsUp h sent → ∃ i ∈ known, lastUp i sent = some h
  distinct : ∀ i ∈ known, ∀ j ∈ known, lastUp i sent = lastUp j sent → i = j

namespace Tracking
variable {known : Set IngressId} {sent : Sent} {i : IngressId}

lemma peerUp (h : Tracking known sent) (hi : i ∉ known) {peer : PeerInfo}
    (hfresh : ∀ j ∈ known, lastUp j sent ≠ some peer.header) :
    InSession sent (some i, .peerUp peer) ∧
      Tracking (insert i known) (sent ++ [(some i, .peerUp peer)]) := by
  have hdown : ¬ IsUp peer.header sent := by
    intro hup
    obtain ⟨j, hj, hl⟩ := h.up_known _ hup
    exact hfresh j hj hl
  have hne : ∀ j ∈ known, i ≠ j := by
    rintro j hj rfl
    exact hi hj
  have hlast : ∀ j ∈ known, lastUp j (sent ++ [(some i, .peerUp peer)]) = lastUp j sent := by
    intro j hj
    rw [lastUp_peerUp, if_neg (hne j hj)]
  have hself : lastUp i (sent ++ [(some i, .peerUp peer)]) = some peer.header := by
    rw [lastUp_peerUp, if_pos rfl]
  refine ⟨hdown, ?_, ?_, ?_⟩
  · rintro j (rfl | hj)
    · exact ⟨_, hself, (isUp_peerUp _ _ _ _).mpr (.inl rfl)⟩
    · obtain ⟨hd, hl, hup⟩ := h.known_up j hj
      exact ⟨hd, (hlast j hj).trans hl, (isUp_peerUp _ _ _ _).mpr (.inr hup)⟩
  · intro hd hup
    rcases (isUp_peerUp _ _ _ _).mp hup with rfl | hup
    · exact ⟨i, .inl rfl, hself⟩
    · obtain ⟨j, hj, hl⟩ := h.up_known hd hup
      exact ⟨j, .inr hj, (hlast j hj).trans hl⟩
  · rintro j (rfl | hj) k (rfl | hk) heq
    · rfl
    · rw [hself, hlast k hk] at heq
      exact absurd heq.symm (hfresh k hk)
    · rw [hself, hlast j hj] at heq
      exact absurd heq (hfresh j hj)
    · rw [hlast j hj, hlast k hk] at heq
      exact h.distinct j hj k hk heq

lemma report (h : Tracking known sent) (hi : i ∈ known) {msg : BmpMessage} {header : PeerInfo}
    (hm : msg.reports = some header) (hl : lastUp i sent = some header) :
    InSession sent (some i, msg) ∧ Tracking known (sent ++ [(some i, msg)]) := by
  obtain ⟨hd, hl', hup⟩ := h.known_up i hi
  rw [hl] at hl'
  cases hl'
  constructor
  · cases msg <;> cases hm <;> exact hup
  · constructor
    · intro j hj
      obtain ⟨hd, hl, hup⟩ := h.known_up j hj
      exact ⟨hd, (lastUp_report sent _ j hm).trans hl, (isUp_report sent _ _ hm).mpr hup⟩
    · intro hd hup
      obtain ⟨j, hj, hl⟩ := h.up_known hd ((isUp_report sent _ _ hm).mp hup)
      exact ⟨j, hj, (lastUp_report sent _ j hm).trans hl⟩
    · intro j hj k hk heq
      rw [lastUp_report sent _ j hm, lastUp_report sent _ k hm] at heq
      exact h.distinct j hj k hk heq

lemma peerDown (h : Tracking known sent) (hi : i ∈ known) {peer : PeerInfo}
    (hl : lastUp i sent = some peer.header) :
    InSession sent (some i, .peerDown peer) ∧
      Tracking (known \ {i}) (sent ++ [(some i, .peerDown peer)]) := by
  obtain ⟨hd, hl', hup⟩ := h.known_up i hi
  rw [hl] at hl'
  cases hl'
  refine ⟨hup, ?_, ?_, ?_⟩
  · rintro j ⟨hj, hji⟩
    obtain ⟨hd, hlj, hupj⟩ := h.known_up j hj
    refine ⟨hd, (lastUp_peerDown sent _ j peer).trans hlj, ?_⟩
    refine (isUp_peerDown sent _ _ peer).mpr ⟨hupj, ?_⟩
    rintro rfl
    exact hji (h.distinct j hj i hi (hlj.trans hl.symm))
  · intro hd hupd
    obtain ⟨hupd, hne⟩ := (isUp_peerDown sent _ _ peer).mp hupd
    obtain ⟨j, hj, hlj⟩ := h.up_known hd hupd
    refine ⟨j, ⟨hj, ?_⟩, (lastUp_peerDown sent _ j peer).trans hlj⟩
    rintro rfl
    rw [hl] at hlj
    cases hlj
    exact hne rfl
  · rintro j ⟨hj, -⟩ k ⟨hk, -⟩ heq
    rw [lastUp_peerDown, lastUp_peerDown] at heq
    exact h.distinct j hj k hk heq

end Tracking

/-! ## the state of a client -/

structure ClientState.Tracks (c : ClientState) : Prop where
  tracking : Tracking c.knownPeers c.queued
  cached : ∀ i peer, c.peerInfoCache.lookup i = some peer →
    i ∈ c.knownPeers ∧ lastUp i c.queued = some peer.header

lemma ClientState.Tracks.congr {c c' : ClientState} (h : c.Tracks)
    (hk : c'.knownPeers = c.knownPeers) (hq : c'.queued = c.queued)
    (hp : c'.peerInfoCache = c.peerInfoCache) : c'.Tracks := by
  constructor
  · rw [hk, hq]
    exact h.tracking
  · rw [hk, hq, hp]
    exact h.cached

/-- what a send path starts from -/
structure Fine (ch : Channel) (c : ClientState) : Prop where
  ordered : PeerOrdered c.queued
  tracks : c.Closed ch ∨ c.Tracks

/-- and what it answers -/
structure SendSpec (ch : Channel) (r : Bool × ClientState) : Prop where
  ordered : PeerOrdered r.2.queued
  success : r.1 = true → r.2.Closed ch ∨ r.2.Tracks

lemma Fine.success {ch : Channel} {c : ClientState} (h : Fine ch c) : SendSpec ch (true, c) :=
  ⟨h.ordered, fun _ => h.tracks⟩

lemma SendSpec.failed {ch : Channel} {c : ClientState} (h : PeerOrdered c.queued) :
    SendSpec ch (false, c) :=
  ⟨h, fun hn => absurd hn Bool.false_ne_true⟩

lemma SendSpec.fine {ch : Channel} {r : Bool × ClientState} (h : SendSpec ch r)
    (hr : r.1 = true) : Fine ch r.2 := ⟨h.ordered, h.success hr⟩

/-- the header that is built from a register entry fits what was sent for the peer: it is that of
the Peer Up of a known peer, and no known peer's if this one is not known -/
def Consistent (cfg : BmpOutConfig) (c : ClientState) (id : IngressId) (info : IngressInfo) : Prop :=
  let header := (buildPeerInfoForEmit cfg info).header
  (id ∈ c.knownPeers → lastUp id c.queued = some header) ∧
  (id ∉ c.knownPeers → ∀ j ∈ c.knownPeers, lastUp j c.queued ≠ some header)

/-! ## what the register has to say -/

section conditions
variable (cfg : BmpOutConfig) (ch : Channel) (reg : Register) (blocking : Bool) (c : ClientState)

/-- for a peer that is sent for as itself: there is an entry, unless the peer is known, and it is
consistent -/
def ReadOk (id : IngressId) : Prop :=
  (reg.get id = none → id ∈ c.knownPeers) ∧
  ∀ info, reg.get id = some info → Consistent cfg c id info

/-- a header that is cached is not read again -/
def RawOk (id : IngressId) : Prop := c.peerInfoCache.lookup id = none → ReadOk cfg reg c id

/-- for the session of a route; without an entry the client is disconnected -/
def PayloadOk (payload : Payload) : Prop :=
  ∀ target, (c.resolveEmitTarget reg payload.ingressId).1 = some target →
    c.peerInfoCache.lookup target.1 = none →
    ∀ info, reg.get target.1 = some info → Consistent cfg c target.1 info

def DownOk (entry : IngressId × Option IngressInfo) : Prop :=
  entry.1 ∈ c.knownPeers → Consistent cfg c entry.1 (peerDownInfo reg entry.1 entry.2)

def ReappearedOk (id : IngressId) : Prop :=
  ∀ target, (c.resolveEmitTarget reg id).1 = some target → target.1 ∉ c.knownPeers →
    ∀ info, reg.get target.1 = some info → Consistent cfg c target.1 info

def UpdateOk : Update → Prop
  | .single payload => PayloadOk cfg reg c payload
  | .bulk payloads =>
    Run.LoopAlong (sendPayloadToClient cfg ch reg blocking) (PayloadOk cfg reg) c payloads
  | .withdraw id _ => DownOk cfg reg c (id, none)
  | .withdrawBulk entries =>
    Run.LoopAlong (sendPeerDown cfg ch reg blocking) (DownOk cfg reg) c entries
  | .ingressReappeared id => ReappearedOk cfg reg c id
  | .peerStats id _ => ReadOk cfg reg c id
  | .routeMonitoringRaw id _ => RawOk cfg reg c id
  | .other => True

end conditions

/-! ## the send paths -/

section send
variable {cfg : BmpOutConfig} {ch : Channel} {reg : Register} {blocking : Bool}

lemma Fine.of_not_closed {c : ClientState} (h : Fine ch c) (hc : ¬ c.Closed ch) : c.Tracks :=
  h.tracks.resolve_left hc

lemma send_report {c : ClientState} (h : Fine ch c) {id : IngressId} {msg : BmpMessage}
    {header : PeerInfo} (hm : msg.reports = some header)
    (hl : ¬ c.Closed ch → id ∈ c.knownPeers ∧ lastUp id c.queued = some header) :
    SendSpec ch (c.sendMessageMode ch (some id) msg blocking) := by
  rcases sendMessageMode_cases ch blocking c (some id) msg with
    ⟨hc, heq⟩ | ⟨hc, heq⟩ | ⟨hc, hb, heq⟩
  · rw [heq]
    exact .failed h.ordered
  · have ht := h.of_not_closed hc
    obtain ⟨hi, hl⟩ := hl hc
    obtain ⟨hin, htr⟩ := ht.tracking.report hi hm hl
    rw [heq]
    refine ⟨(Trace.each_snoc _ _).mpr ⟨h.ordered, hin⟩, fun _ => .inr ⟨htr, ?_⟩⟩
    intro j peer hj
    obtain ⟨hk, hlj⟩ := ht.cached j peer hj
    exact ⟨hk, (lastUp_report _ _ j hm).trans hlj⟩
  · rw [heq]
    exact .failed h.ordered

lemma Fine.cachePeerInfo {c : ClientState} (h : Fine ch c) {id : IngressId} {peer : PeerInfo}
    (hl : ¬ c.Closed ch → id ∈ c.knownPeers ∧ lastUp id c.queued = some peer.header) :
    Fine ch (c.cachePeerInfo id peer) := by
  refine ⟨h.ordered, ?_⟩
  by_cases hc : c.Closed ch
  · exact .inl hc
  · have ht := h.of_not_closed hc
    refine .inr ⟨ht.tracking, fun j peer' hj => ?_⟩
    have hj' : (c.peerInfoCache.insert id peer).lookup j = some peer' := hj
    rw [Assoc.lookup_insert_eq] at hj'
    by_cases he : j = id
    · subst he
      rw [if_pos rfl] at hj'
      cases hj'
      exact hl hc
    · rw [if_neg he] at hj'
      exact ht.cached j peer' hj'

lemma sendBuilt_spec {c : ClientState} (h : Fine ch c) {id : IngressId} {msg : Option BmpMessage}
    {header : PeerInfo} (hm : ∀ m, msg = some m → m.reports = some header)
    (hl : ¬ c.Closed ch → id ∈ c.knownPeers ∧ lastUp id c.queued = some header) :
    SendSpec ch (sendBuilt ch blocking c id msg) := by
  cases msg with
  | none => exact h.success
  | some m => exact send_report h (hm m rfl) hl

/-- with an entry in the register, a consistent one, a peer is known and up afterwards -/
lemma ensurePeerUp_spec {c : ClientState} (h : Fine ch c) {id : IngressId} {info : IngressInfo}
    (hget : reg.get id = some info) (hcons : Consistent cfg c id info) :
    SendSpec ch (ensurePeerUp cfg ch reg blocking c id) ∧
    ((ensurePeerUp cfg ch reg blocking c id).1 = true →
      ¬ (ensurePeerUp cfg ch reg blocking c id).2.Closed ch →
      id ∈ (ensurePeerUp cfg ch reg blocking c id).2.knownPeers ∧
      lastUp id (ensurePeerUp cfg ch reg blocking c id).2.queued =
        some (buildPeerInfoForEmit cfg info).header) := by
  by_cases hk : id ∈ c.knownPeers
  · have heq : ensurePeerUp cfg ch reg blocking c id = (true, c) := if_pos hk
    rw [heq]
    exact ⟨h.success, fun _ _ => ⟨hk, hcons.1 hk⟩⟩
  rcases sendMessageMode_cases ch blocking (c.addKnownPeer id) (some id)
    (.peerUp (buildPeerInfoForEmit cfg info)) with ⟨hc, heq⟩ | ⟨hc, heq⟩ | ⟨hc, hb, heq⟩
  · simp only [ensurePeerUp, if_neg hk, hget, heq]
    exact ⟨.failed h.ordered, fun hn => absurd hn Bool.false_ne_true⟩
  · have ht := h.of_not_closed hc
    obtain ⟨hin, htr⟩ := ht.tracking.peerUp (i := id) hk (hcons.2 hk)
    simp only [ensurePeerUp, if_neg hk, hget, heq]
    refine ⟨⟨(Trace.each_snoc _ _).mpr ⟨h.ordered, hin⟩, fun _ => .inr ⟨?_, ?_⟩⟩, ?_⟩
    · show Tracking (↑(insert id c.knownPeers)) _
      rw [Finset.coe_insert]
      exact htr
    · intro j peer hj
      obtain ⟨hkj, hlj⟩ := ht.cached j peer hj
      have hne : id ≠ j := by
        rintro rfl
        exact hk hkj
      refine ⟨Finset.mem_insert_of_mem hkj, ?_⟩
      show lastUp j (c.queued ++ _) = _
      rw [lastUp_peerUp, if_neg hne]
      exact hlj
    · intro _ _
      refine ⟨Finset.mem_insert_self id _, ?_⟩
      show lastUp id (c.queued ++ _) = _
      rw [lastUp_peerUp, if_pos rfl]
  · simp only [ensurePeerUp, if_neg hk, hget, heq]
    exact ⟨.failed h.ordered, fun hn => absurd hn Bool.false_ne_true⟩

lemma ensurePeerUp_none (cfg : BmpOutConfig) (ch : Channel) (blocking : Bool) (c : ClientState)
    {id : IngressId} (hget : reg.get id = none) :
    ∃ c', ensurePeerUp cfg ch reg blocking c id = (true, c') ∧ c'.queued = c.queued ∧
      (id ∈ c.knownPeers → c' = c) := by
  by_cases hk : id ∈ c.knownPeers
  · exact ⟨c, if_pos hk, rfl, fun _ => rfl⟩
  · refine ⟨c.addKnownPeer id, ?_, rfl, fun h => absurd h hk⟩
    simp only [ensurePeerUp, if_neg hk, hget]

lemma ensurePeerUp_then {c : ClientState} (h : Fine ch c) {id : IngressId} {info : IngressInfo}
    (hget : reg.get id = some info) (hcons : Consistent cfg c id info)
    {rest : ClientState → Bool × ClientState}
    (hrest : ∀ c', Fine ch c' → (¬ c'.Closed ch → id ∈ c'.knownPeers ∧
      lastUp id c'.queued = some (buildPeerInfoForEmit cfg info).header) → SendSpec ch (rest c')) :
    SendSpec ch (match ensurePeerUp cfg ch reg blocking c id with
      | (false, c) => (false, c)
      | (true, c) => rest c) := by
  obtain ⟨hspec, hup⟩ := @ensurePeerUp_spec cfg ch reg blocking c h id info hget hcons
  cases hr : ensurePeerUp cfg ch reg blocking c id with
  | mk sent c' =>
    rw [hr] at hspec hup
    cases sent with
    | false => exact hspec
    | true => exact hrest c' (hspec.fine rfl) (hup rfl)

lemma sendPeerStats_spec {c : ClientState} (h : Fine ch c) {id : IngressId}
    (hok : ReadOk cfg reg c id) (body : Bytes) :
    SendSpec ch (sendPeerStats cfg ch reg blocking c id body) := by
  cases hget : reg.get id with
  | none =>
    obtain ⟨c', heq, -, hsame⟩ := ensurePeerUp_none cfg ch blocking c hget
    simp only [sendPeerStats, heq, hget]
    rw [hsame (hok.1 hget)]
    exact h.success
  | some info =>
    simp only [sendPeerStats, hget]
    apply ensurePeerUp_then h hget (hok.2 info hget)
    exact fun c' hf hl => send_report hf rfl hl

lemma sendRawRouteMonitoring_spec {c : ClientState} (h : Fine ch c) {id : IngressId}
    (hok : RawOk cfg reg c id) (body : Bytes) :
    SendSpec ch (sendRawRouteMonitoring cfg ch reg blocking c id body) := by
  cases hcache : c.peerInfoCache.lookup id with
  | some peer =>
    simp only [sendRawRouteMonitoring, hcache]
    apply sendBuilt_spec h (fun m hm => reports_raw hm)
    exact fun hc => (h.of_not_closed hc).cached id peer hcache
  | none =>
    have hread := hok hcache
    cases hget : reg.get id with
    | none =>
      obtain ⟨c', heq, -, hsame⟩ := ensurePeerUp_none cfg ch blocking c hget
      simp only [sendRawRouteMonitoring, hcache, heq, hget]
      rw [hsame (hread.1 hget)]
      exact h.success
    | some info =>
      simp only [sendRawRouteMonitoring, hcache, hget]
      apply ensurePeerUp_then h hget (hread.2 info hget)
      exact fun c' hf hl => sendBuilt_spec (hf.cachePeerInfo hl) (fun m hm => reports_raw hm) hl

lemma Fine.setTargets {c : ClientState} (h : Fine ch c)
    (cache : Assoc IngressId (IngressId × Option Nat)) :
    Fine ch { c with emitTargetCache := cache } := by
  refine ⟨h.ordered, ?_⟩
  rcases h.tracks with hc | ht
  · exact .inl hc
  · exact .inr (ht.congr rfl rfl rfl)

lemma sendPayloadToClient_spec {c : ClientState} (h : Fine ch c) {payload : Payload}
    (hok : PayloadOk cfg reg c payload) :
    SendSpec ch (sendPayloadToClient cfg ch reg blocking c payload) := by
  rcases resolveEmitTarget_cases c reg payload.ingressId with heq | ⟨⟨id, pathId⟩, cache, heq⟩
  · simp only [sendPayloadToClient, heq]
    exact .failed h.ordered
  have hf : Fine ch { c with emitTargetCache := cache } := h.setTargets cache
  cases hcache : c.peerInfoCache.lookup id with
  | some peer =>
    simp only [sendPayloadToClient, heq, hcache]
    apply sendBuilt_spec hf (fun m hm => reports_fromRoute hm)
    exact fun hc => (hf.of_not_closed hc).cached id peer hcache
  | none =>
    cases hget : reg.get id with
    | none =>
      obtain ⟨c', heq', hq, -⟩ :=
        ensurePeerUp_none cfg ch blocking { c with emitTargetCache := cache } hget
      simp only [sendPayloadToClient, heq, hcache, heq', hget]
      refine .failed ?_
      show PeerOrdered c'.queued
      rw [hq]
      exact h.ordered
    | some info =>
      have hread := hok (id, pathId) (by rw [heq]) hcache info hget
      simp only [sendPayloadToClient, heq, hcache, hget]
      apply ensurePeerUp_then hf hget hread
      exact fun c' hf hl => sendBuilt_spec (hf.cachePeerInfo hl) (fun m hm => reports_fromRoute hm) hl

lemma sendPeerReappeared_spec {c : ClientState} (h : Fine ch c) {id : IngressId}
    (hok : ReappearedOk cfg reg c id) :
    SendSpec ch (sendPeerReappeared cfg ch reg blocking c id) := by
  rcases resolveEmitTarget_cases c reg id with heq | ⟨⟨id', pathId⟩, cache, heq⟩
  · simp only [sendPeerReappeared, heq]
    exact .failed h.ordered
  have hf : Fine ch { c with emitTargetCache := cache } := h.setTargets cache
  cases hget : reg.get id' with
  | none =>
    simp only [sendPeerReappeared, heq, hget]
    exact hf.success
  | some info =>
    simp only [sendPeerReappeared, heq, hget]
    by_cases hkn : id' ∈ c.knownPeers
    · have hsame : ensurePeerUp cfg ch reg blocking { c with emitTargetCache := cache } id' =
          (true, { c with emitTargetCache := cache }) := if_pos hkn
      rw [hsame]
      exact hf.success
    · have hread := hok (id', pathId) (by rw [heq]) hkn info hget
      exact (ensurePeerUp_spec hf hget hread).1

lemma sendPeerDown_spec {c : ClientState} (h : Fine ch c) {entry : IngressId × Option IngressInfo}
    (hok : DownOk cfg reg c entry) :
    SendSpec ch (sendPeerDown cfg ch reg blocking c entry) := by
  obtain ⟨id, snapshotInfo⟩ := entry
  by_cases hk : id ∈ c.knownPeers
  · have hl := (hok hk).1 hk
    rcases sendMessageMode_cases ch blocking c (some id)
        (.peerDown (buildPeerInfoForEmit cfg (peerDownInfo reg id snapshotInfo))) with
      ⟨hc, heq⟩ | ⟨hc, heq⟩ | ⟨hc, hb, heq⟩
    · simp only [sendPeerDown, if_pos hk, heq]
      exact .failed h.ordered
    · have ht := h.of_not_closed hc
      obtain ⟨hin, htr⟩ := ht.tracking.peerDown hk hl
      simp only [sendPeerDown, if_pos hk, heq]
      refine ⟨(Trace.each_snoc _ _).mpr ⟨h.ordered, hin⟩, fun _ => .inr ⟨?_, ?_⟩⟩
      · show Tracking (↑(c.knownPeers.erase id)) _
        rw [Finset.coe_erase]
        exact htr
      · intro j peer hj
        have hj' : (c.peerInfoCache.erase id).lookup j = some peer := hj
        rw [Assoc.lookup_erase_eq] at hj'
        obtain ⟨hne, hj'⟩ := Option.ite_none_left_eq_some.mp hj'
        obtain ⟨hkj, hlj⟩ := ht.cached j peer hj'
        refine ⟨Finset.mem_erase.mpr ⟨hne, hkj⟩, ?_⟩
        show lastUp j (c.queued ++ _) = _
        rw [lastUp_peerDown]
        exact hlj
    · simp only [sendPeerDown, if_pos hk, heq]
      exact .failed h.ordered
  · have hsame : sendPeerDown cfg ch reg blocking c (id, snapshotInfo) = (true, c) := if_neg hk
    rw [hsame]
    exact h.success

/-- **One update with consistent reads keeps the order.** -/
theorem sendUpdateToClient_spec {c : ClientState} (h : Fine ch c) {update : Update}
    (hok : UpdateOk cfg ch reg blocking c update) :
    SendSpec ch (sendUpdateToClient cfg ch reg blocking c update) := by
  cases update with
  | single payload => exact sendPayloadToClient_spec h hok
  | bulk payloads =>
    apply Run.loop_inv (fun c hf => Fine.success hf) ?_ h hok
    intro c payload hf hp
    have hspec : SendSpec ch (sendPayloadToClient cfg ch reg blocking c payload) :=
      sendPayloadToClient_spec hf hp
    exact ⟨hspec, hspec.fine⟩
  | withdraw id afisafi => exact sendPeerDown_spec h hok
  | withdrawBulk entries =>
    apply Run.loop_inv (fun c hf => Fine.success hf) ?_ h hok
    intro c entry hf hd
    have hspec : SendSpec ch (sendPeerDown cfg ch reg blocking c entry) :=
      sendPeerDown_spec hf hd
    exact ⟨hspec, hspec.fine⟩
  | ingressReappeared id => exact sendPeerReappeared_spec h hok
  | peerStats id body => exact sendPeerStats_spec h hok body
  | routeMonitoringRaw id body => exact sendRawRouteMonitoring_spec h hok body
  | other => exact h.success

end send

end Netom
