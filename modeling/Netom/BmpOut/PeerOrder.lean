import Netom.BmpOut.PeerSessions

/-!
# The peers of a client over a whole run

From the dump on, what a client is sent is `PeerOrdered` if every read of the register is
consistent with what was sent before.  The code does not see to that itself: in
`registeredLate_unordered` a peer becomes known while the register has no entry for it, and so gets
no Peer Up, and another peer gets a Peer Down with a header that was never up.

* `DumpOk`, `EventOk`  the reads of the register are consistent;
* `peers_in_session`  with them, every run of every client is ordered.
-/

namespace Netom
open ClientState List Assoc Run

/-! ## the dump -/

/-- the peers of the dump, by their headers -/
structure MapTracks (map : Assoc IngressId PeerInfo) (sent : Sent) : Prop where
  tracking : Tracking {i | (map.lookup i).isSome} sent
  last : ∀ i peer, map.lookup i = some peer → lastUp i sent = some peer.header

/-- no peer of the dump has the header of this entry -/
def FreshIn (cfg : BmpOutConfig) (map : Assoc IngressId PeerInfo) (info : IngressInfo) : Prop :=
  ∀ j peer, map.lookup j = some peer → peer.header ≠ (buildPeerInfoForEmit cfg info).header

lemma MapTracks.peerUp {cfg : BmpOutConfig} {map : Assoc IngressId PeerInfo} {sent : Sent}
    (h : MapTracks map sent) {id : IngressId} {info : IngressInfo} (hid : map.lookup id = none)
    (hfresh : FreshIn cfg map info) :
    InSession sent (some id, .peerUp (buildPeerInfoForEmit cfg info)) ∧
      MapTracks (map.insert id (buildPeerInfoForEmit cfg info))
        (sent ++ [(some id, .peerUp (buildPeerInfoForEmit cfg info))]) := by
  have hnot : id ∉ {i | (map.lookup i).isSome} := by simp [hid]
  have hne : ∀ j ∈ {i | (map.lookup i).isSome},
      lastUp j sent ≠ some (buildPeerInfoForEmit cfg info).header := by
    intro j hj hl
    obtain ⟨peer, hp⟩ := Option.isSome_iff_exists.mp hj
    rw [h.last j peer hp] at hl
    exact hfresh j peer hp (Option.some.inj hl)
  obtain ⟨hin, htr⟩ := h.tracking.peerUp hnot hne
  refine ⟨hin, ?_, ?_⟩
  · have hset : {i | ((map.insert id (buildPeerInfoForEmit cfg info)).lookup i).isSome} =
        insert id {i | (map.lookup i).isSome} := by
      ext i
      simp only [Set.mem_ofPred_eq, Set.mem_insert_iff, lookup_insert_eq]
      by_cases hi : i = id <;> simp [hi]
    rw [hset]
    exact htr
  · intro i peer hi
    rw [lookup_insert_eq] at hi
    rw [lastUp_peerUp]
    by_cases he : i = id
    · rw [if_pos he] at hi
      cases hi
      rw [if_pos he.symm]
    · rw [if_neg he] at hi
      rw [if_neg (Ne.symm he)]
      exact h.last i peer hi

lemma MapTracks.report {map : Assoc IngressId PeerInfo} {sent : Sent} (h : MapTracks map sent)
    {id : IngressId} {peer : PeerInfo} (hid : map.lookup id = some peer) (bgpUpdate : Bytes) :
    InSession sent (some id, .routeMonitoring peer bgpUpdate) ∧
      MapTracks map (sent ++ [(some id, .routeMonitoring peer bgpUpdate)]) := by
  have hmem : id ∈ {i | (map.lookup i).isSome} := by simp [hid]
  have hrep : (BmpMessage.routeMonitoring peer bgpUpdate).reports = some peer.header := rfl
  obtain ⟨hin, htr⟩ := h.tracking.report hmem hrep (h.last id peer hid)
  refine ⟨hin, htr, fun i peer' hi => ?_⟩
  rw [lastUp_report sent _ i hrep]
  exact h.last i peer' hi

structure DumpInv (ch : Channel) (d : DumpState) : Prop where
  ordered : PeerOrdered d.client.queued
  tracks : d.client.Closed ch ∨ MapTracks d.peerInfoMap d.client.queued
  /-- a peer is in the map if it is known, or will be at the end -/
  peers : ∀ i, (d.peerInfoMap.lookup i).isSome ↔ i ∈ d.client.knownPeers ∨ i ∈ d.discovered
  cache : d.client.peerInfoCache = ∅

structure DumpSpec (ch : Channel) (r : Bool × DumpState) : Prop where
  ordered : PeerOrdered r.2.client.queued
  success : r.1 = true → DumpInv ch r.2
  failure : r.1 = false → r.2.client.Closed ch

lemma DumpInv.success {ch : Channel} {d : DumpState} (h : DumpInv ch d) :
    DumpSpec ch (true, d) := ⟨h.ordered, fun _ => h, nofun⟩

section dump
variable {cfg : BmpOutConfig} {ch : Channel}

variable {d : DumpState}

/-- the Peer Up of a new peer of the dump, whose header no other has; it is known now or will be at
the end -/
lemma DumpInv.peerUp (h : DumpInv ch d) {id : IngressId} {info : IngressInfo}
    (hid : d.peerInfoMap.lookup id = none) (hfresh : FreshIn cfg d.peerInfoMap info)
    {c : ClientState}
    (hsend :
      d.client.sendMessageMode ch (some id) (.peerUp (buildPeerInfoForEmit cfg info)) true =
      (true, c))
    {known : Finset IngressId} {discovered : List IngressId}
    (hpeers : ∀ i, i ∈ known ∨ i ∈ discovered ↔
      i = id ∨ i ∈ d.client.knownPeers ∨ i ∈ d.discovered) :
    DumpInv ch ⟨{ c with knownPeers := known },
      d.peerInfoMap.insert id (buildPeerInfoForEmit cfg info), discovered⟩ := by
  obtain ⟨hc, rfl⟩ := sendMessageMode_eq_true hsend
  obtain ⟨hin, htr⟩ := (h.tracks.resolve_left hc).peerUp hid hfresh
  refine ⟨(Trace.each_snoc _ _).mpr ⟨h.ordered, hin⟩, .inr htr, fun i => ?_, h.cache⟩
  show ((d.peerInfoMap.insert id _).lookup i).isSome ↔ i ∈ known ∨ i ∈ discovered
  rw [hpeers, lookup_insert_eq, ← h.peers]
  by_cases hi : i = id
  · simp [hi]
  · simp [hi]

lemma DumpInv.failure (h : DumpInv ch d) {i : Option IngressId} {msg : BmpMessage}
    {c : ClientState} (hsend : d.client.sendMessageMode ch i msg true = (false, c)) :
    DumpSpec ch (false, { d with client := c }) := by
  rcases sendMessageMode_cases ch true d.client i msg with ⟨hc, heq⟩ | ⟨hc, heq⟩ | ⟨hc, hb, heq⟩
  · rw [hsend] at heq
    cases heq
    exact ⟨h.ordered, nofun, fun _ => Channel.closed_mono (Nat.le_succ _) hc⟩
  · rw [hsend] at heq
    cases heq
  · cases hb

lemma dumpPeerUp_spec (h : DumpInv ch d) {entry : IngressId × IngressInfo}
    (hok : d.peerInfoMap.lookup entry.1 = none ∧ FreshIn cfg d.peerInfoMap entry.2) :
    DumpSpec ch (dumpPeerUp cfg ch d entry) := by
  cases hs : d.client.sendMessageMode ch (some entry.1)
      (.peerUp (buildPeerInfoForEmit cfg entry.2)) true with
  | mk sent c =>
    cases sent with
    | false =>
      simp only [dumpPeerUp, hs]
      exact h.failure hs
    | true =>
      simp only [dumpPeerUp, hs]
      refine (h.peerUp hok.1 hok.2 hs fun i => ?_).success
      obtain ⟨-, rfl⟩ := sendMessageMode_eq_true hs
      show i ∈ insert entry.1 d.client.knownPeers ∨ i ∈ d.discovered ↔ _
      rw [Finset.mem_insert, or_assoc]

/-- a peer that the walk finds has a header of its own -/
def WalkOk (cfg : BmpOutConfig) (d : DumpState) : DumpEvent → Prop
  | .record reg id => d.peerInfoMap.lookup id = none →
      ∀ info, reg.get id = some info → isPeerType info = true → FreshIn cfg d.peerInfoMap info
  | .message _ _ => True

lemma walkStep_spec (h : DumpInv ch d) {e : DumpEvent} (hok : WalkOk cfg d e) :
    DumpSpec ch (walkStep cfg ch d e) := by
  cases e with
  | record reg id =>
    cases hl : d.peerInfoMap.lookup id with
    | some peer =>
      simp only [walkStep, hl, Option.isSome_some, if_true]
      exact h.success
    | none =>
      cases hf : (reg.get id).filter isPeerType with
      | none =>
        simp only [walkStep, hl, hf]
        exact h.success
      | some info =>
        obtain ⟨hget, htype⟩ := Option.filter_eq_some_iff.mp hf
        cases hs : d.client.sendMessageMode ch (some id)
            (.peerUp (buildPeerInfoForEmit cfg info)) true with
        | mk sent c =>
          cases sent with
          | false =>
            simp only [walkStep, hl, hf, hs]
            exact h.failure hs
          | true =>
            simp only [walkStep, hl, hf, hs]
            have hfresh := hok hl info hget htype
            refine DumpInv.success (h.peerUp hl hfresh hs fun i => ?_)
            obtain ⟨-, rfl⟩ := sendMessageMode_eq_true hs
            show i ∈ d.client.knownPeers ∨ i ∈ d.discovered ++ [id] ↔ _
            rw [mem_append, mem_singleton]
            tauto
  | message id bgpUpdate =>
    cases hl : d.peerInfoMap.lookup id with
    | none =>
      simp only [walkStep, hl]
      exact h.success
    | some peer =>
      cases hs : d.client.sendMessageMode ch (some id) (.routeMonitoring peer bgpUpdate) true with
      | mk sent c =>
        simp only [walkStep, hl, hs]
        cases sent with
        | false => exact h.failure hs
        | true =>
          obtain ⟨hc, rfl⟩ := sendMessageMode_eq_true hs
          obtain ⟨hin, htr⟩ := (h.tracks.resolve_left hc).report hl bgpUpdate
          refine DumpInv.success ⟨?_, .inr htr, h.peers, h.cache⟩
          exact (Trace.each_snoc _ _).mpr ⟨h.ordered, hin⟩

/-! ## the enumerated peers -/

lemma search_spec {reg : Register} {ingressType : IngressType} {state : Option IngressState}
    {e : IngressId × IngressInfo} (h : e ∈ reg.search ingressType state) :
    reg.get e.1 = some e.2 ∧ e.2.ingressType = some ingressType := by
  obtain ⟨e', he', rfl⟩ := mem_map.mp h
  obtain ⟨hmem, hp⟩ := mem_filter.mp he'
  simp only [Bool.and_eq_true, decide_eq_true_eq] at hp
  exact ⟨AList.mem_lookup_iff.mpr hmem, hp.1⟩

lemma nodup_search (reg : Register) (ingressType : IngressType) (state : Option IngressState) :
    ((reg.search ingressType state).map (·.1)).Nodup := by
  unfold Register.search
  rw [map_map]
  exact List.Nodup.sublist (List.Sublist.map _ filter_sublist) reg.info.nodupKeys

/-- an id is enumerated once: its entry has one type -/
lemma nodup_dumpPeers (reg : Register) : ((dumpPeers reg).map (·.1)).Nodup := by
  have hdisj : ∀ {t t' : IngressType} {st st' : Option IngressState}, t ≠ t' →
      ∀ i ∈ (reg.search t st).map (·.1), i ∉ (reg.search t' st').map (·.1) := by
    intro t t' st st' hne i hi hi'
    obtain ⟨e, he, rfl⟩ := mem_map.mp hi
    obtain ⟨e', he', hid⟩ := mem_map.mp hi'
    obtain ⟨hget, ht⟩ := search_spec he
    obtain ⟨hget', ht'⟩ := search_spec he'
    rw [hid, hget] at hget'
    rw [Option.some.inj hget', ht'] at ht
    exact hne (Option.some.inj ht).symm
  unfold dumpPeers
  rw [map_append, map_append]
  refine List.Nodup.append (List.Nodup.append ?_ ?_ ?_) ?_ ?_
  · exact nodup_search reg _ _
  · exact nodup_search reg _ _
  · exact fun i hi hi' => hdisj (by decide) i hi hi'
  · exact nodup_search reg _ _
  · intro i hi hi'
    rcases mem_append.mp hi with hi | hi
    · exact hdisj (by decide) i hi hi'
    · exact hdisj (by decide) i hi hi'

/-- no two of the peers have one header -/
def DistinctHeaders (cfg : BmpOutConfig) (peers : List (IngressId × IngressInfo)) : Prop :=
  peers.Pairwise fun e e' =>
    (buildPeerInfoForEmit cfg e.2).header ≠ (buildPeerInfoForEmit cfg e'.2).header

/-- so each is new when its turn comes -/
lemma dumpPeerUps_along {peers : List (IngressId × IngressInfo)} (hids : (peers.map (·.1)).Nodup)
    (hdist : DistinctHeaders cfg peers)
    (hnew : ∀ e ∈ peers, d.peerInfoMap.lookup e.1 = none ∧ FreshIn cfg d.peerInfoMap e.2) :
    Run.LoopAlong (dumpPeerUp cfg ch)
      (fun d e => d.peerInfoMap.lookup e.1 = none ∧ FreshIn cfg d.peerInfoMap e.2) d peers := by
  induction peers generalizing d with
  | nil => trivial
  | cons e peers ih =>
    obtain ⟨hid, hids⟩ := nodup_cons.mp hids
    obtain ⟨hhead, hdist⟩ := pairwise_cons.mp hdist
    refine ⟨hnew e mem_cons_self, fun hsent => ih hids hdist fun e' he' => ?_⟩
    obtain ⟨hnone, hfresh⟩ := hnew e' (mem_cons_of_mem e he')
    have hmap : (dumpPeerUp cfg ch d e).2.peerInfoMap =
        d.peerInfoMap.insert e.1 (buildPeerInfoForEmit cfg e.2) := by
      cases hs : d.client.sendMessageMode ch (some e.1)
          (.peerUp (buildPeerInfoForEmit cfg e.2)) true with
      | mk sent c =>
        simp only [dumpPeerUp, hs] at hsent ⊢
        cases sent with
        | false => cases hsent
        | true => rfl
    have hne : e'.1 ≠ e.1 := by
      intro heq
      exact hid (mem_map.mpr ⟨e', he', heq⟩)
    rw [hmap]
    refine ⟨?_, fun j peer hj => ?_⟩
    · rw [lookup_insert_eq, if_neg hne]
      exact hnone
    · rw [lookup_insert_eq] at hj
      by_cases hje : j = e.1
      · rw [if_pos hje] at hj
        cases hj
        exact hhead e' he'
      · rw [if_neg hje] at hj
        exact hfresh j peer hj

/-! ## the whole dump -/

lemma beginDump_spec (ch : Channel) : DumpSpec ch (beginDump ch ClientState.new) := by
  have hnew : PeerOrdered new.queued := Trace.each_nil
  rcases sendMessageMode_cases ch true new none .initiation with
    ⟨hc, heq⟩ | ⟨hc, heq⟩ | ⟨hc, hb, heq⟩
  · simp only [beginDump, heq]
    exact ⟨hnew, nofun, fun _ => Channel.closed_mono (Nat.le_succ _) hc⟩
  · have hord : PeerOrdered [(none, .initiation)] :=
      (Trace.each_snoc [] (none, BmpMessage.initiation)).mpr ⟨Trace.each_nil, trivial⟩
    have hdown : ∀ h, ¬ IsUp h [(none, .initiation)] := by
      intro h hup
      rcases (Trace.since_snoc [] (none, BmpMessage.initiation)).mp hup with ⟨peer, hp, -⟩ | ⟨hn, -⟩
      · cases hp
      · exact not_isUp_nil h hn
    have hempty : ∀ i : IngressId, (∅ : Assoc IngressId PeerInfo).lookup i = none :=
      fun i => AList.lookup_empty i
    simp only [beginDump, heq]
    refine DumpInv.success ⟨hord, .inr ⟨⟨?_, ?_, ?_⟩, ?_⟩, ?_, rfl⟩
    · intro i hi
      simp [hempty] at hi
    · exact fun h hup => absurd hup (hdown h)
    · intro i hi
      simp [hempty] at hi
    · intro i peer hi
      rw [hempty] at hi
      cases hi
    · intro i
      simp [hempty, new]
  · cases hb

lemma dumpPeerUps_spec (h : DumpInv ch d) {peers : List (IngressId × IngressInfo)}
    (ha : Run.LoopAlong (dumpPeerUp cfg ch) (fun d e => d.peerInfoMap.lookup e.1 = none ∧
      FreshIn cfg d.peerInfoMap e.2) d peers) :
    DumpSpec ch (loop (dumpPeerUp cfg ch) d peers) := by
  apply loop_inv (fun d hd => DumpInv.success hd) ?_ h ha
  intro d e hd hok
  have hspec : DumpSpec ch (dumpPeerUp cfg ch d e) := dumpPeerUp_spec hd hok
  exact ⟨hspec, hspec.success⟩

lemma walk_spec (h : DumpInv ch d) {walk : List DumpEvent}
    (ha : Run.LoopAlong (walkStep cfg ch) (WalkOk cfg) d walk) :
    DumpSpec ch (loop (walkStep cfg ch) d walk) := by
  apply loop_inv (fun d hd => DumpInv.success hd) ?_ h ha
  intro d e hd hok
  have hspec : DumpSpec ch (walkStep cfg ch d e) := walkStep_spec hd hok
  exact ⟨hspec, hspec.success⟩

lemma DumpInv.finish (h : DumpInv ch d) : Fine ch d.finish := by
  unfold DumpState.finish
  rw [foldl_addKnownPeer]
  refine ⟨h.ordered, ?_⟩
  rcases h.tracks with hc | ht
  · exact .inl hc
  · refine .inr ⟨?_, ?_⟩
    · have hset : (↑(d.client.knownPeers ∪ d.discovered.toFinset) : Set IngressId) =
          {i | (d.peerInfoMap.lookup i).isSome} := by
        ext i
        rw [Set.mem_ofPred_eq, h.peers i]
        simp
      show Tracking (↑(d.client.knownPeers ∪ d.discovered.toFinset)) d.client.queued
      rw [hset]
      exact ht.tracking
    · intro i peer hi
      have hi' : d.client.peerInfoCache.lookup i = some peer := hi
      rw [h.cache] at hi'
      cases hi'

/-- the headers of the dump are distinct: of the enumerated peers, and of those the walk finds -/
def DumpOk (cfg : BmpOutConfig) (ch : Channel) : Option (Register × List DumpEvent) → Prop
  | some (reg, walk) => DistinctHeaders cfg (dumpPeers reg) ∧
      Run.LoopAlong (walkStep cfg ch) (WalkOk cfg)
        (loop (dumpPeerUp cfg ch) (beginDump ch ClientState.new).2 (dumpPeers reg)).2 walk
  | none => True

/-- the dump waits for room, so it fails only if the channel is closed -/
structure DumpedSpec (ch : Channel) (r : Bool × ClientState) : Prop where
  spec : SendSpec ch r
  failure : r.1 = false → r.2.Closed ch

lemma performInitialDump_spec {reg : Register} {walk : List DumpEvent}
    (hok : DumpOk cfg ch (some (reg, walk))) :
    DumpedSpec ch (performInitialDump cfg ch reg walk) := by
  obtain ⟨hdist, hwalk⟩ := hok
  have hfail : ∀ {r : Bool × DumpState}, DumpSpec ch r → r.1 = false →
      DumpedSpec ch (false, r.2.client) :=
    fun hr hf => ⟨⟨hr.ordered, nofun⟩, fun _ => hr.failure hf⟩
  have hbegin := beginDump_spec ch
  cases hb : beginDump ch new with
  | mk begun d =>
    rw [hb] at hbegin hwalk
    cases begun with
    | false =>
      simp only [performInitialDump, hb]
      exact hfail hbegin rfl
    | true =>
      have hinv := hbegin.success rfl
      have hnone : ∀ i, d.peerInfoMap.lookup i = none := by
        have hd : d.peerInfoMap = ∅ := congrArg (fun r => r.2.peerInfoMap) hb.symm
        intro i
        rw [hd]
        exact AList.lookup_empty i
      have hups : DumpSpec ch (loop (dumpPeerUp cfg ch) d (dumpPeers reg)) := by
        apply dumpPeerUps_spec hinv
        apply dumpPeerUps_along (nodup_dumpPeers reg) hdist
        intro e he
        refine ⟨hnone e.1, fun j peer hj => ?_⟩
        rw [hnone j] at hj
        cases hj
      cases hu : loop (dumpPeerUp cfg ch) d (dumpPeers reg) with
      | mk sent d' =>
        rw [hu] at hups hwalk
        cases sent with
        | false =>
          simp only [performInitialDump, hb, hu]
          exact hfail hups rfl
        | true =>
          have hw := walk_spec (hups.success rfl) hwalk
          cases hr : loop (walkStep cfg ch) d' walk with
          | mk walked d'' =>
            rw [hr] at hw
            simp only [performInitialDump, hb, hu, hr]
            cases walked with
            | false => exact hfail hw rfl
            | true => exact ⟨(hw.success rfl).finish.success, nofun⟩

end dump

/-! ## runs -/

section runs
variable {cfg : BmpOutConfig} {ch : Channel}

def EventOk (cfg : BmpOutConfig) (ch : Channel) (c : ClientState) : ClientEvent → Prop
  | .deliver reg update =>
    match c.phase with
    | .dumping => c.dumpFailed = false → UpdateOk cfg ch reg true c update
    | .live => c.disconnectPending = false → UpdateOk cfg ch reg false c update
  | .goLive | .disconnect => True

/-- the known peers are those that are up, as long as the client is sent anything -/
structure ClientInv (ch : Channel) (c : ClientState) : Prop where
  ordered : PeerOrdered c.queued
  state : c.Closed ch ∨ c.Tracks ∨
    c.disconnectPending = true ∧ (c.phase = .dumping → c.dumpFailed = true)

lemma dumped_inv {rib : Option (Register × List DumpEvent)} (hok : DumpOk cfg ch rib) :
    ClientInv ch (dumped cfg ch rib) := by
  cases rib with
  | some r =>
    obtain ⟨reg, walk⟩ := r
    obtain ⟨hspec, hfail⟩ := performInitialDump_spec hok
    cases hr : performInitialDump cfg ch reg walk with
    | mk sent c =>
      rw [hr] at hspec hfail
      simp only [dumped, hr]
      refine ⟨hspec.ordered, ?_⟩
      cases sent with
      | true =>
        rcases hspec.success rfl with hc | ht
        · exact .inl hc
        · exact .inr (.inl (ht.congr rfl rfl rfl))
      | false => exact .inl (hfail rfl)
  | none =>
    have hspec := beginDump_spec ch
    refine ⟨hspec.ordered, ?_⟩
    show (beginDump ch new).2.client.Closed ch ∨ _
    cases hb : (beginDump ch new).1 with
    | false => exact .inl (hspec.failure hb)
    | true =>
      -- nothing is discovered yet, so the end of the dump is where it is
      have hfine : Fine ch (beginDump ch new).2.client := (hspec.success hb).finish
      rcases hfine.tracks with hc | ht
      · exact .inl hc
      · exact .inr (.inl ht)

lemma inv_deliver {c : ClientState} (h : ClientInv ch c) {reg : Register} {update : Update}
    (hok : EventOk cfg ch c (.deliver reg update)) :
    ClientInv ch (c.step cfg ch (.deliver reg update)) := by
  cases hph : c.phase with
  | dumping =>
    simp only [EventOk, hph] at hok
    cases hf : c.dumpFailed with
    | true =>
      simp only [step, hph, hf, if_true]
      exact h
    | false =>
      have hfine : Fine ch c := by
        refine ⟨h.ordered, ?_⟩
        rcases h.state with hc | ht | ⟨-, hd⟩
        · exact .inl hc
        · exact .inr ht
        · rw [hd hph] at hf
          cases hf
      have hspec := sendUpdateToClient_spec hfine (hok hf)
      have hev : Evolves ch c (sendUpdateToClient cfg ch reg true c update) :=
        evolves_sendUpdateToClient update
      cases hr : sendUpdateToClient cfg ch reg true c update with
      | mk sent c' =>
        rw [hr] at hspec hev
        simp only [step, hph, hf, hr, Bool.false_eq_true, if_false]
        refine ⟨hspec.ordered, ?_⟩
        cases sent with
        | true =>
          rcases hspec.success rfl with hc | ht
          · exact .inl hc
          · exact .inr (.inl (ht.congr rfl rfl rfl))
        | false =>
          rcases hev.failed rfl with hc | hd
          · exact .inl hc
          · exact .inr (.inr ⟨hd, fun _ => rfl⟩)
  | live =>
    simp only [EventOk, hph] at hok
    cases hd : c.disconnectPending with
    | true =>
      simp only [step, hph, hd, if_true]
      exact h
    | false =>
      have hfine : Fine ch c := by
        refine ⟨h.ordered, ?_⟩
        rcases h.state with hc | ht | ⟨hd', -⟩
        · exact .inl hc
        · exact .inr ht
        · rw [hd'] at hd
          cases hd
      have hspec := sendUpdateToClient_spec hfine (hok hd)
      have hev : Evolves ch c (sendUpdateToClient cfg ch reg false c update) :=
        evolves_sendUpdateToClient update
      simp only [step, hph, hd, Bool.false_eq_true, if_false]
      refine ⟨hspec.ordered, ?_⟩
      cases hs : (sendUpdateToClient cfg ch reg false c update).1 with
      | true =>
        rcases hspec.success hs with hc | ht
        · exact .inl hc
        · exact .inr (.inl ht)
      | false =>
        rcases hev.failed hs with hc | hp
        · exact .inl hc
        · refine .inr (.inr ⟨hp, fun hdump => ?_⟩)
          rw [hev.phase, hph] at hdump
          cases hdump

lemma inv_step_client {c : ClientState} (h : ClientInv ch c) {e : ClientEvent}
    (hok : EventOk cfg ch c e) : ClientInv ch (c.step cfg ch e) := by
  cases e with
  | deliver reg update => exact inv_deliver h hok
  | goLive =>
    refine ⟨h.ordered, ?_⟩
    rcases h.state with hc | ht | ⟨hd, -⟩
    · exact .inl hc
    · exact .inr (.inl (ht.congr rfl rfl rfl))
    · exact .inr (.inr ⟨hd, nofun⟩)
  | disconnect =>
    refine ⟨h.ordered, ?_⟩
    rcases h.state with hc | ht | ⟨-, hd⟩
    · exact .inl hc
    · exact .inr (.inl (ht.congr rfl rfl rfl))
    · exact .inr (.inr ⟨rfl, hd⟩)

/-- **What a client is sent, from its dump on, is in order for every peer, in every run in which
each read of the register is consistent.** -/
theorem peers_in_session (cfg : BmpOutConfig) (ch : Channel)
    {rib : Option (Register × List DumpEvent)} (hdump : DumpOk cfg ch rib) {es : List ClientEvent}
    (ha : Run.Along (ClientState.step cfg ch) (EventOk cfg ch) (dumped cfg ch rib) es) :
    PeerOrdered (run (ClientState.step cfg ch) (dumped cfg ch rib) es).queued := by
  have hinv : ClientInv ch (run (step cfg ch) (dumped cfg ch rib) es) := by
    apply run_inv ?_ (dumped_inv hdump) ha
    exact fun c e h hok => inv_step_client h hok
  exact hinv.ordered

end runs

/-! ## entries that come late or go early -/

def neighborPeer : PeerInfo := buildPeerInfoForEmit plainOut neighborInfo

def neighborDump : Option (Register × List DumpEvent) :=
  some (neighborRegister, [.record neighborRegister 1, .message 1 []])

/-- a route of the neighbor, and the end of its session -/
def neighborRun : List ClientEvent :=
  [.goLive, .deliver neighborRegister (.single neighborPayload),
    .deliver neighborRegister (.withdraw 1 none)]

lemma neighborDump_ok : DumpOk plainOut roomy neighborDump := by
  refine ⟨pairwise_singleton _ _, ?_, fun _ => ⟨trivial, fun _ => trivial⟩⟩
  intro hl
  cases hl

lemma neighborRun_ok : Run.Along (ClientState.step plainOut roomy) (EventOk plainOut roomy)
    (dumped plainOut roomy neighborDump) neighborRun := by
  refine ⟨trivial, fun _ => ?_, fun _ _ => ⟨fun _ => rfl, fun hn => absurd ?_ hn⟩, trivial⟩
  · intro target ht hl info hget
    cases ht
    cases hget
    exact ⟨fun _ => rfl, fun hn => absurd (by decide) hn⟩
  · decide

theorem peers_in_session_neighbor :
    PeerOrdered (run (ClientState.step plainOut roomy) (dumped plainOut roomy neighborDump)
      neighborRun).queued :=
  peers_in_session plainOut roomy neighborDump_ok neighborRun_ok

/-- statistics of the neighbor before it is registered, and then a route -/
def registeredLate : List ClientEvent :=
  [.goLive, .deliver Register.new (.peerStats 1 []),
    .deliver neighborRegister (.single neighborPayload)]

/-- a route of the neighbor, and the end of its session when the entry is gone -/
def removedEarly : List ClientEvent :=
  [.goLive, .deliver neighborRegister (.single neighborPayload),
    .deliver Register.new (.withdraw 1 none)]

theorem registeredLate_unordered :
    ¬ PeerOrdered (run (ClientState.step plainOut roomy) (dumped plainOut roomy none)
      registeredLate).queued ∧
    ¬ PeerOrdered (run (ClientState.step plainOut roomy) (dumped plainOut roomy none)
      removedEarly).queued := by
  refine ⟨fun h => ?_, fun h => ?_⟩
  · have hup : IsUp neighborPeer.header [(none, .initiation)] :=
      h [(none, .initiation)] (some 1, .routeMonitoring neighborPeer []) [] rfl
    rcases (Trace.since_snoc [] (none, BmpMessage.initiation)).mp hup with ⟨peer, hp, -⟩ | ⟨hn, -⟩
    · cases hp
    · exact not_isUp_nil _ hn
  · have hup : IsUp (buildPeerInfoForEmit plainOut IngressInfo.new).header
        [(none, .initiation), (some 1, .peerUp neighborPeer),
          (some 1, .routeMonitoring neighborPeer [])] :=
      h [(none, .initiation), (some 1, .peerUp neighborPeer),
        (some 1, .routeMonitoring neighborPeer [])]
        (some 1, .peerDown (buildPeerInfoForEmit plainOut IngressInfo.new)) [] rfl
    obtain ⟨pre, e, post, heq, ⟨peer, hp, hh⟩, -⟩ := hup
    have hmem : e ∈ [(none, .initiation), (some 1, .peerUp neighborPeer),
        (some 1, .routeMonitoring neighborPeer [])] := by
      rw [heq]
      simp
    simp only [mem_cons, not_mem_nil, or_false] at hmem
    rcases hmem with rfl | rfl | rfl
    · cases hp
    · cases hp
      exact absurd hh (by decide)
    · cases hp

end Netom
