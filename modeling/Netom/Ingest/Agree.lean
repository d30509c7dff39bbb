import Netom.Ingest.BothLists

/-!
# One UPDATE through a BGP session and through BMP

The same UPDATE can reach netom from the peer itself and from a router that monitors the peer.  What
matters of a payload is its route with the attributes, the path id that chose its ingress, and its
status; the ingress itself differs between the two inputs.

* `taggedPayloads`  the payloads of an UPDATE, each with its path id;
* `BgpIn.contents`, `BmpIn.contents`  what they say;
* `contents_eq_iff`  **the two inputs say the same iff the UPDATE is not to be treated as a
  withdrawal, or announces nothing**;
* `contents_treatAsWithdraw`  BMP stores as active what the session withdraws.
-/

namespace Netom
open List

/-! ## payloads and their path ids -/

/-- a route with its attributes, the path id and the status -/
structure Content where
  route : RotondaRoute
  pathId : Option Nat
  status : RouteStatus
  deriving DecidableEq, Repr

section tagged
variable {σ : Type} (res : Resolver σ)

/-- the loops of `buildPayloads`, with the path id that each payload was resolved by -/
def taggedPayloads (s : σ) (reach unreach : List Exploded) : List (Option Nat × Payload) :=
  (reach.map (·.2)).zip (announcePayloads res s reach).1 ++
    unreach.filterMap fun e => (res.withdraw (announcePayloads res s reach).2 e.2).map
      fun id => (e.2, ⟨e.1, id, .withdrawn⟩)

def content (x : Option Nat × Payload) : Content := ⟨x.2.rxValue, x.1, x.2.routeStatus⟩

lemma length_announcePayloads (s : σ) (reach : List Exploded) :
    (announcePayloads res s reach).1.length = reach.length := by
  induction reach generalizing s with
  | nil => rfl
  | cons e reach ih => exact congrArg (· + 1) (ih _)

lemma taggedPayloads_snd (s : σ) (reach unreach : List Exploded) :
    (taggedPayloads res s reach unreach).map (·.2) = (buildPayloads res s reach unreach).1 := by
  have hlen := length_announcePayloads res s reach
  have hzip : ((reach.map (·.2)).zip (announcePayloads res s reach).1).map (·.2) =
      (announcePayloads res s reach).1 := by
    apply map_snd_zip
    rw [hlen, length_map]
  show map _ (_ ++ _) = (announcePayloads res s reach).1 ++
    withdrawPayloads res (announcePayloads res s reach).2 unreach
  rw [map_append, hzip, map_filterMap]
  congr 1
  unfold withdrawPayloads
  congr 1
  funext e
  rw [Option.map_map]
  rfl

lemma content_announced (s : σ) (reach : List Exploded) :
    ((reach.map (·.2)).zip (announcePayloads res s reach).1).map content =
      reach.map fun e => ⟨e.1, e.2, .active⟩ := by
  induction reach generalizing s with
  | nil => rfl
  | cons e reach ih => exact congrArg (_ :: ·) (ih _)

/-- every withdrawn path id has an ingress when the withdrawals are looked at -/
def WithdrawalsKnown (s : σ) (u : UpdateMessage) : Prop :=
  ∀ reach unreach, explodeAnnouncements u = some reach → explodeWithdrawals u = some unreach →
    ∀ e ∈ unreach, (res.withdraw (announcePayloads res s reach).2 e.2).isSome

lemma content_taggedPayloads {s : σ} {reach unreach : List Exploded}
    (h : ∀ e ∈ unreach, (res.withdraw (announcePayloads res s reach).2 e.2).isSome) :
    (taggedPayloads res s reach unreach).map content =
      (reach.map fun e => ⟨e.1, e.2, .active⟩) ++ unreach.map fun e => ⟨e.1, e.2, .withdrawn⟩ := by
  unfold taggedPayloads
  rw [map_append, content_announced, map_filterMap]
  congr 1
  rw [← filterMap_eq_map]
  apply filterMap_congr
  intro e he
  obtain ⟨id, hid⟩ := Option.isSome_iff_exists.mp (h e he)
  rw [hid]
  rfl

lemma status_of_mem_withdrawn {s : σ} {unreach : List Exploded} {c : Content}
    (h : c ∈ (taggedPayloads res s [] unreach).map content) : c.status = .withdrawn := by
  obtain ⟨x, hx, rfl⟩ := mem_map.mp h
  obtain ⟨e, he, hx⟩ := mem_filterMap.mp hx
  obtain ⟨id, -, rfl⟩ := Option.map_eq_some_iff.mp hx
  rfl

lemma active_of_announced (s : σ) (e : Exploded) (reach unreach : List Exploded) :
    ⟨e.1, e.2, .active⟩ ∈ (taggedPayloads res s (e :: reach) unreach).map content := by
  unfold taggedPayloads
  rw [map_append, content_announced]
  exact mem_append_left _ mem_cons_self

end tagged

/-! ## the two inputs -/

/-- `process_update` with the path ids -/
def BgpIn.contents (st : BgpIn) (u : UpdateMessage) (ingressId : IngressId) :
    Option (List Content) := do
  let reach ← explodeAnnouncements u
  let unreach ← explodeWithdrawals u
  let (reach, unreach) := applyUpdateTreatment u.treatment reach unreach
  return (taggedPayloads (bgpResolver ingressId) st reach unreach).map content

/-- `extract_route_monitoring_routes` with the path ids -/
def BmpIn.contents (st : BmpIn) (pph : PerPeerHeader) (u : UpdateMessage) :
    Option (List Content) := do
  let reach ← explodeAnnouncements u
  let unreach ← explodeWithdrawals u
  let peer ← st.peers.lookup pph
  return (taggedPayloads (bmpResolver pph peer.ingressId) (peer.pathChildren, st.ingressRegister)
    reach unreach).map content

/-- route and status of a payload -/
def Payload.says (p : Payload) : RotondaRoute × RouteStatus := (p.rxValue, p.routeStatus)

lemma says_contents {σ : Type} (res : Resolver σ) (s : σ) (reach unreach : List Exploded) :
    (buildPayloads res s reach unreach).1.map Payload.says =
      ((taggedPayloads res s reach unreach).map content).map fun c => (c.route, c.status) := by
  rw [← taggedPayloads_snd, map_map, map_map]
  rfl

lemma BgpIn.processUpdate_says (st : BgpIn) (u : UpdateMessage) (ingressId : IngressId) :
    (st.processUpdate u ingressId).map (fun x => x.1.map Payload.says) =
      (st.contents u ingressId).map fun cs => cs.map fun c => (c.route, c.status) := by
  unfold processUpdate contents
  cases explodeAnnouncements u with
  | none => rfl
  | some reach =>
    cases explodeWithdrawals u with
    | none => rfl
    | some unreach => exact congrArg some (says_contents _ _ _ _)

lemma BmpIn.extract_says (st : BmpIn) (pph : PerPeerHeader) (u : UpdateMessage) :
    (st.extractRouteMonitoringRoutes pph u).map (fun x => x.1.map Payload.says) =
      (st.contents pph u).map fun cs => cs.map fun c => (c.route, c.status) := by
  unfold extractRouteMonitoringRoutes contents
  cases explodeAnnouncements u with
  | none => rfl
  | some reach =>
    cases explodeWithdrawals u with
    | none => rfl
    | some unreach =>
      cases st.peers.lookup pph with
      | none => rfl
      | some peer => exact congrArg some (says_contents _ _ _ _)

/-! ## when they agree -/

/-- the UPDATE is not to be treated as a withdrawal, or announces no route that can be stored -/
def Untreated (u : UpdateMessage) : Prop :=
  u.treatment = .treatAsWithdraw → ∀ reach unreach, explodeAnnouncements u = some reach →
    explodeWithdrawals u = some unreach → reach = []

/-- without announcements the treatment changes nothing -/
lemma applyUpdateTreatment_eq {treatment : UpdateTreatment} {reach unreach : List Exploded}
    (h : treatment = .treatAsWithdraw → reach = []) :
    applyUpdateTreatment treatment reach unreach = (reach, unreach) := by
  unfold applyUpdateTreatment
  by_cases ht : treatment = .treatAsWithdraw
  · rw [if_pos ht, h ht, append_nil]
  · rw [if_neg ht]

/-- **A session and BMP read the same routes from an UPDATE**, with path ids, attributes and status,
iff it is not one to be treated as a withdrawal that announces something; the withdrawn path ids are
known to both. -/
theorem contents_eq_iff (st : BgpIn) (ingressId : IngressId) (bmp : BmpIn) (pph : PerPeerHeader)
    (u : UpdateMessage) {peer : PeerState} (hpeer : bmp.peers.lookup pph = some peer)
    (hbgp : WithdrawalsKnown (bgpResolver ingressId) st u)
    (hbmp : WithdrawalsKnown (bmpResolver pph peer.ingressId)
      (peer.pathChildren, bmp.ingressRegister) u) :
    bmp.contents pph u = st.contents u ingressId ↔ Untreated u := by
  unfold Untreated
  cases hr : explodeAnnouncements u with
  | none =>
    have hb : bmp.contents pph u = none := by simp only [BmpIn.contents, hr]; rfl
    have hs : st.contents u ingressId = none := by simp only [BgpIn.contents, hr]; rfl
    rw [hb, hs]
    refine iff_of_true rfl ?_
    intro _ reach unreach h
    cases h
  | some reach =>
    cases hu : explodeWithdrawals u with
    | none =>
      have hb : bmp.contents pph u = none := by simp only [BmpIn.contents, hr, hu]; rfl
      have hs : st.contents u ingressId = none := by simp only [BgpIn.contents, hr, hu]; rfl
      rw [hb, hs]
      refine iff_of_true rfl ?_
      intro _ reach unreach _ h
      cases h
    | some unreach =>
      have hb : bmp.contents pph u = some ((taggedPayloads (bmpResolver pph peer.ingressId)
          (peer.pathChildren, bmp.ingressRegister) reach unreach).map content) := by
        simp only [BmpIn.contents, hr, hu, hpeer]
        rfl
      have hs : st.contents u ingressId = some ((taggedPayloads (bgpResolver ingressId) st
          (applyUpdateTreatment u.treatment reach unreach).1
          (applyUpdateTreatment u.treatment reach unreach).2).map content) := by
        simp only [BgpIn.contents, hr, hu]
        rfl
      rw [hb, hs]
      constructor
      · intro heq ht reach' unreach' hr' _
        cases hr'
        cases reach with
        | nil => rfl
        | cons e reach =>
          -- what BMP announces first, the session does not announce at all
          have hlist := Option.some.inj heq
          have hact := active_of_announced (bmpResolver pph peer.ingressId)
            (peer.pathChildren, bmp.ingressRegister) e reach unreach
          rw [hlist, applyUpdateTreatment, if_pos ht] at hact
          cases status_of_mem_withdrawn (bgpResolver ingressId) hact
      · intro h
        have ht : u.treatment = .treatAsWithdraw → reach = [] :=
          fun ht => h ht reach unreach rfl rfl
        rw [applyUpdateTreatment_eq ht, content_taggedPayloads _ (hbgp reach unreach hr hu),
          content_taggedPayloads _ (hbmp reach unreach hr hu)]

/-! ## 10.0.0.0/8 with a malformed attribute -/

/-- announces 10.0.0.0/8; routecore flags what it found in the attributes -/
def flagged (treatment : UpdateTreatment) : UpdateMessage where
  fourOctet := true
  treatment := treatment
  pathAttributes := some [some (.origin .igp)]
  announcements := some [some (.route false tenSlashEight none)]
  withdrawals := some []

def monitoredHeader : PerPeerHeader := ⟨0, 0, .v4 0x0a000001#32, 65001, 0x0a000001#32⟩

/-- a router with one monitored peer, whose ingress is 2 -/
def oneMonitored : BmpIn :=
  ⟨Register.new, (∅ : Assoc PerPeerHeader PeerState).insert monitoredHeader ⟨2, PathCache.empty⟩⟩

theorem contents_eq_attributeDiscard :
    oneMonitored.contents monitoredHeader (flagged .attributeDiscard) =
      BgpIn.contents ⟨Register.new, PathCache.empty⟩ (flagged .attributeDiscard) 1 := by
  refine (contents_eq_iff _ 1 oneMonitored monitoredHeader _ rfl ?_ ?_).mpr ?_
  · intro reach unreach _ hu e he
    cases hu
    cases he
  · intro reach unreach _ hu e he
    cases hu
    cases he
  · intro ht
    cases ht

theorem contents_treatAsWithdraw :
    oneMonitored.contents monitoredHeader (flagged .treatAsWithdraw) =
      some [⟨.route false tenSlashEight ⟨.notChecked, true, [some (.origin .igp)]⟩, none, .active⟩] ∧
    BgpIn.contents ⟨Register.new, PathCache.empty⟩ (flagged .treatAsWithdraw) 1 =
      some [⟨.route false tenSlashEight ⟨.notChecked, true, [some (.origin .igp)]⟩, none,
        .withdrawn⟩] := by
  constructor
  · rfl
  · rfl

end Netom
