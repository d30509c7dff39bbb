import Netom.Lib.Trace
import Netom.Session.Process

/-!
# Two connections of one peer

A second connection negotiates while the first is live or tearing down, and takes over the ingress
id of the first.  What the two send through the gate is ordered as it should be (`Ordered`) if no
withdrawal of the first comes after a route of the second, and no route of the first under the id
after the withdrawal of the second.

The hand-over itself does not see to that: `lateWithdraw_unordered` is a run in which the first
connection has left `live_sessions`, and withdraws only after the second has sent a route.

* `Orderly`  what the two would have to wait for;
* `handover_ordered`  with it, every run is ordered.
-/

namespace Netom
open SessionPc Sessions Run

inductive Conn where
  | first
  | second
  deriving DecidableEq, Repr

/-! ## the order of the gate -/

def Emission.Withdraws (id : IngressId) : Emission → Prop
  | .withdraw id' => id' = id
  | .withdrawBulk ids => id ∈ ids
  | .bulk _ => False

/-- there is a route in it -/
def Emission.IsRoute : Emission → Prop
  | .bulk payloads => payloads ≠ []
  | _ => False

def Emission.RouteUnder (id : IngressId) : Emission → Prop
  | .bulk payloads => ∃ payload ∈ payloads, payload.ingressId = id
  | _ => False

/-- what may have come before an emission -/
def InOrder (id : IngressId) (pre : List (Conn × Emission)) (e : Conn × Emission) : Prop :=
  (e.1 = .first → e.2.Withdraws id → ∀ e' ∈ pre, e'.1 = .second → ¬ e'.2.IsRoute) ∧
  (e.1 = .first → e.2.RouteUnder id → ∀ e' ∈ pre, e'.1 = .second → ¬ e'.2.Withdraws id)

def Ordered (id : IngressId) (trace : List (Conn × Emission)) : Prop :=
  Trace.Each (InOrder id) trace

/-! ## where the hand-over begins -/

/-- past the negotiation -/
def SessionPc.late {C : Type} : SessionPc C → Bool
  | .established | .emit _ | .withdraw | .closed => true
  | _ => false

/-- the first connection is live or tearing down, the second has not been negotiated -/
structure Begins (s : Sessions Conn) (sid : Nat) : Prop where
  first_late : (s.conns .first).pc.late = true
  first_sid : (s.conns .first).sid = some sid
  second_accepted : (s.conns .second).pc = .accepted
  second_sid : (s.conns .second).sid = none
  same_peer : (s.conns .second).peer = (s.conns .first).peer
  counter : sid < s.sessionIdCounter
  trace : s.trace = []

/-- The second connection sends a route only when the first does not owe its withdrawal, and the
first sends a route only as long as the second has not been negotiated. -/
def Orderly (s : Sessions Conn) (e : Conn × SessionInput) : Prop :=
  match e, (s.conns e.1).pc with
  | (.second, .tick), .emit _ => (s.conns .first).pc ≠ .withdraw
  | (.first, .tick), .emit _ => (s.conns .second).pc = .accepted
  | _, _ => True

/-! ## the invariant -/

/-- the connection has had its entry in `live_sessions` -/
def SessionLocal.Inserted {C : Type} (l : SessionLocal C) : Prop :=
  (l.pc.late = true ∨ l.pc = .updateInfo) ∧ l.sid.isSome

structure HandoverInv (sid : Nat) (s : Sessions Conn) : Prop where
  first_late : (s.conns .first).pc.late = true
  first_sid : (s.conns .first).sid = some sid
  same_peer : (s.conns .second).peer = (s.conns .first).peer
  counter : sid < s.sessionIdCounter
  second_sid : ∀ b, (s.conns .second).sid = some b → b ≠ sid
  second_quiet : (s.conns .second).pc = .accepted →
    (s.conns .second).sid = none ∧ ∀ e ∈ s.trace, e.1 ≠ .second
  second_some : (s.conns .second).pc ≠ .accepted → (s.conns .second).pc ≠ .closed →
    (s.conns .second).sid.isSome
  /-- the entry of the first connection is gone for good -/
  replaced : (s.conns .second).Inserted → ∀ entry,
    s.liveSessions.lookup (s.conns .first).peer = some entry → entry.sid ≠ sid
  /-- and by the time the second has sent a route the first owes nothing -/
  routed : (∃ e ∈ s.trace, e.1 = .second ∧ e.2.IsRoute) →
    (s.conns .second).Inserted ∧ (s.conns .first).pc ≠ .withdraw
  ordered : ∀ id, Ordered id s.trace

variable {s : Sessions Conn} {sid : Nat}

lemma Begins.inv (h : Begins s sid) : HandoverInv sid s where
  first_late := h.first_late
  first_sid := h.first_sid
  same_peer := h.same_peer
  counter := h.counter
  second_sid b hb := by
    rw [h.second_sid] at hb
    cases hb
  second_quiet _ := ⟨h.second_sid, by simp [h.trace]⟩
  second_some hn := absurd h.second_accepted hn
  replaced hi := by
    have hs := hi.2
    rw [h.second_sid] at hs
    cases hs
  routed := by simp [h.trace]
  ordered id := by
    rw [h.trace]
    exact Trace.each_nil

/-- the second connection has sent a route -/
def Routed (s : Sessions Conn) : Prop := ∃ e ∈ s.trace, e.1 = .second ∧ e.2.IsRoute

lemma HandoverInv.of_first {s' : Sessions Conn} (h : HandoverInv sid s)
    (hsecond : s'.conns .second = s.conns .second)
    (hcounter : s'.sessionIdCounter = s.sessionIdCounter)
    (hsid : (s'.conns .first).sid = (s.conns .first).sid)
    (hpeer : (s'.conns .first).peer = (s.conns .first).peer)
    (hlate : (s'.conns .first).pc.late = true)
    (hlive : ∀ k entry, s'.liveSessions.lookup k = some entry → s.liveSessions.lookup k = some entry)
    (hpc : Routed s → (s'.conns .first).pc ≠ .withdraw)
    (htrace : s'.trace = s.trace ∨ ∃ e, s'.trace = s.trace ++ [(.first, e)] ∧
      ∀ id, InOrder id s.trace (.first, e)) : HandoverInv sid s' := by
  -- what the second connection has sent is the same
  have hsent : ∀ e, e.1 = .second → (e ∈ s'.trace ↔ e ∈ s.trace) := by
    rintro ⟨c, e⟩ rfl
    rcases htrace with ht | ⟨e', ht, -⟩
    · rw [ht]
    · rw [ht]
      simp
  have hrouted : Routed s' → Routed s := by
    rintro ⟨e, he, h2, hr⟩
    exact ⟨e, (hsent e h2).mp he, h2, hr⟩
  constructor
  · exact hlate
  · rw [hsid]
    exact h.first_sid
  · rw [hsecond, hpeer]
    exact h.same_peer
  · rw [hcounter]
    exact h.counter
  · rw [hsecond]
    exact h.second_sid
  · rw [hsecond]
    intro hacc
    refine ⟨(h.second_quiet hacc).1, fun e he h2 => ?_⟩
    exact (h.second_quiet hacc).2 e ((hsent e h2).mp he) h2
  · rw [hsecond]
    exact h.second_some
  · rw [hsecond, hpeer]
    intro hi entry hl
    exact h.replaced hi entry (hlive _ entry hl)
  · intro hr
    rw [hsecond]
    exact ⟨(h.routed (hrouted hr)).1, hpc (hrouted hr)⟩
  · intro id
    rcases htrace with ht | ⟨e, ht, hin⟩
    · rw [ht]
      exact h.ordered id
    · rw [ht]
      exact (Trace.each_snoc s.trace (.first, e)).mpr ⟨h.ordered id, hin id⟩

lemma HandoverInv.of_second {s' : Sessions Conn} (h : HandoverInv sid s)
    (hfirst : (s'.conns .first).pc = (s.conns .first).pc ∧
      (s'.conns .first).sid = (s.conns .first).sid ∧ (s'.conns .first).peer = (s.conns .first).peer)
    (hpeer2 : (s'.conns .second).peer = (s.conns .second).peer)
    (hcounter : s.sessionIdCounter ≤ s'.sessionIdCounter) (hacc : (s'.conns .second).pc ≠ .accepted)
    (hsid2 : (s'.conns .second).sid = (s.conns .second).sid ∨ (s'.conns .second).sid =
      some s.sessionIdCounter)
    (hsome : (s'.conns .second).pc ≠ .closed → (s'.conns .second).sid.isSome)
    (hins : (s.conns .second).Inserted → (s'.conns .second).Inserted)
    (hlive : (s'.conns .second).Inserted →
      ∀ entry, s'.liveSessions.lookup (s.conns .first).peer = some entry → entry.sid ≠ sid)
    (htrace : s'.trace = s.trace ∨ ∃ e, s'.trace = s.trace ++ [(.second, e)] ∧ (e.IsRoute →
      (s'.conns .second).Inserted ∧ (s.conns .first).pc ≠ .withdraw)) : HandoverInv sid s' := by
  obtain ⟨hpc, hsid, hpeer⟩ := hfirst
  constructor
  · rw [hpc]
    exact h.first_late
  · rw [hsid]
    exact h.first_sid
  · rw [hpeer, hpeer2]
    exact h.same_peer
  · exact lt_of_lt_of_le h.counter hcounter
  · intro b hb
    rcases hsid2 with h2 | h2
    · exact h.second_sid b (h2 ▸ hb)
    · rw [h2] at hb
      cases hb
      have hlt := h.counter
      omega
  · exact fun ha => absurd ha hacc
  · exact fun _ => hsome
  · rw [hpeer]
    exact hlive
  · rintro ⟨e, he, h2, hr⟩
    rw [hpc]
    rcases htrace with ht | ⟨e', ht, hroute⟩
    · rw [ht] at he
      obtain ⟨hi, hw⟩ := h.routed ⟨e, he, h2, hr⟩
      exact ⟨hins hi, hw⟩
    · rw [ht] at he
      rcases List.mem_append.mp he with he | he
      · obtain ⟨hi, hw⟩ := h.routed ⟨e, he, h2, hr⟩
        exact ⟨hins hi, hw⟩
      · cases List.mem_singleton.mp he
        exact hroute hr
  · intro id
    rcases htrace with ht | ⟨e, ht, -⟩
    · rw [ht]
      exact h.ordered id
    · rw [ht]
      refine (Trace.each_snoc s.trace (.second, e)).mpr ⟨h.ordered id, ?_, ?_⟩
      · exact fun h1 => nomatch h1
      · exact fun h1 => nomatch h1

/-! ## steps of the first connection -/

variable {pc : SessionPc Conn} {s₀ : Sessions Conn}

/-- a step of the first connection that moves it to `pc`, over whatever else it does -/
lemma HandoverInv.goto_first (h : HandoverInv sid s) (hconns : s₀.conns = s.conns)
    (hcounter : s₀.sessionIdCounter = s.sessionIdCounter) (hlate : pc.late = true)
    (hlive : ∀ k entry, s₀.liveSessions.lookup k = some entry → s.liveSessions.lookup k = some entry)
    (hpc : Routed s → pc ≠ .withdraw)
    (htrace : s₀.trace = s.trace ∨ ∃ e, s₀.trace = s.trace ++ [(.first, e)] ∧
      ∀ id, InOrder id s.trace (.first, e)) : HandoverInv sid (s₀.goto .first pc) := by
  have hself : (s₀.goto .first pc).conns .first = { s.conns .first with pc := pc } := by
    rw [goto_self, hconns]
  apply h.of_first
  · rw [goto_ne (by decide), hconns]
  · exact hcounter
  · rw [hself]
  · rw [hself]
  · rw [hself]
    exact hlate
  · exact hlive
  · rw [hself]
    exact hpc
  · exact htrace

lemma inv_first_update (h : HandoverInv sid s) (u : UpdateMessage) :
    HandoverInv sid (s.processUpdate .first u) := by
  cases hp : BgpIn.processUpdate ⟨s.ingresses, (s.conns .first).pathChildren⟩ u
      (s.conns .first).sessionIngressId with
  | none =>
    simp only [processUpdate, hp]
    exact h
  | some r =>
    simp only [processUpdate, hp]
    apply h.of_first
    · exact modifyConn_ne (by decide) _
    · rfl
    · rw [modifyConn_self]
      rfl
    · rw [modifyConn_self]
      rfl
    · rw [modifyConn_self]
      rfl
    · exact fun _ _ hl => hl
    · rw [modifyConn_self]
      exact fun _ => nofun
    · exact .inl rfl

/-- the first connection withdraws only if it finds its own entry, which is gone once the second
has sent a route -/
lemma inv_first_teardown (h : HandoverInv sid s) : HandoverInv sid (s.teardown .first) := by
  by_cases hown : (s.conns .first).sid.isSome ∧
      (s.liveSessions.lookup (s.conns .first).peer).map (·.sid) = (s.conns .first).sid
  · simp only [teardown, hown, if_true, and_self]
    apply h.goto_first
    · rfl
    · rfl
    · rfl
    · intro k entry hl
      have hl' : (s.liveSessions.erase (s.conns .first).peer).lookup k = some entry := hl
      rw [Assoc.lookup_erase_eq] at hl'
      exact (Option.ite_none_left_eq_some.mp hl').2
    · intro hr
      have hlook := hown.2
      rw [h.first_sid] at hlook
      obtain ⟨entry, hentry, hsid⟩ := Option.map_eq_some_iff.mp hlook
      exact absurd hsid (h.replaced (h.routed hr).1 entry hentry)
    · exact .inl rfl
  · simp only [teardown, hown, if_false]
    exact h.goto_first rfl rfl rfl (fun _ _ hl => hl) (fun _ => nofun) (.inl rfl)

lemma withdrawal_not_route (id id' : IngressId) (children : List IngressId) :
    ¬ (Sessions.withdrawal id children).IsRoute ∧
      ¬ (Sessions.withdrawal id children).RouteUnder id' := by
  unfold withdrawal
  by_cases hc : children.isEmpty = true
  · rw [if_pos hc]
    exact ⟨fun h => h, fun h => h⟩
  · rw [if_neg hc]
    exact ⟨fun h => h, fun h => h⟩

lemma inv_first_tick (h : HandoverInv sid s) (hok : Orderly s (.first, .tick)) :
    HandoverInv sid (s.tick .first) := by
  have hlate := h.first_late
  cases hpc : (s.conns .first).pc with
  | established | closed =>
    simp only [tick, hpc]
    exact h
  | emit payloads =>
    have hacc : (s.conns .second).pc = .accepted := by
      simp only [Orderly, hpc] at hok
      exact hok
    simp only [tick, hpc]
    apply h.goto_first
    · rfl
    · rfl
    · rfl
    · exact fun _ _ hl => hl
    · exact fun _ => nofun
    · refine .inr ⟨.bulk payloads, rfl, fun id => ⟨fun _ hw => hw.elim, ?_⟩⟩
      intro _ _ e he h2
      exact absurd h2 ((h.second_quiet hacc).2 e he)
  | withdraw =>
    simp only [tick, hpc]
    apply h.goto_first
    · rfl
    · rfl
    · rfl
    · exact fun _ _ hl => hl
    · exact fun _ => nofun
    · refine .inr ⟨_, rfl, fun id => ⟨?_, fun _ hr => absurd hr (withdrawal_not_route _ id _).2⟩⟩
      intro _ _ e he h2 hr
      exact (h.routed ⟨e, he, h2, hr⟩).2 hpc
  | _ =>
    rw [hpc] at hlate
    cases hlate

lemma inv_first (h : HandoverInv sid s) (i : SessionInput) (hok : Orderly s (.first, i)) :
    HandoverInv sid (s.step (.first, i)) := by
  have hlate := h.first_late
  cases i with
  | tick => exact inv_first_tick h hok
  | negotiate =>
    cases hpc : (s.conns .first).pc with
    | accepted =>
      rw [hpc] at hlate
      cases hlate
    | _ =>
      simp only [step, hpc]
      exact h
  | update u =>
    cases hpc : (s.conns .first).pc with
    | established =>
      simp only [step, hpc]
      exact inv_first_update h u
    | _ =>
      simp only [step, hpc]
      exact h
  | exit =>
    cases hpc : (s.conns .first).pc with
    | established =>
      simp only [step, hpc]
      exact inv_first_teardown h
    | accepted =>
      rw [hpc] at hlate
      cases hlate
    | _ =>
      simp only [step, hpc]
      exact h

/-! ## steps of the second connection -/

/-- the connections are where they were, with their ids -/
def SameConns (s₀ s : Sessions Conn) : Prop :=
  s₀.sessionIdCounter = s.sessionIdCounter ∧ ∀ c, (s₀.conns c).pc = (s.conns c).pc ∧
    (s₀.conns c).sid = (s.conns c).sid ∧ (s₀.conns c).peer = (s.conns c).peer

lemma SameConns.of_eq (hc : s₀.conns = s.conns) (hn : s₀.sessionIdCounter = s.sessionIdCounter) :
    SameConns s₀ s := by
  refine ⟨hn, fun c => ?_⟩
  rw [hc]
  exact ⟨rfl, rfl, rfl⟩

lemma HandoverInv.goto_second (h : HandoverInv sid s) (hsame : SameConns s₀ s)
    (hacc : pc ≠ .accepted) (hsome : pc ≠ .closed → (s.conns .second).sid.isSome)
    (hins : (s.conns .second).Inserted → pc.late = true ∨ pc = .updateInfo)
    (hlive : pc.late = true ∨ pc = .updateInfo → (s.conns .second).sid.isSome →
      ∀ entry, s₀.liveSessions.lookup (s.conns .first).peer = some entry → entry.sid ≠ sid)
    (htrace : s₀.trace = s.trace ∨ ∃ e, s₀.trace = s.trace ++ [(.second, e)] ∧ (e.IsRoute →
      (pc.late = true ∨ pc = .updateInfo) ∧ (s.conns .second).sid.isSome ∧
      (s.conns .first).pc ≠ .withdraw)) : HandoverInv sid (s₀.goto .second pc) := by
  obtain ⟨hcounter, hconns⟩ := hsame
  have hfirst : (s₀.goto .second pc).conns .first = s₀.conns .first :=
    goto_ne (by decide) pc
  have hsid2 : ((s₀.goto .second pc).conns .second).sid = (s.conns .second).sid := by
    rw [goto_self]
    exact (hconns .second).2.1
  have hpc2 : ((s₀.goto .second pc).conns .second).pc = pc := by
    rw [goto_self]
  apply h.of_second
  · rw [hfirst]
    exact hconns .first
  · rw [goto_self]
    exact (hconns .second).2.2
  · rw [goto_counter, hcounter]
  · rw [hpc2]
    exact hacc
  · exact .inl hsid2
  · rw [hpc2, hsid2]
    exact hsome
  · unfold SessionLocal.Inserted
    rw [hpc2, hsid2]
    exact fun hi => ⟨hins hi, hi.2⟩
  · unfold SessionLocal.Inserted
    rw [hpc2, hsid2]
    exact fun hi => hlive hi.1 hi.2
  · unfold SessionLocal.Inserted
    rw [hpc2, hsid2]
    rcases htrace with ht | ⟨e, ht, hr⟩
    · exact .inl ht
    · exact .inr ⟨e, ht, fun he => ⟨⟨(hr he).1, (hr he).2.1⟩, (hr he).2.2⟩⟩

lemma HandoverInv.inserted (h : HandoverInv sid s)
    (hold : (s.conns .second).pc.late = true ∨ (s.conns .second).pc = .updateInfo)
    (hclosed : (s.conns .second).pc ≠ .closed) : (s.conns .second).Inserted := by
  refine ⟨hold, h.second_some ?_ hclosed⟩
  intro hacc
  rw [hacc] at hold
  rcases hold with hl | hu
  · cases hl
  · cases hu

lemma HandoverInv.goto_late (h : HandoverInv sid s) (hins : (s.conns .second).Inserted)
    (hlate : pc.late = true) (hsame : SameConns s₀ s) (hlive : s₀.liveSessions = s.liveSessions)
    (htrace : s₀.trace = s.trace ∨ ∃ e, s₀.trace = s.trace ++ [(.second, e)] ∧ (e.IsRoute →
      (s.conns .first).pc ≠ .withdraw)) : HandoverInv sid (s₀.goto .second pc) := by
  apply h.goto_second hsame
  · rintro rfl
    cases hlate
  · exact fun _ => hins.2
  · exact fun _ => .inl hlate
  · intro _ _
    rw [hlive]
    exact h.replaced hins
  · rcases htrace with ht | ⟨e, ht, hr⟩
    · exact .inl ht
    · exact .inr ⟨e, ht, fun he => ⟨.inl hlate, hins.2, hr he⟩⟩

/-- between the negotiation and the entry in `live_sessions` -/
def SessionPc.negotiating {C : Type} : SessionPc C → Bool
  | .accepted | .updateInfo | .established | .emit _ | .withdraw | .closed => false
  | _ => true

lemma SessionPc.negotiating_spec {C : Type} {pc : SessionPc C} (h : pc.negotiating = true) :
    pc ≠ .accepted ∧ pc ≠ .closed ∧ ¬ (pc.late = true ∨ pc = .updateInfo) := by
  refine ⟨?_, ?_, ?_⟩
  · rintro rfl
    cases h
  · rintro rfl
    cases h
  · rintro (hl | rfl)
    · cases pc <;> simp_all [late, negotiating]
    · cases h

lemma HandoverInv.negotiating (h : HandoverInv sid s)
    (hold : (s.conns .second).pc.negotiating = true) (hnew : pc.negotiating = true)
    (hsame : SameConns s₀ s)
    (htrace : s₀.trace = s.trace ∨ ∃ e, s₀.trace = s.trace ++ [(.second, e)] ∧ ¬ e.IsRoute) :
    HandoverInv sid (s₀.goto .second pc) := by
  obtain ⟨hacc, hclosed, hnot⟩ := negotiating_spec hold
  obtain ⟨hacc', -, hnot'⟩ := negotiating_spec hnew
  apply h.goto_second hsame hacc'
  · exact fun _ => h.second_some hacc hclosed
  · exact fun hi => absurd hi.1 hnot
  · exact fun hi => absurd hi hnot'
  · rcases htrace with ht | ⟨e, ht, hr⟩
    · exact .inl ht
    · exact .inr ⟨e, ht, fun he => absurd he hr⟩

lemma HandoverInv.negotiated (h : HandoverInv sid s) (hacc : (s.conns .second).pc = .accepted)
    (reg : Register) {l : SessionLocal Conn} (hsid : l.sid = some s.sessionIdCounter)
    (hpeer : l.peer = (s.conns .second).peer) (hpc : l.pc.negotiating = true) :
    HandoverInv sid (({ s with sessionIdCounter := s.sessionIdCounter + 1 }.setIngresses
      reg).modifyConn .second fun _ => l) := by
  have hne : Conn.first ≠ .second := by decide
  have hnot : ¬ (s.conns .second).Inserted := by
    intro hi
    have hs := hi.2
    rw [(h.second_quiet hacc).1] at hs
    cases hs
  apply h.of_second
  · rw [modifyConn_ne hne]
    exact ⟨rfl, rfl, rfl⟩
  · rw [modifyConn_self]
    exact hpeer
  · exact Nat.le_succ _
  · rw [modifyConn_self]
    exact (negotiating_spec hpc).1
  · rw [modifyConn_self]
    exact .inr hsid
  · rw [modifyConn_self, hsid]
    exact fun _ => rfl
  · exact fun hi => absurd hi hnot
  · rw [modifyConn_self]
    exact fun hi => absurd hi.1 (negotiating_spec hpc).2.2
  · exact .inl rfl

lemma inv_second_negotiate (h : HandoverInv sid s) (hacc : (s.conns .second).pc = .accepted) :
    HandoverInv sid (s.negotiate .second) := by
  cases hf : s.ingresses.findExistingBgpSessionAndClaim
      (bgpQuery (s.conns .second).peer) with
  | mk found reg =>
    cases found with
    | none | some id =>
      simp only [negotiate, hf]
      exact h.negotiated hacc reg rfl rfl rfl

lemma inv_second_update (h : HandoverInv sid s) (hpc : (s.conns .second).pc = .established)
    (u : UpdateMessage) : HandoverInv sid (s.processUpdate .second u) := by
  have hne : Conn.first ≠ .second := by decide
  have hins : (s.conns .second).Inserted :=
    h.inserted (by rw [hpc]; exact .inl rfl) (by rw [hpc]; nofun)
  have hsome := hins.2
  cases hp : BgpIn.processUpdate ⟨s.ingresses, (s.conns .second).pathChildren⟩ u
      (s.conns .second).sessionIngressId with
  | none =>
    simp only [processUpdate, hp]
    exact h
  | some r =>
    simp only [processUpdate, hp]
    apply h.of_second
    · rw [modifyConn_ne hne]
      exact ⟨rfl, rfl, rfl⟩
    · rw [modifyConn_self]
      rfl
    · exact Nat.le_refl _
    · rw [modifyConn_self]
      nofun
    · rw [modifyConn_self]
      exact .inl rfl
    · rw [modifyConn_self]
      exact fun _ => hsome
    · rw [modifyConn_self]
      exact fun _ => ⟨.inl rfl, hsome⟩
    · exact fun _ => h.replaced hins
    · exact .inl rfl

lemma inv_second_teardown (h : HandoverInv sid s) (hpc : (s.conns .second).pc = .established) :
    HandoverInv sid (s.teardown .second) := by
  have hins : (s.conns .second).Inserted :=
    h.inserted (by rw [hpc]; exact .inl rfl) (by rw [hpc]; nofun)
  by_cases hown : (s.conns .second).sid.isSome ∧
      (s.liveSessions.lookup (s.conns .second).peer).map (·.sid) = (s.conns .second).sid
  · simp only [teardown, hown, if_true, and_self]
    apply h.goto_second
    · exact SameConns.of_eq rfl rfl
    · nofun
    · exact fun _ => hins.2
    · exact fun _ => .inl rfl
    · intro _ _ entry hl
      have hl' : (s.liveSessions.erase (s.conns .second).peer).lookup (s.conns .first).peer =
        some entry := hl
      rw [h.same_peer, Assoc.lookup_erase_eq, if_pos rfl] at hl'
      cases hl'
    · exact .inl rfl
  · simp only [teardown, hown, if_false]
    exact h.goto_late hins rfl (SameConns.of_eq rfl rfl) rfl (.inl rfl)

lemma inv_second_tick (h : HandoverInv sid s) (hok : Orderly s (.second, .tick)) :
    HandoverInv sid (s.tick .second) := by
  have hsame : ∀ {s₀ : Sessions Conn}, s₀.conns = s.conns →
      s₀.sessionIdCounter = s.sessionIdCounter → SameConns s₀ s := SameConns.of_eq
  cases hpc : (s.conns .second).pc with
  | accepted | established | closed =>
    simp only [tick, hpc]
    exact h
  | listChildren | listOld oldId =>
    simp only [tick, hpc]
    exact h.negotiating (by rw [hpc]; rfl) rfl (hsame rfl rfl) (.inl rfl)
  | markChildren todo children | markOld todo =>
    cases todo with
    | nil | cons id todo =>
      simp only [tick, hpc]
      exact h.negotiating (by rw [hpc]; rfl) rfl (hsame rfl rfl) (.inl rfl)
  | withdrawStale children =>
    simp only [tick, hpc]
    exact h.negotiating (by rw [hpc]; rfl) rfl (hsame rfl rfl)
      (.inr ⟨_, rfl, (withdrawal_not_route _ 0 _).1⟩)
  | takeOld =>
    cases hl : s.liveSessions.lookup (s.conns .second).peer with
    | none | some old =>
      simp only [tick, hpc, hl]
      exact h.negotiating (by rw [hpc]; rfl) rfl (hsame rfl rfl) (.inl rfl)
  | disconnectOld old =>
    simp only [tick, hpc]
    apply h.negotiating
    · rw [hpc]
      rfl
    · split <;> rfl
    · refine ⟨rfl, fun c => ?_⟩
      by_cases hc : c = old.conn
      · subst hc
        rw [modifyConn_self]
        exact ⟨rfl, rfl, rfl⟩
      · rw [modifyConn_ne hc]
        exact ⟨rfl, rfl, rfl⟩
    · exact .inl rfl
  | withdrawOld oldId children =>
    simp only [tick, hpc]
    exact h.negotiating (by rw [hpc]; rfl) rfl (hsame rfl rfl) (.inr ⟨_, rfl, fun hr => hr⟩)
  | insertSelf =>
    -- from here on the entry is not the one of the first connection
    have hs := h.second_some (by rw [hpc]; nofun) (by rw [hpc]; nofun)
    simp only [tick, hpc]
    apply h.goto_second
    · exact hsame rfl rfl
    · nofun
    · exact fun _ => hs
    · exact fun _ => .inr rfl
    · intro _ _ entry hl
      have hl' : (s.liveSessions.insert (s.conns .second).peer
          ⟨(s.conns .second).sid.getD 0, .second, (s.conns .second).sessionIngressId⟩).lookup
            (s.conns .first).peer = some entry := hl
      rw [h.same_peer, Assoc.lookup_insert_eq, if_pos rfl] at hl'
      cases hl'
      obtain ⟨b, hb⟩ := Option.isSome_iff_exists.mp hs
      show (s.conns .second).sid.getD 0 ≠ sid
      rw [hb]
      exact h.second_sid b hb
    · exact .inl rfl
  | updateInfo =>
    have hins := h.inserted (.inr hpc) (by rw [hpc]; nofun)
    simp only [tick, hpc]
    exact h.goto_late hins rfl (hsame rfl rfl) rfl (.inl rfl)
  | emit payloads =>
    have hins := h.inserted (.inl (by rw [hpc]; rfl)) (by rw [hpc]; nofun)
    have hfirst : (s.conns .first).pc ≠ .withdraw := by
      simp only [Orderly, hpc] at hok
      exact hok
    simp only [tick, hpc]
    exact h.goto_late hins rfl (hsame rfl rfl) rfl (.inr ⟨_, rfl, fun _ => hfirst⟩)
  | withdraw =>
    have hins := h.inserted (.inl (by rw [hpc]; rfl)) (by rw [hpc]; nofun)
    simp only [tick, hpc]
    exact h.goto_late hins rfl (hsame rfl rfl) rfl
      (.inr ⟨_, rfl, fun hr => absurd hr (withdrawal_not_route _ 0 _).1⟩)

lemma inv_second (h : HandoverInv sid s) (i : SessionInput) (hok : Orderly s (.second, i)) :
    HandoverInv sid (s.step (.second, i)) := by
  cases i with
  | tick => exact inv_second_tick h hok
  | negotiate =>
    cases hpc : (s.conns .second).pc with
    | accepted =>
      simp only [step, hpc]
      exact inv_second_negotiate h hpc
    | _ =>
      simp only [step, hpc]
      exact h
  | update u =>
    cases hpc : (s.conns .second).pc with
    | established =>
      simp only [step, hpc]
      exact inv_second_update h hpc u
    | _ =>
      simp only [step, hpc]
      exact h
  | exit =>
    cases hpc : (s.conns .second).pc with
    | established =>
      simp only [step, hpc]
      exact inv_second_teardown h hpc
    | accepted =>
      have hnone := (h.second_quiet hpc).1
      simp only [step, hpc]
      apply h.goto_second
      · exact SameConns.of_eq rfl rfl
      · nofun
      · exact fun hc => absurd rfl hc
      · exact fun _ => .inl rfl
      · intro _ hs
        rw [hnone] at hs
        cases hs
      · exact .inl rfl
    | _ =>
      simp only [step, hpc]
      exact h

/-- **In every run in which the two wait for each other as `Orderly` says, what they send is in
order.** -/
theorem handover_ordered {s : Sessions Conn} {sid : Nat} (hs : Begins s sid)
    {es : List (Conn × SessionInput)} (ha : Run.Along Sessions.step Orderly s es)
    (id : IngressId) : Ordered id (run Sessions.step s es).trace := by
  have hinv : HandoverInv sid (run step s es) := by
    refine run_inv ?_ hs.inv ha
    rintro s ⟨c, i⟩ h hok
    cases c with
    | first => exact inv_first h i hok
    | second => exact inv_second h i hok
  exact hinv.ordered id

/-! ## a reconnect during the teardown -/

def reconnecting : PeerKey := (.v4 0xc0000201#32, 64500)

def reconnectingInfo : IngressInfo :=
  { Sessions.bgpQuery reconnecting with
    state := some .connected }

/-- the first connection is live under ingress 1, the second has just been accepted -/
def reconnect : Sessions Conn where
  ingresses := ⟨3, (∅ : Assoc IngressId IngressInfo).insert 1 reconnectingInfo⟩
  liveSessions := (∅ : Assoc PeerKey (LiveEntry Conn)).insert reconnecting ⟨0, .first, 1⟩
  sessionIdCounter := 1
  conns
    | .first => ⟨.established, reconnecting, reconnectingInfo, 1, some 0, .empty, false⟩
    | .second => ⟨.accepted, reconnecting, reconnectingInfo, 2, none, .empty, false⟩
  trace := []

lemma reconnect_begins : Begins reconnect 0 := ⟨rfl, rfl, rfl, rfl, rfl, by decide, rfl⟩

/-- announces the default route -/
def announceDefault : UpdateMessage where
  fourOctet := true
  treatment := .normal
  pathAttributes := some [some (.origin .igp)]
  announcements := some [some (.route false (defaultRoute .v4) none)]
  withdrawals := some []

def defaultPayload : Payload :=
  ⟨.route false (defaultRoute .v4) ⟨.notChecked, true, [some (.origin .igp)]⟩, 1, .active⟩

/-- the second connection up to its loop -/
def takeOver : List (Conn × SessionInput) :=
  (.second, .negotiate) :: List.replicate 6 (.second, .tick)

/-- the second connection has an UPDATE to send, and waits until the first has withdrawn -/
def waited : List (Conn × SessionInput) :=
  (.first, .exit) :: takeOver ++
    [(.second, .update announceDefault), (.first, .tick), (.second, .tick)]

lemma waited_orderly : Run.Along Sessions.step Orderly reconnect waited :=
  ⟨trivial, trivial, trivial, trivial, trivial, trivial, trivial, trivial, trivial, trivial,
    nofun, trivial⟩

theorem handover_ordered_waited :
    Ordered 1 (run Sessions.step reconnect waited).trace :=
  handover_ordered reconnect_begins waited_orderly 1

/-- the first connection leaves `live_sessions` and withdraws ingress 1 only when the second has
taken it over and sent a route -/
def lateWithdraw : List (Conn × SessionInput) :=
  (.first, .exit) :: takeOver ++
    [(.second, .update announceDefault), (.second, .tick), (.first, .tick)]

/-- the first connection sends a route under ingress 1 that the second has withdrawn -/
def lateRoute : List (Conn × SessionInput) :=
  (.first, .update announceDefault) :: takeOver ++ [(.first, .tick)]

theorem lateWithdraw_unordered :
    Begins reconnect 0 ∧ ¬ Ordered 1 (run Sessions.step reconnect lateWithdraw).trace ∧
      ¬ Ordered 1 (run Sessions.step reconnect lateRoute).trace := by
  refine ⟨reconnect_begins, fun h => ?_, fun h => ?_⟩
  · have hin := h [(.second, .withdraw 1), (.second, .bulk [defaultPayload])]
      (.first, .withdraw 1) [] rfl
    exact hin.1 rfl rfl (.second, .bulk [defaultPayload]) (by simp) rfl (by simp [Emission.IsRoute])
  · have hin := h [(.second, .withdraw 1)] (.first, .bulk [defaultPayload]) [] rfl
    exact hin.2 rfl ⟨defaultPayload, by simp, rfl⟩ (.second, .withdraw 1) (by simp) rfl rfl

end Netom
