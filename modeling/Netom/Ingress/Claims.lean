import Netom.Ingress.Register
import Netom.Lib.Run

/-!
# Who holds an ingress id

An id comes from the serial number or from a claim on an entry that an earlier holder left behind.
The serial number is a 32-bit atomic.  Four functions claim; the entries are in a hash map, so which
of several entries that match is met first is not known (`pick`).

* `fetchAdd`  the serial number as the atomic counts;
* `Claim`, `claim`  the four claims;
* `HeldRegister`  the register with the ids that somebody holds: obtained by somebody and not
  marked disconnected since;
* `claims_exclusive`  **an id with a holder is handed out again only by a BGP session that takes
  over the id of the same peer, or where the entry was never set connected**;
* `claims_takeOver`  both happen.
-/

namespace Netom
open Option Assoc Run Prod

/-! ## the serial number -/

/-- `fetch_add` on a 32-bit atomic: the count of ids that were issued, seen through 32 bits -/
def Register.fetchAdd (reg : Register) : IngressId × Register :=
  (reg.serial % 2 ^ 32, { reg with serial := reg.serial + 1 })

lemma fetchAdd_eq_register {reg : Register} (h : reg.serial < 2 ^ 32) :
    reg.fetchAdd = reg.register := by
  unfold Register.fetchAdd Register.register
  rw [Nat.mod_eq_of_lt h]

/-! ## claims -/

/-- the entry is one of the peer that the query describes -/
def matchesPeer (query info : IngressInfo) : Bool :=
  Register.mandatory info.parentIngress query.parentIngress &&
  Register.mandatory info.remoteAddr query.remoteAddr &&
  Register.mandatory info.remoteAsn query.remoteAsn &&
  info.ribType = query.ribType && info.peerRibType = query.peerRibType &&
  info.peerType = query.peerType && info.distinguisher = query.distinguisher &&
  info.vrfName = query.vrfName

def matchesBmpRouter (query info : IngressInfo) : Bool :=
  Register.mandatory info.parentIngress query.parentIngress &&
  Register.mandatory info.remoteAddr query.remoteAddr &&
  Register.mandatory info.ingressType query.ingressType && info.name = query.name

def matchesBgpSession (query info : IngressInfo) : Bool :=
  Register.mandatory info.remoteAddr query.remoteAddr &&
  Register.mandatory info.remoteAsn query.remoteAsn &&
  Register.mandatory info.ingressType query.ingressType

/-- one of the four claiming functions with its arguments -/
inductive Claim where
  | bgpSession (query : IngressInfo)
  | peer (query : IngressInfo)
  | bmpRouter (query : IngressInfo)
  | pathChild (parent : IngressId) (pathId : Nat)

/-- only the claim of a BGP session takes an entry that is connected -/
def Claim.accepts : Claim → IngressInfo → Bool
  | .bgpSession query, info => matchesBgpSession query info
  | .peer query, info => info.state != some .connected && matchesPeer query info
  | .bmpRouter query, info => info.state != some .connected && matchesBmpRouter query info
  | .pathChild parent pathId, info =>
    info.state != some .connected && Register.isPathChild parent pathId info

/-- what the claim leaves of the entry -/
def Claim.mark : Claim → IngressInfo → IngressInfo
  | .pathChild _ _, info =>
    { info.claim with pathActivity := saturatingSucc info.pathActivity }
  | _, info => info.claim

namespace Register
variable (reg : Register)

def claim (c : Claim) (pick : IngressId) : Option IngressId × Register :=
  match findFrom pick c.accepts reg.info with
  | none => (none, reg)
  | some id => (some id, { reg with info := modify id c.mark reg.info })

def findExistingPeerAndClaim (pick : IngressId) (query : IngressInfo) :
    Option IngressId × Register :=
  reg.claim (.peer query) pick

def findExistingBmpRouterAndClaim (pick : IngressId) (query : IngressInfo) :
    Option IngressId × Register :=
  reg.claim (.bmpRouter query) pick

end Register

/-! ## what each operation leaves at an id -/

/-- the entry after `update_info` -/
def IngressInfo.written (old : Option IngressInfo) (new : IngressInfo) : IngressInfo :=
  match old with
  | some old => old.merge new
  | none => new

/-- an entry that is marked disconnected -/
def IngressInfo.down (info : IngressInfo) : IngressInfo :=
  { info with
    state := some .disconnected, historyRevision := saturatingSucc info.historyRevision }

namespace Register
variable (reg : Register)

lemma lookup_updateInfo (id : IngressId) (new : IngressInfo) (k : IngressId) :
    (reg.updateInfo id new).info.lookup k =
      if k = id then some (IngressInfo.written (reg.info.lookup id) new)
      else reg.info.lookup k := by
  unfold updateInfo IngressInfo.written
  cases reg.info.lookup id with
  | none | some old => exact lookup_insert_eq k id _ reg.info

lemma serial_updateInfo (id : IngressId) (new : IngressInfo) :
    (reg.updateInfo id new).serial = reg.serial := by
  unfold updateInfo
  split <;> rfl

lemma lookup_markDisconnected (id k : IngressId) :
    (reg.markDisconnected id).info.lookup k =
      if k = id then (reg.info.lookup k).map IngressInfo.down else reg.info.lookup k :=
  lookup_modify k id _ reg.info

lemma lookup_remove (id k : IngressId) : (reg.remove id).info.lookup k =
    if k = id then none else reg.info.lookup k :=
  lookup_erase_eq k id reg.info

lemma claim_cases (c : Claim) (pick : IngressId) :
    reg.claim c pick = (none, reg) ∨
      ∃ id info reg', reg.claim c pick = (some id, reg') ∧ reg.info.lookup id = some info ∧
        c.accepts info = true ∧ reg'.serial = reg.serial ∧
        ∀ k, reg'.info.lookup k = if k = id then some (c.mark info) else reg.info.lookup k := by
  unfold claim
  cases hf : findFrom pick c.accepts reg.info with
  | none => exact .inl rfl
  | some id =>
    obtain ⟨info, hl, ha⟩ := findFrom_spec hf
    refine .inr ⟨id, info, _, rfl, hl, ha, rfl, ?_⟩
    intro k
    show (modify id c.mark reg.info).lookup k = _
    rw [lookup_modify]
    by_cases hk : k = id
    · rw [if_pos hk, if_pos hk, hk, hl]
      rfl
    · rw [if_neg hk, if_neg hk]

lemma refreshPathChild_cases (id parent : IngressId) (pathId : Nat) :
    (reg.refreshPathChild id parent pathId = (false, reg) ∧
      ∀ info, reg.info.lookup id = some info → isPathChild parent pathId info = false) ∨
      ∃ info reg', reg.refreshPathChild id parent pathId = (true, reg') ∧
        reg.info.lookup id = some info ∧ isPathChild parent pathId info = true ∧
        reg'.serial = reg.serial ∧ ∀ k, reg'.info.lookup k =
          if k = id then some { info with
            pathActivity := saturatingSucc info.pathActivity, state := some .connected }
          else reg.info.lookup k := by
  unfold refreshPathChild
  cases hl : reg.info.lookup id with
  | none =>
    refine .inl ⟨rfl, ?_⟩
    intro info h
    cases h
  | some info =>
    by_cases hc : isPathChild parent pathId info = true
    · refine .inr ⟨info, _, if_pos hc, rfl, hc, rfl, ?_⟩
      intro k
      exact lookup_insert_eq k id _ reg.info
    · refine .inl ⟨if_neg hc, ?_⟩
      intro info' h
      cases h
      exact Bool.eq_false_iff.mpr hc

lemma retirePathChild_cases (id : IngressId) (activity : Nat) :
    reg.retirePathChild id activity = (false, reg) ∨
      ∃ info reg', reg.retirePathChild id activity = (true, reg') ∧
        reg.info.lookup id = some info ∧ info.ingressType = some .bgpPath ∧
        reg'.serial = reg.serial ∧
        ∀ k, reg'.info.lookup k = if k = id then some info.down else reg.info.lookup k := by
  unfold retirePathChild
  cases hl : reg.info.lookup id with
  | none => exact .inl rfl
  | some info =>
    by_cases hc : (info.ingressType != some .bgpPath || info.state != some .connected ||
        info.pathActivity != activity || activity == 2 ^ 64 - 1) = true
    · exact .inl (if_pos hc)
    · refine .inr ⟨info, _, if_neg hc, rfl, ?_, rfl, ?_⟩
      · simp only [Bool.or_eq_true, not_or, bne_iff_ne, ne_eq, not_not] at hc
        exact hc.1.1.1
      · intro k
        exact lookup_insert_eq k id _ reg.info

lemma removeIfDisconnected_cases (id : IngressId) :
    reg.removeIfDisconnected id = (false, reg) ∨
      ∃ info, reg.removeIfDisconnected id = (true, reg.remove id) ∧
        reg.info.lookup id = some info ∧ info.state = some .disconnected := by
  unfold removeIfDisconnected
  cases hl : reg.info.lookup id with
  | none => exact .inl rfl
  | some info =>
    by_cases hd : info.state = some .disconnected
    · exact .inr ⟨info, if_pos hd, rfl, hd⟩
    · exact .inl (if_neg hd)

end Register

lemma state_written (old : Option IngressInfo) (new : IngressInfo) :
    (IngressInfo.written old new).state =
      if new.state.isSome then new.state else old.bind (·.state) := by
  cases old with
  | some old => rfl
  | none =>
    show new.state = _
    cases new.state <;> rfl

/-! ## operations on the register, with the holders -/

inductive RegisterOp where
  | register
  | claim (c : Claim) (pick : IngressId)
  | updateInfo (id : IngressId) (info : IngressInfo)
  | markDisconnected (id : IngressId)
  | refreshPathChild (id parent : IngressId) (pathId : Nat)
  | retirePathChild (id : IngressId) (activity : Nat)
  | remove (id : IngressId)
  | removeIfDisconnected (id : IngressId)

namespace RegisterOp

def effect (reg : Register) : RegisterOp → Register
  | .register => reg.fetchAdd.2
  | .claim c pick => (reg.claim c pick).2
  | .updateInfo id info => reg.updateInfo id info
  | .markDisconnected id => reg.markDisconnected id
  | .refreshPathChild id parent pathId => (reg.refreshPathChild id parent pathId).2
  | .retirePathChild id activity => (reg.retirePathChild id activity).2
  | .remove id => reg.remove id
  | .removeIfDisconnected id => (reg.removeIfDisconnected id).2

/-- the id that is handed out -/
def handsOut (reg : Register) : RegisterOp → Option IngressId
  | .register => some reg.fetchAdd.1
  | .claim c pick => (reg.claim c pick).1
  | _ => none

/-- the id that its holder uses again -/
def renews (reg : Register) : RegisterOp → Option IngressId
  | .refreshPathChild id parent pathId =>
    if (reg.refreshPathChild id parent pathId).1 then some id else none
  | _ => none

/-- the id that is marked disconnected -/
def marks (reg : Register) : RegisterOp → Option IngressId
  | .updateInfo id info => if info.state = some .disconnected then some id else none
  | .markDisconnected id => if (reg.get id).isSome then some id else none
  | .retirePathChild id activity =>
    if (reg.retirePathChild id activity).1 then some id else none
  | _ => none

end RegisterOp

structure HeldRegister where
  reg : Register
  held : IngressId → Bool

namespace HeldRegister

def new : HeldRegister := ⟨Register.new, fun _ => false⟩

def step (s : HeldRegister) (op : RegisterOp) : HeldRegister where
  reg := op.effect s.reg
  held id :=
    if op.handsOut s.reg = some id ∨ op.renews s.reg = some id then true
    else if op.marks s.reg = some id then false
    else s.held id

end HeldRegister

def Register.Issued (reg : Register) (id : IngressId) : Prop := 1 ≤ id ∧ id < reg.serial

/-- fewer than 2^32 ids are issued, and entries are written for ids that were issued -/
def RegisterOp.Fits (s : HeldRegister) : RegisterOp → Prop
  | .register => s.reg.serial < 2 ^ 32
  | .updateInfo id _ => s.reg.Issued id
  | _ => True

instance (reg : Register) (id : IngressId) : Decidable (reg.Issued id) :=
  inferInstanceAs (Decidable (_ ∧ _))

instance (s : HeldRegister) (op : RegisterOp) : Decidable (op.Fits s) :=
  match op with
  | .register => inferInstanceAs (Decidable (s.reg.serial < 2 ^ 32))
  | .updateInfo id _ => inferInstanceAs (Decidable (s.reg.Issued id))
  | .claim _ _ | .markDisconnected _ | .refreshPathChild _ _ _ | .retirePathChild _ _
  | .remove _ | .removeIfDisconnected _ => .isTrue trivial

/-! ## the holders -/

/-- no claim hands the id out, and nobody uses it again -/
def RegisterOp.Spares (op : RegisterOp) (reg : Register) (id : IngressId) : Prop :=
  (op.handsOut reg = some id → op = .register) ∧ op.renews reg ≠ some id

variable {id : IngressId} {op : RegisterOp}

lemma RegisterOp.spares_of_quiet {reg : Register} (ho : op.handsOut reg = none)
    (hr : op.renews reg = none) : op.Spares reg id := by
  constructor
  · intro h
    rw [ho] at h
    cases h
  · intro h
    rw [hr] at h
    cases h

/-- what an operation leaves at an id -/
inductive RegisterOp.Leaves (reg : Register) (op : RegisterOp) (id : IngressId) : Prop
  | kept (h : (op.effect reg).info.lookup id = reg.info.lookup id) (hs : op.Spares reg id)
  | removed (h : (op.effect reg).info.lookup id = none)
  | connected (old new : IngressInfo) (ho : reg.info.lookup id = some old)
      (h : (op.effect reg).info.lookup id = some new) (hc : new.state = some .connected)
  | marked (old : IngressInfo) (ho : reg.info.lookup id = some old)
      (hm : op.marks reg = some id)
  | written (new : IngressInfo) (hop : op = .updateInfo id new)

section leaves
variable {reg : Register}

lemma RegisterOp.Leaves.of_same (h : op.effect reg = reg) (ho : op.handsOut reg = none)
    (hr : op.renews reg = none) : op.Leaves reg id :=
  .kept (by rw [h]) (spares_of_quiet ho hr)

/-- an operation at one id: what it leaves there, and every other id as it was -/
lemma RegisterOp.Leaves.of_one {id' : IngressId} (hat : op.Leaves reg id')
    (hne : id ≠ id' → (op.effect reg).info.lookup id = reg.info.lookup id)
    (hs : id ≠ id' → op.Spares reg id) : op.Leaves reg id := by
  by_cases hid : id = id'
  · rw [hid]
    exact hat
  · exact .kept (hne hid) (hs hid)

end leaves

lemma RegisterOp.leaves (reg : Register) (op : RegisterOp) (id : IngressId) :
    op.Leaves reg id := by
  cases op with
  | register => exact .kept rfl ⟨fun _ => rfl, (some_ne_none id).symm⟩
  | claim c pick =>
    rcases reg.claim_cases c pick with hc | ⟨id', old, reg', hc, hl, _, _, hk⟩
    · exact .of_same (congrArg snd hc) (congrArg fst hc) rfl
    · rw [← show (reg.claim c pick).2 = reg' from congrArg snd hc] at hk
      have hout : (RegisterOp.claim c pick).handsOut reg = some id' := congrArg fst hc
      have hat := (hk id').trans (if_pos rfl)
      refine .of_one (.connected old _ hl hat (by cases c <;> rfl)) ?_ ?_
      · exact fun hid => (hk id).trans (if_neg hid)
      · exact fun hid => ⟨fun ho => absurd (some.inj (ho.symm.trans hout)) hid,
          (some_ne_none id).symm⟩
  | updateInfo id' new =>
    exact .of_one (.written new rfl)
      (fun hid => (reg.lookup_updateInfo id' new id).trans (if_neg hid))
      fun _ => spares_of_quiet rfl rfl
  | markDisconnected id' =>
    refine .of_one ?_ (fun hid => (reg.lookup_markDisconnected id' id).trans (if_neg hid))
      fun _ => spares_of_quiet rfl rfl
    have hat := (reg.lookup_markDisconnected id' id').trans (if_pos rfl)
    cases hl : reg.info.lookup id' with
    | none =>
      rw [hl] at hat
      exact .removed hat
    | some old => exact .marked old hl (if_pos (isSome_of_mem hl))
  | refreshPathChild id' parent pathId =>
    rcases reg.refreshPathChild_cases id' parent pathId with ⟨hr, _⟩ | ⟨old, reg', hr, hl, _, _, hk⟩
    · have hf : ¬ (reg.refreshPathChild id' parent pathId).1 = true := by
        rw [hr]
        exact Bool.false_ne_true
      exact .of_same (congrArg snd hr) rfl (if_neg hf)
    · rw [← show (reg.refreshPathChild id' parent pathId).2 = reg' from congrArg snd hr] at hk
      have hat := (hk id').trans (if_pos rfl)
      refine .of_one (.connected old _ hl hat rfl) (fun hid => (hk id).trans (if_neg hid)) ?_
      intro hid
      refine ⟨fun ho => absurd ho (some_ne_none id).symm, fun ho => hid ?_⟩
      exact some.inj (ho.symm.trans (if_pos (congrArg fst hr)))
  | retirePathChild id' activity =>
    rcases reg.retirePathChild_cases id' activity with hr | ⟨old, reg', hr, hl, _, _, hk⟩
    · exact .of_same (congrArg snd hr) rfl rfl
    · rw [← show (reg.retirePathChild id' activity).2 = reg' from congrArg snd hr] at hk
      exact .of_one (.marked old hl (if_pos (congrArg fst hr)))
        (fun hid => (hk id).trans (if_neg hid)) fun _ => spares_of_quiet rfl rfl
  | remove id' =>
    exact .of_one (.removed ((reg.lookup_remove id' id').trans (if_pos rfl)))
      (fun hid => (reg.lookup_remove id' id).trans (if_neg hid)) fun _ => spares_of_quiet rfl rfl
  | removeIfDisconnected id' =>
    rcases reg.removeIfDisconnected_cases id' with hr | ⟨_, hr, _, _⟩
    · exact .of_same (congrArg snd hr) rfl rfl
    · have hk := reg.lookup_remove id'
      rw [← show (reg.removeIfDisconnected id').2 = reg.remove id' from congrArg snd hr] at hk
      exact .of_one (.removed ((hk id').trans (if_pos rfl)))
        (fun hid => (hk id).trans (if_neg hid)) fun _ => spares_of_quiet rfl rfl

/-- an entry that is down after an operation was marked by it, or was down before and was neither
handed out by a claim nor used again -/
lemma down_effect {reg : Register} {info : IngressInfo}
    (h : (op.effect reg).info.lookup id = some info) (hd : info.state = some .disconnected) :
    op.marks reg = some id ∨
      (∃ old, reg.info.lookup id = some old ∧ old.state = some .disconnected) ∧
        op.Spares reg id := by
  cases op.leaves reg id with
  | kept hk hs => exact .inr ⟨⟨info, hk.symm.trans h, hd⟩, hs⟩
  | removed hr =>
    rw [hr] at h
    cases h
  | connected old new ho hn hc =>
    rw [hn] at h
    cases h
    rw [hc] at hd
    cases hd
  | marked old ho hm => exact .inl hm
  | written new hop =>
    subst hop
    have h' : (reg.updateInfo id new).info.lookup id = some info := h
    rw [Register.lookup_updateInfo, if_pos rfl] at h'
    cases h'
    rw [state_written] at hd
    cases hn : new.state with
    | some st =>
      rw [hn, if_pos isSome_some] at hd
      refine .inl ?_
      show (if new.state = some .disconnected then some id else none) = _
      rw [hn, hd, if_pos rfl]
    | none =>
      rw [hn, if_neg (by simp)] at hd
      obtain ⟨old, hl, hs⟩ := bind_eq_some_iff.mp hd
      exact .inr ⟨⟨old, hl, hs⟩, RegisterOp.spares_of_quiet rfl rfl⟩

/-- ids that are held or have an entry were issued, and a held id is not down -/
structure HeldInv (s : HeldRegister) : Prop where
  entry_issued : ∀ id, (s.reg.info.lookup id).isSome → s.reg.Issued id
  held_issued : ∀ id, s.held id = true → s.reg.Issued id
  not_down : ∀ id info, s.held id = true → s.reg.info.lookup id = some info →
    info.state ≠ some .disconnected
  serial_pos : 1 ≤ s.reg.serial

lemma serial_effect (reg : Register) (op : RegisterOp) : (op.effect reg).serial =
    match op with
    | .register => reg.serial + 1
    | _ => reg.serial := by
  cases op with
  | register | markDisconnected id | remove id => rfl
  | claim c pick =>
    show (reg.claim c pick).2.serial = _
    rcases reg.claim_cases c pick with hc | ⟨_, _, _, hc, _, _, hs, _⟩
    · rw [hc]
    · rw [hc]
      exact hs
  | updateInfo id new => exact reg.serial_updateInfo id new
  | refreshPathChild id parent pathId =>
    show (reg.refreshPathChild id parent pathId).2.serial = _
    rcases reg.refreshPathChild_cases id parent pathId with ⟨hr, _⟩ | ⟨_, _, hr, _, _, hs, _⟩
    · rw [hr]
    · rw [hr]
      exact hs
  | retirePathChild id activity =>
    show (reg.retirePathChild id activity).2.serial = _
    rcases reg.retirePathChild_cases id activity with hr | ⟨_, _, hr, _, _, hs, _⟩
    · rw [hr]
    · rw [hr]
      exact hs
  | removeIfDisconnected id =>
    show (reg.removeIfDisconnected id).2.serial = _
    rcases reg.removeIfDisconnected_cases id with hr | ⟨_, hr, _, _⟩
    · rw [hr]
    · rw [hr]
      rfl

/-- an id with an entry after an operation had one before, or `update_info` wrote it -/
lemma entry_effect {reg : Register} (h : ((op.effect reg).info.lookup id).isSome) :
    (reg.info.lookup id).isSome ∨ ∃ new, op = .updateInfo id new := by
  cases op.leaves reg id with
  | kept hk _ =>
    rw [hk] at h
    exact .inl h
  | removed hr =>
    rw [hr] at h
    cases h
  | connected old _ ho _ _ | marked old ho _ => exact .inl (by rw [ho]; rfl)
  | written new hop => exact .inr ⟨new, hop⟩

/-- an operation that hands an id out or uses it again marks none -/
lemma not_marks_of_obtains {reg : Register}
    (h : op.handsOut reg = some id ∨ op.renews reg = some id) : op.marks reg ≠ some id := by
  cases op with
  | register | claim c pick | refreshPathChild id' parent pathId => exact (some_ne_none id).symm
  | _ => rcases h with h | h <;> cases h

lemma entry_of_obtains {reg : Register} (hop : op ≠ .register)
    (h : op.handsOut reg = some id ∨ op.renews reg = some id) : (reg.info.lookup id).isSome := by
  cases op with
  | register => exact absurd rfl hop
  | claim c pick =>
    have hout : (reg.claim c pick).1 = some id := h.resolve_right (some_ne_none id).symm
    rcases reg.claim_cases c pick with hc | ⟨id', old, _, hc, hl, _, _, _⟩
    · rw [hc] at hout
      cases hout
    · rw [hc] at hout
      cases hout
      rw [hl]
      rfl
  | refreshPathChild id' parent pathId =>
    have hren : (if (reg.refreshPathChild id' parent pathId).1 then some id' else none) = some id :=
      h.resolve_left (some_ne_none id).symm
    rcases reg.refreshPathChild_cases id' parent pathId with ⟨hr, _⟩ | ⟨_, _, hr, hl, _, _, _⟩
    · rw [hr] at hren
      cases hren
    · rw [hr] at hren
      cases hren
      rw [hl]
      rfl
  | _ => rcases h with h | h <;> cases h

lemma heldInv_new : HeldInv HeldRegister.new where
  entry_issued id h := by cases h
  held_issued id h := by cases h
  not_down id info h := by cases h
  serial_pos := Nat.le_refl 1

lemma heldInv_step {s : HeldRegister} (h : HeldInv s) (hf : op.Fits s) : HeldInv (s.step op) := by
  have hserial : s.reg.serial ≤ (op.effect s.reg).serial := by
    rw [serial_effect]
    split <;> omega
  have hissued : ∀ id, s.reg.Issued id → (op.effect s.reg).Issued id := by
    intro id hid
    exact ⟨hid.1, Nat.lt_of_lt_of_le hid.2 hserial⟩
  have hobtained : ∀ id, op.handsOut s.reg = some id ∨ op.renews s.reg = some id →
      (op.effect s.reg).Issued id := by
    intro id hid
    by_cases hop : op = .register
    · subst hop
      have hlt : s.reg.serial < 2 ^ 32 := hf
      have hpos := h.serial_pos
      have hid' : some (s.reg.serial % 2 ^ 32) = some id :=
        hid.resolve_right (some_ne_none id).symm
      rw [Nat.mod_eq_of_lt hlt] at hid'
      cases hid'
      exact ⟨hpos, Nat.lt_succ_self _⟩
    · exact hissued id (h.entry_issued id (entry_of_obtains hop hid))
  refine ⟨?_, ?_, ?_, ?_⟩
  · intro id hid
    rcases entry_effect hid with he | ⟨new, rfl⟩
    · exact hissued id (h.entry_issued id he)
    · exact hissued id hf
  · intro id hid
    by_cases ho : op.handsOut s.reg = some id ∨ op.renews s.reg = some id
    · exact hobtained id ho
    · have hid' : (if op.marks s.reg = some id then false else s.held id) = true :=
        (if_neg ho).symm.trans hid
      split at hid'
      · cases hid'
      · exact hissued id (h.held_issued id hid')
  · intro id info hid hl hd
    by_cases ho : op.handsOut s.reg = some id ∨ op.renews s.reg = some id
    · rcases down_effect hl hd with hm | ⟨⟨old, hold, _⟩, hs⟩
      · exact not_marks_of_obtains ho hm
      · -- only `register` is left, and it hands out an id without an entry
        have hout := ho.resolve_right hs.2
        obtain rfl := hs.1 hout
        have hlt : s.reg.serial < 2 ^ 32 := hf
        have hid' : some (s.reg.serial % 2 ^ 32) = some id := hout
        rw [Nat.mod_eq_of_lt hlt] at hid'
        cases hid'
        have hiss := h.entry_issued s.reg.serial (by rw [hold]; rfl)
        exact absurd hiss.2 (Nat.lt_irrefl _)
    · have hid' : (if op.marks s.reg = some id then false else s.held id) = true :=
        (if_neg ho).symm.trans hid
      split at hid'
      · cases hid'
      · rename_i hm
        rcases down_effect hl hd with hm' | ⟨⟨old, hold, hdown⟩, _⟩
        · exact hm hm'
        · exact h.not_down id old hid' hold hdown
  · have hpos := h.serial_pos
    show 1 ≤ (op.effect s.reg).serial
    omega

/-- how a claim may hand out an id that has a holder -/
inductive Claim.TakesOver (info : IngressInfo) : Claim → Prop
  /-- a BGP session takes over the id of the same peer -/
  | session {query : IngressInfo} (ha : info.remoteAddr = query.remoteAddr)
      (hn : info.remoteAsn = query.remoteAsn) (ht : info.ingressType = query.ingressType) :
      TakesOver info (.bgpSession query)
  /-- the entry was never set connected -/
  | unset {c : Claim} (h : info.state = none ∨ info.state = some .nonNetwork) : TakesOver info c

lemma takesOver_of_accepts {c : Claim} {info : IngressInfo} (ha : c.accepts info = true)
    (hd : info.state ≠ some .disconnected) : c.TakesOver info := by
  have hunset : info.state ≠ some .connected → c.TakesOver info := by
    intro hc
    refine .unset ?_
    cases hs : info.state with
    | none => exact .inl rfl
    | some st =>
      cases st with
      | connected => exact absurd hs hc
      | disconnected => exact absurd hs hd
      | nonNetwork => exact .inr rfl
  cases c with
  | bgpSession query =>
    unfold Claim.accepts matchesBgpSession Register.mandatory at ha
    simp only [Bool.and_eq_true, decide_eq_true_eq] at ha
    exact .session ha.1.1.2 ha.1.2.2 ha.2.2
  | peer query | bmpRouter query | pathChild parent pathId =>
    unfold Claim.accepts at ha
    rw [Bool.and_eq_true, bne_iff_ne] at ha
    exact hunset ha.1

/-- **One holder at a time**: after any operations on the register, with fewer than 2^32 ids issued,
`register` hands out an id that nobody holds, and a claim hands out an id that nobody holds unless
it takes over. -/
theorem claims_exclusive {ops : List RegisterOp}
    (hf : Run.Along HeldRegister.step RegisterOp.Fits HeldRegister.new ops) :
    let s := run HeldRegister.step HeldRegister.new ops
    (s.reg.serial < 2 ^ 32 → s.held s.reg.fetchAdd.1 = false) ∧
    ∀ c pick id, (s.reg.claim c pick).1 = some id →
      s.held id = false ∨ ∃ info, s.reg.get id = some info ∧ c.TakesOver info := by
  intro s
  have hinv : HeldInv s := run_inv (fun _ _ => heldInv_step) heldInv_new hf
  constructor
  · intro hlt
    rw [fetchAdd_eq_register hlt]
    by_contra hheld
    have hiss := hinv.held_issued s.reg.serial (Bool.not_eq_false _ ▸ hheld)
    exact absurd hiss.2 (Nat.lt_irrefl _)
  · intro c pick id hout
    rcases s.reg.claim_cases c pick with hc | ⟨id', info, _, hc, hl, ha, _, _⟩
    · rw [hc] at hout
      cases hout
    · rw [hc] at hout
      cases hout
      cases hheld : s.held id with
      | false => exact .inl rfl
      | true => exact .inr ⟨info, hl, takesOver_of_accepts ha (hinv.not_down id info hheld hl)⟩

/-- the entry of a BGP session, or of a peer that a BMP router monitors -/
def sessionInfo (ingressType : IngressType) (state : Option IngressState) : IngressInfo :=
  { IngressInfo.new with
    ingressType := some ingressType, parentIngress := some 1, state := state,
    remoteAddr := some (.v4 0xc0000201#32), remoteAsn := some 64500 }

/-- a peer goes down and comes back: the claim finds its id, which nobody holds -/
theorem claims_exclusive_reconnect :
    let s := run HeldRegister.step HeldRegister.new
      [.register, .register, .updateInfo 2 (sessionInfo .bgpViaBmp (some .connected)),
        .markDisconnected 2]
    (s.reg.claim (.peer (sessionInfo .bgpViaBmp none)) 0).1 = some 2 ∧ s.held 2 = false ∧
      (s.held 2 = false ∨ ∃ info, s.reg.get 2 = some info ∧
        (Claim.peer (sessionInfo .bgpViaBmp none)).TakesOver info) := by
  have hf : Run.Along HeldRegister.step RegisterOp.Fits HeldRegister.new
      [.register, .register, .updateInfo 2 (sessionInfo .bgpViaBmp (some .connected)),
        .markDisconnected 2] :=
    ⟨by decide, by decide, by decide, trivial, trivial⟩
  exact ⟨by decide, by decide, (claims_exclusive hf).2 _ 0 2 (by decide)⟩

/-- the claim of a BGP session hands out the id of a session that is connected, and the claim of a
peer that of an entry without a state, or one that was written before its id was issued -/
theorem claims_takeOver :
    (let s := run HeldRegister.step HeldRegister.new
      [.register, .register, .updateInfo 2 (sessionInfo .bgp (some .connected))]
    (s.reg.claim (.bgpSession (sessionInfo .bgp none)) 0).1 = some 2 ∧ s.held 2 = true) ∧
    (let s := run HeldRegister.step HeldRegister.new
      [.register, .register, .updateInfo 2 (sessionInfo .bgpViaBmp none)]
    (s.reg.claim (.peer (sessionInfo .bgpViaBmp none)) 0).1 = some 2 ∧ s.held 2 = true) ∧
    (let s := run HeldRegister.step HeldRegister.new
      [.updateInfo 1 (sessionInfo .bgpViaBmp (some .disconnected)), .register]
    (s.reg.claim (.peer (sessionInfo .bgpViaBmp none)) 0).1 = some 1 ∧ s.held 1 = true) := by
  decide

end Netom
