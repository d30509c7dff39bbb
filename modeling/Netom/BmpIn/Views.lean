import Netom.BmpIn.Shares

/-!
# The ids of the views of a connection

Of the peers of a connection only the ids matter here: each view has an id of its own and the ids of
its path children.

* `View`, `Table`  the ids of a view, and the views of a connection;
* `Tracked`  what the register knows about them, and about the ids that routes were emitted
  under, peer by peer;
* `Obtained`  an id that was claimed or issued, and written;
* `Tracked.…`  the changes of the register and of the table that keep it.
-/

namespace Netom.Bmp
open Atomic Option Register Function

/-! ## views -/

structure View where
  session : IngressId
  kids : Nat → Option IngressId

def View.Has (v : View) (id : IngressId) : Prop := id = v.session ∨ ∃ q, v.kids q = some id

abbrev Table := Header → Option View

abbrev Identity := BitVec 8 × BitVec 64 × IpAddr × BitVec 32 × BitVec 32

/-- the ids that routes were emitted under -/
abbrev Emitted := Identity → Set IngressId

/-- routes of the peer `J` are emitted under `ids` -/
def Emitted.add (emitted : Emitted) (J : Identity) (ids : List IngressId) : Emitted :=
  fun J' => { id | id ∈ emitted J' ∨ J' = J ∧ id ∈ ids }

lemma Emitted.add_nil (emitted : Emitted) (J : Identity) : emitted.add J [] = emitted := by
  funext J'
  ext id
  simp [add]

lemma Emitted.add_add (emitted : Emitted) (J : Identity) (ids ids' : List IngressId) :
    (emitted.add J ids).add J ids' = emitted.add J (ids ++ ids') := by
  funext J'
  ext id
  simp only [add, Set.mem_ofPred_eq, List.mem_append]
  tauto

structure Tracked (tab : Table) (reg : Register) (emitted : Emitted) : Prop where
  sane : Sane reg
  /-- a view has an id with a connected entry -/
  session : ∀ h v, tab h = some v → ∃ info, reg.info.lookup v.session = some info ∧
    info.ingressType = some .bgpViaBmp ∧ info.state = some .connected
  session_inj : ∀ h v h' v', tab h = some v → tab h' = some v' → v.session = v'.session → h = h'
  /-- a cached path child has an entry that says so, or none -/
  kid : ∀ h v q id, tab h = some v → v.kids q = some id → reg.Issued id ∧
    ∀ info, reg.info.lookup id = some info → Register.isPathChild v.session q info = true
  kid_inj : ∀ h v q h' v' q' id, tab h = some v → tab h' = some v' → v.kids q = some id →
    v'.kids q' = some id → h = h'
  issued : ∀ J id, id ∈ emitted J → reg.Issued id
  /-- an id that a route was emitted under is still that of a view, unless its entry is gone -/
  kept : ∀ J id, id ∈ emitted J → reg.info.lookup id ≠ none →
    ∃ h v, tab h = some v ∧ h.identity = J ∧ v.Has id
  only : ∀ J id h v, id ∈ emitted J → tab h = some v → v.Has id → h.identity = J

variable {info : IngressInfo} {parent : IngressId}

lemma ingressType_of_isPathChild {q : Nat} (h : Register.isPathChild parent q info = true) :
    info.ingressType = some .bgpPath := by
  unfold isPathChild at h
  simp only [Bool.and_eq_true, decide_eq_true_eq] at h
  exact h.1.1

lemma parent_of_isPathChild {q : Nat} (h : Register.isPathChild parent q info = true) :
    info.parentIngress = some parent := by
  unfold isPathChild at h
  simp only [Bool.and_eq_true, decide_eq_true_eq] at h
  exact h.1.2

lemma pathId_of_isPathChild {q : Nat} (h : Register.isPathChild parent q info = true) :
    info.pathId = some q := by
  unfold isPathChild at h
  simp only [Bool.and_eq_true, decide_eq_true_eq] at h
  exact h.2

section tracked
variable {tab : Table} {reg reg' : Register} {emitted : Emitted}

variable {h : Header}

lemma Tracked.issued_of_has (ht : Tracked tab reg emitted) {v : View} {id : IngressId}
    (hv : tab h = some v) (hid : v.Has id) : reg.Issued id := by
  rcases hid with rfl | ⟨q, hq⟩
  · obtain ⟨info, he, _⟩ := ht.session h v hv
    exact ht.sane.issued _ info he
  · exact (ht.kid h v q id hv hq).1

lemma Tracked.session_ne_kid (ht : Tracked tab reg emitted) {h' : Header} {v v' : View} {q : Nat}
    (hv : tab h = some v) (hv' : tab h' = some v') : v'.kids q ≠ some v.session := by
  intro hq
  obtain ⟨info, he, htype, _⟩ := ht.session h v hv
  have hchild := (ht.kid h' v' q v.session hv' hq).2 info he
  rw [ingressType_of_isPathChild hchild] at htype
  cases htype

lemma Tracked.disjoint (ht : Tracked tab reg emitted) {h' : Header} {v v' : View} {id : IngressId}
    (hv : tab h = some v) (hv' : tab h' = some v') (hid : v.Has id) (hid' : v'.Has id) :
    h = h' := by
  rcases hid with rfl | ⟨q, hq⟩
  · rcases hid' with hs | ⟨q', hq'⟩
    · exact ht.session_inj h v h' v' hv hv' hs
    · exact absurd hq' (ht.session_ne_kid hv hv')
  · rcases hid' with rfl | ⟨q', hq'⟩
    · exact absurd hq (ht.session_ne_kid hv' hv)
    · exact ht.kid_inj h v q h' v' q' id hv hv' hq hq'

lemma Tracked.emit (ht : Tracked tab reg emitted) {v : View} (hv : tab h = some v)
    {ids : List IngressId} (hids : ∀ id ∈ ids, v.Has id) :
    Tracked tab reg (emitted.add h.identity ids) := by
  refine { ht with issued := ?_, kept := ?_, only := ?_ }
  · intro J id hid
    rcases hid with hid | ⟨_, hid⟩
    · exact ht.issued J id hid
    · exact ht.issued_of_has hv (hids id hid)
  · intro J id hid he
    rcases hid with hid | ⟨rfl, hid⟩
    · exact ht.kept J id hid he
    · exact ⟨h, v, hv, rfl, hids id hid⟩
  · intro J id h' v' hid hv' hhas
    rcases hid with hid | ⟨rfl, hid⟩
    · exact ht.only J id h' v' hid hv' hhas
    · rw [ht.disjoint hv' hv hhas (hids id hid)]

/-! ## entries that change -/

/-- the fields that tell what an entry is for -/
structure SameKind (a b : IngressInfo) : Prop where
  ingressType : b.ingressType = a.ingressType
  parent : b.parentIngress = a.parentIngress
  pathId : b.pathId = a.pathId
  ribType : b.ribType = a.ribType
  remoteAsn : b.remoteAsn = a.remoteAsn

lemma SameKind.isPathChild {a b : IngressInfo} (h : SameKind a b) (parent : IngressId) (q : Nat) :
    Register.isPathChild parent q b = Register.isPathChild parent q a := by
  unfold Register.isPathChild
  rw [h.ingressType, h.parent, h.pathId]

lemma SameKind.saneEntry {a b : IngressInfo} (h : SameKind a b) (hs : SaneEntry a) :
    SaneEntry b := by
  unfold SaneEntry
  rw [h.ingressType, h.ribType, h.remoteAsn]
  exact hs

/-- entries may change their state and may go, but those of the views stay connected -/
lemma Tracked.evolve (ht : Tracked tab reg emitted) (hs : reg.serial ≤ reg'.serial)
    (hk : ∀ id info', reg'.info.lookup id = some info' →
      ∃ info, reg.info.lookup id = some info ∧ SameKind info info')
    (hsess : ∀ h v, tab h = some v → ∃ info', reg'.info.lookup v.session = some info' ∧
      info'.state = some .connected) : Tracked tab reg' emitted := by
  have hiss : ∀ id, reg.Issued id → reg'.Issued id :=
    fun id h => ⟨h.1, Nat.lt_of_lt_of_le h.2 hs⟩
  refine ⟨⟨Nat.le_trans ht.sane.serial_pos hs, ?_, ?_⟩, ?_, ht.session_inj, ?_, ht.kid_inj, ?_, ?_,
    ht.only⟩
  · intro id info' he'
    obtain ⟨info, he, _⟩ := hk id info' he'
    exact hiss id (ht.sane.issued id info he)
  · intro id info' he'
    obtain ⟨info, he, hsame⟩ := hk id info' he'
    exact hsame.saneEntry (ht.sane.entry id info he)
  · intro h v hv
    obtain ⟨info', he', hst⟩ := hsess h v hv
    obtain ⟨info, he, hsame⟩ := hk _ info' he'
    obtain ⟨info₀, he₀, htype, _⟩ := ht.session h v hv
    rw [he] at he₀
    cases he₀
    exact ⟨info', he', hsame.ingressType.trans htype, hst⟩
  · intro h v q id hv hq
    obtain ⟨hid, hchild⟩ := ht.kid h v q id hv hq
    refine ⟨hiss id hid, ?_⟩
    intro info' he'
    obtain ⟨info, he, hsame⟩ := hk id info' he'
    rw [hsame.isPathChild]
    exact hchild info he
  · intro J id hid
    exact hiss id (ht.issued J id hid)
  · intro J id hid he'
    obtain ⟨info', he'⟩ := ne_none_iff_exists'.mp he'
    obtain ⟨info, he, _⟩ := hk id info' he'
    exact ht.kept J id hid (by rw [he]; exact some_ne_none info)

/-- some views go; the peers that keep what was emitted keep their views -/
lemma Tracked.restrict {tab' : Table} {emitted' : Emitted} (ht : Tracked tab reg emitted)
    (hsub : ∀ h v, tab' h = some v → tab h = some v)
    (hem : ∀ J id, id ∈ emitted' J → id ∈ emitted J ∧
      ∀ h v, tab h = some v → h.identity = J → tab' h = some v) :
    Tracked tab' reg emitted' where
  sane := ht.sane
  session h v hv := ht.session h v (hsub h v hv)
  session_inj h v h' v' hv hv' := ht.session_inj h v h' v' (hsub h v hv) (hsub h' v' hv')
  kid h v q id hv := ht.kid h v q id (hsub h v hv)
  kid_inj h v q h' v' q' id hv hv' := ht.kid_inj h v q h' v' q' id (hsub h v hv) (hsub h' v' hv')
  issued J id hid := ht.issued J id (hem J id hid).1
  kept J id hid he := by
    obtain ⟨h, v, hv, hJ, hhas⟩ := ht.kept J id (hem J id hid).1 he
    exact ⟨h, v, (hem J id hid).2 h v hv hJ, hJ, hhas⟩
  only J id h v hid hv := ht.only J id h v (hem J id hid).1 (hsub h v hv)

/-! ## ids that are obtained -/

/-- `id` had an entry that the claim accepts, or was never issued; its entry has been written -/
structure Obtained (c : Claim) (new : IngressInfo) (reg : Register) (id : IngressId)
    (reg' : Register) : Prop where
  sane : Sane reg
  serial : reg.serial ≤ reg'.serial
  issued : reg'.Issued id
  lookup : ∀ k, k ≠ id → reg'.info.lookup k = reg.info.lookup k
  entry : (∃ old, reg.info.lookup id = some old ∧ c.accepts old = true ∧
      reg'.info.lookup id = some (IngressInfo.written (some (c.mark old)) new)) ∨
    ¬ reg.Issued id ∧ reg'.info.lookup id = some new

lemma Sane.lookup_eq_none (h : Sane reg) {id : IngressId} (hid : ¬ reg.Issued id) :
    reg.info.lookup id = none := by
  by_contra hne
  obtain ⟨info, he⟩ := ne_none_iff_exists'.mp hne
  exact hid (h.issued id info he)

lemma obtained_of_runs {c : Claim} {new : IngressInfo} {id : IngressId} {b : Bool}
    (hs : Sane reg) (hr : (claimOrRegister c).Runs shares.Fits reg (id, b) reg') :
    Obtained c new reg id (reg'.updateInfo id new) := by
  obtain ⟨found, reg₁, hc, hr⟩ := Prog.runs_bind_iff.mp hr
  obtain ⟨_, pick, hc⟩ := Prog.runs_call_iff.mp hc
  rcases reg.claim_cases c pick.id with hn | ⟨id', info, reg₂, he, hl, ha, hserial, hk⟩
  · rw [hn] at hc
    cases hc
    obtain ⟨id', reg₂, hf, hr⟩ := Prog.runs_bind_iff.mp hr
    obtain ⟨hfit, _, hf⟩ := Prog.runs_call_iff.mp hf
    cases hr
    have hlt : reg.serial < 2 ^ 32 := by
      have h : reg.fetchAdd.2.serial ≤ 2 ^ 32 := by
        rw [hf]
        exact hfit
      exact Nat.lt_of_succ_le h
    rw [fetchAdd_eq_register hlt] at hf
    cases hf
    have hno : ¬ reg.Issued reg.serial := fun h => Nat.lt_irrefl _ h.2
    refine ⟨hs, ?_, ?_, ?_, .inr ⟨hno, ?_⟩⟩
    · rw [serial_updateInfo]
      exact Nat.le_succ reg.serial
    · unfold Register.Issued
      rw [serial_updateInfo]
      exact ⟨hs.serial_pos, Nat.lt_succ_self reg.serial⟩
    · intro k hne
      rw [lookup_updateInfo, if_neg hne]
    · rw [lookup_updateInfo, if_pos rfl]
      show some (IngressInfo.written (reg.info.lookup reg.serial) new) = some new
      rw [hs.lookup_eq_none hno]
      rfl
  · rw [he] at hc
    cases hc
    cases hr
    refine ⟨hs, ?_, ?_, ?_, .inl ⟨info, hl, ha, ?_⟩⟩
    · rw [serial_updateInfo, hserial]
    · unfold Register.Issued
      rw [serial_updateInfo, hserial]
      exact hs.issued id info hl
    · intro k hne
      rw [lookup_updateInfo, if_neg hne, hk, if_neg hne]
    · rw [lookup_updateInfo, if_pos rfl, hk, if_pos rfl]

section obtained
variable {c : Claim} {new : IngressInfo} {id : IngressId}

lemma Obtained.issued_mono (ho : Obtained c new reg id reg') {j : IngressId}
    (h : reg.Issued j) : reg'.Issued j :=
  ⟨h.1, Nat.lt_of_lt_of_le h.2 ho.serial⟩

lemma Obtained.written (ho : Obtained c new reg id reg') :
    ∃ old, reg'.info.lookup id = some (IngressInfo.written old new) ∧
      ∀ info, old = some info → ∃ claimed, c.accepts claimed = true ∧ SaneEntry claimed ∧
        info = c.mark claimed := by
  rcases ho.entry with ⟨old, hl, ha, he⟩ | ⟨_, he⟩
  · refine ⟨some (c.mark old), he, ?_⟩
    intro info hi
    cases hi
    exact ⟨old, ha, ho.sane.entry id old hl, rfl⟩
  · refine ⟨none, he, ?_⟩
    intro info hi
    cases hi

lemma Obtained.sane' (ho : Obtained c new reg id reg')
    (hn : ∀ info, reg'.info.lookup id = some info → SaneEntry info) : Sane reg' := by
  refine ⟨Nat.le_trans ho.sane.serial_pos ho.serial, ?_, ?_⟩
  · intro j info he
    by_cases hj : j = id
    · exact hj ▸ ho.issued
    · rw [ho.lookup j hj] at he
      exact ho.issued_mono (ho.sane.issued j info he)
  · intro j info he
    by_cases hj : j = id
    · exact hn info (hj ▸ he)
    · rw [ho.lookup j hj] at he
      exact ho.sane.entry j info he

lemma Obtained.ne_of_gone (ho : Obtained c new reg id reg') {j : IngressId} (hi : reg.Issued j)
    (hl : reg.info.lookup j = none) : j ≠ id := by
  intro hj
  rw [hj] at hi hl
  rcases ho.entry with ⟨old, he, _⟩ | ⟨hno, _⟩
  · rw [hl] at he
    cases he
  · exact hno hi

section put
variable {k : Header} {v' : View}

lemma put_cases {h : Header} {v : View} (hv : update tab k (some v') h = some v) :
    h = k ∧ v = v' ∨ h ≠ k ∧ tab h = some v := by
  by_cases hk : h = k
  · subst hk
    rw [update_self] at hv
    exact .inl ⟨rfl, (some.inj hv).symm⟩
  · rw [update_of_ne hk] at hv
    exact .inr ⟨hk, hv⟩

lemma Tracked.not_emitted (ht : Tracked tab reg emitted) (ho : Obtained c new reg id reg')
    (hno : ∀ h v, tab h = some v → ¬ v.Has id) (J : Identity) : id ∉ emitted J := by
  intro hid
  rcases ho.entry with ⟨old, hl, _⟩ | ⟨hn, _⟩
  · obtain ⟨h, v, hv, _, hhas⟩ := ht.kept J id hid (by rw [hl]; exact some_ne_none old)
    exact hno h v hv hhas
  · exact hn (ht.issued J id hid)

/-- An id that no view has is obtained for the view of `k`, as its own or as a path child.  What
the view had before it keeps, unless the entry is gone. -/
lemma Tracked.put (ht : Tracked tab reg emitted) (ho : Obtained c new reg id reg')
    (hno : ∀ h v, tab h = some v → ¬ v.Has id) (hsane : Sane reg')
    (hsess : ∃ info, reg'.info.lookup v'.session = some info ∧
      info.ingressType = some .bgpViaBmp ∧ info.state = some .connected)
    (hs : v'.session = id ∨ ∃ v, tab k = some v ∧ v'.session = v.session)
    (hk : ∀ q j, v'.kids q = some j →
      (j = id ∧ ∀ info, reg'.info.lookup j = some info →
        Register.isPathChild v'.session q info = true) ∨
      ∃ v, tab k = some v ∧ v'.session = v.session ∧ v.kids q = some j)
    (hkeep : ∀ v j, tab k = some v → v.Has j → reg'.info.lookup j ≠ none → v'.Has j) :
    Tracked (update tab k (some v')) reg' emitted := by
  have hne : ∀ h v j, tab h = some v → v.Has j → j ≠ id := by
    intro h v j hv hj he
    exact hno h v hv (he ▸ hj)
  -- what is new among the ids of `k` is `id`
  have hhas : ∀ j, v'.Has j → j = id ∨ ∃ v, tab k = some v ∧ v.Has j := by
    intro j hj
    rcases hj with rfl | ⟨q, hq⟩
    · rcases hs with hs | ⟨v, hv, hs⟩
      · exact .inl hs
      · exact .inr ⟨v, hv, .inl hs⟩
    · rcases hk q j hq with ⟨hj, _⟩ | ⟨v, hv, _, hq⟩
      · exact .inl hj
      · exact .inr ⟨v, hv, .inr ⟨q, hq⟩⟩
  have hsess_ne : ∀ h v, h ≠ k → tab h = some v → v'.session ≠ v.session := by
    intro h v hhk hv he
    rcases hs with hs | ⟨v₀, hv₀, hs⟩
    · exact hno h v hv (.inl (hs.symm.trans he))
    · exact hhk (ht.session_inj h v k v₀ hv hv₀ (he.symm.trans hs))
  have hkid_ne : ∀ h v q q' j, h ≠ k → tab h = some v → v.kids q = some j →
      v'.kids q' ≠ some j := by
    intro h v q q' j hhk hv hq hq'
    rcases hk q' j hq' with ⟨hj, _⟩ | ⟨v₀, hv₀, _, hq₀⟩
    · exact hne h v j hv (.inr ⟨q, hq⟩) hj
    · exact hhk (ht.kid_inj h v q k v₀ q' j hv hv₀ hq hq₀)
  have hkid_old : ∀ h v q j, tab h = some v → v.kids q = some j → reg'.Issued j ∧
      ∀ info, reg'.info.lookup j = some info →
        isPathChild v.session q info = true := by
    intro h v q j hv hq
    obtain ⟨hi, hchild⟩ := ht.kid h v q j hv hq
    refine ⟨ho.issued_mono hi, ?_⟩
    intro info he
    rw [ho.lookup j (hne h v j hv (.inr ⟨q, hq⟩))] at he
    exact hchild info he
  refine ⟨hsane, ?_, ?_, ?_, ?_, fun J j hj => ho.issued_mono (ht.issued J j hj), ?_, ?_⟩
  · intro h v hv
    rcases put_cases hv with ⟨_, rfl⟩ | ⟨hhk, hv⟩
    · exact hsess
    · rw [ho.lookup _ (hne h v _ hv (.inl rfl))]
      exact ht.session h v hv
  · intro h v h' v'' hv hv'' he
    rcases put_cases hv with ⟨rfl, rfl⟩ | ⟨hhk, hvo⟩
    · rcases put_cases hv'' with ⟨rfl, rfl⟩ | ⟨hhk, hv''⟩
      · rfl
      · exact absurd he (hsess_ne h' v'' hhk hv'')
    · rcases put_cases hv'' with ⟨rfl, rfl⟩ | ⟨hhk', hv''⟩
      · exact absurd he.symm (hsess_ne h v hhk hvo)
      · exact ht.session_inj h v h' v'' hvo hv'' he
  · intro h v q j hv hq
    rcases put_cases hv with ⟨rfl, rfl⟩ | ⟨hhk, hv⟩
    · rcases hk q j hq with ⟨hj, hchild⟩ | ⟨v₀, hv₀, hse, hq⟩
      · exact ⟨hj ▸ ho.issued, hchild⟩
      · rw [hse]
        exact hkid_old h v₀ q j hv₀ hq
    · exact hkid_old h v q j hv hq
  · intro h v q h' v'' q' j hv hv'' hq hq'
    rcases put_cases hv with ⟨rfl, rfl⟩ | ⟨hhk, hvo⟩
    · rcases put_cases hv'' with ⟨rfl, rfl⟩ | ⟨hhk, hv''⟩
      · rfl
      · exact absurd hq (hkid_ne h' v'' q' q j hhk hv'' hq')
    · rcases put_cases hv'' with ⟨rfl, rfl⟩ | ⟨hhk', hv''⟩
      · exact absurd hq' (hkid_ne h v q q' j hhk hvo hq)
      · exact ht.kid_inj h v q h' v'' q' j hvo hv'' hq hq'
  · intro J j hj he
    have hjid : j ≠ id := fun h => ht.not_emitted ho hno J (h ▸ hj)
    have he' := he
    rw [ho.lookup j hjid] at he'
    obtain ⟨h, v, hv, hJ, hjv⟩ := ht.kept J j hj he'
    by_cases hhk : h = k
    · subst hhk
      exact ⟨h, v', update_self h (some v') tab, hJ, hkeep v j hv hjv he⟩
    · refine ⟨h, v, ?_, hJ, hjv⟩
      rw [update_of_ne hhk]
      exact hv
  · intro J j h v hj hv hjv
    rcases put_cases hv with ⟨rfl, rfl⟩ | ⟨hhk, hv⟩
    · rcases hhas j hjv with hjid | ⟨v₀, hv₀, hjv₀⟩
      · exact absurd hj (hjid ▸ ht.not_emitted ho hno J)
      · exact ht.only J j h v₀ hj hv₀ hjv₀
    · exact ht.only J j h v hj hv hjv

/-- a view comes up: an entry that an earlier session left is not that of a view -/
lemma Tracked.addPeer {query : IngressInfo} (ht : Tracked tab reg emitted) (hk : tab k = none)
    (htype : query.ingressType = some .bgpViaBmp) (hst : query.state = some .connected)
    (hrib : query.ribType ≠ none) (ho : Obtained (.peer query) query reg id reg') :
    Tracked (update tab k (some ⟨id, fun _ => none⟩)) reg' emitted := by
  have hno : ∀ h v, tab h = some v → ¬ v.Has id := by
    intro h v hv hid
    rcases ho.entry with ⟨old, hl, ha, _⟩ | ⟨hn, _⟩
    · rcases hid with rfl | ⟨q, hq⟩
      · obtain ⟨info, he, _, hcon⟩ := ht.session h v hv
        rw [hl] at he
        cases he
        exact not_connected_of_accepts (fun _ => by simp) ha hcon
      · have hchild := (ht.kid h v q id hv hq).2 old hl
        exact (set_of_accepts_peer hrib ha).2
          ((ht.sane.entry id old hl).1 (ingressType_of_isPathChild hchild))
    · exact hn (ht.issued_of_has hv hid)
  obtain ⟨old, he, _⟩ := ho.written
  refine ht.put ho hno (ho.sane' ?_) ⟨_, he, ingressType_written htype, state_written_some hst⟩
    (.inl rfl) ?_ ?_
  · intro info hi
    rw [he] at hi
    cases hi
    exact saneEntry_written htype (by simp) (by simp)
  · intro q j hq
    cases hq
  · intro v j hv
    rw [hk] at hv
    cases hv

lemma isPathChild_written (h : Header) (sessionId : IngressId) (q : Nat)
    (old : Option IngressInfo) :
    Register.isPathChild sessionId q (IngressInfo.written old (childInfo h sessionId q)) = true := by
  cases old with
  | none => simp [isPathChild, IngressInfo.written, childInfo, pathChildInfo]
  | some old =>
    simp [isPathChild, IngressInfo.written, IngressInfo.merge, updateField, childInfo,
      pathChildInfo]

/-- a path child that an earlier session left is not that of a view -/
lemma Tracked.not_has_child {v : View} {q : Nat} (ht : Tracked tab reg emitted)
    (hv : tab k = some v) (hgone : ∀ j, v.kids q = some j → reg.info.lookup j = none)
    (ho : Obtained (.pathChild v.session q) new reg id reg') (h : Header) (w : View)
    (hw : tab h = some w) : ¬ w.Has id := by
  intro hid
  rcases ho.entry with ⟨old, hl, ha, _⟩ | ⟨hn, _⟩
  · have hchild : isPathChild v.session q old = true := (Bool.and_eq_true_iff.mp ha).2
    rcases hid with rfl | ⟨q', hq'⟩
    · obtain ⟨info, he, htype, _⟩ := ht.session h w hw
      rw [hl] at he
      cases he
      rw [ingressType_of_isPathChild hchild] at htype
      cases htype
    · -- its entry tells the view and the path id
      have hchild' := (ht.kid h w q' id hw hq').2 old hl
      have hs : w.session = v.session := some.inj
        ((parent_of_isPathChild hchild').symm.trans (parent_of_isPathChild hchild))
      have hq : q' = q := some.inj
        ((pathId_of_isPathChild hchild').symm.trans (pathId_of_isPathChild hchild))
      have hh := ht.session_inj h w k v hw hv hs
      subst hh
      rw [hv] at hw
      cases hw
      rw [hgone id (hq ▸ hq')] at hl
      cases hl
  · exact hn (ht.issued_of_has hw hid)

lemma Tracked.addKid {v : View} {h : Header} {q : Nat} {kids' : Nat → Option IngressId}
    (ht : Tracked tab reg emitted) (hv : tab k = some v)
    (hgone : ∀ j, v.kids q = some j → reg.info.lookup j = none)
    (ho : Obtained (.pathChild v.session q) (childInfo h v.session q) reg id reg')
    (hnew : ∀ q' j, kids' q' = some j → q' = q ∧ j = id ∨ v.kids q' = some j)
    (hold : ∀ q' j, v.kids q' = some j → q' ≠ q → reg'.info.lookup j ≠ none →
      kids' q' = some j) :
    Tracked (update tab k (some ⟨v.session, kids'⟩)) reg' emitted := by
  have hno := ht.not_has_child hv hgone ho
  obtain ⟨old, he, hclaimed⟩ := ho.written
  have hlike : ChildLike old := by
    intro info hi
    obtain ⟨claimed, ha, hsane, rfl⟩ := hclaimed info hi
    have htype : claimed.ingressType = some .bgpPath :=
      ingressType_of_isPathChild (Bool.and_eq_true_iff.mp ha).2
    exact ⟨.inr htype, hsane.1 htype⟩
  refine ht.put ho hno (ho.sane' ?_) ?_ (.inr ⟨v, hv, rfl⟩) ?_ ?_
  · intro info hi
    rw [he] at hi
    cases hi
    exact saneEntry_of_childLike (childLike_written hlike rfl rfl)
  · have hne : v.session ≠ id := fun h => hno k v hv (.inl h.symm)
    show ∃ info, reg'.info.lookup v.session = some info ∧ _
    rw [ho.lookup v.session hne]
    exact ht.session k v hv
  · intro q' j hq'
    rcases hnew q' j hq' with ⟨rfl, rfl⟩ | hq
    · refine .inl ⟨rfl, ?_⟩
      intro info hi
      rw [he] at hi
      cases hi
      exact isPathChild_written h v.session q' old
    · exact .inr ⟨v, hv, rfl, hq⟩
  · intro w j hw hj hl
    rw [hv] at hw
    cases hw
    rcases hj with rfl | ⟨q', hq'⟩
    · exact .inl rfl
    · by_cases hqq : q' = q
      · subst hqq
        have hgone' := hgone j hq'
        have hne := ho.ne_of_gone (ht.kid k v q' j hv hq').1 hgone'
        rw [ho.lookup j hne] at hl
        exact absurd hgone' hl
      · exact .inr ⟨q', hold q' j hq' hqq hl⟩

end put

end obtained

end tracked

end Netom.Bmp
