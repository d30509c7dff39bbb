import Netom.BmpIn.Machine

/-!
# Which ids of the register a connection owns

A share says which ids a connection owns, in which role, and which ids it has in its caches of path
children.  An owned id belongs to one connection alone.  A path child may be in the cache of
several connections, when a router has come back before its old connection is torn down; what is
shared about such an id is that it is never anything but a path child.

* `Role`, `Share`  roles of owned ids, and the cached path children;
* `shares`  the discipline: what a share says of the register;
* `moves_at`  an operation on one id is a step that no other connection can notice;
* `keeps_…`  the operations of the register, and what they make of the share.
-/

namespace Netom.Bmp
open Atomic IngressInfo Function

/-! ## shares -/

inductive Role where
  /-- issued, and not written yet -/
  | fresh
  /-- claimed for a peer, and not written yet -/
  | claimed
  | router
  | peer (h : Header)

structure Share where
  owns : IngressId → Option Role
  kids : Set IngressId

/-- nothing but a path child: the entry may have been removed, and the RIB may then have put a state
in its place -/
def ChildLike (e : Option IngressInfo) : Prop :=
  ∀ info, e = some info →
    (info.ingressType = none ∨ info.ingressType = some .bgpPath) ∧ info.ribType = none

/-- the entry of an id in a role -/
def Role.Suits : Role → Option IngressInfo → Prop
  | .fresh, e => ∀ info, e = some info → info.ingressType = none ∧ info.ribType = none ∧
      info.remoteAsn = none ∧ info.state = some .connected
  | .claimed, e => ∃ info, e = some info ∧ info.state = some .connected ∧
      info.ingressType ≠ some .bgpPath
  | .router, e => ∃ info, e = some info ∧ info.ingressType = some .bmp ∧ info.remoteAsn = none ∧
      (info.state = some .connected ∨ info.state = none ∧ info.name = none)
  | .peer _, e => ∃ info, e = some info ∧ info.ingressType = some .bgpViaBmp ∧
      info.state = some .connected

/-- path children are of no RIB, and routers have no AS number -/
def SaneEntry (info : IngressInfo) : Prop :=
  (info.ingressType = some .bgpPath → info.ribType = none) ∧
    (info.ingressType = some .bmp → info.remoteAsn = none)

structure Sane (reg : Register) : Prop where
  serial_pos : 1 ≤ reg.serial
  issued : ∀ id info, reg.info.lookup id = some info → reg.Issued id
  entry : ∀ id info, reg.info.lookup id = some info → SaneEntry info

structure Share.Holds (g : Share) (reg : Register) : Prop where
  sane : Sane reg
  owned : ∀ id r, g.owns id = some r → reg.Issued id ∧ r.Suits (reg.info.lookup id)
  kid : ∀ id, id ∈ g.kids → g.owns id = none ∧ reg.Issued id ∧ ChildLike (reg.info.lookup id)

/-- what one owns is nothing to the other -/
def Share.Apart (g h : Share) : Prop :=
  (∀ id, g.owns id ≠ none → h.owns id = none ∧ id ∉ h.kids) ∧
    ∀ id, h.owns id ≠ none → g.owns id = none ∧ id ∉ g.kids

def shares : Discipline Register Share where
  Holds := Share.Holds
  Apart := Share.Apart
  Fits reg := reg.serial ≤ 2 ^ 32
  symm h := ⟨h.2, h.1⟩

namespace Share
variable (g : Share)

def give (id : IngressId) (r : Role) : Share := { g with owns := update g.owns id (some r) }

def drop (id : IngressId) : Share := { g with owns := update g.owns id none }

/-- the id becomes a path child -/
def adopt (id : IngressId) : Share := ⟨update g.owns id none, insert id g.kids⟩

variable {g}

lemma owns_give (id : IngressId) (r : Role) : (g.give id r).owns id = some r := by
  simp [give]

variable {id : IngressId}

lemma owns_give_ne {j : IngressId} (h : j ≠ id) (r : Role) : (g.give id r).owns j = g.owns j := by
  simp [give, h]

lemma owns_drop (id : IngressId) : (g.drop id).owns id = none := by
  simp [drop]

lemma owns_drop_ne {j : IngressId} (h : j ≠ id) : (g.drop id).owns j = g.owns j := by
  simp [drop, h]

lemma give_give (id : IngressId) (r r' : Role) : (g.give id r).give id r' = g.give id r' := by
  unfold give
  rw [update_idem]

lemma give_self {r : Role} (h : g.owns id = some r) : g.give id r = g := by
  unfold give
  rw [← h, update_eq_self]

lemma owns_adopt (id : IngressId) : (g.adopt id).owns id = none := by
  simp [adopt]

lemma owns_adopt_ne {j : IngressId} (h : j ≠ id) : (g.adopt id).owns j = g.owns j := by
  simp [adopt, h]

/-- everything that is owned or cached stays so -/
structure Grows (g g' : Share) : Prop where
  owns : ∀ id r, g.owns id = some r → g'.owns id = some r
  kids : ∀ id, id ∈ g.kids → id ∈ g'.kids

lemma Grows.refl (g : Share) : Grows g g := ⟨fun _ _ h => h, fun _ h => h⟩

lemma Grows.trans {g₁ g₂ g₃ : Share} (h : Grows g₁ g₂) (h' : Grows g₂ g₃) : Grows g₁ g₃ :=
  ⟨fun id r hr => h'.owns id r (h.owns id r hr), fun id hk => h'.kids id (h.kids id hk)⟩

lemma grows_give (h : g.owns id = none) (r : Role) : Grows g (g.give id r) := by
  refine ⟨?_, fun _ hk => hk⟩
  intro j r' hr
  have hne : j ≠ id := by
    intro he
    rw [he, h] at hr
    cases hr
  rw [owns_give_ne hne, hr]

lemma grows_adopt (h : g.owns id = none) : Grows g (g.adopt id) := by
  refine ⟨?_, fun _ hk => Set.mem_insert_of_mem id hk⟩
  intro j r' hr
  have hne : j ≠ id := by
    intro he
    rw [he, h] at hr
    cases hr
  rw [owns_adopt_ne hne, hr]

lemma adopt_give (id : IngressId) (r : Role) : (g.give id r).adopt id = g.adopt id := by
  unfold give adopt
  rw [update_idem]

end Share

/-! ## steps that nobody notices -/

section moves
variable {g g' : Share} {reg reg' : Register}

lemma issued_of_serial (hs : reg'.serial = reg.serial) {id : IngressId} (h : reg.Issued id) :
    reg'.Issued id := by
  unfold Register.Issued
  rw [hs]
  exact h

lemma sane_at {k : IngressId} (hg : Sane reg) (hs : reg'.serial = reg.serial)
    (hl : ∀ j, j ≠ k → reg'.info.lookup j = reg.info.lookup j) (hk : reg.Issued k)
    (hsane : ∀ info, reg'.info.lookup k = some info → SaneEntry info) : Sane reg' := by
  refine ⟨hs.symm ▸ hg.serial_pos, ?_, ?_⟩
  · intro id info he
    by_cases hid : id = k
    · exact hid ▸ issued_of_serial hs hk
    · rw [hl id hid] at he
      exact issued_of_serial hs (hg.issued id info he)
  · intro id info he
    by_cases hid : id = k
    · exact hsane info (hid ▸ he)
    · rw [hl id hid] at he
      exact hg.entry id info he

/-- An operation that changes the entry of `k` only.  Either `k` is ours, or no connection can own
it, and it stays a path child if it was one. -/
lemma moves_at {k : IngressId} (hg : g.Holds reg) (hs : reg'.serial = reg.serial)
    (hl : ∀ j, j ≠ k → reg'.info.lookup j = reg.info.lookup j)
    (hk : reg.Issued k) (hsane : ∀ info, reg'.info.lookup k = some info → SaneEntry info)
    (howns : ∀ j, j ≠ k → g'.owns j = g.owns j) (hkids : ∀ j, j ≠ k → (j ∈ g'.kids ↔ j ∈ g.kids))
    (hrole : ∀ r, g'.owns k = some r → r.Suits (reg'.info.lookup k))
    (hchild : k ∈ g'.kids → g'.owns k = none ∧ ChildLike (reg'.info.lookup k))
    (hframe : g.owns k ≠ none ∨
      (k ∈ g.kids ∨ ∀ r : Role, ¬ r.Suits (reg.info.lookup k)) ∧
        (ChildLike (reg.info.lookup k) →
          ChildLike (reg'.info.lookup k) ∧ g'.owns k = none)) :
    shares.Moves g reg g' reg' := by
  have hiss : ∀ id, reg.Issued id → reg'.Issued id := fun id => issued_of_serial hs
  have hsane' : Sane reg' := sane_at hg.sane hs hl hk hsane
  refine ⟨⟨hsane', ?_, ?_⟩, ?_⟩
  · intro id r hr
    by_cases hid : id = k
    · subst hid
      exact ⟨hiss id hk, hrole r hr⟩
    · rw [howns id hid] at hr
      rw [hl id hid]
      exact ⟨hiss id (hg.owned id r hr).1, (hg.owned id r hr).2⟩
  · intro id hm
    by_cases hid : id = k
    · subst hid
      exact ⟨(hchild hm).1, hiss id hk, (hchild hm).2⟩
    · have hm' := (hkids id hid).mp hm
      rw [howns id hid, hl id hid]
      exact ⟨(hg.kid id hm').1, hiss id (hg.kid id hm').2.1, (hg.kid id hm').2.2⟩
  · intro h hap hh
    -- nobody else owns `k`, and a path child of somebody else stays one
    have hown : h.owns k = none := by
      by_contra hne
      obtain ⟨r, hr⟩ := Option.ne_none_iff_exists'.mp hne
      have hmine := hap.2 k hne
      rcases hframe with ho | ⟨hc | hno, _⟩
      · exact ho hmine.1
      · exact hmine.2 hc
      · exact hno r (hh.owned k r hr).2
    have hkid : k ∈ h.kids → ChildLike (reg'.info.lookup k) ∧ g'.owns k = none := by
      intro hm
      rcases hframe with ho | ⟨_, hc⟩
      · exact absurd hm (hap.1 k ho).2
      · exact hc (hh.kid k hm).2.2
    refine ⟨⟨hsane', ?_, ?_⟩, ?_, ?_⟩
    · intro id r hr
      have hid : id ≠ k := by
        intro he
        rw [he, hown] at hr
        cases hr
      rw [hl id hid]
      exact ⟨hiss id (hh.owned id r hr).1, (hh.owned id r hr).2⟩
    · intro id hm
      refine ⟨(hh.kid id hm).1, hiss id (hh.kid id hm).2.1, ?_⟩
      by_cases hid : id = k
      · subst hid
        exact (hkid hm).1
      · rw [hl id hid]
        exact (hh.kid id hm).2.2
    · intro id ho
      by_cases hid : id = k
      · subst hid
        refine ⟨hown, ?_⟩
        intro hm
        exact ho (hkid hm).2
      · rw [howns id hid] at ho
        exact hap.1 id ho
    · intro id ho
      have hid : id ≠ k := by
        intro he
        rw [he] at ho
        exact ho hown
      rw [howns id hid, hkids id hid]
      exact hap.2 id ho

/-- a change of one entry that nobody notices at all -/
lemma holds_at {k : IngressId} (hg : g.Holds reg) (hs : reg'.serial = reg.serial)
    (hl : ∀ j, j ≠ k → reg'.info.lookup j = reg.info.lookup j) (hk : reg.Issued k)
    (hsane : ∀ info, reg'.info.lookup k = some info → SaneEntry info)
    (hrole : ∀ r : Role, r.Suits (reg.info.lookup k) → r.Suits (reg'.info.lookup k))
    (hchild : ChildLike (reg.info.lookup k) → ChildLike (reg'.info.lookup k)) :
    g.Holds reg' := by
  refine ⟨sane_at hg.sane hs hl hk hsane, ?_, ?_⟩
  · intro id r hr
    refine ⟨issued_of_serial hs (hg.owned id r hr).1, ?_⟩
    by_cases hid : id = k
    · subst hid
      exact hrole r (hg.owned id r hr).2
    · rw [hl id hid]
      exact (hg.owned id r hr).2
  · intro id hm
    refine ⟨(hg.kid id hm).1, issued_of_serial hs (hg.kid id hm).2.1, ?_⟩
    by_cases hid : id = k
    · subst hid
      exact hchild (hg.kid id hm).2.2
    · rw [hl id hid]
      exact (hg.kid id hm).2.2

lemma holds_fetchAdd (hg : g.Holds reg) : g.Holds reg.fetchAdd.2 := by
  have hmono : ∀ id, reg.Issued id → reg.fetchAdd.2.Issued id :=
    fun id h => ⟨h.1, Nat.lt_succ_of_lt h.2⟩
  refine ⟨⟨Nat.le_succ_of_le hg.sane.serial_pos, ?_, hg.sane.entry⟩, ?_, ?_⟩
  · intro id info he
    exact hmono id (hg.sane.issued id info he)
  · intro id r hr
    exact ⟨hmono id (hg.owned id r hr).1, (hg.owned id r hr).2⟩
  · intro id hm
    exact ⟨(hg.kid id hm).1, hmono id (hg.kid id hm).2.1, (hg.kid id hm).2.2⟩

lemma moves_fetchAdd (hg : g.Holds reg) (hf : reg.fetchAdd.2.serial ≤ 2 ^ 32) :
    g.owns reg.fetchAdd.1 = none ∧ reg.fetchAdd.1 ∉ g.kids ∧
      shares.Moves g reg (g.give reg.fetchAdd.1 .fresh) reg.fetchAdd.2 := by
  have hlt : reg.serial < 2 ^ 32 := hf
  have hid : reg.fetchAdd.1 = reg.serial := Nat.mod_eq_of_lt hlt
  rw [hid]
  have hnot : ¬ reg.Issued reg.serial := fun h => Nat.lt_irrefl _ h.2
  have hnone : ∀ h : Share, h.Holds reg → h.owns reg.serial = none ∧ reg.serial ∉ h.kids := by
    intro h hh
    constructor
    · by_contra hne
      obtain ⟨r, hr⟩ := Option.ne_none_iff_exists'.mp hne
      exact hnot (hh.owned _ r hr).1
    · intro hm
      exact hnot (hh.kid _ hm).2.1
  have hentry : reg.info.lookup reg.serial = none := by
    by_contra hne
    obtain ⟨info, he⟩ := Option.ne_none_iff_exists'.mp hne
    exact hnot (hg.sane.issued _ info he)
  refine ⟨(hnone g hg).1, (hnone g hg).2, ⟨(holds_fetchAdd hg).sane, ?_, ?_⟩, ?_⟩
  · intro id r hr
    by_cases he : id = reg.serial
    · subst he
      rw [Share.owns_give] at hr
      cases hr
      refine ⟨⟨hg.sane.serial_pos, Nat.lt_succ_self _⟩, ?_⟩
      intro info hi
      rw [show reg.fetchAdd.2.info.lookup reg.serial = reg.info.lookup reg.serial from rfl,
        hentry] at hi
      cases hi
    · rw [Share.owns_give_ne he] at hr
      exact (holds_fetchAdd hg).owned id r hr
  · intro id hm
    have he : id ≠ reg.serial := fun he => (hnone g hg).2 (he ▸ hm)
    rw [Share.owns_give_ne he]
    exact (holds_fetchAdd hg).kid id hm
  · intro h hap hh
    refine ⟨holds_fetchAdd hh, ?_, ?_⟩
    · intro id ho
      by_cases he : id = reg.serial
      · exact he ▸ hnone h hh
      · rw [Share.owns_give_ne he] at ho
        exact hap.1 id ho
    · intro id ho
      have he : id ≠ reg.serial := fun he => ho (he ▸ (hnone h hh).1)
      rw [Share.owns_give_ne he]
      exact hap.2 id ho

end moves

/-! ## entries that are written -/

section written
variable {old : Option IngressInfo} {new : IngressInfo}

lemma ingressType_written {t : IngressType} (h : new.ingressType = some t) :
    (IngressInfo.written old new).ingressType = some t := by
  cases old with
  | none => exact h
  | some old => simp [written, merge, updateField, h]

lemma state_written_some {st : IngressState} (h : new.state = some st) :
    (IngressInfo.written old new).state = some st := by
  rw [state_written, h]
  rfl

lemma unset_written {α : Type} {field : IngressInfo → Option α}
    (hf : ∀ a b : IngressInfo, field (a.merge b) = updateField (field a) (field b))
    (hn : field new = none) : field (IngressInfo.written old new) = old.bind field := by
  cases old with
  | none => exact hn
  | some old =>
    show field (old.merge new) = field old
    rw [hf, hn]
    rfl

lemma saneEntry_written {t : IngressType} (h : new.ingressType = some t)
    (hp : t ≠ .bgpPath) (hb : t ≠ .bmp) : SaneEntry (IngressInfo.written old new) := by
  have ht : (written old new).ingressType = some t := ingressType_written h
  constructor
  · intro h'
    rw [ht] at h'
    exact absurd (Option.some.inj h') hp
  · intro h'
    rw [ht] at h'
    exact absurd (Option.some.inj h') hb

lemma childLike_written (ho : ChildLike old) (ht : new.ingressType = some .bgpPath)
    (hr : new.ribType = none) : ChildLike (some (IngressInfo.written old new)) := by
  intro info hi
  cases hi
  refine ⟨.inr (ingressType_written ht), ?_⟩
  rw [unset_written (fun _ _ => rfl) hr]
  cases old with
  | none => rfl
  | some old => exact (ho old rfl).2

lemma saneEntry_of_childLike {info : IngressInfo} (h : ChildLike (some info)) :
    SaneEntry info := by
  refine ⟨fun _ => (h info rfl).2, ?_⟩
  intro hb
  rcases (h info rfl).1 with ht | ht <;> rw [ht] at hb <;> cases hb

end written

/-! ## the operations -/

section ops
variable {g : Share} {inv : Share → Prop}

lemma keeps_register {post : IngressId → Share → Prop} (hi : inv g)
    (h : ∀ id, g.owns id = none → post id (g.give id .fresh)) :
    register.Keeps shares inv post g := by
  refine Prog.Keeps.call hi ?_
  intro pick reg hf hg
  obtain ⟨ho, hk, hm⟩ := moves_fetchAdd hg hf
  exact ⟨_, hm, h _ ho⟩

variable {id : IngressId} {info : IngressInfo} {post : Unit → Share → Prop} {r : Role}

lemma keeps_updateInfo {g' : Share} (hi : inv g) (ho : g.owns id = some r)
    (howns : ∀ j, j ≠ id → g'.owns j = g.owns j) (hkids : ∀ j, j ≠ id → (j ∈ g'.kids ↔ j ∈ g.kids))
    (hsane : ∀ old, r.Suits old → SaneEntry (IngressInfo.written old info))
    (hrole : ∀ r' old, g'.owns id = some r' → r.Suits old →
      r'.Suits (some (IngressInfo.written old info)))
    (hchild : ∀ old, id ∈ g'.kids → id ∉ g.kids → r.Suits old →
      g'.owns id = none ∧ ChildLike (some (IngressInfo.written old info)))
    (h : post () g') : (updateInfo id info).Keeps shares inv post g := by
  refine Prog.Keeps.call hi ?_
  intro pick reg hf hg
  obtain ⟨hiss, hsuits⟩ := hg.owned id r ho
  have hnk : id ∉ g.kids := by
    intro hm
    rw [(hg.kid id hm).1] at ho
    cases ho
  have hat : (reg.updateInfo id info).info.lookup id =
      some (written (reg.info.lookup id) info) := by
    rw [reg.lookup_updateInfo, if_pos rfl]
  refine ⟨g', moves_at hg (reg.serial_updateInfo id info) ?_ hiss ?_ howns hkids ?_ ?_
    (.inl (by rw [ho]; exact Option.some_ne_none r)), h⟩
  · intro j hj
    rw [reg.lookup_updateInfo, if_neg hj]
  · intro info' he
    rw [hat] at he
    cases he
    exact hsane _ hsuits
  · intro r' hr'
    rw [hat]
    exact hrole r' _ hr' hsuits
  · intro hm
    rw [hat]
    exact hchild _ hm hnk hsuits

lemma keeps_updateInfo_peer (h : Header) (hi : inv g) (ho : g.owns id = some r)
    (ht : info.ingressType = some .bgpViaBmp) (hs : info.state = some .connected)
    (hp : post () (g.give id (.peer h))) : (updateInfo id info).Keeps shares inv post g := by
  have hsane : ∀ old, SaneEntry (written old info) :=
    fun old => saneEntry_written ht (by decide) (by decide)
  refine keeps_updateInfo hi ho (fun j hj => Share.owns_give_ne hj _) (fun j _ => Iff.rfl)
    (fun old _ => hsane old) ?_ ?_ hp
  · intro r' old hr' _
    rw [Share.owns_give] at hr'
    cases hr'
    exact ⟨_, rfl, ingressType_written ht, state_written_some hs⟩
  · intro old hm hn _
    exact absurd hm hn

lemma keeps_updateInfo_adopt (hi : inv g) (ho : g.owns id = some .fresh)
    (ht : info.ingressType = some .bgpPath) (hr : info.ribType = none) (hp : post () (g.adopt id)) :
    (updateInfo id info).Keeps shares inv post g := by
  have hchild : ∀ old, Role.fresh.Suits old →
      ChildLike (some (written old info)) := by
    intro old hsuits
    refine childLike_written ?_ ht hr
    intro info' hi'
    exact ⟨.inl (hsuits info' hi').1, (hsuits info' hi').2.1⟩
  refine keeps_updateInfo hi ho (fun j hj => Share.owns_adopt_ne hj) ?_
    (fun old hsuits => saneEntry_of_childLike (hchild old hsuits)) ?_ ?_ hp
  · intro j hj
    exact Set.mem_insert_iff.trans (or_iff_right hj)
  · intro r' old hr' _
    rw [Share.owns_adopt] at hr'
    cases hr'
  · intro old _ _ hsuits
    exact ⟨Share.owns_adopt id, hchild old hsuits⟩

lemma keeps_updateInfo_router (hi : inv g) (ho : g.owns id = some r)
    (hr : r = .fresh ∧ info.state = none ∧ info.name = none ∨ r = .router ∧
      info.state = some .connected)
    (ht : info.ingressType = some .bmp) (hn : info.remoteAsn = none)
    (hp : post () (g.give id .router)) : (updateInfo id info).Keeps shares inv post g := by
  have hasn : ∀ old, r.Suits old → (written old info).remoteAsn = none := by
    intro old hsuits
    rw [unset_written (fun _ _ => rfl) hn]
    cases old with
    | none => rfl
    | some old =>
      rcases hr with ⟨rfl, _⟩ | ⟨rfl, _⟩
      · exact (hsuits old rfl).2.2.1
      · obtain ⟨_, he, _, hasn, _⟩ := hsuits
        cases he
        exact hasn
  refine keeps_updateInfo hi ho (fun j hj => Share.owns_give_ne hj _) (fun j _ => Iff.rfl) ?_ ?_ ?_ hp
  · intro old hsuits
    refine ⟨?_, fun _ => hasn old hsuits⟩
    intro h'
    rw [ingressType_written ht] at h'
    cases h'
  · intro r' old hr' hsuits
    rw [Share.owns_give] at hr'
    cases hr'
    refine ⟨_, rfl, ingressType_written ht, hasn old hsuits, ?_⟩
    rcases hr with ⟨rfl, hst, hname⟩ | ⟨rfl, hst⟩
    · cases old with
      | none => exact .inr ⟨hst, hname⟩
      | some old =>
        refine .inl ?_
        rw [unset_written (fun _ _ => rfl) hst]
        exact (hsuits old rfl).2.2.2
    · exact .inl (state_written_some hst)
  · intro old hm hn' _
    exact absurd hm hn'

lemma keeps_updateInfo_drop (hi : inv g) (ho : g.owns id = some .router)
    (ht : info.ingressType = none) (hn : info.remoteAsn = none) (hp : post () (g.drop id)) :
    (updateInfo id info).Keeps shares inv post g := by
  refine keeps_updateInfo hi ho (fun j hj => Share.owns_drop_ne hj) (fun j _ => Iff.rfl) ?_ ?_ ?_ hp
  · intro old hsuits
    obtain ⟨info', he, htype, hasn, _⟩ := hsuits
    subst he
    constructor
    · intro h'
      rw [unset_written (fun _ _ => rfl) ht] at h'
      rw [show (some info').bind (·.ingressType) = info'.ingressType from rfl, htype] at h'
      cases h'
    · intro _
      rw [unset_written (fun _ _ => rfl) hn]
      exact hasn
  · intro r' old hr' _
    rw [Share.owns_drop] at hr'
    cases hr'
  · intro old hm hn' _
    exact absurd hm hn'

/-- the rest of the operations change the entry of one id and leave its type and RIB -/
lemma keeps_kid {α : Type} {f : Pick → Register → α × Register} {post : α → Share → Prop}
    (hi : inv g) (hk : id ∈ g.kids) (hs : ∀ pick reg, (f pick reg).2.serial = reg.serial)
    (hl : ∀ pick reg j, j ≠ id → (f pick reg).2.info.lookup j = reg.info.lookup j)
    (hc : ∀ pick reg, ChildLike (reg.info.lookup id) → ChildLike ((f pick reg).2.info.lookup id))
    (hp : ∀ a, post a g) : (Prog.call f).Keeps shares inv post g := by
  refine Prog.Keeps.call hi ?_
  intro pick reg hf hg
  obtain ⟨ho, hiss, hchild⟩ := hg.kid id hk
  have hchild' := hc pick reg hchild
  refine ⟨g, moves_at hg (hs pick reg) (hl pick reg) hiss ?_ (fun _ _ => rfl) (fun _ _ => Iff.rfl)
    ?_ (fun _ => ⟨ho, hchild'⟩) (.inr ⟨.inl hk, fun _ => ⟨hchild', ho⟩⟩), hp _⟩
  · intro info he
    rw [he] at hchild'
    exact saneEntry_of_childLike hchild'
  · intro r hr
    rw [ho] at hr
    cases hr

lemma keeps_updateInfo_kid (hi : inv g) (hk : id ∈ g.kids) (ht : info.ingressType = some .bgpPath)
    (hr : info.ribType = none) (hp : post () g) : (updateInfo id info).Keeps shares inv post g := by
  refine keeps_kid hi hk (fun _ reg => reg.serial_updateInfo id info) ?_ ?_ (fun _ => hp)
  · intro _ reg j hj
    exact (reg.lookup_updateInfo id info j).trans (if_neg hj)
  · intro _ reg hc
    show ChildLike ((reg.updateInfo id info).info.lookup id)
    rw [reg.lookup_updateInfo, if_pos rfl]
    exact childLike_written hc ht hr

lemma childLike_map {e : Option IngressInfo} {f : IngressInfo → IngressInfo}
    (ht : ∀ info, (f info).ingressType = info.ingressType)
    (hr : ∀ info, (f info).ribType = info.ribType) (h : ChildLike e) : ChildLike (e.map f) := by
  intro info hi
  obtain ⟨old, rfl, rfl⟩ := Option.map_eq_some_iff.mp hi
  rw [ht, hr]
  exact h old rfl

lemma keeps_markDisconnected_kid {post : Bool → Share → Prop} (hi : inv g) (hk : id ∈ g.kids)
    (hp : ∀ b, post b g) : (markDisconnected id).Keeps shares inv post g := by
  refine keeps_kid hi hk (fun _ _ => rfl) ?_ ?_ hp
  · intro _ reg j hj
    exact (reg.lookup_markDisconnected id j).trans (if_neg hj)
  · intro _ reg hc
    show ChildLike ((reg.markDisconnected id).info.lookup id)
    rw [reg.lookup_markDisconnected, if_pos rfl]
    exact childLike_map (fun _ => rfl) (fun _ => rfl) hc

lemma keeps_refreshPathChild {parent : IngressId} {pathId : Nat} {post : Bool → Share → Prop}
    (hi : inv g) (hk : id ∈ g.kids) (hp : ∀ b, post b g) :
    (refreshPathChild id parent pathId).Keeps shares inv post g := by
  refine keeps_kid hi hk ?_ ?_ ?_ hp
  · intro _ reg
    rcases reg.refreshPathChild_cases id parent pathId with ⟨hr, _⟩ | ⟨_, _, hr, _, _, hs, _⟩
    · rw [hr]
    · rw [hr]
      exact hs
  · intro _ reg j hj
    rcases reg.refreshPathChild_cases id parent pathId with ⟨hr, _⟩ | ⟨_, _, hr, _, _, _, hl⟩
    · rw [hr]
    · rw [hr, hl, if_neg hj]
  · intro _ reg hc
    rcases reg.refreshPathChild_cases id parent pathId with ⟨hr, _⟩ | ⟨info, _, hr, he, _, _, hl⟩
    · rw [hr]
      exact hc
    · rw [hr, hl, if_pos rfl]
      rw [he] at hc
      exact childLike_map (f := fun info => { info with
        pathActivity := saturatingSucc info.pathActivity, state := some .connected })
        (fun _ => rfl) (fun _ => rfl) hc

lemma keeps_drop {α : Type} {f : Pick → Register → α × Register} {post : α → Share → Prop}
    (hi : inv g) (ho : g.owns id = some r) (hs : ∀ pick reg, (f pick reg).2.serial = reg.serial)
    (hl : ∀ pick reg j, j ≠ id → (f pick reg).2.info.lookup j = reg.info.lookup j)
    (hsane : ∀ pick reg info, Sane reg → (f pick reg).2.info.lookup id = some info → SaneEntry info)
    (hp : ∀ a, post a (g.drop id)) : (Prog.call f).Keeps shares inv post g := by
  refine Prog.Keeps.call hi ?_
  intro pick reg hf hg
  refine ⟨g.drop id, moves_at hg (hs pick reg) (hl pick reg) (hg.owned id r ho).1
    (fun info => hsane pick reg info hg.sane) (fun _ hj => Share.owns_drop_ne hj)
    (fun _ _ => Iff.rfl) ?_ ?_ (.inl (by rw [ho]; exact Option.some_ne_none r)), hp _⟩
  · intro r' hr'
    rw [Share.owns_drop] at hr'
    cases hr'
  · intro hm
    rw [(hg.kid id hm).1] at ho
    cases ho

lemma keeps_markDisconnected_peer {h : Header} {post : Bool → Share → Prop} (hi : inv g)
    (ho : g.owns id = some (.peer h)) (hp : ∀ b, post b (g.drop id)) :
    (markDisconnected id).Keeps shares inv post g := by
  refine keeps_drop hi ho (fun _ _ => rfl) ?_ ?_ hp
  · intro _ reg j hj
    exact (reg.lookup_markDisconnected id j).trans (if_neg hj)
  · intro _ reg info hsane he
    have he' : (reg.markDisconnected id).info.lookup id = some info := he
    rw [reg.lookup_markDisconnected, if_pos rfl] at he'
    obtain ⟨old, hold, rfl⟩ := Option.map_eq_some_iff.mp he'
    exact hsane.entry id old hold

lemma keeps_removeInfo (hi : inv g) (ho : g.owns id = some r) (hp : post () (g.drop id)) :
    (removeInfo id).Keeps shares inv post g := by
  refine keeps_drop hi ho (fun _ _ => rfl) ?_ ?_ (fun _ => hp)
  · intro _ reg j hj
    exact (reg.lookup_remove id j).trans (if_neg hj)
  · intro _ reg info hsane he
    have he' : (reg.remove id).info.lookup id = some info := he
    rw [reg.lookup_remove, if_pos rfl] at he'
    cases he'

/-! ## claims -/

variable {post : Option IngressId → Share → Prop}

/-- a claim takes an entry that no connection can own -/
lemma keeps_claim {c : Claim} {got : IngressId → Share}
    (hi : inv g) (howns : ∀ id j, j ≠ id → (got id).owns j = g.owns j)
    (hkids : ∀ id j, j ≠ id → (j ∈ (got id).kids ↔ j ∈ g.kids))
    (hfree : ∀ info, c.accepts info = true → ∀ r : Role, ¬ r.Suits (some info))
    (hrole : ∀ id r info, SaneEntry info → c.accepts info = true → (got id).owns id = some r →
      r.Suits (some (c.mark info)))
    (hchild : ∀ id info, SaneEntry info → c.accepts info = true →
      id ∈ (got id).kids ∧ id ∉ g.kids ∨ ChildLike (some info) →
      (got id).owns id = none ∧ ChildLike (some (c.mark info)))
    (hnone : post none g) (hsome : ∀ id, g.owns id = none → post (some id) (got id)) :
    (claim c).Keeps shares inv post g := by
  refine Prog.Keeps.call hi ?_
  intro pick reg hf hg
  rcases reg.claim_cases c pick.id with hc | ⟨id, info, reg', hc, hl, ha, hs, hk⟩
  · rw [hc]
    exact ⟨g, ⟨hg, fun _ hap hh => ⟨hh, hap⟩⟩, hnone⟩
  · rw [hc]
    have hsane := hg.sane.entry id info hl
    have hno : ∀ r : Role, ¬ r.Suits (reg.info.lookup id) := by
      rw [hl]
      exact hfree info ha
    have hout : g.owns id = none := by
      by_contra hne
      obtain ⟨r, hr⟩ := Option.ne_none_iff_exists'.mp hne
      exact hno r (hg.owned id r hr).2
    refine ⟨got id, moves_at hg hs ?_ (hg.sane.issued id info hl) ?_ (howns id) (hkids id) ?_ ?_
      (.inr ⟨.inr hno, ?_⟩), hsome id hout⟩
    · intro j hj
      rw [hk, if_neg hj]
    · intro info' he
      rw [hk, if_pos rfl] at he
      cases he
      cases c <;> exact hsane
    · intro r hr
      rw [hk, if_pos rfl]
      exact hrole id r info hsane ha hr
    · intro hm
      rw [hk, if_pos rfl]
      refine hchild id info hsane ha ?_
      by_cases hk' : id ∈ g.kids
      · exact .inr (hl ▸ (hg.kid id hk').2.2)
      · exact .inl ⟨hm, hk'⟩
    · intro hcl
      rw [hl] at hcl
      rw [hk, if_pos rfl]
      exact (hchild id info hsane ha (.inr hcl)).symm

lemma not_connected_of_accepts {c : Claim} (hb : ∀ q, c ≠ .bgpSession q)
    (ha : c.accepts info = true) : info.state ≠ some .connected := by
  cases c with
  | bgpSession q => exact absurd rfl (hb q)
  | peer q | bmpRouter q | pathChild p i => exact bne_iff_ne.mp (Bool.and_eq_true_iff.mp ha).1

/-- of the entries that are not connected, only that of a router without a name may be owned -/
lemma not_suits (hc : info.state ≠ some .connected) (hr : ¬ Role.router.Suits (some info))
    (r : Role) : ¬ r.Suits (some info) := by
  intro h
  cases r with
  | fresh => exact hc (h info rfl).2.2.2
  | claimed =>
    obtain ⟨_, he, hst, _⟩ := h
    cases he
    exact hc hst
  | router => exact hr h
  | peer _ =>
    obtain ⟨_, he, _, hst⟩ := h
    cases he
    exact hc hst

variable {query : IngressInfo}

lemma set_of_accepts_peer (hrib : query.ribType ≠ none)
    (ha : (Claim.peer query).accepts info = true) :
    info.remoteAsn ≠ none ∧ info.ribType ≠ none := by
  unfold Claim.accepts matchesPeer Register.mandatory at ha
  simp only [Bool.and_eq_true, decide_eq_true_eq, Option.isSome_iff_ne_none] at ha
  exact ⟨ha.2.1.1.1.1.1.2.1, ha.2.1.1.1.1.2 ▸ hrib⟩

lemma keeps_claim_peer (hi : inv g)
    (hrib : query.ribType ≠ none) (hnone : post none g)
    (hsome : ∀ id, g.owns id = none → post (some id) (g.give id .claimed)) :
    (claim (.peer query)).Keeps shares inv post g := by
  have hacc : ∀ info, (Claim.peer query).accepts info = true →
      info.remoteAsn ≠ none ∧ info.ribType ≠ none := fun info ha => set_of_accepts_peer hrib ha
  refine keeps_claim hi (fun id j hj => Share.owns_give_ne hj _) (fun _ _ _ => Iff.rfl) ?_ ?_ ?_
    hnone hsome
  · intro info ha
    refine not_suits (not_connected_of_accepts (fun _ => by simp) ha) ?_
    intro h
    obtain ⟨_, he, _, hasn, _⟩ := h
    cases he
    exact (hacc info ha).1 hasn
  · intro id r info hsane ha hr
    rw [Share.owns_give] at hr
    cases hr
    refine ⟨_, rfl, rfl, ?_⟩
    intro ht
    exact (hacc info ha).2 (hsane.1 ht)
  · intro id info hsane ha h
    rcases h with h | h
    · exact absurd h.1 h.2
    · exact absurd (h info rfl).2 (hacc info ha).2

lemma keeps_claim_router (hi : inv g)
    (ht : query.ingressType = some .bmp) (hname : query.name ≠ none) (hnone : post none g)
    (hsome : ∀ id, g.owns id = none → post (some id) (g.give id .router)) :
    (claim (.bmpRouter query)).Keeps shares inv post g := by
  have hacc : ∀ info, (Claim.bmpRouter query).accepts info = true →
      info.ingressType = some .bmp ∧ info.name ≠ none := by
    intro info ha
    unfold Claim.accepts matchesBmpRouter Register.mandatory at ha
    simp only [Bool.and_eq_true, decide_eq_true_eq] at ha
    exact ⟨ha.2.1.2.2.trans ht, ha.2.2 ▸ hname⟩
  refine keeps_claim hi (fun id j hj => Share.owns_give_ne hj _) (fun _ _ _ => Iff.rfl) ?_ ?_ ?_
    hnone hsome
  · intro info ha
    have hc := not_connected_of_accepts (fun _ => by simp) ha
    refine not_suits hc ?_
    intro h
    obtain ⟨_, he, _, _, hst⟩ := h
    cases he
    rcases hst with hst | ⟨_, hn⟩
    · exact hc hst
    · exact (hacc info ha).2 hn
  · intro id r info hsane ha hr
    rw [Share.owns_give] at hr
    cases hr
    exact ⟨_, rfl, (hacc info ha).1, hsane.2 (hacc info ha).1, .inl rfl⟩
  · intro id info hsane ha h
    rcases h with h | h
    · exact absurd h.1 h.2
    · have htype := (h info rfl).1
      rw [(hacc info ha).1] at htype
      rcases htype with h' | h' <;> cases h'

lemma keeps_claim_pathChild {parent : IngressId} {pathId : Nat}
    (hi : inv g) (hnone : post none g)
    (hsome : ∀ id, g.owns id = none → post (some id) (g.adopt id)) :
    (claim (.pathChild parent pathId)).Keeps shares inv post g := by
  have hacc : ∀ info, (Claim.pathChild parent pathId).accepts info = true →
      info.ingressType = some .bgpPath := by
    intro info ha
    unfold Claim.accepts Register.isPathChild at ha
    simp only [Bool.and_eq_true, decide_eq_true_eq] at ha
    exact ha.2.1.1
  refine keeps_claim hi (fun id j hj => Share.owns_adopt_ne hj) ?_ ?_ ?_ ?_ hnone hsome
  · intro id j hj
    exact Set.mem_insert_iff.trans (or_iff_right hj)
  · intro info ha
    refine not_suits (not_connected_of_accepts (fun _ => by simp) ha) ?_
    intro h
    obtain ⟨_, he, ht, _⟩ := h
    cases he
    rw [hacc info ha] at ht
    cases ht
  · intro id r info _ _ hr
    rw [Share.owns_adopt] at hr
    cases hr
  · intro id info hsane ha _
    refine ⟨Share.owns_adopt id, ?_⟩
    intro info' he
    cases he
    exact ⟨.inr (hacc info ha), hsane.1 (hacc info ha)⟩

end ops

end Netom.Bmp
