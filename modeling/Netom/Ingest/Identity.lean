import Netom.Ingest.Tasks

/-!
# What the ids of the register stand for

An id stands for one thing forever: a session with one peer, a path child of one session, a router, a
peer of an MRT import, or the unit of one.  Entries come and go, and what is left of one may be
blank, but what an entry says is always what its id stands for.  A task knows what the ids stand for
that it was issued or that it claimed.  The id that a native session is issued when it is accepted is
reserved: what it stands for is settled when the peer is known, if the session still needs it.

* `Identity`, `ident`  what an entry says about its peer; an entry that is gone says nothing;
* `Role`  what an id stands for;
* `Role.Suits`  the entry agrees with that, and so do those of its path children;
* `roles`  the discipline: tasks that know a role of the same id know the same role;
* `moves_quiet`, `moves_learn`, `moves_fresh`, `moves_settle`, `moves_write`  steps that keep it.
-/

namespace Netom.Ingest
open Atomic Bmp Option Function

/-! ## identities -/

structure Identity where
  ingressType : Option IngressType
  parentIngress : Option IngressId
  remoteAddr : Option IpAddr
  remoteAsn : Option Asn
  ribType : Option Nat
  peerRibType : Option PeerRibType
  deriving DecidableEq

namespace Identity

def blank : Identity := ⟨none, none, none, none, none, none⟩

def merge (old new : Identity) : Identity where
  ingressType := updateField old.ingressType new.ingressType
  parentIngress := updateField old.parentIngress new.parentIngress
  remoteAddr := updateField old.remoteAddr new.remoteAddr
  remoteAsn := updateField old.remoteAsn new.remoteAsn
  ribType := updateField old.ribType new.ribType
  peerRibType := updateField old.peerRibType new.peerRibType

lemma blank_merge (e : Identity) : blank.merge e = e := by
  obtain ⟨a, b, c, d, r, s⟩ := e
  cases a <;> cases b <;> cases c <;> cases d <;> cases r <;> cases s <;> rfl

end Identity

def identityOf (info : IngressInfo) : Identity where
  ingressType := info.ingressType
  parentIngress := info.parentIngress
  remoteAddr := info.remoteAddr
  remoteAsn := info.remoteAsn
  ribType := info.ribType
  peerRibType := info.peerRibType

def ident (reg : Register) (id : IngressId) : Identity :=
  ((reg.info.lookup id).map identityOf).getD .blank

variable {id : IngressId}

lemma ident_of_lookup {reg : Register} {info : IngressInfo}
    (h : reg.info.lookup id = some info) : ident reg id = identityOf info := by
  unfold ident
  rw [h]
  rfl

lemma ident_updateInfo (reg : Register) (id : IngressId) (new : IngressInfo) (k : IngressId) :
    ident (reg.updateInfo id new) k =
      if k = id then (ident reg id).merge (identityOf new) else ident reg k := by
  unfold ident
  rw [reg.lookup_updateInfo]
  by_cases hk : k = id
  · rw [if_pos hk, if_pos hk]
    cases reg.info.lookup id with
    | none => exact (Identity.blank_merge _).symm
    | some old => rfl
  · rw [if_neg hk, if_neg hk]

/-! ## roles -/

inductive Role where
  | reserved
  | session (type : IngressType) (peer : PeerKey)
  | child (parent : IngressId)
  | router
  | mrtPeer
  | unit

/-- the entry names no peer -/
structure Identity.Unset (e : Identity) : Prop where
  ingressType : e.ingressType = none
  remoteAddr : e.remoteAddr = none
  remoteAsn : e.remoteAsn = none

/-- the entry names the peer -/
structure Identity.Names (e : Identity) (peer : PeerKey) : Prop where
  remoteAddr : e.remoteAddr = some peer.1
  remoteAsn : e.remoteAsn = some peer.2

/-- the entry agrees with what its id stands for -/
def Role.Fits : Role → Identity → Prop
  | .reserved, e => e = .blank
  | .session type peer, e =>
    (e.Unset ∨ e.ingressType = some type ∧ e.Names peer) ∧
      (type = .bgp ∧ e.parentIngress = none ∨
        type = .bgpViaBmp ∧ (e.ingressType ≠ none → e.ribType ≠ none))
  | .child parent, e => e.ribType = none ∧ e.peerRibType = none ∧
      (e.Unset ∧ e.parentIngress = none ∨
        e.ingressType = some .bgpPath ∧ e.parentIngress = some parent)
  | .router, e => (e.Unset ∨ e.ingressType = some .bmp) ∧ e.remoteAsn = none
  | .mrtPeer, e => (e.Unset ∨ e.ingressType = some .mrt) ∧ e.ribType = none
  | .unit, e => e.Unset

/-- the entry is one of a path child -/
def IsChildOf (e : Identity) (p : IngressId) : Prop :=
  e.ingressType = some .bgpPath ∧ e.parentIngress = some p

/-- a path child has the peer, or none -/
def Identity.Passed (e : Identity) (peer : PeerKey) : Prop :=
  e.Names peer ∨ e.remoteAddr = none ∧ e.remoteAsn = none

/-- the entry of a path child that the role allows -/
def Role.Allows : Role → Identity → Prop
  | .session _ peer, e => e.Passed peer
  | .mrtPeer, _ => True
  | .reserved, _ | .child _, _ | .router, _ | .unit, _ => False

structure Role.Suits (r : Role) (id : IngressId) (reg : Register) : Prop where
  fits : r.Fits (ident reg id)
  children : ∀ c, IsChildOf (ident reg c) id → r.Allows (ident reg c)

lemma unset_blank : Identity.blank.Unset := ⟨rfl, rfl, rfl⟩

/-! ## entries and roles -/

section fits
variable {r r' : Role} {e new : Identity}

/-- the two kinds of sessions -/
def Role.Proper : Role → Prop
  | .session type _ => type = .bgp ∨ type = .bgpViaBmp
  | _ => True

lemma fits_blank (h : r.Proper) : r.Fits .blank := by
  cases r with
  | reserved => rfl
  | session type peer =>
    refine ⟨.inl unset_blank, ?_⟩
    rcases h with rfl | rfl
    · exact .inl ⟨rfl, rfl⟩
    · exact .inr ⟨rfl, fun h => absurd rfl h⟩
  | child parent => exact ⟨rfl, rfl, .inl ⟨unset_blank, rfl⟩⟩
  | router | mrtPeer => exact ⟨.inl unset_blank, rfl⟩
  | unit => exact unset_blank

lemma Role.Fits.proper (h : r.Fits e) : r.Proper := by
  cases r with
  | session type peer =>
    rcases h.2 with ⟨ht, _⟩ | ⟨ht, _⟩
    · exact .inl ht
    · exact .inr ht
  | _ => trivial

section field
variable {α : Type} {old new : Option α} {x : α}

lemma updateField_ne_none (h : old ≠ none ∨ new ≠ none) : updateField old new ≠ none := by
  cases new with
  | some x => exact some_ne_none x
  | none => exact h.resolve_right fun h => h rfl

lemma updateField_of_none (hn : new = none) : updateField old new = old := by
  rw [hn]
  rfl

lemma updateField_of_some (hn : new = some x) : updateField old new = some x := by
  rw [hn]
  rfl

end field

lemma unset_merge (he : e.Unset) (hn : new.Unset) : (e.merge new).Unset where
  ingressType := (updateField_of_none hn.ingressType).trans he.ingressType
  remoteAddr := (updateField_of_none hn.remoteAddr).trans he.remoteAddr
  remoteAsn := (updateField_of_none hn.remoteAsn).trans he.remoteAsn

lemma names_merge {peer : PeerKey} (h : new.Names peer) : (e.merge new).Names peer where
  remoteAddr := updateField_of_some h.remoteAddr
  remoteAsn := updateField_of_some h.remoteAsn

lemma names_merge_unset {peer : PeerKey} (h : e.Names peer) (ha : new.remoteAddr = none)
    (hn : new.remoteAsn = none) : (e.merge new).Names peer where
  remoteAddr := (updateField_of_none ha).trans h.remoteAddr
  remoteAsn := (updateField_of_none hn).trans h.remoteAsn

/-- a field that neither sets is not set, and one that both set alike is set so -/
lemma updateField_of_agree {α : Type} {old new : Option α} {x : Option α} (ho : old = x)
    (hn : new = x) : updateField old new = x := by
  rw [ho, hn]
  cases x <;> rfl

lemma passed_merge {peer : PeerKey} (he : e.Passed peer) (hn : new.Passed peer) :
    (e.merge new).Passed peer := by
  rcases hn with hn | ⟨ha, hn⟩
  · exact .inl (names_merge hn)
  · rcases he with he | ⟨ha', hn'⟩
    · exact .inl (names_merge_unset he ha hn)
    · exact .inr ⟨updateField_of_agree ha' ha, updateField_of_agree hn' hn⟩

/-- unset or of one type: what is merged from two of these -/
lemma merge_type {t : IngressType} (he : e.Unset ∨ e.ingressType = some t)
    (hn : new.Unset ∨ new.ingressType = some t) :
    (e.merge new).Unset ∨ (e.merge new).ingressType = some t := by
  rcases hn with hn | hn
  · rcases he with he | he
    · exact .inl (unset_merge he hn)
    · exact .inr ((updateField_of_none hn.ingressType).trans he)
  · exact .inr (updateField_of_some hn)

/-- writing what fits over what fits -/
lemma fits_merge (he : r.Fits e) (hn : r.Fits new) : r.Fits (e.merge new) := by
  cases r with
  | reserved =>
    rw [show e = .blank from he, show new = .blank from hn]
    rfl
  | session type peer =>
    refine ⟨?_, ?_⟩
    · rcases hn.1 with hu | ⟨ht, hp⟩
      · rcases he.1 with hu' | ⟨ht', hp'⟩
        · exact .inl (unset_merge hu' hu)
        · refine .inr ⟨?_, names_merge_unset hp' hu.remoteAddr hu.remoteAsn⟩
          exact (updateField_of_none hu.ingressType).trans ht'
      · exact .inr ⟨updateField_of_some ht, names_merge hp⟩
    · rcases he.2 with ⟨rfl, hp⟩ | ⟨rfl, hrib⟩
      · rcases hn.2 with ⟨_, hp'⟩ | ⟨h, _⟩
        · exact .inl ⟨rfl, updateField_of_agree hp hp'⟩
        · cases h
      · rcases hn.2 with ⟨h, _⟩ | ⟨_, hrib'⟩
        · cases h
        · refine .inr ⟨rfl, ?_⟩
          intro hset
          refine updateField_ne_none ?_
          by_cases ht : new.ingressType = none
          · refine .inl (hrib ?_)
            intro ht'
            exact hset (updateField_of_agree ht' ht)
          · exact .inr (hrib' ht)
  | child parent =>
    obtain ⟨hr, hpr, h⟩ := he
    obtain ⟨hr', hpr', h'⟩ := hn
    refine ⟨updateField_of_agree hr hr', updateField_of_agree hpr hpr', ?_⟩
    rcases h' with ⟨hu', hp'⟩ | ⟨ht', hp'⟩
    · rcases h with ⟨hu, hp⟩ | ⟨ht, hp⟩
      · exact .inl ⟨unset_merge hu hu', updateField_of_agree hp hp'⟩
      · exact .inr ⟨(updateField_of_none hu'.ingressType).trans ht,
          (updateField_of_none hp').trans hp⟩
    · exact .inr ⟨updateField_of_some ht', updateField_of_some hp'⟩
  | router | mrtPeer => exact ⟨merge_type he.1 hn.1, updateField_of_agree he.2 hn.2⟩
  | unit => exact unset_merge he hn

/-- what an entry with a type tells of its id -/
def Identity.role (e : Identity) : Option Role :=
  match e.ingressType with
  | some .bgpPath => e.parentIngress.map .child
  | some .bmp => some .router
  | some .mrt => some .mrtPeer
  | some type => e.remoteAddr.bind fun addr => e.remoteAsn.map fun asn => .session type (addr, asn)
  | none => none

lemma Role.Fits.role (h : r.Fits e) (ht : e.ingressType ≠ none) : e.role = some r := by
  unfold Identity.role
  cases r with
  | reserved =>
    rw [show e = .blank from h] at ht
    exact absurd rfl ht
  | session type peer =>
    rcases h.1 with hu | ⟨htype, hp⟩
    · exact absurd hu.ingressType ht
    · rw [htype, hp.remoteAddr, hp.remoteAsn]
      rcases h.proper with rfl | rfl <;> rfl
  | child parent =>
    rcases h.2.2 with hu | ⟨htype, hp⟩
    · exact absurd hu.1.ingressType ht
    · rw [htype, hp]
      rfl
  | router | mrtPeer =>
    rcases h.1 with hu | htype
    · exact absurd hu.ingressType ht
    · rw [htype]
  | unit => exact absurd h.ingressType ht

lemma role_unique (h : r.Fits e) (h' : r'.Fits e) (ht : e.ingressType ≠ none) : r' = r :=
  some.inj ((h'.role ht).symm.trans (h.role ht))

end fits

/-! ## what a task knows -/

/-- the roles of the ids that the task knows -/
abbrev Known := IngressId → Option Role

def Known.nil : Known := fun _ => none

def Known.learn (g : Known) (id : IngressId) (r : Role) : Known := update g id (some r)

def Known.Grows (g g' : Known) : Prop := ∀ id r, g id = some r → g' id = some r

structure Known.Holds (g : Known) (reg : Register) : Prop where
  serial_pos : 1 ≤ reg.serial
  issued : ∀ id, ident reg id ≠ .blank → reg.Issued id
  parent_issued : ∀ c p, IsChildOf (ident reg c) p → reg.Issued p
  role : ∀ id, ∃ r : Role, r.Suits id reg
  known : ∀ id r, g id = some r → reg.Issued id ∧ r.Suits id reg

/-- what both know is the same, and nobody knows an id that somebody else reserved -/
def Known.Apart (g h : Known) : Prop :=
  ∀ id r r', g id = some r → h id = some r' → r = r' ∧ r ≠ .reserved

def roles : Discipline Register Known where
  Holds := Known.Holds
  Apart := Known.Apart
  Fits reg := reg.serial ≤ 2 ^ 32
  symm h := by
    intro id r r' hr hr'
    obtain ⟨he, hne⟩ := h id r' r hr' hr
    exact ⟨he.symm, he ▸ hne⟩

section known
variable {g g' : Known} {id : IngressId} {r : Role}

lemma Known.Grows.refl (g : Known) : g.Grows g := fun _ _ h => h

lemma Known.Grows.trans {g₁ g₂ g₃ : Known} (h : g₁.Grows g₂) (h' : g₂.Grows g₃) : g₁.Grows g₃ :=
  fun id r hr => h' id r (h id r hr)

lemma learn_self : g.learn id r id = some r := update_self ..

lemma learn_cases {k : IngressId} {r' : Role} (h : g.learn id r k = some r') :
    k = id ∧ r' = r ∨ g k = some r' := by
  unfold Known.learn at h
  by_cases hk : k = id
  · subst hk
    rw [update_self] at h
    exact .inl ⟨rfl, (some.inj h).symm⟩
  · rw [update_of_ne hk] at h
    exact .inr h

lemma grows_learn (h : ∀ r', g id = some r' → r' = r) : g.Grows (g.learn id r) := by
  intro k r' hr
  unfold Known.learn
  by_cases hk : k = id
  · subst hk
    rw [update_self, h r' hr]
  · rw [update_of_ne hk]
    exact hr

end known

/-! ## steps that keep the roles -/

/-- every entry says what it said, or nothing -/
structure Quiet (reg reg' : Register) : Prop where
  serial : reg'.serial = reg.serial
  same : ∀ k, ident reg' k = ident reg k ∨ ident reg' k = .blank

section moves
variable {g g' : Known} {reg reg' : Register}

lemma not_isChildOf_blank {p : IngressId} : ¬ IsChildOf .blank p := fun h => nomatch h.1

lemma issued_iff (h : reg'.serial = reg.serial) (id : IngressId) :
    reg'.Issued id ↔ reg.Issued id := by
  unfold Register.Issued
  rw [h]

lemma isChildOf_quiet (h : Quiet reg reg') {c p : IngressId} (hc : IsChildOf (ident reg' c) p) :
    IsChildOf (ident reg c) p ∧ ident reg' c = ident reg c := by
  rcases h.same c with he | he
  · exact ⟨he ▸ hc, he⟩
  · rw [he] at hc
    exact absurd hc not_isChildOf_blank

lemma Role.Suits.quiet {r : Role} (hr : r.Suits id reg) (h : Quiet reg reg') :
    r.Suits id reg' := by
  refine ⟨?_, ?_⟩
  · rcases h.same id with he | he
    · rw [he]
      exact hr.fits
    · rw [he]
      exact fits_blank hr.fits.proper
  · intro c hc
    obtain ⟨hc', he⟩ := isChildOf_quiet h hc
    rw [he]
    exact hr.children c hc'

lemma holds_quiet (hg : g.Holds reg) (h : Quiet reg reg') : g.Holds reg' := by
  refine ⟨h.serial ▸ hg.serial_pos, ?_, ?_, ?_, ?_⟩
  · intro id hne
    rw [issued_iff h.serial]
    rcases h.same id with he | he
    · exact hg.issued id (he ▸ hne)
    · exact absurd he hne
  · intro c p hc
    rw [issued_iff h.serial]
    exact hg.parent_issued c p (isChildOf_quiet h hc).1
  · intro id
    obtain ⟨r, hr⟩ := hg.role id
    exact ⟨r, hr.quiet h⟩
  · intro id r hr
    obtain ⟨hi, hs⟩ := hg.known id r hr
    exact ⟨(issued_iff h.serial id).mpr hi, hs.quiet h⟩

lemma moves_quiet (hg : g.Holds reg) (h : Quiet reg reg') : roles.Moves g reg g reg' :=
  ⟨holds_quiet hg h, fun _ hap hh => ⟨holds_quiet hh h, hap⟩⟩

/-- such a step tells the task what an entry with a type stands for -/
lemma moves_learn (hg : g.Holds reg) (h : Quiet reg reg') {r : Role}
    (hr : r.Fits (ident reg id)) (ht : (ident reg id).ingressType ≠ none) :
    roles.Moves g reg (g.learn id r) reg' ∧ g.Grows (g.learn id r) := by
  have huniq : ∀ k : Known, k.Holds reg → ∀ r', k id = some r' → r' = r := by
    intro k hk r' hr'
    exact role_unique hr (hk.known id r' hr').2.fits ht
  have hsuits : r.Suits id reg := by
    obtain ⟨r', hr'⟩ := hg.role id
    rw [← role_unique hr hr'.fits ht]
    exact hr'
  have hissued : reg.Issued id := by
    refine hg.issued id ?_
    intro hb
    rw [hb] at ht
    exact ht rfl
  have hres : r ≠ .reserved := by
    rintro rfl
    rw [show ident reg id = .blank from hr] at ht
    exact ht rfl
  have hq := holds_quiet hg h
  refine ⟨⟨⟨hq.serial_pos, hq.issued, hq.parent_issued, hq.role, ?_⟩, ?_⟩, ?_⟩
  · intro k r' hr'
    rcases learn_cases hr' with ⟨rfl, rfl⟩ | hr'
    · exact ⟨(issued_iff h.serial k).mpr hissued, hsuits.quiet h⟩
    · exact hq.known k r' hr'
  · intro k hap hk
    refine ⟨holds_quiet hk h, ?_⟩
    intro j r₁ r₂ h₁ h₂
    rcases learn_cases h₁ with ⟨rfl, rfl⟩ | h₁
    · exact ⟨(huniq k hk r₂ h₂).symm, hres⟩
    · exact hap j r₁ r₂ h₁ h₂
  · exact grows_learn fun r' hr' => huniq g hg r' hr'

lemma holds_fresh (hg : g.Holds reg) : g.Holds reg.fetchAdd.2 := by
  have hmono : ∀ id, reg.Issued id → reg.fetchAdd.2.Issued id :=
    fun id h => ⟨h.1, Nat.lt_succ_of_lt h.2⟩
  refine ⟨Nat.le_succ_of_le hg.serial_pos, ?_, ?_, ?_, ?_⟩
  · intro id hne
    exact hmono id (hg.issued id hne)
  · intro c p hc
    exact hmono p (hg.parent_issued c p hc)
  · intro id
    obtain ⟨r, hr⟩ := hg.role id
    exact ⟨r, ⟨hr.fits, hr.children⟩⟩
  · intro id r hr
    obtain ⟨hi, hs⟩ := hg.known id r hr
    exact ⟨hmono id hi, ⟨hs.fits, hs.children⟩⟩

lemma moves_fresh (hg : g.Holds reg) (hf : reg.fetchAdd.2.serial ≤ 2 ^ 32) {r : Role}
    (hr : r.Proper) : roles.Moves g reg (g.learn reg.fetchAdd.1 r) reg.fetchAdd.2 ∧
      g.Grows (g.learn reg.fetchAdd.1 r) := by
  have hlt : reg.serial < 2 ^ 32 := hf
  have hid : reg.fetchAdd.1 = reg.serial := Nat.mod_eq_of_lt hlt
  rw [hid]
  have hnot : ¬ reg.Issued reg.serial := fun h => Nat.lt_irrefl _ h.2
  have hblank : ident reg reg.serial = .blank := by
    by_contra hne
    exact hnot (hg.issued _ hne)
  have hnone : ∀ k : Known, k.Holds reg → ∀ r', k reg.serial ≠ some r' := by
    intro k hk r' hr'
    exact hnot (hk.known _ r' hr').1
  have hfresh := holds_fresh hg
  refine ⟨⟨⟨hfresh.serial_pos, hfresh.issued, hfresh.parent_issued, hfresh.role, ?_⟩, ?_⟩, ?_⟩
  · intro k r' hr'
    rcases learn_cases hr' with ⟨rfl, rfl⟩ | hr'
    · refine ⟨⟨hg.serial_pos, Nat.lt_succ_self _⟩, ?_, ?_⟩
      · show r'.Fits (ident reg reg.serial)
        rw [hblank]
        exact fits_blank hr
      · intro c hc
        exact absurd (hg.parent_issued c _ hc) hnot
    · exact hfresh.known k r' hr'
  · intro k hap hk
    refine ⟨holds_fresh hk, ?_⟩
    intro j r₁ r₂ h₁ h₂
    rcases learn_cases h₁ with ⟨rfl, rfl⟩ | h₁
    · exact absurd h₂ (hnone k hk r₂)
    · exact hap j r₁ r₂ h₁ h₂
  · exact grows_learn fun r' hr' => absurd hr' (hnone g hg r')

lemma moves_settle (hg : g.Holds reg) (hid : g id = some .reserved) {r : Role}
    (hr : r.Proper) : roles.Moves g reg (g.learn id r) reg := by
  obtain ⟨hissued, hblank, hchildren⟩ := hg.known id _ hid
  refine ⟨⟨hg.serial_pos, hg.issued, hg.parent_issued, hg.role, ?_⟩, ?_⟩
  · intro k r' hr'
    rcases learn_cases hr' with ⟨rfl, rfl⟩ | hr'
    · refine ⟨hissued, ?_, ?_⟩
      · rw [show ident reg k = .blank from hblank]
        exact fits_blank hr
      · intro c hc
        exact absurd (hchildren c hc) id
    · exact hg.known k r' hr'
  · intro k hap hk
    refine ⟨hk, ?_⟩
    intro j r₁ r₂ h₁ h₂
    rcases learn_cases h₁ with ⟨rfl, rfl⟩ | h₁
    · exact absurd rfl (hap j _ r₂ hid h₂).2
    · exact hap j r₁ r₂ h₁ h₂

/-- Writing the entry of an id by its role.  A path child has to be one that the role of its parent
allows. -/
lemma moves_write (hg : g.Holds reg) {info : IngressInfo} {r : Role}
    (hid : g id = some r) (hr : r.Fits (identityOf info))
    (hparent : ∀ p, IsChildOf ((ident reg id).merge (identityOf info)) p →
      ∃ rp, g p = some rp ∧ rp.Allows ((ident reg id).merge (identityOf info))) :
    roles.Moves g reg g (reg.updateInfo id info) := by
  have hserial := reg.serial_updateInfo id info
  have hself : ident (reg.updateInfo id info) id = (ident reg id).merge (identityOf info) := by
    rw [ident_updateInfo, if_pos rfl]
  have hother : ∀ k, k ≠ id → ident (reg.updateInfo id info) k = ident reg k := by
    intro k hk
    rw [ident_updateInfo, if_neg hk]
  -- a role stays suitable unless it is not the one that the writer knows
  have hsuits : ∀ k r', r'.Suits k reg → (∀ rk, g k = some rk → r' = rk) →
      r'.Suits k (reg.updateInfo id info) := by
    intro k r' hs hk
    refine ⟨?_, ?_⟩
    · by_cases he : k = id
      · subst he
        rw [hself, hk r hid]
        exact fits_merge (hg.known k r hid).2.fits hr
      · rw [hother k he]
        exact hs.fits
    · intro c hc
      by_cases he : c = id
      · subst he
        rw [hself] at hc ⊢
        obtain ⟨rp, hrp, hallow⟩ := hparent k hc
        rw [hk rp hrp]
        exact hallow
      · rw [hother c he] at hc ⊢
        exact hs.children c hc
  have hholds : ∀ k : Known, (∀ j rj rk, g j = some rk → k j = some rj → rj = rk) → k.Holds reg →
      k.Holds (reg.updateInfo id info) := by
    intro k hap hk
    refine ⟨hserial ▸ hk.serial_pos, ?_, ?_, ?_, ?_⟩
    · intro j hne
      rw [issued_iff hserial]
      by_cases he : j = id
      · exact he ▸ (hg.known id r hid).1
      · rw [hother j he] at hne
        exact hk.issued j hne
    · intro c p hc
      rw [issued_iff hserial]
      by_cases he : c = id
      · subst he
        rw [hself] at hc
        obtain ⟨rp, hrp, _⟩ := hparent p hc
        exact (hg.known p rp hrp).1
      · rw [hother c he] at hc
        exact hk.parent_issued c p hc
    · intro j
      cases hj : g j with
      | some rj =>
        refine ⟨rj, hsuits j rj (hg.known j rj hj).2 ?_⟩
        intro rk hrk
        rw [hj] at hrk
        exact some.inj hrk
      | none =>
        obtain ⟨rj, hrj⟩ := hk.role j
        refine ⟨rj, hsuits j rj hrj ?_⟩
        intro rk hrk
        rw [hj] at hrk
        cases hrk
    · intro j rj hrj
      obtain ⟨hi, hs⟩ := hk.known j rj hrj
      exact ⟨(issued_iff hserial j).mpr hi, hsuits j rj hs fun rk hrk => hap j rj rk hrk hrj⟩
  refine ⟨hholds g ?_ hg, ?_⟩
  · intro j rj rk hrk hrj
    exact some.inj (hrj.symm.trans hrk)
  · intro k hap hk
    exact ⟨hholds k (fun j rj rk hrk hrj => (hap j rk rj hrk hrj).1.symm) hk, hap⟩

end moves

end Netom.Ingest
