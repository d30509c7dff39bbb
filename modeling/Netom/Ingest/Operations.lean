import Netom.Ingest.Identity

/-!
# The operations of the register keep the roles of its ids

* `Quiet` steps  marks, removals, refreshes and claims leave what entries say;
* `role_of_…`  what a claim tells of the id that it finds;
* `keeps_…`  the operations, and what a task knows after them.
-/

namespace Netom.Ingest
open Atomic Bmp Option

/-! ## quiet operations -/

section quiet
variable {reg reg' : Register}

lemma quiet_refl (reg : Register) : Quiet reg reg := ⟨rfl, fun _ => .inl rfl⟩

lemma quiet_at {id : IngressId} {old new : IngressInfo} (hs : reg'.serial = reg.serial)
    (ho : reg.info.lookup id = some old)
    (hl : ∀ k, reg'.info.lookup k = if k = id then some new else reg.info.lookup k)
    (hi : identityOf new = identityOf old) :
    Quiet reg reg' := by
  refine ⟨hs, fun k => .inl ?_⟩
  unfold ident
  rw [hl]
  by_cases hk : k = id
  · rw [if_pos hk, hk, ho]
    exact hi
  · rw [if_neg hk]

lemma quiet_updateInfo {id : IngressId} {info : IngressInfo} (h : identityOf info = .blank) :
    Quiet reg (reg.updateInfo id info) := by
  refine ⟨reg.serial_updateInfo id info, fun k => .inl ?_⟩
  rw [ident_updateInfo, h]
  by_cases hk : k = id
  · rw [if_pos hk, hk]
    rfl
  · rw [if_neg hk]

lemma quiet_markDisconnected (id : IngressId) : Quiet reg (reg.markDisconnected id) := by
  refine ⟨rfl, fun k => .inl ?_⟩
  unfold ident
  rw [reg.lookup_markDisconnected]
  by_cases hk : k = id
  · rw [if_pos hk, map_map]
    rfl
  · rw [if_neg hk]

lemma quiet_remove (id : IngressId) : Quiet reg (reg.remove id) := by
  refine ⟨rfl, fun k => ?_⟩
  unfold ident
  rw [reg.lookup_remove]
  by_cases hk : k = id
  · rw [if_pos hk]
    exact .inr rfl
  · rw [if_neg hk]
    exact .inl rfl

lemma quiet_refreshPathChild (id parent : IngressId) (pathId : Nat) :
    Quiet reg (reg.refreshPathChild id parent pathId).2 := by
  rcases reg.refreshPathChild_cases id parent pathId with ⟨hr, _⟩ | ⟨info, _, hr, he, _, hs, hl⟩
  · rw [hr]
    exact quiet_refl reg
  · rw [hr]
    exact quiet_at hs he hl rfl

lemma quiet_claim (c : Claim) (pick : IngressId) : Quiet reg (reg.claim c pick).2 := by
  rcases reg.claim_cases c pick with hc | ⟨id, info, reg', hc, hl, _, hs, hk⟩
  · rw [hc]
    exact quiet_refl reg
  · rw [hc]
    refine quiet_at hs hl hk ?_
    cases c <;> rfl

end quiet

lemma holds_upkeep_roles {g : Known} {reg : Register} (e : Upkeep) (hg : g.Holds reg) :
    g.Holds (e.effect reg) := by
  cases e with
  | issue => exact holds_fresh hg
  | retire id activity =>
    refine holds_quiet hg ?_
    show Quiet reg (reg.retirePathChild id activity).2
    rcases reg.retirePathChild_cases id activity with hr | ⟨info, _, hr, he, _, hs, hl⟩
    · rw [hr]
      exact quiet_refl reg
    · rw [hr]
      exact quiet_at hs he hl rfl
  | collect id =>
    refine holds_quiet hg ?_
    show Quiet reg (reg.removeIfDisconnected id).2
    rcases reg.removeIfDisconnected_cases id with hr | ⟨_, hr, _⟩
    · rw [hr]
      exact quiet_refl reg
    · rw [hr]
      exact quiet_remove id
  | reactivate id =>
    show g.Holds (if _ then _ else _)
    split
    · exact holds_quiet hg (quiet_updateInfo rfl)
    · exact hg

/-! ## operations -/

/-- what stays true as more becomes known -/
def Lasting (inv : Known → Prop) (g : Known) : Prop := ∀ g', g.Grows g' → inv g'

lemma Lasting.self {inv : Known → Prop} {g : Known} (h : Lasting inv g) : inv g := h g (.refl g)

lemma Lasting.grows {inv : Known → Prop} {g g' : Known} (h : Lasting inv g) (hg : g.Grows g') :
    Lasting inv g' :=
  fun _ hg' => h _ (hg.trans hg')

section ops
variable {g : Known} {inv : Known → Prop} {α : Type}

lemma keeps_quiet {f : Pick → Register → α × Register} {post : α → Known → Prop}
    (hi : Lasting inv g) (hq : ∀ pick reg, Quiet reg (f pick reg).2)
    (hp : ∀ pick reg, g.Holds reg → post (f pick reg).1 g) :
    (Prog.call f).Keeps roles inv post g := by
  refine Prog.Keeps.call hi.self ?_
  intro pick reg _ hg
  exact ⟨g, moves_quiet hg (hq pick reg), hp pick reg hg⟩

lemma keeps_issue {post : IngressId → Known → Prop} (r : Role) (hr : r.Proper)
    (hi : Lasting inv g)
    (hp : ∀ id g', g.Grows g' → g' id = some r → post id g') :
    register.Keeps roles inv post g := by
  refine Prog.Keeps.call hi.self ?_
  intro pick reg hf hg
  obtain ⟨hm, hgrows⟩ := moves_fresh hg hf hr
  exact ⟨_, hm, hp _ _ hgrows learn_self⟩

lemma keeps_markAll {ids : List IngressId} {post : List IngressId → Known → Prop}
    (hi : Lasting inv g) (hp : ∀ ids, post ids g) : (markAll ids).Keeps roles inv post g := by
  induction ids generalizing post with
  | nil => exact hp []
  | cons id ids ih =>
    refine .bind (keeps_quiet hi (fun _ _ => quiet_markDisconnected id) ?_)
    intro _ _ _
    refine .bind (ih ?_)
    intro rest
    exact hp _

/-- a claim that finds an entry with a type tells what its id stands for -/
lemma keeps_claims {c : Claim} {post : Option IngressId → Known → Prop} (r : Role)
    (hi : Lasting inv g)
    (hc : ∀ info r', c.accepts info = true → r'.Fits (identityOf info) →
      info.ingressType ≠ none ∧ r' = r)
    (hnone : post none g) (hsome : ∀ id g', g.Grows g' → g' id = some r → post (some id) g') :
    (claim c).Keeps roles inv post g := by
  refine Prog.Keeps.call hi.self ?_
  intro pick reg hf hg
  have hq : Quiet reg (reg.claim c pick.id).2 := quiet_claim c pick.id
  rcases reg.claim_cases c pick.id with hn | ⟨id, info, reg', hs, hl, ha, _, _⟩
  · rw [hn]
    exact ⟨g, moves_quiet hg (quiet_refl reg), hnone⟩
  · rw [hs] at hq ⊢
    obtain ⟨r', hr'⟩ := hg.role id
    have hfits := hr'.fits
    rw [ident_of_lookup hl] at hfits
    obtain ⟨ht, rfl⟩ := hc info r' ha hfits
    obtain ⟨hm, hgrows⟩ := moves_learn hg hq hr'.fits (by rw [ident_of_lookup hl]; exact ht)
    exact ⟨_, hm, hsome id _ hgrows learn_self⟩

lemma keeps_write {id : IngressId} {info : IngressInfo} {r : Role} {post : Unit → Known → Prop}
    (hi : Lasting inv g) (hid : g id = some r) (hr : r.Fits (identityOf info))
    (hc : ∀ p, r ≠ .child p) (hp : post () g) : (updateInfo id info).Keeps roles inv post g := by
  refine Prog.Keeps.call hi.self ?_
  intro pick reg hf hg
  refine ⟨g, moves_write hg hid hr ?_, hp⟩
  intro p hchild
  have hfits := fits_merge (hg.known id r hid).2.fits hr
  have hrole := hfits.role (by rw [hchild.1]; exact some_ne_none _)
  unfold Identity.role at hrole
  rw [hchild.1, hchild.2] at hrole
  exact absurd (some.inj hrole).symm (hc p)

lemma keeps_write_child {id p : IngressId} {info : IngressInfo} {rp : Role}
    {post : Unit → Known → Prop} (hi : Lasting inv g) (hid : g id = some (.child p))
    (hparent : g p = some rp) (hr : (Role.child p).Fits (identityOf info))
    (hallow : (∃ type peer, rp = .session type peer ∧ (identityOf info).Passed peer) ∨ rp = .mrtPeer)
    (hp : post () g) : (updateInfo id info).Keeps roles inv post g := by
  refine Prog.Keeps.call hi.self ?_
  intro pick reg hf hg
  refine ⟨g, moves_write hg hid hr ?_, hp⟩
  intro q hchild
  have hfits := (hg.known id _ hid).2.fits
  have hmerged := fits_merge hfits hr
  have hq : q = p := by
    rcases hmerged.2.2 with ⟨hu, _⟩ | ⟨_, hq⟩
    · exact absurd (hu.ingressType.symm.trans hchild.1) (some_ne_none _).symm
    · exact some.inj (hchild.2.symm.trans hq)
  subst hq
  refine ⟨rp, hparent, ?_⟩
  rcases hallow with ⟨type, peer, rfl, hpassed⟩ | rfl
  · refine passed_merge ?_ hpassed
    rcases hfits.2.2 with ⟨hu, _⟩ | hold
    · exact .inr ⟨hu.remoteAddr, hu.remoteAsn⟩
    · exact (hg.known q _ hparent).2.children id hold
  · trivial

end ops

/-! ## claims -/

section claims
variable {info query : IngressInfo} {r : Role}

lemma role_of_pathChild {parent : IngressId} {pathId : Nat}
    (ha : (Claim.pathChild parent pathId).accepts info = true) (hr : r.Fits (identityOf info)) :
    info.ingressType ≠ none ∧ r = .child parent := by
  unfold Claim.accepts Register.isPathChild at ha
  simp only [Bool.and_eq_true, decide_eq_true_eq] at ha
  have ht : info.ingressType ≠ none := by
    rw [ha.2.1.1]
    exact some_ne_none _
  have hrole := hr.role ht
  unfold Identity.role identityOf at hrole
  simp only [ha.2.1.1, ha.2.1.2] at hrole
  exact ⟨ht, (some.inj hrole).symm⟩

/-- nothing but a monitored peer has a parent, an AS number and a RIB -/
lemma role_of_peer {peer : PeerKey} (hrib : query.ribType ≠ none)
    (hq : (Role.session .bgpViaBmp peer).Fits (identityOf query))
    (ha : (Claim.peer query).accepts info = true) (hr : r.Fits (identityOf info)) :
    info.ingressType ≠ none ∧ r = .session .bgpViaBmp peer := by
  unfold Claim.accepts matchesPeer Register.mandatory at ha
  simp only [Bool.and_eq_true, decide_eq_true_eq, isSome_iff_ne_none, and_assoc] at ha
  obtain ⟨_, hparent, _, haddr, haddr', hasn, hasn', hrib', -⟩ := ha
  have hnames : (identityOf info).Names peer := by
    rcases hq.1 with hu | ⟨_, hn⟩
    · exact absurd (hasn'.trans hu.remoteAsn) hasn
    · exact ⟨haddr'.trans hn.remoteAddr, hasn'.trans hn.remoteAsn⟩
  have hset : ¬ (identityOf info).Unset := fun hu => hasn hu.remoteAsn
  have hribbed : info.ribType ≠ none := by
    rw [hrib']
    exact hrib
  cases r with
  | reserved => exact absurd (congrArg Identity.remoteAsn hr) hasn
  | session type peer' =>
    rcases hr.1 with hu | ⟨ht, hn⟩
    · exact absurd hu hset
    · rcases hr.2 with ⟨_, hp⟩ | ⟨rfl, _⟩
      · exact absurd hp hparent
      · have hpeer : peer' = peer :=
          Prod.ext (some.inj (hn.remoteAddr.symm.trans hnames.remoteAddr))
            (some.inj (hn.remoteAsn.symm.trans hnames.remoteAsn))
        refine ⟨?_, by rw [hpeer]⟩
        intro hnone
        exact absurd (ht.symm.trans hnone) (some_ne_none _)
  | child p => exact absurd hr.1 hribbed
  | router => exact absurd hr.2 hasn
  | mrtPeer => exact absurd hr.2 hribbed
  | unit => exact absurd hr hset

lemma role_of_bgpSession {peer : PeerKey}
    (ha : (Claim.bgpSession (Sessions.bgpQuery peer)).accepts info = true)
    (hr : r.Fits (identityOf info)) :
    info.ingressType ≠ none ∧ r = .session .bgp peer := by
  unfold Claim.accepts matchesBgpSession Register.mandatory at ha
  simp only [Bool.and_eq_true, decide_eq_true_eq] at ha
  obtain ⟨⟨⟨_, haddr⟩, _, hasn⟩, _, htype⟩ := ha
  have ht : info.ingressType ≠ none := by
    rw [htype]
    exact some_ne_none _
  have hrole := hr.role ht
  unfold Identity.role identityOf at hrole
  simp only [haddr, hasn, htype] at hrole
  exact ⟨ht, (some.inj hrole).symm⟩

lemma role_of_bmpRouter (hq : Role.router.Fits (identityOf query))
    (ha : (Claim.bmpRouter query).accepts info = true) (hr : r.Fits (identityOf info)) :
    info.ingressType ≠ none ∧ r = .router := by
  unfold Claim.accepts matchesBmpRouter Register.mandatory at ha
  simp only [Bool.and_eq_true, decide_eq_true_eq, isSome_iff_ne_none] at ha
  obtain ⟨_, ⟨_, ht, htype⟩, _⟩ := ha
  have hbmp : info.ingressType = some .bmp := by
    rcases hq.1 with hu | hb
    · exact absurd (htype.trans hu.ingressType) ht
    · exact htype.trans hb
  have hrole := hr.role ht
  unfold Identity.role identityOf at hrole
  simp only [hbmp] at hrole
  exact ⟨ht, (some.inj hrole).symm⟩

end claims

end Netom.Ingest
