import Netom.Ingest.Programs
import Netom.Rib.Filter

/-!
# Path children and the filters of a query

Every task keeps to the roles of the ids, so in every state that is reached a path child has the peer
of its session or no peer at all, and no RIB type.  A query that asks for the type, the AS number or
the address of a peer therefore treats a child like its session.  One that asks for the RIB type
does not: it is the type alone for which a child is attributed to its session.

* `child_inherits`  what a path child has of its session;
* `filters_alike_iff`  **a record under a path child is kept like one under its session iff the
  filter asks for nothing that the child lacks**, or drops the session's anyway;
* `ribType_drops_child` a session with a path id, asked for its RIB type.
-/

namespace Netom.Ingest
open Atomic Bmp

section runs
variable {T : Type}

lemma inv_new : Sys.Inv roles SourceKnown (Intake.new : Intake T) fun _ => Known.nil where
  holds _ := by
    have hblank : ∀ id, ident Register.new id = .blank := fun _ => rfl
    refine ⟨Nat.le_refl 1, ?_, ?_, ?_, ?_⟩
    · intro id h
      exact absurd (hblank id) h
    · intro c p h
      exact absurd h not_isChildOf_blank
    · intro id
      refine ⟨.reserved, hblank id, ?_⟩
      intro c h
      exact absurd h not_isChildOf_blank
    · intro id r h
      cases h
  apart _ _ _ := by
    intro id r r' h
    cases h
  task _ := trivial

/-- an entry of a session -/
def IsSession (info : IngressInfo) : Prop :=
  info.ingressType = some .bgp ∨ info.ingressType = some .bgpViaBmp

variable [DecidableEq T]

/-- fewer than 2^32 ids are issued -/
def Fitting (es : List (IntakeEvent T)) : Prop :=
  Run.Along Intake.step (fun s e => (Intake.step s e).shared.serial ≤ 2 ^ 32) Intake.new es

def registerAfter (es : List (IntakeEvent T)) : Register :=
  (Run.run Intake.step (Intake.new : Intake T) es).shared

variable [Inhabited T] {es : List (IntakeEvent T)}

lemma holds_after (hf : Fitting es) : ∃ g : Known, g.Holds (registerAfter es) := by
  obtain ⟨share, hinv⟩ := Sys.run_inv (fun l m g h => keeps_start h)
    (fun e g reg => holds_upkeep_roles e) (inv_new : Sys.Inv roles SourceKnown (Intake.new : Intake T) _)
    hf
  exact ⟨share default, hinv.holds default⟩

/-- what a path child has of its session, in every state that is reached -/
lemma child_inherits (hf : Fitting es) {id p : IngressId} {child session : IngressInfo}
    (hc : (registerAfter es).get id = some child) (ht : child.ingressType = some .bgpPath)
    (hp : child.parentIngress = some p) (hs : (registerAfter es).get p = some session)
    (hst : IsSession session) : Inherits child session := by
  obtain ⟨g, hg⟩ := holds_after hf
  have hset : (identityOf session).ingressType ≠ none := by
    show session.ingressType ≠ none
    rcases hst with h | h <;> rw [h] <;> exact Option.some_ne_none _
  -- the child fits a role, and so does the session
  obtain ⟨rc, hrc⟩ := hg.role id
  have hcfits := hrc.fits
  rw [ident_of_lookup hc] at hcfits
  obtain ⟨rp, hrp⟩ := hg.role p
  have hpfits := hrp.fits
  rw [ident_of_lookup hs] at hpfits
  have hchild : IsChildOf (ident (registerAfter es) id) p := by
    rw [ident_of_lookup hc]
    exact ⟨ht, hp⟩
  have hallow := hrp.children id hchild
  rw [ident_of_lookup hc] at hallow
  have hcrole : rc = .child p := by
    have h := hcfits.role (by rw [show (identityOf child).ingressType = _ from ht]; simp)
    unfold Identity.role identityOf at h
    simp only [ht, hp] at h
    exact (Option.some.inj h).symm
  subst hcrole
  refine ⟨?_, hcfits.2.1⟩
  cases rp with
  | session type peer =>
    rcases hpfits.1 with hu | ⟨_, hn⟩
    · exact absurd hu.ingressType hset
    · rcases hallow with h | h
      · exact .inl ⟨h.remoteAddr.trans hn.remoteAddr.symm, h.remoteAsn.trans hn.remoteAsn.symm⟩
      · exact .inr h
  | mrtPeer =>
    rcases hpfits.1 with hu | h
    · exact absurd hu.ingressType hset
    · rcases hst with h' | h' <;> cases h'.symm.trans h
  | reserved | child q | router | unit => exact absurd hallow not_false

/-- **A filter answers for a path child as for its session iff it asks for nothing that the child
lacks**, unless it drops the session's record anyway: whatever reached the tasks and however they took
turns, a record under a path child against the same record under the session. -/
theorem filters_alike_iff (hf : Fitting es) {id p : IngressId} {child session : IngressInfo}
    (hc : (registerAfter es).get id = some child) (ht : child.ingressType = some .bgpPath)
    (hp : child.parentIngress = some p) (hs : (registerAfter es).get p = some session)
    (hst : IsSession session) (reads : AttributeReads) (f : QueryFilter)
    (rotoFilter : Option (RotondaPaMap → Bool)) (hfi : f.ingressId = none)
    (hft : f.ingressType ≠ some .bgpPath) {ids ids' : List IngressId}
    {all all' : IngressId → Option IngressInfo} (hall : (registerAfter es).Answers ids all)
    (hall' : (registerAfter es).Answers ids' all') (hid : id ∈ ids) (hid' : p ∈ ids')
    {records records' : List Record} {status : RouteStatus} {m : RotondaPaMap}
    (hr : ⟨id, status, m⟩ ∈ records) (hr' : ⟨p, status, m⟩ ∈ records') :
    ((⟨id, status, m⟩ ∈ applyFilter reads all f rotoFilter records) ↔
        ⟨p, status, m⟩ ∈ applyFilter reads all' f rotoFilter records') ↔
      (Kept reads all' f rotoFilter session m → f.Inherited child) := by
  have hkept : ⟨id, status, m⟩ ∈ applyFilter reads all f rotoFilter records ↔
      Kept reads all f rotoFilter child m :=
    mem_applyFilter hfi hr ((hall.get hid).trans hc)
  have hkept' : ⟨p, status, m⟩ ∈ applyFilter reads all' f rotoFilter records' ↔
      Kept reads all' f rotoFilter session m :=
    mem_applyFilter hfi hr' ((hall'.get hid').trans hs)
  have hpath : session.ingressType ≠ some .bgpPath := by
    rcases hst with h | h <;> rw [h] <;> decide
  rw [hkept, hkept']
  exact kept_child_iff hft ht hp ((hall.parent hid hc hp).trans hs) hpath
    (child_inherits hf hc ht hp hs hst)

end runs

/-! ## a native session with a path id -/

def anyPick : Pick := ⟨0, neighborHeader 1⟩

/-- 192.0.2.1 in AS 64500 -/
def neighbor : PeerKey := (.v4 0xc0000201, 64500)

def onePath : UpdateMessage :=
  ⟨true, .normal, some [], some [some (.route false (defaultRoute .v4) (some 7))], some []⟩

/-- a session is accepted and negotiated, and announces a route with a path id -/
def pathAnnounced : List (IntakeEvent Unit) :=
  [.recv () (.bgp .accepted), .go () anyPick,
    .recv () (.bgp (.negotiated ⟨neighbor, 64501, 1, [0, 1, 1, 3]⟩ none)), .go () anyPick,
    .go () anyPick, .recv () (.bgp (.update onePath)), .go () anyPick, .go () anyPick,
    .go () anyPick, .go () anyPick]

/-- the session has the ingress 1, the path the ingress 2 -/
def announcedPath : IngressInfo :=
  { pathChildInfo 1 7 with
    remoteAddr := some neighbor.1, remoteAsn := some neighbor.2, bgpId := some 1 }

def announcedSession : IngressInfo := (⟨neighbor, 64501, 1, [0, 1, 1, 3]⟩ : Negotiated).info

lemma get_pathAnnounced : (registerAfter pathAnnounced).get 2 = some announcedPath ∧
    (registerAfter pathAnnounced).get 1 = some announcedSession := ⟨rfl, rfl⟩

def noReads : AttributeReads := ⟨fun _ => none, fun _ => none, fun _ => none, fun _ => none⟩

/-- a query for the AS of the peer finds the path -/
theorem filters_alike_peerAsn :
    (⟨2, .active, .emptyPathAttributes⟩ ∈ applyFilter noReads (registerAfter pathAnnounced).get
        { QueryFilter.empty with peerAsn := some 64500 } none
        [⟨2, .active, .emptyPathAttributes⟩]) ↔
      ⟨1, .active, .emptyPathAttributes⟩ ∈ applyFilter noReads (registerAfter pathAnnounced).get
        { QueryFilter.empty with peerAsn := some 64500 } none
        [⟨1, .active, .emptyPathAttributes⟩] := by
  have hf : Fitting pathAnnounced :=
    ⟨by decide, by decide, by decide, by decide, by decide, by decide, by decide, by decide,
      by decide, by decide, trivial⟩
  refine (filters_alike_iff hf get_pathAnnounced.1 rfl rfl get_pathAnnounced.2 (.inl rfl) noReads
    { QueryFilter.empty with peerAsn := some 64500 } none rfl (by decide) (.inl rfl) (.inl rfl)
    (List.mem_singleton_self 2) (List.mem_singleton_self 1) (List.mem_singleton_self _)
    (List.mem_singleton_self _)).mpr ?_
  intro _
  exact ⟨rfl, .inr (.inl (Option.some_ne_none _))⟩

/-- A query for the RIB type of the session keeps what is stored under the session, and drops what is
stored under the path. -/
theorem ribType_drops_child :
    (registerAfter pathAnnounced).get 2 = some announcedPath ∧
    announcedPath.ingressType = some .bgpPath ∧ announcedPath.parentIngress = some 1 ∧
    (registerAfter pathAnnounced).get 1 = some announcedSession ∧ IsSession announcedSession ∧
    ⟨2, .active, .emptyPathAttributes⟩ ∉ applyFilter noReads
      ((registerAfter pathAnnounced).clonedInfoFor [2])
      { QueryFilter.empty with ribType := some .inPost } none
      [⟨2, .active, .emptyPathAttributes⟩] ∧
    ⟨1, .active, .emptyPathAttributes⟩ ∈ applyFilter noReads
      ((registerAfter pathAnnounced).clonedInfoFor [1])
      { QueryFilter.empty with ribType := some .inPost } none
      [⟨1, .active, .emptyPathAttributes⟩] := by
  refine ⟨rfl, rfl, rfl, rfl, .inl rfl, ?_, ?_⟩
  · decide
  · decide

end Netom.Ingest
