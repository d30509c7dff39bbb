import Netom.Lib.AttrWire
import Netom.Rib.Query
import Netom.FlowSpec.Store

/-!
# Validation of a FlowSpec rule

A rule is valid if the best match of its destination prefix in the unicast store has a route of the
rule's originator, and no more specific route comes from another neighbouring AS.  A rule without a
usable destination prefix cannot be validated.

* `flowspecIdentity`  originator and neighbouring AS of a route;
* `validateFlowspec`  the verdict on a rule;
* `validateFlowspec_eq`  it is a function of the destination prefix and the originator.
-/

namespace Netom
open PrefixMatch

/-! ## NLRIs -/

/-- a parsed NLRI: its bytes, and its destination prefix if that is usable as a key -/
structure FlowSpecNlri where
  raw : RawNlri
  dstPrefix : Option Prefix
  deriving DecidableEq, Repr

/-- an NLRI with the length in front of it that it has on the wire -/
def frameNlri (raw : RawNlri) : Option (List (BitVec 8)) :=
  if 240 ≤ raw.length then
    if raw.length ≤ 4095 then some (AttrWire.be16 (0xf000 ||| raw.length) ++ raw) else none
  else some (BitVec.ofNat 8 raw.length :: raw)

/-- What the FlowSpec code takes from elsewhere: the search of the unicast store, the bytes behind
stored attributes, and `routecore`'s parser.  The parser gives an NLRI of at most 4095 bytes, whose
destination prefix is of the family asked for, and gives it again for the bytes of the NLRI under a
length of their own. -/
structure FlowSpecEnv where
  matcher : RibMatcher
  raw : RotondaPaMap → List (BitVec 8)
  parse : AddrFamily → List (BitVec 8) → Option FlowSpecNlri
  length_le : ∀ {f b n}, parse f b = some n → n.raw.length ≤ 4095
  dst_family : ∀ {f b n p}, parse f b = some n → n.dstPrefix = some p → p.family = f
  reparse : ∀ {f b n b'}, parse f b = some n → frameNlri n.raw = some b' → parse f b' = some n

/-- an NLRI as the parser gives it -/
def FlowSpecEnv.Parsed (env : FlowSpecEnv) (family : AddrFamily) (n : FlowSpecNlri) : Prop :=
  ∃ b, env.parse family b = some n

def parseRawNlri (env : FlowSpecEnv) (raw : RawNlri) (family : AddrFamily) :
    Option FlowSpecNlri :=
  (frameNlri raw).bind (env.parse family)

lemma frameNlri_isSome {raw : RawNlri} (h : raw.length ≤ 4095) : (frameNlri raw).isSome := by
  unfold frameNlri
  by_cases hl : 240 ≤ raw.length
  · rw [if_pos hl, if_pos h]
    rfl
  · rw [if_neg hl]
    rfl

lemma parseRawNlri_of_parsed {env : FlowSpecEnv} {family : AddrFamily} {n : FlowSpecNlri}
    (h : env.Parsed family n) : parseRawNlri env n.raw family = some n := by
  obtain ⟨b, hb⟩ := h
  obtain ⟨b', hb'⟩ := Option.isSome_iff_exists.mp (frameNlri_isSome (env.length_le hb))
  unfold parseRawNlri
  rw [hb']
  exact env.reparse hb hb'

/-- the destination prefix that a rule is validated for -/
def usableDst (env : FlowSpecEnv) (family : AddrFamily) (raw : RawNlri) : Option Prefix :=
  (parseRawNlri env raw family).bind (·.dstPrefix)

/-! ## identities -/

inductive FlowSpecOriginator where
  | bgpId (id : BgpId)
  | ingress (id : IngressId)
  deriving DecidableEq, Repr

/-- the session of a path child, any other id unchanged -/
def Register.sessionFor (reg : Register) (id : IngressId) : IngressId :=
  (((reg.get id).filter fun info => info.ingressType = some .bgpPath).bind
    (·.parentIngress)).getD id

def Register.bgpIdAndRemoteAsn (reg : Register) (id : IngressId) : Option BgpId × Option Asn :=
  ((reg.get id).map fun info => (info.bgpId, info.remoteAsn)).getD (none, none)

def bgpIdOf : List (BitVec 8) → Option BgpId
  | [a, b, c, d] => some (a ++ b ++ c ++ d)
  | _ => none

/-- the first AS of a path that starts with an AS_SEQUENCE -/
def firstSequenceAsn (asnLen : Nat) : List (BitVec 8) → Option Asn
  | segment :: count :: rest =>
    if segment = 2#8 ∧ count ≠ 0#8 ∧ asnLen ≤ rest.length then
      some ((rest.take asnLen).foldl (fun n b => n * 256 + b.toNat) 0)
    else none
  | _ => none

/-- what one attribute adds: the last ORIGINATOR_ID and the first AS_PATH count -/
def noteAttr (asnLen : Nat) (found : Option BgpId × Option Asn) (a : AttrWire.Attr) :
    Option BgpId × Option Asn :=
  if a.typeCode = 9#8 ∧ a.value.length = 4 then (bgpIdOf a.value, found.2)
  else if a.typeCode = 2#8 ∧ found.2.isNone then (found.1, firstSequenceAsn asnLen a.value)
  else found

/-- ORIGINATOR_ID and the neighbouring AS of the AS_PATH -/
def flowspecValidationAttrs (raw : List (BitVec 8)) : Option BgpId × Option Asn :=
  match raw with
  | _ :: parseInfo :: blob =>
    let asnLen := if parseInfo = 1#8 then 4 else 2
    (AttrWire.attrs blob).foldl (noteAttr asnLen) (none, none)
  | _ => (none, none)

def flowspecIdentity (env : FlowSpecEnv) (reg : Register) (pamap : RotondaPaMap)
    (ingressId : IngressId) : FlowSpecOriginator × Option Asn :=
  let sessionId := reg.sessionFor ingressId
  let (attrId, pathNeighbor) := flowspecValidationAttrs (env.raw pamap)
  let (peerId, remoteAsn) := reg.bgpIdAndRemoteAsn sessionId
  (((attrId.or peerId).map .bgpId).getD (.ingress sessionId), pathNeighbor.or remoteAsn)

/-! ## the verdict -/

/-- the neighbouring AS of the first route of the originator -/
def bestMatch (env : FlowSpecEnv) (reg : Register) (flowOriginator : FlowSpecOriginator)
    (records : List (IngressId × Record)) : Option (Option Asn) :=
  records.findSome? fun e =>
    if e.2.status = .withdrawn then none
    else
      let (originator, neighbor) := flowspecIdentity env reg e.2.pamap e.2.multiUniqId
      if originator = flowOriginator then some neighbor else none

/-- some route has another neighbouring AS -/
def otherNeighbor (env : FlowSpecEnv) (reg : Register) (bestNeighbor : Asn)
    (set : List (Prefix × List (IngressId × Record))) : Bool :=
  set.any fun pr => pr.2.any fun e =>
    e.2.status != .withdrawn &&
      (flowspecIdentity env reg e.2.pamap e.2.multiUniqId).2.any (· != bestNeighbor)

/-- the verdict for a destination prefix; a match with records has a prefix -/
def validateDst (env : FlowSpecEnv) (rib : Rib) (dst : Prefix)
    (flowOriginator : FlowSpecOriginator) : FlowSpecValidity :=
  let res := rib.unicast.matchPrefix env.matcher dst false
    { matchType := .longestMatch, includeLessSpecifics := false, includeMoreSpecifics := true,
      mui := none }
  match bestMatch env rib.ingressRegister flowOriginator res.records with
  | none => .invalid
  | some best =>
    match best, res.moreSpecifics with
    | some bestNeighbor, some moreSpecifics =>
      if otherNeighbor env rib.ingressRegister bestNeighbor moreSpecifics then .invalid else .valid
    | _, _ => .valid

def validateFlowspec (env : FlowSpecEnv) (rib : Rib) (nlriRaw : RawNlri)
    (flowOriginator : FlowSpecOriginator) (family : AddrFamily) : FlowSpecValidity :=
  match parseRawNlri env nlriRaw family with
  | none => .unvalidatable
  | some nlri =>
    match nlri.dstPrefix with
    | none => .unvalidatable
    | some dst => validateDst env rib dst flowOriginator

lemma validateFlowspec_eq (env : FlowSpecEnv) (rib : Rib) (raw : RawNlri)
    (o : FlowSpecOriginator) (family : AddrFamily) :
    validateFlowspec env rib raw o family =
      (usableDst env family raw).elim .unvalidatable fun dst => validateDst env rib dst o := by
  unfold validateFlowspec usableDst
  cases hp : parseRawNlri env raw family with
  | none => rfl
  | some nlri =>
    show (match nlri.dstPrefix with
      | none => _
      | some dst => _) = nlri.dstPrefix.elim _ _
    cases nlri.dstPrefix with
    | none | some dst => rfl

lemma validateDst_ne (env : FlowSpecEnv) (rib : Rib) (dst : Prefix) (o : FlowSpecOriginator) :
    validateDst env rib dst o ≠ .unvalidatable := by
  intro h
  simp only [validateDst] at h
  split at h
  · cases h
  · split at h
    · split at h
      · cases h
      · cases h
    · cases h

end Netom
