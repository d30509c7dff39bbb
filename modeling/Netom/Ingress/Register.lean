import Netom.Lib.Assoc
import Netom.Types

/-!
# The ingress register

A serial number for fresh ids and a map from ids to what is known about them.  Every operation is
one critical section of the register's lock.

* `updateInfo`  merge: a field that is set replaces the old one;
* `refreshPathChild`, `findExistingPathChildAndClaim`  the ADD-PATH children of a session;
* `findExistingBgpSessionAndClaim`, `markDisconnected` reuse of the id of an earlier session.
-/

namespace Netom

structure Register where
  serial : Nat
  info : Assoc IngressId IngressInfo

def Register.new : Register := ⟨1, ∅⟩

/-- `new` is unset or replaces `old` -/
def updateField {α : Type} (old new : Option α) : Option α := if new.isSome then new else old

def saturatingSucc (n : Nat) : Nat := min (n + 1) (2 ^ 64 - 1)

/-- what `update_info` leaves of an old entry -/
def IngressInfo.merge (old new : IngressInfo) : IngressInfo where
  ingressType := updateField old.ingressType new.ingressType
  parentIngress := updateField old.parentIngress new.parentIngress
  state := updateField old.state new.state
  remoteAddr := updateField old.remoteAddr new.remoteAddr
  remoteAsn := updateField old.remoteAsn new.remoteAsn
  bgpId := updateField old.bgpId new.bgpId
  ribType := updateField old.ribType new.ribType
  peerRibType := updateField old.peerRibType new.peerRibType
  localAsn := updateField old.localAsn new.localAsn
  peerType := updateField old.peerType new.peerType
  distinguisher := updateField old.distinguisher new.distinguisher
  vrfName := updateField old.vrfName new.vrfName
  name := updateField old.name new.name
  pathId := updateField old.pathId new.pathId
  addpathFamilies := updateField old.addpathFamilies new.addpathFamilies
  pathActivity := old.pathActivity
  historyGeneration :=
    if new.state = some .connected ∧ old.state ≠ some .connected then
      saturatingSucc old.historyGeneration
    else old.historyGeneration
  historyRevision := saturatingSucc old.historyRevision

/-- an entry claimed for a new connection -/
def IngressInfo.claim (info : IngressInfo) : IngressInfo :=
  { info with
    state := some .connected
    historyGeneration := saturatingSucc info.historyGeneration
    historyRevision := saturatingSucc info.historyRevision }

namespace Register
variable (reg : Register)

def register : IngressId × Register := (reg.serial, { reg with serial := reg.serial + 1 })

def get (id : IngressId) : Option IngressInfo := reg.info.lookup id

def updateInfo (id : IngressId) (newInfo : IngressInfo) : Register :=
  match reg.info.lookup id with
  | some old => { reg with info := reg.info.insert id (old.merge newInfo) }
  | none => { reg with info := reg.info.insert id newInfo }

/-- mark an existing entry down, without resurrecting one that is gone -/
def markDisconnected (id : IngressId) : Register :=
  { reg with info := Assoc.modify id (fun info =>
      { info with
        state := some .disconnected
        historyRevision := saturatingSucc info.historyRevision }) reg.info }

/-- the entry is a path child of `parent` for `pathId` -/
def isPathChild (parent : IngressId) (pathId : Nat) (info : IngressInfo) : Bool :=
  info.ingressType = some .bgpPath && info.parentIngress = some parent &&
    info.pathId = some pathId

/-- validate a cached path child and reactivate it -/
def refreshPathChild (id parent : IngressId) (pathId : Nat) : Bool × Register :=
  match reg.info.lookup id with
  | none => (false, reg)
  | some info =>
    if isPathChild parent pathId info then
      let info := { info with
        pathActivity := saturatingSucc info.pathActivity, state := some .connected }
      (true, { reg with info := reg.info.insert id info })
    else (false, reg)

/-- retire a path child that has not been used since `activity` was read -/
def retirePathChild (id : IngressId) (activity : Nat) : Bool × Register :=
  match reg.info.lookup id with
  | none => (false, reg)
  | some info =>
    if info.ingressType != some .bgpPath || info.state != some .connected ||
        info.pathActivity != activity || activity == 2 ^ 64 - 1 then (false, reg)
    else
      let info := { info with
        state := some .disconnected, historyRevision := saturatingSucc info.historyRevision }
      (true, { reg with info := reg.info.insert id info })

def remove (id : IngressId) : Register := { reg with info := reg.info.erase id }

def removeIfDisconnected (id : IngressId) : Bool × Register :=
  match reg.info.lookup id with
  | none => (false, reg)
  | some info => if info.state = some .disconnected then (true, reg.remove id) else (false, reg)

/-- claim the path child that an earlier session left behind -/
def findExistingPathChildAndClaim (parent : IngressId) (pathId : Nat) :
    Option IngressId × Register :=
  match Assoc.findKey (fun _ info =>
      info.state != some .connected && isPathChild parent pathId info) reg.info with
  | none => (none, reg)
  | some id =>
    (some id, { reg with info := Assoc.modify id (fun info =>
      { info.claim with pathActivity := saturatingSucc info.pathActivity }) reg.info })

/-- a field that must be set and equal -/
def mandatory {α : Type} [DecidableEq α] (info query : Option α) : Bool :=
  info.isSome && info = query

/-- an earlier entry of this peer that is not in use -/
def findExistingPeer (query : IngressInfo) : Option IngressId :=
  Assoc.findKey (fun _ info =>
    info.state != some .connected &&
    mandatory info.parentIngress query.parentIngress &&
    mandatory info.remoteAddr query.remoteAddr &&
    mandatory info.remoteAsn query.remoteAsn &&
    info.ribType = query.ribType && info.peerRibType = query.peerRibType &&
    info.peerType = query.peerType && info.distinguisher = query.distinguisher &&
    info.vrfName = query.vrfName) reg.info

/-- the entry of an earlier BGP session with this peer, whether or not it is still in use; it is
claimed -/
def findExistingBgpSessionAndClaim (query : IngressInfo) : Option IngressId × Register :=
  match Assoc.findKey (fun _ info =>
      mandatory info.remoteAddr query.remoteAddr && mandatory info.remoteAsn query.remoteAsn &&
      mandatory info.ingressType query.ingressType) reg.info with
  | none => (none, reg)
  | some id => (some id, { reg with info := Assoc.modify id IngressInfo.claim reg.info })

def idsForParent (parent : IngressId) : List IngressId :=
  (reg.info.entries.filter fun e => e.2.parentIngress = some parent).map (·.1)

/-- the entries of a caller's cache whose id is still known -/
def pruneMissing {K : Type} [DecidableEq K] (cache : Assoc K IngressId) : Assoc K IngressId :=
  Assoc.eraseAll ((cache.entries.filter fun e => (reg.info.lookup e.2).isNone).map (·.1)) cache

end Register

end Netom
