import Netom.Lib.Assoc
import Netom.Lib.Run

/-!
# The manager: loading, preparing and spawning a configuration

A configuration has units and targets, which are linked to units by name.  When it is read, every
link makes the gate of the unit it names, in a table that outlives the reading (`gates`, thread local
in the source).  `prepare` moves those gates to the pending ones, and `spawn` hands them out: it starts
what is new, reconfigures what runs already with the same type, and terminates the rest.

* `getQueueSizeForLink`, `loadLink`  the gate that a link makes;
* `load`, `prepare`, `spawn`  the three stages, each where it can fail;
* `unitBody`, `targetBody`  what one turn of the two loops of `spawn` does;
* `attempt`  all stages, as at the start and at every reload.

The gates and channels are known by ids of an arbitrary type `I`; each attempt draws new ones.
-/

namespace Netom.Reload

abbrev Name := List Char

/-! ## links -/

def defUpdateQueueLen : Nat := 8

def digit (c : Char) : Option Nat := if c.isDigit then some (c.toNat - '0'.toNat) else none

/-- `str::parse::<usize>`: decimal digits, with an optional sign, that fit into 64 bits -/
def parseUsize (s : List Char) : Option Nat :=
  let digits := match s with
    | '+' :: rest => rest
    | _ => s
  if digits.isEmpty then none
  else do
    let ds ← digits.mapM digit
    let n := ds.foldl (fun n d => 10 * n + d) 0
    if n < 2 ^ 64 then some n else none

/-- the text before and after the first `:` -/
def splitOnce : List Char → Option (List Char × List Char)
  | [] => none
  | c :: s => if c = ':' then some ([], s) else (splitOnce s).map fun p => (c :: p.1, p.2)

def getQueueSizeForLink (linkId : List Char) : Name × Nat :=
  match splitOnce linkId with
  | some (name, options) => (name, (parseUsize options).getD defUpdateQueueLen)
  | none => (linkId, defUpdateQueueLen)

/-- the name of the unit that a link is to -/
def linkName (linkId : List Char) : Name := (getQueueSizeForLink linkId).1

/-- a gate that no unit has yet -/
structure NewGate (I : Type) where
  id : I
  queueSize : Nat
  deriving DecidableEq

/-- a new gate and its agent -/
structure LoadUnit (I : Type) where
  gate : NewGate I
  agent : I
  deriving DecidableEq

structure Link (I : Type) where
  name : Name
  agent : I
  deriving DecidableEq

/-- the table of the gates that reading has made -/
abbrev Gates (I : Type) := Assoc Name (LoadUnit I)

variable {I K S R P L : Type}

/-- a gate is made for the first link to a unit; `newId` is the id drawn for it -/
def loadLink (newId : Name → I) (gates : Gates I) (linkId : List Char) : Gates I × Link I :=
  let (name, queueSize) := getQueueSizeForLink linkId
  match gates.lookup name with
  | some unit => (gates, ⟨name, unit.agent⟩)
  | none => (gates.insert name ⟨⟨newId name, queueSize⟩, newId name⟩, ⟨name, newId name⟩)

def loadLinks (newId : Name → I) (gates : Gates I) (linkIds : List (List Char)) : Gates I :=
  linkIds.foldl (fun gates linkId => (loadLink newId gates linkId).1) gates

/-! ## configurations -/

/-- a unit or a target: its type, its links and everything else -/
structure Part (K S L : Type) where
  kind : K
  links : List L
  settings : S

structure Config (K S R P L : Type) where
  units : Assoc Name (Part K S L)
  targets : Assoc Name (Part K S L)
  /-- `switch_logging` succeeds -/
  logging : Bool
  /-- the package that the roto script compiles to, if it does, if one is configured -/
  roto : Option (Option R)
  /-- what the inspection api serves for it -/
  snapshot : P

/-- what reading a config file comes to: a configuration, or an error after some links -/
inductive ConfigFile (K S R P : Type) where
  | config (c : Config K S R P (List Char))
  | error (linkIds : List (List Char))

def partLinks (parts : Assoc Name (Part K S L)) : List L := parts.entries.flatMap fun e => e.2.links

def Config.links (c : Config K S R P L) : List L := partLinks c.units ++ partLinks c.targets

def ConfigFile.linkIds : ConfigFile K S R P → List (List Char)
  | .config c => c.links
  | .error linkIds => linkIds

def Part.map {L' : Type} (f : L → L') (p : Part K S L) : Part K S L' :=
  { p with links := p.links.map f }

def Config.mapLinks {L' : Type} (f : L → L') (c : Config K S R P L) : Config K S R P L' :=
  { c with
    units := Assoc.filterMapVals (fun _ p => some (p.map f)) c.units
    targets := Assoc.filterMapVals (fun _ p => some (p.map f)) c.targets }

/-! ## the manager -/

structure Manager (I K R P : Type) where
  gates : Gates I
  pendingGates : Assoc Name (NewGate I × I)
  runningUnits : Assoc Name (K × I)
  runningTargets : Assoc Name (K × I)
  rotoPackage : Option R
  snapshot : Option P

def Manager.new : Manager I K R P := ⟨∅, ∅, ∅, ∅, none, none⟩

/-- the links of the file are read up to its end, or its error -/
def Manager.load (newId : Name → I) (m : Manager I K R P) (file : ConfigFile K S R P) :
    Manager I K R P × Option (Config K S R P (Link I)) :=
  let gates := loadLinks newId m.gates file.linkIds
  ({ m with gates := gates },
    match file with
    -- a link has the agent of the gate of its unit, which stays while the file is read
    | .config c => some (c.mapLinks fun linkId => (loadLink newId gates linkId).2)
    | .error _ => none)

/-- the names of the table in the order in which they are visited -/
def visiting (gates : Gates I) (order : List Name) : List Name :=
  if order.Perm gates.keys then order else gates.keys

/-- the gates of the table go to the pending ones, up to the first that is of no unit -/
def resolveGates (units : Assoc Name (Part K S L)) (gates : Gates I) :
    List Name → Assoc Name (NewGate I × I) → Assoc Name (NewGate I × I) × Bool
  | [], pending => (pending, true)
  | name :: names, pending =>
    match gates.lookup name with
    | none => resolveGates units gates names pending
    | some load =>
      if (units.lookup name).isSome then
        resolveGates units gates names (pending.insert name (load.gate, load.agent))
      else (pending, false)

/-- the roto package after `compile_roto_script`, or `none` if that fails -/
def compileRotoScript (old : Option R) : Option (Option R) → Option (Option R)
  | none => some old
  | some (some package) => some (some package)
  | some none => none

def Manager.prepare (m : Manager I K R P) (order : List Name) (c : Config K S R P L) :
    Manager I K R P × Bool :=
  match compileRotoScript m.rotoPackage c.roto with
  | none => (m, false)
  | some rotoPackage =>
    let (pending, resolved) := resolveGates c.units m.gates (visiting m.gates order) m.pendingGates
    ({ m with
      rotoPackage := rotoPackage
      snapshot := some c.snapshot
      gates := ∅
      pendingGates := pending }, resolved)

/-! ## spawning -/

inductive Action (I K S R : Type) where
  | spawnUnit (name : Name) (unit : Part K S (Link I)) (gate : NewGate I) (roto : Option R)
  | reconfigureUnit (name : Name) (agent : I) (unit : Part K S (Link I)) (gate : NewGate I)
  | terminateUnit (name : Name) (agent : I)
  | spawnTarget (name : Name) (target : Part K S (Link I)) (commands : I) (roto : Option R)
  | reconfigureTarget (name : Name) (sender : I) (target : Part K S (Link I))
  | terminateTarget (name : Name) (sender : I)

section spawn
variable [DecidableEq K] (roto : Option R)

/-- one turn for a target of the configuration; `running` is what was removed from the running
targets, `commands` the new channel -/
def targetBody (name : Name) (target : Part K S (Link I)) (commands : I) :
    Option (K × I) → List (Action I K S R) × (K × I)
  | some (kind, sender) =>
    if target.kind ≠ kind then
      ([.terminateTarget name sender, .spawnTarget name target commands roto], (target.kind, commands))
    else ([.reconfigureTarget name sender target], (kind, sender))
  | none => ([.spawnTarget name target commands roto], (target.kind, commands))

/-- one turn for a unit; `pending` and `running` are what was removed from the pending gates and from
the running units -/
def unitBody (name : Name) (unit : Part K S (Link I)) :
    Option (NewGate I × I) → Option (K × I) → List (Action I K S R) × Option (K × I)
  -- nothing is linked to the unit
  | none, some (_, agent) => ([.terminateUnit name agent], none)
  | none, none => ([], none)
  | some (gate, newAgent), some (kind, agent) =>
    if unit.kind ≠ kind then
      ([.terminateUnit name agent, .spawnUnit name unit gate roto], some (unit.kind, newAgent))
    else ([.reconfigureUnit name agent unit gate], some (unit.kind, newAgent))
  | some (gate, newAgent), none =>
    ([.spawnUnit name unit gate roto], some (unit.kind, newAgent))

/-- what the loops of `spawn_internal` work on -/
structure Spawning (I K S R : Type) where
  pendingGates : Assoc Name (NewGate I × I)
  runningUnits : Assoc Name (K × I)
  runningTargets : Assoc Name (K × I)
  newRunningUnits : Assoc Name (K × I)
  newRunningTargets : Assoc Name (K × I)
  actions : List (Action I K S R)

def Spawning.target (commands : Name → I) (s : Spawning I K S R)
    (e : Name × Part K S (Link I)) : Spawning I K S R :=
  let (actions, entry) := targetBody roto e.1 e.2 (commands e.1) (s.runningTargets.lookup e.1)
  { s with
    runningTargets := s.runningTargets.erase e.1
    newRunningTargets := s.newRunningTargets.insert e.1 entry
    actions := s.actions ++ actions }

def Spawning.unit (s : Spawning I K S R) (e : Name × Part K S (Link I)) : Spawning I K S R :=
  let (actions, entry) :=
    unitBody roto e.1 e.2 (s.pendingGates.lookup e.1) (s.runningUnits.lookup e.1)
  { s with
    pendingGates := s.pendingGates.erase e.1
    runningUnits := s.runningUnits.erase e.1
    newRunningUnits := match entry with
      | some entry => s.newRunningUnits.insert e.1 entry
      | none => s.newRunningUnits
    actions := s.actions ++ actions }

end spawn

def pairs (parts : Assoc Name (Part K S L)) : List (Name × Part K S L) :=
  parts.entries.map fun e => (e.1, e.2)

/-- the name that a new component is tracked under until it runs -/
def Action.tracked : Action I K S R → Option Name
  | .spawnUnit name _ _ _ => some name
  | .spawnTarget name _ _ _ => some name
  | _ => none

/-- both loops over the configuration, then the end of what is left of the running components -/
def Manager.spawnAll [DecidableEq K] (commands : Name → I) (m : Manager I K R P)
    (c : Config K S R P (Link I)) : Manager I K R P × List (Action I K S R) :=
  let s : Spawning I K S R := ⟨m.pendingGates, m.runningUnits, m.runningTargets, ∅, ∅, []⟩
  let s := (pairs c.targets).foldl (Spawning.target m.rotoPackage commands) s
  let s := (pairs c.units).foldl (Spawning.unit m.rotoPackage) s
  ({ m with
    pendingGates := s.pendingGates
    runningUnits := s.newRunningUnits
    runningTargets := s.newRunningTargets },
    s.actions ++ (s.runningUnits.entries.map fun e => .terminateUnit e.1 e.2.2) ++
      s.runningTargets.entries.map fun e => .terminateTarget e.1 e.2.2)

/-- the coordinator panics if two new components have one name -/
def Manager.spawn [DecidableEq K] (commands : Name → I) (m : Manager I K R P)
    (c : Config K S R P (Link I)) : Option (Manager I K R P × List (Action I K S R)) :=
  if ((m.spawnAll commands c).2.filterMap Action.tracked).Nodup then some (m.spawnAll commands c)
  else none

/-! ## all stages -/

/-- one reading of a config file: the ids drawn for gates and for channels, the order in which the
table of gates is visited, and the file -/
structure Attempt (I K S R P : Type) where
  newId : Name → I
  commands : Name → I
  order : List Name
  file : ConfigFile K S R P

inductive Outcome (I K S R P : Type) where
  | failed
  | panicked
  | spawned (c : Config K S R P (Link I)) (actions : List (Action I K S R))

/-- `load`, `finalise` and, if they succeed, `spawn` -/
def Manager.attempt [DecidableEq K] (m : Manager I K R P) (a : Attempt I K S R P) :
    Manager I K R P × Outcome I K S R P :=
  match m.load a.newId a.file with
  | (m, none) => (m, .failed)
  | (m, some c) =>
    if c.logging then
      match m.prepare a.order c with
      | (m, false) => (m, .failed)
      | (m, true) =>
        match m.spawn a.commands c with
        | none => (m, .panicked)
        | some (m, actions) => (m, .spawned c actions)
    else (m, .failed)

end Netom.Reload
