import Netom.Lib.Recount
import Netom.FlowSpec.Query

/-!
# The number of stored FlowSpec rules

`FlowSpecRuleCounts` has one counter for each family.  `insert_flowspec` adjusts it, under
`flowspec_lock`; the operations on whole sessions run under `withdraw_lock` and recount the store
when they are done.  The two kinds run at the same time.

* `FlowSpecWriter`  the steps of an insert and of an operation on whole sessions;
* `RuleStored`  what a withdrawal must not meet under a withdrawn ingress;
* `flowspecLaws`  an insert keeps the counters right but for what it still has to add;
* `ruleCounts_quiescent` **whenever no thread is at work, the counters are what a query finds**;
* `staleWithdrawal_undercounts`  and a withdrawal of a retained rule leaves them too low.
-/

namespace Netom
open PrefixMatch Recount Function FlowSpecStore Option

/-! ## writers -/

/-- the arguments of `insert_flowspec` -/
structure FlowSpecInsert where
  nlri : RawNlri
  pamap : RotondaPaMap
  key : Prefix
  announce : Bool
  mui : IngressId
  deriving DecidableEq

/-- the next thing that an insert does -/
inductive InsertPc where
  | check
  | reset
  | read
  | write (record : FlowSpecRecord) (change : Int)
  | add (change : Int)
  | done

/-- one pass of an operation on whole sessions over the store -/
inductive BulkOp where
  | compact (ids : List IngressId) (family : Option AddrFamily)
  | mark (e : IngressId × Option AfiSafiType)
  | remove (id : IngressId)

inductive FlowSpecWriter where
  | insert (op : FlowSpecInsert) (pc : InsertPc)
  | bulk (ops : List BulkOp)

/-- the store with the two locks, and who holds them -/
structure FlowSpecShared (T : Type) where
  store : FlowSpecStore
  flowspecLock : Option T
  withdrawLock : Option T

/-- what the store answers to an operation, and the verdict of `validate_flowspec` -/
structure StoreAnswer where
  ok : Bool
  validity : FlowSpecValidity

def BulkOp.apply (s : FlowSpecStore) : BulkOp → FlowSpecStore
  | .compact ids family => s.compactFlowspecForIngresses ids family
  | .mark e => s.markWithdrawn e
  | .remove id => s.removeMui id

/-- the passes of `withdraw_for_ingresses` -/
def withdrawOps (ids : List (IngressId × Option AfiSafiType)) (retainWithdrawnAttributes : Bool) :
    List BulkOp :=
  (if !retainWithdrawnAttributes then
    [.compact (scopeBucket ids none) none,
      .compact (scopeBucket ids (some .ipv4FlowSpec)) (some .v4),
      .compact (scopeBucket ids (some .ipv6FlowSpec)) (some .v6)]
  else []) ++ ids.map .mark

/-- what an insert does with the rules that it finds -/
def FlowSpecInsert.change (op : FlowSpecInsert) (validity : FlowSpecValidity)
    (ruleset : FlowSpecRuleSet) : InsertPc :=
  if op.announce then
    let (replaced, ruleset) := ruleset.upsert ⟨validity, op.nlri, op.pamap⟩
    .write (.active ruleset) (if replaced then 0 else 1)
  else
    let (removed, ruleset) := ruleset.remove op.nlri
    if removed then .write (FlowSpecStore.remainder ruleset) (-1) else .done

/-- a counter does not go below zero -/
def addCount (count : Nat) (delta : Int) : Nat :=
  if 0 ≤ delta then count + delta.toNat else count - delta.natAbs

def stepInsert {T : Type} (s : FlowSpecShared T) (counts : AddrFamily → Nat) (op : FlowSpecInsert)
    (answer : StoreAnswer) : InsertPc → Option (FlowSpecShared T × (AddrFamily → Nat) × InsertPc)
  | .check =>
    some (s, counts,
      if op.announce && s.store.muiIsWithdrawn op.key.family op.mui then .reset else .read)
  -- under `withdraw_lock`
  | .reset =>
    if s.withdrawLock.isSome then none
    else if answer.ok then
      some ({ s with store := s.store.resetFlowspecFamily op.mui op.key.family }, counts, .read)
    else some (s, counts, .done)
  | .read =>
    some (s, counts,
      if answer.ok then op.change answer.validity (s.store.rulesetAt op.key op.mui) else .done)
  | .write record change =>
    if answer.ok then
      some ({ s with store := s.store.insert op.key op.mui record }, counts, .add change)
    else some (s, counts, .done)
  | .add change =>
    some (s, update counts op.key.family (addCount (counts op.key.family) change), .done)
  | .done => none

def flowspecWriters (T : Type) :
    Spec T AddrFamily Prefix (FlowSpecShared T) FlowSpecWriter StoreAnswer where
  keys s := prefixes s.store.records
  part s key f := if key.family = f then s.store.rulesAt key else 0
  families := [.v4, .v6]
  bulk
    | .insert _ _ => false
    | .bulk _ => true
  finished
    | .insert _ .done => true
    | .bulk [] => true
    | _ => false
  acquire s t
    | .insert _ .check => if s.flowspecLock.isNone then some { s with flowspecLock := some t } else none
    | .insert _ _ => none
    | .bulk _ => if s.withdrawLock.isNone then some { s with withdrawLock := some t } else none
  release s _
    | .insert _ _ => { s with flowspecLock := none }
    | .bulk _ => { s with withdrawLock := none }
  act s counts _ w answer :=
    match w with
    | .insert op pc =>
      (stepInsert s counts op answer pc).map fun res => (res.1, res.2.1, .insert op res.2.2)
    | .bulk (o :: ops) => some ({ s with store := o.apply s.store }, counts, .bulk ops)
    | .bulk [] => none

abbrev FlowSpecSys (T : Type) := Sys T AddrFamily Prefix (FlowSpecShared T) FlowSpecWriter

/-- an empty store, and nobody at work -/
def FlowSpecSys.new (T : Type) : FlowSpecSys T :=
  Sys.init (flowspecWriters T) ⟨FlowSpecStore.empty, none, none⟩

abbrev FlowSpecSys.step {T : Type} [DecidableEq T] (s : FlowSpecSys T)
    (e : T × Input FlowSpecWriter StoreAnswer) : FlowSpecSys T :=
  Sys.step (flowspecWriters T) s e

/-! ## what an insert owes -/

/-- the rule that an insert withdraws is stored -/
def RuleStored (s : FlowSpecStore) (op : FlowSpecInsert) : Prop :=
  ((s.rulesetAt op.key op.mui).remove op.nlri).1 = true

/-- a withdrawal that is about to read the rules finds its rule only if the ingress is not
withdrawn in the family -/
def NotRetained {T : Type} (s : FlowSpecShared T) (_ : T) (w : FlowSpecWriter)
    (_ : StoreAnswer) : Prop :=
  match w with
  | .insert op .read => op.announce = false → RuleStored s.store op →
      s.store.muiIsWithdrawn op.key.family op.mui = false
  | _ => True

/-- the store as the insert has seen it -/
def InsertSees (s : FlowSpecStore) (op : FlowSpecInsert) : InsertPc → Prop
  | .check | .add _ | .done => True
  | .reset => s.muiIsWithdrawn op.key.family op.mui = true
  | .read => op.announce = true → s.muiIsWithdrawn op.key.family op.mui = false
  | .write record change => s.muiIsWithdrawn op.key.family op.mui = false ∧
      (record.ruleset.ruleCount : Int) = (s.rulesetAt op.key op.mui).ruleCount + change

def InsertPc.owes : InsertPc → Int
  | .add change => change
  | _ => 0

def FlowSpecWriter.owes (f : AddrFamily) : FlowSpecWriter → Int
  | .insert op pc => if op.key.family = f then pc.owes else 0
  | .bulk _ => 0

/-- what the holder of `flowspec_lock` still has to add -/
def owed {T : Type} (s : FlowSpecShared T) (ws : T → Option FlowSpecWriter) (f : AddrFamily) : Int :=
  match s.flowspecLock with
  | none => 0
  | some t => (ws t).elim 0 (FlowSpecWriter.owes f)

/-- inserts hold their lock, and the counter is right but for what is owed -/
def CountExact {T : Type} (f : AddrFamily) (s : FlowSpecShared T) (counts : AddrFamily → Nat)
    (ws : T → Option FlowSpecWriter) : Prop :=
  (∀ t op pc, ws t = some (.insert op pc) →
    s.flowspecLock = some t ∧ InsertSees s.store op pc) ∧
  (counts f : Int) + owed s ws f = s.store.visibleCount (fun _ => true) f

lemma total_flowspecWriters {T : Type} (s : FlowSpecShared T) (f : AddrFamily) :
    (flowspecWriters T).total s f = s.store.visibleCount (fun _ => true) f :=
  sum_rulesAt s.store f

lemma visibleCount_insert {s : FlowSpecStore} {key : Prefix} {mui : IngressId}
    (hw : s.muiIsWithdrawn key.family mui = false) {record : FlowSpecRecord} {change : Int}
    (hc : (record.ruleset.ruleCount : Int) = (s.rulesetAt key mui).ruleCount + change)
    (f : AddrFamily) :
    ((s.insert key mui record).visibleCount (fun _ => true) f : Int) =
      s.visibleCount (fun _ => true) f + if key.family = f then change else 0 := by
  have hrest : ∀ p m, ¬ (p = key ∧ m = mui) →
      (s.insert key mui record).visible p m = s.visible p m := by
    intro p m hk
    rw [visible_insert, if_neg hk]
  have hnew : (s.insert key mui record).visible key mui = record.ruleset.rules := by
    rw [visible_insert, if_pos ⟨rfl, rfl⟩, hw]
    rfl
  have hold : s.visible key mui = (s.rulesetAt key mui).rules := by
    rw [visible_eq, hw]
    rfl
  have hu := s.visibleCount_update hrest (fun _ => true) f
  rw [hnew, hold] at hu
  unfold FlowSpecRuleSet.ruleCount at hc
  by_cases hf : key.family = f
  · simp only [hf, and_self, if_true] at hu ⊢
    omega
  · simp only [hf, false_and, if_false] at hu ⊢
    omega

/-! ## one step of an insert -/

section step
variable {T : Type} [DecidableEq T]

variable {s : FlowSpecShared T}

lemma owed_update {t : T} (hl : s.flowspecLock = some t) (ws : T → Option FlowSpecWriter)
    (op : FlowSpecInsert) (pc : InsertPc) (f : AddrFamily) :
    owed s (update ws t (some (.insert op pc))) f =
      if op.key.family = f then pc.owes else 0 := by
  unfold owed
  rw [hl]
  show (update ws t (some (FlowSpecWriter.insert op pc)) t).elim 0 _ = _
  rw [update_self]
  rfl

variable {op : FlowSpecInsert}

/-- a step of the lock holder, by what it sees afterwards and what it owes -/
lemma CountExact.update {f : AddrFamily} {s' : FlowSpecShared T}
    {counts counts' : AddrFamily → Nat} {ws : T → Option FlowSpecWriter} {t : T} {pc pc' : InsertPc}
    (h : CountExact f s counts ws) (hw : ws t = some (.insert op pc))
    (hl : s'.flowspecLock = s.flowspecLock) (hsees : InsertSees s'.store op pc')
    (hcount : (counts' f : Int) + (if op.key.family = f then pc'.owes else 0) +
      s.store.visibleCount (fun _ => true) f = counts f +
        (if op.key.family = f then pc.owes else 0) + s'.store.visibleCount (fun _ => true) f) :
    CountExact f s' counts' (Function.update ws t (some (.insert op pc'))) := by
  obtain ⟨hthreads, hold⟩ := h
  obtain ⟨hlock, -⟩ := hthreads t op pc hw
  have howed : owed s ws f = if op.key.family = f then pc.owes else 0 := by
    have hself : Function.update ws t (some (.insert op pc)) = ws := by
      rw [← hw]
      exact Function.update_eq_self t ws
    rw [← owed_update hlock ws op pc f, hself]
  constructor
  · intro t' op' pc'' hw'
    by_cases ht : t' = t
    · subst ht
      rw [Function.update_self] at hw'
      cases hw'
      exact ⟨hl.trans hlock, hsees⟩
    · -- only one thread can hold the lock
      rw [update_of_ne ht] at hw'
      obtain ⟨hlock', -⟩ := hthreads t' op' pc'' hw'
      rw [hlock] at hlock'
      cases hlock'
      exact absurd rfl ht
  · rw [owed_update (hl.trans hlock)]
    rw [howed] at hold
    omega

lemma insertSees_change {s : FlowSpecStore}
    (hup : op.announce = true → s.muiIsWithdrawn op.key.family op.mui = false)
    (hdown : op.announce = false → RuleStored s op → s.muiIsWithdrawn op.key.family op.mui = false)
    (validity : FlowSpecValidity) :
    InsertSees s op (op.change validity (s.rulesetAt op.key op.mui)) := by
  unfold FlowSpecInsert.change
  cases ha : op.announce with
  | true =>
    have hcount := (s.rulesetAt op.key op.mui).ruleCount_upsert ⟨validity, op.nlri, op.pamap⟩
    refine ⟨hup ha, ?_⟩
    show (((s.rulesetAt op.key op.mui).upsert ⟨validity, op.nlri, op.pamap⟩).2.ruleCount : Int) =
      _ + if ((s.rulesetAt op.key op.mui).upsert ⟨validity, op.nlri, op.pamap⟩).1 then 0 else 1
    split at hcount
    · rename_i hr
      rw [if_pos hr]
      omega
    · rename_i hr
      rw [if_neg hr]
      omega
  | false =>
    have hcount := (s.rulesetAt op.key op.mui).ruleCount_remove op.nlri
    show InsertSees s op (if ((s.rulesetAt op.key op.mui).remove op.nlri).1 then
      .write (remainder ((s.rulesetAt op.key op.mui).remove op.nlri).2) (-1) else .done)
    by_cases hr : ((s.rulesetAt op.key op.mui).remove op.nlri).1 = true
    · rw [if_pos hr] at hcount ⊢
      refine ⟨hdown ha hr, ?_⟩
      rw [remainder_ruleset]
      omega
    · rw [if_neg hr]
      trivial

lemma owes_change (op : FlowSpecInsert) (validity : FlowSpecValidity)
    (ruleset : FlowSpecRuleSet) : (op.change validity ruleset).owes = 0 := by
  unfold FlowSpecInsert.change
  split
  · rfl
  · show (if (ruleset.remove op.nlri).1 then InsertPc.write _ (-1) else .done).owes = 0
    split
    · rfl
    · rfl

lemma countExact_stepInsert {f : AddrFamily} {s' : FlowSpecShared T}
    {counts counts' : AddrFamily → Nat} {ws : T → Option FlowSpecWriter} {t : T} {pc pc' : InsertPc}
    {answer : StoreAnswer} (h : CountExact f s counts ws) (hw : ws t = some (.insert op pc))
    (hok : NotRetained s t (.insert op pc) answer)
    (hs : stepInsert s counts op answer pc = some (s', counts', pc')) :
    CountExact f s' counts' (update ws t (some (.insert op pc'))) := by
  obtain ⟨hlock, hsees⟩ := h.1 t op pc hw
  cases pc with
  | check =>
    cases hs
    refine h.update hw rfl ?_ ?_
    · by_cases hc : (op.announce && s.store.muiIsWithdrawn op.key.family op.mui) = true
      · rw [if_pos hc]
        exact (Bool.and_eq_true_iff.mp hc).2
      · rw [if_neg hc]
        intro ha
        rw [ha, Bool.true_and] at hc
        exact Bool.not_eq_true _ |>.mp hc
    · by_cases hc : (op.announce && s.store.muiIsWithdrawn op.key.family op.mui) = true
      · rw [if_pos hc]
        rfl
      · rw [if_neg hc]
        rfl
  | reset =>
    simp only [stepInsert] at hs
    split at hs
    · cases hs
    · split at hs
      · cases hs
        refine h.update hw ?_ ?_ ?_
        · rfl
        · intro _
          rw [muiIsWithdrawn_resetFlowspecFamily]
          simp
        · have hsame : (s.store.resetFlowspecFamily op.mui op.key.family).visibleCount
              (fun _ => true) f = s.store.visibleCount (fun _ => true) f := by
            apply visibleCount_congr
            intro p m _
            rw [s.store.visible_resetFlowspecFamily hsees]
          show _ = (counts f : Int) + _ + (s.store.resetFlowspecFamily op.mui
            op.key.family).visibleCount (fun _ => true) f
          rw [hsame]
          rfl
      · cases hs
        refine h.update hw rfl ?_ ?_
        · trivial
        · rfl
  | read =>
    cases hs
    refine h.update hw rfl ?_ ?_
    · cases answer.ok with
      | true => exact insertSees_change hsees hok answer.validity
      | false => trivial
    · cases answer.ok with
      | true =>
        rw [if_pos rfl, owes_change]
        rfl
      | false => rfl
  | write record change =>
    simp only [stepInsert] at hs
    split at hs
    · cases hs
      refine h.update hw ?_ ?_ ?_
      · rfl
      · trivial
      · have hv := visibleCount_insert hsees.1 hsees.2 f
        show _ = (counts f : Int) + _ + (s.store.insert op.key op.mui record).visibleCount
          (fun _ => true) f
        rw [hv]
        by_cases hf : op.key.family = f
        · simp only [hf, if_true, InsertPc.owes]
          omega
        · simp only [hf, if_false]
          omega
    · cases hs
      refine h.update hw rfl ?_ ?_
      · trivial
      · rfl
  | add change =>
    cases hs
    have hold := h.2
    have howed : owed s ws f = if op.key.family = f then change else 0 := by
      have hself : update ws t (some (.insert op (.add change))) = ws := by
        rw [← hw]
        exact update_eq_self t ws
      rw [← hself, owed_update hlock]
      rfl
    refine h.update hw rfl ?_ ?_
    · trivial
    · by_cases hf : op.key.family = f
      · subst hf
        rw [howed, if_pos rfl] at hold
        simp only [if_true, update_self, InsertPc.owes, addCount]
        split
        · omega
        · omega
      · rw [update_of_ne fun h' => hf h'.symm]
        simp only [hf, if_false]
  | done => cases hs

lemma flowspecLaws : Laws (flowspecWriters T) CountExact NotRetained where
  mem_families f := by cases f <;> simp [flowspecWriters]
  none := by
    intro f s counts ws hnone
    rw [total_flowspecWriters]
    have howed : owed s ws f = 0 := by
      unfold owed
      cases s.flowspecLock with
      | none => rfl
      | some t =>
        show (ws t).elim 0 _ = 0
        rw [hnone t]
        rfl
    unfold CountExact
    rw [howed]
    constructor
    · rintro ⟨-, h⟩
      omega
    · intro h
      refine ⟨?_, by omega⟩
      intro t op pc hw
      rw [hnone t] at hw
      cases hw
  acquire := by
    intro f s counts ws t w s' h _ hn hb ha
    obtain ⟨hthreads, hold⟩ := h
    cases w with
    | bulk ops => cases hb
    | insert op pc =>
      cases pc with
      | check =>
        obtain ⟨hfree, heq⟩ := ite_none_right_eq_some.mp ha
        cases heq
        have hlock : s.flowspecLock = none := isNone_iff_eq_none.mp hfree
        have howed : owed s ws f = 0 := by
          unfold owed
          rw [hlock]
        constructor
        · intro t' op' pc' hw
          by_cases ht : t' = t
          · subst ht
            rw [update_self] at hw
            cases hw
            exact ⟨rfl, trivial⟩
          · rw [update_of_ne ht] at hw
            obtain ⟨hlock', -⟩ := hthreads t' op' pc' hw
            rw [hlock] at hlock'
            cases hlock'
        · rw [owed_update rfl]
          show (counts f : Int) + (if op.key.family = f then 0 else 0) =
            s.store.visibleCount (fun _ => true) f
          rw [ite_self]
          rw [howed] at hold
          exact hold
      | reset | read | write record change | add change | done => cases ha
  act := by
    intro f s counts ws t w answer s' counts' w' h _ hw hb hok ha
    cases w with
    | bulk ops => cases hb
    | insert op pc =>
      obtain ⟨res, hres, heq⟩ := map_eq_some_iff.mp ha
      cases heq
      exact countExact_stepInsert h hw hok hres
  release := by
    intro f s counts ws t w h _ hw hb hfin
    obtain ⟨hthreads, hold⟩ := h
    cases w with
    | bulk ops => cases hb
    | insert op pc =>
      obtain ⟨hlock, -⟩ := hthreads t op pc hw
      have hdone : pc = .done := by
        cases pc <;> first | rfl | cases hfin
      subst hdone
      have howed : owed s ws f = 0 := by
        have hself : update ws t (some (.insert op .done)) = ws := by
          rw [← hw]
          exact update_eq_self t ws
        rw [← hself, owed_update hlock]
        exact ite_self 0
      constructor
      · intro t' op' pc' hw'
        by_cases ht : t' = t
        · subst ht
          rw [update_self] at hw'
          cases hw'
        · rw [update_of_ne ht] at hw'
          obtain ⟨hlock', -⟩ := hthreads t' op' pc' hw'
          rw [hlock] at hlock'
          cases hlock'
          exact absurd rfl ht
      · show (counts f : Int) + 0 = s.store.visibleCount (fun _ => true) f
        rw [howed] at hold
        exact hold
  bulk_act := by
    intro s counts t w answer s' counts' w' ha
    cases w with
    | insert op pc =>
      obtain ⟨res, -, heq⟩ := map_eq_some_iff.mp ha
      cases heq
      rfl
    | bulk ops =>
      cases ops with
      | nil => cases ha
      | cons o ops =>
        cases ha
        rfl

/-- **The counters at rest**: in every run in which no withdrawal meets its rule under an ingress
that is withdrawn, whenever all threads are idle the counter of a family is the number of rows that
an unfiltered query answers with. -/
theorem ruleCounts_quiescent (env : FlowSpecEnv) (fm : FlowSpecMatcher) (rib : Rib)
    {es : List (T × Input FlowSpecWriter StoreAnswer)}
    (ha : Run.Along FlowSpecSys.step (Allowed NotRetained) (FlowSpecSys.new T) es)
    (hidle : ∀ t, (Run.run FlowSpecSys.step (FlowSpecSys.new T) es).thread t = .idle)
    (family : AddrFamily) :
    (FlowRib.queryFlowspec env fm
      ⟨rib, (Run.run FlowSpecSys.step (FlowSpecSys.new T) es).store.store⟩
      (.unfiltered family)).map List.length =
      .ok ((Run.run FlowSpecSys.step (FlowSpecSys.new T) es).counts family) := by
  have hcount := quiescent flowspecLaws ⟨empty, none, none⟩ ha hidle family
  rw [total_flowspecWriters] at hcount
  rw [length_queryFlowspec_unfiltered]
  exact congrArg Except.ok hcount.symm

end step

/-! ## a rule that outlives its session -/

/-- the first `n` steps of a thread that has nobody to wait for -/
def goOn (n : Nat) : List (Unit × Input FlowSpecWriter StoreAnswer) :=
  List.replicate n ((), .go ⟨true, .notValidated⟩)

/-- a rule of ingress 1 for 10.0.0.0/8 -/
def firstRule (announce : Bool) : FlowSpecInsert :=
  ⟨[1#8, 8#8, 10#8], RotondaPaMap.emptyPathAttributes, tenNet, announce, 1⟩

/-- a rule of ingress 2 for 11.0.0.0/8 -/
def secondRule : FlowSpecInsert :=
  ⟨[1#8, 8#8, 11#8], RotondaPaMap.emptyPathAttributes, elevenNet, true, 2⟩

/-- the first rule is announced and withdrawn, within its session -/
theorem ruleCounts_quiescent_withinSession :
    let es := ((), .begin (.insert (firstRule true) .check)) :: goOn 6 ++
      ((), .begin (.insert (firstRule false) .check)) :: goOn 6
    let s := Run.run FlowSpecSys.step (FlowSpecSys.new Unit) es
    Run.Along FlowSpecSys.step (Allowed NotRetained) (FlowSpecSys.new Unit) es ∧
      (∀ t, s.thread t = .idle) ∧
      (FlowRib.queryFlowspec twoRules (FullMatcher.reference Prefix.covers)
        ⟨Rib.new Register.new, s.store.store⟩ (.unfiltered .v4)).map List.length =
        .ok (s.counts .v4) := by
  have ha : Run.Along FlowSpecSys.step (Allowed NotRetained) (FlowSpecSys.new Unit)
      (((), .begin (.insert (firstRule true) .check)) :: goOn 6 ++
        ((), .begin (.insert (firstRule false) .check)) :: goOn 6) :=
    ⟨trivial, trivial, (fun h => absurd h (by decide)), trivial, trivial, trivial, trivial,
      trivial, trivial, fun _ _ => rfl, trivial, trivial, trivial, trivial, trivial⟩
  exact ⟨ha, fun _ => rfl, ruleCounts_quiescent twoRules (FullMatcher.reference Prefix.covers)
    (Rib.new Register.new) ha (fun _ => rfl) .v4⟩

/-- both rules are announced, and the session of the first goes down with its routes retained -/
def sessionDown : List (Unit × Input FlowSpecWriter StoreAnswer) :=
  ((), .begin (.insert (firstRule true) .check)) :: goOn 6 ++
    ((), .begin (.insert secondRule .check)) :: goOn 6 ++
    ((), .begin (.bulk (withdrawOps [(1, none)] true))) :: goOn 15

/-- then its rule is withdrawn: the counter says none, the query finds the other rule -/
theorem staleWithdrawal_undercounts :
    let s := Run.run FlowSpecSys.step (FlowSpecSys.new Unit)
      (sessionDown ++ ((), .begin (.insert (firstRule false) .check)) :: goOn 6)
    (∀ t, s.thread t = .idle) ∧ s.counts .v4 = 0 ∧
      (FlowRib.queryFlowspec twoRules (FullMatcher.reference Prefix.covers)
        ⟨Rib.new Register.new, s.store.store⟩ (.unfiltered .v4)).map List.length = .ok 1 := by
  refine ⟨fun _ => rfl, by decide, ?_⟩
  rw [length_queryFlowspec_unfiltered]
  decide

end Netom
