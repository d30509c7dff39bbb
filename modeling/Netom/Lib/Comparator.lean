import Mathlib

/-!
# Three-way comparators: sorting by one, and eliminating by a list of them

A comparator is a function `α → α → Ordering`.  Std's classes (`Std.OrientedCmp`,
`Std.TransCmp`) say that one is a total preorder on the whole type.  Here it is only asked on the
elements of one list:

* `TotalOn cmp l`  `cmp` is oriented and transitive on the elements of `l`;
* `SortBy`  what a library `sort_by` promises: a permutation, ordered if `cmp` is total;
* `insertTail`  the insertion sort of short slices, and `SortBy.insertion`;
* `SortBy.adversary` a sort that keeps the promise and answers a given permutation elsewhere;
* `lexAll cs`  the comparators `cs` one after the other, `decidedAt cs` which one decides;
* `SortBy.run_positions`  sorting positions, with the position as last tie break, is stable;
* `survivors cs l`  elimination: step by step drop what some remaining element beats;
* `grouped`  a comparator with one step that only counts inside a group.

`grouped` is where lexicographic comparison stops being an order: `totalOn_grouped_iff` says that
it is total on a list exactly when the list has no `GroupCycle`.
-/

namespace Cmp
open Std List OrientedCmp TransCmp Prod

variable {α β : Type}

/-! ## total comparators on a list -/

/-- `cmp` is a total preorder on the elements of `l` -/
structure TotalOn (cmp : α → α → Ordering) (l : List α) : Prop where
  swap : ∀ a ∈ l, ∀ b ∈ l, cmp a b = (cmp b a).swap
  trans : ∀ a ∈ l, ∀ b ∈ l, ∀ c ∈ l, (cmp a b).isLE → (cmp b c).isLE → (cmp a c).isLE

lemma TotalOn.of_transCmp (cmp : α → α → Ordering) [TransCmp cmp] (l : List α) :
    TotalOn cmp l where
  swap _ _ _ _ := eq_swap
  trans _ _ _ _ _ _ hab hbc := isLE_trans hab hbc

variable {cmp : α → α → Ordering}

lemma TotalOn.mono {l l' : List α} (h : TotalOn cmp l)
    (hs : ∀ a ∈ l', a ∈ l) : TotalOn cmp l' where
  swap a ha b hb := h.swap a (hs a ha) b (hs b hb)
  trans a ha b hb c hc := h.trans a (hs a ha) b (hs b hb) c (hs c hc)

variable {l : List α}

lemma TotalOn.congr {cmp cmp' : α → α → Ordering} (h : TotalOn cmp l)
    (he : ∀ a ∈ l, ∀ b ∈ l, cmp' a b = cmp a b) : TotalOn cmp' l where
  swap a ha b hb := by rw [he a ha b hb, he b hb a ha]; exact h.swap a ha b hb
  trans a ha b hb c hc hab hbc := by
    rw [he a ha b hb] at hab
    rw [he b hb c hc] at hbc
    rw [he a ha c hc]
    exact h.trans a ha b hb c hc hab hbc

lemma totalOn_map {cmp : β → β → Ordering} {f : α → β} :
    TotalOn cmp (l.map f) ↔ TotalOn (fun a b => cmp (f a) (f b)) l := by
  constructor
  · intro h
    refine ⟨fun a ha b hb => ?_, fun a ha b hb c hc => ?_⟩
    · exact h.swap _ (mem_map_of_mem ha) _ (mem_map_of_mem hb)
    · exact h.trans _ (mem_map_of_mem ha) _ (mem_map_of_mem hb) _
        (mem_map_of_mem hc)
  · intro h
    refine ⟨fun a ha b hb => ?_, fun a ha b hb c hc => ?_⟩
    · obtain ⟨x, hx, rfl⟩ := mem_map.mp ha
      obtain ⟨y, hy, rfl⟩ := mem_map.mp hb
      exact h.swap x hx y hy
    · obtain ⟨x, hx, rfl⟩ := mem_map.mp ha
      obtain ⟨y, hy, rfl⟩ := mem_map.mp hb
      obtain ⟨z, hz, rfl⟩ := mem_map.mp hc
      exact h.trans x hx y hy z hz

lemma transCmp_pullback (cmp : β → β → Ordering) [TransCmp cmp] (f : α → β) :
    TransCmp (fun a b => cmp (f a) (f b)) where
  eq_swap := eq_swap
  isLE_trans := isLE_trans

/-! ## sorting -/

/-- The contract of a `sort_by`: the elements stay, and they are in order when the comparator is
a total preorder on them.  For any other comparator the order is unspecified. -/
structure SortBy (α : Type) where
  run : (α → α → Ordering) → List α → List α
  perm : ∀ cmp l, (run cmp l).Perm l
  sorted : ∀ cmp l, TotalOn cmp l → (run cmp l).Pairwise (fun a b => (cmp a b).isLE)

/-- `x` moves left past every element of the sorted, reversed head that it is less than -/
def insertTail (cmp : α → α → Ordering) (x : α) : List α → List α
  | [] => [x]
  | y :: ys => if cmp x y = .lt then y :: insertTail cmp x ys else x :: y :: ys

/-- the insertion sort that a library uses on short slices: one element after the other is moved
left to its place -/
def insertionSortShiftLeft (cmp : α → α → Ordering) (l : List α) : List α :=
  (l.foldl (fun acc x => insertTail cmp x acc) []).reverse

lemma insertTail_perm (cmp : α → α → Ordering) (x : α) (l : List α) :
    (insertTail cmp x l).Perm (x :: l) := by
  induction l with
  | nil => exact List.Perm.refl _
  | cons y ys ih =>
    by_cases h : cmp x y = .lt
    · rw [insertTail, if_pos h]
      exact (ih.cons y).trans (List.Perm.swap x y ys)
    · rw [insertTail, if_neg h]

lemma foldl_insertTail_perm (cmp : α → α → Ordering) (l acc : List α) :
    (l.foldl (fun acc x => insertTail cmp x acc) acc).Perm (l ++ acc) := by
  induction l generalizing acc with
  | nil => exact List.Perm.refl _
  | cons x l ih =>
    refine (ih _).trans ?_
    exact ((insertTail_perm cmp x acc).append_left l).trans perm_middle

lemma insertionSortShiftLeft_perm (cmp : α → α → Ordering) (l : List α) :
    (insertionSortShiftLeft cmp l).Perm l := by
  refine (reverse_perm _).trans ?_
  simpa using foldl_insertTail_perm cmp l []

/-- descending, as the reversed head of the slice is -/
def Desc (cmp : α → α → Ordering) (l : List α) : Prop := l.Pairwise (fun a b => (cmp b a).isLE)

lemma insertTail_desc {x : α}
    (h : TotalOn cmp (x :: l)) (hl : Desc cmp l) : Desc cmp (insertTail cmp x l) := by
  induction l with
  | nil => exact pairwise_singleton _ _
  | cons y ys ih =>
    obtain ⟨hy, hys⟩ := pairwise_cons.mp hl
    have hx : x ∈ x :: y :: ys := mem_cons_self
    have hym : y ∈ x :: y :: ys := mem_cons_of_mem _ mem_cons_self
    by_cases hlt : cmp x y = .lt
    · rw [insertTail, if_pos hlt]
      refine List.Pairwise.cons ?_ (ih (h.mono ?_) hys)
      · intro z hz
        rcases mem_cons.mp ((insertTail_perm cmp x ys).mem_iff.mp hz) with rfl | hz
        · rw [hlt]; rfl
        · exact hy z hz
      · intro a ha
        rcases mem_cons.mp ha with rfl | ha
        · exact hx
        · exact mem_cons_of_mem _ (mem_cons_of_mem _ ha)
    · rw [insertTail, if_neg hlt]
      have hyx : (cmp y x).isLE := by
        rw [h.swap y hym x hx]
        cases hc : cmp x y <;> simp_all
      refine List.Pairwise.cons ?_ hl
      intro z hz
      rcases mem_cons.mp hz with rfl | hz
      · exact hyx
      · have hzm : z ∈ x :: y :: ys := mem_cons_of_mem _ (mem_cons_of_mem _ hz)
        exact h.trans z hzm y hym x hx (hy z hz) hyx

lemma foldl_insertTail_desc (l acc : List α)
    (h : TotalOn cmp (l ++ acc)) (ha : Desc cmp acc) :
    Desc cmp (l.foldl (fun acc x => insertTail cmp x acc) acc) := by
  induction l generalizing acc with
  | nil => exact ha
  | cons x l ih =>
    refine ih _ (h.mono ?_) (insertTail_desc (h.mono ?_) ha)
    · intro a hm
      simp only [mem_append, (insertTail_perm cmp x acc).mem_iff, mem_cons] at hm ⊢
      tauto
    · intro a hm
      simp only [mem_append, mem_cons] at hm ⊢
      tauto

def SortBy.insertion : SortBy α where
  run := insertionSortShiftLeft
  perm := insertionSortShiftLeft_perm
  sorted cmp l h := by
    have hd := foldl_insertTail_desc l [] (by simpa using h) List.Pairwise.nil
    exact pairwise_reverse.mpr hd

open Classical in
/-- a sort that keeps the contract and answers `p` for the list `l` whenever the comparator is
not total on it -/
noncomputable def SortBy.adversary (l p : List α) (hp : p.Perm l) : SortBy α where
  run cmp l' := if TotalOn cmp l' then insertionSortShiftLeft cmp l' else if l' = l then p else l'
  perm cmp l' := by
    by_cases ht : TotalOn cmp l'
    · rw [if_pos ht]; exact insertionSortShiftLeft_perm cmp l'
    · rw [if_neg ht]
      by_cases hl : l' = l
      · rw [if_pos hl, hl]; exact hp
      · rw [if_neg hl]
  sorted cmp l' h := by
    rw [if_pos h]
    exact SortBy.insertion.sorted cmp l' h

/-! ## comparators one after the other -/

/-- the first comparator of `cs` that tells `a` and `b` apart decides -/
def lexAll (cs : List (α → α → Ordering)) (a b : α) : Ordering :=
  cs.foldr (fun c o => (c a b).then o) .eq

lemma lexAll_nil (a b : α) : lexAll [] a b = .eq := rfl
lemma lexAll_cons (c : α → α → Ordering) (cs : List (α → α → Ordering)) (a b : α) :
    lexAll (c :: cs) a b = (c a b).then (lexAll cs a b) := rfl

lemma lexAll_append (cs ds : List (α → α → Ordering)) (a b : α) :
    lexAll (cs ++ ds) a b = (lexAll cs a b).then (lexAll ds a b) := by
  induction cs with
  | nil => rfl
  | cons c cs ih => rw [cons_append, lexAll_cons, ih, lexAll_cons, Ordering.then_assoc]

variable {cs : List (α → α → Ordering)}

lemma transCmp_lexAll (h : ∀ c ∈ cs, TransCmp c) : TransCmp (lexAll cs) := by
  induction cs with
  | nil => exact { eq_swap := rfl, isLE_trans := fun _ _ => rfl }
  | cons c cs ih =>
    have hc : TransCmp c := h c mem_cons_self
    have hcs : TransCmp (lexAll cs) := ih (fun d hd => h d (mem_cons_of_mem _ hd))
    exact inferInstanceAs (TransCmp (compareLex c (lexAll cs)))

lemma orientedCmp_lexAll (h : ∀ c ∈ cs, OrientedCmp c) : OrientedCmp (lexAll cs) := by
  induction cs with
  | nil => exact ⟨rfl⟩
  | cons c cs ih =>
    have hc : OrientedCmp c := h c mem_cons_self
    have hcs : OrientedCmp (lexAll cs) := ih (fun d hd => h d (mem_cons_of_mem _ hd))
    exact inferInstanceAs (OrientedCmp (compareLex c (lexAll cs)))

/-! ## where a comparison is decided -/

/-- the position of the first comparator that tells `a` and `b` apart, or their number -/
def decidedAt (cs : List (α → α → Ordering)) (a b : α) : Nat :=
  cs.findIdx fun c => c a b != .eq

variable {c : α → α → Ordering}

lemma decidedAt_cons_eq {a b : α} (h : c a b = .eq) (cs : List (α → α → Ordering)) :
    decidedAt (c :: cs) a b = decidedAt cs a b + 1 := by
  simp [decidedAt, findIdx_cons, h]

lemma decidedAt_cons_ne {a b : α} (h : c a b ≠ .eq) (cs : List (α → α → Ordering)) :
    decidedAt (c :: cs) a b = 0 := by
  have hb : (c a b != .eq) = true := bne_iff_ne.mpr h
  rw [decidedAt, findIdx_cons, hb]
  rfl

/-- the comparator at that position decides, and none before it does -/
lemma lexAll_eq_decidedAt (cs : List (α → α → Ordering)) (a b : α) :
    lexAll cs a b = ((cs[decidedAt cs a b]?).map fun c => c a b).getD .eq := by
  induction cs with
  | nil => rfl
  | cons c cs ih =>
    by_cases h : c a b = .eq
    · rw [lexAll_cons, h, decidedAt_cons_eq h, getElem?_cons_succ, ← ih]
      rfl
    · rw [lexAll_cons, decidedAt_cons_ne h]
      show (c a b).then _ = c a b
      cases hc : c a b with
      | lt | gt => rfl
      | eq => exact absurd hc h

/-- further down an ordered list a comparison with the head is decided earlier -/
lemma decidedAt_anti (ht : ∀ c ∈ cs, TransCmp c) {x y z : α} (hxy : (lexAll cs x y).isLE)
    (hyz : (lexAll cs y z).isLE) : decidedAt cs x z ≤ decidedAt cs x y := by
  induction cs with
  | nil => exact Nat.le_refl 0
  | cons c cs ih =>
    have hc : TransCmp c := ht c mem_cons_self
    have hyz' : (c y z).isLE := Ordering.isLE_left_of_isLE_then hyz
    by_cases h : c x y = .eq
    · by_cases h' : c y z = .eq
      · rw [lexAll_cons, h] at hxy
        rw [lexAll_cons, h'] at hyz
        rw [decidedAt_cons_eq h, decidedAt_cons_eq (eq_trans h h')]
        exact Nat.succ_le_succ (ih (fun d hd => ht d (mem_cons_of_mem c hd)) hxy hyz)
      · have hlt : c y z = .lt := by
          cases hcyz : c y z with
          | lt => rfl
          | eq => exact absurd hcyz h'
          | gt => rw [hcyz] at hyz'; cases hyz'
        have hne : c x z ≠ .eq := by
          rw [lt_of_eq_of_lt h hlt]
          exact nofun
        rw [decidedAt_cons_ne hne]
        exact Nat.zero_le _
    · have hlt : c x y = .lt := by
        have hle : (c x y).isLE := Ordering.isLE_left_of_isLE_then hxy
        cases hcxy : c x y with
        | lt => rfl
        | eq => exact absurd hcxy h
        | gt => rw [hcxy] at hle; cases hle
      have hne : c x z ≠ .eq := by
        rw [lt_of_lt_of_isLE hlt hyz']
        exact nofun
      rw [decidedAt_cons_ne hne]
      exact Nat.zero_le _

/-! ## sorting positions -/

/-- a comparator of positions that compares what is there, and then the positions -/
def PositionCmp (cmp : α → α → Ordering) (l : List α) (order : Nat → Nat → Ordering) : Prop :=
  ∀ x y a b, l[x]? = some a → l[y]? = some b → order x y = (cmp a b).then (compare x y)

section positions
variable {cmp : α → α → Ordering} [TransCmp cmp] {l : List α} {order : Nat → Nat → Ordering}
  (h : PositionCmp cmp l order)
include h

lemma PositionCmp.totalOn : TotalOn order (range l.length) := by
  have hget : ∀ x ∈ range l.length, ∃ a, l[x]? = some a := by
    intro x hx
    exact ⟨_, getElem?_eq_getElem (mem_range.mp hx)⟩
  refine ⟨fun x hx y hy => ?_, fun x hx y hy z hz hxy hyz => ?_⟩
  · obtain ⟨a, ha⟩ := hget x hx
    obtain ⟨b, hb⟩ := hget y hy
    rw [h x y a b ha hb, h y x b a hb ha, Ordering.swap_then, ← eq_swap,
      ← eq_swap]
  · obtain ⟨a, ha⟩ := hget x hx
    obtain ⟨b, hb⟩ := hget y hy
    obtain ⟨c, hc⟩ := hget z hz
    rw [h x y a b ha hb] at hxy
    rw [h y z b c hb hc] at hyz
    rw [h x z a c ha hc]
    have htrans : TransCmp (compareLex (fun p q : α × Nat => cmp p.1 q.1) (compareOn snd)) :=
      have : TransCmp (fun p q : α × Nat => cmp p.1 q.1) := transCmp_pullback cmp fst
      inferInstance
    exact htrans.isLE_trans (a := (a, x)) (b := (b, y)) (c := (c, z)) hxy hyz

lemma PositionCmp.eq_of_isLE {x y : Nat} (hx : x < l.length) (hy : y < l.length)
    (hxy : (order x y).isLE) (hyx : (order y x).isLE) : x = y := by
  have hswap := h.totalOn.swap x (mem_range.mpr hx) y (mem_range.mpr hy)
  have heq : order x y = .eq := by
    rw [hswap] at hxy ⊢
    cases ho : order y x with
    | lt => rw [ho] at hxy; cases hxy
    | eq => rfl
    | gt => rw [ho] at hyx; cases hyx
  rw [h x y _ _ (getElem?_eq_getElem hx) (getElem?_eq_getElem hy)] at heq
  exact Nat.compare_eq_eq.mp (Ordering.then_eq_eq.mp heq).2

/-- the order of core's stable sort on values with their positions -/
lemma PositionCmp.isLE_of_zipIdxLE {p q : α × Nat} (hp : l[p.2]? = some p.1)
    (hq : l[q.2]? = some q.1) (hle : zipIdxLE (fun a b => (cmp a b).isLE) p q = true) :
    (order p.2 q.2).isLE := by
  have hswap : cmp q.1 p.1 = (cmp p.1 q.1).swap := eq_swap
  rw [h p.2 q.2 p.1 q.1 hp hq]
  simp only [zipIdxLE, hswap] at hle
  cases hc : cmp p.1 q.1 with
  | lt => rfl
  | eq =>
    rw [hc] at hle
    exact Nat.isLE_compare.mpr (of_decide_eq_true hle)
  | gt =>
    rw [hc] at hle
    cases hle

/-- **sorting the positions is the stable sort** of what is there -/
theorem SortBy.run_positions (sort : SortBy Nat) :
    (sort.run order (range l.length)).filterMap (l[·]?) =
      l.mergeSort fun a b => (cmp a b).isLE := by
  let le : α → α → Bool := fun a b => (cmp a b).isLE
  have htrans : ∀ a b c, le a b → le b c → le a c := fun a b c => isLE_trans
  have htotal : ∀ a b, le a b || le b a := by
    intro a b
    have hswap : cmp b a = (cmp a b).swap := eq_swap
    show ((cmp a b).isLE || (cmp b a).isLE) = true
    rw [hswap]
    cases cmp a b <;> rfl
  let sorted := l.zipIdx.mergeSort (zipIdxLE le)
  have hmem : ∀ p ∈ sorted, l[p.2]? = some p.1 := by
    intro p hp
    exact mem_zipIdx_iff_getElem?.mp ((mergeSort_perm _ _).mem_iff.mp hp)
  have hperm : (sorted.map snd).Perm (range l.length) := by
    have hp := (mergeSort_perm l.zipIdx (zipIdxLE le)).map snd
    rwa [zipIdx_map_snd, ← range_eq_range'] at hp
  have hsorted : (sorted.map snd).Pairwise fun x y => (order x y).isLE := by
    have hpw := pairwise_mergeSort (zipIdxLE_trans htrans) (zipIdxLE_total htotal)
      l.zipIdx
    refine pairwise_map.mpr (hpw.imp_of_mem ?_)
    intro p q hp hq hle
    exact h.isLE_of_zipIdxLE (hmem p hp) (hmem q hq) hle
  have hrun : sort.run order (range l.length) = sorted.map snd := by
    refine List.Perm.eq_of_pairwise ?_ (sort.sorted order _ h.totalOn) hsorted
      ((sort.perm order _).trans hperm.symm)
    intro x y hx hy
    exact h.eq_of_isLE (mem_range.mp ((sort.perm order _).mem_iff.mp hx))
      (mem_range.mp (hperm.mem_iff.mp hy))
  have hvals : sorted.filterMap (fun p => l[p.2]?) = sorted.map fst := by
    rw [← filterMap_eq_map]
    exact filterMap_congr hmem
  rw [hrun, filterMap_map, ← mergeSort_zipIdx]
  exact hvals

end positions

/-! ## elimination -/

/-- one round: every element that some element still in consideration beats is removed -/
def eliminate (c : α → α → Ordering) (l : List α) : List α :=
  l.filter (fun x => !l.any (fun y => c y x == .lt))

/-- the rounds of `cs`, each over what the rounds before left -/
def survivors (cs : List (α → α → Ordering)) (l : List α) : List α :=
  cs.foldl (fun l c => eliminate c l) l

lemma mem_eliminate {x : α} : x ∈ eliminate c l ↔ x ∈ l ∧ ∀ y ∈ l, c y x ≠ .lt := by
  simp [eliminate]

lemma survivors_subset (cs : List (α → α → Ordering)) (l : List α) {x : α}
    (h : x ∈ survivors cs l) : x ∈ l := by
  induction cs generalizing l with
  | nil => exact h
  | cons c cs ih => exact (mem_eliminate.mp (ih _ h)).1

/-- an element that none beats over all steps together survives every round -/
lemma mem_survivors_of_unbeaten (ho : ∀ c ∈ cs, OrientedCmp c) {x : α} (hx : x ∈ l)
    (h : ∀ y ∈ l, lexAll cs y x ≠ .lt) : x ∈ survivors cs l := by
  induction cs generalizing l with
  | nil => exact hx
  | cons c cs ih =>
    have hc : OrientedCmp c := ho c mem_cons_self
    have hx1 : ∀ y ∈ l, c y x ≠ .lt := by
      intro y hy hlt
      refine h y hy ?_
      rw [lexAll_cons, hlt]
      rfl
    have hx' : x ∈ eliminate c l := mem_eliminate.mpr ⟨hx, hx1⟩
    refine ih (fun d hd => ho d (mem_cons_of_mem _ hd)) hx' ?_
    -- whatever is still there neither beats `x` in this round nor is beaten by it
    intro y hy
    obtain ⟨hyl, hyx⟩ := mem_eliminate.mp hy
    have he : c y x = .eq := by
      have h1 := hx1 y hyl
      have h2 := hyx x hx
      rw [hc.eq_swap] at h2
      cases hcyx : c y x <;> simp_all
    have := h y hyl
    rwa [lexAll_cons, he] at this

/-- an element that survives keeps every element of the list it ties with -/
lemma mem_survivors_of_tie (ht : ∀ c ∈ cs, TransCmp c) {a c : α} (hc : c ∈ l)
    (he : lexAll cs c a = .eq) (ha : a ∈ survivors cs l) : c ∈ survivors cs l := by
  induction cs generalizing l with
  | nil => exact hc
  | cons s cs ih =>
    have hs : TransCmp s := ht s mem_cons_self
    rw [lexAll_cons, Ordering.then_eq_eq] at he
    refine ih (fun d hd => ht d (mem_cons_of_mem _ hd)) ?_ he.2 ha
    have hae := mem_eliminate.mp (survivors_subset cs _ ha)
    refine mem_eliminate.mpr ⟨hc, ?_⟩
    intro y hy hlt
    exact hae.2 y hy (lt_of_lt_of_eq hlt he.1)

/-- an element beaten in the round after `cs` by one it ties with through `cs` is removed -/
lemma not_mem_survivors_of_beaten {ds : List (α → α → Ordering)} {s : α → α → Ordering}
    (ht : ∀ c ∈ cs, TransCmp c) {a c : α} (hc : c ∈ l) (he : lexAll cs c a = .eq)
    (hs : s c a = .lt) : a ∉ survivors (cs ++ s :: ds) l := by
  intro ha
  rw [survivors, foldl_append] at ha
  obtain ⟨hacs, hbeat⟩ := mem_eliminate.mp (survivors_subset ds _ ha)
  exact hbeat c (mem_survivors_of_tie ht hc he hacs) hs

/-! ## a step that only counts inside a group -/

section grouped
variable {γ : Type} [DecidableEq γ] (pre : α → α → Ordering) (group : α → γ) (val : α → Nat)
  (post : α → α → Ordering)

/-- compare values, but only inside one group -/
def withinGroup (a b : α) : Ordering :=
  if group a = group b then compare (val a) (val b) else .eq

/-- `pre`, then the values inside one group, then `post` -/
def grouped (a b : α) : Ordering :=
  (pre a b).then ((withinGroup group val a b).then (post a b))

/-- `c` is better than `a` inside their group, but `post` puts `a`, an outsider `b` and `c` in
this order -/
structure GroupCycle (a b c : α) : Prop where
  pre_ab : pre a b = .eq
  pre_bc : pre b c = .eq
  same : group c = group a
  other : group b ≠ group a
  better : val c < val a
  post_ab : (post a b).isLE
  post_bc : (post b c).isLE

instance (a b c : α) : Decidable (GroupCycle pre group val post a b c) :=
  decidable_of_iff (pre a b = .eq ∧ pre b c = .eq ∧ group c = group a ∧ group b ≠ group a ∧
      val c < val a ∧ (post a b).isLE ∧ (post b c).isLE)
    ⟨fun ⟨h1, h2, h3, h4, h5, h6, h7⟩ => ⟨h1, h2, h3, h4, h5, h6, h7⟩,
      fun ⟨h1, h2, h3, h4, h5, h6, h7⟩ => ⟨h1, h2, h3, h4, h5, h6, h7⟩⟩

variable {pre group val post}

variable {a b : α}

lemma withinGroup_of_ne (h : group a ≠ group b) : withinGroup group val a b = .eq := if_neg h

lemma withinGroup_of_eq (h : group a = group b) :
    withinGroup group val a b = compare (val a) (val b) := if_pos h

lemma withinGroup_swap (a b : α) :
    withinGroup group val a b = (withinGroup group val b a).swap := by
  by_cases h : group a = group b
  · rw [withinGroup_of_eq h, withinGroup_of_eq h.symm]
    exact eq_swap
  · rw [withinGroup_of_ne h, withinGroup_of_ne (Ne.symm h)]
    rfl

instance : OrientedCmp (withinGroup group val) := ⟨withinGroup_swap _ _⟩

instance [OrientedCmp pre] [OrientedCmp post] : OrientedCmp (grouped pre group val post) :=
  inferInstanceAs (OrientedCmp (compareLex pre (compareLex (withinGroup group val) post)))

/-- inside one group the value and `post` together are an order -/
lemma within_post_trans [TransCmp post] {c : α} (hab : group a = group b)
    (hbc : group b = group c) (h1 : ((withinGroup group val a b).then (post a b)).isLE)
    (h2 : ((withinGroup group val b c).then (post b c)).isLE) :
    ((withinGroup group val a c).then (post a c)).isLE := by
  rw [withinGroup_of_eq hab] at h1
  rw [withinGroup_of_eq hbc] at h2
  rw [withinGroup_of_eq (hab.trans hbc)]
  have ht : TransCmp (compareLex (compareOn val) post) := inferInstance
  exact ht.isLE_trans h1 h2

lemma GroupCycle.lt [TransCmp pre] {c : α} (h : GroupCycle pre group val post a b c) :
    grouped pre group val post c a = .lt := by
  have hca : pre c a = .eq :=
    eq_symm (eq_trans h.pre_ab h.pre_bc)
  have hv : compare (val c) (val a) = .lt := Nat.compare_eq_lt.mpr h.better
  rw [grouped, hca, withinGroup_of_eq h.same, hv]
  rfl

lemma GroupCycle.isLE_left {c : α} (h : GroupCycle pre group val post a b c) :
    (grouped pre group val post a b).isLE := by
  rw [grouped, h.pre_ab, withinGroup_of_ne (Ne.symm h.other)]
  exact h.post_ab

lemma GroupCycle.isLE_right {c : α} (h : GroupCycle pre group val post a b c) :
    (grouped pre group val post b c).isLE := by
  have hbc : group b ≠ group c := fun e => h.other (e.trans h.same)
  rw [grouped, h.pre_bc, withinGroup_of_ne hbc]
  exact h.post_bc

/-- three elements that `pre` ties: without a cycle among them the rest is transitive -/
lemma within_post_trans_of_no_cycle [TransCmp pre] [TransCmp post]
    (hn : ∀ a ∈ l, ∀ b ∈ l, ∀ c ∈ l, ¬ GroupCycle pre group val post a b c) {c : α} (ha : a ∈ l)
    (hb : b ∈ l) (hc : c ∈ l) (pab : pre a b = .eq) (pbc : pre b c = .eq)
    (h1 : ((withinGroup group val a b).then (post a b)).isLE)
    (h2 : ((withinGroup group val b c).then (post b c)).isLE) :
    ((withinGroup group val a c).then (post a c)).isLE := by
  have pba : pre b a = .eq := eq_symm pab
  have pcb : pre c b = .eq := eq_symm pbc
  have pac : pre a c = .eq := eq_trans pab pbc
  have pca : pre c a = .eq := eq_symm pac
  by_cases gab : group a = group b
  · by_cases gbc : group b = group c
    · exact within_post_trans gab gbc h1 h2
    · -- `c` is the outsider of the group of `a` and `b`
      have gac : group a ≠ group c := fun e => gbc (gab.symm.trans e)
      rw [withinGroup_of_ne gbc, Ordering.eq_then] at h2
      rw [withinGroup_of_ne gac, Ordering.eq_then]
      rw [withinGroup_of_eq gab, Ordering.isLE_then_iff_and] at h1
      by_contra hca
      have hlt : (post c a).isLE := Ordering.isLE_of_eq_lt (lt_of_not_isLE hca)
      rcases h1.2 with hv | hp
      · exact hn b hb c hc a ha ⟨pbc, pca, gab, fun e => gbc e.symm,
          Nat.compare_eq_lt.mp hv, h2, hlt⟩
      · exact hca (isLE_trans hp h2)
  · by_cases gbc : group b = group c
    · -- `a` is the outsider of the group of `b` and `c`
      have gac : group a ≠ group c := fun e => gab (e.trans gbc.symm)
      rw [withinGroup_of_ne gab, Ordering.eq_then] at h1
      rw [withinGroup_of_ne gac, Ordering.eq_then]
      rw [withinGroup_of_eq gbc, Ordering.isLE_then_iff_and] at h2
      by_contra hca
      have hlt : (post c a).isLE := Ordering.isLE_of_eq_lt (lt_of_not_isLE hca)
      rcases h2.2 with hv | hp
      · exact hn c hc a ha b hb ⟨pca, pab, gbc, gac, Nat.compare_eq_lt.mp hv, hlt, h1⟩
      · exact hca (isLE_trans h1 hp)
    · rw [withinGroup_of_ne gab] at h1
      rw [withinGroup_of_ne gbc] at h2
      have hp : (post a c).isLE := isLE_trans h1 h2
      by_cases gac : group a = group c
      · rw [withinGroup_of_eq gac]
        by_cases hv : val c < val a
        · exact absurd ⟨pab, pbc, gac.symm, fun e => gab e.symm, hv, h1, h2⟩
            (hn a ha b hb c hc)
        · have hle : (compare (val a) (val c)).isLE := Nat.isLE_compare.mpr (by omega)
          exact Ordering.isLE_then_iff_and.mpr ⟨hle, .inr hp⟩
      · rw [withinGroup_of_ne gac]
        exact hp

/-- **a grouped comparator is an order exactly on the lists without a cycle** -/
theorem totalOn_grouped_iff [TransCmp pre] [TransCmp post] {l : List α} :
    TotalOn (grouped pre group val post) l ↔
      ∀ a ∈ l, ∀ b ∈ l, ∀ c ∈ l, ¬ GroupCycle pre group val post a b c := by
  constructor
  · intro h a ha b hb c hc hcyc
    have hac := h.trans a ha b hb c hc hcyc.isLE_left hcyc.isLE_right
    rw [h.swap a ha c hc, hcyc.lt] at hac
    exact absurd hac (by decide)
  · intro hn
    refine ⟨fun a _ b _ => eq_swap, fun a ha b hb c hc h1 h2 => ?_⟩
    rw [grouped, Ordering.isLE_then_iff_and] at h1 h2
    rw [grouped, Ordering.isLE_then_iff_and]
    refine ⟨isLE_trans h1.1 h2.1, ?_⟩
    rcases h1.2 with hlt | h1'
    · exact .inl (lt_of_lt_of_isLE hlt h2.1)
    · rcases h2.2 with hlt | h2'
      · exact .inl (lt_of_isLE_of_lt h1.1 hlt)
      · rcases Ordering.isLE_iff_eq_lt_or_eq_eq.mp h1.1 with pab | pab
        · exact .inl (lt_of_lt_of_isLE pab h2.1)
        · rcases Ordering.isLE_iff_eq_lt_or_eq_eq.mp h2.1 with pbc | pbc
          · exact .inl (lt_of_isLE_of_lt h1.1 pbc)
          · exact .inr (within_post_trans_of_no_cycle hn ha hb hc pab pbc h1' h2')

end grouped

end Cmp
