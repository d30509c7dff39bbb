import Mathlib.Data.List.Basic

/-!
# A list read item by item

A reader `next` takes one item from the front of a list and returns it with what follows.  A list
is read as a whole if items tile it: nothing is left over.

* `all`  the items that tile a list, if there are any;
* `Reads`  the reader takes `encode a` apart, whatever follows;
* `all_flatMap`  what the reader takes apart, it reads as a whole;
* `forall_of_readAll`  what holds of every item the reader returns holds of all of them.
-/

namespace Items
open List
variable {α β : Type} (next : List β → Option (α × List β))

/-- at most `fuel` items -/
def readAll : Nat → List β → Option (List α)
  | _, [] => some []
  | 0, _ :: _ => none
  | fuel + 1, b :: bs =>
    match next (b :: bs) with
    | some (a, rest) => (readAll fuel rest).map (a :: ·)
    | none => none

def all (bs : List β) : Option (List α) := readAll next bs.length bs

/-- the reader gives back an item, and what follows it -/
def Reads (encode : α → List β) (a : α) : Prop :=
  encode a ≠ [] ∧ ∀ rest, next (encode a ++ rest) = some (a, rest)

variable {next}

lemma readAll_step {fuel : Nat} {bs rest : List β} {a : α} (hbs : bs ≠ [])
    (h : next bs = some (a, rest)) :
    readAll next (fuel + 1) bs = (readAll next fuel rest).map (a :: ·) := by
  cases bs with
  | nil => exact absurd rfl hbs
  | cons b bs =>
    rw [readAll]
    simp only [h]

variable {as : List α} {encode : α → List β}

lemma readAll_flatMap (h : ∀ a ∈ as, Reads next encode a) {fuel : Nat} (hf : as.length ≤ fuel) :
    readAll next fuel (as.flatMap encode) = some as := by
  induction as generalizing fuel with
  | nil =>
    cases fuel with
    | zero | succ fuel => rfl
  | cons a as ih =>
    cases fuel with
    | zero => exact absurd hf (Nat.not_succ_le_zero _)
    | succ fuel =>
      obtain ⟨hne, hn⟩ := h a mem_cons_self
      have hrest := ih (fun a' ha' => h a' (mem_cons_of_mem a ha')) (Nat.succ_le_succ_iff.mp hf)
      have hbs : encode a ++ as.flatMap encode ≠ [] := by
        intro hnil
        exact hne (append_eq_nil_iff.mp hnil).1
      rw [flatMap_cons, readAll_step hbs (hn _), hrest]
      rfl

lemma length_le_flatMap (h : ∀ a ∈ as, encode a ≠ []) :
    as.length ≤ (as.flatMap encode).length := by
  induction as with
  | nil => exact Nat.le_refl 0
  | cons a as ih =>
    have hpos := length_pos_of_ne_nil (h a mem_cons_self)
    have hrest := ih fun a' ha' => h a' (mem_cons_of_mem a ha')
    rw [flatMap_cons, length_append, length_cons]
    omega

lemma all_flatMap (h : ∀ a ∈ as, Reads next encode a) : all next (as.flatMap encode) = some as :=
  readAll_flatMap h (length_le_flatMap fun a ha => (h a ha).1)

lemma all_flatMap_map {γ : Type} {f : γ → α} {cs : List γ} (h : ∀ c ∈ cs, Reads next encode (f c)) :
    all next (cs.flatMap fun c => encode (f c)) = some (cs.map f) := by
  rw [← all_flatMap (forall_mem_map.mpr h), flatMap_map]

lemma forall_of_readAll {P : α → Prop} (h : ∀ {bs a rest}, next bs = some (a, rest) → P a)
    {fuel : Nat} {bs : List β} (hr : readAll next fuel bs = some as) : ∀ a ∈ as, P a := by
  induction fuel generalizing bs as with
  | zero =>
    cases bs with
    | nil => cases hr; exact forall_mem_nil P
    | cons b bs => cases hr
  | succ fuel ih =>
    cases bs with
    | nil => cases hr; exact forall_mem_nil P
    | cons b bs =>
      rw [readAll] at hr
      cases hn : next (b :: bs) with
      | none =>
        rw [hn] at hr
        cases hr
      | some p =>
        obtain ⟨a, rest⟩ := p
        rw [hn] at hr
        obtain ⟨as', has', rfl⟩ := Option.map_eq_some_iff.mp hr
        exact forall_mem_cons.mpr ⟨h hn, ih has'⟩

end Items
