import Mathlib

/-!
# Lists made in blocks

A list `es.flatMap g` where every block `g e` holds elements of one key, and the keys of the blocks are
distinct: what the list has of a key is the block of that key.

* `filter_flatMap_block`  the elements of the key of a block are the block;
* `filter_flatMap_nil`  there are none of another key.
-/

namespace Blocks
open List
variable {α β κ : Type} [DecidableEq κ] {es : List α} {key : α → κ} {g : α → List β} {of : β → κ}

lemma filter_flatMap_nil (hg : ∀ e ∈ es, ∀ b ∈ g e, of b = key e) {x : κ} (hx : x ∉ es.map key) :
    (es.flatMap g).filter (fun b => of b = x) = [] := by
  rw [filter_eq_nil_iff]
  intro b hb hbx
  obtain ⟨e, he, hbe⟩ := mem_flatMap.mp hb
  apply hx
  rw [← of_decide_eq_true hbx, hg e he b hbe]
  exact mem_map_of_mem he

lemma filter_flatMap_block (hg : ∀ e ∈ es, ∀ b ∈ g e, of b = key e) (hn : (es.map key).Nodup)
    {e : α} (he : e ∈ es) : (es.flatMap g).filter (fun b => of b = key e) = g e := by
  induction es with
  | nil => cases he
  | cons a es ih =>
    have hg' : ∀ e ∈ es, ∀ b ∈ g e, of b = key e := fun e he => hg e (mem_cons_of_mem a he)
    obtain ⟨ha, hn'⟩ := nodup_cons.mp hn
    rw [flatMap_cons, filter_append]
    rcases mem_cons.mp he with rfl | he'
    · rw [filter_flatMap_nil hg' ha, append_nil, filter_eq_self]
      intro b hb
      exact decide_eq_true (hg e mem_cons_self b hb)
    · have hne : ∀ b ∈ g a, of b ≠ key e := by
        intro b hb hbe
        apply ha
        rw [← hg a mem_cons_self b hb, hbe]
        exact mem_map_of_mem he'
      rw [ih hg' hn' he', filter_eq_nil_iff.mpr fun b hb hbe => hne b hb (of_decide_eq_true hbe)]
      rfl

end Blocks
