import DmaReadout.Bytes

/-! # Words by index

* `Cells`: a word for every index, all zero at first. Words are kept in blocks, and a block or the
  end of one that was never written takes no room.
* `Cells.get`, `Cells.set`, `Cells.cut`: reads a word, writes one, makes all words from an index on
  zero.
* `get_set`: what a write changes. -/

namespace DmaReadout

/-- The array with `x` at index `i`; places that this adds before `i` hold `fill`. -/
def setOrGrow {α : Type} (fill : α) (a : Array α) (i : Nat) (x : α) : Array α :=
  if i < a.size then a.setIfInBounds i x else (a ++ Array.replicate (i - a.size) fill).push x

theorem getD_setOrGrow {α : Type} (fill : α) (a : Array α) (i j : Nat) (x : α) :
    (setOrGrow fill a i x).getD j fill = if j = i then x else a.getD j fill := by
  unfold setOrGrow
  split <;> simp only [Array.getD_eq_getD_getElem?]
  · rw [Array.getElem?_setIfInBounds]
    grind
  · rw [Array.getElem?_push, Array.getElem?_append]
    grind

/-- A word for every index. -/
structure Cells where
  /-- The words in blocks; what is not there is zero. -/
  blocks : Array (Array Word) := #[]
  deriving Repr, DecidableEq

namespace Cells

/-- The words in a block. -/
def blockWords : Nat := 131072

/-- All words zero. -/
def zero : Cells := {}

/-- The word with index `i`. -/
def get (c : Cells) (i : Nat) : Word :=
  (c.blocks.getD (i / blockWords) #[]).getD (i % blockWords) 0

/-- The cells with `w` in place of the word with index `i`. The block is taken out before it is
changed, so that it need not be copied. -/
def set (c : Cells) (i : Nat) (w : Word) : Cells :=
  match c with
  | ⟨blocks⟩ =>
    let block := blocks.getD (i / blockWords) #[]
    let blocks := blocks.setIfInBounds (i / blockWords) #[]
    ⟨setOrGrow #[] blocks (i / blockWords) (setOrGrow 0 block (i % blockWords) w)⟩

/-- The cells with zero in place of all words from index `n` on. -/
def cut (c : Cells) (n : Nat) : Cells :=
  ⟨(c.blocks.extract 0 (n / blockWords)).push
    ((c.blocks.getD (n / blockWords) #[]).extract 0 (n % blockWords))⟩

theorem get_set (c : Cells) (i j : Nat) (w : Word) :
    (c.set i w).get j = if j = i then w else c.get j := by
  obtain ⟨blocks⟩ := c
  have other : ∀ k, k ≠ i / blockWords →
      (blocks.setIfInBounds (i / blockWords) #[]).getD k #[] = blocks.getD k #[] := by
    intro k hk
    simp only [Array.getD_eq_getD_getElem?]
    rw [Array.getElem?_setIfInBounds_ne (Ne.symm hk)]
  simp only [get, set, getD_setOrGrow]
  by_cases hb : j / blockWords = i / blockWords
  · rw [if_pos hb, getD_setOrGrow]
    by_cases hr : j % blockWords = i % blockWords
    · rw [if_pos hr, if_pos]
      rw [← Nat.div_add_mod j blockWords, hb, hr, Nat.div_add_mod]
    · rw [if_neg hr, if_neg (fun h => hr (by rw [h])), hb]
  · rw [if_neg hb, if_neg (fun h => hb (by rw [h])), other _ hb]

end Cells

end DmaReadout
