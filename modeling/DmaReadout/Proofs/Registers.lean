import DmaReadout.Channel.Bar

/-! # Fields of registers

A field of a register are some of its bits in a row. A part of it, or all of it, may lie beyond the
highest bit of the register; what is written there is lost.

* `Word.bit`, `bit_ext`: the bits of a word; `bit_shiftedUp`, `bit_lowBits`, `bit_masked`: the bits of
  the words that a field is written with.
* `Bar.read_write`, `Bar.ext_read`: the contents of the registers.
* `Bar.bit_modify`: every bit of every register after a field was written; `modify_modify`: what follows
  for a second field.
* `modify_exact`: the main statement. -/

namespace DmaReadout

/-! ### Bits -/

/-- Bit `j` of a word, the lowest being bit 0. -/
def Word.bit (w : Word) (j : Nat) : Bool :=
  w.toBitVec.getLsbD j

theorem Word.bit_ext {v w : Word} (h : ∀ j < 32, v.bit j = w.bit j) : v = w :=
  UInt32.toBitVec_inj.1 (BitVec.eq_of_getLsbD_eq h)

theorem Word.bit_masked (old new mask : Word) {j : Nat} (hj : j < 32) :
    ((old &&& ~~~mask) ||| (new &&& mask)).bit j = if mask.bit j then new.bit j else old.bit j := by
  have hbit : ((old &&& ~~~mask) ||| (new &&& mask)).bit j =
      (old.bit j && !mask.bit j || new.bit j && mask.bit j) := by
    simp only [Word.bit, UInt32.toBitVec_or, UInt32.toBitVec_and, UInt32.toBitVec_not,
      BitVec.getLsbD_or, BitVec.getLsbD_and, BitVec.getLsbD_not, hj, decide_true, Bool.true_and]
  rw [hbit]
  cases mask.bit j <;> simp

theorem Word.toBitVec_shiftLeft (w : Word) {n : Nat} (h : n < 32) :
    (w <<< n.toUInt32).toBitVec = w.toBitVec <<< n := by
  have hn : (n.toUInt32.toBitVec % 32).toNat = n := by
    simp [Nat.toUInt32]
    omega
  rw [UInt32.toBitVec_shiftLeft, BitVec.shiftLeft_eq', hn]

namespace Bar

theorem bit_shiftedUp (w : Word) (position : Nat) {j : Nat} (hj : j < 32) :
    (shiftedUp w position).bit j = (decide (position ≤ j) && w.bit (j - position)) := by
  unfold shiftedUp
  split
  · rename_i hp
    rw [Word.bit, Word.toBitVec_shiftLeft w hp, BitVec.getLsbD_shiftLeft]
    simp [hj, Word.bit, ← decide_not]
  · rw [decide_eq_false (by omega)]
    simp [Word.bit]

theorem bit_lowBits (width : Nat) {j : Nat} (hj : j < 32) :
    (lowBits width).bit j = decide (j < width) := by
  unfold lowBits
  split
  · rename_i hw
    have hpow : 2 ^ width < 2 ^ 32 := Nat.pow_lt_pow_right (by decide) hw
    have hone : (1 <<< width.toUInt32 : Word).toNat = 2 ^ width := by
      rw [← UInt32.toNat_toBitVec, Word.toBitVec_shiftLeft 1 hw]
      simp [Nat.shiftLeft_eq]
      omega
    have hle : (1 : Word) ≤ 1 <<< width.toUInt32 := by
      rw [UInt32.le_iff_toNat_le, hone]
      exact Nat.two_pow_pos width
    have hmask : (1 <<< width.toUInt32 - 1 : Word).toNat = 2 ^ width - 1 := by
      rw [UInt32.toNat_sub_of_le _ _ hle, hone]
      rfl
    rw [Word.bit, ← BitVec.testBit_toNat, UInt32.toNat_toBitVec, hmask, Nat.testBit_two_pow_sub_one]
  · rw [decide_eq_true (by omega)]
    show (BitVec.allOnes 32).getLsbD j = true
    rw [BitVec.getLsbD_allOnes, decide_eq_true hj]

/-! ### Registers -/

theorem read_write (b : Bar) (index k : Nat) (w : Word) :
    (b.write index w).read k = if k = index ∧ k < b.registers.size then w else b.read k := by
  obtain ⟨family, registers⟩ := b
  simp only [write, read, Array.getD_eq_getD_getElem?, Array.getElem?_setIfInBounds]
  grind

theorem ext_read {a b : Bar} (hfamily : a.family = b.family)
    (hsize : a.registers.size = b.registers.size) (hread : ∀ k, a.read k = b.read k) : a = b := by
  obtain ⟨family, xs⟩ := a
  obtain ⟨family', ys⟩ := b
  obtain rfl : family = family' := hfamily
  refine congrArg (Bar.mk family) (Array.ext hsize fun k hk hk' => ?_)
  have hk := hread k
  simpa [read, *] using hk

theorem modify_keeps (b : Bar) (index position width : Nat) (value : Word) :
    (b.modify index position width value).family = b.family ∧
      (b.modify index position width value).registers.size = b.registers.size := by
  unfold modify
  split
  · exact ⟨rfl, rfl⟩
  · exact ⟨rfl, Array.size_setIfInBounds⟩

/-- **Every bit of every register** after a field was written. -/
theorem bit_modify (b : Bar) (index position width : Nat) (value : Word) (k : Nat) {j : Nat}
    (hj : j < 32) :
    ((b.modify index position width value).read k).bit j =
      if k = index ∧ k < b.registers.size ∧ position ≤ j ∧ j < position + width then
        value.bit (j - position)
      else (b.read k).bit j := by
  unfold modify
  split
  · rw [if_neg (by omega)]
  dsimp only
  rw [read_write]
  by_cases hk : k = index ∧ k < b.registers.size
  · obtain ⟨rfl, hlt⟩ := hk
    rw [if_pos ⟨rfl, hlt⟩, Word.bit_masked _ _ _ hj, bit_shiftedUp _ _ hj, bit_shiftedUp _ _ hj,
      bit_lowBits width (show j - position < 32 by omega)]
    by_cases hin : position ≤ j ∧ j < position + width
    · have hoff : j - position < width := by omega
      simp [hlt, hin, hoff]
    · have hout : ¬(position ≤ j ∧ j - position < width) := by omega
      simp only [Bool.and_eq_true, decide_eq_true_eq]
      rw [if_neg hout, if_neg (fun h => hin h.2.2)]
  · rw [if_neg hk, if_neg (fun h => hk ⟨h.1, h.2.1⟩)]

theorem read_modify_of_ne (b : Bar) {index k : Nat} (position width : Nat) (value : Word)
    (hk : k ≠ index) : (b.modify index position width value).read k = b.read k := by
  refine Word.bit_ext fun j hj => ?_
  rw [bit_modify _ _ _ _ _ _ hj, if_neg (fun h => hk h.1)]

theorem modify_outside (b : Bar) {index : Nat} (position width : Nat) (value : Word)
    (h : b.registers.size ≤ index) : b.modify index position width value = b := by
  obtain ⟨hfamily, hsize⟩ := b.modify_keeps index position width value
  refine ext_read hfamily hsize fun k => Word.bit_ext fun j hj => ?_
  rw [bit_modify _ _ _ _ _ _ hj, if_neg (by omega)]

/-- Writes to fields that share no bit may change places. -/
theorem modify_comm (b : Bar) {index position width index' position' width' : Nat}
    (value value' : Word)
    (hapart : index' ≠ index ∨ ∀ j < 32, position ≤ j → j < position + width →
      ¬(position' ≤ j ∧ j < position' + width')) :
    (b.modify index position width value).modify index' position' width' value' =
      (b.modify index' position' width' value').modify index position width value := by
  have hkeeps := modify_keeps
  refine ext_read ?_ ?_ fun k => Word.bit_ext fun j hj => ?_
  · simp only [hkeeps]
  · simp only [hkeeps]
  · simp only [bit_modify _ _ _ _ _ _ hj, hkeeps]
    by_cases hfirst : k = index ∧ k < b.registers.size ∧ position ≤ j ∧ j < position + width
    · have hsecond : ¬(k = index' ∧ k < b.registers.size ∧ position' ≤ j ∧
          j < position' + width') := by
        rintro ⟨rfl, -, hin⟩
        exact hapart.elim (fun hne => hne hfirst.1) fun h => h j hj hfirst.2.2.1 hfirst.2.2.2 hin
      rw [if_pos hfirst, if_neg hsecond, if_pos hfirst]
    · rw [if_neg hfirst, if_neg hfirst]

/-- A write that is repeated changes nothing more. -/
theorem modify_modify (b : Bar) (index position width : Nat) (value : Word) :
    (b.modify index position width value).modify index position width value =
      b.modify index position width value := by
  have hkeeps := modify_keeps
  refine ext_read ?_ ?_ fun k => Word.bit_ext fun j hj => ?_
  · simp only [hkeeps]
  · simp only [hkeeps]
  · simp only [bit_modify _ _ _ _ _ _ hj, hkeeps]
    split <;> rfl

/-- **A write to a field** of a register of the file replaces the bits of the field by the lowest bits
of the value, as far as the register reaches, and leaves all other bits and registers; where there is no
register it changes nothing. Fields that share no bit can be written in either order, and writing one
again changes nothing. -/
theorem modify_exact (b : Bar) (index position width : Nat) (value : Word) :
    (index < b.registers.size → ∀ j < 32,
      ((b.modify index position width value).read index).bit j =
        if position ≤ j ∧ j < position + width then value.bit (j - position)
        else (b.read index).bit j) ∧
      (∀ k, k ≠ index → (b.modify index position width value).read k = b.read k) ∧
      (b.registers.size ≤ index → b.modify index position width value = b) ∧
      (∀ index' position' width' value', (index' ≠ index ∨ ∀ j < 32,
          position ≤ j → j < position + width → ¬(position' ≤ j ∧ j < position' + width')) →
        (b.modify index position width value).modify index' position' width' value' =
          (b.modify index' position' width' value').modify index position width value) ∧
      (b.modify index position width value).modify index position width value =
        b.modify index position width value := by
  refine ⟨fun hindex j hj => ?_, fun k => b.read_modify_of_ne position width value,
    b.modify_outside position width value, fun _ _ _ value' => b.modify_comm value value',
    b.modify_modify index position width value⟩
  rw [bit_modify _ _ _ _ _ _ hj]
  simp only [hindex, true_and]

/-- Of a field of eight bits from bit 28 on, four are in the register; the field of the eight bits before
can be written first or afterwards. -/
theorem modify_exact_small :
    (((zeroed .cru).modify 4 28 8 0xA5).read 4).bit 28 = true ∧
      (((zeroed .cru).modify 4 28 8 0xA5).read 4).bit 29 = false ∧
      ((zeroed .cru).modify 4 28 8 0xA5).read 5 = 0 ∧
      (zeroed .cru).modify 1024 28 8 0xA5 = zeroed .cru ∧
      ((zeroed .cru).modify 4 28 8 0xA5).modify 4 20 8 0xFF =
        ((zeroed .cru).modify 4 20 8 0xFF).modify 4 28 8 0xA5 := by
  have hsize : (zeroed .cru).registers.size = 1024 := Array.size_replicate
  obtain ⟨hbits, hothers, -, hcomm, -⟩ := modify_exact (zeroed .cru) 4 28 8 0xA5
  obtain ⟨-, -, houtside, -⟩ := modify_exact (zeroed .cru) 1024 28 8 0xA5
  have hindex : 4 < (zeroed .cru).registers.size := by omega
  refine ⟨?_, ?_, (hothers 5 (by decide)).trans ?_, houtside (by omega),
    hcomm 4 20 8 0xFF (Or.inr (by omega))⟩
  · rw [hbits hindex 28 (by decide)]
    decide
  · rw [hbits hindex 29 (by decide)]
    decide
  · rw [read, Array.getD_eq_getD_getElem?]
    simp [zeroed, registerCount]

end Bar

end DmaReadout
