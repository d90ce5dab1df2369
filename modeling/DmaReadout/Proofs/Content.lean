import DmaReadout.Files
import Mathlib.Data.List.GetD

/-! # The bytes of a file

What is written to a file is read back. A file keeps its bytes in words and these in blocks, and both
ends of a block that was never written, or only in part, count as zero.

* `Cells.byte`: a byte of the words; `toList_toBytes`: the bytes of a file are those of its words.
* `Content.toBytes_ofBytes`: a file made of bytes has these bytes. -/

namespace DmaReadout

/-! ### Words -/

theorem Word.bytes_ofBytes (a b c d : UInt8) : (Word.ofBytes a b c d).bytes = [a, b, c, d] := by
  have hbyte : ∀ {x y : UInt8}, x.toBitVec = y.toBitVec → x = y := UInt8.toBitVec_inj.1
  unfold Word.bytes Word.ofBytes
  refine List.cons_eq_cons.2 ⟨hbyte ?_, List.cons_eq_cons.2 ⟨hbyte ?_, List.cons_eq_cons.2
    ⟨hbyte ?_, List.cons_eq_cons.2 ⟨hbyte ?_, rfl⟩⟩⟩⟩
  all_goals
    simp only [UInt32.toBitVec_or, UInt32.toBitVec_shiftLeft, UInt8.toBitVec_toUInt32,
      UInt32.toBitVec_toUInt8, UInt32.toBitVec_shiftRight]
    ext i hi
    simp <;> grind

/-- The byte `k` places behind the start of cells. -/
def Cells.byte (c : Cells) (k : Nat) : UInt8 :=
  (c.get (k / 4)).bytes.getD (k % 4) 0

theorem toList_foldl_pushWord (ws : List Word) : ∀ out : ByteArray,
    (ws.foldl pushWord out).data.toList = out.data.toList ++ ws.flatMap Word.bytes := by
  induction ws with
  | nil => simp
  | cons w ws ih =>
    intro out
    have hpush : (pushWord out w).data.toList = out.data.toList ++ w.bytes := by
      simp [pushWord, Word.bytes]
    rw [List.foldl_cons, ih, hpush, List.flatMap_cons, List.append_assoc]

/-- Words that are not there count as zero, and so do their bytes. -/
theorem getD_flatMap_bytes : ∀ (ws : List Word) (k : Nat),
    (ws.flatMap Word.bytes).getD k 0 = (ws.getD (k / 4) 0).bytes.getD (k % 4) 0
  | [], k => by
    have hzero : ∀ j < 4, (Word.bytes 0).getD j 0 = 0 := by decide
    simpa using (hzero (k % 4) (Nat.mod_lt k (by decide))).symm
  | w :: ws, k => by
    have hlength : w.bytes.length = 4 := rfl
    rw [List.flatMap_cons]
    rcases Nat.lt_or_ge k 4 with hk | hk
    · rw [List.getD_append _ _ _ _ (by omega), Nat.div_eq_of_lt hk, Nat.mod_eq_of_lt hk]
      rfl
    · obtain ⟨j, rfl⟩ : ∃ j, k = j + 4 := ⟨k - 4, by omega⟩
      rw [List.getD_append_right _ _ _ _ (by omega), hlength, Nat.add_sub_cancel,
        getD_flatMap_bytes ws j, Nat.add_mod_right, Nat.add_div_right j (by decide)]
      rfl

/-! ### Blocks -/

theorem Cells.get_block (c : Cells) (b : Nat) {j : Nat} (hj : j < blockWords) :
    c.get (b * blockWords + j) = (c.blocks.getD b #[]).getD j 0 := by
  have hpos : 0 < blockWords := by decide
  rw [get, Nat.mul_comm, Nat.mul_add_div hpos, Nat.div_eq_of_lt hj, Nat.add_zero,
    Nat.mul_add_mod, Nat.mod_eq_of_lt hj]

theorem take_append_replicate {α : Type} (d : α) (l : List α) (n : Nat) :
    l.take n ++ List.replicate (n - (l.take n).length) d = (List.range n).map (l.getD · d) := by
  refine List.ext_getElem ?_ fun k hk hk' => ?_
  · rw [List.length_append, List.length_replicate, List.length_map, List.length_range,
      List.length_take]
    omega
  · have hn : k < n := by simpa using hk'
    rw [List.getElem_map, List.getElem_range]
    rcases Nat.lt_or_ge k l.length with hl | hl
    · rw [List.getElem_append_left (by simp; omega)]
      simp [hl]
    · rw [List.getElem_append_right (by simp; omega)]
      simp [hl]

namespace Content

theorem toList_bytesOfBlock (c : Cells) (b : Nat) {n : Nat} (hn : n ≤ blockBytes) :
    (bytesOfBlock c b n).data.toList = (List.range n).map fun k => c.byte (b * blockBytes + k) := by
  have hheld : (((c.blocks.getD b #[]).foldl pushWord .empty).extract 0 n).data.toList =
      ((c.blocks.getD b #[]).toList.flatMap Word.bytes).take n := by
    rw [ByteArray.data_extract, Array.toList_extract, ← Array.foldl_toList, toList_foldl_pushWord]
    simp [List.extract_eq_take_drop]
  have hzeros : ∀ k, k ≤ blockBytes →
      (zeroBlock.extract 0 k).data.toList = List.replicate k 0 := by
    intro k hk
    rw [ByteArray.data_extract, Array.toList_extract, zeroBlock, Array.toList_replicate,
      List.extract_eq_take_drop, List.drop_zero, Nat.sub_zero, List.take_replicate, Nat.min_eq_left hk]
  have hsize : ∀ a : ByteArray, a.size = a.data.toList.length := fun a => by simp
  rw [bytesOfBlock, ByteArray.data_append, Array.toList_append, hzeros _ (by omega), hsize, hheld,
    take_append_replicate]
  refine List.map_congr_left fun k hk => ?_
  have hk : k < blockBytes := by
    have := List.mem_range.1 hk
    omega
  have hblock : b * blockBytes = 4 * (b * Cells.blockWords) := Nat.mul_left_comm b 4 _
  have hword : (b * blockBytes + k) / 4 = b * Cells.blockWords + k / 4 := by omega
  have hplace : (b * blockBytes + k) % 4 = k % 4 := by omega
  rw [Cells.byte, hword, hplace, Cells.get_block c b (by unfold blockBytes at hk; omega),
    getD_flatMap_bytes]
  simp

/-- The blocks of a file, one after the other. -/
theorem toList_fold_blocks (c : Content) : ∀ (n : Nat) (out : ByteArray),
    (Nat.fold n (fun b _ out =>
      out ++ bytesOfBlock c.cells b (min blockBytes (c.size - b * blockBytes))) out).data.toList =
        out.data.toList ++ (List.range (min (n * blockBytes) c.size)).map c.cells.byte
  | 0, out => by simp
  | n + 1, out => by
    have hnext : min ((n + 1) * blockBytes) c.size =
        min (n * blockBytes) c.size + min blockBytes (c.size - n * blockBytes) := by
      rw [Nat.succ_mul]
      omega
    rw [Nat.fold_succ, ByteArray.data_append, Array.toList_append, toList_fold_blocks c n,
      toList_bytesOfBlock _ _ (Nat.min_le_left _ _), hnext, List.range_add, List.map_append,
      List.append_assoc, List.map_map]
    rcases Nat.le_total (n * blockBytes) c.size with hle | hle
    · rw [Nat.min_eq_left hle]
      rfl
    · rw [Nat.sub_eq_zero_of_le hle, Nat.min_zero, List.range_zero, List.map_nil, List.map_nil]

/-- The bytes of a file are those of its words. -/
theorem toList_toBytes (c : Content) :
    c.toBytes.data.toList = (List.range c.size).map c.cells.byte := by
  have hpos : 0 < blockBytes := by decide
  have hall : min ((c.size + blockBytes - 1) / blockBytes * blockBytes) c.size = c.size := by
    have hmod := Nat.mod_lt (c.size + blockBytes - 1) hpos
    have hdiv := Nat.div_add_mod (c.size + blockBytes - 1) blockBytes
    rw [Nat.mul_comm] at hdiv
    omega
  rw [toBytes, toList_fold_blocks, hall]
  exact List.nil_append _

/-! ### A file made of bytes -/

theorem get_fold_set (f : Nat → Word) (j : Nat) : ∀ n : Nat,
    (Nat.fold n (fun i _ c => c.set i (f i)) Cells.zero).get j = if j < n then f j else 0
  | 0 => by simp [Cells.get, Cells.zero]
  | n + 1 => by
    rw [Nat.fold_succ, Cells.get_set, get_fold_set f j n]
    by_cases hj : j = n
    · rw [if_pos hj, if_pos (by omega), hj]
    · rw [if_neg hj]
      by_cases hlt : j < n
      · rw [if_pos hlt, if_pos (by omega)]
      · rw [if_neg hlt, if_neg (by omega)]

/-- **A file made of bytes has these bytes.** -/
theorem toBytes_ofBytes (bytes : ByteArray) : (ofBytes bytes).toBytes = bytes := by
  refine ByteArray.ext (Array.toList_inj.1 ?_)
  rw [toList_toBytes]
  refine List.ext_getElem (by simp [ofBytes]) fun k hk hk' => ?_
  have hlt : k < bytes.size := by simpa [ofBytes] using hk
  rw [List.getElem_map, List.getElem_range, Cells.byte, ofBytes]
  dsimp only
  rw [get_fold_set, if_pos (by omega), wordOfBytesAt, Word.bytes_ofBytes]
  have hbyte : ∀ j, k % 4 = j →
      (if h : 4 * (k / 4) + j < bytes.size then bytes[4 * (k / 4) + j] else 0) =
        bytes.data.toList[k] := by
    rintro j rfl
    have hplace : 4 * (k / 4) + k % 4 = k := Nat.div_add_mod k 4
    simp only [hplace, dif_pos hlt]
    rfl
  have hmod : k % 4 = 0 ∨ k % 4 = 1 ∨ k % 4 = 2 ∨ k % 4 = 3 := by omega
  rcases hmod with h | h | h | h <;> rw [h] <;> exact hbyte _ h

end Content

end DmaReadout
