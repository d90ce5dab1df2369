import DmaReadout.Memory
import DmaReadout.Proofs.Content
import Mathlib.Algebra.Ring.Nat

/-! # Windows of a memory

A window is granted for whole words inside the memory, and all windows show the same words: what is
written through one of them is read through every other one at the same byte address, and nowhere else.

* `Word.littleEndian`: the bytes of a word as digits of its value.
* `Memory.Replaces`: one memory is another one with a word at some addresses, through every window;
  `replaces_writeAt`, `replaces_fill`: what is written through a window.
* `Memory.copyTo_eq`: what is copied out of a window.
* `Memory.windows_coherent`: the main statement. -/

namespace DmaReadout

/-! ### The bytes of a word -/

/-- The digits of the value of a word to the base 256, the lowest first. -/
def Word.littleEndian (w : Word) : List UInt8 :=
  (List.range 4).map fun k => UInt8.ofNat (w.toNat / 256 ^ k)

theorem Word.bytes_eq_littleEndian (w : Word) : w.bytes = w.littleEndian := by
  have hbyte : ∀ {x : Word} {n : Nat}, x.toNat = n → x.toUInt8 = UInt8.ofNat n := by
    rintro x _ rfl
    exact UInt8.toNat_inj.1 (UInt32.toNat_toUInt8 x)
  have hshift : ∀ k : Word, (w >>> k).toNat = w.toNat / 2 ^ (k.toNat % 32) := fun k => by
    rw [UInt32.toNat_shiftRight, Nat.shiftRight_eq_div_pow]
  show [_, _, _, _] = [_, _, _, _]
  rw [hbyte (Nat.div_one w.toNat).symm, hbyte (hshift 8), hbyte (hshift 16), hbyte (hshift 24)]
  rfl

namespace Memory

variable {m m' : Memory} {offset length : Nat} {v : View} {w : Word}

/-! ### What is granted -/

theorem view_granted_iff : (∃ v, m.view offset length = .ok v) ↔
    offset + length < 2 ^ 64 ∧ offset + length ≤ m.size ∧ offset % 4 = 0 ∧ length % 4 = 0 := by
  constructor
  · rintro ⟨v, hv⟩
    obtain ⟨hfits, hinside, hoffset, hlength, -⟩ := view_eq_ok_iff.1 hv
    exact ⟨hfits, hinside, hoffset, hlength⟩
  · rintro ⟨hfits, hinside, hoffset, hlength⟩
    exact ⟨_, view_eq_ok_iff.2 ⟨hfits, hinside, hoffset, hlength, rfl⟩⟩

/-- A window that is not granted is a fault of the request. -/
theorem view_eq_ok_or_config (m : Memory) (offset length : Nat) :
    (∃ v, m.view offset length = .ok v) ∨
      ∃ fault, m.view offset length = .error (.config fault) := by
  unfold view
  split
  · exact .inr ⟨_, rfl⟩
  split
  · exact .inr ⟨_, rfl⟩
  split
  · exact .inr ⟨_, rfl⟩
  · exact .inl ⟨_, rfl⟩

/-- What is granted depends on the size only. -/
theorem view_congr (h : m'.size = m.size) (offset length : Nat) :
    m'.view offset length = m.view offset length := by
  unfold view
  rw [h]

/-- A window shows the words from its offset on. -/
theorem wordAt_of_view (hv : m.view offset length = .ok v) (m' : Memory) (j : Nat) :
    m'.wordAt v j = if 4 * j < length then .ok (m'.word ((offset + 4 * j) / 4))
      else .error (.wordOutOfRange j (length / 4)) := by
  obtain ⟨-, -, hoffset, hlength, rfl⟩ := view_eq_ok_iff.1 hv
  have hindex : offset / 4 + j = (offset + 4 * j) / 4 := by omega
  have hin : j < length / 4 ↔ 4 * j < length := by omega
  unfold wordAt
  dsimp only
  rw [hindex]
  split
  · rename_i hj
    rw [if_pos (hin.1 hj)]
  · rename_i hj
    rw [if_neg (fun h => hj (hin.2 h))]

/-! ### What is written -/

/-- `m'` is `m` with `w` at the addresses that are written, through every window. -/
structure Replaces (m m' : Memory) (written : Nat → Prop) (w : Word) : Prop where
  view_eq : ∀ offset length, m'.view offset length = m.view offset length
  wordAt_of_written : ∀ offset length v j, m.view offset length = .ok v → 4 * j < length →
    written (offset + 4 * j) → m'.wordAt v j = .ok w
  wordAt_of_not_written : ∀ offset length v j, m.view offset length = .ok v →
    ¬ written (offset + 4 * j) → m'.wordAt v j = m.wordAt v j

/-- Windows begin at whole words, so that words tell what is written. -/
theorem Replaces.of_word {written : Nat → Prop} (hsize : m'.size = m.size)
    (hin : ∀ k, written (4 * k) → m'.word k = w) (hout : ∀ k, ¬ written (4 * k) → m'.word k = m.word k) :
    m.Replaces m' written w := by
  have hwhole : ∀ offset length v j, m.view offset length = .ok v →
      4 * ((offset + 4 * j) / 4) = offset + 4 * j := by
    intro offset length v j hv
    obtain ⟨-, -, hoffset, -⟩ := view_eq_ok_iff.1 hv
    omega
  refine ⟨view_congr hsize, fun offset length v j hv hj hw => ?_, fun offset length v j hv hw => ?_⟩
  · rw [wordAt_of_view hv, if_pos hj, hin _ (by rwa [hwhole offset length v j hv])]
  · rw [wordAt_of_view hv, wordAt_of_view hv, hout _ (by rwa [hwhole offset length v j hv])]

/-- **A word** that is written through a window stands at its address, and nothing else is changed. -/
theorem replaces_writeAt (hv : m.view offset length = .ok v) {i : Nat} (h : m.writeAt v i w = .ok m') :
    m.Replaces m' (· = offset + 4 * i) w := by
  obtain ⟨-, -, hoffset, -, rfl⟩ := view_eq_ok_iff.1 hv
  unfold writeAt at h
  split at h
  · cases h
    have hindex : ∀ k, 4 * k = offset + 4 * i ↔ k = offset / 4 + i := by omega
    refine Replaces.of_word rfl (fun k hk => ?_) fun k hk => ?_
    · rw [word_write, if_pos ((hindex k).1 hk)]
    · rw [word_write, if_neg (fun h => hk ((hindex k).2 h))]
  · cases h

/-- **A window** that is filled holds the word everywhere, and nothing else is changed. -/
theorem replaces_fill (hv : m.view offset length = .ok v) (w : Word) :
    m.Replaces (m.fill v w) (fun a => offset ≤ a ∧ a < offset + length) w := by
  obtain ⟨-, -, hoffset, hlength, rfl⟩ := view_eq_ok_iff.1 hv
  have hindex : ∀ k, (offset ≤ 4 * k ∧ 4 * k < offset + length) ↔
      (offset / 4 ≤ k ∧ k < offset / 4 + length / 4) := by omega
  refine Replaces.of_word (size_fill m _ w) (fun k hk => ?_) fun k hk => ?_
  · rw [word_fill, if_pos ((hindex k).1 hk)]
  · rw [word_fill, if_neg (fun h => hk ((hindex k).2 h))]

theorem writeAt_granted_iff (hv : m.view offset length = .ok v) {i : Nat} :
    (∃ m', m.writeAt v i w = .ok m') ↔ 4 * i < length := by
  obtain ⟨-, -, -, hlength, rfl⟩ := view_eq_ok_iff.1 hv
  unfold writeAt
  split
  · rename_i hi
    dsimp only at hi
    exact iff_of_true ⟨_, rfl⟩ (by omega)
  · rename_i hi
    dsimp only at hi
    exact iff_of_false nofun (by omega)

/-! ### What is copied -/

/-- **A copy** has the bytes of all words of a window, in order, behind what was there. -/
theorem copyTo_eq (m : Memory) (v : View) (out : ByteArray) : ∃ words : List Word,
    (List.range v.count).map (m.wordAt v) = words.map .ok ∧
      (m.copyTo v out).data.toList = out.data.toList ++ words.flatMap Word.littleEndian := by
  refine ⟨(List.range v.count).map fun k => m.word (v.first + k), ?_, ?_⟩
  · rw [List.map_map]
    refine List.map_congr_left fun j hj => ?_
    exact if_pos (List.mem_range.1 hj)
  · have hpage : (m.page v).toList = (List.range v.count).map fun k => m.word (v.first + k) := by
      rw [page, Array.toList_ofFn]
      exact List.ext_getElem (by simp) (by simp)
    have hbytes : Word.bytes = Word.littleEndian := funext Word.bytes_eq_littleEndian
    rw [copyTo, ← Array.foldl_toList, toList_foldl_pushWord, hpage, hbytes]

/-- **Windows are coherent.** A window is granted just if its end can be counted and lies in the memory
and it consists of whole words; else the request is at fault. A word that is written through a window
is read through every other one at the same address, and all other words stay as they are; so does
everything outside a window that is filled. What is copied out of a window are the bytes of its words,
the lowest first, behind what was there. -/
theorem windows_coherent (m : Memory) (offset length : Nat) :
    ((∃ v, m.view offset length = .ok v) ↔
        offset + length < 2 ^ 64 ∧ offset + length ≤ m.size ∧ offset % 4 = 0 ∧ length % 4 = 0) ∧
      ((∃ v, m.view offset length = .ok v) ∨
        ∃ fault, m.view offset length = .error (.config fault)) ∧
      ∀ v, m.view offset length = .ok v →
        (∀ i w, (∃ m', m.writeAt v i w = .ok m') ↔ 4 * i < length) ∧
          (∀ i w m', m.writeAt v i w = .ok m' → m.Replaces m' (· = offset + 4 * i) w) ∧
          (∀ w, m.Replaces (m.fill v w) (fun a => offset ≤ a ∧ a < offset + length) w) ∧
          ∀ out, ∃ words : List Word, (List.range (length / 4)).map (m.wordAt v) = words.map .ok ∧
            (m.copyTo v out).data.toList = out.data.toList ++ words.flatMap Word.littleEndian := by
  refine ⟨view_granted_iff, view_eq_ok_or_config m offset length, fun v hv =>
    ⟨fun i w => writeAt_granted_iff hv, fun i w m' => replaces_writeAt hv, replaces_fill hv, ?_⟩⟩
  obtain ⟨-, -, -, -, rfl⟩ := view_eq_ok_iff.1 hv
  exact copyTo_eq m _

/-- A word that is written through one window is the first word of another one that overlaps it; the next
word of that one stays as it is. -/
theorem windows_coherent_overlap : ∃ m v v' m', m = (⟨64, .zero⟩ : Memory) ∧
    m.view 8 16 = .ok v ∧ m.view 12 8 = .ok v' ∧ m.writeAt v 1 7 = .ok m' ∧
      m'.wordAt v' 0 = .ok 7 ∧ m'.wordAt v' 1 = m.wordAt v' 1 := by
  obtain ⟨-, -, hgranted⟩ := windows_coherent ⟨64, .zero⟩ 8 16
  obtain ⟨hwritable, hreplaces, -, -⟩ := hgranted ⟨2, 4⟩ rfl
  obtain ⟨m', hm'⟩ := (hwritable 1 7).2 (by decide)
  have hword := hreplaces 1 7 m' hm'
  exact ⟨_, ⟨2, 4⟩, ⟨3, 2⟩, m', rfl, rfl, rfl, hm',
    hword.wordAt_of_written 12 8 ⟨3, 2⟩ 0 rfl (by decide) rfl,
    hword.wordAt_of_not_written 12 8 ⟨3, 2⟩ 1 rfl (by decide)⟩

end Memory

end DmaReadout
