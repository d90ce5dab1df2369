import DmaReadout.Cells
import DmaReadout.Fault

/-! # The memory of a buffer

* `Memory`: a number of bytes, addressed by words. A word that was never written is zero.
* `Memory.view`: grants a window of the memory, or says why not.
* `Memory.page`, `Memory.fill`: the words of a window, and one word written all over it.
* `Memory.copyTo`: the bytes of a window behind others.
* `word_write`, `word_put`, `word_fill`: what a write changes. -/

namespace DmaReadout

/-- The memory of a buffer. -/
structure Memory where
  /-- The size in bytes. -/
  size : Nat
  /-- The words. -/
  cells : Cells := .zero
  deriving Repr, DecidableEq

/-- A window of a memory, in words. -/
structure View where
  /-- The index of the first word. -/
  first : Nat
  /-- The number of words. -/
  count : Nat
  deriving Repr, DecidableEq

namespace Memory

/-- The word with index `i`. -/
def word (m : Memory) (i : Nat) : Word :=
  m.cells.get i

/-- The memory with `w` in place of the word with index `i`. -/
def write (m : Memory) (i : Nat) (w : Word) : Memory :=
  match m with
  | ⟨size, cells⟩ => ⟨size, cells.set i w⟩

/-- The memory with `f 0`, `f 1`, … in place of the `n` words from `first` on. -/
def put (m : Memory) (first n : Nat) (f : Nat → Word) : Memory :=
  Nat.fold n (fun k _ m => m.write (first + k) (f k)) m

/-- The window of `length` bytes at `offset`. It must lie in the memory and consist of whole
words. -/
def view (m : Memory) (offset length : Nat) : Except Error View :=
  if 1 <<< 64 ≤ offset + length then .error (.config (.viewTooLarge offset length))
  else if m.size < offset + length then
    .error (.config (.viewOutside offset (offset + length) m.size))
  else if offset % 4 ≠ 0 ∨ length % 4 ≠ 0 then .error (.config (.viewMisaligned offset length))
  else .ok ⟨offset / 4, length / 4⟩

/-- The words of a window. -/
def page (m : Memory) (v : View) : Array Word :=
  Array.ofFn fun k : Fin v.count => m.word (v.first + k)

/-- The memory with `w` in place of every word of a window. -/
def fill (m : Memory) (v : View) (w : Word) : Memory :=
  m.put v.first v.count fun _ => w

/-- The bytes with those of the words of a window behind them. -/
def copyTo (m : Memory) (v : View) (out : ByteArray) : ByteArray :=
  (m.page v).foldl pushWord out

/-- Word `i` of a window. -/
def wordAt (m : Memory) (v : View) (i : Nat) : Except Misuse Word :=
  if i < v.count then .ok (m.word (v.first + i)) else .error (.wordOutOfRange i v.count)

/-- The memory with `w` in place of word `i` of a window. -/
def writeAt (m : Memory) (v : View) (i : Nat) (w : Word) : Except Misuse Memory :=
  if i < v.count then .ok (m.write (v.first + i) w) else .error (.wordOutOfRange i v.count)

/-! ### What a write changes -/

@[simp] theorem size_write (m : Memory) (i : Nat) (w : Word) : (m.write i w).size = m.size := rfl

theorem word_write (m : Memory) (i j : Nat) (w : Word) :
    (m.write i w).word j = if j = i then w else m.word j :=
  m.cells.get_set i j w

@[simp] theorem size_put (m : Memory) (first n : Nat) (f : Nat → Word) :
    (m.put first n f).size = m.size := by
  unfold put
  induction n with
  | zero => rfl
  | succ n ih => rw [Nat.fold_succ, size_write, ih]

theorem word_put (m : Memory) (first n : Nat) (f : Nat → Word) (j : Nat) :
    (m.put first n f).word j = if first ≤ j ∧ j < first + n then f (j - first) else m.word j := by
  unfold put
  induction n with
  | zero => rw [Nat.fold_zero, if_neg (by omega)]
  | succ n ih =>
    rw [Nat.fold_succ, word_write, ih]
    by_cases h : j = first + n
    · subst h
      rw [if_pos rfl, if_pos (by omega), Nat.add_sub_cancel_left]
    · rw [if_neg h]
      by_cases hj : first ≤ j ∧ j < first + n
      · rw [if_pos hj, if_pos (by omega)]
      · rw [if_neg hj, if_neg (by omega)]

theorem word_fill (m : Memory) (v : View) (w : Word) (j : Nat) :
    (m.fill v w).word j = if v.first ≤ j ∧ j < v.first + v.count then w else m.word j :=
  word_put m v.first v.count _ j

@[simp] theorem size_fill (m : Memory) (v : View) (w : Word) : (m.fill v w).size = m.size :=
  size_put m v.first v.count _

theorem view_eq_ok_iff {m : Memory} {offset length : Nat} {v : View} :
    m.view offset length = .ok v ↔
      offset + length < 1 <<< 64 ∧ offset + length ≤ m.size ∧ offset % 4 = 0 ∧ length % 4 = 0 ∧
        v = ⟨offset / 4, length / 4⟩ := by
  unfold view
  split
  · simp; omega
  split
  · simp; omega
  split
  · simp; omega
  · simp only [Except.ok.injEq]
    constructor
    · rintro rfl
      exact ⟨by omega, by omega, by omega, by omega, rfl⟩
    · rintro ⟨-, -, -, -, rfl⟩
      rfl

end Memory

end DmaReadout
