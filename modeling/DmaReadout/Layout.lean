import DmaReadout.Fault

/-! # Layout of the buffer

* `Superpage`: one superpage on its way through a channel.
* `Layout`: how a buffer is divided into superpages and these into pages. -/

namespace DmaReadout

/-- A superpage that a channel is to fill. -/
structure Superpage where
  /-- Where the superpage begins in the buffer. -/
  offset : Nat
  /-- Its size in bytes. -/
  size : Nat
  /-- The bytes received so far. -/
  received : Nat
  deriving Repr, DecidableEq

/-- Whether a superpage has received all of its bytes. -/
def Superpage.isFilled (s : Superpage) : Bool :=
  s.size ≤ s.received

/-- A division of a buffer into superpages of equal size, and of these into pages. -/
structure Layout where
  /-- The number of superpages. -/
  count : Nat
  /-- The bytes of a superpage. -/
  superpageSize : Nat
  /-- The bytes of a page. -/
  pageSize : Nat
  page_pos : 0 < pageSize
  superpage_pos : 0 < superpageSize
  page_dvd : superpageSize % pageSize = 0
  count_pos : 0 < count
  deriving Repr, DecidableEq

namespace Layout

/-- The division of a buffer of `buffer` bytes; what is left over at its end is not used. -/
def ofSizes (buffer superpage page : Nat) : Except Error Layout :=
  if h : 0 < page ∧ 0 < superpage ∧ superpage % page = 0 then
    if hc : 0 < buffer / superpage then
      .ok ⟨buffer / superpage, superpage, page, h.1, h.2.1, h.2.2, hc⟩
    else .error (.config (.noSuperpage buffer superpage))
  else .error (.config (.unevenSuperpage superpage page))

/-- The number of pages in a superpage. -/
def pagesPerSuperpage (l : Layout) : Nat :=
  l.superpageSize / l.pageSize

/-- Where superpage `i` begins. -/
def offset (l : Layout) (i : Nat) : Nat :=
  i * l.superpageSize

/-- Where the superpages begin, in rising order. -/
def offsets (l : Layout) : List Nat :=
  (List.range l.count).map l.offset

/-- Whether a superpage begins at `o`. -/
def contains (l : Layout) (o : Nat) : Bool :=
  o % l.superpageSize = 0 && o / l.superpageSize < l.count

/-- The bytes that the superpages take up. -/
def bytes (l : Layout) : Nat :=
  l.count * l.superpageSize

@[simp] theorem length_offsets (l : Layout) : l.offsets.length = l.count := by
  simp [offsets]

theorem contains_iff_mem (l : Layout) (o : Nat) : l.contains o = true ↔ o ∈ l.offsets := by
  simp only [contains, offsets, offset, Bool.and_eq_true, decide_eq_true_eq, List.mem_map,
    List.mem_range]
  constructor
  · rintro ⟨h0, hlt⟩
    exact ⟨o / l.superpageSize, hlt, Nat.div_mul_cancel (Nat.dvd_of_mod_eq_zero h0)⟩
  · rintro ⟨i, hi, rfl⟩
    exact ⟨Nat.mul_mod_left i _, by rwa [Nat.mul_div_cancel i l.superpage_pos]⟩

end Layout

end DmaReadout
