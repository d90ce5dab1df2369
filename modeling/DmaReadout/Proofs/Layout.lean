import DmaReadout.Layout
import Mathlib.Data.List.Intervals
import Mathlib.Order.Interval.Finset.Nat

/-! # Superpages in circulation

Superpages that are used one after the other, and from the beginning again after the last one, are
counted through: superpage `n` of this count is superpage `n % count` of the buffer. Pages are counted
in the same way.

* `Layout.nth`: where superpage `n` of the count begins; `Layout.stretch`: the superpages from one
  number up to another; `stretch_perm`: `count` of them in a row are all superpages of the buffer.
* `Layout.descriptors`: such superpages in the queue of a channel that has filled some of them.
* `Layout.position`: where page `e` of the count begins; `position_disjoint`: pages less than one round
  apart do not overlap. -/

namespace DmaReadout

namespace Layout

variable (l : Layout)

theorem pagesPerSuperpage_mul : l.pagesPerSuperpage * l.pageSize = l.superpageSize :=
  Nat.div_mul_cancel (Nat.dvd_of_mod_eq_zero l.page_dvd)

theorem pagesPerSuperpage_pos : 0 < l.pagesPerSuperpage :=
  Nat.div_pos (Nat.le_of_dvd l.superpage_pos (Nat.dvd_of_mod_eq_zero l.page_dvd)) l.page_pos

/-! ### Superpages -/

/-- Where superpage `n` of the count begins. -/
def nth (n : Nat) : Nat :=
  l.offset (n % l.count)

/-- Where the superpages from number `a` up to number `b` begin. -/
def stretch (a b : Nat) : List Nat :=
  (List.Ico a b).map l.nth

/-- The superpages from number `a` up to number `b` in the queue of a channel that has filled all of
them below number `filled`. -/
def descriptors (filled a b : Nat) : List Superpage :=
  (List.Ico a b).map fun n =>
    ⟨l.nth n, l.superpageSize, if n < filled then l.superpageSize else 0⟩

theorem nth_add_le (n : Nat) : l.nth n + l.superpageSize ≤ l.bytes := by
  have h := Nat.mod_lt n l.count_pos
  calc l.nth n + l.superpageSize = (n % l.count + 1) * l.superpageSize := by
        rw [nth, offset, Nat.succ_mul]
    _ ≤ l.bytes := Nat.mul_le_mul_right _ h

@[simp] theorem length_stretch (a b : Nat) : (l.stretch a b).length = b - a := by
  simp [stretch]

theorem stretch_eq_nil {a b : Nat} (h : b ≤ a) : l.stretch a b = [] := by
  rw [stretch, List.Ico.eq_nil_of_le h, List.map_nil]

theorem stretch_one (a : Nat) : l.stretch a (a + 1) = [l.nth a] := by
  rw [stretch, List.Ico.succ_singleton, List.map_singleton]

theorem stretch_cons {a b : Nat} (h : a < b) : l.stretch a b = l.nth a :: l.stretch (a + 1) b := by
  rw [stretch, List.Ico.eq_cons h, List.map_cons, stretch]

/-- A stretch that is not empty begins with the superpage of its first number. -/
theorem stretch_eq_cons {a b offset : Nat} {rest : List Nat} (h : l.stretch a b = offset :: rest) :
    a < b ∧ offset = l.nth a ∧ rest = l.stretch (a + 1) b := by
  have hlt : a < b := by
    by_contra hle
    rw [l.stretch_eq_nil (Nat.not_lt.1 hle)] at h
    cases h
  obtain ⟨hoff, hrest⟩ := List.cons.inj (h.symm.trans (l.stretch_cons hlt))
  exact ⟨hlt, hoff, hrest⟩

theorem stretch_succ {a b : Nat} (h : a ≤ b) : l.stretch a (b + 1) = l.stretch a b ++ [l.nth b] := by
  rw [stretch, List.Ico.succ_top h, List.map_append, List.map_singleton, stretch]

theorem stretch_append {a b c : Nat} (hab : a ≤ b) (hbc : b ≤ c) :
    l.stretch a b ++ l.stretch b c = l.stretch a c := by
  rw [stretch, stretch, ← List.map_append, List.Ico.append_consecutive hab hbc, stretch]

theorem stretch_round : l.stretch 0 l.count = l.offsets := by
  rw [stretch, List.Ico.zero_bot, offsets]
  refine List.map_congr_left fun n hn => ?_
  rw [nth, Nat.mod_eq_of_lt (List.mem_range.1 hn)]

/-- As many superpages in a row as the buffer has are all superpages of the buffer. -/
theorem stretch_perm (n : Nat) : (l.stretch n (n + l.count)).Perm l.offsets := by
  have h : ((List.Ico n (n + l.count)).map (· % l.count)).Perm (List.range l.count) :=
    Multiset.coe_eq_coe.1 (Nat.multiset_Ico_map_mod n l.count)
  have := h.map l.offset
  rwa [List.map_map] at this

theorem nodup_offsets : l.offsets.Nodup :=
  List.nodup_range.map fun _ _ h => Nat.eq_of_mul_eq_mul_right l.superpage_pos h

theorem drop_stretch {a k b : Nat} (h : a + k ≤ b) :
    (l.stretch a b).drop k = l.stretch (a + k) b := by
  rw [← l.stretch_append (Nat.le_add_right a k) h,
    List.drop_left' (by rw [length_stretch, Nat.add_sub_cancel_left])]

theorem descriptors_cons (filled : Nat) {a b : Nat} (h : a < b) :
    l.descriptors filled a b =
      ⟨l.nth a, l.superpageSize, if a < filled then l.superpageSize else 0⟩ ::
        l.descriptors filled (a + 1) b := by
  rw [descriptors, List.Ico.eq_cons h, List.map_cons, descriptors]

/-- A superpage that is pushed to the channel is not filled yet. -/
theorem descriptors_succ {filled a b : Nat} (hab : a ≤ b) (hf : filled ≤ b) :
    l.descriptors filled a (b + 1) =
      l.descriptors filled a b ++ [⟨l.nth b, l.superpageSize, 0⟩] := by
  rw [descriptors, List.Ico.succ_top hab, List.map_append, List.map_singleton,
    if_neg (Nat.not_lt.2 hf), descriptors]

theorem map_offset_descriptors (filled a b : Nat) :
    (l.descriptors filled a b).map (·.offset) = l.stretch a b := by
  rw [descriptors, List.map_map, stretch]
  rfl

/-! ### Pages -/

/-- The number of pages in the buffer. -/
def pages : Nat :=
  l.count * l.pagesPerSuperpage

/-- Where page `e` of the count begins. -/
def position (e : Nat) : Nat :=
  e % l.pages * l.pageSize

theorem pages_pos : 0 < l.pages :=
  Nat.mul_pos l.count_pos l.pagesPerSuperpage_pos

theorem pages_mul : l.pages * l.pageSize = l.bytes := by
  rw [pages, Nat.mul_assoc, pagesPerSuperpage_mul, bytes]

/-- The superpage that a page is in, and its place there. -/
theorem div_mod_page (n : Nat) {i : Nat} (h : i < l.pagesPerSuperpage) :
    (n * l.pagesPerSuperpage + i) / l.pagesPerSuperpage = n ∧
      (n * l.pagesPerSuperpage + i) % l.pagesPerSuperpage = i := by
  constructor
  · rw [Nat.mul_comm, Nat.mul_add_div l.pagesPerSuperpage_pos, Nat.div_eq_of_lt h, Nat.add_zero]
  · rw [Nat.mul_comm, Nat.mul_add_mod, Nat.mod_eq_of_lt h]

/-- The pages of a superpage of the count follow one another. -/
theorem position_eq (n : Nat) {i : Nat} (h : i < l.pagesPerSuperpage) :
    l.position (n * l.pagesPerSuperpage + i) = l.nth n + i * l.pageSize := by
  have hmod : (n * l.pagesPerSuperpage + i) % l.pages =
      n % l.count * l.pagesPerSuperpage + i := by
    obtain ⟨hdiv, hrem⟩ := l.div_mod_page n h
    rw [pages, Nat.mul_comm l.count, Nat.mod_mul, hdiv, hrem, Nat.mul_comm, Nat.add_comm]
  rw [position, hmod, Nat.add_mul, Nat.mul_assoc, pagesPerSuperpage_mul, nth, offset]

theorem position_add_le (e : Nat) : l.position e + l.pageSize ≤ l.bytes := by
  have h := Nat.mod_lt e l.pages_pos
  calc l.position e + l.pageSize = (e % l.pages + 1) * l.pageSize := by
        rw [position, Nat.succ_mul]
    _ ≤ l.pages * l.pageSize := Nat.mul_le_mul_right _ h
    _ = l.bytes := l.pages_mul

/-- Pages less than one round apart do not overlap. -/
theorem position_disjoint {a e : Nat} (hae : a < e) (hea : e < a + l.pages) :
    l.position a + l.pageSize ≤ l.position e ∨ l.position e + l.pageSize ≤ l.position a := by
  have hne : a % l.pages ≠ e % l.pages := by
    intro h
    have hdvd : l.pages ∣ e - a :=
      Nat.dvd_of_mod_eq_zero (Nat.sub_mod_eq_zero_of_mod_eq h.symm)
    have := Nat.le_of_dvd (by omega) hdvd
    omega
  unfold position
  rcases Nat.lt_or_gt_of_ne hne with h | h
  · exact Or.inl (by rw [← Nat.succ_mul]; exact Nat.mul_le_mul_right _ h)
  · exact Or.inr (by rw [← Nat.succ_mul]; exact Nat.mul_le_mul_right _ h)

end Layout

end DmaReadout
