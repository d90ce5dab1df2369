import DmaReadout.Channel.Emulated
import DmaReadout.Proofs.Layout

/-! # The emulated channel on a layout

A running channel that serves a layout (`Emulated.Serves`) takes its superpages and gives them back in
order.

* `Serves.push_of_room`, `pop_of_complete`: pushing with room, popping a superpage that is filled or in
  a channel that is stopped.
* `fill_descriptors`: a fill writes the superpages that were not filled yet, in the order of pushing
  (`Generator.writeStretch`). -/

namespace DmaReadout

/-! ### The generator -/

namespace Generator

@[simp] theorem pageSize_writePage (g : Generator) (m : Memory) (offset : Nat) :
    (g.writePage m offset).1.pageSize = g.pageSize := by
  unfold writePage
  split <;> rfl

/-- The next page goes behind the one written first. -/
theorem writePages_succ (g : Generator) (m : Memory) (offset n : Nat) :
    g.writePages m offset (n + 1) = (g.writePage m offset).1.writePages
      (g.writePage m offset).2 (offset + g.pageSize) n := by
  rw [← pageSize_writePage g m offset]
  rfl

@[simp] theorem pageSize_writePages (g : Generator) (m : Memory) (offset n : Nat) :
    (g.writePages m offset n).1.pageSize = g.pageSize := by
  induction n generalizing g m offset with
  | zero => rfl
  | succ n ih => rw [writePages_succ, ih, pageSize_writePage]

/-- The generator and the memory after the superpages from number `a` up to number `b` were written. -/
def writeStretch (l : Layout) (a b : Nat) (s : Generator × Memory) : Generator × Memory :=
  (List.Ico a b).foldl (fun s n => s.1.writePages s.2 (l.nth n) l.pagesPerSuperpage) s

theorem writeStretch_of_le (l : Layout) {a b : Nat} (h : b ≤ a) (s : Generator × Memory) :
    writeStretch l a b s = s := by
  rw [writeStretch, List.Ico.eq_nil_of_le h, List.foldl_nil]

theorem writeStretch_cons (l : Layout) {a b : Nat} (h : a < b) (s : Generator × Memory) :
    writeStretch l a b s =
      writeStretch l (a + 1) b (s.1.writePages s.2 (l.nth a) l.pagesPerSuperpage) := by
  rw [writeStretch, List.Ico.eq_cons h, List.foldl_cons, writeStretch]

/-- Writing keeps the size of pages and the size of the memory. -/
theorem writeStretch_sizes (l : Layout) (a b : Nat) (s : Generator × Memory) :
    (writeStretch l a b s).1.pageSize = s.1.pageSize ∧
      (writeStretch l a b s).2.size = s.2.size := by
  unfold writeStretch
  induction List.Ico a b generalizing s with
  | nil => exact ⟨rfl, rfl⟩
  | cons n ns ih =>
    obtain ⟨hp, hs⟩ := ih (s.1.writePages s.2 (l.nth n) l.pagesPerSuperpage)
    rw [List.foldl_cons, hp, hs]
    exact ⟨pageSize_writePages _ _ _ _, size_writePages _ _ _ _⟩

end Generator

namespace Emulated

/-- A running channel of a layout's page size, for a buffer that holds the layout. -/
structure Serves (l : Layout) (c : Emulated) : Prop where
  running : c.running = true
  pageSize_eq : c.generator.pageSize = l.pageSize
  bytes_le : l.bytes ≤ c.bufferSize
  capacity_pos : 0 < c.capacity

/-- The superpages in the queue of a channel. -/
def offsets (c : Emulated) : List Nat :=
  c.queue.toList.map (·.offset)

/-- The channel with other queued superpages. -/
def withQueue (c : Emulated) (q : Fifo Superpage) : Emulated :=
  { c with queue := q }

variable {l : Layout} {c : Emulated}

theorem Serves.withQueue (h : c.Serves l) (q : Fifo Superpage) : (c.withQueue q).Serves l :=
  ⟨h.running, h.pageSize_eq, h.bytes_le, h.capacity_pos⟩

/-- Channels are made for pages of whole words. -/
theorem create_eq_ok {family : Family} {size pageSize : Nat} {pattern : Pattern} :
    create family size pageSize pattern = .ok c ↔ (0 < pageSize ∧ pageSize % 4 = 0) ∧
      c = { generator := { family, pattern, pageSize }, bufferSize := size, bar := .zeroed family } := by
  unfold create
  split
  · rename_i hbad
    exact ⟨nofun, fun h => by omega⟩
  · rename_i hgood
    rw [Except.ok.injEq, eq_comm]
    exact ⟨fun h => ⟨by omega, h⟩, fun h => h.2⟩

/-- A channel of any capacity and fault interval, once it is started, serves every layout of its page
size that its buffer holds. -/
theorem serves_of_create {family : Family} {size : Nat} {pattern : Pattern}
    (h : create family size l.pageSize pattern = .ok c) (hl : l.bytes ≤ size)
    (capacity interval : Nat) :
    (((c.withCapacity capacity).withFaultInterval interval).start.2).Serves l := by
  obtain ⟨-, rfl⟩ := create_eq_ok.1 h
  exact ⟨rfl, rfl, hl, le_max_right capacity 1⟩

/-! ### Pushing and popping -/

theorem Serves.fits (h : c.Serves l) (hl : l.bytes < 2 ^ 64) (n received : Nat) :
    c.fits ⟨l.nth n, l.superpageSize, received⟩ = true := by
  have hn := l.nth_add_le n
  have hb := h.bytes_le
  have hs := l.superpage_pos
  simp only [Emulated.fits, Bool.and_eq_true, decide_eq_true_eq]
  exact ⟨⟨⟨by omega, by rw [h.pageSize_eq]; exact l.page_dvd⟩, by omega⟩, by omega⟩

/-- With room for it, a superpage of the layout is queued. -/
theorem Serves.push_of_room (h : c.Serves l) (hl : l.bytes < 2 ^ 64)
    (hroom : c.queue.toList.length < c.capacity) (n : Nat) :
    c.push ⟨l.nth n, l.superpageSize, 0⟩ =
      (.ok (), c.withQueue (c.queue.push ⟨l.nth n, l.superpageSize, 0⟩)) := by
  rw [Fifo.length_toList] at hroom
  unfold push
  rw [if_neg (Nat.not_le.2 hroom), h.fits hl]
  rfl

/-- The oldest superpage comes out, if it is filled or the channel is stopped. -/
theorem pop_of_complete {s : Superpage} {rest : List Superpage} (hq : c.queue.toList = s :: rest)
    (hs : (s.isFilled || !c.running) = true) : c.pop = (some s, c.withQueue c.queue.tail) := by
  have hhead : c.queue.head? = some s := by rw [← Fifo.head?_toList, hq, List.head?_cons]
  unfold pop
  rw [hhead]
  exact if_pos hs

theorem pop_of_nil (hq : c.queue.toList = []) : c.pop = (none, c) := by
  have hhead : c.queue.head? = none := by rw [← Fifo.head?_toList, hq, List.head?_nil]
  unfold pop
  rw [hhead]

/-! ### Filling -/

theorem fill_eq (hc : c.running = true) (m : Memory) :
    ∃ q, c.fill m =
        ({ c.withQueue q with
            generator := (thread fillOne (c.generator, m) c.queue.toList).2.1 },
          (thread fillOne (c.generator, m) c.queue.toList).2.2) ∧
      q.toList = (thread fillOne (c.generator, m) c.queue.toList).1 := by
  have h := Fifo.updateUnless_eq (c.generator, m) c.queue fun _ hs => fillOne_of_isFilled _ hs
  refine ⟨(c.queue.updateUnless Superpage.isFilled fillOne (c.generator, m)).1, ?_,
    congrArg Prod.fst h⟩
  rw [← congrArg Prod.snd h]
  obtain ⟨g, b, q, n, running, bar⟩ := c
  subst hc
  rfl

theorem fillOne_of_filled (s : Generator × Memory) (n : Nat) :
    fillOne s ⟨l.nth n, l.superpageSize, l.superpageSize⟩ =
      (⟨l.nth n, l.superpageSize, l.superpageSize⟩, s) :=
  fillOne_of_isFilled _ (decide_eq_true le_rfl)

/-- An empty superpage is filled with as many pages as it holds. -/
theorem fillOne_of_empty {s : Generator × Memory} (hs : s.1.pageSize = l.pageSize) (n : Nat) :
    fillOne s ⟨l.nth n, l.superpageSize, 0⟩ =
      (⟨l.nth n, l.superpageSize, l.superpageSize⟩,
        s.1.writePages s.2 (l.nth n) l.pagesPerSuperpage) := by
  obtain ⟨g, m⟩ := s
  have hg : g.pageSize = l.pageSize := hs
  have hn : missingPages g.pageSize ⟨l.nth n, l.superpageSize, 0⟩ = l.pagesPerSuperpage := by
    rw [missingPages, hg]
    rfl
  have hpos := l.pagesPerSuperpage_pos
  unfold fillOne
  simp only [hn]
  rw [if_neg (by omega)]
  simp only [Nat.zero_add, Nat.add_zero, Generator.pageSize_writePages, hg,
    l.pagesPerSuperpage_mul]

/-- Of the superpages in a queue, those that are not filled are written in order. -/
theorem thread_fillOne : ∀ (k : Nat) {a filled : Nat} {s : Generator × Memory},
    a ≤ filled → filled ≤ a + k → s.1.pageSize = l.pageSize →
      thread fillOne s (l.descriptors filled a (a + k)) =
        (l.descriptors (a + k) a (a + k), Generator.writeStretch l filled (a + k) s)
  | 0, a, filled, s, ha, hf, _ => by
    obtain rfl : filled = a := by omega
    rw [Nat.add_zero, Generator.writeStretch_of_le l le_rfl]
    simp [Layout.descriptors, thread]
  | k + 1, a, filled, s, ha, hf, hs => by
    have hlt : a < a + (k + 1) := by omega
    have hend : a + (k + 1) = a + 1 + k := by omega
    rw [l.descriptors_cons filled hlt, l.descriptors_cons (a + (k + 1)) hlt, if_pos hlt, thread]
    by_cases hfill : a < filled
    · rw [if_pos hfill, fillOne_of_filled, hend]
      simp only [thread_fillOne k hfill (hend ▸ hf) hs]
    · obtain rfl : a = filled := by omega
      have hs' : (s.1.writePages s.2 (l.nth a) l.pagesPerSuperpage).1.pageSize = l.pageSize := by
        rw [Generator.pageSize_writePages, hs]
      have hrest : l.descriptors a (a + 1) (a + 1 + k) =
          l.descriptors (a + 1) (a + 1) (a + 1 + k) := by
        refine List.map_congr_left fun n hn => ?_
        have := (List.Ico.mem.1 hn).1
        rw [if_neg (by omega), if_neg (by omega)]
      rw [if_neg hfill, fillOne_of_empty hs, Generator.writeStretch_cons l hlt, hend, hrest]
      simp only [thread_fillOne k le_rfl (Nat.le_add_right _ _) hs']

/-- A fill writes the superpages that were not filled, in the order of pushing. -/
theorem Serves.fill_descriptors (h : c.Serves l) (m : Memory) {filled a b : Nat}
    (hq : c.queue.toList = l.descriptors filled a b) (ha : a ≤ filled) (hb : filled ≤ b) :
    ∃ q, c.fill m =
        ({ c.withQueue q with
            generator := (Generator.writeStretch l filled b (c.generator, m)).1 },
          (Generator.writeStretch l filled b (c.generator, m)).2) ∧
      q.toList = l.descriptors b a b := by
  obtain ⟨k, rfl⟩ : ∃ k, b = a + k := ⟨b - a, by omega⟩
  obtain ⟨q, hfill, hlist⟩ := fill_eq h.running m
  rw [hq, thread_fillOne k ha hb h.pageSize_eq] at hfill hlist
  exact ⟨q, hfill, hlist⟩

end Emulated

end DmaReadout
