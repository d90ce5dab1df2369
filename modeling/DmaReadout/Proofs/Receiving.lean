import DmaReadout.Channel.Scripted
import DmaReadout.Proofs.Emulated

/-! # Channels that receive pages

A channel may fill its superpages slowly, out of step with the tasks, and stop in the middle of one.
What can be counted all the same are the pages that it has received, if it receives whole pages and
gives superpages back in the order of pushing.

* `Superpage.OnLayout`: a superpage of a layout that has received whole pages; `Layout.pagesIn`: the
  pages that superpages have received.
* `Intake`: what is known of a channel at any time; `Intake.Receives`: what the calls do to it.
* `thread_balance`: filling superpages in order keeps a balance that filling one keeps.
* `Emulated.receives`, `Scripted.receives`: emulated channels, and scripted ones with a page budget. -/

namespace DmaReadout

/-! ### Superpages that receive pages -/

/-- A superpage of a layout that has received whole pages of it. -/
structure Superpage.OnLayout (l : Layout) (s : Superpage) : Prop where
  offset_mem : s.offset ∈ l.offsets
  size_eq : s.size = l.superpageSize
  received_le : s.received ≤ l.superpageSize
  page_dvd : l.pageSize ∣ s.received

namespace Superpage.OnLayout

variable {l : Layout} {s : Superpage}

theorem empty {o : Nat} (h : o ∈ l.offsets) : OnLayout l ⟨o, l.superpageSize, 0⟩ :=
  ⟨h, rfl, Nat.zero_le _, Nat.dvd_zero _⟩

/-- A filled superpage has received all its pages. -/
theorem pages_of_filled (h : s.OnLayout l) (hs : s.isFilled = true) :
    s.received / l.pageSize = l.pagesPerSuperpage := by
  have hle : s.size ≤ s.received := of_decide_eq_true hs
  rw [h.size_eq] at hle
  rw [Nat.le_antisymm h.received_le hle, Layout.pagesPerSuperpage]

theorem missing_dvd (h : s.OnLayout l) : l.pageSize ∣ s.size - s.received := by
  rw [h.size_eq]
  exact Nat.dvd_sub (Nat.dvd_of_mod_eq_zero l.page_dvd) h.page_dvd

theorem receive (h : s.OnLayout l) {n : Nat} (hn : n ≤ (s.size - s.received) / l.pageSize) :
    OnLayout l { s with received := s.received + n * l.pageSize } := by
  have hmul := Nat.mul_le_of_le_div _ _ _ hn
  rw [h.size_eq] at hmul
  have hle := h.received_le
  refine ⟨h.offset_mem, h.size_eq, ?_, Nat.dvd_add h.page_dvd (Nat.dvd_mul_left _ _)⟩
  show s.received + n * l.pageSize ≤ l.superpageSize
  omega

theorem end_le (h : s.OnLayout l) : s.offset + s.size ≤ l.bytes := by
  obtain ⟨i, hi, hoff⟩ := List.mem_map.1 h.offset_mem
  rw [← hoff, h.size_eq, Layout.offset, ← Nat.succ_mul]
  exact Nat.mul_le_mul_right _ (List.mem_range.1 hi)

theorem pageSize_dvd_offset (h : s.OnLayout l) : l.pageSize ∣ s.offset := by
  obtain ⟨i, -, hoff⟩ := List.mem_map.1 h.offset_mem
  rw [← hoff]
  exact (Nat.dvd_of_mod_eq_zero l.page_dvd).mul_left i

end Superpage.OnLayout

namespace Layout

variable (l : Layout)

/-- The pages that superpages have received. -/
def pagesIn : List Superpage → Nat
  | [] => 0
  | s :: queue => s.received / l.pageSize + pagesIn queue

@[simp] theorem pagesIn_cons (s : Superpage) (queue : List Superpage) :
    l.pagesIn (s :: queue) = s.received / l.pageSize + l.pagesIn queue := rfl

/-- A superpage that is pushed has received nothing. -/
theorem pagesIn_push (queue : List Superpage) (o size : Nat) :
    l.pagesIn (queue ++ [⟨o, size, 0⟩]) = l.pagesIn queue := by
  induction queue with
  | nil => rw [List.nil_append, pagesIn_cons, Nat.zero_div, Nat.zero_add]
  | cons s queue ih => rw [List.cons_append, pagesIn_cons, pagesIn_cons, ih]

end Layout

/-! ### What is known of a channel -/

/-- What is known of the channels of a kind at any time. -/
structure Intake (σ : Type) where
  /-- What holds between two calls. -/
  sound : σ → Prop
  /-- Whether the transfer is off. -/
  halted : σ → Prop
  /-- The queued superpages, the oldest first. -/
  queue : σ → List Superpage
  /-- The pages received so far. -/
  received : σ → Nat

/-- A change of a channel that receives no page and moves no superpage. -/
def Intake.Keeps {σ : Type} (a : Intake σ) (c c' : σ) : Prop :=
  a.sound c → a.sound c' ∧ a.queue c' = a.queue c ∧ a.received c' = a.received c

/-- Channels that receive whole pages of a layout, into any of their superpages, and give superpages
back in the order of pushing; when they are stopped, as many as they have. -/
structure Intake.Receives {σ : Type} [Channel σ] (a : Intake σ) (l : Layout) : Prop where
  onLayout : ∀ {c}, a.sound c → ∀ s ∈ a.queue c, s.OnLayout l
  head?_eq : ∀ {c s}, a.sound c → Channel.head? c = some s → (a.queue c).head? = some s
  withBar : ∀ c bar, a.Keeps c (Channel.withBar c bar)
  start : ∀ c, (Channel.start c).1 = .ok () → a.Keeps c (Channel.start c).2
  stop : ∀ c, a.Keeps c (Channel.stop c).2
  stop_halts : ∀ c, a.halted (Channel.stop c).2
  push : ∀ {c o}, a.sound c → o ∈ l.offsets →
    (Channel.push c ⟨o, l.superpageSize, 0⟩).1 = .ok () →
    a.sound (Channel.push c ⟨o, l.superpageSize, 0⟩).2 ∧
      a.queue (Channel.push c ⟨o, l.superpageSize, 0⟩).2 =
        a.queue c ++ [⟨o, l.superpageSize, 0⟩] ∧
      a.received (Channel.push c ⟨o, l.superpageSize, 0⟩).2 = a.received c
  fill : ∀ {c m}, a.sound c → l.bytes ≤ Memory.size m →
    a.sound (Channel.fill c m).1 ∧ (Channel.fill c m).2.size = m.size ∧
      a.received (Channel.fill c m).1 + l.pagesIn (a.queue c) =
        a.received c + l.pagesIn (a.queue (Channel.fill c m).1)
  pop_some : ∀ {c s}, a.sound c → (Channel.pop c).1 = some s →
    a.sound (Channel.pop c).2 ∧ a.queue c = s :: a.queue (Channel.pop c).2 ∧
      a.received (Channel.pop c).2 = a.received c
  pop_none : ∀ {c}, (Channel.pop c).1 = none → a.Keeps c (Channel.pop c).2
  pop_halted : ∀ {c}, a.halted c →
    a.halted (Channel.pop c).2 ∧ ((Channel.pop c).1 = none → a.queue c = [])

/-- If filling one superpage keeps the balance of what is counted and what has arrived, then so does
filling superpages in order. -/
theorem thread_balance {τ : Type} (l : Layout) (f : τ → Superpage → Superpage × τ)
    (state : τ → Prop) (good : Superpage → Prop) (count : τ → Nat)
    (hf : ∀ t s, state t → good s → state (f t s).2 ∧ good (f t s).1 ∧
      count (f t s).2 + s.received / l.pageSize = count t + (f t s).1.received / l.pageSize) :
    ∀ (queue : List Superpage) (t : τ), state t → (∀ s ∈ queue, good s) →
      state (thread f t queue).2 ∧ (∀ s ∈ (thread f t queue).1, good s) ∧
        count (thread f t queue).2 + l.pagesIn queue =
          count t + l.pagesIn (thread f t queue).1
  | [], t, ht, _ => ⟨ht, nofun, rfl⟩
  | s :: queue, t, ht, hgood => by
    -- the rest of the queue goes on from the state that the first superpage has left
    obtain ⟨hstate, hs, hone⟩ := hf t s ht (hgood s List.mem_cons_self)
    obtain ⟨hend, hall, hrest⟩ := thread_balance l f state good count hf queue (f t s).2 hstate
      fun x hx => hgood x (List.mem_cons_of_mem _ hx)
    rw [thread]
    refine ⟨hend, fun x hx => ?_, ?_⟩
    · rcases List.mem_cons.1 hx with rfl | hx
      · exact hs
      · exact hall x hx
    · simp only [Layout.pagesIn_cons]
      omega

/-! ### Emulated channels -/

/-- The pages are counted as they are written, if all of them can be viewed. -/
theorem Generator.generated_writePages {g : Generator} {m : Memory} (n : Nat) {offset : Nat}
    (aligned : g.pageSize % 4 = 0) (hoff : offset % 4 = 0)
    (addressable : offset + n * g.pageSize < 2 ^ 64) (hm : offset + n * g.pageSize ≤ m.size) :
    (g.writePages m offset n).1.generated = g.generated + n := by
  induction n generalizing g m offset with
  | zero => rfl
  | succ n ih =>
    rw [Nat.succ_mul] at addressable hm
    have hview : m.view offset g.pageSize = .ok ⟨offset / 4, g.pageSize / 4⟩ :=
      Memory.view_eq_ok_iff.2 ⟨by omega, by omega, hoff, aligned, rfl⟩
    have hone : (g.writePage m offset).1 = g.advance := by
      unfold writePage
      rw [hview]
    rw [writePages_succ, hone, ih, show g.advance.generated = g.generated + 1 from rfl]
    · omega
    · exact aligned
    · omega
    · show offset + g.pageSize + n * g.pageSize < 2 ^ 64
      omega
    · rw [size_writePage]
      show offset + g.pageSize + n * g.pageSize ≤ m.size
      omega

namespace Emulated

variable {l : Layout}

/-- The pages that emulated channels have written. -/
def intake (l : Layout) : Intake Emulated where
  sound c := c.generator.pageSize = l.pageSize ∧
    ∀ s ∈ c.queue.toList, s.OnLayout l ∧ s.offset + s.size < 2 ^ 64
  halted c := c.running = false
  queue c := c.queue.toList
  received c := c.generator.generated

/-- The pages that fill up a superpage are all written. -/
theorem fillOne_balance (aligned : l.pageSize % 4 = 0) {size : Nat} (hsize : l.bytes ≤ size)
    (t : Generator × Memory) (s : Superpage) (ht : t.1.pageSize = l.pageSize ∧ t.2.size = size)
    (hs : s.OnLayout l ∧ s.offset + s.size < 2 ^ 64) :
    ((fillOne t s).2.1.pageSize = l.pageSize ∧ (fillOne t s).2.2.size = size) ∧
      ((fillOne t s).1.OnLayout l ∧ (fillOne t s).1.offset + (fillOne t s).1.size < 2 ^ 64) ∧
      (fillOne t s).2.1.generated + s.received / l.pageSize =
        t.1.generated + (fillOne t s).1.received / l.pageSize := by
  obtain ⟨g, m⟩ := t
  obtain ⟨hg, hm⟩ : g.pageSize = l.pageSize ∧ m.size = size := ht
  obtain ⟨hl, haddr⟩ := hs
  unfold fillOne
  dsimp only
  split
  · exact ⟨⟨hg, hm⟩, ⟨hl, haddr⟩, rfl⟩
  · have hmul : missingPages g.pageSize s * g.pageSize = s.size - s.received := by
      rw [missingPages, hg]
      exact Nat.div_mul_cancel hl.missing_dvd
    have hle : s.received ≤ s.size := hl.size_eq ▸ hl.received_le
    -- the pages that are missing can all be viewed, and so each of them is counted
    have hend := hl.end_le
    have hoff : (s.offset + s.received) % 4 = 0 := by
      have hpage := Nat.dvd_of_mod_eq_zero aligned
      exact Nat.mod_eq_zero_of_dvd
        (Nat.dvd_add (hpage.trans hl.pageSize_dvd_offset) (hpage.trans hl.page_dvd))
    have hcount := Generator.generated_writePages (g := g) (m := m) (missingPages g.pageSize s)
      (hg ▸ aligned) hoff (by omega) (by omega)
    refine ⟨⟨?_, (Generator.size_writePages _ _ _ _).trans hm⟩, ⟨?_, haddr⟩, ?_⟩
    · rw [Generator.pageSize_writePages, hg]
    · rw [Generator.pageSize_writePages, hg]
      exact hl.receive le_rfl
    · show (g.writePages m _ _).1.generated + _ = g.generated + _
      rw [hcount, Generator.pageSize_writePages, hg, Nat.add_mul_div_right _ _ l.page_pos]
      omega

theorem pop_cases (c : Emulated) :
    (∃ s, c.queue.toList = s :: c.queue.tail.toList ∧ c.pop = (some s, c.withQueue c.queue.tail)) ∨
    c.pop = (none, c) ∧ (c.running = false → c.queue.toList = []) := by
  rcases c.queue.head_cases with ⟨-, hnil⟩ | ⟨s, hhead, hq⟩
  · exact Or.inr ⟨pop_of_nil hnil, fun _ => hnil⟩
  · by_cases hs : (s.isFilled || !c.running) = true
    · exact Or.inl ⟨s, hq, pop_of_complete hq hs⟩
    · refine Or.inr ⟨?_, fun hrun => absurd (by rw [hrun, Bool.not_false, Bool.or_true]) hs⟩
      unfold pop
      rw [hhead]
      exact if_neg hs

theorem fill_of_stopped {c : Emulated} (hc : c.running = false) (m : Memory) : c.fill m = (c, m) := by
  obtain ⟨g, b, q, n, running, bar⟩ := c
  subst hc
  rfl

theorem start_of_ok {c : Emulated} (h : c.start.1 = .ok ()) :
    c.start.2 = { c with running := true } := by
  unfold start at h ⊢
  split at h
  · cases h
  · rename_i hrun
    rw [if_neg hrun]

theorem push_of_ok {c : Emulated} {s : Superpage} (h : (c.push s).1 = .ok ()) :
    c.fits s = true ∧ (c.push s).2 = c.withQueue (c.queue.push ⟨s.offset, s.size, 0⟩) := by
  unfold push at h ⊢
  split at h
  · cases h
  rename_i hroom
  split at h
  · cases h
  rename_i hfits
  rw [if_neg hroom, if_neg hfits]
  exact ⟨by simpa using hfits, rfl⟩

/-- **An emulated channel** of the page size of a layout counts the pages that it receives. -/
theorem receives (aligned : l.pageSize % 4 = 0) : (intake l).Receives l where
  onLayout h s hs := (h.2 s hs).1
  head?_eq _ h := (Fifo.head?_toList _).trans h
  withBar c bar h := ⟨h, rfl, rfl⟩
  start c hok h := by
    rw [show (Channel.start c).2 = _ from start_of_ok hok]
    exact ⟨h, rfl, rfl⟩
  stop c h := ⟨h, rfl, rfl⟩
  stop_halts c := rfl
  push {c o} h ho hok := by
    obtain ⟨hfits, hpush⟩ := push_of_ok hok
    have haddr : o + l.superpageSize < 2 ^ 64 := by
      simp only [fits, Bool.and_eq_true, decide_eq_true_eq] at hfits
      exact hfits.1.2
    rw [show (Channel.push c ⟨o, l.superpageSize, 0⟩).2 = _ from hpush]
    refine ⟨⟨h.1, fun s hs => ?_⟩, Fifo.toList_push _ _, rfl⟩
    rcases List.mem_append.1 ((Fifo.toList_push c.queue _) ▸ hs) with hs | hs
    · exact h.2 s hs
    · obtain rfl := List.mem_singleton.1 hs
      exact ⟨.empty ho, haddr⟩
  fill {c m} h hm := by
    cases hc : c.running with
    | false =>
      rw [show Channel.fill c m = _ from fill_of_stopped hc m]
      exact ⟨h, rfl, rfl⟩
    | true =>
      obtain ⟨q, hfill, hq⟩ := fill_eq hc m
      obtain ⟨⟨hg, hsize⟩, hall, hbalance⟩ := thread_balance l fillOne
        (fun t => t.1.pageSize = l.pageSize ∧ t.2.size = m.size)
        (fun s => s.OnLayout l ∧ s.offset + s.size < 2 ^ 64) (·.1.generated)
        (fillOne_balance aligned hm) c.queue.toList (c.generator, m) ⟨h.1, rfl⟩ h.2
      rw [← hq] at hall hbalance
      rw [show Channel.fill c m = _ from hfill]
      exact ⟨⟨hg, hall⟩, hsize, hbalance⟩
  pop_some {c s} h hs := by
    rcases pop_cases c with ⟨x, hq, hpop⟩ | ⟨hpop, -⟩
    · obtain rfl : x = s := Option.some.inj ((congrArg Prod.fst hpop).symm.trans hs)
      rw [show Channel.pop c = _ from hpop]
      refine ⟨⟨h.1, fun y hy => h.2 y ?_⟩, hq, rfl⟩
      rw [hq]
      exact List.mem_cons_of_mem _ hy
    · cases (congrArg Prod.fst hpop).symm.trans hs
  pop_none {c} hnone h := by
    rcases pop_cases c with ⟨s, -, hpop⟩ | ⟨hpop, -⟩
    · cases (congrArg Prod.fst hpop).symm.trans hnone
    · rw [show Channel.pop c = _ from hpop]
      exact ⟨h, rfl, rfl⟩
  pop_halted {c} hc := by
    rcases pop_cases c with ⟨s, -, hpop⟩ | ⟨hpop, hnil⟩
    · rw [show Channel.pop c = _ from hpop]
      refine ⟨hc, fun hnone => ?_⟩
      cases hnone
    · rw [show Channel.pop c = _ from hpop]
      exact ⟨hc, fun _ => hnil hc⟩

end Emulated

/-! ### Scripted channels -/

namespace Scripted

variable {l : Layout} {budget : Nat}

/-- The pages of a budget that scripted channels have used up. -/
def intake (l : Layout) (budget : Nat) : Intake Scripted where
  sound c := c.pageSize = l.pageSize ∧ c.popRule ≠ .newest ∧
    (∃ left, c.budget? = some left ∧ left ≤ budget) ∧ ∀ s ∈ c.queue.toList, s.OnLayout l
  halted c := c.running = false
  queue c := c.queue.toList
  received c := budget - c.budget?.getD 0

theorem pagesToFill_eq {s : Superpage} (h : s.OnLayout l) :
    pagesToFill l.pageSize s = (s.size - s.received) / l.pageSize := by
  obtain ⟨k, hk⟩ := h.missing_dvd
  have hpos := l.page_pos
  rw [pagesToFill, hk, Nat.mul_div_cancel_left k hpos, Nat.add_sub_assoc hpos,
    Nat.mul_add_div hpos, Nat.div_eq_of_lt (by omega), Nat.add_zero]

/-- The pages that a superpage receives come off the budget. -/
theorem fillOne_balance (t : Option Nat) (s : Superpage) (ht : ∃ left, t = some left ∧ left ≤ budget)
    (hs : s.OnLayout l) :
    (∃ left, (fillOne l.pageSize t s).2 = some left ∧ left ≤ budget) ∧
      (fillOne l.pageSize t s).1.OnLayout l ∧
      budget - (fillOne l.pageSize t s).2.getD 0 + s.received / l.pageSize =
        budget - t.getD 0 + (fillOne l.pageSize t s).1.received / l.pageSize := by
  obtain ⟨left, rfl, hle⟩ := ht
  have hn := pagesToFill_eq hs
  refine ⟨⟨left - min left (pagesToFill l.pageSize s), rfl, by omega⟩, ?_, ?_⟩
  · exact hs.receive (n := min left (pagesToFill l.pageSize s)) (hn ▸ Nat.min_le_right _ _)
  · show budget - (left - min left (pagesToFill l.pageSize s)) + _ =
      budget - left + (s.received + min left (pagesToFill l.pageSize s) * l.pageSize) / l.pageSize
    rw [Nat.add_mul_div_right _ _ l.page_pos]
    omega

theorem popOldest_cases (c : Scripted) :
    (∃ s, c.queue.toList = s :: c.queue.tail.toList ∧
      c.popOldest = (some s, { c with queue := c.queue.tail })) ∨
    c.popOldest = (none, c) ∧ (c.running = false → c.queue.toList = []) := by
  rcases c.queue.head_cases with ⟨hhead, hnil⟩ | ⟨s, hhead, hq⟩
  · refine Or.inr ⟨?_, fun _ => hnil⟩
    rw [popOldest, hhead]
  · by_cases hs : (s.isFilled || !c.running) = true
    · refine Or.inl ⟨s, hq, ?_⟩
      rw [popOldest, hhead]
      exact if_pos hs
    · refine Or.inr ⟨?_, fun hrun => absurd (by rw [hrun, Bool.not_false, Bool.or_true]) hs⟩
      rw [popOldest, hhead]
      exact if_neg hs

theorem pop_cases {c : Scripted} (h : c.popRule ≠ .newest ∨ c.running = false) :
    (∃ s, c.queue.toList = s :: c.queue.tail.toList ∧
      c.pop = (some s, { c with queue := c.queue.tail })) ∨
    c.pop = (none, c) ∧ (c.running = false → c.queue.toList = []) := by
  have hpop : c.pop = c.popOldest ∨ c.running = true ∧ c.pop = (none, c) := by
    unfold pop
    split
    · rename_i hrun
      split
      · exact Or.inl rfl
      · exact Or.inr ⟨hrun, rfl⟩
      · rename_i hrule
        exact absurd hrule (h.resolve_right (by rw [hrun]; nofun))
    · exact Or.inl rfl
  rcases hpop with hpop | ⟨hrun, hpop⟩
  · rw [hpop]
    exact popOldest_cases c
  · exact Or.inr ⟨hpop, fun hstop => nomatch hrun.symm.trans hstop⟩

theorem start_of_ok {c : Scripted} (h : c.start.1 = .ok ()) :
    c.start.2 = { c with running := true } := by
  unfold start at h ⊢
  split at h
  · cases h
  · rename_i hgood
    rw [if_neg hgood]

theorem push_of_ok {c : Scripted} {s : Superpage} (h : (c.push s).1 = .ok ()) :
    (c.push s).2 = { c with queue := c.queue.push s, pushes := c.pushes + 1 } := by
  unfold push at h ⊢
  dsimp only at h ⊢
  split at h
  · cases h
  · rename_i haccepted
    rw [if_neg haccepted]
    rfl

theorem fill_cases (c : Scripted) (m : Memory) :
    c.fill m = (c, m) ∨ ∃ q, c.fill m =
      ({ c with queue := q, budget? := (thread (fillOne c.pageSize) c.budget? c.queue.toList).2 }, m) ∧
        q.toList = (thread (fillOne c.pageSize) c.budget? c.queue.toList).1 := by
  have h := Fifo.updateUnless_eq c.budget? c.queue fun _ hs => fillOne_of_isFilled c.pageSize _ hs
  unfold fill
  split
  · refine Or.inr ⟨_, ?_, congrArg Prod.fst h⟩
    rw [← congrArg Prod.snd h]
  · exact Or.inl rfl

/-- **A scripted channel with a page budget** of the page size of a layout uses it up for the pages that
it receives, unless it gives back the superpage that was pushed last. -/
theorem receives : (intake l budget).Receives l where
  onLayout h := h.2.2.2
  head?_eq {c s} _ h := by
    change (if c.hidesHead then none else c.queue.head?) = some s at h
    split at h
    · cases h
    · exact (Fifo.head?_toList _).trans h
  withBar c bar h := ⟨h, rfl, rfl⟩
  start c hok h := by
    rw [show (Channel.start c).2 = _ from start_of_ok hok]
    exact ⟨h, rfl, rfl⟩
  stop c h := ⟨h, rfl, rfl⟩
  stop_halts c := rfl
  push {c o} h ho hok := by
    obtain ⟨hsize, hrule, hbudget, hall⟩ := h
    rw [show (Channel.push c ⟨o, l.superpageSize, 0⟩).2 = _ from push_of_ok hok]
    refine ⟨⟨hsize, hrule, hbudget, fun s hs => ?_⟩, Fifo.toList_push _ _, rfl⟩
    rcases List.mem_append.1 ((Fifo.toList_push c.queue _) ▸ hs) with hs | hs
    · exact hall s hs
    · obtain rfl := List.mem_singleton.1 hs
      exact .empty ho
  fill {c m} h _ := by
    obtain ⟨hsize, hrule, hbudget, hall⟩ := h
    rcases fill_cases c m with hfill | ⟨q, hfill, hq⟩
    · rw [show Channel.fill c m = _ from hfill]
      exact ⟨⟨hsize, hrule, hbudget, hall⟩, rfl, rfl⟩
    · rw [hsize] at hfill hq
      obtain ⟨hleft, hgood, hbalance⟩ := thread_balance l (fillOne l.pageSize)
        (fun t => ∃ left, t = some left ∧ left ≤ budget) (·.OnLayout l)
        (fun t => budget - t.getD 0) fillOne_balance c.queue.toList c.budget? hbudget hall
      rw [← hq] at hgood hbalance
      rw [show Channel.fill c m = _ from hfill]
      exact ⟨⟨rfl, hrule, hleft, hgood⟩, rfl, hbalance⟩
  pop_some {c s} h hs := by
    obtain ⟨hsize, hrule, hbudget, hall⟩ := h
    rcases pop_cases (Or.inl hrule) with ⟨x, hq, hpop⟩ | ⟨hpop, -⟩
    · obtain rfl : x = s := Option.some.inj ((congrArg Prod.fst hpop).symm.trans hs)
      rw [show Channel.pop c = _ from hpop]
      refine ⟨⟨hsize, hrule, hbudget, fun y hy => hall y ?_⟩, hq, rfl⟩
      rw [hq]
      exact List.mem_cons_of_mem _ hy
    · cases (congrArg Prod.fst hpop).symm.trans hs
  pop_none {c} hnone h := by
    rcases pop_cases (Or.inl h.2.1) with ⟨s, -, hpop⟩ | ⟨hpop, -⟩
    · cases (congrArg Prod.fst hpop).symm.trans hnone
    · rw [show Channel.pop c = _ from hpop]
      exact ⟨h, rfl, rfl⟩
  pop_halted {c} hc := by
    rcases pop_cases (Or.inr hc) with ⟨s, -, hpop⟩ | ⟨hpop, hnil⟩
    · rw [show Channel.pop c = _ from hpop]
      refine ⟨hc, fun hnone => ?_⟩
      cases hnone
    · rw [show Channel.pop c = _ from hpop]
      exact ⟨hc, fun _ => hnil hc⟩

end Scripted

end DmaReadout
