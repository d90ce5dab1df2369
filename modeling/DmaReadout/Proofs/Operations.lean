import DmaReadout.Proofs.Receiving
import DmaReadout.Proofs.Reclaim
import Mathlib.Algebra.Order.Ring.Int

/-! # The emulated channel under any operations

An emulated channel may be started and stopped, reset, pushed, filled and popped in any order, and its
capacity and fault interval may change at any time. The superpages that it accepts come out in the order
of pushing all the same, complete as long as it runs, and it writes nothing but the missing parts of
queued superpages.

* `Operation`, `Answer`, `Emulated.perform`: what can be asked of a channel and its buffer;
  `Emulated.performAll`: a history.
* `Superpage.Paged`: a queued superpage of whole pages; `word_thread_fillOne`: what a fill of a queue can
  change in the memory.
* `Emulated.Sound`: the invariant; `Sound.perform`, `perform_balance`: one operation;
  `Sound.performAll`, `performAll_balance`: any history.
* `operations`: the main statement. -/

namespace DmaReadout

/-! ### Operations -/

/-- What can be asked of a channel. -/
inductive Operation where
  | start
  | stop
  | reset
  | push (s : Superpage)
  | fill
  | pop
  | capacity (n : Nat)
  | faultInterval (n : Nat)
  deriving Repr, DecidableEq

/-- What comes of an operation. -/
inductive Answer where
  | done
  | refused (e : Error)
  | popped (s? : Option Superpage)
  deriving Repr, DecidableEq

namespace Answer

/-- The answer to a call that can fail. -/
def ofExcept : Except Error Unit → Answer
  | .ok () => done
  | .error e => refused e

end Answer

namespace Operation

/-- The superpage that a step of a history has put into the queue. -/
def accepted? : Operation × Answer → Option Superpage
  | (push s, .done) => some s
  | _ => none

/-- The superpage that a step of a history has taken out of the queue. -/
def popped? : Operation × Answer → Option Superpage
  | (pop, .popped s?) => s?
  | _ => none

/-- The capacity of a channel after an operation. -/
def capacityAfter (k : Nat) : Operation → Nat
  | capacity n => max n 1
  | _ => k

/-- Whether a channel is on after an operation. -/
def runningAfter (b : Bool) : Operation → Bool
  | start => true
  | stop => false
  | _ => b

end Operation

/-- The part of the buffer that a superpage takes up. -/
def Superpage.region (s : Superpage) : Nat × Nat := (s.offset, s.size)

namespace Emulated

/-- One operation on a channel and its buffer. -/
def perform (x : Emulated × Memory) : Operation → Answer × Emulated × Memory
  | .start => (.ofExcept x.1.start.1, x.1.start.2, x.2)
  | .stop => (.ofExcept x.1.stop.1, x.1.stop.2, x.2)
  | .reset => (.ofExcept x.1.reset.1, x.1.reset.2, x.2)
  | .push s => (.ofExcept (x.1.push s).1, (x.1.push s).2, x.2)
  | .fill => (.done, x.1.fill x.2)
  | .pop => (.popped x.1.pop.1, x.1.pop.2, x.2)
  | .capacity n => (.done, x.1.withCapacity n, x.2)
  | .faultInterval n => (.done, x.1.withFaultInterval n, x.2)

/-- The history of operations in order, and the channel and its buffer in the end. -/
def performAll (x : Emulated × Memory) :
    List Operation → List (Operation × Answer) × Emulated × Memory
  | [] => ([], x)
  | o :: ops =>
    let (answer, x) := perform x o
    let (history, x) := performAll x ops
    ((o, answer) :: history, x)

theorem performAll_cons (x : Emulated × Memory) (o : Operation) (ops : List Operation) :
    performAll x (o :: ops) =
      ((o, (perform x o).1) :: (performAll (perform x o).2 ops).1,
        (performAll (perform x o).2 ops).2) := rfl

end Emulated

/-! ### Filling superpages -/

/-- A superpage of whole pages, some of which it has received. -/
structure Superpage.Paged (pageSize : Nat) (s : Superpage) : Prop where
  received_le : s.received ≤ s.size
  size_dvd : pageSize ∣ s.size
  received_dvd : pageSize ∣ s.received

/-- A superpage that has received all of its bytes. -/
def Superpage.filled (s : Superpage) : Superpage := { s with received := s.size }

/-- Writing pages changes nothing outside of them. -/
theorem Generator.word_writePages (n : Nat) {g : Generator} {m : Memory} {offset j : Nat}
    (hj : (g.writePages m offset n).2.word j ≠ m.word j) :
    offset ≤ 4 * j ∧ 4 * j + 4 ≤ offset + n * g.pageSize := by
  induction n generalizing g m offset with
  | zero => exact absurd rfl hj
  | succ n ih =>
    rw [writePages_succ] at hj
    rw [Nat.succ_mul n]
    by_cases hone : (g.writePage m offset).2.word j = m.word j
    · -- the word is not on the first page, so it is on one of the others
      rw [← hone] at hj
      have hrest := ih hj
      rw [pageSize_writePage] at hrest
      omega
    · unfold writePage at hone
      split at hone
      · exact absurd rfl hone
      rename_i v hv
      obtain ⟨-, -, hoff, hpage, rfl⟩ := Memory.view_eq_ok_iff.1 hv
      rw [Memory.word_put] at hone
      have hin : offset / 4 ≤ j ∧ j < offset / 4 + g.pageSize / 4 := by
        by_contra hout
        rw [if_neg hout] at hone
        exact hone rfl
      omega

namespace Emulated

theorem snd_fillOne (t : Generator × Memory) (s : Superpage) :
    (fillOne t s).2 =
      t.1.writePages t.2 (s.offset + s.received) (missingPages t.1.pageSize s) := by
  obtain ⟨g, m⟩ := t
  unfold fillOne
  dsimp only
  split
  · rename_i hn
    rw [hn]
    rfl
  · rfl

theorem missingPages_mul {pageSize : Nat} {s : Superpage} (h : s.Paged pageSize) :
    missingPages pageSize s * pageSize = s.size - s.received :=
  Nat.div_mul_cancel (Nat.dvd_sub h.size_dvd h.received_dvd)

theorem fst_fillOne {t : Generator × Memory} {s : Superpage} (h : s.Paged t.1.pageSize) :
    (fillOne t s).1 = s.filled := by
  obtain ⟨g, m⟩ := t
  have hmul := missingPages_mul h
  have hle := h.received_le
  obtain ⟨o, size, received⟩ := s
  unfold fillOne
  dsimp only at hmul hle ⊢
  split
  · rename_i hn
    rw [hn, Nat.zero_mul] at hmul
    have : received = size := by omega
    rw [this]
    rfl
  · simp only [Generator.pageSize_writePages, hmul, Superpage.filled, Superpage.mk.injEq, true_and]
    omega

theorem pageSize_fillOne (t : Generator × Memory) (s : Superpage) :
    (fillOne t s).2.1.pageSize = t.1.pageSize := by
  rw [snd_fillOne, Generator.pageSize_writePages]

theorem size_fillOne (t : Generator × Memory) (s : Superpage) :
    (fillOne t s).2.2.size = t.2.size := by
  rw [snd_fillOne, Generator.size_writePages]

/-- Filling a superpage changes nothing but the part of it that was missing. -/
theorem word_fillOne {t : Generator × Memory} {s : Superpage} (h : s.Paged t.1.pageSize) {j : Nat}
    (hj : (fillOne t s).2.2.word j ≠ t.2.word j) :
    s.isFilled = false ∧ s.offset + s.received ≤ 4 * j ∧ 4 * j + 4 ≤ s.offset + s.size := by
  rw [snd_fillOne] at hj
  have hin := Generator.word_writePages _ hj
  rw [missingPages_mul h] at hin
  have hle := h.received_le
  refine ⟨decide_eq_false ?_, ?_, ?_⟩ <;> omega

/-- A fill completes all superpages of a queue. -/
theorem fst_thread_fillOne : ∀ (queue : List Superpage) {t : Generator × Memory},
    (∀ s ∈ queue, s.Paged t.1.pageSize) →
      (thread fillOne t queue).1 = queue.map Superpage.filled
  | [], _, _ => rfl
  | s :: queue, t, h => by
    have hrest : ∀ x ∈ queue, x.Paged (fillOne t s).2.1.pageSize := by
      intro x hx
      rw [pageSize_fillOne]
      exact h x (List.mem_cons_of_mem s hx)
    have hs := fst_fillOne (h s List.mem_cons_self)
    simp only [thread, hs, fst_thread_fillOne queue hrest, List.map_cons]

theorem thread_fillOne_sizes : ∀ (queue : List Superpage) (t : Generator × Memory),
    (thread fillOne t queue).2.1.pageSize = t.1.pageSize ∧
      (thread fillOne t queue).2.2.size = t.2.size
  | [], _ => ⟨rfl, rfl⟩
  | s :: queue, t => by
    obtain ⟨hpage, hsize⟩ := thread_fillOne_sizes queue (fillOne t s).2
    exact ⟨hpage.trans (pageSize_fillOne t s), hsize.trans (size_fillOne t s)⟩

/-- A fill changes nothing but the missing parts of superpages of the queue. -/
theorem word_thread_fillOne {j : Nat} : ∀ (queue : List Superpage) {t : Generator × Memory},
    (∀ s ∈ queue, s.Paged t.1.pageSize) →
    (thread fillOne t queue).2.2.word j ≠ t.2.word j →
      ∃ s ∈ queue, s.isFilled = false ∧ s.offset + s.received ≤ 4 * j ∧
        4 * j + 4 ≤ s.offset + s.size
  | [], _, _, hj => absurd rfl hj
  | s :: queue, t, h, hj => by
    by_cases hone : (fillOne t s).2.2.word j = t.2.word j
    · have hrest : ∀ x ∈ queue, x.Paged (fillOne t s).2.1.pageSize := by
        intro x hx
        rw [pageSize_fillOne]
        exact h x (List.mem_cons_of_mem s hx)
      rw [← hone] at hj
      obtain ⟨x, hx, hin⟩ := word_thread_fillOne queue hrest hj
      exact ⟨x, List.mem_cons_of_mem s hx, hin⟩
    · exact ⟨s, List.mem_cons_self, word_fillOne (h s List.mem_cons_self) hone⟩

/-! ### The invariant -/

/-- What holds of a channel and its buffer at any time. -/
structure Sound (pageSize : Nat) (x : Emulated × Memory) : Prop where
  pageSize_eq : x.1.generator.pageSize = pageSize
  bufferSize_eq : x.1.bufferSize = x.2.size
  paged : ∀ s ∈ x.1.queue.toList, s.Paged pageSize

variable {pageSize : Nat} {x : Emulated × Memory}

theorem Sound.queue_eq_fill (h : Sound pageSize x) (hrun : x.1.running = true) :
    (x.1.fill x.2).1.queue.toList = x.1.queue.toList.map Superpage.filled := by
  obtain ⟨q, hfill, hq⟩ := fill_eq hrun x.2
  rw [hfill]
  exact hq.trans (fst_thread_fillOne _ (h.pageSize_eq ▸ h.paged))

/-- What a fill leaves as it is. -/
theorem fill_rests (c : Emulated) (m : Memory) :
    (c.fill m).1.generator.pageSize = c.generator.pageSize ∧
      (c.fill m).1.bufferSize = c.bufferSize ∧ (c.fill m).1.capacity = c.capacity ∧
      (c.fill m).1.running = c.running ∧ (c.fill m).2.size = m.size := by
  cases hrun : c.running with
  | false =>
    rw [fill_of_stopped hrun]
    exact ⟨rfl, rfl, rfl, hrun, rfl⟩
  | true =>
    obtain ⟨q, hfill, -⟩ := fill_eq hrun m
    obtain ⟨hpage, hsize⟩ := thread_fillOne_sizes c.queue.toList (c.generator, m)
    rw [hfill]
    exact ⟨hpage, rfl, rfl, hrun, hsize⟩

/-! ### Single operations -/

theorem start_cases (c : Emulated) :
    c.running = true ∧ c.start = (.error (.channel .alreadyStarted), c) ∨
      c.running = false ∧ c.start = (.ok (), { c with running := true }) := by
  unfold start
  cases hrun : c.running with
  | true => exact Or.inl ⟨rfl, rfl⟩
  | false => exact Or.inr ⟨rfl, rfl⟩

theorem reset_cases (c : Emulated) :
    c.running = true ∧ c.reset = (.error (.channel .resetWhileRunning), c) ∨
      c.running = false ∧
        c.reset = (.ok (), { c with generator := { c.generator with counter := 0 } }) := by
  unfold reset
  cases hrun : c.running with
  | true => exact Or.inl ⟨rfl, rfl⟩
  | false => exact Or.inr ⟨rfl, rfl⟩

/-- What a channel asks of a superpage that is pushed. -/
def Takes (c : Emulated) (s : Superpage) : Prop :=
  c.queue.length < c.capacity ∧ s.size ≠ 0 ∧ c.generator.pageSize ∣ s.size ∧
    s.offset + s.size < 2 ^ 64 ∧ s.offset + s.size ≤ c.bufferSize

theorem fits_iff (c : Emulated) (s : Superpage) :
    c.fits s = true ↔ s.size ≠ 0 ∧ c.generator.pageSize ∣ s.size ∧
      s.offset + s.size < 2 ^ 64 ∧ s.offset + s.size ≤ c.bufferSize := by
  simp only [fits, Bool.and_eq_true, decide_eq_true_eq, Nat.dvd_iff_mod_eq_zero, and_assoc]
  rfl

theorem push_cases (c : Emulated) (s : Superpage) :
    c.Takes s ∧ c.push s = (.ok (), c.withQueue (c.queue.push ⟨s.offset, s.size, 0⟩)) ∨
      ¬ c.Takes s ∧ ∃ e, c.push s = (.error e, c) := by
  unfold push Takes
  rw [← fits_iff]
  by_cases hroom : c.queue.length < c.capacity
  · rw [if_neg (by omega)]
    cases hfits : c.fits s with
    | true => exact Or.inl ⟨⟨hroom, rfl⟩, rfl⟩
    | false => exact Or.inr ⟨fun h => Bool.false_ne_true h.2, _, rfl⟩
  · rw [if_pos (by omega)]
    exact Or.inr ⟨fun h => hroom h.1, _, rfl⟩

/-- A refused operation changes nothing. -/
theorem perform_of_refused {o : Operation} {e : Error} (h : (perform x o).1 = .refused e) :
    (perform x o).2 = x := by
  obtain ⟨c, m⟩ := x
  cases o with
  | start =>
    rcases start_cases c with ⟨-, hc⟩ | ⟨-, hc⟩
    · simp only [perform, hc]
    · simp [perform, hc, Answer.ofExcept] at h
  | reset =>
    rcases reset_cases c with ⟨-, hc⟩ | ⟨-, hc⟩
    · simp only [perform, hc]
    · simp [perform, hc, Answer.ofExcept] at h
  | push s =>
    rcases push_cases c s with ⟨-, hc⟩ | ⟨-, e', hc⟩
    · simp [perform, hc, Answer.ofExcept] at h
    · simp only [perform, hc]
  | stop => cases h
  | fill => cases h
  | pop => cases h
  | capacity n => cases h
  | faultInterval n => cases h

/-- **One operation** keeps the invariant. -/
theorem Sound.perform (h : Sound pageSize x) (o : Operation) :
    Sound pageSize (Emulated.perform x o).2 := by
  obtain ⟨c, m⟩ := x
  obtain ⟨hpage, hbuffer, hpaged⟩ := h
  cases o with
  | start =>
    rcases start_cases c with ⟨-, hc⟩ | ⟨-, hc⟩ <;> simp only [Emulated.perform, hc] <;>
      exact ⟨hpage, hbuffer, hpaged⟩
  | stop => exact ⟨hpage, hbuffer, hpaged⟩
  | reset =>
    rcases reset_cases c with ⟨-, hc⟩ | ⟨-, hc⟩ <;> simp only [Emulated.perform, hc] <;>
      exact ⟨hpage, hbuffer, hpaged⟩
  | push s =>
    rcases push_cases c s with ⟨htakes, hc⟩ | ⟨-, e, hc⟩
    · simp only [Emulated.perform, hc]
      refine ⟨hpage, hbuffer, fun y hy => ?_⟩
      obtain ⟨-, -, hdvd, -⟩ := htakes
      rcases List.mem_append.1 (Fifo.toList_push c.queue _ ▸ hy) with hy | hy
      · exact hpaged y hy
      · obtain rfl := List.mem_singleton.1 hy
        exact ⟨Nat.zero_le _, hpage ▸ hdvd, Nat.dvd_zero _⟩
    · simp only [Emulated.perform, hc]
      exact ⟨hpage, hbuffer, hpaged⟩
  | fill =>
    obtain ⟨hpage', hbuffer', -, -, hsize⟩ := fill_rests c m
    refine ⟨hpage'.trans hpage, hbuffer'.trans (hbuffer.trans hsize.symm), ?_⟩
    cases hrun : c.running with
    | false =>
      simp only [Emulated.perform, fill_of_stopped hrun]
      exact hpaged
    | true =>
      simp only [Emulated.perform, Sound.queue_eq_fill ⟨hpage, hbuffer, hpaged⟩ hrun]
      intro y hy
      obtain ⟨s, hs, rfl⟩ := List.mem_map.1 hy
      have hdvd := (hpaged s hs).size_dvd
      exact ⟨le_rfl, hdvd, hdvd⟩
  | pop =>
    rcases pop_cases c with ⟨s, hq, hc⟩ | ⟨hc, -⟩ <;> simp only [Emulated.perform, hc]
    · refine ⟨hpage, hbuffer, fun y hy => hpaged y ?_⟩
      rw [hq]
      exact List.mem_cons_of_mem s hy
    · exact ⟨hpage, hbuffer, hpaged⟩
  | capacity n => exact ⟨hpage, hbuffer, hpaged⟩
  | faultInterval n => exact ⟨hpage, hbuffer, hpaged⟩

/-- **One operation** puts into the queue what it accepts, behind the others, and takes out what it
pops, from the front. -/
theorem perform_balance (h : Sound pageSize x) (o : Operation) :
    x.1.queue.toList.map Superpage.region ++
        (Operation.accepted? (o, (perform x o).1)).toList.map Superpage.region =
      (Operation.popped? (o, (perform x o).1)).toList.map Superpage.region ++
        (perform x o).2.1.queue.toList.map Superpage.region := by
  obtain ⟨c, m⟩ := x
  cases o with
  | start =>
    rcases start_cases c with ⟨-, hc⟩ | ⟨-, hc⟩ <;>
      simp [perform, hc, Answer.ofExcept, Operation.accepted?, Operation.popped?]
  | stop => exact List.append_nil _
  | reset =>
    rcases reset_cases c with ⟨-, hc⟩ | ⟨-, hc⟩ <;>
      simp [perform, hc, Answer.ofExcept, Operation.accepted?, Operation.popped?]
  | push s =>
    rcases push_cases c s with ⟨-, hc⟩ | ⟨-, e, hc⟩
    · simp [perform, hc, Answer.ofExcept, Operation.accepted?, Operation.popped?, withQueue,
        Superpage.region]
    · simp [perform, hc, Answer.ofExcept, Operation.accepted?, Operation.popped?]
  | fill =>
    refine (List.append_nil _).trans ?_
    show _ = (c.fill m).1.queue.toList.map Superpage.region
    cases hrun : c.running with
    | false => rw [fill_of_stopped hrun]
    | true =>
      rw [h.queue_eq_fill hrun, List.map_map]
      rfl
  | pop =>
    rcases pop_cases c with ⟨s, hq, hc⟩ | ⟨hc, -⟩ <;> simp only [perform, hc]
    · exact (List.append_nil _).trans (congrArg (List.map Superpage.region) hq)
    · exact List.append_nil _
  | capacity n => exact List.append_nil _
  | faultInterval n => exact List.append_nil _

/-- A popped superpage was at the front of the queue, complete or with the channel off. -/
theorem pop_eq_some {c : Emulated} {s : Superpage} (h : c.pop.1 = some s) :
    s ∈ c.queue.toList ∧ (c.running = true → s.size ≤ s.received) := by
  cases hq : c.queue.toList with
  | nil =>
    rw [pop_of_nil hq] at h
    cases h
  | cons y rest =>
    have hhead : c.queue.head? = some y := by rw [← Fifo.head?_toList, hq, List.head?_cons]
    unfold pop at h
    rw [hhead] at h
    dsimp only at h
    split at h
    · rename_i hcomplete
      obtain rfl := Option.some.inj h
      refine ⟨List.mem_cons_self, fun hrun => ?_⟩
      rw [hrun, Bool.not_true, Bool.or_false] at hcomplete
      exact of_decide_eq_true hcomplete
    · cases h

/-- The capacity and whether the channel is on are what the operations say. -/
theorem perform_settings (x : Emulated × Memory) (o : Operation) :
    (perform x o).2.1.capacity = o.capacityAfter x.1.capacity ∧
      (perform x o).2.1.running = o.runningAfter x.1.running := by
  obtain ⟨c, m⟩ := x
  cases o with
  | start =>
    rcases start_cases c with ⟨hrun, hc⟩ | ⟨-, hc⟩ <;> simp only [perform, hc]
    · exact ⟨rfl, hrun⟩
    · exact ⟨rfl, rfl⟩
  | reset =>
    rcases reset_cases c with ⟨-, hc⟩ | ⟨-, hc⟩ <;> simp only [perform, hc] <;> exact ⟨rfl, rfl⟩
  | push s =>
    rcases push_cases c s with ⟨-, hc⟩ | ⟨-, e, hc⟩ <;> simp only [perform, hc] <;> exact ⟨rfl, rfl⟩
  | fill =>
    obtain ⟨-, -, hcapacity, hrun, -⟩ := fill_rests c m
    exact ⟨hcapacity, hrun⟩
  | pop => rcases pop_cases c with ⟨s, -, hc⟩ | ⟨hc, -⟩ <;> simp only [perform, hc] <;> exact ⟨rfl, rfl⟩
  | stop => exact ⟨rfl, rfl⟩
  | capacity n => exact ⟨rfl, rfl⟩
  | faultInterval n => exact ⟨rfl, rfl⟩

/-! ### Histories -/

/-- The superpages that were accepted in a history, in order. -/
def accepted (history : List (Operation × Answer)) : List Superpage :=
  history.filterMap Operation.accepted?

/-- The superpages that were popped in a history, in order. -/
def popped (history : List (Operation × Answer)) : List Superpage :=
  history.filterMap Operation.popped?

theorem filterMap_cons_eq {α β : Type} (f : α → Option β) (a : α) (l : List α) :
    (a :: l).filterMap f = (f a).toList ++ l.filterMap f := by
  cases h : f a <;> simp [h]

/-- **Any history** keeps the invariant. -/
theorem Sound.performAll (ops : List Operation) :
    ∀ {x : Emulated × Memory}, Sound pageSize x → Sound pageSize (Emulated.performAll x ops).2 := by
  induction ops with
  | nil => exact fun h => h
  | cons o ops ih => exact fun h => ih (h.perform o)

/-- **In any history** what was queued at first and what was accepted is what was popped and what is
queued in the end, in this order. -/
theorem performAll_balance (ops : List Operation) :
    ∀ {x : Emulated × Memory}, Sound pageSize x →
      x.1.queue.toList.map Superpage.region ++
          (accepted (performAll x ops).1).map Superpage.region =
        (popped (performAll x ops).1).map Superpage.region ++
          (performAll x ops).2.1.queue.toList.map Superpage.region := by
  induction ops with
  | nil => exact fun _ => List.append_nil _
  | cons o ops ih =>
    intro x h
    have hone := perform_balance h o
    have hrest := ih (h.perform o)
    rw [performAll_cons]
    simp only [accepted, popped, filterMap_cons_eq, List.map_append, List.append_assoc] at hrest ⊢
    rw [← List.append_assoc, hone, List.append_assoc, hrest]

/-- What is popped in a history has not received more than its size. -/
theorem received_le_of_popped (ops : List Operation) :
    ∀ {x : Emulated × Memory}, Sound pageSize x →
      ∀ s ∈ popped (performAll x ops).1, s.received ≤ s.size := by
  induction ops with
  | nil => exact fun _ => nofun
  | cons o ops ih =>
    intro x h s hs
    rw [performAll_cons, popped, filterMap_cons_eq, List.mem_append] at hs
    rcases hs with hs | hs
    · cases o with
      | pop => exact (h.paged s (pop_eq_some (Option.mem_toList.1 hs)).1).received_le
      | _ => cases hs
    · exact ih (h.perform o) s hs

theorem performAll_settings (ops : List Operation) (x : Emulated × Memory) :
    (performAll x ops).2.1.capacity = ops.foldl Operation.capacityAfter x.1.capacity ∧
      (performAll x ops).2.1.running = ops.foldl Operation.runningAfter x.1.running := by
  induction ops generalizing x with
  | nil => exact ⟨rfl, rfl⟩
  | cons o ops ih =>
    obtain ⟨hcapacity, hrunning⟩ := perform_settings x o
    obtain ⟨hcapacities, hrunnings⟩ := ih (perform x o).2
    rw [hcapacity] at hcapacities
    rw [hrunning] at hrunnings
    exact ⟨hcapacities, hrunnings⟩

/-- A channel and its buffer at the start. -/
theorem Sound.of_create {family : Family} {bufferSize : Nat} {pattern : Pattern} {c : Emulated}
    {m : Memory} (hc : create family bufferSize pageSize pattern = .ok c) (hm : m.size = bufferSize) :
    Sound pageSize (c, m) ∧ c.queue.toList = [] ∧ c.capacity = defaultCapacity ∧
      c.running = false ∧ c.bufferSize = bufferSize := by
  obtain ⟨-, rfl⟩ := create_eq_ok.1 hc
  exact ⟨⟨rfl, hm.symm, nofun⟩, rfl, rfl, rfl, rfl⟩

theorem performAll_sizes (ops : List Operation) (x : Emulated × Memory) :
    (performAll x ops).2.2.size = x.2.size := by
  induction ops generalizing x with
  | nil => rfl
  | cons o ops ih =>
    rw [performAll_cons]
    refine (ih _).trans ?_
    cases o with
    | fill => exact (fill_rests x.1 x.2).2.2.2.2
    | _ => rfl

/-- **The emulated channel under any operations.** After any history, on a channel for a buffer of the
given size: what was popped and what is queued is what was accepted, in this order and with the same
offsets and sizes; nothing has received more than its size, and what is popped while the channel is on
has received all of it; a superpage is accepted exactly if it is one of whole pages in the buffer and
fewer than the capacity are queued; a fill does nothing while the channel is off, and else changes only
words in the missing parts of queued superpages; a refused push, a second start and a reset of a running
channel change nothing; and there is room for as many superpages as the capacity exceeds the queue. -/
theorem operations {family : Family} {bufferSize : Nat} {pattern : Pattern} {c₀ c : Emulated}
    {m₀ m : Memory} {history : List (Operation × Answer)} {ops : List Operation}
    (hcreate : create family bufferSize pageSize pattern = .ok c₀) (hsize : m₀.size = bufferSize)
    (hrun : performAll (c₀, m₀) ops = (history, c, m)) :
    (accepted history).map Superpage.region =
        (popped history).map Superpage.region ++ c.queue.toList.map Superpage.region ∧
      (∀ s ∈ popped history ++ c.queue.toList, s.received ≤ s.size) ∧
      (c.running = true → ∀ s, c.pop.1 = some s → s.received = s.size) ∧
      (∀ s, (c.push s).1 = .ok () ↔ c.queue.toList.length < c.capacity ∧ s.size ≠ 0 ∧
        pageSize ∣ s.size ∧ s.offset + s.size < 2 ^ 64 ∧ s.offset + s.size ≤ bufferSize) ∧
      (c.running = false → perform (c, m) .fill = (.done, c, m)) ∧
      (c.fill m).2.size = m.size ∧
      (∀ j, (c.fill m).2.word j ≠ m.word j → ∃ s ∈ c.queue.toList, s.isFilled = false ∧
        s.offset + s.received ≤ 4 * j ∧ 4 * j + 4 ≤ s.offset + s.size) ∧
      (∀ o e, (perform (c, m) o).1 = .refused e → (perform (c, m) o).2 = (c, m)) ∧
      (c.running = true → perform (c, m) .start = (.refused (.channel .alreadyStarted), c, m) ∧
        perform (c, m) .reset = (.refused (.channel .resetWhileRunning), c, m)) ∧
      (c.available : ℤ) = max ((c.capacity : ℤ) - c.queue.toList.length) 0 ∧
      c.capacity = ops.foldl Operation.capacityAfter defaultCapacity ∧
      c.running = ops.foldl Operation.runningAfter false := by
  obtain ⟨hsound₀, hnil, hcapacity₀, hoff, hbuffer₀⟩ := Sound.of_create hcreate hsize
  have hsound := Sound.performAll ops hsound₀
  have hbalance := performAll_balance ops hsound₀
  have hpopped := received_le_of_popped ops hsound₀
  have hsettings := performAll_settings ops (c₀, m₀)
  have hsizes := performAll_sizes ops (c₀, m₀)
  rw [hrun] at hsound hbalance hpopped hsettings hsizes
  rw [hcapacity₀, hoff] at hsettings
  rw [hnil, List.map_nil, List.nil_append] at hbalance
  obtain ⟨hpage, hbuffer, hpaged⟩ := hsound
  have hbytes : c.bufferSize = bufferSize := hbuffer.trans (hsizes.trans hsize)
  refine ⟨hbalance, ?_, ?_, ?_, ?_, (fill_rests c m).2.2.2.2, ?_, fun o e => perform_of_refused, ?_,
    ?_, hsettings⟩
  · intro s hs
    rcases List.mem_append.1 hs with hs | hs
    · exact hpopped s hs
    · exact (hpaged s hs).received_le
  · intro hon s hs
    obtain ⟨hmem, hfilled⟩ := pop_eq_some hs
    exact le_antisymm (hpaged s hmem).received_le (hfilled hon)
  · intro s
    have htakes : c.Takes s ↔ c.queue.toList.length < c.capacity ∧ s.size ≠ 0 ∧
        pageSize ∣ s.size ∧ s.offset + s.size < 2 ^ 64 ∧ s.offset + s.size ≤ bufferSize := by
      rw [Takes, hbytes, hpage, Fifo.length_toList]
    rw [← htakes]
    rcases push_cases c s with ⟨ht, hc⟩ | ⟨ht, e, hc⟩ <;> simp [hc, ht]
  · intro hstopped
    simp only [perform, fill_of_stopped hstopped]
  · intro j hj
    cases hon : c.running with
    | false =>
      rw [fill_of_stopped hon] at hj
      exact absurd rfl hj
    | true =>
      obtain ⟨q, hfill, -⟩ := fill_eq hon m
      rw [hfill] at hj
      exact word_thread_fillOne _ (hpage ▸ hpaged) hj
  · intro hon
    rcases start_cases c with ⟨-, hstart⟩ | ⟨hfalse, -⟩
    · rcases reset_cases c with ⟨-, hreset⟩ | ⟨hfalse, -⟩
      · exact ⟨by simp only [perform, hstart, Answer.ofExcept],
          by simp only [perform, hreset, Answer.ofExcept]⟩
      · rw [hon] at hfalse
        cases hfalse
    · rw [hon] at hfalse
      cases hfalse
  · rw [Fifo.length_toList, available]
    omega

/-- A channel of pages of eight bytes for a buffer of 64 bytes. -/
def smallChannel : Emulated where
  generator := { family := .cru, pattern := .incremental, pageSize := 8 }
  bufferSize := 64
  bar := .zeroed .cru

/-- One of three superpages is popped again, after the capacity was lowered to one; two pushes are
refused, and so is a reset. -/
def smallOperations : List Operation :=
  [.push ⟨0, 16, 0⟩, .push ⟨16, 8, 0⟩, .push ⟨60, 8, 0⟩, .start, .fill, .push ⟨32, 16, 0⟩, .capacity 0,
    .push ⟨48, 8, 0⟩, .reset, .pop]

/-- There is no room although two superpages are queued and the capacity is one. -/
theorem operations_small :
    popped (performAll (smallChannel, ⟨64, .zero⟩) smallOperations).1 = [⟨0, 16, 16⟩] ∧
      (accepted (performAll (smallChannel, ⟨64, .zero⟩) smallOperations).1).map Superpage.region =
        [(0, 16), (16, 8), (32, 16)] ∧
      ((performAll (smallChannel, ⟨64, .zero⟩) smallOperations).2.1.available : ℤ) = max (1 - 2) 0 := by
  have hcreate : create .cru 64 8 .incremental = .ok smallChannel := rfl
  have hsize : (⟨64, .zero⟩ : Memory).size = 64 := rfl
  have hrun : performAll (smallChannel, ⟨64, .zero⟩) smallOperations =
      ((performAll (smallChannel, ⟨64, .zero⟩) smallOperations).1,
        (performAll (smallChannel, ⟨64, .zero⟩) smallOperations).2.1,
        (performAll (smallChannel, ⟨64, .zero⟩) smallOperations).2.2) := rfl
  have hpopped : popped (performAll (smallChannel, ⟨64, .zero⟩) smallOperations).1 =
      [⟨0, 16, 16⟩] := by decide +kernel
  have hqueued : (performAll (smallChannel, ⟨64, .zero⟩) smallOperations).2.1.queue.toList =
      [⟨16, 8, 8⟩, ⟨32, 16, 0⟩] := by decide +kernel
  have hcapacity : smallOperations.foldl Operation.capacityAfter defaultCapacity = 1 := by decide
  obtain ⟨hbalance, -, -, -, -, -, -, -, -, havailable, hsetting, -⟩ :=
    operations hcreate hsize hrun
  rw [hpopped, hqueued] at hbalance
  rw [hsetting, hqueued, hcapacity] at havailable
  exact ⟨hpopped, hbalance, havailable⟩

end Emulated

end DmaReadout
