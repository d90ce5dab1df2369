import DmaReadout.Pipeline.Shutdown
import DmaReadout.Proofs.Partition
import Mathlib.Data.List.Sort

/-! # The end of a run

However the superpages are spread when both tasks have ended, the shutdown brings all of them back to
the free queue, whatever the number of looks that the channel gets to complete some.

* `Gathered`: the superpages are spread over the free queue, the ready queue and the running channel.
* `Gathered.drain`: looks at the running channel keep this and never fail.
* `overflow`: when offsets do not fit on the free queue; `returnAll_eq`, `returnAll_of_room`.
* `popAll_of_stopped`: a stopped channel gives back all it has.
* `shutdown_reclaims`: the main statement. -/

namespace DmaReadout

/-- All superpages are on the free queue, ready, or in the running channel. -/
structure Gathered (l : Layout) (p : Pipeline Emulated) : Prop where
  running : p.channel.running = true
  free_capacity : p.free.capacity = l.count
  places : (p.free.toList ++ p.ready.toList ++ p.channel.offsets).Perm l.offsets

/-- Both tasks leave all superpages in the three queues when they end. -/
theorem Machine.Circulates.gathered {plan : Plan} {m : Machine Emulated} {n : Ledger}
    (h : m.Circulates plan n) (hf : m.feederDone = true) (hr : m.readerDone = true) :
    Gathered plan.layout m.shared := by
  have hplaces := h.places_eq
  obtain ⟨p, f, r⟩ := m
  cases f <;> cases hf
  cases r <;> cases hr
  refine ⟨h.equipped.serves.running, h.equipped.free_capacity, ?_⟩
  have hround := plan.layout.stretch_perm n.returned
  rw [← hplaces] at hround
  refine List.Perm.trans ?_ hround
  rw [List.append_assoc]
  exact List.perm_append_comm.trans (List.Perm.of_eq (by simp [Machine.places, Machine.inChannel,
    Feeder.held, Reader.held, Feeder.ahead, Emulated.offsets]))

/-! ### The running channel -/

namespace Emulated

theorem fst_fillOne_offset (s : Generator × Memory) (x : Superpage) :
    (fillOne s x).1.offset = x.offset := by
  unfold fillOne
  split
  dsimp only
  split <;> rfl

theorem thread_keeps {α σ β : Type} (f : σ → α → α × σ) (g : α → β)
    (hf : ∀ s x, g (f s x).1 = g x) : ∀ (l : List α) (s : σ), (thread f s l).1.map g = l.map g
  | [], _ => rfl
  | x :: l, s => by
    rw [thread]
    simp only [List.map_cons, hf, thread_keeps f g hf l]

/-- A fill leaves the superpages in the queue as they are in number and order. -/
theorem fill_keeps {c : Emulated} (hc : c.running = true) (m : Memory) :
    (c.fill m).1.running = true ∧ (c.fill m).1.offsets = c.offsets := by
  obtain ⟨q, hfill, hq⟩ := fill_eq hc m
  rw [hfill]
  refine ⟨hc, ?_⟩
  show q.toList.map (·.offset) = c.offsets
  rw [hq, thread_keeps _ _ fst_fillOne_offset, offsets]

end Emulated

namespace Gathered

variable {l : Layout} {p : Pipeline Emulated}

theorem fill (h : Gathered l p) : Gathered l p.fill := by
  obtain ⟨hrun, hoff⟩ := Emulated.fill_keeps h.running p.memory
  refine ⟨hrun, h.free_capacity, ?_⟩
  show (p.free.toList ++ p.ready.toList ++ (p.channel.fill p.memory).1.offsets).Perm l.offsets
  rw [hoff]
  exact h.places

/-- A superpage that is not on the free queue finds room there. -/
theorem free_room (h : Gathered l p) {k : Nat}
    (hk : k ≤ (p.ready.toList ++ p.channel.offsets).length) :
    p.free.toList.length + k ≤ p.free.capacity := by
  have hlen := h.places.length_eq
  rw [List.append_assoc, List.length_append, l.length_offsets] at hlen
  rw [h.free_capacity]
  omega

/-- A filled superpage at the head of the channel goes to the free queue. -/
theorem pop_head (h : Gathered l p) {s : Superpage} (hs : Channel.head? p.channel = some s)
    (hfilled : s.isFilled = true) :
    ∃ free, Channel.pop p.channel = (some s, p.channel.withQueue p.channel.queue.tail) ∧
      p.free.offer s.offset = (true, free) ∧
      Gathered l { p with channel := p.channel.withQueue p.channel.queue.tail, free } := by
  have hq : ∃ rest, p.channel.queue.toList = s :: rest :=
    List.head?_eq_some_iff.1 ((Fifo.head?_toList _).trans hs)
  obtain ⟨rest, hq⟩ := hq
  have hoff : p.channel.offsets = s.offset :: rest.map (·.offset) := by
    rw [Emulated.offsets, hq, List.map_cons]
  obtain ⟨free, hoffer, hlist, hcap⟩ := Ring.offer_of_room (r := p.free) s.offset
    (h.free_room (k := 1) (by
      rw [hoff, List.length_append, List.length_cons]
      omega))
  refine ⟨free, Emulated.pop_of_complete hq (by rw [hfilled, Bool.true_or]), hoffer,
    h.running, hcap.trans h.free_capacity, ?_⟩
  have htail : (p.channel.withQueue p.channel.queue.tail).offsets = rest.map (·.offset) := by
    show p.channel.queue.tail.toList.map (·.offset) = _
    rw [Fifo.toList_tail, hq, List.tail_cons]
  show (free.toList ++ p.ready.toList ++
    (p.channel.withQueue p.channel.queue.tail).offsets).Perm l.offsets
  refine List.Perm.trans ?_ h.places
  rw [htail, hlist, hoff]
  refine List.perm_iff_count.2 fun a => ?_
  simp only [List.count_append, List.count_cons, List.count_nil]
  omega

/-- Looks at the running channel never fail, and leave every superpage in one of the queues. -/
theorem drain (plan : Plan) : ∀ (rounds pages : Nat) {p : Pipeline Emulated}, Gathered l p →
    ∃ k q, p.drain plan rounds pages = (.ok k, q) ∧ Gathered l q
  | 0, pages, p, h => ⟨pages, p, rfl, h⟩
  | rounds + 1, pages, p, h => by
    rw [Pipeline.drain]
    split
    · exact ⟨pages, p, rfl, h⟩
    have hfill := h.fill
    dsimp only
    split
    · rename_i hany
      obtain ⟨s, hs, hfilled⟩ := (Option.any_eq_true _ _).1 hany
      obtain ⟨free, hpop, hoffer, hnext⟩ := hfill.pop_head hs hfilled
      simp only [Pipeline.onChannel_eq, hpop, Pipeline.offerFree_eq, hoffer]
      exact drain plan rounds _ hnext
    · exact drain plan rounds pages hfill

end Gathered

/-! ### What is left over -/

/-- The failure of an operation, if it failed. -/
def failureOf {ε α : Type} : Except ε α → Option ε
  | .ok _ => none
  | .error e => some e

theorem failureOf_eq_some {ε α : Type} {r : Except ε α} {e : ε} :
    failureOf r = some e ↔ r = .error e := by
  cases r <;> simp [failureOf]

theorem failureOf_eq_none {ε α : Type} {r : Except ε α} : failureOf r = none ↔ ∃ a, r = .ok a := by
  cases r <;> simp [failureOf]

/-- The failure of putting offsets behind `held` others on a queue that takes `capacity` in all: that of
the last one, if they are too many. -/
def overflow (fault : Nat → QueueFault) (capacity held : Nat) (offsets : List Nat) : Option Error :=
  if held + offsets.length ≤ capacity then none
  else offsets.getLast?.map fun offset => .queue (fault offset)

section Overflow

variable {fault : Nat → QueueFault} {capacity held offset : Nat} {offsets : List Nat}

theorem overflow_of_room (h : held + offsets.length ≤ capacity) :
    overflow fault capacity held offsets = none :=
  if_pos h

/-- Nothing overflows just if there is room for all. -/
theorem overflow_eq_none_iff (h : held ≤ capacity) :
    overflow fault capacity held offsets = none ↔ held + offsets.length ≤ capacity := by
  unfold overflow
  split
  · rename_i hroom
    exact iff_of_true rfl hroom
  · rename_i hroom
    refine iff_of_false (fun hnone => hroom ?_) hroom
    rw [List.getLast?_eq_none_iff.1 (Option.map_eq_none_iff.1 hnone)]
    exact h

theorem overflow_cons_of_room (h : held < capacity) :
    overflow fault capacity held (offset :: offsets) = overflow fault capacity (held + 1) offsets := by
  unfold overflow
  rw [List.length_cons, Nat.add_right_comm held 1, ← Nat.add_assoc]
  cases offsets with
  | nil => exact (if_pos h).trans (if_pos h).symm
  | cons next rest => rw [List.getLast?_cons_cons]

/-- A full queue takes no offset at all. -/
theorem overflow_of_full (h : capacity ≤ held) : overflow fault capacity held offsets =
    offsets.getLast?.map fun offset => .queue (fault offset) := by
  unfold overflow
  split
  · rename_i hroom
    rw [List.eq_nil_of_length_eq_zero (by omega : offsets.length = 0)]
    rfl
  · rfl

/-- What lies behind the end of a full queue does not count. -/
theorem overflow_min :
    overflow fault capacity (min held capacity) offsets = overflow fault capacity held offsets := by
  rcases Nat.le_total held capacity with hroom | hfull
  · rw [Nat.min_eq_left hroom]
  · rw [Nat.min_eq_right hfull, overflow_of_full hfull, overflow_of_full (Nat.le_refl _)]

end Overflow

namespace Pipeline

/-- **Offsets go to the free queue** in order, as far as there is room; the last of those that do not fit
is the failure. -/
theorem returnAll_eq (fault : Nat → QueueFault) : ∀ (offsets : List Nat) (free : Ring Nat),
    failureOf (returnAll fault free offsets).1 =
        overflow fault free.capacity free.toList.length offsets ∧
      (returnAll fault free offsets).2.toList = (free.toList ++ offsets).take free.capacity ∧
      (returnAll fault free offsets).2.capacity = free.capacity
  | [], free => by
    have hle := free.length_le_capacity
    refine ⟨(overflow_of_room hle).symm, ?_, rfl⟩
    rw [List.append_nil, List.take_of_length_le hle]
    rfl
  | offset :: offsets, free => by
    rcases Nat.lt_or_ge free.toList.length free.capacity with hroom | hfull
    · obtain ⟨next, hoffer, hlist, hcap⟩ := Ring.offer_of_room (r := free) offset hroom
      obtain ⟨hfailure, hall, hsame⟩ := returnAll_eq fault offsets next
      rw [hlist, hcap] at hfailure hall
      rw [List.length_append, List.length_singleton] at hfailure
      rw [returnAll, hoffer]
      refine ⟨hfailure.trans (overflow_cons_of_room hroom).symm, ?_, hsame.trans hcap⟩
      rw [hall, List.append_assoc, List.singleton_append]
    · obtain ⟨hfailure, hall, hsame⟩ := returnAll_eq fault offsets free
      rw [overflow_of_full hfull] at hfailure ⊢
      rw [List.take_append_of_le_length hfull] at hall ⊢
      rw [returnAll, Ring.offer_of_full offset hfull]
      dsimp only
      generalize returnAll fault free offsets = x at hfailure hall hsame ⊢
      obtain ⟨r, after⟩ := x
      cases r with
      | ok _ =>
        -- nothing came behind it
        obtain rfl : offsets = [] := List.getLast?_eq_none_iff.1 (Option.map_eq_none_iff.1 hfailure.symm)
        exact ⟨rfl, hall, hsame⟩
      | error e =>
        obtain ⟨next, rest, rfl⟩ := List.exists_cons_of_ne_nil (l := offsets) (by
          rintro rfl
          cases hfailure)
        rw [List.getLast?_cons_cons]
        exact ⟨hfailure, hall, hsame⟩

/-- If nothing failed, all offsets are on the free queue. -/
theorem toList_returnAll {fault : Nat → QueueFault} {offsets : List Nat} {free : Ring Nat}
    (h : (returnAll fault free offsets).1 = .ok ()) :
    (returnAll fault free offsets).2.toList = free.toList ++ offsets := by
  obtain ⟨hfailure, hall, -⟩ := returnAll_eq fault offsets free
  rw [h] at hfailure
  have hroom := (overflow_eq_none_iff free.length_le_capacity).1 hfailure.symm
  rw [hall, List.take_of_length_le (by rwa [List.length_append])]

/-- With room for all of them, offsets go to the free queue in order and none fails. -/
theorem returnAll_of_room (fault : Nat → QueueFault) (offsets : List Nat) (free : Ring Nat)
    (h : free.toList.length + offsets.length ≤ free.capacity) :
    ∃ after, returnAll fault free offsets = (.ok (), after) ∧
      after.toList = free.toList ++ offsets ∧ after.capacity = free.capacity := by
  obtain ⟨hfailure, -, hsame⟩ := returnAll_eq fault offsets free
  rw [overflow_of_room h] at hfailure
  obtain ⟨_, hok⟩ := failureOf_eq_none.1 hfailure
  exact ⟨_, Prod.ext hok rfl, toList_returnAll hok, hsame⟩

/-- A stopped channel gives back all its superpages, filled or not, and is empty then. -/
theorem popAll_of_stopped (c : Emulated) :
    ∃ after, popAll (Channel.held (Channel.stop c).2 + 1) #[] (Channel.stop c).2 =
        (c.queue.toList.toArray, after) ∧ after.running = false ∧ after.queue.toList = [] := by
  obtain ⟨after, hall, hoff, hnil⟩ := Emulated.popsAll_of_off (c := (Channel.stop c).2) rfl
  have hpop := popAll_eq hall #[] (Nat.lt_succ_of_le (Nat.le_of_eq (Fifo.length_toList _)))
  rw [Array.empty_append] at hpop
  exact ⟨after, hpop, hoff, hnil⟩

end Pipeline

/-! ### The shutdown -/

namespace Layout

variable (l : Layout)

theorem pairwise_offsets : l.offsets.Pairwise (· < ·) :=
  (List.pairwise_lt_range).map l.offset fun _ _ h => Nat.mul_lt_mul_of_pos_right h l.superpage_pos

/-- All superpages in any order are sorted to the offsets of the layout. -/
theorem mergeSort_offsets {offsets : List Nat} (h : offsets.Perm l.offsets) :
    offsets.mergeSort = l.offsets := by
  have hle : l.offsets.Pairwise (· ≤ ·) := l.pairwise_offsets.imp Nat.le_of_lt
  exact List.Perm.eq_of_pairwise (fun _ _ _ _ => Nat.le_antisymm)
    (List.pairwise_mergeSort' (· ≤ ·) offsets) hle ((List.mergeSort_perm _ _).trans h)

end Layout

/-- A shutdown of a pipeline whose superpages are all in the three queues. -/
theorem Gathered.shutdown {plan : Plan} {p : Pipeline Emulated} (h : Gathered plan.layout p)
    (rounds : Nat) :
    ∃ r q, p.shutdown plan rounds = (.ok r, q) ∧ q.channel.running = false ∧
      q.channel.queue.toList = [] ∧ q.ready.toList = [] ∧ r.offsets = plan.layout.offsets := by
  obtain ⟨k, q, hdrain, hq⟩ := h.drain plan rounds 0
  have hlen := hq.places.length_eq
  rw [List.length_append, List.length_append, plan.layout.length_offsets] at hlen
  obtain ⟨free, hready, hlist, hcap⟩ := Pipeline.returnAll_of_room .reclaimingReadout
    q.ready.toList q.free (by rw [hq.free_capacity]; omega)
  obtain ⟨channel, hpop, hstopped, hnil⟩ := Pipeline.popAll_of_stopped q.channel
  obtain ⟨all, hchannel, hall, -⟩ := Pipeline.returnAll_of_room .reclaimingChannel
    q.channel.offsets free (by
      rw [hcap, hlist, hq.free_capacity, List.length_append]
      omega)
  have hperm : all.toList.Perm plan.layout.offsets := by
    rw [hall, hlist]
    exact hq.places
  refine ⟨⟨k + (q.channel.queue.toList.map (Pipeline.receivedPages plan)).foldr (· + ·) 0,
      all.toList.mergeSort⟩,
    { q with channel, free := all.drain.2, ready := q.ready.drain.2 }, ?_, hstopped, hnil,
    q.ready.toList_drain_snd, plan.layout.mergeSort_offsets hperm⟩
  rw [Emulated.offsets] at hchannel
  unfold Pipeline.shutdown
  simp only [hdrain, Ring.drain_fst, hready, hpop, hchannel]
  rfl

/-- **The shutdown brings everything back.** When both tasks have ended, after any sequence of turns and
for whatever reason, the shutdown succeeds with any number of looks at the running channel. It leaves a
stopped channel that has nothing more to give and no superpage that is ready, and finds the offsets of
the layout in rising order; a report is complete with this list and with no other. -/
theorem Machine.shutdown_reclaims (plan : Plan) {p : Pipeline Emulated}
    (h : Prefilled plan.layout p) (turns : List Turn)
    (hf : ((start p).run plan turns).feederDone = true)
    (hr : ((start p).run plan turns).readerDone = true) (rounds : Nat) :
    ∃ r q, ((start p).run plan turns).shared.shutdown plan rounds = (.ok r, q) ∧
      q.channel.running = false ∧ q.channel.queue.toList = [] ∧
      (Channel.pop q.channel).1 = none ∧ q.ready.toList = [] ∧
      r.offsets = plan.layout.offsets ∧ r.offsets.Pairwise (· < ·) ∧
      (∀ (b : Bench) (family : Family) (s : Setup), b.layout = plan.layout →
        (b.report family s q r).partitionComplete plan.layout.superpageSize = true) ∧
      ∀ report : Report, report.superpages = plan.layout.count →
        (report.partitionComplete plan.layout.superpageSize = true ↔
          report.reclaimed = r.offsets) := by
  obtain ⟨r, q, hq, hstopped, hnil, hready, hoff⟩ :=
    ((circulates_run h turns).gathered hf hr).shutdown rounds
  have hcomplete : ∀ report : Report, report.superpages = plan.layout.count →
      (report.partitionComplete plan.layout.superpageSize = true ↔
        report.reclaimed = r.offsets) := by
    intro report hcount
    rw [report.partitionComplete_iff, hcount, hoff]
    rfl
  refine ⟨r, q, hq, hstopped, hnil, ?_, hready, hoff, ?_, ?_, hcomplete⟩
  · exact congrArg Prod.fst (Emulated.pop_of_nil hnil)
  · rw [hoff]
    exact plan.layout.pairwise_offsets
  · rintro b family s hb
    exact (hcomplete _ (congrArg Layout.count hb)).2 rfl

/-- One superpage is ready and the other one in the channel, not filled, when both tasks have ended. -/
theorem Machine.shutdown_reclaims_small :
    ((start .small).run { layout := .small }
        (List.replicate 17 .feed ++ [.stop, .feed, .read])).shared.ready.toList = [0] ∧
      ((start .small).run { layout := .small }
        (List.replicate 17 .feed ++ [.stop, .feed, .read])).shared.channel.queue.toList =
          [⟨80, 80, 0⟩] ∧
      ∃ r q, ((start .small).run { layout := .small }
        (List.replicate 17 .feed ++ [.stop, .feed, .read])).shared.shutdown
          { layout := .small } 0 = (.ok r, q) ∧ r.offsets = Layout.small.offsets := by
  obtain ⟨r, q, hq, -, -, -, -, hoff, -⟩ := shutdown_reclaims { layout := .small }
    prefilled_small (List.replicate 17 .feed ++ [.stop, .feed, .read]) (by decide +kernel)
    (by decide +kernel) 0
  exact ⟨by decide +kernel, by decide +kernel, r, q, hq, hoff⟩

end DmaReadout
