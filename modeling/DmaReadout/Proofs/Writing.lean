import DmaReadout.Proofs.Operations
import DmaReadout.Proofs.Pages

/-! # What is received is written

An emulated channel counts the pages that its superpages receive, and it counts the pages that it
writes. The pages that are written are those that were received, in the order in which their superpages
were accepted, except that a superpage between two words receives pages that are never written.

* `PageWrite`: a page that is written, and the generator that writes it; `Generator.writes`: pages that
  are written one after the other.
* `Superpage.receivedPages`, `Superpage.missingPlaces`: where the pages of a superpage begin that it has
  received, and those that a fill would write; `thread_fillOne_writes`: a fill of a queue.
* `Emulated.writesOf`, `Emulated.allWrites`: the pages that operations write; `Writing.perform`,
  `perform_pages`: one operation; `Writing.performAll`, `performAll_pages`: any history.
* `received_written`: the main statement; `misplaced_not_written`: a page that is received and not
  written. -/

namespace DmaReadout

/-! ### Pages that are written -/

/-- A page that is written. -/
structure PageWrite where
  /-- Where the page begins. -/
  offset : Nat
  /-- The generator, with the counter that the page is to show. -/
  generator : Generator

/-- The memory after a page was written. -/
def PageWrite.into (m : Memory) (w : PageWrite) : Memory :=
  m.put (w.offset / 4) (w.generator.pageSize / 4) w.generator.nextWord

namespace Generator

/-- The pages that a generator writes at these places, each with the next counter. -/
def writes (g : Generator) : List Nat → List PageWrite
  | [] => []
  | o :: offsets => ⟨o, g⟩ :: g.advance.writes offsets

@[simp] theorem map_offset_writes (offsets : List Nat) : ∀ g : Generator,
    (g.writes offsets).map (·.offset) = offsets := by
  induction offsets with
  | nil => exact fun _ => rfl
  | cons o offsets ih => exact fun g => congrArg (o :: ·) (ih g.advance)

@[simp] theorem length_writes (g : Generator) (offsets : List Nat) :
    (g.writes offsets).length = offsets.length := by
  rw [← List.length_map PageWrite.offset, map_offset_writes]

theorem after_after (g : Generator) (a b : Nat) : (g.after a).after b = g.after (a + b) := by
  unfold after
  rw [show (a + b).toUInt32 = a.toUInt32 + b.toUInt32 from UInt32.ofNat_add a b, ← UInt32.add_assoc,
    ← Nat.add_assoc]

theorem advance_eq (g : Generator) : g.advance = g.after 1 := by
  rw [← g.advance_after 0, after_zero]

theorem writes_append (a b : List Nat) : ∀ g : Generator,
    g.writes (a ++ b) = g.writes a ++ (g.after a.length).writes b := by
  induction a with
  | nil => exact fun g => by rw [List.length_nil, after_zero]; rfl
  | cons o a ih =>
    intro g
    have hafter : g.advance.after a.length = g.after (o :: a).length := by
      rw [advance_eq, after_after, List.length_cons, Nat.add_comm]
    rw [List.cons_append, writes, ih, hafter]
    rfl

/-- A page in the memory that begins with a word is written. -/
theorem writePage_of_aligned (g : Generator) (m : Memory) {offset : Nat}
    (aligned : g.pageSize % 4 = 0) (hoff : offset % 4 = 0)
    (addressable : offset + g.pageSize < 2 ^ 64) (hm : offset + g.pageSize ≤ m.size) :
    g.writePage m offset = (g.advance, PageWrite.into m ⟨offset, g⟩) := by
  have hview : m.view offset g.pageSize = .ok ⟨offset / 4, g.pageSize / 4⟩ :=
    Memory.view_eq_ok_iff.2 ⟨addressable, hm, hoff, aligned, rfl⟩
  rw [writePage, hview]
  rfl

/-- A page between two words is not written. -/
theorem writePage_of_misaligned {g : Generator} {m : Memory} {offset : Nat} (hoff : offset % 4 ≠ 0) :
    g.writePage m offset = (g, m) := by
  unfold writePage
  split
  · rfl
  · rename_i hv
    exact absurd (Memory.view_eq_ok_iff.1 hv).2.2.1 hoff

/-- Pages in a row are written one after the other, each behind the one before. -/
theorem writePages_of_aligned (n : Nat) : ∀ (g : Generator) (m : Memory) {offset : Nat},
    g.pageSize % 4 = 0 → offset % 4 = 0 → offset + n * g.pageSize < 2 ^ 64 →
    offset + n * g.pageSize ≤ m.size →
    g.writePages m offset n = (g.after n,
      (g.writes ((List.range n).map (offset + · * g.pageSize))).foldl PageWrite.into m) := by
  induction n with
  | zero => exact fun g m _ _ _ _ _ => by rw [after_zero]; rfl
  | succ n ih =>
    intro g m offset aligned hoff addressable hm
    rw [Nat.succ_mul] at addressable hm
    have hone := writePage_of_aligned g m aligned hoff (by omega) (by omega)
    have hsize : (PageWrite.into m ⟨offset, g⟩).size = m.size := Memory.size_put _ _ _ _
    have hnext : (offset + g.pageSize) % 4 = 0 := by omega
    have hrest := ih g.advance (PageWrite.into m ⟨offset, g⟩) aligned hnext
      (by rw [pageSize_advance]; omega) (by rw [pageSize_advance, hsize]; omega)
    have hplaces : (List.range (n + 1)).map (offset + · * g.pageSize) =
        offset :: (List.range n).map (offset + g.pageSize + · * g.advance.pageSize) := by
      rw [List.range_succ_eq_map, List.map_cons, List.map_map, Nat.zero_mul, Nat.add_zero]
      refine congrArg (offset :: ·) (List.map_congr_left fun k _ => ?_)
      show offset + (k + 1) * g.pageSize = offset + g.pageSize + k * g.pageSize
      rw [Nat.succ_mul]
      omega
    rw [writePages_succ, hone, hrest, hplaces, advance_eq, after_after, Nat.add_comm 1]
    rfl

theorem writePages_of_misaligned (n : Nat) {g : Generator} {m : Memory} : ∀ {offset : Nat},
    g.pageSize % 4 = 0 → offset % 4 ≠ 0 → g.writePages m offset n = (g, m) := by
  induction n with
  | zero => exact fun _ _ => rfl
  | succ n ih =>
    intro offset aligned hoff
    rw [writePages_succ, writePage_of_misaligned hoff]
    exact ih aligned (by omega)

end Generator

/-! ### Superpages -/

namespace Superpage

/-- Where the pages begin that a superpage has received, unless it lies between two words. -/
def receivedPages (pageSize : Nat) (s : Superpage) : List Nat :=
  if s.offset % 4 = 0 then (List.range (s.received / pageSize)).map (s.offset + · * pageSize) else []

/-- Where the pages begin that a superpage has not received yet, unless it lies between two words. -/
def missingPlaces (pageSize : Nat) (s : Superpage) : List Nat :=
  if s.offset % 4 = 0 then
    (List.range (Emulated.missingPages pageSize s)).map (s.offset + s.received + · * pageSize)
  else []

variable {pageSize : Nat} {s : Superpage}

theorem receivedPages_of_empty (h : s.received = 0) : s.receivedPages pageSize = [] := by
  unfold receivedPages
  rw [h, Nat.zero_div]
  split <;> rfl

theorem missingPlaces_of_filled (h : s.received = s.size) : s.missingPlaces pageSize = [] := by
  unfold missingPlaces Emulated.missingPages
  rw [h, Nat.sub_self, Nat.zero_div]
  split <;> rfl

/-- What an empty superpage misses is what it has received in the end. -/
theorem receivedPages_filled (h : s.received = 0) :
    s.filled.receivedPages pageSize = s.missingPlaces pageSize := by
  unfold receivedPages missingPlaces Emulated.missingPages filled
  rw [h, Nat.sub_zero, Nat.add_zero]

theorem length_receivedPages (pageSize : Nat) (s : Superpage) :
    (s.receivedPages pageSize).length = if s.offset % 4 = 0 then s.received / pageSize else 0 := by
  unfold receivedPages
  split <;> simp

/-- A superpage in a memory of this size. -/
def Inside (size : Nat) (s : Superpage) : Prop :=
  s.offset + s.size < 2 ^ 64 ∧ s.offset + s.size ≤ size

/-- Superpages of which the first have received all and the others nothing. -/
def FilledFirst (queue : List Superpage) : Prop :=
  ∃ full empty, queue = full ++ empty ∧ (∀ s ∈ full, s.received = s.size) ∧
    ∀ s ∈ empty, s.received = 0

/-- A fill of such superpages gives them the pages that were missing, behind those received before. -/
theorem FilledFirst.receivedPages_filled {queue : List Superpage} (h : FilledFirst queue) :
    (queue.map filled).flatMap (receivedPages pageSize) =
      queue.flatMap (receivedPages pageSize) ++ queue.flatMap (missingPlaces pageSize) := by
  obtain ⟨full, empty, rfl, hfull, hempty⟩ := h
  have hkept : full.map filled = full := by
    refine (List.map_congr_left fun s hs => ?_).trans (List.map_id full)
    obtain ⟨o, size, received⟩ := s
    exact congrArg (Superpage.mk o size) (hfull _ hs).symm
  have hnone : full.flatMap (missingPlaces pageSize) = [] :=
    List.flatMap_eq_nil_iff.2 fun s hs => missingPlaces_of_filled (hfull s hs)
  have hzero : empty.flatMap (receivedPages pageSize) = [] :=
    List.flatMap_eq_nil_iff.2 fun s hs => receivedPages_of_empty (hempty s hs)
  have hnew : (empty.map filled).flatMap (receivedPages pageSize) =
      empty.flatMap (missingPlaces pageSize) := by
    rw [List.flatMap_map]
    exact List.flatMap_congr fun s hs => Superpage.receivedPages_filled (hempty s hs)
  rw [List.map_append, hkept]
  simp only [List.flatMap_append, hnone, hzero, hnew, List.nil_append, List.append_nil]

end Superpage

/-! ### Fills -/

namespace Emulated

variable {pageSize : Nat}

/-- A superpage of whole pages in the memory is filled by writing its missing pages. -/
theorem fillOne_writes {t : Generator × Memory} {s : Superpage} (aligned : t.1.pageSize % 4 = 0)
    (hs : s.Paged t.1.pageSize) (hin : s.Inside t.2.size) :
    (fillOne t s).2 = (t.1.after (s.missingPlaces t.1.pageSize).length,
      (t.1.writes (s.missingPlaces t.1.pageSize)).foldl PageWrite.into t.2) := by
  have hmul := missingPages_mul hs
  have hle := hs.received_le
  have hreceived : s.received % 4 = 0 :=
    Nat.mod_eq_zero_of_dvd ((Nat.dvd_of_mod_eq_zero aligned).trans hs.received_dvd)
  obtain ⟨haddr, hend⟩ := hin
  rw [snd_fillOne]
  unfold Superpage.missingPlaces
  split
  · rw [Generator.writePages_of_aligned _ _ _ aligned (by omega) (by omega) (by omega), List.length_map,
      List.length_range]
  · rw [Generator.writePages_of_misaligned _ aligned (by omega), List.length_nil,
      Generator.after_zero]
    rfl

/-- A queue is filled by writing the missing pages of its superpages in order. -/
theorem thread_fillOne_writes : ∀ (queue : List Superpage) (t : Generator × Memory),
    t.1.pageSize % 4 = 0 → (∀ s ∈ queue, s.Paged t.1.pageSize) →
    (∀ s ∈ queue, s.Inside t.2.size) →
    (thread fillOne t queue).2 =
      (t.1.after (queue.flatMap (·.missingPlaces t.1.pageSize)).length,
        (t.1.writes (queue.flatMap (·.missingPlaces t.1.pageSize))).foldl PageWrite.into t.2)
  | [], t, _, _, _ => by
    rw [List.flatMap_nil, List.length_nil, Generator.after_zero]
    rfl
  | s :: queue, t, aligned, hpaged, hin => by
    have hone := fillOne_writes aligned (hpaged s List.mem_cons_self) (hin s List.mem_cons_self)
    have hpage := pageSize_fillOne t s
    have hrest := thread_fillOne_writes queue (fillOne t s).2 (hpage ▸ aligned)
      (fun x hx => hpage ▸ hpaged x (List.mem_cons_of_mem s hx))
      (fun x hx => size_fillOne t s ▸ hin x (List.mem_cons_of_mem s hx))
    rw [hpage] at hrest
    simp only [thread]
    rw [hrest, hone, List.flatMap_cons, List.length_append, Generator.writes_append,
      List.foldl_append, Generator.after_after]

/-! ### Operations -/

/-- The pages that an operation writes. -/
def writesOf (x : Emulated × Memory) : Operation → List PageWrite
  | .fill =>
    if x.1.running then
      x.1.generator.writes (x.1.queue.toList.flatMap (·.missingPlaces x.1.generator.pageSize))
    else []
  | _ => []

/-- The pages that operations write, in order. -/
def allWrites (x : Emulated × Memory) : List Operation → List PageWrite
  | [] => []
  | o :: ops => writesOf x o ++ allWrites (perform x o).2 ops

/-- What holds of a channel and its buffer at any time, if the channel was fresh: its superpages lie in
the buffer, and those that have received all come before those that have received nothing. -/
structure Writing (pageSize : Nat) (x : Emulated × Memory) : Prop where
  sound : Sound pageSize x
  aligned : pageSize % 4 = 0
  inside : ∀ s ∈ x.1.queue.toList, s.Inside x.2.size
  ordered : Superpage.FilledFirst x.1.queue.toList

variable {x : Emulated × Memory}

/-- A fill writes its pages and counts them. -/
theorem Writing.fill_eq (h : Writing pageSize x) :
    (x.1.fill x.2).1.generator = x.1.generator.after (writesOf x .fill).length ∧
      (x.1.fill x.2).2 = (writesOf x .fill).foldl PageWrite.into x.2 := by
  unfold writesOf
  cases hrun : x.1.running with
  | false =>
    rw [fill_of_stopped hrun, if_neg Bool.false_ne_true, List.length_nil, Generator.after_zero]
    exact ⟨rfl, rfl⟩
  | true =>
    obtain ⟨q, hfill, -⟩ := Emulated.fill_eq hrun x.2
    have hpage := h.sound.pageSize_eq
    have hthread := thread_fillOne_writes x.1.queue.toList (x.1.generator, x.2)
      (hpage ▸ h.aligned) (hpage ▸ h.sound.paged) h.inside
    rw [hfill, if_pos rfl, Generator.length_writes]
    exact ⟨congrArg Prod.fst hthread, congrArg Prod.snd hthread⟩

/-- What an operation does to the queue, by its answer. -/
inductive Queues (x : Emulated × Memory) : Operation → Answer → List Superpage → Prop where
  | keeps {o : Operation} {a : Answer} (haccepted : Operation.accepted? (o, a) = none)
    (hpopped : Operation.popped? (o, a) = none) (hfill : o = .fill → x.1.running = false) :
    Queues x o a x.1.queue.toList
  | pushes {s : Superpage} (htakes : x.1.Takes s) :
    Queues x (.push s) .done (x.1.queue.toList ++ [⟨s.offset, s.size, 0⟩])
  | fills (hrun : x.1.running = true) : Queues x .fill .done (x.1.queue.toList.map Superpage.filled)
  | pops {s : Superpage} {rest : List Superpage} (hq : x.1.queue.toList = s :: rest) :
    Queues x .pop (.popped (some s)) rest

theorem Sound.queues (h : Sound pageSize x) (o : Operation) :
    Queues x o (Emulated.perform x o).1 (Emulated.perform x o).2.1.queue.toList := by
  obtain ⟨c, m⟩ := x
  cases o with
  | start =>
    rcases start_cases c with ⟨-, hc⟩ | ⟨-, hc⟩ <;> simp only [Emulated.perform, hc] <;>
      exact .keeps rfl rfl (by simp)
  | reset =>
    rcases reset_cases c with ⟨-, hc⟩ | ⟨-, hc⟩ <;> simp only [Emulated.perform, hc] <;>
      exact .keeps rfl rfl (by simp)
  | push s =>
    rcases push_cases c s with ⟨htakes, hc⟩ | ⟨-, e, hc⟩ <;> simp only [Emulated.perform, hc]
    · show Queues (c, m) (.push s) .done (c.queue.push _).toList
      rw [Fifo.toList_push]
      exact .pushes htakes
    · exact .keeps rfl rfl (by simp)
  | fill =>
    cases hrun : c.running with
    | false =>
      simp only [Emulated.perform, fill_of_stopped hrun]
      exact .keeps rfl rfl fun _ => hrun
    | true =>
      show Queues (c, m) .fill .done (c.fill m).1.queue.toList
      rw [h.queue_eq_fill hrun]
      exact .fills hrun
  | pop =>
    rcases pop_cases c with ⟨s, hq, hc⟩ | ⟨hc, -⟩ <;> simp only [Emulated.perform, hc]
    · exact .pops hq
    · exact .keeps rfl rfl (by simp)
  | stop => exact .keeps rfl rfl (by simp)
  | capacity n => exact .keeps rfl rfl (by simp)
  | faultInterval n => exact .keeps rfl rfl (by simp)

/-- **One operation** keeps the invariant. -/
theorem Writing.perform (h : Writing pageSize x) (o : Operation) :
    Writing pageSize (Emulated.perform x o).2 := by
  have hsize : (Emulated.perform x o).2.2.size = x.2.size := performAll_sizes [o] x
  have hqueues := h.sound.queues o
  obtain ⟨hsound, aligned, hin, full, empty, hq, hfull, hempty⟩ := h
  refine ⟨hsound.perform o, aligned, ?_, ?_⟩
  · rw [hsize]
    generalize (Emulated.perform x o).1 = answer, (Emulated.perform x o).2.1.queue.toList = queue
      at hqueues ⊢
    cases hqueues with
    | keeps => exact hin
    | pushes htakes =>
      obtain ⟨-, -, -, haddr, hend⟩ := htakes
      intro y hy
      rcases List.mem_append.1 hy with hy | hy
      · exact hin y hy
      · obtain rfl := List.mem_singleton.1 hy
        exact ⟨haddr, hsound.bufferSize_eq ▸ hend⟩
    | fills hrun =>
      intro y hy
      obtain ⟨s, hs, rfl⟩ := List.mem_map.1 hy
      exact hin s hs
    | pops hcons =>
      intro y hy
      exact hin y (hcons ▸ List.mem_cons_of_mem _ hy)
  · generalize (Emulated.perform x o).1 = answer, (Emulated.perform x o).2.1.queue.toList = queue
      at hqueues ⊢
    cases hqueues with
    | keeps => exact ⟨full, empty, hq, hfull, hempty⟩
    | @pushes s htakes =>
      refine ⟨full, empty ++ [⟨s.offset, s.size, 0⟩], ?_, hfull, fun y hy => ?_⟩
      · rw [hq, List.append_assoc]
      · rcases List.mem_append.1 hy with hy | hy
        · exact hempty y hy
        · rw [List.mem_singleton.1 hy]
    | fills hrun =>
      refine ⟨x.1.queue.toList.map Superpage.filled, [], (List.append_nil _).symm, ?_, nofun⟩
      intro y hy
      obtain ⟨s, -, rfl⟩ := List.mem_map.1 hy
      rfl
    | pops hcons =>
      rw [hcons] at hq
      cases full with
      | nil =>
        refine ⟨[], queue, rfl, nofun, fun y hy => hempty y ?_⟩
        rw [show empty = _ :: queue from hq.symm]
        exact List.mem_cons_of_mem _ hy
      | cons s full =>
        obtain ⟨-, hrest⟩ := List.cons.inj hq
        exact ⟨full, empty, hrest, fun y hy => hfull y (List.mem_cons_of_mem _ hy), hempty⟩

/-- Only a fill writes pages. -/
theorem writesOf_of_ne {o : Operation} (ho : o ≠ .fill) : writesOf x o = [] := by
  cases o with
  | fill => exact absurd rfl ho
  | _ => rfl

/-- **One operation**: what was received before and what it writes is what comes out with a superpage and
what the queue has received afterwards. -/
theorem perform_pages (h : Writing pageSize x) (o : Operation) :
    x.1.queue.toList.flatMap (·.receivedPages pageSize) ++ (writesOf x o).map (·.offset) =
      (Operation.popped? (o, (perform x o).1)).toList.flatMap (·.receivedPages pageSize) ++
        (perform x o).2.1.queue.toList.flatMap (·.receivedPages pageSize) := by
  have hqueues := h.sound.queues o
  generalize (Emulated.perform x o).1 = answer, (Emulated.perform x o).2.1.queue.toList = queue
    at hqueues ⊢
  cases hqueues with
  | keeps haccepted hpopped hfill =>
    have hnone : writesOf x o = [] := by
      by_cases ho : o = .fill
      · subst ho
        rw [writesOf, hfill rfl]
        rfl
      · exact writesOf_of_ne ho
    rw [hpopped, hnone]
    exact List.append_nil _
  | pushes htakes =>
    rw [writesOf_of_ne (by nofun), List.flatMap_append, List.flatMap_singleton,
      Superpage.receivedPages_of_empty rfl]
    rfl
  | fills hrun =>
    rw [writesOf, if_pos hrun, Generator.map_offset_writes, h.sound.pageSize_eq,
      ← h.ordered.receivedPages_filled]
    rfl
  | pops hcons =>
    rw [writesOf_of_ne (by nofun), hcons, List.flatMap_cons, List.map_nil, List.append_nil]
    exact congrArg (· ++ _) (List.flatMap_singleton _ _).symm

/-- Only fills and resets reach the memory and the counters of the generator. -/
theorem perform_rests {o : Operation} (hfill : o ≠ .fill) (hreset : o ≠ .reset) :
    (perform x o).2.2 = x.2 ∧
      (perform x o).2.1.generator.generated = x.1.generator.generated ∧
      (perform x o).2.1.generator.counter = x.1.generator.counter := by
  obtain ⟨c, m⟩ := x
  cases o with
  | fill => exact absurd rfl hfill
  | reset => exact absurd rfl hreset
  | start =>
    dsimp only [perform]
    rcases start_cases c with ⟨-, hc⟩ | ⟨-, hc⟩ <;> rw [hc] <;> exact ⟨rfl, rfl, rfl⟩
  | push s =>
    dsimp only [perform]
    rcases push_cases c s with ⟨-, hc⟩ | ⟨-, e, hc⟩ <;> rw [hc] <;> exact ⟨rfl, rfl, rfl⟩
  | pop =>
    dsimp only [perform]
    rcases pop_cases c with ⟨s, -, hc⟩ | ⟨hc, -⟩ <;> rw [hc] <;> exact ⟨rfl, rfl, rfl⟩
  | stop => exact ⟨rfl, rfl, rfl⟩
  | capacity n => exact ⟨rfl, rfl, rfl⟩
  | faultInterval n => exact ⟨rfl, rfl, rfl⟩

/-- **One operation** writes its pages and counts them. The counter of the next page goes on by as much,
and only a reset does anything else to it. -/
theorem perform_writes (h : Writing pageSize x) (o : Operation) :
    (perform x o).2.2 = (writesOf x o).foldl PageWrite.into x.2 ∧
      (perform x o).2.1.generator.generated = x.1.generator.generated + (writesOf x o).length ∧
      (perform x o).2.1.generator.counter =
        if o = .reset ∧ x.1.running = false then 0
        else x.1.generator.counter + (writesOf x o).length.toUInt32 := by
  have hzero : ∀ w : Word, w + ([] : List PageWrite).length.toUInt32 = w := UInt32.add_zero
  by_cases hfill : o = .fill
  · subst hfill
    obtain ⟨hgen, hm⟩ := h.fill_eq
    rw [if_neg (fun hreset => nomatch hreset.1)]
    exact ⟨hm, congrArg Generator.generated hgen, congrArg Generator.counter hgen⟩
  by_cases hreset : o = .reset
  · subst hreset
    obtain ⟨c, m⟩ := x
    rw [writesOf_of_ne hfill, hzero]
    rcases reset_cases c with ⟨hrun, hc⟩ | ⟨hrun, hc⟩
    · rw [if_neg (fun hoff => Bool.false_ne_true (hoff.2.symm.trans hrun))]
      dsimp only [perform]
      rw [hc]
      exact ⟨rfl, rfl, rfl⟩
    · rw [if_pos ⟨rfl, hrun⟩]
      dsimp only [perform]
      rw [hc]
      exact ⟨rfl, rfl, rfl⟩
  · rw [if_neg (fun h => hreset h.1), writesOf_of_ne hfill, hzero]
    exact perform_rests hfill hreset

/-! ### Histories -/

/-- **Any history** keeps the invariant, and it writes its pages and counts them. -/
theorem Writing.performAll (ops : List Operation) : ∀ {x : Emulated × Memory}, Writing pageSize x →
    Writing pageSize (Emulated.performAll x ops).2 ∧
      (Emulated.performAll x ops).2.2 = (allWrites x ops).foldl PageWrite.into x.2 ∧
      (Emulated.performAll x ops).2.1.generator.generated =
        x.1.generator.generated + (allWrites x ops).length := by
  induction ops with
  | nil => exact fun h => ⟨h, rfl, rfl⟩
  | cons o ops ih =>
    intro x h
    obtain ⟨hm, hcount, -⟩ := perform_writes h o
    obtain ⟨hend, hms, hcounts⟩ := ih (h.perform o)
    refine ⟨hend, ?_, ?_⟩
    · rw [allWrites, List.foldl_append, ← hm]
      exact hms
    · rw [allWrites, List.length_append, ← Nat.add_assoc, ← hcount]
      exact hcounts

/-- **In any history** the pages that it writes are those that its superpages receive. -/
theorem performAll_pages (ops : List Operation) : ∀ {x : Emulated × Memory}, Writing pageSize x →
    x.1.queue.toList.flatMap (·.receivedPages pageSize) ++ (allWrites x ops).map (·.offset) =
      (popped (performAll x ops).1).flatMap (·.receivedPages pageSize) ++
        (performAll x ops).2.1.queue.toList.flatMap (·.receivedPages pageSize) := by
  induction ops with
  | nil => exact fun _ => List.append_nil _
  | cons o ops ih =>
    intro x h
    have hone := perform_pages h o
    have hrest := ih (h.perform o)
    rw [performAll_cons, popped, filterMap_cons_eq, allWrites, List.map_append, ← List.append_assoc,
      hone, List.append_assoc, hrest, List.flatMap_append, List.append_assoc]
    rfl

/-- The pages that superpages have received, those between two words apart. -/
theorem length_flatMap_receivedPages (pageSize : Nat) (queue : List Superpage) :
    (queue.flatMap (·.receivedPages pageSize)).length +
        ((queue.filter fun s => s.offset % 4 ≠ 0).map (·.received / pageSize)).sum =
      (queue.map (·.received / pageSize)).sum := by
  induction queue with
  | nil => rfl
  | cons s queue ih =>
    rw [List.flatMap_cons, List.length_append, Superpage.length_receivedPages, List.filter_cons]
    by_cases hs : s.offset % 4 = 0
    · rw [if_pos hs, if_neg (by simpa using hs), List.map_cons, List.sum_cons]
      omega
    · rw [if_neg hs, if_pos (by simpa using hs), List.map_cons, List.map_cons, List.sum_cons,
        List.sum_cons]
      omega

/-- A channel and its buffer at the start. -/
theorem Writing.of_create {family : Family} {bufferSize : Nat} {pattern : Pattern} {c : Emulated}
    {m : Memory} (hc : create family bufferSize pageSize pattern = .ok c) (hm : m.size = bufferSize) :
    Writing pageSize (c, m) ∧ c.queue.toList = [] ∧ c.generator.generated = 0 := by
  obtain ⟨hsound, hnil, -⟩ := Sound.of_create hc hm
  obtain ⟨⟨-, aligned⟩, rfl⟩ := create_eq_ok.1 hc
  exact ⟨⟨hsound, aligned, nofun, [], [], rfl, nofun, nofun⟩, hnil, rfl⟩

/-- **What is received is written**, unless it lies between two words. After any history, on a channel for
a buffer of the given size: the buffer is what the pages written make of it, one after the other, and
their number is the count of the generator. They are the pages that the accepted superpages have received,
in the order of acceptance, those apart of superpages between two words; so if all superpages begin with a
word, the count is the sum of the pages that they have received. Each page takes one event counter, and
only a reset lets them begin anew. In 64 bits the count is the same as long as it has room. -/
theorem received_written {family : Family} {bufferSize : Nat} {pattern : Pattern} {c₀ c : Emulated}
    {m₀ m : Memory} {history : List (Operation × Answer)} {ops : List Operation}
    (hcreate : create family bufferSize pageSize pattern = .ok c₀) (hsize : m₀.size = bufferSize)
    (hrun : performAll (c₀, m₀) ops = (history, c, m)) :
    m = (allWrites (c₀, m₀) ops).foldl PageWrite.into m₀ ∧
      c.generator.generated = (allWrites (c₀, m₀) ops).length ∧
      (allWrites (c₀, m₀) ops).map (·.offset) =
        (popped history ++ c.queue.toList).flatMap (·.receivedPages pageSize) ∧
      c.generator.generated +
          (((popped history ++ c.queue.toList).filter fun s => s.offset % 4 ≠ 0).map
            (·.received / pageSize)).sum =
        ((popped history ++ c.queue.toList).map (·.received / pageSize)).sum ∧
      ((∀ s ∈ accepted history, s.offset % 4 = 0) → c.generator.generated =
        ((popped history ++ c.queue.toList).map (·.received / pageSize)).sum) ∧
      (∀ o, (perform (c, m) o).2.1.generator.counter =
        if o = .reset ∧ c.running = false then 0
        else c.generator.counter + (writesOf (c, m) o).length.toUInt32) ∧
      ((allWrites (c₀, m₀) ops).length < 2 ^ 64 →
        c.generator.counted.toNat = (allWrites (c₀, m₀) ops).length) := by
  obtain ⟨hstart, hnil, hzero⟩ := Writing.of_create hcreate hsize
  obtain ⟨hwriting, hm, hcount⟩ := Writing.performAll ops hstart
  have hpages := performAll_pages ops hstart
  have hbalance := performAll_balance ops hstart.sound
  rw [hrun] at hwriting hm hcount hpages hbalance
  rw [hzero, Nat.zero_add] at hcount
  rw [hnil, List.flatMap_nil, List.nil_append, ← List.flatMap_append] at hpages
  rw [hnil, List.map_nil, List.nil_append, ← List.map_append] at hbalance
  have hlength := congrArg List.length hpages
  rw [List.length_map, ← hcount] at hlength
  have hsum := length_flatMap_receivedPages pageSize (popped history ++ c.queue.toList)
  rw [← hlength] at hsum
  refine ⟨hm, hcount, hpages, hsum, fun hwords => ?_,
    fun o => (perform_writes hwriting o).2.2, fun hlt => ?_⟩
  · have hall : ∀ s ∈ popped history ++ c.queue.toList, s.offset % 4 = 0 := by
      intro s hs
      obtain ⟨y, hy, hregion⟩ := List.mem_map.1 (hbalance ▸ List.mem_map_of_mem hs)
      rw [← show y.offset = s.offset from congrArg Prod.fst hregion]
      exact hwords y hy
    have hnone : (popped history ++ c.queue.toList).filter (fun s => s.offset % 4 ≠ 0) = [] :=
      List.filter_eq_nil_iff.2 fun s hs => by simpa using hall s hs
    rw [← hsum, hnone]
    rfl
  · rw [Generator.counted, hcount]
    exact UInt64.toNat_ofNat_of_lt' hlt

/-- Two superpages are filled, of which one is popped, and a third is queued behind them. -/
theorem received_written_small :
    (performAll (smallChannel, ⟨64, .zero⟩) smallOperations).2.1.generator.generated = 3 ∧
      (allWrites (smallChannel, ⟨64, .zero⟩) smallOperations).map (·.offset) = [0, 8, 16] := by
  have hcreate : create .cru 64 8 .incremental = .ok smallChannel := rfl
  have hsize : (⟨64, .zero⟩ : Memory).size = 64 := rfl
  have hrun : performAll (smallChannel, ⟨64, .zero⟩) smallOperations =
      ((performAll (smallChannel, ⟨64, .zero⟩) smallOperations).1,
        (performAll (smallChannel, ⟨64, .zero⟩) smallOperations).2.1,
        (performAll (smallChannel, ⟨64, .zero⟩) smallOperations).2.2) := rfl
  have hwords : ∀ s ∈ accepted (performAll (smallChannel, ⟨64, .zero⟩) smallOperations).1,
      s.offset % 4 = 0 := by decide +kernel
  have hreceived : popped (performAll (smallChannel, ⟨64, .zero⟩) smallOperations).1 ++
      (performAll (smallChannel, ⟨64, .zero⟩) smallOperations).2.1.queue.toList =
        [⟨0, 16, 16⟩, ⟨16, 8, 8⟩, ⟨32, 16, 0⟩] := by decide +kernel
  obtain ⟨-, -, hpages, -, hcount, -⟩ := received_written hcreate hsize hrun
  rw [hreceived] at hpages hcount
  exact ⟨hcount hwords, hpages⟩

/-- A superpage that begins in the middle of a word. -/
def misplacedOperations : List Operation :=
  [.push ⟨2, 8, 0⟩, .start, .fill, .pop]

/-- **A page that is received and not written**: a superpage that begins in the middle of a word is
accepted and comes out complete, but nothing is in the buffer and no page was counted. -/
theorem misplaced_not_written :
    ¬∀ (family : Family) (bufferSize pageSize : Nat) (pattern : Pattern) (c₀ c : Emulated)
      (m₀ m : Memory) (history : List (Operation × Answer)) (ops : List Operation),
      create family bufferSize pageSize pattern = .ok c₀ → m₀.size = bufferSize →
      performAll (c₀, m₀) ops = (history, c, m) →
      c.generator.generated = ((popped history ++ c.queue.toList).map (·.received / pageSize)).sum := by
  intro hclaim
  have hrun : performAll (smallChannel, ⟨64, .zero⟩) misplacedOperations =
      ((performAll (smallChannel, ⟨64, .zero⟩) misplacedOperations).1,
        (performAll (smallChannel, ⟨64, .zero⟩) misplacedOperations).2.1,
        (performAll (smallChannel, ⟨64, .zero⟩) misplacedOperations).2.2) := rfl
  have hgenerated : (performAll (smallChannel, ⟨64, .zero⟩)
      misplacedOperations).2.1.generator.generated = 0 := by decide +kernel
  have hreceived : popped (performAll (smallChannel, ⟨64, .zero⟩) misplacedOperations).1 ++
      (performAll (smallChannel, ⟨64, .zero⟩) misplacedOperations).2.1.queue.toList = [⟨2, 8, 8⟩] := by
    decide +kernel
  have hcount := hclaim .cru 64 8 .incremental smallChannel _ ⟨64, .zero⟩ _ _ misplacedOperations rfl rfl
    hrun
  rw [hreceived, hgenerated] at hcount
  exact absurd hcount (by decide)

end Emulated

end DmaReadout
