import DmaReadout.Proofs.Circulation
import DmaReadout.Proofs.Consumers
import DmaReadout.Proofs.Receiving

/-! # The flow of superpages and the data in them

What the pages hold decides nothing about the way of the superpages. Two runs with the same turns, whose
channels treat superpages alike, move the same superpages in the same steps and count the same pages,
whatever is in their memories, whatever their channels write, and whether pages are checked, copied or
overwritten.

* `Channel.Alike`: two kinds of channels that treat superpages alike; `Emulated.alike`: emulated channels
  do so, whatever their generators write.
* `Pipeline.SameFlow`: two pipelines that differ in data only; `SameFlow.feed_step`, `SameFlow.read_step`:
  one step of either task; `Machine.SameFlow.run`: any sequence of turns.
* `data_steers_nothing`: the main statement. -/

namespace DmaReadout

/-! ### Channels -/

section Alike
variable {σ τ : Type} [Channel σ] [Channel τ]

/-- Channels that treat superpages alike: related ones have the same superpages queued and give the same
answers, and every call leaves them related, on any two memories of one size. -/
structure Channel.Alike (queue : σ → List Superpage) (queue' : τ → List Superpage)
    (R : σ → τ → Prop) : Prop where
  queue_eq : ∀ {c d}, R c d → queue' d = queue c
  queued_eq : ∀ {c d}, R c d → Channel.queued d = Channel.queued c
  available_eq : ∀ {c d}, R c d → Channel.available d = Channel.available c
  head?_eq : ∀ {c d}, R c d → Channel.head? d = Channel.head? c
  push : ∀ {c d} s, R c d → (Channel.push d s).1 = (Channel.push c s).1 ∧
    R (Channel.push c s).2 (Channel.push d s).2
  pop : ∀ {c d}, R c d → (Channel.pop d).1 = (Channel.pop c).1 ∧ R (Channel.pop c).2 (Channel.pop d).2
  fill : ∀ {c d} {m m' : Memory}, R c d → m'.size = m.size →
    R (Channel.fill c m).1 (Channel.fill d m').1 ∧
      (Channel.fill d m').2.size = (Channel.fill c m).2.size

end Alike

namespace Emulated

/-- Emulated channels that differ in their registers and in what they write only. -/
structure SameQueue (c d : Emulated) : Prop where
  pageSize_eq : d.generator.pageSize = c.generator.pageSize
  bufferSize_eq : d.bufferSize = c.bufferSize
  queue_eq : d.queue.toList = c.queue.toList
  capacity_eq : d.capacity = c.capacity
  running_eq : d.running = c.running

/-- A superpage receives its pages whatever is written on them. -/
theorem fillOne_alike {t u : Generator × Memory} (hpage : u.1.pageSize = t.1.pageSize)
    (hsize : u.2.size = t.2.size) (s : Superpage) :
    (fillOne u s).1 = (fillOne t s).1 ∧
      (fillOne u s).2.1.pageSize = (fillOne t s).2.1.pageSize ∧
      (fillOne u s).2.2.size = (fillOne t s).2.2.size := by
  obtain ⟨g, m⟩ := t
  obtain ⟨g', m'⟩ := u
  dsimp only at hpage hsize
  unfold fillOne
  dsimp only
  rw [hpage]
  split
  · exact ⟨rfl, hpage, hsize⟩
  · simp [hpage, hsize]

theorem thread_alike : ∀ (queue : List Superpage) {t u : Generator × Memory},
    u.1.pageSize = t.1.pageSize → u.2.size = t.2.size →
    (thread fillOne u queue).1 = (thread fillOne t queue).1 ∧
      (thread fillOne u queue).2.1.pageSize = (thread fillOne t queue).2.1.pageSize ∧
      (thread fillOne u queue).2.2.size = (thread fillOne t queue).2.2.size
  | [], _, _, hpage, hsize => ⟨rfl, hpage, hsize⟩
  | s :: queue, t, u, hpage, hsize => by
    obtain ⟨hs, hpage', hsize'⟩ := fillOne_alike hpage hsize s
    obtain ⟨hrest, hend⟩ := thread_alike queue hpage' hsize'
    refine ⟨?_, hend⟩
    simp only [thread, hs, hrest]

variable {c d : Emulated}

theorem SameQueue.push (h : SameQueue c d) (s : Superpage) :
    (d.push s).1 = (c.push s).1 ∧ SameQueue (c.push s).2 (d.push s).2 := by
  have hlen : d.queue.length = c.queue.length := by
    rw [← Fifo.length_toList, ← Fifo.length_toList, h.queue_eq]
  have hfits : d.fits s = c.fits s := by
    unfold fits
    rw [h.pageSize_eq, h.bufferSize_eq]
  unfold Emulated.push
  rw [hlen, hfits, h.capacity_eq]
  split
  · exact ⟨rfl, h⟩
  split
  · exact ⟨rfl, h⟩
  · refine ⟨rfl, h.pageSize_eq, h.bufferSize_eq, ?_, h.capacity_eq, h.running_eq⟩
    simp [h.queue_eq]

theorem SameQueue.pop (h : SameQueue c d) :
    d.pop.1 = c.pop.1 ∧ SameQueue c.pop.2 d.pop.2 := by
  have hhead : d.queue.head? = c.queue.head? := by
    rw [← Fifo.head?_toList, ← Fifo.head?_toList, h.queue_eq]
  unfold Emulated.pop
  rw [hhead, h.running_eq]
  split
  · exact ⟨rfl, h⟩
  split
  · refine ⟨rfl, h.pageSize_eq, h.bufferSize_eq, ?_, h.capacity_eq, rfl⟩
    simp [h.queue_eq]
  · exact ⟨rfl, h⟩

theorem SameQueue.fill (h : SameQueue c d) {m m' : Memory} (hsize : m'.size = m.size) :
    SameQueue (c.fill m).1 (d.fill m').1 ∧ (d.fill m').2.size = (c.fill m).2.size := by
  cases hc : c.running with
  | false =>
    rw [fill_of_stopped hc, fill_of_stopped (h.running_eq.trans hc)]
    exact ⟨h, hsize⟩
  | true =>
    obtain ⟨q, hfill, hq⟩ := fill_eq hc m
    obtain ⟨q', hfill', hq'⟩ := fill_eq (h.running_eq.trans hc) m'
    obtain ⟨hqueue, hpage, hsizes⟩ := thread_alike c.queue.toList
      (t := (c.generator, m)) (u := (d.generator, m')) h.pageSize_eq hsize
    rw [h.queue_eq] at hfill' hq'
    rw [hfill, hfill']
    exact ⟨⟨hpage, h.bufferSize_eq, hq'.trans (hqueue.trans hq.symm), h.capacity_eq, h.running_eq⟩,
      hsizes⟩

/-- **Emulated channels** treat superpages alike, whatever their generators write. -/
theorem alike : Channel.Alike (·.queue.toList) (·.queue.toList) SameQueue where
  queue_eq h := h.queue_eq
  queued_eq {c d} h := by
    show d.queue.length = c.queue.length
    rw [← Fifo.length_toList, ← Fifo.length_toList, h.queue_eq]
  available_eq {c d} h := by
    show d.capacity - d.queue.length = c.capacity - c.queue.length
    rw [← Fifo.length_toList, ← Fifo.length_toList, h.queue_eq, h.capacity_eq]
  head?_eq {c d} h := by
    show d.queue.head? = c.queue.head?
    rw [← Fifo.head?_toList, ← Fifo.head?_toList, h.queue_eq]
  push s h := h.push s
  pop h := h.pop
  fill h hsize := h.fill hsize

end Emulated

/-! ### Pipelines -/

theorem Memory.view_of_size {m m' : Memory} (h : m'.size = m.size) (offset length : Nat) :
    m'.view offset length = m.view offset length := by
  unfold view
  rw [h]

section Flow
variable {σ τ : Type} {R : σ → τ → Prop}

/-- Two pipelines that differ in data only: in the words of their memories, in what their channels write,
in their verifiers and in their copies, none of which can fail. -/
structure Pipeline.SameFlow (R : σ → τ → Prop) (p : Pipeline σ) (q : Pipeline τ) : Prop where
  size_eq : q.memory.size = p.memory.size
  channel : R p.channel q.channel
  free_eq : q.free = p.free
  ready_eq : q.ready = p.ready
  pushed_eq : q.stats.pushed = p.stats.pushed
  read_eq : q.stats.read = p.stats.read
  stopped_eq : q.stopped = p.stopped
  unlimited : Unlimited p.dump?
  unlimited' : Unlimited q.dump?

namespace Pipeline.SameFlow

variable {p : Pipeline σ} {q : Pipeline τ}

theorem unlimited_close {dump? : Option Dump} (h : Unlimited dump?) :
    Unlimited (dump?.map Dump.close) := by
  intro d hd
  obtain ⟨before, hbefore, rfl⟩ := Option.map_eq_some_iff.1 hd
  exact h before hbefore

/-- The way of the superpages after a page was read does not depend on what is on it. -/
theorem readPage (h : SameFlow R p q) (plan : Plan) (reset : Bool) (offset : Nat) :
    (q.readPage { plan with pageReset := reset } offset).1 = (p.readPage plan offset).1 ∧
      SameFlow R (p.readPage plan offset).2
        (q.readPage { plan with pageReset := reset } offset).2 := by
  have hview : q.memory.view offset ({ plan with pageReset := reset } : Plan).layout.pageSize =
      p.memory.view offset plan.layout.pageSize := Memory.view_of_size h.size_eq _ _
  cases hv : p.memory.view offset plan.layout.pageSize with
  | error e =>
    rw [readPage_of_error hv, readPage_of_error (hview.trans hv)]
    exact ⟨rfl, h⟩
  | ok v =>
    obtain ⟨hok, hp⟩ := copied_of_unlimited h.unlimited p.stats.read (p.memory.page v)
    obtain ⟨hok', hq⟩ := copied_of_unlimited h.unlimited' q.stats.read (q.memory.page v)
    obtain ⟨hread, hpushed⟩ :=
      checked_counts p.verifier? p.stats.addRead.2 p.stats.read (p.memory.page v)
    obtain ⟨hread', hpushed'⟩ :=
      checked_counts q.verifier? q.stats.addRead.2 q.stats.read (q.memory.page v)
    have hfill : ∀ (b : Bool) (m : Memory), (if b then m.fill v resetWord else m).size = m.size := by
      intro b m
      cases b <;> simp
    rw [readPage_of_view hv, readPage_of_view (hview.trans hv)]
    rcases hc : copied p.dump? p.stats.read (p.memory.page v) with ⟨r, dump?⟩
    rcases hc' : copied q.dump? q.stats.read (q.memory.page v) with ⟨r', dump?'⟩
    rw [hc] at hok hp
    rw [hc'] at hok' hq
    obtain rfl : r = .ok () := hok
    obtain rfl : r' = .ok () := hok'
    refine ⟨rfl, ?_, h.channel, h.free_eq, h.ready_eq, ?_, ?_, h.stopped_eq, hp, hq⟩
    · simp only [hfill, h.size_eq]
    · exact hpushed'.trans (h.pushed_eq.trans hpushed.symm)
    · exact hread'.trans ((congrArg (· + 1) h.read_eq).trans hread.symm)

/-! ### Steps of the tasks -/

/-- **A step of the reader** is the same in both, and leaves them alike. -/
theorem read_step (h : SameFlow R p q) (plan : Plan) (reset : Bool) (r : Reader) :
    (r.step { plan with pageReset := reset } q).1 = (r.step plan p).1 ∧
      SameFlow R (r.step plan p).2 (r.step { plan with pageReset := reset } q).2 := by
  cases r with
  | poll =>
    simp only [Reader.step, Reader.pollStep, h.stopped_eq, h.read_eq]
    split
    · exact ⟨rfl, h⟩
    split
    · exact ⟨rfl, { h with stopped_eq := rfl }⟩
    · exact ⟨rfl, h⟩
  | take =>
    simp only [Reader.step, Reader.takeStep, h.ready_eq]
    split
    · exact ⟨rfl, h⟩
    · exact ⟨rfl, { h with ready_eq := rfl }⟩
  | reading offset page =>
    obtain ⟨hfail, hrest⟩ := h.readPage plan reset (offset + page * plan.layout.pageSize)
    simp only [Reader.step, Reader.readingStep, h.read_eq]
    split
    · rcases hp : p.readPage plan (offset + page * plan.layout.pageSize) with ⟨e?, p'⟩
      rcases hq : q.readPage { plan with pageReset := reset }
        (offset + page * plan.layout.pageSize) with ⟨e?', q'⟩
      rw [hp, hq] at hfail hrest
      obtain rfl : e?' = e? := hfail
      cases e?' <;> exact ⟨rfl, hrest⟩
    · exact ⟨rfl, h⟩
  | giveBack offset failure? =>
    simp only [Reader.step, Reader.giveBackStep, offerFree_eq, h.free_eq]
    cases (p.free.offer offset).1 with
    | false =>
      exact ⟨rfl, { h with
        free_eq := rfl
        stopped_eq := rfl
        unlimited := unlimited_close h.unlimited
        unlimited' := unlimited_close h.unlimited' }⟩
    | true =>
      cases failure? with
      | none => exact ⟨rfl, { h with free_eq := rfl }⟩
      | some e =>
        exact ⟨rfl, { h with
          free_eq := rfl
          stopped_eq := rfl
          unlimited := unlimited_close h.unlimited
          unlimited' := unlimited_close h.unlimited' }⟩
  | done failure? => exact ⟨rfl, h⟩

variable [Channel σ] [Channel τ] {queue : σ → List Superpage} {queue' : τ → List Superpage}

/-- **A step of the feeder** is the same in both, and leaves them alike. -/
theorem feed_step (ha : Channel.Alike queue queue' R) (h : SameFlow R p q) (plan : Plan) (reset : Bool)
    (f : Feeder) :
    (f.step { plan with pageReset := reset } q).1 = (f.step plan p).1 ∧
      SameFlow R (f.step plan p).2 (f.step { plan with pageReset := reset } q).2 := by
  cases f with
  | poll =>
    simp only [Feeder.step, h.stopped_eq, h.pushed_eq]
    split <;> exact ⟨rfl, h⟩
  | fill =>
    obtain ⟨hc, hsize⟩ := ha.fill h.channel h.size_eq
    exact ⟨rfl, { h with size_eq := hsize, channel := hc }⟩
  | feed =>
    simp only [Feeder.step, Feeder.feedStep, ha.available_eq h.channel, h.free_eq]
    split
    · exact ⟨rfl, h⟩
    split
    · exact ⟨rfl, h⟩
    · exact ⟨rfl, { h with free_eq := rfl }⟩
  | submit offset =>
    obtain ⟨hanswer, hc⟩ := ha.push ⟨offset, plan.layout.superpageSize, 0⟩ h.channel
    simp only [Feeder.step, Feeder.submitStep, onChannel_eq, hanswer]
    cases (Channel.push p.channel ⟨offset, plan.layout.superpageSize, 0⟩).1 with
    | ok => exact ⟨rfl, { h with channel := hc }⟩
    | error e => exact ⟨rfl, { h with channel := hc, stopped_eq := rfl }⟩
  | handOver =>
    simp only [Feeder.step, Feeder.handOverStep, ha.queued_eq h.channel, ha.head?_eq h.channel,
      offerReady_eq, h.ready_eq]
    split
    · exact ⟨rfl, h⟩
    split
    · exact ⟨rfl, h⟩
    rename_i s hhead
    split
    · cases (p.ready.offer s.offset).1 <;> exact ⟨rfl, { h with ready_eq := rfl }⟩
    · exact ⟨rfl, h⟩
  | collect offset =>
    obtain ⟨hanswer, hc⟩ := ha.pop h.channel
    simp only [Feeder.step, Feeder.collectStep, onChannel_eq, hanswer]
    cases (Channel.pop p.channel).1 with
    | none => exact ⟨rfl, { h with channel := hc, stopped_eq := rfl }⟩
    | some s =>
      dsimp only
      split
      · exact ⟨rfl, { h with
          channel := hc
          pushed_eq := congrArg (· + plan.layout.pagesPerSuperpage.toUInt64) h.pushed_eq }⟩
      · exact ⟨rfl, { h with channel := hc, stopped_eq := rfl }⟩
  | done failure? => exact ⟨rfl, h⟩

end Pipeline.SameFlow

/-! ### Runs -/

namespace Machine

/-- Two machines that differ in data only, with both tasks at the same points. -/
structure SameFlow (R : σ → τ → Prop) (m : Machine σ) (n : Machine τ) : Prop where
  shared : m.shared.SameFlow R n.shared
  feeder_eq : n.feeder = m.feeder
  reader_eq : n.reader = m.reader

variable [Channel σ] [Channel τ] {queue : σ → List Superpage} {queue' : τ → List Superpage}

theorem SameFlow.step (ha : Channel.Alike queue queue' R) {m : Machine σ} {n : Machine τ}
    (h : m.SameFlow R n) (plan : Plan) (reset : Bool) (t : Turn) :
    (m.step plan t).SameFlow R (n.step { plan with pageReset := reset } t) := by
  obtain ⟨p, f, r⟩ := m
  obtain ⟨q, f', r'⟩ := n
  obtain ⟨hshared, hf, hr⟩ := h
  obtain rfl : f' = f := hf
  obtain rfl : r' = r := hr
  cases t with
  | feed =>
    obtain ⟨hfeeder, hafter⟩ := hshared.feed_step ha plan reset f'
    exact ⟨hafter, hfeeder, rfl⟩
  | read =>
    obtain ⟨hreader, hafter⟩ := hshared.read_step plan reset r'
    exact ⟨hafter, rfl, hreader⟩
  | stop => exact ⟨{ hshared with stopped_eq := rfl }, rfl, rfl⟩

theorem SameFlow.run (ha : Channel.Alike queue queue' R) (plan : Plan) (reset : Bool)
    (turns : List Turn) : ∀ {m : Machine σ} {n : Machine τ}, m.SameFlow R n →
    (m.run plan turns).SameFlow R (n.run { plan with pageReset := reset } turns) := by
  induction turns with
  | nil => exact fun h => h
  | cons t turns ih => exact fun h => ih (h.step ha plan reset t)

/-- **The data of pages steer nothing.** Two runs take the same turns with the same layout and limit, on
channels that treat superpages alike and with the same superpages at the start. However their memories,
the words that their channels write, their verifiers, their copies and the overwriting of pages differ,
after every sequence of turns the superpages are at the same places, the same pages were counted, and
both tasks stand at the same points, asked to end in both or in none. -/
theorem data_steers_nothing (ha : Channel.Alike queue queue' R) (plan : Plan) (reset : Bool)
    {m : Machine σ} {n : Machine τ} (h : m.SameFlow R n) (turns : List Turn) :
    let m' := m.run plan turns
    let n' := n.run { plan with pageReset := reset } turns
    n'.shared.free.toList = m'.shared.free.toList ∧
      queue' n'.shared.channel = queue m'.shared.channel ∧
      n'.shared.ready.toList = m'.shared.ready.toList ∧
      n'.shared.stopped = m'.shared.stopped ∧
      n'.shared.stats.pushed = m'.shared.stats.pushed ∧
      n'.shared.stats.read = m'.shared.stats.read ∧
      n'.feeder = m'.feeder ∧ n'.reader = m'.reader := by
  have hrun := h.run ha plan reset turns
  have hflow := hrun.shared
  exact ⟨congrArg _ hflow.free_eq, ha.queue_eq hflow.channel, congrArg _ hflow.ready_eq,
    hflow.stopped_eq, hflow.pushed_eq, hflow.read_eq, hrun.feeder_eq, hrun.reader_eq⟩

/-- The small pipeline with a channel of the older card and another pattern, a memory that is not empty, a
verifier that expects something else, and no copy. -/
def smallOther : Pipeline Emulated :=
  { Pipeline.small with
    memory := (⟨160, .zero⟩ : Memory).write 3 7
    channel := { Emulated.small with
      generator := { family := .crorc, pattern := .alternating, pageSize := 40 } }
    verifier? := some ⟨.cru, .constant, true, none, .silent⟩
    dump? := none }

theorem sameFlow_small : (start Pipeline.small).SameFlow Emulated.SameQueue (start smallOther) where
  shared :=
    { size_eq := rfl
      channel := ⟨rfl, rfl, rfl, rfl, rfl⟩
      free_eq := rfl
      ready_eq := rfl
      pushed_eq := rfl
      read_eq := rfl
      stopped_eq := rfl
      unlimited := by rintro _ ⟨⟩; rfl
      unlimited' := nofun }
  feeder_eq := rfl
  reader_eq := rfl

/-- Where one run finds no mismatch and the other finds one on every page, both give a superpage back
while the feeder is about to take it from the channel. -/
theorem data_steers_nothing_small :
    ((start smallOther).run { layout := .small, pageReset := true }
        (.replicate 10 .feed ++ .replicate 6 .read)).shared.free.toList = [80, 0] ∧
      ((start smallOther).run { layout := .small, pageReset := true }
        (.replicate 10 .feed ++ .replicate 6 .read)).shared.stats.read = 2 ∧
      ((start smallOther).run { layout := .small, pageReset := true }
        (.replicate 10 .feed ++ .replicate 6 .read)).shared.stats.errors = 2 := by
  obtain ⟨hfree, -, -, -, -, hread, -⟩ := data_steers_nothing Emulated.alike { layout := .small } true
    sameFlow_small (.replicate 10 .feed ++ .replicate 6 .read)
  exact ⟨hfree.trans (by decide +kernel), hread.trans (by decide +kernel), by decide +kernel⟩

end Machine

end Flow

end DmaReadout
