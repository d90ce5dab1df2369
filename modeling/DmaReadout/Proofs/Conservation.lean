import DmaReadout.Proofs.Outcome
import DmaReadout.Proofs.Receiving

/-! # Conservation of pages

Superpages are taken from the channel in three places: by the feeder, which counts them as whole; by the
looks at the running channel when the tasks have ended; and by the reclaim after the stop. The last two
count the pages that a superpage has received. No page is lost between them, and none is counted twice.

* `Tidy`: whatever is on the queues or held by a task is an offset of the layout.
* `Received`: the pages received are those already counted and those of the superpages in the channel;
  `Received.fill`, `Received.push`, `Received.pop`: what the calls to the channel do to this.
* `Balanced`: the feeder has counted the superpages that it took; `Machine.Reaches.balanced`: so it is
  in every state that the two tasks can reach.
* `Received.drain`, `Received.shutdown`: the pages found at the end.
* `pages_conserved`: the main statement. -/

namespace DmaReadout

variable {σ : Type} {a : Intake σ} {l : Layout} {plan : Plan} {base k n : Nat}
  {p q : Pipeline σ} {f : Feeder} {r : Reader}

/-! ### Offsets that go round -/

theorem Pipeline.queues_readPage (plan : Plan) (p : Pipeline σ) (offset : Nat) :
    (p.readPage plan offset).2.free = p.free ∧ (p.readPage plan offset).2.ready = p.ready := by
  cases hv : p.memory.view offset plan.layout.pageSize with
  | error e =>
    rw [Pipeline.readPage_of_error hv]
    exact ⟨rfl, rfl⟩
  | ok v =>
    obtain ⟨-, hfree, hready, -⟩ := Pipeline.readPage_keeps hv
    exact ⟨hfree, hready⟩

/-- Whatever is on the queues or held by a task is an offset of the layout. -/
structure Tidy (l : Layout) (p : Pipeline σ) (f : Feeder) (r : Reader) : Prop where
  free_mem : ∀ o ∈ p.free.toList, o ∈ l.offsets
  ready_mem : ∀ o ∈ p.ready.toList, o ∈ l.offsets
  feeder_mem : ∀ o ∈ f.held, o ∈ l.offsets
  reader_mem : ∀ o ∈ r.held, o ∈ l.offsets

theorem Tidy.read_step (h : Tidy l p f r) :
    Tidy l (r.step plan p).2 f (r.step plan p).1 := by
  obtain ⟨hfree, hready, hfeeder, hreader⟩ := h
  have hback : ∀ {offset}, offset ∈ r.held → ∀ o ∈ (p.free.offer offset).2.toList, o ∈ l.offsets := by
    intro offset hheld o ho
    rcases Ring.mem_offer ho with ho | rfl
    · exact hfree o ho
    · exact hreader _ hheld
  rcases hstep : r.step plan p with ⟨r', q⟩
  cases Reader.moves hstep with
  | takes hpop =>
    rw [Ring.toList_pop hpop] at hready
    refine ⟨hfree, fun o ho => hready o (List.mem_cons_of_mem _ ho), hfeeder, fun o ho => ?_⟩
    obtain rfl := List.mem_singleton.1 ho
    exact hready o List.mem_cons_self
  | @reads offset page _ _ hread | @fails offset page _ _ _ hread =>
    obtain ⟨hf, hr⟩ := p.queues_readPage plan (offset + page * plan.layout.pageSize)
    rw [hread] at hf hr
    exact ⟨hf ▸ hfree, hr ▸ hready, hfeeder, hreader⟩
  | finishes => exact ⟨hfree, hready, hfeeder, hreader⟩
  | returns | abandons | crowded => exact ⟨hback List.mem_cons_self, hready, hfeeder, nofun⟩
  | _ => exact ⟨hfree, hready, hfeeder, nofun⟩

/-! ### Pages received -/

/-- The channel has received `n` pages that were counted, and those of the superpages that it holds. -/
structure Received (a : Intake σ) (l : Layout) (p : Pipeline σ) (n : Nat) : Prop where
  sound : a.sound p.channel
  holds : l.bytes ≤ p.memory.size
  received_eq : a.received p.channel = n + l.pagesIn (a.queue p.channel)

namespace Received

theorem keeps (h : Received a l p n) (hm : q.memory.size = p.memory.size)
    (hc : a.Keeps p.channel q.channel) : Received a l q n := by
  obtain ⟨hsound, hqueue, hreceived⟩ := hc h.sound
  refine ⟨hsound, hm ▸ h.holds, ?_⟩
  rw [hreceived, hqueue, h.received_eq]

theorem same (h : Received a l p n) (hm : q.memory.size = p.memory.size)
    (hc : q.channel = p.channel) : Received a l q n :=
  ⟨hc ▸ h.sound, hm ▸ h.holds, hc ▸ h.received_eq⟩

end Received

/-! ### The two tasks -/

/-- The feeder has counted the pages of the `k` superpages that it took, besides those counted before;
and it takes a superpage only when this is filled. -/
structure Balanced (a : Intake σ) (plan : Plan) (base : Nat) (p : Pipeline σ) (f : Feeder)
    (r : Reader) (k : Nat) : Prop where
  tidy : Tidy plan.layout p f r
  received : Received a plan.layout p (base + k * plan.layout.pagesPerSuperpage)
  pushed_eq : p.stats.pushed = (k * plan.layout.pagesPerSuperpage).toUInt64
  head_filled : ∀ o, f = .collect o → ∃ s, (a.queue p.channel).head? = some s ∧ s.isFilled = true

/-- What a step of the reader leaves as it is. -/
theorem Reader.sizes_step (plan : Plan) (p : Pipeline σ) (r : Reader) :
    (r.step plan p).2.memory.size = p.memory.size ∧
      (r.step plan p).2.stats.pushed = p.stats.pushed := by
  cases hpage : r.page? plan p with
  | none =>
    have hl := Reader.leaves hpage
    rw [hl.memory_eq, hl.stats_eq]
    exact ⟨rfl, rfl⟩
  | some pg =>
    obtain ⟨hstats, -⟩ := Reader.step_page hpage
    obtain ⟨-, hpushed⟩ := Pipeline.checked_counts p.verifier? p.stats.addRead.2 pg.event pg.words
    obtain ⟨offset, page, v, rfl, hgo, hv, rfl⟩ := Reader.reading_of_page hpage
    refine ⟨?_, by rw [hstats]; exact hpushed⟩
    obtain ⟨-, hmem | hmem⟩ := Reader.memory_page hpage hv <;> rw [hmem]
    exact Memory.size_fill _ _ _

theorem Balanced.read_step (h : Balanced a plan base p f r k) :
    Balanced a plan base (r.step plan p).2 f (r.step plan p).1 k := by
  have hchannel := Reader.channel_step plan p r
  obtain ⟨hsize, hpushed⟩ := Reader.sizes_step plan p r
  exact ⟨h.tidy.read_step, h.received.same hsize hchannel, hpushed.trans h.pushed_eq,
    hchannel ▸ h.head_filled⟩

/-! ### The calls of the feeder -/

variable [Channel σ]

theorem Tidy.feed_step (h : Tidy l p f r)
    (hhead : ∀ s, Channel.head? p.channel = some s → s.offset ∈ l.offsets) :
    Tidy l (f.step plan p).2 (f.step plan p).1 r := by
  obtain ⟨hfree, hready, hfeeder, hreader⟩ := h
  rcases hstep : f.step plan p with ⟨f', q⟩
  cases Feeder.moves hstep with
  | takes _ hpop =>
    rw [Ring.toList_pop hpop] at hfree
    refine ⟨fun o ho => hfree o (List.mem_cons_of_mem _ ho), hready, fun o ho => ?_, hreader⟩
    obtain rfl := List.mem_singleton.1 ho
    exact hfree o List.mem_cons_self
  | offers hs | crowded hs =>
    refine ⟨hfree, fun o ho => ?_, nofun, hreader⟩
    rcases Ring.mem_offer ho with ho | rfl
    · exact hready o ho
    · exact hhead _ hs
  | _ => exact ⟨hfree, hready, nofun, hreader⟩

namespace Received

theorem fill (ha : a.Receives l) (h : Received a l p n) : Received a l p.fill n := by
  obtain ⟨hsound, hsize, hbalance⟩ := ha.fill h.sound h.holds
  have hreceived := h.received_eq
  refine ⟨hsound, hsize ▸ h.holds, ?_⟩
  show a.received (Channel.fill p.channel p.memory).1 =
    n + l.pagesIn (a.queue (Channel.fill p.channel p.memory).1)
  omega

theorem push (ha : a.Receives l) (h : Received a l p n) {o : Nat} (ho : o ∈ l.offsets)
    (hok : (Channel.push p.channel ⟨o, l.superpageSize, 0⟩).1 = .ok ()) :
    Received a l { p with channel := (Channel.push p.channel ⟨o, l.superpageSize, 0⟩).2 } n := by
  obtain ⟨hsound, hqueue, hreceived⟩ := ha.push h.sound ho hok
  refine ⟨hsound, h.holds, ?_⟩
  rw [hqueue, hreceived, l.pagesIn_push, h.received_eq]

/-- The pages of a superpage that is taken are to be counted. -/
theorem pop (ha : a.Receives l) (h : Received a l p n) {s : Superpage}
    (hs : (Channel.pop p.channel).1 = some s) :
    Received a l { p with channel := (Channel.pop p.channel).2 } (n + s.received / l.pageSize) := by
  obtain ⟨hsound, hqueue, hreceived⟩ := ha.pop_some h.sound hs
  refine ⟨hsound, h.holds, ?_⟩
  rw [hreceived, h.received_eq, hqueue, l.pagesIn_cons, Nat.add_assoc]

end Received

theorem Balanced.feed_step (ha : a.Receives plan.layout) (h : Balanced a plan base p f r k) :
    (∃ e, (f.step plan p).1 = .done (some e)) ∨
      ∃ k', Balanced a plan base (f.step plan p).2 (f.step plan p).1 r k' := by
  have hhead : ∀ s, Channel.head? p.channel = some s → (a.queue p.channel).head? = some s :=
    fun s hs => ha.head?_eq h.received.sound hs
  have htidy : Tidy plan.layout (f.step plan p).2 (f.step plan p).1 r :=
    h.tidy.feed_step fun s hs =>
      (ha.onLayout h.received.sound s (List.mem_of_mem_head? (hhead s hs))).offset_mem
  rcases hstep : f.step plan p with ⟨f', q⟩
  rw [hstep] at htidy
  cases Feeder.moves hstep with
  | refused | stuck | differs => exact Or.inl ⟨_, rfl⟩
  | fills => exact Or.inr ⟨k, htidy, h.received.fill ha, h.pushed_eq, nofun⟩
  | pushes hpush =>
    have hmem := h.tidy.feeder_mem _ List.mem_cons_self
    exact Or.inr ⟨k, htidy, h.received.push ha hmem hpush, h.pushed_eq, nofun⟩
  | @offers s hs hfilled =>
    exact Or.inr ⟨k, htidy, h.received.same rfl rfl, h.pushed_eq, fun _ _ => ⟨s, hhead s hs, hfilled⟩⟩
  | @collects s hpop =>
    -- the superpage at the head was seen filled, and nobody else takes superpages in between
    obtain ⟨x, hx, hfilled⟩ := h.head_filled _ rfl
    obtain ⟨-, hqueue, -⟩ := ha.pop_some h.received.sound hpop
    obtain rfl : s = x := by
      rw [hqueue, List.head?_cons] at hx
      exact Option.some.inj hx
    have hs := ha.onLayout h.received.sound s (by rw [hqueue]; exact List.mem_cons_self)
    have hreceived := h.received.pop ha hpop
    rw [hs.pages_of_filled hfilled, Nat.add_assoc, ← Nat.succ_mul] at hreceived
    refine Or.inr ⟨k + 1, htidy, hreceived.same rfl rfl, ?_, nofun⟩
    show p.stats.pushed + plan.layout.pagesPerSuperpage.toUInt64 = _
    rw [h.pushed_eq, Nat.succ_mul]
    exact (UInt64.ofNat_add _ _).symm
  | _ => exact Or.inr ⟨k, htidy, h.received.same rfl rfl, h.pushed_eq, nofun⟩

namespace Machine

variable {m m' : Machine σ}

/-- A feeder that fails takes no further superpage. -/
theorem Reaches.balanced (ha : a.Receives plan.layout) (hreach : m.Reaches plan m')
    (h : Balanced a plan base m.shared m.feeder m.reader k) :
    (∃ e, m'.feeder = .done (some e)) ∨
      ∃ k', Balanced a plan base m'.shared m'.feeder m'.reader k' := by
  obtain ⟨turns, rfl⟩ := hreach
  suffices hrun : ∀ {m : Machine σ}, ((∃ e, m.feeder = .done (some e)) ∨
      ∃ k, Balanced a plan base m.shared m.feeder m.reader k) →
      (∃ e, (m.run plan turns).feeder = .done (some e)) ∨
        ∃ k, Balanced a plan base (m.run plan turns).shared (m.run plan turns).feeder
          (m.run plan turns).reader k from
    hrun (Or.inr ⟨k, h⟩)
  clear h
  induction turns with
  | nil => exact fun h => h
  | cons t turns ih =>
    rintro ⟨p, f, r⟩ (⟨e, rfl⟩ | ⟨k, h⟩)
    · refine ih (Or.inl ⟨e, ?_⟩)
      cases t <;> rfl
    · refine ih ?_
      cases t with
      | feed => exact h.feed_step ha
      | read => exact Or.inr ⟨k, h.read_step⟩
      | stop =>
        obtain ⟨⟨hfree, hready, hfeeder, hreader⟩, hreceived, hpushed, hhead⟩ := h
        exact Or.inr ⟨k, ⟨hfree, hready, hfeeder, hreader⟩, hreceived.same rfl rfl, hpushed, hhead⟩

end Machine

/-! ### The shutdown -/

/-- The looks at the running channel count the pages of the superpages that they take. -/
theorem Received.drain (ha : a.Receives plan.layout) (rounds : Nat) :
    ∀ (pages : Nat) {p : Pipeline σ}, Received a plan.layout p (base + pages) →
    (p.drain plan rounds pages).1 = .ok n →
    Received a plan.layout (p.drain plan rounds pages).2 (base + n) := by
  -- the pages counted so far go along with the looks that are left
  induction rounds with
  | zero =>
    intro pages p h hok
    cases hok
    exact h
  | succ rounds ih =>
    intro pages p h hok
    have hfill := h.fill ha
    have hlooks := p.looks plan rounds pages
    generalize p.drain plan (rounds + 1) pages = x at hlooks hok ⊢
    cases hlooks with
    | ends =>
      cases hok
      exact h
    | nothing => exact ih _ hfill hok
    | withheld hpop => exact ih _ (hfill.keeps rfl (ha.pop_none hpop)) hok
    | crowded => cases hok
    | takes hpop =>
      have hnext := hfill.pop ha hpop
      rw [Nat.add_assoc] at hnext
      exact ih _ (hnext.same rfl rfl) hok

/-- A channel that is off gives back all superpages that it has, and receives nothing. -/
theorem Intake.Receives.popsAll (ha : a.Receives l) {c c' : σ} {ss : List Superpage}
    (h : PopsAll Channel.pop c ss c') (hsound : a.sound c) (hhalted : a.halted c) :
    a.sound c' ∧ ss = a.queue c ∧ a.received c' = a.received c := by
  induction h with
  | @ends c _ hpop =>
    obtain ⟨hnone, rfl⟩ := Prod.ext_iff.1 hpop
    obtain ⟨hsound', -, hreceived⟩ := ha.pop_none hnone hsound
    exact ⟨hsound', ((ha.pop_halted hhalted).2 hnone).symm, hreceived⟩
  | @gives c _ _ s _ hpop _ ih =>
    obtain ⟨hsome, rfl⟩ := Prod.ext_iff.1 hpop
    obtain ⟨hsound', hqueue, hreceived⟩ := ha.pop_some hsound hsome
    obtain ⟨hsafe, hall, hcount⟩ := ih hsound' (ha.pop_halted hhalted).1
    exact ⟨hsafe, by rw [hall, hqueue], hcount.trans hreceived⟩

theorem Pipeline.sum_receivedPages (plan : Plan) (popped : List Superpage) :
    (popped.map (receivedPages plan)).sum = plan.layout.pagesIn popped := by
  induction popped with
  | nil => rfl
  | cons s popped ih =>
    rw [List.map_cons, List.sum_cons, ih]
    rfl

/-- **The shutdown finds all pages** that the channel has received and that were not counted before. -/
theorem Received.shutdown (ha : a.Receives plan.layout) (h : Received a plan.layout p base)
    {rounds : Nat} {found : Reclaimed} (hok : (p.shutdown plan rounds).1 = .ok found) :
    a.sound (p.shutdown plan rounds).2.channel ∧
      a.received (p.shutdown plan rounds).2.channel = base + found.pages := by
  obtain ⟨pages, hdrained, -, -, -, hpages, -⟩ := Pipeline.shutdown_eq_ok hok
  have hrest := Received.drain ha rounds 0 h hdrained
  obtain ⟨hsound, hqueue, hstop⟩ := ha.stop (p.drained plan rounds).2.channel hrest.sound
  obtain ⟨hsafe, hall, hreceived⟩ :=
    ha.popsAll (p.popsAll_givenBack plan rounds) hsound (ha.stop_halts _)
  -- the stopped channel gives back what the looks have left in its queue
  have hgiven : (p.givenBack plan rounds).1.toList = a.queue (p.drained plan rounds).2.channel :=
    hall.trans hqueue
  rw [Pipeline.shutdown_eq, hpages, Pipeline.sum_receivedPages, hgiven, ← Nat.add_assoc]
  refine ⟨hsafe, ?_⟩
  exact hreceived.trans (hstop.trans hrest.received_eq)

/-! ### The main statement -/

/-- A report accounts for so many pages: those of the superpages that the feeder took, which are counted
as whole, and those that were found at the end. -/
structure Report.Accounts (report : Report) (l : Layout) (pages : Nat) : Prop where
  whole : ∃ taken, report.stats.pushed = (taken * l.pagesPerSuperpage).toUInt64 ∧
    pages = taken * l.pagesPerSuperpage + report.drainedPages
  total : pages < 2 ^ 64 → pages = report.stats.pushed.toNat + report.drainedPages

theorem Report.Accounts.of_taken {report : Report} {pages taken : Nat}
    (hpushed : report.stats.pushed = (taken * l.pagesPerSuperpage).toUInt64)
    (hpages : pages = taken * l.pagesPerSuperpage + report.drainedPages) :
    report.Accounts l pages := by
  refine ⟨⟨taken, hpushed, hpages⟩, fun hlt => ?_⟩
  have hfits : taken * l.pagesPerSuperpage < 2 ^ 64 := by omega
  rw [hpages, hpushed]
  exact congrArg (· + _) (UInt64.toNat_ofNat_of_lt' hfits).symm

namespace Bench

variable {b : Bench} {timing : Timing σ} {s : Setup} {c : σ} {mapping : Mapping} {files : Files}

/-- A transfer that succeeds reports the counters of its tasks and what its shutdown found. -/
theorem transfer_of_ok {family : Family} {report : Report}
    (h : (b.transfer timing s family mapping p).result = .ok report) :
    (∀ e, (timing.tasks b.plan (.start p)).feeder ≠ .done (some e)) ∧
      ∃ found, ((timing.tasks b.plan (.start p)).shared.shutdown b.plan
          (timing.drainRounds (timing.tasks b.plan (.start p)).shared)).1 = .ok found ∧
        report.drainedPages = found.pages ∧
        report.stats = (timing.tasks b.plan (.start p)).shared.stats := by
  obtain ⟨hfailure, found, hshutdown, rfl⟩ := transfer_eq_ok h
  refine ⟨fun e he => ?_, found, hshutdown, rfl, (Pipeline.shutdown_keeps b.plan _ _).1⟩
  have hnone := (Option.or_eq_none_iff.1 hfailure).2
  rw [he] at hnone
  cases hnone

/-- A run on an empty channel begins in balance. -/
theorem balanced_pipeline (ha : a.Receives b.layout) {memory : Memory}
    (hbytes : b.layout.bytes ≤ memory.size) (hsound : a.sound c) (hnil : a.queue c = []) :
    Balanced a b.plan (a.received c) (b.pipeline s c memory) .poll .poll 0 := by
  have hcap : b.queue.capacity = b.layout.count := Ring.capacity_ofSlots _ _
  have hempty : b.queue.toList = [] := Ring.toList_ofSlots _ _
  obtain ⟨hfree, -⟩ := Ring.pushAll_of_room b.layout.offsets (r := b.queue) (by
    rw [hempty, hcap, b.layout.length_offsets]
    exact (Nat.zero_add _).le)
  rw [hempty, List.nil_append] at hfree
  -- the register stress touches nothing of the channel but its registers
  have hkeeps : a.Keeps c (b.pipeline s c memory).channel := by
    unfold pipeline
    cases s.hammer? with
    | none => exact fun h => ⟨h, rfl, rfl⟩
    | some hammer => exact ha.withBar c _
  have hpushed : (b.pipeline s c memory).stats.pushed = 0 := by
    unfold pipeline
    cases s.hammer? <;> rfl
  obtain ⟨hsound', hqueue, hreceived⟩ := hkeeps hsound
  refine ⟨⟨fun o ho => ?_, fun o ho => ?_, nofun, nofun⟩, ⟨hsound', hbytes, ?_⟩, ?_, nofun⟩
  · exact hfree ▸ ho
  · exact absurd (hempty ▸ ho) List.not_mem_nil
  · rw [hreceived, hqueue, hnil, Nat.zero_mul]
    rfl
  · rw [hpushed, Nat.zero_mul]
    rfl

/-- What a run on a channel that receives pages accounts for. -/
theorem accounts_of_run (ha : a.Receives b.layout) (hruns : timing.Runs b.plan) (hsound : a.sound c)
    (hnil : a.queue c = []) {report : Report}
    (h : (b.run timing c mapping files).result = .ok report) :
    a.sound (b.run timing c mapping files).channel ∧
      ∃ pages, a.received (b.run timing c mapping files).channel = a.received c + pages ∧
        report.Accounts b.layout pages := by
  obtain ⟨s, c', hsetup, hstart, hrun⟩ := run_eq_ok h
  have hstarted := ha.start c (congrArg Prod.fst hstart) hsound
  rw [hstart] at hstarted
  obtain ⟨hsound', hqueue, hreceived⟩ := hstarted
  have hbytes : b.layout.bytes ≤ (mapping.reload s.files).memory.size := by
    rw [Mapping.size_reload]
    exact (setup_eq_ok hsetup).1
  have hbegin := balanced_pipeline (s := s.withRoom timing.copyRoom?) ha hbytes hsound'
    (hqueue.trans hnil)
  rw [hrun] at h ⊢
  obtain ⟨hfeeder, found, hshutdown, hdrained, hstats⟩ := transfer_of_ok h
  obtain ⟨k, hk⟩ := ((hruns _).1.balanced ha hbegin).resolve_left fun ⟨e, he⟩ => hfeeder e he
  obtain ⟨hsafe, hend⟩ := hk.received.shutdown ha hshutdown
  refine ⟨hsafe, k * b.layout.pagesPerSuperpage + found.pages, ?_, ?_⟩
  · rw [← hreceived, ← Nat.add_assoc]
    exact hend
  · exact .of_taken (hstats ▸ hk.pushed_eq) (by rw [hdrained])

/-- **Pages are conserved.** However the steps of the tasks fall, whenever they are stopped and however
often the channel is looked at in the end, a run that succeeds accounts for all pages that the channel
has received: for the pages that an emulated channel has generated, for those that a scripted one has
taken off its budget, and so on any channel that receives whole pages of the layout and gives its
superpages back in order. -/
theorem pages_conserved (b : Bench) (mapping : Mapping) (files : Files) :
    (∀ {σ : Type} [Channel σ] (a : Intake σ) (timing : Timing σ) (c : σ) (report : Report),
      a.Receives b.layout → timing.Runs b.plan → a.sound c → a.queue c = [] →
      (b.run timing c mapping files).result = .ok report →
      ∃ pages, a.received (b.run timing c mapping files).channel = a.received c + pages ∧
        report.Accounts b.layout pages) ∧
    (∀ (timing : Timing Emulated) (family : Family) (size : Nat) (pattern : Pattern) (c : Emulated)
      (capacity interval : Nat) (report : Report), timing.Runs b.plan →
      Emulated.create family size b.layout.pageSize pattern = .ok c →
      (b.run timing ((c.withCapacity capacity).withFaultInterval interval) mapping files).result =
        .ok report →
      report.Accounts b.layout (b.run timing
        ((c.withCapacity capacity).withFaultInterval interval) mapping
          files).channel.generator.generated) ∧
    ∀ (timing : Timing Scripted) (c : Scripted) (budget : Nat) (report : Report),
      timing.Runs b.plan → c.pageSize = b.layout.pageSize → c.popRule ≠ .newest →
      c.budget? = some budget → c.queue.toList = [] →
      (b.run timing c mapping files).result = .ok report →
      ∃ left, (b.run timing c mapping files).channel.budget? = some left ∧ left ≤ budget ∧
        report.Accounts b.layout (budget - left) := by
  refine ⟨fun a timing c report ha hruns hsound hnil h =>
    (accounts_of_run ha hruns hsound hnil h).2, ?_, ?_⟩
  · intro timing family size pattern c capacity interval report hruns hcreate h
    unfold Emulated.create at hcreate
    split at hcreate
    · cases hcreate
    rename_i hsize
    cases hcreate
    obtain ⟨-, pages, hgenerated, haccounts⟩ := accounts_of_run
      (Emulated.receives (l := b.layout) (by omega)) hruns
      ⟨rfl, fun _ hs => absurd hs List.not_mem_nil⟩ rfl h
    rw [show (b.run timing _ mapping files).channel.generator.generated = 0 + pages from hgenerated,
      Nat.zero_add]
    exact haccounts
  · intro timing c budget report hruns hsize hrule hbudget hnil h
    have hbegin : (Scripted.intake b.layout budget).sound c :=
      ⟨hsize, hrule, ⟨budget, hbudget, le_rfl⟩, by rw [hnil]; nofun⟩
    obtain ⟨⟨-, -, ⟨left, hleft, hle⟩, -⟩, pages, hreceived, haccounts⟩ :=
      accounts_of_run Scripted.receives hruns hbegin hnil h
    change budget - _ = budget - c.budget?.getD 0 + pages at hreceived
    rw [hleft, hbudget] at hreceived
    simp only [Option.getD_some, Nat.sub_self, Nat.zero_add] at hreceived
    exact ⟨left, hleft, hle, hreceived ▸ haccounts⟩

/-- A channel that fills one superpage and one page of the next one. -/
def threePages : Scripted where
  family := .cru
  pageSize := 40
  budget? := some 3
  bar := .zeroed .cru

/-- A new emulated channel. -/
def idle : Emulated where
  generator := { family := .cru, pattern := .incremental, pageSize := 40 }
  bufferSize := 160
  bar := .zeroed .cru

/-- The reader gets the two pages of the first superpage, and the third page is found at the end in a
superpage that is not filled. The emulated channel fills both superpages, and both are handed over. -/
theorem pages_conserved_small :
    ((small.run (.steady false .zero) threePages ⟨{ size := 160 }, none, none, false⟩
        ⟨[], #[]⟩).result.toOption.map (·.drainedPages) = some 1 ∧
      ∀ report, (small.run (.steady false .zero) threePages ⟨{ size := 160 }, none, none, false⟩
        ⟨[], #[]⟩).result = .ok report → report.Accounts .small 3) ∧
    (small.run (.steady false .zero) ((idle.withCapacity 1).withFaultInterval 2)
        ⟨{ size := 160 }, none, none, false⟩ ⟨[], #[]⟩).result.toOption.map (·.drainedPages) =
          some 0 ∧
      ∀ report, (small.run (.steady false .zero) ((idle.withCapacity 1).withFaultInterval 2)
        ⟨{ size := 160 }, none, none, false⟩ ⟨[], #[]⟩).result = .ok report →
          report.Accounts .small 4 := by
  obtain ⟨-, hemulated, hscripted⟩ := pages_conserved small ⟨{ size := 160 }, none, none, false⟩
    ⟨[], #[]⟩
  refine ⟨⟨by decide +kernel, fun report h => ?_⟩, by decide +kernel, fun report h => ?_⟩
  · have hspent : (small.run (.steady false .zero) threePages
        ⟨{ size := 160 }, none, none, false⟩ ⟨[], #[]⟩).channel.budget? = some 0 := by decide +kernel
    obtain ⟨left, hleft, -, haccounts⟩ := hscripted _ threePages 3 report (Timing.steady_runs _ _ _)
      rfl (by decide) rfl rfl h
    obtain rfl : left = 0 := Option.some.inj (hleft.symm.trans hspent)
    exact haccounts
  · have hgenerated : (small.run (.steady false .zero) ((idle.withCapacity 1).withFaultInterval 2)
        ⟨{ size := 160 }, none, none, false⟩ ⟨[], #[]⟩).channel.generator.generated = 4 := by
      decide +kernel
    exact hgenerated ▸ hemulated _ .cru 160 .incremental idle 1 2 report
      (Timing.steady_runs _ _ _) rfl h

end Bench

end DmaReadout
