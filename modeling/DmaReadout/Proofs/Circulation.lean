import DmaReadout.Proofs.Start
import DmaReadout.Proofs.Steps

/-! # The circulation of superpages

Superpages keep their order on the way from the free queue through the channel and the ready queue to
the reader and back. Counted through from the start of a run, every place on the way therefore holds a
stretch of them, and each stretch begins where that of the place before it ends.

* `Circulates`: the invariant of both tasks; the numbers of the ledger are the ends of the stretches.
* `Circulates.feed_step`, `Circulates.read_step`: what one step keeps; `circulates_run`: what holds in
  every state that the two tasks can reach. -/

namespace DmaReadout

/-! ### The invariant -/

/-- The superpages that the feeder took from the free queue and did not push yet. -/
def Feeder.inHand : Feeder → Nat
  | .submit _ => 1
  | _ => 0

/-- The superpages that the feeder made ready and did not take from the channel yet. -/
def Feeder.ahead : Feeder → Nat
  | .collect _ => 1
  | _ => 0

/-- The superpages that the reader took from the ready queue and did not give back yet. -/
def Reader.inHand : Reader → Nat
  | .reading _ _ | .giveBack _ _ => 1
  | _ => 0

/-- What the feeder knows of the superpage that it holds. It never ends with a failure. -/
def Feeder.Holds (l : Layout) (c : Emulated) (n : Ledger) : Feeder → Prop
  | .submit offset => offset = l.nth n.submitted ∧ c.queue.toList.length < c.capacity
  | .collect offset => offset = l.nth n.collected
  | .done failure? => failure? = none
  | _ => True

/-- All pages of the first `k` superpages were read, or those up to the limit. -/
def ReadUpTo (plan : Plan) (read : UInt64) (n : Ledger) (k : Nat) : Prop :=
  n.read = k * plan.layout.pagesPerSuperpage ∨
    limitReached plan.limit? read = true ∧ n.read ≤ k * plan.layout.pagesPerSuperpage

/-- What the reader knows of the superpage that it holds and of the pages that it has read. It only
fails if a file does not take the copy of a page. -/
def Reader.Holds (plan : Plan) (read : UInt64) (n : Ledger) : Reader → Prop
  | .poll => ReadUpTo plan read n n.returned
  | .take => n.read = n.returned * plan.layout.pagesPerSuperpage
  | .reading offset page =>
    offset = plan.layout.nth n.returned ∧ page ≤ plan.layout.pagesPerSuperpage ∧
      n.read = n.returned * plan.layout.pagesPerSuperpage + page
  | .giveBack offset failure? =>
    offset = plan.layout.nth n.returned ∧ (∀ e, failure? = some e → ∃ f, e = .file f) ∧
      n.read ≤ (n.returned + 1) * plan.layout.pagesPerSuperpage ∧
      (failure? = none → ReadUpTo plan read n (n.returned + 1))
  | .done failure? =>
    (∀ e, failure? = some e → ∃ f, e = .file f) ∧
      n.read ≤ n.returned * plan.layout.pagesPerSuperpage

/-- **The circulation.** Every place holds a stretch of the superpages, counted through from the start:
the reader and the ready queue those that were returned last and later, then the channel, the feeder,
and the free queue with those that go round next. A superpage that was made ready counts as ready,
although the channel may still hold it. -/
structure Circulates (plan : Plan) (p : Pipeline Emulated) (f : Feeder) (r : Reader) (n : Ledger) :
    Prop where
  equipped : Equipped plan.layout p
  free_eq : p.free.toList =
    plan.layout.stretch (n.submitted + f.inHand) (n.returned + plan.layout.count)
  ready_eq : p.ready.toList =
    plan.layout.stretch (n.returned + r.inHand) (n.collected + f.ahead)
  queue_eq : p.channel.queue.toList =
    plan.layout.descriptors n.filled n.collected n.submitted
  returned_le : n.returned + r.inHand ≤ n.collected + f.ahead
  ahead_le : n.collected + f.ahead ≤ n.filled
  filled_le : n.filled ≤ n.submitted
  submitted_le : n.submitted + f.inHand ≤ n.returned + plan.layout.count
  feeder_holds : f.Holds plan.layout p.channel n
  reader_holds : r.Holds plan p.stats.read n

namespace Circulates

variable {plan : Plan} {p : Pipeline Emulated} {f : Feeder} {r : Reader} {n : Ledger}

/-- At the start of a run every superpage is on the free queue. -/
theorem start (h : Prefilled plan.layout p) : Circulates plan p .poll .poll {} where
  equipped := h.toEquipped
  free_eq := by
    rw [h.free_eq, ← plan.layout.stretch_round]
    exact congrArg _ (Nat.zero_add _).symm
  ready_eq := by rw [h.ready_nil]; rfl
  queue_eq := by rw [h.queue_nil]; rfl
  returned_le := le_rfl
  ahead_le := le_rfl
  filled_le := le_rfl
  submitted_le := Nat.zero_le _
  feeder_holds := trivial
  reader_holds := Or.inl (Nat.zero_mul _).symm

/-- A step of the feeder that moves no superpage. -/
theorem feeder_goes (h : Circulates plan p f r n) (f' : Feeder) (hin : f'.inHand = f.inHand)
    (hah : f'.ahead = f.ahead) (hf : f'.Holds plan.layout p.channel n) :
    Circulates plan p f' r n :=
  { h with
    free_eq := hin ▸ h.free_eq
    ready_eq := hah ▸ h.ready_eq
    returned_le := hah ▸ h.returned_le
    ahead_le := hah ▸ h.ahead_le
    submitted_le := hin ▸ h.submitted_le
    feeder_holds := hf }

/-- A step of the reader that moves no superpage. -/
theorem reader_goes (h : Circulates plan p f r n) (r' : Reader) (hin : r'.inHand = r.inHand)
    (hr : r'.Holds plan p.stats.read n) : Circulates plan p f r' n :=
  { h with
    ready_eq := hin ▸ h.ready_eq
    returned_le := hin ▸ h.returned_le
    reader_holds := hr }

/-- A change of what the tasks share that touches no superpage. -/
theorem shared_changes (h : Circulates plan p f r n) {p' : Pipeline Emulated}
    (hm : p'.memory.size = p.memory.size) (hc : p'.channel = p.channel) (hf : p'.free = p.free)
    (hr : p'.ready = p.ready) (hs : p'.stats.read = p.stats.read) : Circulates plan p' f r n where
  equipped := h.equipped.keeps hm (hc ▸ h.equipped.serves) (congrArg _ hf) (congrArg _ hr)
  free_eq := hf ▸ h.free_eq
  ready_eq := hr ▸ h.ready_eq
  queue_eq := hc ▸ h.queue_eq
  returned_le := h.returned_le
  ahead_le := h.ahead_le
  filled_le := h.filled_le
  submitted_le := h.submitted_le
  feeder_holds := hc ▸ h.feeder_holds
  reader_holds := hs ▸ h.reader_holds

/-! ### Room for every superpage -/

/-- A superpage in the reader's hand leaves room for itself on the free queue. -/
theorem free_room (h : Circulates plan p f r n) (hr : r.inHand = 1) :
    p.free.toList.length < p.free.capacity := by
  have hret := h.returned_le
  have hah := h.ahead_le
  have hfill := h.filled_le
  have hsub := h.submitted_le
  rw [h.free_eq, Layout.length_stretch, h.equipped.free_capacity]
  omega

/-- A superpage in the channel that is not ready yet leaves room for itself on the ready queue. -/
theorem ready_room (h : Circulates plan p f r n) (hf : f.ahead = 0)
    (hlt : n.collected < n.submitted) : p.ready.toList.length < p.ready.capacity := by
  have hret := h.returned_le
  have hsub := h.submitted_le
  rw [h.ready_eq, Layout.length_stretch, h.equipped.ready_capacity]
  omega

/-- The channel takes the superpage that the feeder pushes. -/
theorem push_eq {offset : Nat} (h : Circulates plan p (.submit offset) r n) :
    Channel.push p.channel ⟨offset, plan.layout.superpageSize, 0⟩ =
      (.ok (), p.channel.withQueue
        (p.channel.queue.push ⟨offset, plan.layout.superpageSize, 0⟩)) := by
  obtain ⟨rfl, hroom⟩ := h.feeder_holds
  exact h.equipped.serves.push_of_room h.equipped.addressable hroom n.submitted

/-- The channel gives back the superpage that the feeder made ready. -/
theorem pop_eq {offset : Nat} (h : Circulates plan p (.collect offset) r n) :
    Channel.pop p.channel =
      (some ⟨offset, plan.layout.superpageSize, plan.layout.superpageSize⟩,
        p.channel.withQueue p.channel.queue.tail) := by
  obtain rfl : offset = plan.layout.nth n.collected := h.feeder_holds
  have hfill : n.collected < n.filled := h.ahead_le
  have hq := h.queue_eq
  rw [plan.layout.descriptors_cons _ (lt_of_lt_of_le hfill h.filled_le), if_pos hfill] at hq
  refine Emulated.pop_of_complete hq ?_
  rw [Superpage.isFilled, decide_eq_true le_rfl, Bool.true_or]

/-- The oldest superpage in the channel, if there is one. -/
theorem head_eq (h : Circulates plan p f r n) {s : Superpage}
    (hs : Channel.head? p.channel = some s) :
    n.collected < n.submitted ∧
      s = ⟨plan.layout.nth n.collected, plan.layout.superpageSize,
        if n.collected < n.filled then plan.layout.superpageSize else 0⟩ := by
  have hhead : (plan.layout.descriptors n.filled n.collected n.submitted).head? = some s := by
    rw [← h.queue_eq, Fifo.head?_toList]
    exact hs
  have hlt : n.collected < n.submitted := by
    by_contra hle
    rw [Layout.descriptors, List.Ico.eq_nil_of_le (not_lt.1 hle)] at hhead
    cases hhead
  rw [plan.layout.descriptors_cons _ hlt] at hhead
  exact ⟨hlt, (Option.some.inj hhead).symm⟩

/-! ### Steps of the feeder -/

theorem fill (h : Circulates plan p .fill r n) :
    Circulates plan p.fill .feed r { n with filled := n.submitted } := by
  have hc : n.collected ≤ n.filled := h.ahead_le
  obtain ⟨q, hfill, hq⟩ := h.equipped.serves.fill_descriptors p.memory h.queue_eq hc h.filled_le
  obtain ⟨hpage, hsize⟩ := Generator.writeStretch_sizes plan.layout n.filled n.submitted
    (p.channel.generator, p.memory)
  rw [Pipeline.fill_eq, show Channel.fill p.channel p.memory = _ from hfill]
  have hs := h.equipped
  exact
    { equipped := hs.keeps hsize ⟨hs.serves.running, hpage.trans hs.serves.pageSize_eq,
        hs.serves.bytes_le, hs.serves.capacity_pos⟩ rfl rfl
      free_eq := h.free_eq
      ready_eq := h.ready_eq
      queue_eq := hq
      returned_le := h.returned_le
      ahead_le := le_trans hc h.filled_le
      filled_le := le_rfl
      submitted_le := h.submitted_le
      feeder_holds := trivial
      reader_holds := h.reader_holds }

theorem feedStep (h : Circulates plan p .feed r n) :
    Circulates plan (Feeder.feedStep p).2 (Feeder.feedStep p).1 r n := by
  have idle : Circulates plan p .handOver r n := h.feeder_goes _ rfl rfl trivial
  unfold Feeder.feedStep
  split
  · exact idle
  rename_i hroom
  split
  · exact idle
  rename_i offset free hpop
  -- the oldest free superpage is the one that goes round next
  obtain ⟨hlt, hoff, hrest⟩ :=
    plan.layout.stretch_eq_cons (h.free_eq.symm.trans (Ring.toList_pop hpop))
  exact
    { equipped := h.equipped.keeps rfl h.equipped.serves (Ring.capacity_pop hpop) rfl
      free_eq := hrest
      ready_eq := h.ready_eq
      queue_eq := h.queue_eq
      returned_le := h.returned_le
      ahead_le := h.ahead_le
      filled_le := h.filled_le
      submitted_le := hlt
      feeder_holds := ⟨hoff, by
        rw [Fifo.length_toList]
        exact Nat.lt_of_sub_ne_zero hroom⟩
      reader_holds := h.reader_holds }

theorem submitStep {offset : Nat} (h : Circulates plan p (.submit offset) r n) :
    Circulates plan (Feeder.submitStep plan p offset).2 (Feeder.submitStep plan p offset).1 r
      { n with submitted := n.submitted + 1 } := by
  have hpush := h.push_eq
  obtain ⟨rfl, -⟩ := h.feeder_holds
  have hc : n.collected ≤ n.submitted := le_trans h.ahead_le h.filled_le
  unfold Feeder.submitStep
  rw [Pipeline.onChannel_eq, hpush]
  exact
    { equipped := h.equipped.keeps rfl (h.equipped.serves.withQueue _) rfl rfl
      free_eq := h.free_eq
      ready_eq := h.ready_eq
      queue_eq := by
        rw [plan.layout.descriptors_succ hc h.filled_le, ← h.queue_eq]
        exact Fifo.toList_push _ _
      returned_le := h.returned_le
      ahead_le := h.ahead_le
      filled_le := le_trans h.filled_le (Nat.le_succ _)
      submitted_le := h.submitted_le
      feeder_holds := trivial
      reader_holds := h.reader_holds }

theorem handOverStep (h : Circulates plan p .handOver r n) :
    Circulates plan (Feeder.handOverStep p).2 (Feeder.handOverStep p).1 r n := by
  have idle : Circulates plan p .poll r n := h.feeder_goes _ rfl rfl trivial
  unfold Feeder.handOverStep
  split
  · exact idle
  split
  · exact idle
  rename_i s hhead
  obtain ⟨hin, hsuper⟩ := h.head_eq hhead
  split
  swap
  · exact idle
  rename_i hfilled
  have hlt : n.collected < n.filled := by
    by_contra hle
    rw [if_neg hle] at hsuper
    rw [hsuper] at hfilled
    exact absurd (of_decide_eq_true hfilled) (Nat.not_le.2 plan.layout.superpage_pos)
  have hret : n.returned + r.inHand ≤ n.collected := h.returned_le
  obtain ⟨ready, hoffer, hlist, hcap⟩ :=
    Ring.offer_of_room (plan.layout.nth n.collected) (h.ready_room rfl hin)
  rw [hsuper, Pipeline.offerReady_eq, hoffer]
  exact
    { equipped := h.equipped.keeps rfl h.equipped.serves rfl hcap
      free_eq := h.free_eq
      ready_eq := by
        rw [hlist, h.ready_eq]
        exact (plan.layout.stretch_succ hret).symm
      queue_eq := h.queue_eq
      returned_le := Nat.le_succ_of_le hret
      ahead_le := hlt
      filled_le := h.filled_le
      submitted_le := h.submitted_le
      feeder_holds := rfl
      reader_holds := h.reader_holds }

/-- The feeder takes the superpage that it made ready, and counts its pages. -/
theorem collectStep_eq {offset : Nat} (h : Circulates plan p (.collect offset) r n) :
    Feeder.collectStep plan p offset =
      (.poll, { p with
        channel := p.channel.withQueue p.channel.queue.tail
        stats := p.stats.addPushed plan.layout.pagesPerSuperpage.toUInt64 }) := by
  unfold Feeder.collectStep
  rw [Pipeline.onChannel_eq, h.pop_eq]
  exact if_pos rfl

theorem collectStep {offset : Nat} (h : Circulates plan p (.collect offset) r n) :
    Circulates plan (Feeder.collectStep plan p offset).2 (Feeder.collectStep plan p offset).1 r
      { n with collected := n.collected + 1 } := by
  have hfill : n.collected < n.filled := h.ahead_le
  have hlt : n.collected < n.submitted := lt_of_lt_of_le hfill h.filled_le
  rw [h.collectStep_eq]
  exact
    { equipped := h.equipped.keeps rfl (h.equipped.serves.withQueue _) rfl rfl
      free_eq := h.free_eq
      ready_eq := h.ready_eq
      queue_eq := by
        show p.channel.queue.tail.toList = _
        rw [Fifo.toList_tail, h.queue_eq, plan.layout.descriptors_cons _ hlt, List.tail_cons]
      returned_le := h.returned_le
      ahead_le := hfill
      filled_le := h.filled_le
      submitted_le := h.submitted_le
      feeder_holds := trivial
      reader_holds := h.reader_holds }

/-- **Every step of the feeder keeps the circulation.** -/
theorem feed_step (h : Circulates plan p f r n) :
    Circulates plan (f.step plan p).2 (f.step plan p).1 r (n.afterFeed f) := by
  cases f with
  | poll =>
    simp only [Feeder.step]
    split
    · exact h.feeder_goes (.done none) rfl rfl rfl
    · exact h.feeder_goes .fill rfl rfl trivial
  | fill => exact h.fill
  | feed => exact h.feedStep
  | submit offset => exact h.submitStep
  | handOver => exact h.handOverStep
  | collect offset => exact h.collectStep
  | done failure? => exact h

/-! ### Steps of the reader -/

theorem pollStep (h : Circulates plan p f .poll n) :
    Circulates plan (Reader.pollStep plan p).2 f (Reader.pollStep plan p).1 n := by
  have hread : ReadUpTo plan p.stats.read n n.returned := h.reader_holds
  have hle : n.read ≤ n.returned * plan.layout.pagesPerSuperpage :=
    hread.elim le_of_eq And.right
  have hend : Circulates plan p f (.done none) n := h.reader_goes _ rfl ⟨nofun, hle⟩
  unfold Reader.pollStep
  split
  · exact hend
  split
  · exact hend.shared_changes rfl rfl rfl rfl rfl
  · rename_i hlimit
    exact h.reader_goes .take rfl (hread.resolve_right fun h => hlimit h.1)

theorem takeStep (h : Circulates plan p f .take n) :
    Circulates plan (Reader.takeStep p).2 f (Reader.takeStep p).1 n := by
  have hread : n.read = n.returned * plan.layout.pagesPerSuperpage := h.reader_holds
  unfold Reader.takeStep
  split
  · exact h.reader_goes .poll rfl (Or.inl hread)
  rename_i offset ready hpop
  -- the oldest superpage that is ready is the next one to be given back
  obtain ⟨hlt, hoff, hrest⟩ :=
    plan.layout.stretch_eq_cons (h.ready_eq.symm.trans (Ring.toList_pop hpop))
  exact
    { equipped := h.equipped.keeps rfl h.equipped.serves rfl (Ring.capacity_pop hpop)
      free_eq := h.free_eq
      ready_eq := hrest
      queue_eq := h.queue_eq
      returned_le := hlt
      ahead_le := h.ahead_le
      filled_le := h.filled_le
      submitted_le := h.submitted_le
      feeder_holds := h.feeder_holds
      reader_holds := ⟨hoff, Nat.zero_le _, hread⟩ }

/-- Where the reader stands, it can view the page it is about to read. -/
theorem view_page {offset page : Nat} (h : Circulates plan p f (.reading offset page) n)
    (hpage : page < plan.layout.pagesPerSuperpage) :
    offset + page * plan.layout.pageSize = plan.layout.position n.read ∧
      p.memory.view (plan.layout.position n.read) plan.layout.pageSize =
        .ok (plan.layout.window n.read) := by
  obtain ⟨rfl, -, hread⟩ := h.reader_holds
  rw [hread, ← plan.layout.position_eq _ hpage]
  exact ⟨rfl, h.equipped.view_position _⟩

/-- The page that the reader reads next is the page of the count that follows those it has read. -/
theorem page?_eq {offset page : Nat} (h : Circulates plan p f (.reading offset page) n) :
    Reader.page? plan p (.reading offset page) =
      if page < plan.layout.pagesPerSuperpage && !limitReached plan.limit? p.stats.read then
        some ⟨p.stats.read, plan.layout.position n.read,
          p.memory.page (plan.layout.window n.read)⟩
      else none := by
  simp only [Reader.page?]
  split
  · rename_i hgo
    rw [Bool.and_eq_true, decide_eq_true_eq] at hgo
    obtain ⟨hpos, hview⟩ := h.view_page hgo.1
    rw [hpos, hview]
  · rfl

/-- A page that is read leaves every superpage where it is. -/
theorem page_read {offset page : Nat} (h : Circulates plan p f (.reading offset page) n)
    (hpage : page < plan.layout.pagesPerSuperpage) (r' : Reader) {n' : Ledger}
    (hin : r'.inHand = 1) (hn : n' = { n with read := n.read + 1 })
    (hr : r'.Holds plan (p.stats.read + 1) n') :
    Circulates plan (p.readPage plan (plan.layout.position n.read)).2 f r' n' := by
  obtain ⟨-, hview⟩ := h.view_page hpage
  obtain ⟨hc, hf, hready, hm, hs⟩ := Pipeline.readPage_keeps hview
  subst hn
  exact
    { equipped := h.equipped.keeps hm (hc ▸ h.equipped.serves) (congrArg _ hf) (congrArg _ hready)
      free_eq := hf ▸ h.free_eq
      ready_eq := by rw [hready, hin]; exact h.ready_eq
      queue_eq := hc ▸ h.queue_eq
      returned_le := by rw [hin]; exact h.returned_le
      ahead_le := h.ahead_le
      filled_le := h.filled_le
      submitted_le := h.submitted_le
      feeder_holds := hc ▸ h.feeder_holds
      reader_holds := hs ▸ hr }

theorem readingStep {offset page : Nat} (h : Circulates plan p f (.reading offset page) n) :
    Circulates plan (Reader.readingStep plan p offset page).2 f
      (Reader.readingStep plan p offset page).1
      (n.afterRead (Reader.page? plan p (.reading offset page)) (.reading offset page)) := by
  obtain ⟨hoff, hle, hread⟩ := h.reader_holds
  have hnext : (n.returned + 1) * plan.layout.pagesPerSuperpage =
      n.returned * plan.layout.pagesPerSuperpage + plan.layout.pagesPerSuperpage :=
    Nat.succ_mul _ _
  rw [h.page?_eq]
  unfold Reader.readingStep
  split
  · rename_i hgo
    rw [Bool.and_eq_true, decide_eq_true_eq] at hgo
    obtain ⟨hpos, hview⟩ := h.view_page hgo.1
    rw [hpos]
    split
    · rename_i p' hp
      rw [← show _ = p' from congrArg Prod.snd hp]
      refine h.page_read hgo.1 (.reading offset (page + 1)) rfl rfl ⟨hoff, hgo.1, ?_⟩
      show n.read + 1 = n.returned * plan.layout.pagesPerSuperpage + (page + 1)
      omega
    · rename_i e p' hp
      rw [← show _ = p' from congrArg Prod.snd hp]
      refine h.page_read hgo.1 (.giveBack offset (some e)) rfl rfl ⟨hoff, ?_, ?_, nofun⟩
      · intro e' he
        exact Pipeline.readPage_error hview ((congrArg Prod.fst hp).trans he)
      · show n.read + 1 ≤ (n.returned + 1) * plan.layout.pagesPerSuperpage
        omega
  · rename_i hstop
    have hread' : n.read ≤ (n.returned + 1) * plan.layout.pagesPerSuperpage := by omega
    refine h.reader_goes (.giveBack offset none) rfl ⟨hoff, nofun, hread', fun _ => ?_⟩
    -- the reader leaves a superpage behind its last page or at the limit
    by_cases hpage : page < plan.layout.pagesPerSuperpage
    · refine Or.inr ⟨?_, hread'⟩
      simpa [hpage] using hstop
    · refine Or.inl ?_
      omega

theorem giveBackStep {offset : Nat} {failure? : Option Error}
    (h : Circulates plan p f (.giveBack offset failure?) n) :
    Circulates plan (Reader.giveBackStep p offset failure?).2 f
      (Reader.giveBackStep p offset failure?).1 { n with returned := n.returned + 1 } := by
  obtain ⟨rfl, herr, hle, hread⟩ := h.reader_holds
  have hsub := h.submitted_le
  obtain ⟨free, hoffer, hlist, hcap⟩ :=
    Ring.offer_of_room (plan.layout.nth n.returned) (h.free_room rfl)
  have hnth : plan.layout.nth (n.returned + plan.layout.count) = plan.layout.nth n.returned := by
    rw [Layout.nth, Nat.add_mod_right, Layout.nth]
  have back : ∀ r' : Reader, r'.inHand = 0 →
      r'.Holds plan p.stats.read { n with returned := n.returned + 1 } →
      Circulates plan { p with free } f r' { n with returned := n.returned + 1 } := by
    intro r' hin hr
    exact
      { equipped := h.equipped.keeps rfl h.equipped.serves hcap rfl
        free_eq := by
          show free.toList =
            plan.layout.stretch (n.submitted + f.inHand) (n.returned + 1 + plan.layout.count)
          rw [hlist, h.free_eq, Nat.add_right_comm, plan.layout.stretch_succ hsub, hnth]
        ready_eq := by rw [hin]; exact h.ready_eq
        queue_eq := h.queue_eq
        returned_le := by rw [hin]; exact h.returned_le
        ahead_le := h.ahead_le
        filled_le := h.filled_le
        submitted_le := by
          show n.submitted + f.inHand ≤ n.returned + 1 + plan.layout.count
          omega
        feeder_holds := h.feeder_holds
        reader_holds := hr }
  unfold Reader.giveBackStep
  rw [Pipeline.offerFree_eq, hoffer]
  cases failure? with
  | none => exact back .poll rfl (hread rfl)
  | some e =>
    exact (back (.done (some e)) rfl ⟨herr, hle⟩).shared_changes rfl rfl rfl rfl rfl

/-- **Every step of the reader keeps the circulation.** -/
theorem read_step (h : Circulates plan p f r n) :
    Circulates plan (r.step plan p).2 f (r.step plan p).1
      (n.afterRead (Reader.page? plan p r) r) := by
  cases r with
  | poll => exact h.pollStep
  | take => exact h.takeStep
  | reading offset page => exact h.readingStep
  | giveBack offset failure? => exact h.giveBackStep
  | done failure? => exact h

end Circulates

namespace Machine

/-- The two tasks before their first step. -/
def start {σ : Type} (p : Pipeline σ) : Machine σ :=
  { shared := p }

/-- The invariant of the two tasks in a machine. -/
def Circulates (plan : Plan) (m : Machine Emulated) (n : Ledger) : Prop :=
  DmaReadout.Circulates plan m.shared m.feeder m.reader n

variable {plan : Plan}

theorem Circulates.step {m : Machine Emulated} {n : Ledger} (h : m.Circulates plan n) (t : Turn) :
    (m.step plan t).Circulates plan (n.after plan m t) := by
  cases t with
  | feed => exact DmaReadout.Circulates.feed_step h
  | read => exact DmaReadout.Circulates.read_step h
  | stop => exact DmaReadout.Circulates.shared_changes h rfl rfl rfl rfl rfl

theorem Circulates.run (turns : List Turn) : ∀ {m : Machine Emulated} {n : Ledger},
    m.Circulates plan n → (m.run plan turns).Circulates plan (m.tally plan n turns) := by
  induction turns with
  | nil => intro m n h; exact h
  | cons t turns ih => intro m n h; exact ih (h.step t)

/-- **The circulation goes on** in every state that the two tasks can reach. -/
theorem circulates_run {p : Pipeline Emulated} (h : Prefilled plan.layout p) (turns : List Turn) :
    ((start p).run plan turns).Circulates plan ((start p).tally plan {} turns) :=
  Circulates.run turns (DmaReadout.Circulates.start h)

end Machine

end DmaReadout
