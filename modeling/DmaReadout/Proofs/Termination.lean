import DmaReadout.Proofs.Progress

/-! # The end of runs with a page limit

* `Circulates.read_unfailing`: a reader that can copy its pages never fails.
* `Circulates.feed_ends`: the feeder hands superpages to the channel only as long as this has room.
* `bounded_run_ends`: the main statement. -/

namespace DmaReadout

variable {plan : Plan} {limit : UInt64} {p : Pipeline Emulated} {f : Feeder} {r : Reader} {n : Ledger}

/-! ### Readers that cannot fail -/

/-- A reader only fails if a page cannot be copied. -/
theorem Circulates.read_unfailing (h : Circulates plan p f r n) (hdump : Unlimited p.dump?)
    (hr : r.failure? = none) : (r.step plan p).1.failure? = none := by
  rcases hstep : r.step plan p with ⟨r', q⟩
  cases Reader.moves hstep with
  | fails hpage hread =>
    obtain ⟨hpos, hview⟩ := h.view_page hpage
    obtain ⟨hok, -⟩ := Pipeline.copied_of_unlimited hdump p.stats.read
      (p.memory.page (plan.layout.window n.read))
    rw [hpos, Pipeline.readPage_of_view hview] at hread
    rcases hc : Pipeline.copied p.dump? p.stats.read
      (p.memory.page (plan.layout.window n.read)) with ⟨_ | _, dump?⟩
    · rw [hc] at hok
      cases hok
    · rw [hc] at hread
      cases hread
  | @crowded offset failure? hroom =>
    obtain ⟨free, hoffer, -⟩ := Ring.offer_of_room offset (h.free_room rfl)
    rw [hoffer] at hroom
    cases hroom
  | abandons => cases hr
  | rests => exact hr
  | _ => rfl

/-! ### The feeding loop -/

/-- The steps of the feeder that are left at most before it has fed the channel. -/
def Feeder.feedsLeft (c : Emulated) : Feeder → Nat
  | .feed => 2 * Channel.available c + 1
  | .submit _ => 2 * Channel.available c
  | _ => 0

/-- Every step of the feeding loop uses up some of the room in the channel, or ends the loop. -/
theorem Circulates.feedsLeft_step (h : Circulates plan p f r n) (hf : 0 < f.feedsLeft p.channel) :
    (f.step plan p).1 = .handOver ∨
      0 < (f.step plan p).1.feedsLeft (f.step plan p).2.channel ∧
        (f.step plan p).1.feedsLeft (f.step plan p).2.channel < f.feedsLeft p.channel := by
  rcases hstep : f.step plan p with ⟨f', q⟩
  cases Feeder.moves hstep with
  | pauses => exact Or.inl rfl
  | takes hspace =>
    refine Or.inr ⟨?_, Nat.lt_succ_self _⟩
    show 0 < 2 * Channel.available p.channel
    omega
  | @pushes offset =>
    obtain ⟨-, hroom⟩ := h.feeder_holds
    rw [Fifo.length_toList] at hroom
    have hlen := congrArg List.length
      (Fifo.toList_push p.channel.queue ⟨offset, plan.layout.superpageSize, 0⟩)
    rw [List.length_append, Fifo.length_toList, Fifo.length_toList, List.length_singleton] at hlen
    right
    rw [h.push_eq]
    show 0 < 2 * (p.channel.capacity - (p.channel.queue.push _).length) + 1 ∧
      2 * (p.channel.capacity - (p.channel.queue.push _).length) + 1 <
        2 * (p.channel.capacity - p.channel.queue.length)
    rw [hlen]
    omega
  | refused hpush =>
    rw [h.push_eq] at hpush
    cases hpush
  | _ => exact absurd hf (Nat.lt_irrefl 0)

namespace Machine

/-- Whatever the reader does in between, the feeder comes to the end of the feeding loop. -/
theorem Circulates.feed_ends (turns : List Turn) : ∀ {m : Machine Emulated} {n : Ledger},
    m.Circulates plan n → 0 < m.feeder.feedsLeft m.shared.channel →
    m.feeder.feedsLeft m.shared.channel ≤ turns.count .feed →
    ∃ before, before <+: turns ∧ (m.run plan before).feeder = .handOver := by
  induction turns with
  | nil =>
    intro m n h hpos hle
    exact absurd (lt_of_lt_of_le hpos hle) (Nat.lt_irrefl 0)
  | cons t turns ih =>
    intro m n h hpos hle
    have go : (m.step plan t).feeder.feedsLeft (m.step plan t).shared.channel ≤ turns.count .feed →
        0 < (m.step plan t).feeder.feedsLeft (m.step plan t).shared.channel →
        ∃ before, before <+: t :: turns ∧ (m.run plan before).feeder = .handOver := by
      intro hle hpos
      obtain ⟨before, hprefix, hend⟩ := ih (h.step t) hpos hle
      exact ⟨t :: before, List.cons_prefix_cons.2 ⟨rfl, hprefix⟩, hend⟩
    cases t with
    | feed =>
      rw [List.count_cons_self] at hle
      rcases DmaReadout.Circulates.feedsLeft_step h hpos with hend | ⟨hpos', hlt⟩
      · exact ⟨[.feed], List.cons_prefix_cons.2 ⟨rfl, List.nil_prefix⟩, hend⟩
      · exact go (Nat.le_of_lt_succ (lt_of_lt_of_le hlt hle)) hpos'
    | read =>
      rw [List.count_cons_of_ne (by decide : Turn.read ≠ .feed)] at hle
      have hsame : (m.step plan .read).shared.channel = m.shared.channel :=
        Reader.channel_step plan m.shared m.reader
      refine go ?_ ?_ <;> rw [hsame]
      · exact hle
      · exact hpos
    | stop =>
      rw [List.count_cons_of_ne (by decide : Turn.stop ≠ .feed)] at hle
      exact go hle hpos

/-! ### The main statement -/

/-- The reader holds the superpage of the page that it reads next, if it reads a further one. -/
def HoldsUnread (plan : Plan) (m : Machine Emulated) (turns : List Turn) : Prop :=
  (m.run plan turns).reader.held =
      [plan.layout.nth ((m.pagesRead plan turns).length / plan.layout.pagesPerSuperpage)] ∧
    (m.superpagesRead plan turns).length =
      (m.pagesRead plan turns).length / plan.layout.pagesPerSuperpage + 1

theorem length_superpagesRead (h : Prefilled plan.layout p) (turns : List Turn) :
    ((start p).superpagesRead plan turns).length =
      ((start p).run plan turns).taken ((start p).tally plan {} turns) := by
  obtain ⟨-, hnotes⟩ := observe_eq_map (Circulates plan) taken
    (fun m n t h => h.step t) (fun m n t h => (h.taken_step t).1) (fun m n t h => (h.taken_step t).2)
    turns (start p) {} (DmaReadout.Circulates.start h)
  rw [superpagesRead, hnotes, List.length_map, List.Ico.length]
  rfl

/-- A reader whose copy cannot fail never fails. -/
theorem run_unfailing (h : Prefilled plan.layout p) (hdump : Unlimited p.dump?) (turns : List Turn) :
    ((start p).run plan turns).reader.failure? = none := by
  suffices hrun : ∀ {m : Machine Emulated} {n : Ledger}, m.Circulates plan n →
      Unlimited m.shared.dump? → m.reader.failure? = none →
      (m.run plan turns).reader.failure? = none from
    hrun (DmaReadout.Circulates.start h) hdump rfl
  induction turns with
  | nil => exact fun _ _ hr => hr
  | cons t turns ih =>
    intro m n hm hd hr
    refine ih (hm.step t) (Checks.step plan (⟨rfl, hd⟩ : Checks m.shared.verifier? m) t).2 ?_
    cases t with
    | read => exact DmaReadout.Circulates.read_unfailing hm hd hr
    | feed => exact hr
    | stop => exact hr

/-- **Runs with a page limit come to an end.** As long as nobody asks the tasks to end, a reader below
the limit has something to read when the feeder has come up to it. With one whole round of each task in
turn, the tasks are asked to end within two rounds for each superpage that the limit takes up, and one;
just as many pages as the limit says were read then, unless they could not be copied. The feeder hands
superpages to the channel no more often than this has room for them. -/
theorem bounded_run_ends (plan : Plan) (h : Prefilled plan.layout p) (hl : plan.limit? = some limit)
    (hread : p.stats.read = 0) (hpushed : p.stats.pushed = 0) (hgo : p.stopped = false) :
    (∀ turns, ((start p).run plan turns).shared.stopped = false →
      limit ≤ ((start p).run plan turns).shared.stats.pushed →
      ((start p).run plan turns).shared.stats.read < limit →
      ((start p).run plan turns).shared.ready.toList ≠ [] ∨ HoldsUnread plan (start p) turns) ∧
    (∃ k, k ≤ 2 * ((limit.toNat + plan.layout.pagesPerSuperpage - 1) /
          plan.layout.pagesPerSuperpage) + 1 ∧
      (∀ j, j < k → ((Machine.round plan)^[j] (start p)).shared.stopped = false ∧
        ((Machine.round plan)^[j + 1] (start p)).feederRests = true ∧
        ((Machine.round plan)^[j + 1] (start p)).readerRests = true) ∧
      ((Machine.round plan)^[k] (start p)).shared.stopped = true ∧
      (Unlimited p.dump? → ((Machine.round plan)^[k] (start p)).shared.stats.read = limit)) ∧
    ∀ turns more, ((start p).run plan turns).feeder = .feed →
      2 * Channel.available ((start p).run plan turns).shared.channel + 1 ≤ more.count .feed →
      ∃ before, before <+: more ∧ ((start p).run plan (turns ++ before)).feeder = .handOver := by
  have hstart : Advances plan limit (start p) {} := .start h hl hread hpushed
  refine ⟨fun turns hgoes hpush hlt => ?_, ?_, fun turns more hfeed hmore => ?_⟩
  · -- a reader that has ended would have asked the feeder to end, too
    have hrun := hstart.run turns
    have hdone : ((start p).run plan turns).readerDone = false := by
      by_contra hd
      have hstop := stopped_of_readerDone plan turns (m := start p) (fun hd => nomatch hd)
        (eq_true_of_ne_false hd)
      rw [hstop] at hgoes
      cases hgoes
    have hlength := read_tally plan turns {} (start p)
    rw [show ({} : Ledger).read = 0 from rfl, Nat.zero_add] at hlength
    rw [HoldsUnread, length_superpagesRead h turns, ← hlength]
    refine hrun.waiting hdone ?_ ?_
    · rw [hl, limitReached_iff]
      exact UInt64.le_iff_toNat_le.1 hpush
    · rw [← hrun.read_toNat]
      exact UInt64.lt_iff_toNat_lt.1 hlt
  · have hpos := plan.layout.pagesPerSuperpage_pos
    have hceil := Nat.lt_div_mul_add hpos (a := limit.toNat + plan.layout.pagesPerSuperpage - 1)
    obtain ⟨i, hi, hbefore, hstop, hend⟩ := Between.stops
      (k := (limit.toNat + plan.layout.pagesPerSuperpage - 1) / plan.layout.pagesPerSuperpage)
      (by omega) _ (m := start p) (n := {}) ⟨hstart, rfl, rfl, rfl, hgo⟩ (Nat.le_add_left _ _)
    refine ⟨i + 1, Nat.succ_le_succ hi, fun j hj => ?_, hstop, fun hdump => ?_⟩
    · rw [Function.iterate_succ_apply']
      exact ⟨hbefore j (Nat.le_of_lt_succ hj), round_rests plan _⟩
    · refine hend.resolve_right ?_
      rintro ⟨e, hfailed⟩
      obtain ⟨turns, hturns⟩ := reaches_rounds plan (i + 1) (start p)
      have hnone := run_unfailing h hdump turns
      rw [← hturns, hfailed] at hnone
      cases hnone
  · have hc := circulates_run h turns
    obtain ⟨before, hprefix, hend⟩ := hc.feed_ends more
      (by rw [hfeed]; exact Nat.succ_pos _) (by rw [hfeed]; exact hmore)
    exact ⟨before, hprefix, by rw [run_append]; exact hend⟩

/-- The limit cuts the second superpage, and the channel takes one superpage at a time. The feeder has
handed over both when two pages were read. -/
theorem bounded_run_ends_small :
    (((start .small).run { layout := .small, limit? := some 3 } (.replicate 10 .feed ++
          .replicate 6 .read ++ .replicate 13 .feed)).shared.ready.toList ≠ [] ∨
        HoldsUnread { layout := .small, limit? := some 3 } (start .small) (.replicate 10 .feed ++
          .replicate 6 .read ++ .replicate 13 .feed)) ∧
      ∃ k, k ≤ 5 ∧
        ((Machine.round { layout := .small, limit? := some 3 })^[k]
          (start .small)).shared.stopped = true ∧
        ((Machine.round { layout := .small, limit? := some 3 })^[k]
          (start .small)).shared.stats.read = 3 := by
  obtain ⟨hwaiting, ⟨k, hk, -, hstop, hend⟩, -⟩ := bounded_run_ends
    { layout := .small, limit? := some 3 } prefilled_small rfl rfl rfl rfl
  refine ⟨hwaiting _ (by decide +kernel) (by decide +kernel) (by decide +kernel), k, hk, hstop, ?_⟩
  exact hend (by rintro _ ⟨⟩; rfl)

end Machine

end DmaReadout
