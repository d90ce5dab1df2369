import DmaReadout.Proofs.Consumers
import DmaReadout.Proofs.Custody
import DmaReadout.Proofs.Sinks

/-! # What failures leave behind

A task can fail in the middle of handing a superpage on. Here is what it leaves, from every state of the
queues, the verifier and the copy, on every channel that accounts for its superpages, and in every
sequence of turns after it.

* `ReadsNoMore`: the reader has read its last page.
* `PushRefused`: the channel refused a superpage.
* `HandOverRetried`: there was no room for a superpage on the ready queue; `looks_again`: the
  feeder comes back to it.
* `CopyFailed`: a page could not be copied; `foldl_offered`: what the sink of the copy has taken.
* `ReturnFailed`: there was no room for a superpage on the free queue.
* `setbacks`: the main statement. -/

namespace DmaReadout

/-! ### Tasks that have ended -/

variable {σ : Type} {held : σ → List Nat} {plan : Plan}

/-- The feeder counts nothing but what it hands over. -/
theorem Feeder.stats_step [Channel σ] (plan : Plan) (p : Pipeline σ) (f : Feeder) :
    (f.step plan p).2.stats.read = p.stats.read ∧ (f.step plan p).2.stats.errors = p.stats.errors := by
  rcases hstep : f.step plan p with ⟨f', q⟩
  cases Feeder.moves hstep <;> exact ⟨rfl, rfl⟩

/-- The reader reads no page any more: it has ended, or it gives back a superpage with a failure. -/
def Reader.IsOver : Reader → Prop
  | .giveBack _ (some _) | .done _ => True
  | _ => False

namespace Reader.IsOver

variable {r : Reader}

theorem page?_eq (h : r.IsOver) (p : Pipeline σ) : r.page? plan p = none := by
  cases r with
  | reading => exact h.elim
  | _ => rfl

theorem step (h : r.IsOver) (p : Pipeline σ) : (r.step plan p).1.IsOver := by
  rcases hstep : r.step plan p with ⟨r', q⟩
  cases Reader.moves hstep with
  | abandons | crowded | rests => trivial
  | _ => exact h.elim

end Reader.IsOver

namespace Machine

variable [Channel σ] {m n : Machine σ}

theorem feed_of_step {p q : Pipeline σ} {f f' : Feeder} (h : f.step plan p = (f', q)) (r : Reader) :
    (⟨p, f, r⟩ : Machine σ).step plan .feed = ⟨q, f', r⟩ := by
  show Machine.mk (f.step plan p).2 (f.step plan p).1 r = _
  rw [h]

theorem read_of_step {p q : Pipeline σ} {r r' : Reader} (h : r.step plan p = (r', q)) (f : Feeder) :
    (⟨p, f, r⟩ : Machine σ).step plan .read = ⟨q, f, r'⟩ := by
  show Machine.mk (r.step plan p).2 f (r.step plan p).1 = _
  rw [h]

/-- **The reader reads no more.** Whatever comes, no page is read or overwritten, and what was counted
and checked stays as it is. -/
structure ReadsNoMore (plan : Plan) (m : Machine σ) : Prop where
  pagesRead_eq : ∀ turns, m.pagesRead plan turns = []
  read_eq : ∀ turns, (m.run plan turns).shared.stats.read = m.shared.stats.read
  errors_eq : ∀ turns, (m.run plan turns).shared.stats.errors = m.shared.stats.errors
  verifier_eq : ∀ turns, (m.run plan turns).shared.verifier? = m.shared.verifier?
  memory_eq : ∀ turns, ((m.run plan turns).step plan .read).shared.memory =
    (m.run plan turns).shared.memory

theorem over_step (plan : Plan) (h : m.reader.IsOver) (t : Turn) :
    (m.step plan t).reader.IsOver ∧ m.page? plan t = none ∧
      (m.step plan t).shared.stats.read = m.shared.stats.read ∧
      (m.step plan t).shared.stats.errors = m.shared.stats.errors ∧
      (m.step plan t).shared.verifier? = m.shared.verifier? := by
  obtain ⟨p, f, r⟩ := m
  cases t with
  | feed =>
    obtain ⟨hread, herrors⟩ := f.stats_step plan p
    exact ⟨h, rfl, hread, herrors, (f.leaves plan p).verifier_eq⟩
  | read =>
    have hpage : r.page? plan p = none := Reader.IsOver.page?_eq h p
    have hl := Reader.leaves hpage
    exact ⟨Reader.IsOver.step h p, hpage, congrArg Stats.read hl.stats_eq,
      congrArg Stats.errors hl.stats_eq, hl.verifier_eq⟩
  | stop => exact ⟨h, rfl, rfl, rfl, rfl⟩

theorem over_run (turns : List Turn) : ∀ {m : Machine σ}, m.reader.IsOver →
    (m.run plan turns).reader.IsOver ∧ m.pagesRead plan turns = [] ∧
      (m.run plan turns).shared.stats.read = m.shared.stats.read ∧
      (m.run plan turns).shared.stats.errors = m.shared.stats.errors ∧
      (m.run plan turns).shared.verifier? = m.shared.verifier? := by
  induction turns with
  | nil => exact fun h => ⟨h, rfl, rfl, rfl, rfl⟩
  | cons t turns ih =>
    intro m h
    obtain ⟨hover, hpage, hread, herrors, hverifier⟩ := over_step plan h t
    obtain ⟨hover', hpages, hread', herrors', hverifier'⟩ := ih hover
    refine ⟨hover', ?_, hread'.trans hread, herrors'.trans herrors, hverifier'.trans hverifier⟩
    rw [pagesRead_cons, hpage, hpages]
    rfl

theorem readsNoMore (h : m.reader.IsOver) : m.ReadsNoMore plan where
  pagesRead_eq turns := (over_run turns h).2.1
  read_eq turns := (over_run turns h).2.2.1
  errors_eq turns := (over_run turns h).2.2.2.1
  verifier_eq turns := (over_run turns h).2.2.2.2
  memory_eq turns :=
    (Reader.leaves ((over_run turns h).1.page?_eq (m.run plan turns).shared)).memory_eq

/-- A reader that has ended stays where it is. -/
theorem reader_stays {failure? : Option Error} (turns : List Turn) : ∀ {m : Machine σ},
    m.reader = .done failure? → (m.run plan turns).reader = .done failure? := by
  induction turns with
  | nil => exact fun h => h
  | cons t turns ih =>
    rintro ⟨p, f, r⟩ rfl
    refine ih ?_
    cases t <;> rfl

theorem stopped_run (turns : List Turn) : ∀ {m : Machine σ}, m.shared.stopped = true →
    (m.run plan turns).shared.stopped = true := by
  induction turns with
  | nil => exact fun h => h
  | cons t turns ih => exact fun h => ih (stopped_step h t)

/-! ### A superpage that the channel refuses -/

/-- The superpages on the queues, in the channel and in the hands of the tasks, and one that the reader
could not give back. -/
def superpages (held : σ → List Nat) (m : Machine σ) : List Nat :=
  m.shared.custody held ++ m.feeder.held ++ m.reader.held ++ m.reader.dropped

/-- **The channel refused a superpage.** The feeder has ended with this failure and has asked the reader
to end, nothing else has changed, and of the superpages of the run this one alone is missing. -/
structure PushRefused (held : σ → List Nat) (plan : Plan) (m : Machine σ) (offset : Nat) (e : Error) :
    Prop where
  step_eq : ∃ c, held c = held m.shared.channel ∧ m.step plan .feed =
    ⟨{ m.shared with channel := c, stopped := true }, .done (some e), m.reader⟩
  stays : ∀ turns, ((m.step plan .feed).run plan turns).feeder = .done (some e) ∧
    ((m.step plan .feed).run plan turns).shared.stopped = true
  others : ∀ p turns, (start p).run plan turns = m →
    (offset :: (m.step plan .feed).superpages held).Perm (p.custody held)
  nowhere : ∀ p turns, (start p).run plan turns = m → (p.custody held).Nodup →
    offset ∉ (m.step plan .feed).superpages held

theorem pushRefused (ha : Channel.Accounts held) {offset : Nat} {e : Error}
    (hf : m.feeder = .submit offset)
    (hpush : (Channel.push m.shared.channel ⟨offset, plan.layout.superpageSize, 0⟩).1 = .error e) :
    m.PushRefused held plan offset e := by
  obtain ⟨p, f, r⟩ := m
  obtain rfl : f = .submit offset := hf
  have hheld := ha.push_error hpush
  have hstep : (⟨p, .submit offset, r⟩ : Machine σ).step plan .feed =
      ⟨{ p with
        channel := (Channel.push p.channel ⟨offset, plan.layout.superpageSize, 0⟩).2
        stopped := true }, .done (some e), r⟩ := by
    have hsubmit : Feeder.step plan p (.submit offset) = Feeder.fail { p with
        channel := (Channel.push p.channel ⟨offset, plan.layout.superpageSize, 0⟩).2 } e := by
      rw [Feeder.step, Feeder.submitStep, Pipeline.onChannel_eq, hpush]
    exact feed_of_step hsubmit r
  have hothers : ∀ q turns, (start q).run plan turns = ⟨p, .submit offset, r⟩ →
      (offset :: ((⟨p, .submit offset, r⟩ : Machine σ).step plan .feed).superpages held).Perm
        (q.custody held) := by
    intro q turns hrun
    -- before the push all superpages are in custody, this one in the hand of the feeder
    have hcustody := inCustody_run ha plan turns (m := start q) (InCustody.start q)
    rw [hrun] at hcustody
    have hplaces := List.perm_iff_count.1 (hcustody (by rintro _ ⟨⟩)).places
    refine List.perm_iff_count.2 fun x => ?_
    have := hplaces x
    rw [hstep]
    simp only [superpages, Pipeline.custody, hheld, Feeder.held, Feeder.doubled, List.count_append,
      List.count_cons, List.count_nil] at this ⊢
    omega
  refine ⟨⟨_, hheld, hstep⟩, fun turns => ?_, hothers, fun q turns hrun hnodup => ?_⟩
  · rw [hstep]
    exact ⟨feeder_stays turns rfl, stopped_run turns rfl⟩
  · exact (List.nodup_cons.1 ((hothers q turns hrun).nodup_iff.2 hnodup)).1

end Machine

/-! ### A superpage for which there is no room on the ready queue -/

/-- While `p` goes on to `q`, nothing is made ready: the channel keeps its superpages, perhaps with
further ones behind them, and what is ready is taken away at most. -/
structure Pipeline.Awaits (held : σ → List Nat) (p q : Pipeline σ) : Prop where
  held_prefix : held p.channel <+: held q.channel
  ready_suffix : q.ready.toList <:+ p.ready.toList
  pushed_eq : q.stats.pushed = p.stats.pushed

namespace Pipeline

theorem Awaits.refl (p : Pipeline σ) : Awaits held p p :=
  ⟨List.prefix_rfl, List.suffix_rfl, rfl⟩

theorem Awaits.trans {p q s : Pipeline σ} (h : Awaits held p q) (h' : Awaits held q s) :
    Awaits held p s :=
  ⟨h.held_prefix.trans h'.held_prefix, h'.ready_suffix.trans h.ready_suffix,
    h'.pushed_eq.trans h.pushed_eq⟩

end Pipeline

/-- The superpages that the feeder can push at most before it makes another one ready. -/
def Machine.pushesLeft (m : Machine σ) : Nat :=
  m.shared.free.toList.length + m.shared.ready.toList.length + m.reader.held.length

/-- The steps of the feeder until it looks for a filled superpage, if it can push `k` before. -/
def Feeder.stepsToLook (k : Nat) : Feeder → Nat
  | .poll => 2 * k + 4
  | .fill | .submit _ => 2 * k + 3
  | .feed => 2 * k + 2
  | .handOver | .collect _ | .done _ => 0

theorem Feeder.stepsToLook_mono {f : Feeder} {j k : Nat} (h : j ≤ k) (hpos : 0 < f.stepsToLook k) :
    0 < f.stepsToLook j ∧ f.stepsToLook j ≤ f.stepsToLook k := by
  cases f <;> simp only [stepsToLook] at hpos ⊢ <;> omega

namespace Machine

variable [Channel σ] {m n : Machine σ}

theorem awaits_read (held : σ → List Nat) (plan : Plan) (m : Machine σ) :
    Pipeline.Awaits held m.shared (m.step plan .read).shared ∧
      (m.step plan .read).pushesLeft ≤ m.pushesLeft := by
  obtain ⟨p, f, r⟩ := m
  have hchannel := Reader.channel_step plan p r
  obtain ⟨-, hpushed⟩ := Reader.sizes_step plan p r
  have hlater : held p.channel <+: held (r.step plan p).2.channel := by rw [hchannel]
  rcases hstep : r.step plan p with ⟨r', q⟩
  rw [hstep] at hlater hpushed
  rw [read_of_step hstep f]
  simp only [pushesLeft]
  -- what the reader takes from one queue it puts on the other one at most
  cases Reader.moves hstep with
  | takes hpop =>
    have hready := Ring.toList_pop hpop
    refine ⟨⟨hlater, ?_, hpushed⟩, ?_⟩
    · dsimp only
      rw [hready]
      exact List.suffix_cons _ _
    · simp only [hready, Reader.held, List.length_cons, List.length_nil]
      omega
  | @reads offset page _ _ hread | @fails offset page _ _ _ hread =>
    obtain ⟨hfree, hready⟩ := p.queues_readPage plan (offset + page * plan.layout.pageSize)
    rw [hread] at hfree hready
    dsimp only at hfree hready
    rw [hfree, hready]
    exact ⟨⟨hlater, by rw [hready], hpushed⟩, le_rfl⟩
  | returns hroom | abandons hroom =>
    have hfree := Ring.offer_eq_true hroom
    refine ⟨⟨hlater, List.suffix_rfl, hpushed⟩, ?_⟩
    simp only [hfree, Reader.held, List.length_append, List.length_cons, List.length_nil]
    omega
  | crowded hroom =>
    have hfree := Ring.offer_eq_false hroom
    refine ⟨⟨hlater, List.suffix_rfl, hpushed⟩, ?_⟩
    simp only [hfree, Reader.held, List.length_cons, List.length_nil]
    omega
  | _ => exact ⟨⟨hlater, List.suffix_rfl, hpushed⟩, le_rfl⟩

/-- A step of the feeder before it looks for a filled superpage brings it nearer to that, unless the
tasks are asked to end. -/
theorem awaits_feed (ha : Channel.Accounts held) (plan : Plan) (m : Machine σ)
    (hlimit : limitReached plan.limit? m.shared.stats.pushed = false)
    (hpos : 0 < m.feeder.stepsToLook m.pushesLeft) :
    Pipeline.Awaits held m.shared (m.step plan .feed).shared ∧
      ((m.step plan .feed).feeder = .handOver ∨ (m.step plan .feed).shared.stopped = true ∨
        0 < (m.step plan .feed).feeder.stepsToLook (m.step plan .feed).pushesLeft ∧
          (m.step plan .feed).feeder.stepsToLook (m.step plan .feed).pushesLeft <
            m.feeder.stepsToLook m.pushesLeft) := by
  obtain ⟨p, f, r⟩ := m
  replace hlimit : limitReached plan.limit? p.stats.pushed = false := hlimit
  rcases hstep : f.step plan p with ⟨f', q⟩
  rw [feed_of_step hstep r]
  cases Feeder.moves hstep with
  | ends hend =>
    rw [hlimit, Bool.or_false] at hend
    exact ⟨.refl _, Or.inr (Or.inl hend)⟩
  | goes => exact ⟨.refl _, Or.inr (Or.inr ⟨Nat.succ_pos _, Nat.lt_succ_self _⟩)⟩
  | fills =>
    refine ⟨⟨?_, List.suffix_rfl, rfl⟩, Or.inr (Or.inr ⟨Nat.succ_pos _, Nat.lt_succ_self _⟩)⟩
    show held p.channel <+: held (Channel.fill p.channel p.memory).1
    rw [ha.fill]
  | pauses => exact ⟨.refl _, Or.inl rfl⟩
  | takes _ hpop =>
    have hfree := Ring.toList_pop hpop
    refine ⟨⟨List.prefix_rfl, List.suffix_rfl, rfl⟩, Or.inr (Or.inr ⟨Nat.succ_pos _, ?_⟩)⟩
    simp only [Feeder.stepsToLook, pushesLeft, hfree, List.length_cons]
    omega
  | pushes hpush =>
    refine ⟨⟨?_, List.suffix_rfl, rfl⟩, Or.inr (Or.inr ⟨Nat.succ_pos _, Nat.lt_succ_self _⟩)⟩
    dsimp only
    rw [ha.push_ok hpush]
    exact List.prefix_append _ _
  | refused hpush =>
    refine ⟨⟨?_, List.suffix_rfl, rfl⟩, Or.inr (Or.inl rfl)⟩
    dsimp only
    rw [ha.push_error hpush]
  | _ => exact absurd hpos (Nat.lt_irrefl 0)

/-- Within these turns the feeder looks for a filled superpage, or the tasks are asked to end, and nothing
is made ready before. -/
def Looks (held : σ → List Nat) (plan : Plan) (m : Machine σ) (turns : List Turn) : Prop :=
  ∃ before, before <+: turns ∧ Pipeline.Awaits held m.shared (m.run plan before).shared ∧
    ((m.run plan before).feeder = .handOver ∨ (m.run plan before).shared.stopped = true)

theorem Looks.now {t : Turn} {turns : List Turn}
    (hnext : Pipeline.Awaits held m.shared (m.step plan t).shared)
    (hend : (m.step plan t).feeder = .handOver ∨ (m.step plan t).shared.stopped = true) :
    m.Looks held plan (t :: turns) :=
  ⟨[t], List.cons_prefix_cons.2 ⟨rfl, List.nil_prefix⟩, hnext, hend⟩

theorem Looks.later {t : Turn} {turns : List Turn}
    (hnext : Pipeline.Awaits held m.shared (m.step plan t).shared)
    (h : (m.step plan t).Looks held plan turns) : m.Looks held plan (t :: turns) := by
  obtain ⟨before, hlater, hawaits, hend⟩ := h
  exact ⟨t :: before, List.cons_prefix_cons.2 ⟨rfl, hlater⟩, hnext.trans hawaits, hend⟩

/-- **The feeder comes back** to look for a filled superpage, whatever the reader does in between. -/
theorem looks_again (ha : Channel.Accounts held) (turns : List Turn) : ∀ {m : Machine σ},
    limitReached plan.limit? m.shared.stats.pushed = false →
    0 < m.feeder.stepsToLook m.pushesLeft → m.feeder.stepsToLook m.pushesLeft ≤ turns.count .feed →
    m.Looks held plan turns := by
  -- a turn of the feeder takes it a step nearer, and no turn of the reader takes it back
  induction turns with
  | nil =>
    intro m _ hpos hle
    exact absurd (lt_of_lt_of_le hpos hle) (Nat.lt_irrefl 0)
  | cons t turns ih =>
    intro m hlimit hpos hle
    cases t with
    | feed =>
      rw [List.count_cons_self] at hle
      obtain ⟨hnext, hlook | hstop | ⟨hpos', hlt⟩⟩ := awaits_feed ha plan m hlimit hpos
      · exact .now hnext (Or.inl hlook)
      · exact .now hnext (Or.inr hstop)
      · rw [← hnext.pushed_eq] at hlimit
        exact .later hnext (ih hlimit hpos' (Nat.le_of_lt_succ (lt_of_lt_of_le hlt hle)))
    | read =>
      rw [List.count_cons_of_ne (by decide : Turn.read ≠ .feed)] at hle
      obtain ⟨hnext, hpushes⟩ := awaits_read held plan m
      obtain ⟨hpos', hmono⟩ := Feeder.stepsToLook_mono hpushes hpos
      rw [← hnext.pushed_eq] at hlimit
      exact .later hnext (ih hlimit hpos' (hmono.trans hle))
    | stop => exact .now ⟨List.prefix_rfl, List.suffix_rfl, rfl⟩ (Or.inr rfl)

/-- **There was no room to make a superpage ready.** Nothing has changed but that the feeder begins its
next round, and in the turns of a round it looks for the superpage again. -/
structure HandOverRetried (held : σ → List Nat) (plan : Plan) (m : Machine σ) : Prop where
  step_eq : m.step plan .feed = { m with feeder := .poll }
  retried : limitReached plan.limit? m.shared.stats.pushed = false → ∀ turns,
    2 * m.pushesLeft + 4 ≤ turns.count .feed → (m.step plan .feed).Looks held plan turns

theorem handOverRetried (ha : Channel.Accounts held) (hf : m.feeder = .handOver)
    (hfull : m.shared.ready.capacity ≤ m.shared.ready.toList.length) :
    m.HandOverRetried held plan := by
  obtain ⟨p, f, r⟩ := m
  obtain rfl : f = .handOver := hf
  have hlook : Feeder.step plan p .handOver = (.poll, p) := by
    rcases hmove : Feeder.step plan p .handOver with ⟨f', q⟩
    cases Feeder.moves hmove with
    | waits => rfl
    | crowded _ hroom => rw [Ring.offer_eq_false hroom]
    | @offers s _ _ hroom =>
      rw [show p.ready.offer s.offset = (false, p.ready) from Ring.offer_of_full _ hfull] at hroom
      cases hroom
  have hstep : (⟨p, .handOver, r⟩ : Machine σ).step plan .feed = ⟨p, .poll, r⟩ := feed_of_step hlook r
  refine ⟨hstep, fun hlimit turns hturns => ?_⟩
  rw [hstep]
  exact looks_again ha turns (m := ⟨p, .poll, r⟩) hlimit (Nat.succ_pos _) hturns

/-! ### A page that cannot be copied -/

/-- **The superpage of a failed reader is given back.** It is on the free queue again, and the reader has
ended with its failure and has asked the feeder to end. -/
structure GivenBack (plan : Plan) (m : Machine σ) (offset : Nat) (e : Error) : Prop where
  step_eq : ∃ free, free.toList = m.shared.free.toList ++ [offset] ∧ m.step plan .read =
    ⟨{ m.shared with free, dump? := m.shared.dump?.map Dump.close, stopped := true }, m.feeder,
      .done (some e)⟩
  stays : ∀ turns, ((m.step plan .read).run plan turns).reader = .done (some e) ∧
    ((m.step plan .read).run plan turns).shared.stopped = true

/-- **A page could not be copied.** It was counted and checked, but it was not overwritten and the
verifier did not go on from it. No further page is read, and the superpage is given back in the next step
of the reader if there is room for it. -/
structure CopyFailed (plan : Plan) (m : Machine σ) (offset : Nat) (pg : PageRead) (e : Error) : Prop where
  file : ∃ fault, e = .file fault
  event_eq : pg.event = m.shared.stats.read
  step_eq : m.step plan .read = ⟨{ m.shared with
    stats := (Pipeline.checked m.shared.verifier? m.shared.stats.addRead.2 pg.event pg.words).1
    verifier? := (Pipeline.checked m.shared.verifier? m.shared.stats.addRead.2 pg.event pg.words).2
    dump? := (Pipeline.copied m.shared.dump? pg.event pg.words).2 }, m.feeder,
      .giveBack offset (some e)⟩
  read_eq : (m.step plan .read).shared.stats.read = pg.event + 1
  verifier_eq : ∀ v, m.shared.verifier? = some v →
    (m.step plan .read).shared.verifier? = some (v.check pg.event pg.words).2 ∧
      (m.step plan .read).shared.stats.errors =
        m.shared.stats.errors + (v.mismatches pg.event pg.words).length.toUInt64
  ends : (m.step plan .read).ReadsNoMore plan
  returned : ∀ turns, .read ∉ turns →
    ((m.step plan .read).run plan turns).shared.free.toList.length <
      ((m.step plan .read).run plan turns).shared.free.capacity →
    ((m.step plan .read).run plan turns).GivenBack plan offset e

theorem reader_waits (turns : List Turn) : ∀ {m : Machine σ}, .read ∉ turns →
    (m.run plan turns).reader = m.reader := by
  induction turns with
  | nil => exact fun _ => rfl
  | cons t turns ih =>
    intro m hturns
    refine (ih fun hrest => hturns (List.mem_cons_of_mem t hrest)).trans ?_
    cases t with
    | read => exact absurd List.mem_cons_self hturns
    | feed => rfl
    | stop => rfl

theorem givenBack {offset : Nat} {e : Error} (hr : m.reader = .giveBack offset (some e))
    (hroom : m.shared.free.toList.length < m.shared.free.capacity) : m.GivenBack plan offset e := by
  obtain ⟨p, f, r⟩ := m
  obtain rfl : r = .giveBack offset (some e) := hr
  obtain ⟨free, hoffer, hfree, -⟩ := Ring.offer_of_room offset hroom
  have hstep : (⟨p, f, .giveBack offset (some e)⟩ : Machine σ).step plan .read =
      ⟨{ p with free, dump? := p.dump?.map Dump.close, stopped := true }, f, .done (some e)⟩ := by
    have hback : Reader.step plan p (.giveBack offset (some e)) = Reader.fail { p with free } e := by
      rw [Reader.step, Reader.giveBackStep, Pipeline.offerFree_eq,
        show p.free.offer offset = (true, free) from hoffer]
    exact read_of_step hback f
  refine ⟨⟨free, hfree, hstep⟩, fun turns => ?_⟩
  rw [hstep]
  exact ⟨reader_stays turns rfl, stopped_run turns rfl⟩

theorem copyFailed {offset page : Nat} {pg : PageRead} {e : Error}
    (hr : m.reader = .reading offset page) (hpage : m.reader.page? plan m.shared = some pg)
    (hcopy : (Pipeline.copied m.shared.dump? pg.event pg.words).1 = .error e) :
    m.CopyFailed plan offset pg e := by
  obtain ⟨p, f, r⟩ := m
  obtain rfl : r = .reading offset page := hr
  obtain ⟨_, _, v, hreading, hgo, hv, rfl⟩ := Reader.reading_of_page hpage
  cases hreading
  have hstep : (⟨p, f, .reading offset page⟩ : Machine σ).step plan .read = ⟨{ p with
      stats := (p.afterCheck v).1, verifier? := (p.afterCheck v).2
      dump? := (Pipeline.copied p.dump? p.stats.read (p.memory.page v)).2 }, f,
        .giveBack offset (some e)⟩ := by
    have hread : Reader.step plan p (.reading offset page) = (.giveBack offset (some e), { p with
        stats := (p.afterCheck v).1, verifier? := (p.afterCheck v).2
        dump? := (Pipeline.copied p.dump? p.stats.read (p.memory.page v)).2 }) := by
      rw [Reader.step, Reader.readingStep, if_pos hgo, Pipeline.readPage_of_view hv]
      rcases hc : Pipeline.copied p.dump? p.stats.read (p.memory.page v) with ⟨result, dump?⟩
      obtain rfl : result = .error e := (congrArg Prod.fst hc).symm.trans hcopy
      rfl
    exact read_of_step hread f
  have hover : ((⟨p, f, .reading offset page⟩ : Machine σ).step plan .read).reader =
      .giveBack offset (some e) := by rw [hstep]
  refine ⟨Pipeline.copied_error hcopy, rfl, hstep, ?_, fun w hw => ?_, readsNoMore ?_,
    fun turns hturns hroom => ?_⟩
  · rw [hstep]
    exact (Pipeline.checked_counts p.verifier? p.stats.addRead.2 p.stats.read (p.memory.page v)).1
  · have hw : p.verifier? = some w := hw
    rw [hstep]
    simp only [Pipeline.afterCheck, hw]
    exact ⟨rfl, rfl⟩
  · rw [hover]
    trivial
  · exact givenBack ((reader_waits turns hturns).trans hover) hroom

/-! ### What the sink has taken -/

/-- The bytes of pages, one behind the other. -/
def copyOf (mode : DumpMode) : List PageRead → ByteArray
  | [] => .empty
  | pg :: pages => pageBytes mode pg.event pg.words ++ copyOf mode pages

/-- A sink that was offered pages one after the other was offered all of their bytes. -/
theorem foldl_offered (mode : DumpMode) (pages : List PageRead) (sink : Sink) :
    pages.foldl (Sink.offered mode) sink = (sink.take (copyOf mode pages)).2 := by
  induction pages generalizing sink with
  | nil => exact sink.take_empty.symm
  | cons pg pages ih => rw [List.foldl_cons, ih, Sink.offered, Sink.take_append, copyOf]

/-! ### A superpage for which there is no room on the free queue -/

/-- **There was no room to give a superpage back.** The reader has ended with this failure and has asked
the feeder to end, whatever it met before. Nothing else has changed, and no further page is read. -/
structure ReturnFailed (plan : Plan) (m : Machine σ) (offset : Nat) : Prop where
  step_eq : m.step plan .read =
    ⟨{ m.shared with dump? := m.shared.dump?.map Dump.close, stopped := true }, m.feeder,
      .done (some (.queue (.returning offset)))⟩
  stays : ∀ turns,
    ((m.step plan .read).run plan turns).reader = .done (some (.queue (.returning offset))) ∧
      ((m.step plan .read).run plan turns).shared.stopped = true
  ends : (m.step plan .read).ReadsNoMore plan

theorem returnFailed {offset : Nat} {failure? : Option Error} (hr : m.reader = .giveBack offset failure?)
    (hfull : m.shared.free.capacity ≤ m.shared.free.toList.length) : m.ReturnFailed plan offset := by
  obtain ⟨p, f, r⟩ := m
  obtain rfl : r = .giveBack offset failure? := hr
  have hback : Reader.step plan p (.giveBack offset failure?) =
      Reader.fail p (.queue (.returning offset)) := by
    rw [Reader.step, Reader.giveBackStep, Pipeline.offerFree_eq,
      show p.free.offer offset = (false, p.free) from Ring.offer_of_full offset hfull]
  have hstep : (⟨p, f, .giveBack offset failure?⟩ : Machine σ).step plan .read =
      ⟨p.abandon, f, .done (some (.queue (.returning offset)))⟩ := read_of_step hback f
  refine ⟨hstep, fun turns => ?_, readsNoMore ?_⟩
  · rw [hstep]
    exact ⟨reader_stays turns rfl, stopped_run turns rfl⟩
  · rw [hstep]
    trivial

/-! ### Setbacks -/

/-- **Failures lose nothing that should be kept**, in any state of the queues, the channel, the verifier
and the copy. A superpage that the channel refuses is the only one missing. One for which there is no room
on the ready queue stays in the channel, and the feeder comes back to it. Where a page cannot be copied,
the reader gives its superpage back and ends. What the sink of the copy has taken is the front part of the
copy of the pages read. Where there is no room on the free queue the reader ends, too. And as long as the
feeder has not failed, no superpage is lost, whatever the queues can hold. -/
theorem setbacks (ha : Channel.Accounts held) (plan : Plan) (m : Machine σ) :
    (∀ offset e, m.feeder = .submit offset →
      (Channel.push m.shared.channel ⟨offset, plan.layout.superpageSize, 0⟩).1 = .error e →
      m.PushRefused held plan offset e) ∧
    (m.feeder = .handOver → m.shared.ready.capacity ≤ m.shared.ready.toList.length →
      m.HandOverRetried held plan) ∧
    (∀ offset page pg e, m.reader = .reading offset page → m.reader.page? plan m.shared = some pg →
      (Pipeline.copied m.shared.dump? pg.event pg.words).1 = .error e →
      m.CopyFailed plan offset pg e) ∧
    (∀ mode sink, m.shared.dump? = some ⟨mode, sink, false⟩ → ∀ turns,
      ∃ d, (m.run plan turns).shared.dump? = some d ∧
        d.sink = (sink.take (copyOf mode (m.pagesRead plan turns))).2 ∧
        ∃ k, d.sink.taken = sink.taken ++ (copyOf mode (m.pagesRead plan turns)).extract 0 k) ∧
    (∀ offset failure?, m.reader = .giveBack offset failure? →
      m.shared.free.capacity ≤ m.shared.free.toList.length → m.ReturnFailed plan offset) ∧
    ∀ p turns, (start p).run plan turns = m → (∀ e, m.feeder ≠ .done (some e)) →
      (m.superpages held).Perm (p.custody held ++ m.feeder.doubled) := by
  refine ⟨fun offset e hf hpush => pushRefused ha hf hpush,
    fun hf hfull => handOverRetried ha hf hfull,
    fun offset page pg e hr hpage hcopy => copyFailed hr hpage hcopy,
    fun mode sink hdump turns => ?_, fun offset failure? hr hfull => returnFailed hr hfull,
    fun p turns hrun hgood => ?_⟩
  · obtain ⟨closed, hrun, -⟩ := CopiesTo.run plan turns (m := m) ⟨false, hdump, nofun⟩
    rw [foldl_offered] at hrun
    exact ⟨_, hrun, rfl, Sink.taken_take _ _⟩
  · subst hrun
    exact (inCustody_run ha plan turns (InCustody.start p) hgood).places

/-- A machine whose channel accepts one superpage only, with a second one to push. -/
def smallRefusing : Machine Scripted :=
  (start {
    memory := { size := 160 }
    channel := {
      family := .cru
      pageSize := 40
      acceptedPushes? := some 1
      running := true
      bar := .zeroed .cru }
    free := Pipeline.small.free
    ready := Pipeline.small.ready }).run { layout := .small } (.replicate 5 .feed)

/-- The small pipeline with room for one superpage on the ready queue, and for fifty bytes in the copy. -/
def smallNarrow : Pipeline Emulated :=
  { Pipeline.small with
    ready := .ofSlots 2 (by decide)
    dump? := some ⟨.binary, ⟨some 50, .empty⟩, false⟩ }

/-- The machine on this pipeline when the second superpage is filled and the first one is not read. -/
def smallCrowded : Machine Emulated :=
  (start smallNarrow).run { layout := .small } (.replicate 20 .feed)

/-- The same machine when one page was read. -/
def smallCopied : Machine Emulated :=
  (start smallNarrow).run { layout := .small } (.replicate 10 .feed ++ .replicate 3 .read)

/-- A machine that has read a superpage and has no room for it on the free queue. -/
def smallReturning : Machine Emulated :=
  (start { Pipeline.small with
    free := (Ring.ofSlots 2 (by decide)).pushAll [80]
    ready := (Ring.ofSlots 2 (by decide)).pushAll [0] }).run { layout := .small } (.replicate 5 .read)

/-- The second superpage is refused; where one is ready already, it waits; the copy has no room for the
second page; and a superpage cannot be given back where another one is free already. -/
theorem setbacks_small :
    smallRefusing.PushRefused Scripted.offsets { layout := .small } 80 (.channel (.other "rejected")) ∧
      smallCrowded.HandOverRetried Emulated.offsets { layout := .small } ∧
      (∃ pg, pg.event = 1 ∧
        smallCopied.CopyFailed { layout := .small } 0 pg (.file .sinkFull)) ∧
      smallReturning.ReturnFailed { layout := .small } 0 := by
  obtain ⟨hrefused, -⟩ := setbacks Scripted.accounts { layout := .small } smallRefusing
  obtain ⟨-, hretried, -⟩ := setbacks Emulated.accounts { layout := .small } smallCrowded
  obtain ⟨-, -, hfailed, -⟩ := setbacks Emulated.accounts { layout := .small } smallCopied
  obtain ⟨-, -, -, -, hreturned, -⟩ := setbacks Emulated.accounts { layout := .small } smallReturning
  refine ⟨hrefused 80 _ (by decide +kernel) (by decide +kernel),
    hretried (by decide +kernel) (by decide +kernel), ?_,
    hreturned 0 none (by decide +kernel) (by decide +kernel)⟩
  have hpage : (smallCopied.page? { layout := .small } .read).isSome = true := by decide +kernel
  obtain ⟨pg, hpg⟩ := Option.isSome_iff_exists.1 hpage
  have hevent : (smallCopied.page? { layout := .small } .read).map (·.event) = some 1 := by
    decide +kernel
  have hcopy : (smallCopied.page? { layout := .small } .read).map
      (fun pg => (Pipeline.copied smallCopied.shared.dump? pg.event pg.words).1) =
        some (.error (.file .sinkFull)) := by decide +kernel
  rw [hpg] at hevent hcopy
  exact ⟨pg, Option.some.inj hevent,
    hfailed 0 1 pg _ (by decide +kernel) hpg (Option.some.inj hcopy)⟩

end Machine

end DmaReadout
