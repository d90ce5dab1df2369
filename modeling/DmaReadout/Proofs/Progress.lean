import DmaReadout.Proofs.PageLimit
import DmaReadout.Proofs.Partition
import DmaReadout.Proofs.Rounds
import DmaReadout.Proofs.Stream

/-! # Progress under a page limit

Both tasks poll, and many of their rounds change nothing. A run with a limit comes to its end all the
same: with one round of each task in turn, two rounds bring a superpage to the reader.

* `Advances`: what holds in every state of a run with a limit.
* `Advances.waiting`: a reader below the limit has something to read, once the feeder has come up to it.
* `Ledger.progress`, `Feeder.Did`, `Reader.Did`: what the rounds of the two tasks have done so far.
* `Between.round`: a round stops the run or makes progress; `Between.stops`: so many rounds stop it. -/

namespace DmaReadout

variable {plan : Plan} {limit : UInt64} {p : Pipeline Emulated} {f : Feeder} {r : Reader}
  {n a : Ledger}

namespace Machine

variable {m : Machine Emulated}

/-- What holds in every state of a run with a limit whose counters began at zero. -/
structure Advances (plan : Plan) (limit : UInt64) (m : Machine Emulated) (n : Ledger) : Prop where
  circulates : m.Circulates plan n
  counts : Counts plan {} m.shared.stats n
  limit_eq : plan.limit? = some limit
  read_le : n.read ≤ limit.toNat
  held_le : m.reader.held ≠ [] → n.returned * plan.layout.pagesPerSuperpage ≤ n.read

namespace Advances

theorem start (h : Prefilled plan.layout p) (hl : plan.limit? = some limit) (hread : p.stats.read = 0)
    (hpushed : p.stats.pushed = 0) : Advances plan limit (start p) {} where
  circulates := DmaReadout.Circulates.start h
  counts := ⟨hread, by rw [Nat.zero_mul]; exact hpushed⟩
  limit_eq := hl
  read_le := Nat.zero_le _
  held_le h := absurd rfl h

theorem read_toNat (h : Advances plan limit m n) : m.shared.stats.read.toNat = n.read :=
  h.counts.read_toNat rfl (lt_of_le_of_lt h.read_le limit.toNat_lt)

theorem step (h : Advances plan limit m n) (t : Turn) :
    Advances plan limit (m.step plan t) (n.after plan m t) where
  circulates := h.circulates.step t
  counts := h.circulates.step_counts h.counts t
  limit_eq := h.limit_eq
  read_le := by
    cases t with
    | feed =>
      show (n.afterFeed m.feeder).read ≤ limit.toNat
      cases m.feeder <;> exact h.read_le
    | read =>
      exact DmaReadout.Circulates.read_le_limit h.circulates h.limit_eq h.read_toNat h.read_le
    | stop => exact h.read_le
  held_le := by
    intro hheld
    cases t with
    | feed =>
      show (n.afterFeed m.feeder).returned * _ ≤ (n.afterFeed m.feeder).read
      have hle := h.held_le hheld
      cases m.feeder <;> exact hle
    | stop => exact h.held_le hheld
    | read =>
      have hholds := h.circulates.reader_holds
      have hprev := h.held_le
      obtain ⟨p, f, r⟩ := m
      have hheld : (r.step plan p).1.held ≠ [] := hheld
      rcases hstep : r.step plan p with ⟨r', q⟩
      rw [hstep] at hheld
      cases Reader.moves hstep with
      | takes => exact le_of_eq (Eq.symm hholds)
      | reads | fails | finishes => exact le_trans (hprev nofun) (Nat.le_add_right _ _)
      | _ => exact absurd rfl hheld

theorem run (turns : List Turn) : ∀ {m : Machine Emulated} {n : Ledger}, Advances plan limit m n →
    Advances plan limit (m.run plan turns) (m.tally plan n turns) := by
  induction turns with
  | nil => intro m n h; exact h
  | cons t turns ih => intro m n h; exact ih (h.step t)

theorem limitReached_read (h : Advances plan limit m n) :
    limitReached plan.limit? m.shared.stats.read = true ↔ limit.toNat ≤ n.read := by
  rw [h.limit_eq, limitReached_iff, h.read_toNat]

/-- A feeder at the limit has taken so many superpages from the channel, also if its counter has come
round. -/
theorem le_collected (h : Advances plan limit m n)
    (hp : limitReached plan.limit? m.shared.stats.pushed = true) :
    limit.toNat ≤ n.collected * plan.layout.pagesPerSuperpage := by
  rw [h.limit_eq, limitReached_iff, h.counts.pushed_eq, UInt64.zero_add] at hp
  exact le_trans hp (Nat.mod_le _ _)

/-! ### The reader is not left waiting -/

/-- All pages of the superpages that the reader took were read, if it holds none and the limit is not
reached. -/
theorem read_eq_taken (h : Advances plan limit m n) (hlt : n.read < limit.toNat)
    (hheld : m.reader.held = []) (hdone : m.readerDone = false) :
    n.read = m.taken n * plan.layout.pagesPerSuperpage := by
  have hnot : ¬limitReached plan.limit? m.shared.stats.read = true := by
    rw [h.limitReached_read]
    omega
  have hr := h.circulates.reader_holds
  obtain ⟨p, f, r⟩ := m
  cases r with
  | poll => exact hr.resolve_right fun hlimit => hnot hlimit.1
  | take => exact hr
  | reading offset page => cases hheld
  | giveBack offset failure? => cases hheld
  | done failure? => cases hdone

/-- A reader below a limit that the feeder has come up to has a superpage to take, or it holds the one
of the page that comes next. -/
theorem waiting (h : Advances plan limit m n) (hdone : m.readerDone = false)
    (hp : limitReached plan.limit? m.shared.stats.pushed = true) (hlt : n.read < limit.toNat) :
    m.shared.ready.toList ≠ [] ∨
      m.reader.held = [plan.layout.nth (n.read / plan.layout.pagesPerSuperpage)] ∧
        m.taken n = n.read / plan.layout.pagesPerSuperpage + 1 := by
  have hcoll := h.le_collected hp
  by_cases hmore : m.taken n < n.collected + m.feeder.ahead
  · left
    rw [h.circulates.ready_eq]
    exact (plan.layout.stretch_cons hmore).trans_ne (List.cons_ne_nil _ _)
  · right
    have hall : n.collected * plan.layout.pagesPerSuperpage ≤
        m.taken n * plan.layout.pagesPerSuperpage := Nat.mul_le_mul_right _ (by omega)
    have hheld : m.reader.held ≠ [] := fun hheld => by
      have := h.read_eq_taken hlt hheld hdone
      omega
    have hone : m.reader.inHand = 1 := by
      cases hr : m.reader with
      | reading offset page => rfl
      | giveBack offset failure? => rfl
      | _ =>
        rw [hr] at hheld
        exact absurd rfl hheld
    have hnext : n.read / plan.layout.pagesPerSuperpage = n.returned :=
      Nat.div_eq_of_lt_le (h.held_le hheld) (by
        rw [taken, hone] at hall
        omega)
    rw [h.circulates.reader_held, taken, hone, hnext, plan.layout.stretch_one]
    exact ⟨rfl, rfl⟩

end Advances

end Machine

/-! ### What a round has done -/

/-- How far superpages have come: one that waits in the channel counts half of one that was taken from
it. -/
def Ledger.progress (n : Ledger) : Nat :=
  2 * n.collected + if n.collected < n.submitted then 1 else 0

theorem Ledger.progress_le (n : Ledger) : n.progress ≤ 2 * n.collected + 1 := by
  unfold progress
  split <;> omega

/-- What the feeder has done so far in a round that began with the ledger `a`. When it rests again, it
has made progress. -/
def Feeder.Did (a n : Ledger) : Feeder → Prop
  | .fill => n.collected = a.collected ∧ n.submitted = a.submitted
  | .feed | .submit _ => n.collected = a.collected ∧ n.filled = a.submitted
  | .handOver => n.collected = a.collected ∧ n.filled = a.submitted ∧ n.collected < n.submitted
  | .collect _ => n.collected = a.collected
  | .poll => a.progress < n.progress ∧ n.collected ≤ a.collected + 1
  | .done _ => False

namespace Circulates

theorem length_queue (h : Circulates plan p f r n) :
    p.channel.queue.length = n.submitted - n.collected := by
  rw [← Fifo.length_toList, h.queue_eq, Layout.descriptors, List.length_map, List.Ico.length]

/-- A feeder that has nothing more to submit leaves a superpage in the channel, if the reader has none. -/
theorem queued_of_pause (h : Circulates plan p .feed r n) (hret : n.returned = n.collected)
    (hnone : Channel.available p.channel = 0 ∨ p.free.pop = none) : n.collected < n.submitted := by
  have hcap := h.equipped.serves.capacity_pos
  have hcount := plan.layout.count_pos
  have hlen := h.length_queue
  rcases hnone with hfull | hpop
  · have hfull : p.channel.capacity - p.channel.queue.length = 0 := hfull
    omega
  · have hnil := congrArg List.length ((Ring.pop_eq_none_iff _).1 hpop)
    rw [h.free_eq, Layout.length_stretch] at hnil
    have hnil : n.returned + plan.layout.count - (n.submitted + 0) = 0 := hnil
    omega

/-- A superpage in the channel that is not handed over came there after the last fill. -/
theorem filled_of_wait (h : Circulates plan p .handOver r n) (hlt : n.collected < n.submitted)
    (hnone : Channel.queued p.channel = 0 ∨ Channel.head? p.channel = none ∨
      ∃ s, Channel.head? p.channel = some s ∧ ¬s.isFilled = true) : n.filled ≤ n.collected := by
  have hlen := h.length_queue
  rcases hnone with hempty | hhead | ⟨s, hhead, hunfilled⟩
  · have hempty : p.channel.queue.length = 0 := hempty
    omega
  · have hnil : p.channel.queue.toList.head? = none := (Fifo.head?_toList _).trans hhead
    rw [List.head?_eq_none_iff, ← List.length_eq_zero_iff, Fifo.length_toList] at hnil
    omega
  · obtain ⟨-, rfl⟩ := h.head_eq hhead
    by_contra hold
    rw [if_pos (Nat.not_le.1 hold)] at hunfilled
    exact hunfilled (decide_eq_true le_rfl)

/-- **A step of a round of the feeder** goes on with the round. -/
theorem feed_did (h : Circulates plan p f r n) (hret : n.returned = a.collected)
    (hpoll : f ≠ .poll) (hdid : f.Did a n) : (f.step plan p).1.Did a (n.afterFeed f) := by
  rcases hstep : f.step plan p with ⟨f', q⟩
  cases Feeder.moves hstep with
  | ends | goes => exact absurd rfl hpoll
  | fills => exact ⟨hdid.1, hdid.2⟩
  | pauses hnone => exact ⟨hdid.1, hdid.2, h.queued_of_pause (hret.trans hdid.1.symm) hnone⟩
  | takes => exact hdid
  | pushes => exact hdid
  | refused hpush =>
    rw [h.push_eq] at hpush
    cases hpush
  | offers => exact hdid.1
  | @crowded s hhead hroom =>
    obtain ⟨hin, -⟩ := h.head_eq hhead
    obtain ⟨ready, hoffer, -⟩ := Ring.offer_of_room s.offset (h.ready_room rfl hin)
    rw [hoffer] at hroom
    cases hroom
  | waits hnone =>
    -- the superpage was not there when the round began
    obtain ⟨hcoll, hfill, hlt⟩ := hdid
    have hlate := h.filled_of_wait hlt hnone
    refine ⟨?_, by show n.collected ≤ a.collected + 1; omega⟩
    show a.progress < n.progress
    rw [Ledger.progress, Ledger.progress, if_neg (by omega), if_pos hlt]
    omega
  | @collects s =>
    have hcoll : n.collected = a.collected := hdid
    have hprogress := a.progress_le
    show a.progress < Ledger.progress _ ∧ n.collected + 1 ≤ a.collected + 1
    refine ⟨?_, by omega⟩
    rw [Ledger.progress]
    show a.progress < 2 * (n.collected + 1) + _
    omega
  | stuck | differs =>
    rw [Feeder.step, h.collectStep_eq] at hstep
    cases hstep
  | rests => exact hdid

/-- A feeder never fails, and so it never asks the reader to end. -/
theorem stopped_feed (h : Circulates plan p f r n) : (f.step plan p).2.stopped = p.stopped := by
  refine (Feeder.stopped_step plan p f).resolve_right ?_
  rintro ⟨-, e, hend⟩
  have hholds := h.feed_step.feeder_holds
  rw [hend] at hholds
  cases hholds

end Circulates

/-- What the reader has done so far in a round that began when at most one superpage was ready. When it
rests again, nothing is ready. -/
def Reader.Did (n : Ledger) : Reader → Prop
  | .take => n.collected ≤ n.returned + 1
  | .done none => False
  | r => n.returned + r.inHand = n.collected

/-- **A step of a round of the reader** goes on with the round. -/
theorem Circulates.read_did (h : Circulates plan p f r n) (hf : f.ahead = 0) (hpoll : r ≠ .poll)
    (hdid : r.Did n) : (r.step plan p).1.Did (n.afterRead (r.page? plan p) r) := by
  rcases hstep : r.step plan p with ⟨r', q⟩
  cases Reader.moves hstep with
  | ends | reaches | goes => exact absurd rfl hpoll
  | waits hpop =>
    have hnil := congrArg List.length ((Ring.pop_eq_none_iff _).1 hpop)
    rw [h.ready_eq, Layout.length_stretch, hf] at hnil
    have hnil : n.collected + 0 - (n.returned + 0) = 0 := hnil
    have hle : n.returned + 0 ≤ n.collected + f.ahead := h.returned_le
    show n.returned + 0 = n.collected
    omega
  | takes =>
    have hone : n.collected ≤ n.returned + 1 := hdid
    have hnext := h.takeStep
    rw [show Reader.takeStep p = _ from hstep] at hnext
    have hle : n.returned + 1 ≤ n.collected + f.ahead := hnext.returned_le
    show n.returned + 1 = n.collected
    omega
  | _ => exact hdid

/-! ### Rounds in turn -/

namespace Machine

variable {m : Machine Emulated}

/-- A round of the feeder that began with the ledger `a`, when nothing was ready and the reader had no
superpage. -/
structure Feeding (plan : Plan) (limit : UInt64) (a : Ledger) (m : Machine Emulated) (n : Ledger) :
    Prop extends Advances plan limit m n where
  returned_eq : n.returned = a.collected
  reader_eq : m.reader = .poll
  going : m.shared.stopped = false
  did : m.feeder.Did a n

theorem Feeding.step (h : Feeding plan limit a m n) (hrest : ¬m.feederRests = true) :
    Feeding plan limit a (m.step plan .feed) (n.after plan m .feed) where
  toAdvances := h.toAdvances.step .feed
  returned_eq := by
    show (n.afterFeed m.feeder).returned = a.collected
    rw [← h.returned_eq]
    cases m.feeder <;> rfl
  reader_eq := h.reader_eq
  going := (DmaReadout.Circulates.stopped_feed h.circulates).trans h.going
  did := by
    refine DmaReadout.Circulates.feed_did h.circulates h.returned_eq (fun hpoll => hrest ?_) h.did
    rw [feederRests, hpoll]

theorem Feeding.untilRest : ∀ (fuel : Nat) {m : Machine Emulated} {n : Ledger},
    Feeding plan limit a m n → ¬m.feederRests = true →
    ∃ n', Feeding plan limit a (feedUntilRest plan fuel m) n'
  | 0, m, n, h, _ => ⟨n, h⟩
  | fuel + 1, m, n, h, hrest => by
    have hstep := h.step hrest
    rw [feedUntilRest]
    split
    · exact ⟨_, hstep⟩
    · rename_i hnext
      exact untilRest fuel hstep hnext

/-- A round of the reader that began with the ledger `a`, when at most one superpage was ready. -/
structure Reading (plan : Plan) (limit : UInt64) (a : Ledger) (m : Machine Emulated) (n : Ledger) :
    Prop extends Advances plan limit m n where
  ahead_eq : m.feeder.ahead = 0
  progress_eq : n.progress = a.progress
  did : m.reader.Did n
  going : m.shared.stopped = false ∧ m.readerDone = false ∨
    m.shared.stopped = true ∧ ∃ e, m.reader = .done (some e)

theorem Reading.step (h : Reading plan limit a m n) (hrest : ¬m.readerRests = true) :
    Reading plan limit a (m.step plan .read) (n.after plan m .read) where
  toAdvances := h.toAdvances.step .read
  ahead_eq := h.ahead_eq
  progress_eq := by
    show (n.afterRead (m.reader.page? plan m.shared) m.reader).progress = a.progress
    rw [← h.progress_eq]
    cases m.reader <;> rfl
  did := by
    refine DmaReadout.Circulates.read_did h.circulates h.ahead_eq (fun hpoll => hrest ?_) h.did
    rw [readerRests, hpoll]
  going := by
    have hnext := DmaReadout.Circulates.read_did h.circulates h.ahead_eq
      (fun hpoll => hrest (by rw [readerRests, hpoll])) h.did
    have hgo : m.shared.stopped = false := by
      refine h.going.elim And.left ?_
      rintro ⟨-, e, hdone⟩
      exact absurd (by rw [readerRests, hdone]) hrest
    rcases Reader.stopped_step plan m.shared m.reader with ⟨hsame, hend⟩ | ⟨hstop, x, hdone⟩
    · refine Or.inl ⟨hsame.trans hgo, ?_⟩
      show readerDone ⟨(m.reader.step plan m.shared).2, m.feeder, (m.reader.step plan m.shared).1⟩ =
        false
      unfold readerDone
      cases hr : (m.reader.step plan m.shared).1 with
      | done x =>
        rcases hend x hr with hs | hr
        · rw [hgo] at hs
          cases hs
        · exact absurd (by rw [readerRests, hr]) hrest
      | _ => rfl
    · refine Or.inr ⟨hstop, ?_⟩
      cases x with
      | none =>
        rw [hdone] at hnext
        exact hnext.elim
      | some e => exact ⟨e, hdone⟩

theorem Reading.untilRest : ∀ (fuel : Nat) {m : Machine Emulated} {n : Ledger},
    Reading plan limit a m n → ¬m.readerRests = true →
    ∃ n', Reading plan limit a (readUntilRest plan fuel m) n'
  | 0, m, n, h, _ => ⟨n, h⟩
  | fuel + 1, m, n, h, hrest => by
    have hstep := h.step hrest
    rw [readUntilRest]
    split
    · exact ⟨_, hstep⟩
    · rename_i hnext
      exact untilRest fuel hstep hnext

/-- The two tasks between two rounds, with nothing ready. -/
structure Between (plan : Plan) (limit : UInt64) (m : Machine Emulated) (n : Ledger) :
    Prop extends Advances plan limit m n where
  returned_eq : n.returned = n.collected
  feeder_eq : m.feeder = .poll
  reader_eq : m.reader = .poll
  going : m.shared.stopped = false

/-- A reader between two superpages stops the run at the limit. -/
theorem readRound_of_limit (hr : m.reader = .poll) (hgo : m.shared.stopped = false)
    (hl : limitReached plan.limit? m.shared.stats.read = true) :
    m.readRound plan = { m with shared := m.shared.stop, reader := .done none } := by
  obtain ⟨p, f, r⟩ := m
  obtain rfl : r = .poll := hr
  have hstep : Machine.step plan ⟨p, f, .poll⟩ .read = ⟨p.stop, f, .done none⟩ := by
    have hpoll : Reader.pollStep plan p = (.done none, p.stop) := by
      rw [Reader.pollStep, if_neg (by rw [show p.stopped = false from hgo]; exact Bool.false_ne_true),
        if_pos hl]
    show Machine.mk (Reader.pollStep plan p).2 f (Reader.pollStep plan p).1 = _
    rw [hpoll]
  rw [readRound, readUntilRest, hstep]
  exact if_pos rfl

/-- A reader below the limit goes through a round. -/
theorem Advances.readRound (h : Advances plan limit m n) (hf : m.feeder = .poll)
    (hr : m.reader = .poll) (hgo : m.shared.stopped = false) (hone : n.collected ≤ n.returned + 1)
    (hl : ¬limitReached plan.limit? m.shared.stats.read = true) :
    (∃ n', Between plan limit (m.readRound plan) n' ∧ n'.progress = n.progress) ∨
      (m.readRound plan).shared.stopped = true ∧ ∃ e, (m.readRound plan).reader = .done (some e) := by
  have hrests := readRound_rests plan m
  have hfeeder : (m.readRound plan).feeder = .poll := (feeder_readUntilRest plan _ m).trans hf
  have hnext : m.step plan .read = { m with reader := .take } := by
    obtain ⟨p, f, r⟩ := m
    obtain rfl : r = .poll := hr
    have hpoll : Reader.pollStep plan p = (.take, p) := by
      rw [Reader.pollStep, if_neg (by rw [show p.stopped = false from hgo]; exact Bool.false_ne_true),
        if_neg hl]
    show Machine.mk (Reader.pollStep plan p).2 f (Reader.pollStep plan p).1 = _
    rw [hpoll]
  have hadvances := h.step .read
  have hledger : n.after plan m .read = n := by
    rw [Ledger.after, hr]
    rfl
  rw [hnext, hledger] at hadvances
  obtain ⟨n', hend⟩ := Reading.untilRest (plan.layout.pagesPerSuperpage + 3) (a := n)
    { toAdvances := hadvances
      ahead_eq := congrArg Feeder.ahead hf
      progress_eq := rfl
      did := hone
      going := Or.inl ⟨hgo, rfl⟩ } Bool.false_ne_true
  have hround : m.readRound plan =
      readUntilRest plan (plan.layout.pagesPerSuperpage + 3) { m with reader := .take } := by
    rw [Machine.readRound, readUntilRest, hnext]
    exact if_neg Bool.false_ne_true
  rw [← hround] at hend
  rcases hend.going with ⟨hgo', hdone⟩ | hfailed
  · have hpoll : (m.readRound plan).reader = .poll := by
      refine (reader_of_rests hrests).resolve_right ?_
      rintro ⟨failure?, hend'⟩
      rw [readerDone, hend'] at hdone
      cases hdone
    have hdid := hend.did
    rw [hpoll] at hdid
    exact Or.inl ⟨n', ⟨hend.toAdvances, hdid, hfeeder, hpoll, hgo'⟩, hend.progress_eq⟩
  · exact Or.inr hfailed

/-- A feeder below the limit goes through a round that leaves it at rest. -/
theorem Between.feedRound (h : Between plan limit m n) :
    limit.toNat ≤ n.collected * plan.layout.pagesPerSuperpage ∧
        m.feedRound plan = { m with feeder := .done none } ∨
      (m.feedRound plan).feeder = .poll ∧ ∃ n', Feeding plan limit n (m.feedRound plan) n' := by
  have hrests := feedRound_rests plan m
  by_cases hp : limitReached plan.limit? m.shared.stats.pushed = true
  · have hstep : m.step plan .feed = { m with feeder := .done none } := by
      obtain ⟨p, f, r⟩ := m
      obtain rfl : f = .poll := h.feeder_eq
      show Machine.mk (Feeder.poll.step plan p).2 (Feeder.poll.step plan p).1 r = _
      rw [Feeder.step, if_pos (by rw [show limitReached _ _ = true from hp, Bool.or_true])]
    refine Or.inl ⟨h.le_collected hp, ?_⟩
    rw [Machine.feedRound, feedUntilRest, hstep]
    exact if_pos rfl
  · have hstep : m.step plan .feed = { m with feeder := .fill } := by
      obtain ⟨p, f, r⟩ := m
      obtain rfl : f = .poll := h.feeder_eq
      show Machine.mk (Feeder.poll.step plan p).2 (Feeder.poll.step plan p).1 r = _
      rw [Feeder.step, if_neg (by
        rw [show p.stopped = false from h.going, Bool.false_or]
        exact hp)]
    have hledger : n.after plan m .feed = n := by
      rw [Ledger.after, h.feeder_eq]
      rfl
    have hadvances := h.toAdvances.step .feed
    rw [hstep, hledger] at hadvances
    obtain ⟨n', hend⟩ := Feeding.untilRest (2 * m.shared.free.length + 4) (a := n)
      { toAdvances := hadvances
        returned_eq := h.returned_eq
        reader_eq := h.reader_eq
        going := h.going
        did := ⟨rfl, rfl⟩ } Bool.false_ne_true
    have hround : m.feedRound plan =
        feedUntilRest plan (2 * m.shared.free.length + 4) { m with feeder := .fill } := by
      rw [Machine.feedRound, feedUntilRest, hstep]
      exact if_neg Bool.false_ne_true
    rw [← hround] at hend
    refine Or.inr ⟨?_, n', hend⟩
    refine (feeder_of_rests hrests).resolve_right ?_
    rintro ⟨failure?, hf⟩
    have hdid := hend.did
    rw [hf] at hdid
    exact hdid

/-- **A round stops the run at the limit, or it makes progress.** It can also end with a failure of the
reader. -/
theorem Between.round (h : Between plan limit m n) :
    (m.round plan).shared.stopped = true ∧
        ((m.round plan).shared.stats.read = limit ∨ ∃ e, (m.round plan).reader = .done (some e)) ∨
      n.collected * plan.layout.pagesPerSuperpage < limit.toNat ∧
        ∃ n', Between plan limit (m.round plan) n' ∧ n.progress < n'.progress := by
  -- a reader that finds the limit reached has read just as many pages
  have atLimit : ∀ {m' : Machine Emulated} {n' : Ledger}, Advances plan limit m' n' →
      m'.reader = .poll → m'.shared.stopped = false → limit.toNat ≤ n'.read →
      (m'.readRound plan).shared.stopped = true ∧
        (m'.readRound plan).shared.stats.read = limit := by
    intro m' n' ha hr hgo hle
    rw [readRound_of_limit hr hgo (ha.limitReached_read.2 hle)]
    refine ⟨rfl, UInt64.toNat_inj.1 ?_⟩
    show m'.shared.stats.read.toNat = limit.toNat
    rw [ha.read_toNat]
    exact le_antisymm ha.read_le hle
  rcases h.feedRound with ⟨hcoll, hfeed⟩ | ⟨hpoll, n', hfeed⟩
  · -- the feeder has come up to the limit, and the reader has read all that it took
    have hread : limit.toNat ≤ n.read := by
      by_contra hlt
      have hall := h.read_eq_taken (Nat.not_le.1 hlt) (by rw [h.reader_eq]; rfl)
        (by rw [readerDone, h.reader_eq])
      rw [taken, h.reader_eq, h.returned_eq] at hall
      exact hlt (hcoll.trans_eq hall.symm)
    obtain ⟨hstop, hlimit⟩ := atLimit h.toAdvances h.reader_eq h.going hread
    have hround : m.round plan =
        { m with shared := m.shared.stop, feeder := .done none, reader := .done none } := by
      rw [Machine.round, hfeed]
      exact readRound_of_limit h.reader_eq h.going (h.limitReached_read.2 hread)
    rw [readRound_of_limit h.reader_eq h.going (h.limitReached_read.2 hread)] at hlimit
    rw [hround]
    exact Or.inl ⟨rfl, Or.inl hlimit⟩
  · by_cases hread : limit.toNat ≤ n'.read
    · obtain ⟨hstop, hlimit⟩ := atLimit hfeed.toAdvances hfeed.reader_eq hfeed.going hread
      exact Or.inl ⟨hstop, Or.inl hlimit⟩
    · have hdid := hfeed.did
      rw [hpoll] at hdid
      obtain ⟨hprogress, hone⟩ := hdid
      have hall := hfeed.read_eq_taken (Nat.not_le.1 hread) (by rw [hfeed.reader_eq]; rfl)
        (by rw [readerDone, hfeed.reader_eq])
      rw [taken, hfeed.reader_eq, hfeed.returned_eq] at hall
      rcases hfeed.toAdvances.readRound hpoll hfeed.reader_eq hfeed.going
        (by rw [hfeed.returned_eq]; exact hone)
        (fun hl => hread (hfeed.limitReached_read.1 hl)) with ⟨n'', hnext, hsame⟩ | ⟨hstop, hfailed⟩
      · refine Or.inr ⟨?_, n'', hnext, hprogress.trans_eq hsame.symm⟩
        exact hall.symm.trans_lt (Nat.not_le.1 hread)
      · exact Or.inl ⟨hstop, Or.inr hfailed⟩

/-- As many rounds as there is progress to make stop the run. -/
theorem Between.stops {k : Nat} (hk : limit.toNat ≤ k * plan.layout.pagesPerSuperpage) :
    ∀ (d : Nat) {m : Machine Emulated} {n : Ledger}, Between plan limit m n →
    2 * k ≤ n.progress + d →
    ∃ i, i ≤ d ∧ (∀ j, j ≤ i → ((Machine.round plan)^[j] m).shared.stopped = false) ∧
      ((Machine.round plan)^[i + 1] m).shared.stopped = true ∧
      (((Machine.round plan)^[i + 1] m).shared.stats.read = limit ∨
        ∃ e, ((Machine.round plan)^[i + 1] m).reader = .done (some e)) := by
  intro d
  -- on the progress that is left; without any, all superpages that the limit takes up have come out
  induction d with
  | zero =>
    intro m n h hd
    rcases h.round with hstop | ⟨hlt, -⟩
    · refine ⟨0, le_rfl, fun j hj => ?_, hstop⟩
      obtain rfl : j = 0 := by omega
      exact h.going
    · have hle := n.progress_le
      have hmul := Nat.mul_le_mul_right plan.layout.pagesPerSuperpage (show k ≤ n.collected by omega)
      omega
  | succ d ih =>
    intro m n h hd
    rcases h.round with hstop | ⟨-, n', hnext, hprogress⟩
    · refine ⟨0, Nat.zero_le _, fun j hj => ?_, hstop⟩
      obtain rfl : j = 0 := by omega
      exact h.going
    · obtain ⟨i, hi, hbefore, hstop⟩ := ih hnext (by omega)
      refine ⟨i + 1, by omega, fun j hj => ?_, hstop⟩
      cases j with
      | zero => exact h.going
      | succ j => exact hbefore j (by omega)

theorem reaches_rounds {σ : Type} [Channel σ] (plan : Plan) (k : Nat) (m : Machine σ) :
    Reaches plan m ((Machine.round plan)^[k] m) := by
  induction k generalizing m with
  | zero => exact .refl plan m
  | succ k ih => exact (reaches_round plan m).trans (ih _)

end Machine

end DmaReadout
