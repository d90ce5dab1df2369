import DmaReadout.Proofs.Circulation

/-! # The counters of a run

The counters of 64 bits follow the ledger: one counts the pages that were read, the other one those of
the superpages that the feeder took from the channel.

* `Counts`: counters that agree with a ledger; `Counts.feed_step`, `Counts.read_step`: every step keeps
  the agreement.
* `Machine.counts_run`: they agree in every state of a run. -/

namespace DmaReadout

/-- Counters that began with `s` and agree with a ledger. -/
structure Counts (plan : Plan) (s t : Stats) (n : Ledger) : Prop where
  read_eq : t.read = s.read + n.read.toUInt64
  pushed_eq : t.pushed = s.pushed + (n.collected * plan.layout.pagesPerSuperpage).toUInt64

namespace Counts

variable {plan : Plan} {p : Pipeline Emulated} {f : Feeder} {r : Reader} {n : Ledger} {s t : Stats}

theorem read_toNat (h : Counts plan s t n) (hs : s.read = 0) (hlt : n.read < 2 ^ 64) :
    t.read.toNat = n.read := by
  rw [h.read_eq, hs, UInt64.zero_add]
  exact UInt64.toNat_ofNat_of_lt' hlt

theorem pushed_toNat (h : Counts plan s t n) (hs : s.pushed = 0)
    (hlt : n.collected * plan.layout.pagesPerSuperpage < 2 ^ 64) :
    t.pushed.toNat = n.collected * plan.layout.pagesPerSuperpage := by
  rw [h.pushed_eq, hs, UInt64.zero_add]
  exact UInt64.toNat_ofNat_of_lt' hlt

/-- The feeder counts the pages of a superpage when it takes it from the channel. -/
theorem feed_step (hc : Counts plan s p.stats n) (h : Circulates plan p f r n) :
    Counts plan s (f.step plan p).2.stats (n.afterFeed f) := by
  have hsame := (Feeder.leaves plan p f).stats_eq
  cases f with
  | collect offset =>
    rw [Feeder.step, h.collectStep_eq]
    refine ⟨hc.read_eq, ?_⟩
    show p.stats.pushed + plan.layout.pagesPerSuperpage.toUInt64 =
      s.pushed + ((n.collected + 1) * plan.layout.pagesPerSuperpage).toUInt64
    rw [hc.pushed_eq, Nat.succ_mul, UInt64.add_assoc]
    exact congrArg _ (UInt64.ofNat_add _ _).symm
  | _ =>
    rw [hsame (by simp)]
    exact ⟨hc.read_eq, hc.pushed_eq⟩

/-- The reader counts every page that it reads. -/
theorem read_step (hc : Counts plan s p.stats n) :
    Counts plan s (r.step plan p).2.stats (n.afterRead (Reader.page? plan p r) r) := by
  cases hpage : r.page? plan p with
  | none =>
    rw [(Reader.leaves hpage).stats_eq]
    cases r <;> exact ⟨hc.read_eq, hc.pushed_eq⟩
  | some pg =>
    obtain ⟨hstats, -⟩ := Reader.step_page hpage
    obtain ⟨hread, hpushed⟩ := Pipeline.checked_counts p.verifier? p.stats.addRead.2 pg.event pg.words
    obtain ⟨offset, page, v, rfl, -⟩ := Reader.reading_of_page hpage
    rw [hstats]
    refine ⟨?_, hpushed.trans hc.pushed_eq⟩
    show _ = s.read + (n.read + 1).toUInt64
    rw [hread, show p.stats.addRead.2.read = p.stats.read + 1 from rfl, hc.read_eq, UInt64.add_assoc]
    exact congrArg _ (UInt64.ofNat_add _ _).symm

end Counts

namespace Machine

variable {plan : Plan} {m : Machine Emulated} {n : Ledger} {s : Stats}

theorem Circulates.step_counts (h : m.Circulates plan n) (hc : Counts plan s m.shared.stats n)
    (t : Turn) : Counts plan s (m.step plan t).shared.stats (n.after plan m t) := by
  cases t with
  | feed => exact hc.feed_step h
  | read => exact hc.read_step
  | stop => exact hc

theorem Circulates.run_counts (turns : List Turn) : ∀ {m : Machine Emulated} {n : Ledger},
    m.Circulates plan n → Counts plan s m.shared.stats n →
    Counts plan s (m.run plan turns).shared.stats (m.tally plan n turns) := by
  induction turns with
  | nil => intro m n h hc; exact hc
  | cons t turns ih => intro m n h hc; exact ih (h.step t) (h.step_counts hc t)

/-- At the start nothing was counted. -/
theorem start_counts (plan : Plan) (p : Pipeline Emulated) : Counts plan p.stats p.stats {} :=
  ⟨(UInt64.add_zero _).symm, by rw [Nat.zero_mul]; exact (UInt64.add_zero _).symm⟩

/-- **The counters follow the ledger** in every state that the two tasks can reach. -/
theorem counts_run {p : Pipeline Emulated} (h : Prefilled plan.layout p) (turns : List Turn) :
    Counts plan p.stats ((start p).run plan turns).shared.stats
      ((start p).tally plan {} turns) :=
  Circulates.run_counts turns (DmaReadout.Circulates.start h) (start_counts plan p)

end Machine

end DmaReadout
