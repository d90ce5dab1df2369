import DmaReadout.Proofs.Counters

/-! # The page limit

Both tasks look at a counter of their own for the limit: the reader before every page, the feeder before
every round, in which it hands over at most one whole superpage. So the reader stops at the limit, and
the feeder at the end of the superpage that holds the last page.

* `Limited`: how far the counts of a ledger can have come; `Limited.feed_step`, `Limited.read_step`.
* `StopsAtLimit`: the reader ends a run because it has come up to the limit.
* `page_limit`: the main statement. -/

namespace DmaReadout

theorem limitReached_iff (limit count : UInt64) :
    limitReached (some limit) count = true ↔ limit.toNat ≤ count.toNat := by
  simp [limitReached, UInt64.le_iff_toNat_le]

/-- How many pages may have been handed over beyond the limit: none that count within a round, and less
than a superpage after it. -/
def Feeder.pagesBeyond (l : Layout) : Feeder → Nat
  | .poll | .done _ => l.pagesPerSuperpage
  | _ => 0

/-- How far the counts of a ledger can have come in a run with a limit. -/
structure Limited (plan : Plan) (limit : UInt64) (f : Feeder) (n : Ledger) : Prop where
  read_le : n.read ≤ limit.toNat
  collected_lt :
    n.collected * plan.layout.pagesPerSuperpage < limit.toNat + f.pagesBeyond plan.layout

variable {plan : Plan} {limit : UInt64} {p : Pipeline Emulated} {f : Feeder} {r : Reader}
  {n : Ledger} {s : Stats}

/-- The reader reads no page beyond the limit. -/
theorem Circulates.read_le_limit (h : Circulates plan p f r n) (hl : plan.limit? = some limit)
    (hr : p.stats.read.toNat = n.read) (hle : n.read ≤ limit.toNat) :
    (n.afterRead (Reader.page? plan p r) r).read ≤ limit.toNat := by
  cases r with
  | reading offset page =>
    show n.read + (Reader.page? plan p (.reading offset page)).toList.length ≤ limit.toNat
    rw [h.page?_eq]
    split
    · rename_i hgo
      rw [hl, Bool.and_eq_true, Bool.not_eq_true', ← Bool.not_eq_true, limitReached_iff, hr] at hgo
      exact Nat.not_le.1 hgo.2
    · exact hle
  | poll => exact hle
  | take => exact hle
  | giveBack offset failure? => exact hle
  | done failure? => exact hle

namespace Limited

theorem start (plan : Plan) (limit : UInt64) : Limited plan limit .poll {} where
  read_le := Nat.zero_le _
  collected_lt := by
    have hpos := plan.layout.pagesPerSuperpage_pos
    show 0 * _ < limit.toNat + plan.layout.pagesPerSuperpage
    omega

/-- Wherever the feeder stands, less than a superpage was handed over beyond the limit. -/
theorem collected_lt_add (h : Limited plan limit f n) :
    n.collected * plan.layout.pagesPerSuperpage < limit.toNat + plan.layout.pagesPerSuperpage := by
  have hlt := h.collected_lt
  cases f <;> simp only [Feeder.pagesBeyond] at hlt <;> omega

theorem feed_step (hn : Limited plan limit f n) (h : Circulates plan p f r n)
    (hl : plan.limit? = some limit)
    (hp : p.stats.pushed.toNat = n.collected * plan.layout.pagesPerSuperpage) :
    Limited plan limit (f.step plan p).1 (n.afterFeed f) := by
  have hlt := hn.collected_lt
  -- a step within a round hands nothing over, until the superpage is taken from the channel
  have inside : ∀ (f' : Feeder) (n' : Ledger), f.pagesBeyond plan.layout = 0 →
      n'.read = n.read → n'.collected = n.collected → Limited plan limit f' n' := by
    intro f' n' hf hread hcoll
    exact ⟨hread ▸ hn.read_le, by rw [hcoll]; omega⟩
  cases f with
  | poll =>
    simp only [Feeder.step]
    split
    · exact ⟨hn.read_le, hlt⟩
    · rename_i hgo
      refine ⟨hn.read_le, ?_⟩
      have hnot : ¬limitReached plan.limit? p.stats.pushed = true :=
        fun h => hgo (by rw [h, Bool.or_true])
      rw [hl, limitReached_iff, hp, Nat.not_le] at hnot
      exact hnot
  | fill => exact inside _ _ rfl rfl rfl
  | feed => exact inside _ _ rfl rfl rfl
  | submit offset => exact inside _ _ rfl rfl rfl
  | handOver => exact inside _ _ rfl rfl rfl
  | collect offset =>
    rw [Feeder.step, h.collectStep_eq]
    refine ⟨hn.read_le, ?_⟩
    show (n.collected + 1) * plan.layout.pagesPerSuperpage < _ + plan.layout.pagesPerSuperpage
    rw [Nat.succ_mul]
    exact Nat.add_lt_add_right hlt _
  | done failure? => exact hn

theorem read_step (hn : Limited plan limit f n) (h : Circulates plan p f r n)
    (hl : plan.limit? = some limit) (hr : p.stats.read.toNat = n.read) :
    Limited plan limit f (n.afterRead (Reader.page? plan p r) r) := by
  refine ⟨h.read_le_limit hl hr hn.read_le, ?_⟩
  have hlt := hn.collected_lt
  cases r <;> exact hlt

end Limited

namespace Machine

variable {m : Machine Emulated}

theorem Circulates.step_limited (h : m.Circulates plan n) (hl : plan.limit? = some limit)
    (hread : s.read = 0) (hpushed : s.pushed = 0) (hc : Counts plan s m.shared.stats n)
    (hn : Limited plan limit m.feeder n)
    (hroom : n.collected * plan.layout.pagesPerSuperpage < 2 ^ 64) (t : Turn) :
    Limited plan limit (m.step plan t).feeder (n.after plan m t) := by
  cases t with
  | feed => exact hn.feed_step h hl (hc.pushed_toNat hpushed hroom)
  | read =>
    exact hn.read_step h hl (hc.read_toNat hread (lt_of_le_of_lt hn.read_le limit.toNat_lt))
  | stop => exact hn

/-- No task gets further than the limit lets it, as long as the counters do not overflow. -/
theorem Circulates.run_limited (hl : plan.limit? = some limit) (hread : s.read = 0)
    (hpushed : s.pushed = 0) (turns : List Turn) : ∀ {m : Machine Emulated} {n : Ledger},
    m.Circulates plan n → Counts plan s m.shared.stats n → Limited plan limit m.feeder n →
    (m.tally plan n turns).collected * plan.layout.pagesPerSuperpage < 2 ^ 64 →
    Limited plan limit (m.run plan turns).feeder (m.tally plan n turns) := by
  induction turns with
  | nil => intro m n _ _ hn _; exact hn
  | cons t turns ih =>
    intro m n h hc hn hroom
    have hlt : n.collected * plan.layout.pagesPerSuperpage < 2 ^ 64 :=
      lt_of_le_of_lt (Nat.mul_le_mul_right _ (collected_le_tally plan (t :: turns) n m)) hroom
    exact ih (h.step t) (h.step_counts hc t) (h.step_limited hl hread hpushed hc hn hlt t) hroom

theorem Circulates.run_room (hl : plan.limit? = some limit) (hread : s.read = 0)
    (hpushed : s.pushed = 0) (hlimit : limit.toNat + plan.layout.pagesPerSuperpage ≤ 2 ^ 64)
    (turns : List Turn) : ∀ {m : Machine Emulated} {n : Ledger},
    m.Circulates plan n → Counts plan s m.shared.stats n → Limited plan limit m.feeder n →
    (m.tally plan n turns).collected * plan.layout.pagesPerSuperpage < 2 ^ 64 := by
  induction turns with
  | nil => intro m n _ _ hn; exact lt_of_lt_of_le hn.collected_lt_add hlimit
  | cons t turns ih =>
    intro m n h hc hn
    have hlt := lt_of_lt_of_le hn.collected_lt_add hlimit
    exact ih (h.step t) (h.step_counts hc t) (h.step_limited hl hread hpushed hc hn hlt t)

/-- A limit with room for a superpage below the end of the counters never lets them overflow. -/
theorem room_of_limit (h : Prefilled plan.layout p) (hl : plan.limit? = some limit)
    (hread : p.stats.read = 0) (hpushed : p.stats.pushed = 0)
    (hlimit : limit.toNat + plan.layout.pagesPerSuperpage ≤ 2 ^ 64) (turns : List Turn) :
    ((start p).tally plan {} turns).collected * plan.layout.pagesPerSuperpage < 2 ^ 64 :=
  Circulates.run_room hl hread hpushed hlimit turns (m := start p)
    (DmaReadout.Circulates.start h) (start_counts plan p) (Limited.start plan limit)

/-- In the run of these turns, the reader asks both tasks to end because it has come up to the limit. -/
def StopsAtLimit {σ : Type} [Channel σ] (plan : Plan) (m : Machine σ) (turns : List Turn) : Prop :=
  ∃ before after, turns = before ++ .read :: after ∧ (m.run plan before).reader = .poll ∧
    (m.run plan before).shared.stopped = false ∧
    limitReached plan.limit? (m.run plan before).shared.stats.read = true

/-- A reader that comes up to the limit has read as many pages. -/
theorem StopsAtLimit.le_read {turns : List Turn} (hs : StopsAtLimit plan (start p) turns)
    (h : Prefilled plan.layout p) (hl : plan.limit? = some limit) (hread : p.stats.read = 0) :
    limit.toNat ≤ ((start p).tally plan {} turns).read := by
  obtain ⟨before, after, rfl, -, -, hlimit⟩ := hs
  rw [hl, limitReached_iff, (counts_run h before).read_eq, hread, UInt64.zero_add] at hlimit
  calc limit.toNat ≤ ((start p).tally plan {} before).read.toUInt64.toNat := hlimit
    _ ≤ ((start p).tally plan {} before).read := Nat.mod_le _ _
    _ ≤ ((start p).tally plan {} (before ++ .read :: after)).read := by
      rw [tally_append, read_tally plan (.read :: after)]
      exact Nat.le_add_right _ _

/-- When both tasks have ended, every page that was read belongs to a superpage that was counted. -/
theorem Circulates.read_le_collected (h : m.Circulates plan n) (hf : m.feederDone = true)
    (hr : m.readerDone = true) : n.read ≤ n.collected * plan.layout.pagesPerSuperpage := by
  obtain ⟨p, f, r⟩ := m
  cases f <;> cases hf
  cases r <;> cases hr
  exact le_trans h.reader_holds.2 (Nat.mul_le_mul_right _ h.returned_le)

/-- **The page limit.** As long as the counters do not overflow, no more pages are read than the limit
says, and whole superpages are handed over, the last of them before the limit was reached. When both
tasks have ended, all pages that were read are counted as handed over; and if the reader came up to the
limit, just as many pages were read, and as many superpages handed over as they take up. -/
theorem page_limit (plan : Plan) (h : Prefilled plan.layout p) (hl : plan.limit? = some limit)
    (hread : p.stats.read = 0) (hpushed : p.stats.pushed = 0) (turns : List Turn)
    (hroom : ((start p).tally plan {} turns).collected * plan.layout.pagesPerSuperpage < 2 ^ 64) :
    ((start p).run plan turns).shared.stats.read ≤ limit ∧
      plan.layout.pagesPerSuperpage ∣ ((start p).run plan turns).shared.stats.pushed.toNat ∧
      ((start p).run plan turns).shared.stats.pushed.toNat <
        limit.toNat + plan.layout.pagesPerSuperpage ∧
      (((start p).run plan turns).feederDone = true → ((start p).run plan turns).readerDone = true →
        ((start p).run plan turns).shared.stats.read ≤
            ((start p).run plan turns).shared.stats.pushed ∧
          (StopsAtLimit plan (start p) turns →
            ((start p).run plan turns).shared.stats.read = limit ∧
              ((start p).run plan turns).shared.stats.pushed.toNat =
                (limit.toNat + plan.layout.pagesPerSuperpage - 1) /
                  plan.layout.pagesPerSuperpage * plan.layout.pagesPerSuperpage)) := by
  have hc := circulates_run h turns
  have hcounts := counts_run h turns
  have hn := Circulates.run_limited hl hread hpushed turns (m := start p)
    (DmaReadout.Circulates.start h) (start_counts plan p) (Limited.start plan limit) hroom
  have hr := hcounts.read_toNat hread (lt_of_le_of_lt hn.read_le limit.toNat_lt)
  have hp := hcounts.pushed_toNat hpushed hroom
  have hpos := plan.layout.pagesPerSuperpage_pos
  have hlt := hn.collected_lt_add
  refine ⟨?_, ?_, ?_, fun hfd hrd => ⟨?_, fun hstop => ⟨?_, ?_⟩⟩⟩
  · rw [UInt64.le_iff_toNat_le, hr]
    exact hn.read_le
  · rw [hp]
    exact Nat.dvd_mul_left _ _
  · rw [hp]
    exact hlt
  · rw [UInt64.le_iff_toNat_le, hr, hp]
    exact hc.read_le_collected hfd hrd
  · rw [← UInt64.toNat_inj, hr]
    exact le_antisymm hn.read_le (hstop.le_read h hl hread)
  · have hle : limit.toNat ≤ _ :=
      le_trans (hstop.le_read h hl hread) (hc.read_le_collected hfd hrd)
    have hceil : (limit.toNat + plan.layout.pagesPerSuperpage - 1) /
        plan.layout.pagesPerSuperpage = ((start p).tally plan {} turns).collected := by
      rw [Nat.div_eq_iff hpos]
      constructor <;> omega
    rw [hp, hceil]

/-- The limit cuts the second superpage, and the first one is read before it is counted. -/
theorem page_limit_small :
    StopsAtLimit { layout := .small, limit? := some 3 } (start .small)
        (.replicate 10 .feed ++ .replicate 6 .read ++ .replicate 13 .feed ++ .replicate 6 .read) ∧
      ((start .small).run { layout := .small, limit? := some 3 } (.replicate 10 .feed ++
        .replicate 6 .read ++ .replicate 13 .feed ++ .replicate 6 .read)).shared.stats.read = 3 ∧
      ((start .small).run { layout := .small, limit? := some 3 } (.replicate 10 .feed ++
        .replicate 6 .read ++ .replicate 13 .feed ++ .replicate 6 .read)).shared.stats.pushed.toNat =
          (3 + 2 - 1) / 2 * 2 := by
  have hstop : StopsAtLimit { layout := .small, limit? := some 3 } (start .small)
      (.replicate 10 .feed ++ .replicate 6 .read ++ .replicate 13 .feed ++ .replicate 6 .read) :=
    ⟨.replicate 10 .feed ++ .replicate 6 .read ++ .replicate 13 .feed ++ .replicate 5 .read, [],
      rfl, by decide +kernel, by decide +kernel, by decide +kernel⟩
  obtain ⟨-, -, -, hend⟩ := page_limit { layout := .small, limit? := some 3 }
    prefilled_small rfl rfl rfl (.replicate 10 .feed ++ .replicate 6 .read ++
      .replicate 13 .feed ++ .replicate 6 .read)
    (room_of_limit prefilled_small rfl rfl rfl (by decide) _)
  exact ⟨hstop, (hend (by decide +kernel) (by decide +kernel)).2 hstop⟩

end Machine

end DmaReadout
