import DmaReadout.Proofs.Journal

/-! # What a step changes

* `Pipeline.readPage_of_view`: what reading a page does, if the page can be viewed; `readPage_keeps`:
  what it leaves as it is.
* `Feeder.Moves`, `Reader.Moves`: everything that a step of the two tasks can do.
* `Feeder.Leaves`, `Feeder.leaves`: what a step of the feeder leaves as it is.
* `Reader.Leaves`, `Reader.leaves`: the same of a step of the reader that reads no page.
* `Reader.step_page`: a page of the journal is the one that is checked and copied;
  `Reader.memory_page`: reading it changes nothing else in the memory. -/

namespace DmaReadout

namespace Pipeline

variable {σ ρ : Type}

theorem onChannel_eq (p : Pipeline σ) (f : σ → ρ × σ) :
    p.onChannel f = ((f p.channel).1, { p with channel := (f p.channel).2 }) := rfl

theorem offerFree_eq (p : Pipeline σ) (offset : Nat) :
    p.offerFree offset = ((p.free.offer offset).1, { p with free := (p.free.offer offset).2 }) :=
  rfl

theorem offerReady_eq (p : Pipeline σ) (offset : Nat) :
    p.offerReady offset =
      ((p.ready.offer offset).1, { p with ready := (p.ready.offer offset).2 }) := rfl

theorem fill_eq [Channel σ] (p : Pipeline σ) :
    p.fill = { p with
      channel := (Channel.fill p.channel p.memory).1
      memory := (Channel.fill p.channel p.memory).2 } := rfl

end Pipeline

/-! ### Reading a page -/

namespace Pipeline

variable {σ : Type}

theorem checked_counts (verifier? : Option Verifier) (stats : Stats) (event : UInt64)
    (page : Array Word) :
    (checked verifier? stats event page).1.read = stats.read ∧
      (checked verifier? stats event page).1.pushed = stats.pushed := by
  unfold checked
  split <;> exact ⟨rfl, rfl⟩

/-- A page can only fail to be copied because of the file that takes the copy. -/
theorem copied_error {dump? : Option Dump} {event : UInt64} {page : Array Word} {e : Error}
    (h : (copied dump? event page).1 = .error e) : ∃ f, e = .file f := by
  unfold copied at h
  split at h
  · cases h
  · rename_i d
    obtain ⟨mode, sink, closed⟩ := d
    cases closed with
    | true => cases h
    | false =>
      simp only [Dump.writePage] at h
      split at h <;> cases h
      exact ⟨_, rfl⟩

/-- The counters and the verifier after the page in the window `v` was counted and checked. -/
def afterCheck (p : Pipeline σ) (v : View) : Stats × Option Verifier :=
  checked p.verifier? p.stats.addRead.2 p.stats.read (p.memory.page v)

/-- The pipeline after a page was read from the window `v`, which depends on whether the page could be
copied. -/
theorem readPage_of_view {plan : Plan} {p : Pipeline σ} {offset : Nat} {v : View}
    (hv : p.memory.view offset plan.layout.pageSize = .ok v) :
    p.readPage plan offset =
      match copied p.dump? p.stats.read (p.memory.page v) with
      | (.error e, dump?) =>
        (some e, { p with stats := (p.afterCheck v).1, verifier? := (p.afterCheck v).2, dump? })
      | (.ok _, dump?) =>
        (none, { p with
          memory := if plan.pageReset then p.memory.fill v resetWord else p.memory
          stats := (p.afterCheck v).1
          verifier? := (p.afterCheck v).2.map Verifier.advance
          dump? }) := by
  obtain ⟨memory, channel, free, ready, stats, verifier?, dump?, stopped⟩ := p
  have hview : memory.view offset plan.layout.pageSize = .ok v := hv
  rw [readPage, hview]
  rfl

theorem readPage_of_error {plan : Plan} {p : Pipeline σ} {offset : Nat} {e : Error}
    (hv : p.memory.view offset plan.layout.pageSize = .error e) :
    p.readPage plan offset = (some e, p) := by
  obtain ⟨memory, channel, free, ready, stats, verifier?, dump?, stopped⟩ := p
  have hview : memory.view offset plan.layout.pageSize = .error e := hv
  rw [readPage, hview]

/-- What reading a page leaves as it is. -/
theorem readPage_keeps {plan : Plan} {p : Pipeline σ} {offset : Nat} {v : View}
    (hv : p.memory.view offset plan.layout.pageSize = .ok v) :
    (p.readPage plan offset).2.channel = p.channel ∧
      (p.readPage plan offset).2.free = p.free ∧
      (p.readPage plan offset).2.ready = p.ready ∧
      (p.readPage plan offset).2.memory.size = p.memory.size ∧
      (p.readPage plan offset).2.stats.read = p.stats.read + 1 := by
  obtain ⟨hr, -⟩ := checked_counts p.verifier? p.stats.addRead.2 p.stats.read (p.memory.page v)
  rw [readPage_of_view hv]
  split
  · exact ⟨rfl, rfl, rfl, rfl, hr⟩
  · refine ⟨rfl, rfl, rfl, ?_, hr⟩
    dsimp only
    split
    · exact Memory.size_fill _ _ _
    · rfl

theorem readPage_error {plan : Plan} {p : Pipeline σ} {offset : Nat} {v : View} {e : Error}
    (hv : p.memory.view offset plan.layout.pageSize = .ok v)
    (he : (p.readPage plan offset).1 = some e) : ∃ f, e = .file f := by
  rw [readPage_of_view hv] at he
  split at he
  · rename_i hc
    cases he
    exact copied_error (congrArg Prod.fst hc)
  · cases he

end Pipeline

/-! ### Steps of the feeder -/

/-- **What the feeder does in a step**: where it stands after that, and what is shared then. -/
inductive Feeder.Moves {σ : Type} [Channel σ] (plan : Plan) (p : Pipeline σ) :
    Feeder → Feeder → Pipeline σ → Prop where
  | ends (hend : (p.stopped || limitReached plan.limit? p.stats.pushed) = true) :
    Moves plan p .poll (.done none) p
  | goes (hgo : ¬(p.stopped || limitReached plan.limit? p.stats.pushed) = true) :
    Moves plan p .poll .fill p
  | fills : Moves plan p .fill .feed p.fill
  | pauses (hnone : Channel.available p.channel = 0 ∨ p.free.pop = none) :
    Moves plan p .feed .handOver p
  | takes {offset : Nat} {free : Ring Nat} (hspace : Channel.available p.channel ≠ 0)
    (hpop : p.free.pop = some (offset, free)) :
    Moves plan p .feed (.submit offset) { p with free }
  | pushes {offset : Nat}
    (hpush : (Channel.push p.channel ⟨offset, plan.layout.superpageSize, 0⟩).1 = .ok ()) :
    Moves plan p (.submit offset) .feed { p with
      channel := (Channel.push p.channel ⟨offset, plan.layout.superpageSize, 0⟩).2 }
  | refused {offset : Nat} {e : Error}
    (hpush : (Channel.push p.channel ⟨offset, plan.layout.superpageSize, 0⟩).1 = .error e) :
    Moves plan p (.submit offset) (.done (some e)) { p with
      channel := (Channel.push p.channel ⟨offset, plan.layout.superpageSize, 0⟩).2
      stopped := true }
  | waits (hnone : Channel.queued p.channel = 0 ∨ Channel.head? p.channel = none ∨
      ∃ s, Channel.head? p.channel = some s ∧ ¬s.isFilled = true) :
    Moves plan p .handOver .poll p
  | crowded {s : Superpage} (hhead : Channel.head? p.channel = some s)
    (hroom : (p.ready.offer s.offset).1 = false) :
    Moves plan p .handOver .poll { p with ready := (p.ready.offer s.offset).2 }
  | offers {s : Superpage} (hhead : Channel.head? p.channel = some s) (hfilled : s.isFilled = true)
    (hroom : (p.ready.offer s.offset).1 = true) :
    Moves plan p .handOver (.collect s.offset) { p with ready := (p.ready.offer s.offset).2 }
  | collects {s : Superpage} (hpop : (Channel.pop p.channel).1 = some s) :
    Moves plan p (.collect s.offset) .poll { p with
      channel := (Channel.pop p.channel).2
      stats := p.stats.addPushed plan.layout.pagesPerSuperpage.toUInt64 }
  | stuck {offset : Nat} (hpop : (Channel.pop p.channel).1 = none) :
    Moves plan p (.collect offset) (.done (some (.queue (.stuck offset)))) { p with
      channel := (Channel.pop p.channel).2
      stopped := true }
  | differs {offset : Nat} {s : Superpage} (hpop : (Channel.pop p.channel).1 = some s)
    (hother : s.offset ≠ offset) :
    Moves plan p (.collect offset) (.done (some (.queue (.popped s.offset offset)))) { p with
      channel := (Channel.pop p.channel).2
      stopped := true }
  | rests {failure? : Option Error} : Moves plan p (.done failure?) (.done failure?) p

theorem Feeder.moves {σ : Type} [Channel σ] {plan : Plan} {p q : Pipeline σ} {f f' : Feeder}
    (h : f.step plan p = (f', q)) : Feeder.Moves plan p f f' q := by
  cases f with
  | poll =>
    rw [Feeder.step] at h
    split at h <;> cases h
    · rename_i hend
      exact .ends hend
    · rename_i hgo
      exact .goes hgo
  | fill =>
    cases h
    exact .fills
  | feed =>
    rw [Feeder.step, Feeder.feedStep] at h
    split at h
    · rename_i hfull
      cases h
      exact .pauses (Or.inl hfull)
    · rename_i hspace
      split at h <;> rename_i hpop <;> cases h
      · exact .pauses (Or.inr hpop)
      · exact .takes hspace hpop
  | submit offset =>
    rw [Feeder.step, Feeder.submitStep, Pipeline.onChannel_eq] at h
    cases hpush : (Channel.push p.channel ⟨offset, plan.layout.superpageSize, 0⟩).1 <;>
      rw [hpush] at h <;> cases h
    · exact .refused hpush
    · exact .pushes hpush
  | handOver =>
    rw [Feeder.step, Feeder.handOverStep] at h
    split at h
    · rename_i hempty
      cases h
      exact .waits (Or.inl hempty)
    split at h <;> rename_i hhead
    · cases h
      exact .waits (Or.inr (Or.inl hhead))
    rename_i s
    split at h <;> rename_i hfilled
    · rw [Pipeline.offerReady_eq] at h
      cases hroom : (p.ready.offer s.offset).1 <;> rw [hroom] at h <;> cases h
      · exact .crowded hhead hroom
      · exact .offers hhead hfilled hroom
    · cases h
      exact .waits (Or.inr (Or.inr ⟨s, hhead, hfilled⟩))
  | collect offset =>
    rw [Feeder.step, Feeder.collectStep, Pipeline.onChannel_eq] at h
    cases hpop : (Channel.pop p.channel).1 with
    | none =>
      rw [hpop] at h
      cases h
      exact .stuck hpop
    | some s =>
      rw [hpop] at h
      dsimp only at h
      split at h <;> cases h
      · rename_i hsame
        subst hsame
        exact .collects hpop
      · rename_i hother
        exact .differs hpop hother
  | done failure? =>
    cases h
    exact .rests

/-- What a step of the feeder leaves as it is. -/
structure Feeder.Leaves {σ : Type} (f : Feeder) (p q : Pipeline σ) : Prop where
  verifier_eq : q.verifier? = p.verifier?
  dump_eq : q.dump? = p.dump?
  memory_eq : f ≠ .fill → q.memory = p.memory
  channel_eq : f ≠ .fill → (∀ offset, f ≠ .submit offset) → (∀ offset, f ≠ .collect offset) →
    q.channel = p.channel
  stats_eq : (∀ offset, f ≠ .collect offset) → q.stats = p.stats

theorem Feeder.leaves {σ : Type} [Channel σ] (plan : Plan) (p : Pipeline σ) (f : Feeder) :
    f.Leaves p (f.step plan p).2 := by
  have keeps : ∀ {f : Feeder} {q : Pipeline σ}, q.verifier? = p.verifier? → q.dump? = p.dump? →
      q.memory = p.memory → q.channel = p.channel → q.stats = p.stats → f.Leaves p q :=
    fun hv hd hm hc hs => ⟨hv, hd, fun _ => hm, fun _ _ _ => hc, fun _ => hs⟩
  rcases hstep : f.step plan p with ⟨f', q⟩
  cases Feeder.moves hstep with
  | fills => exact ⟨rfl, rfl, fun h => absurd rfl h, fun h => absurd rfl h, fun _ => rfl⟩
  | pushes | refused =>
    exact ⟨rfl, rfl, fun _ => rfl, fun _ h => absurd rfl (h _), fun _ => rfl⟩
  | collects | stuck | differs =>
    exact ⟨rfl, rfl, fun _ => rfl, fun _ _ h => absurd rfl (h _), fun h => absurd rfl (h _)⟩
  | _ => exact keeps rfl rfl rfl rfl rfl

/-! ### Steps of the reader -/

/-- **What the reader does in a step**: where it stands after that, and what is shared then. -/
inductive Reader.Moves {σ : Type} (plan : Plan) (p : Pipeline σ) : Reader → Reader → Pipeline σ → Prop
  where
  | ends (hstop : p.stopped = true) : Moves plan p .poll (.done none) p
  | reaches (hlimit : limitReached plan.limit? p.stats.read = true) :
    Moves plan p .poll (.done none) p.stop
  | goes (hgo : ¬limitReached plan.limit? p.stats.read = true) : Moves plan p .poll .take p
  | waits (hpop : p.ready.pop = none) : Moves plan p .take .poll p
  | takes {offset : Nat} {ready : Ring Nat} (hpop : p.ready.pop = some (offset, ready)) :
    Moves plan p .take (.reading offset 0) { p with ready }
  | reads {offset page : Nat} {q : Pipeline σ} (hpage : page < plan.layout.pagesPerSuperpage)
    (hread : p.readPage plan (offset + page * plan.layout.pageSize) = (none, q)) :
    Moves plan p (.reading offset page) (.reading offset (page + 1)) q
  | fails {offset page : Nat} {e : Error} {q : Pipeline σ}
    (hpage : page < plan.layout.pagesPerSuperpage)
    (hread : p.readPage plan (offset + page * plan.layout.pageSize) = (some e, q)) :
    Moves plan p (.reading offset page) (.giveBack offset (some e)) q
  | finishes {offset page : Nat} : Moves plan p (.reading offset page) (.giveBack offset none) p
  | returns {offset : Nat} (hroom : (p.free.offer offset).1 = true) :
    Moves plan p (.giveBack offset none) .poll { p with free := (p.free.offer offset).2 }
  | abandons {offset : Nat} {e : Error} (hroom : (p.free.offer offset).1 = true) :
    Moves plan p (.giveBack offset (some e)) (.done (some e))
      { p with free := (p.free.offer offset).2, dump? := p.dump?.map Dump.close, stopped := true }
  | crowded {offset : Nat} {failure? : Option Error} (hroom : (p.free.offer offset).1 = false) :
    Moves plan p (.giveBack offset failure?) (.done (some (.queue (.returning offset))))
      { p with free := (p.free.offer offset).2, dump? := p.dump?.map Dump.close, stopped := true }
  | rests {failure? : Option Error} : Moves plan p (.done failure?) (.done failure?) p

theorem Reader.moves {σ : Type} {plan : Plan} {p q : Pipeline σ} {r r' : Reader}
    (h : r.step plan p = (r', q)) : Reader.Moves plan p r r' q := by
  cases r with
  | poll =>
    rw [Reader.step, Reader.pollStep] at h
    split at h
    · rename_i hstop
      cases h
      exact .ends hstop
    · split at h <;> cases h
      · rename_i hlimit
        exact .reaches hlimit
      · rename_i hgo
        exact .goes hgo
  | take =>
    rw [Reader.step, Reader.takeStep] at h
    split at h <;> rename_i hpop <;> cases h
    · exact .waits hpop
    · exact .takes hpop
  | reading offset page =>
    rw [Reader.step, Reader.readingStep] at h
    split at h
    · rename_i hgo
      rw [Bool.and_eq_true, decide_eq_true_eq] at hgo
      split at h <;> rename_i hread <;> cases h
      · exact .reads hgo.1 hread
      · exact .fails hgo.1 hread
    · cases h
      exact .finishes
  | giveBack offset failure? =>
    rw [Reader.step, Reader.giveBackStep, Pipeline.offerFree_eq] at h
    cases hroom : (p.free.offer offset).1 <;> rw [hroom] at h
    · cases h
      exact .crowded hroom
    · cases failure? <;> cases h
      · exact .returns hroom
      · exact .abandons hroom
  | done failure? =>
    cases h
    exact .rests

/-- What a step of the reader leaves as it is, if it reads no page. Only a reader that fails gives up
the copy. -/
structure Reader.Leaves {σ : Type} (r' : Reader) (p q : Pipeline σ) : Prop where
  memory_eq : q.memory = p.memory
  channel_eq : q.channel = p.channel
  stats_eq : q.stats = p.stats
  verifier_eq : q.verifier? = p.verifier?
  dump_eq : q.dump? = p.dump? ∨ q.dump? = p.dump?.map Dump.close ∧ ∃ e, r' = .done (some e)

theorem Reader.leaves {σ : Type} {plan : Plan} {p : Pipeline σ} {r : Reader}
    (hr : r.page? plan p = none) : Reader.Leaves (r.step plan p).1 p (r.step plan p).2 := by
  have same : ∀ r', Reader.Leaves r' p p := fun _ => ⟨rfl, rfl, rfl, rfl, Or.inl rfl⟩
  cases r with
  | poll =>
    rw [Reader.step, Reader.pollStep]
    split
    · exact same _
    · split
      · exact ⟨rfl, rfl, rfl, rfl, Or.inl rfl⟩
      · exact same _
  | take =>
    rw [Reader.step, Reader.takeStep]
    split
    · exact same _
    · exact ⟨rfl, rfl, rfl, rfl, Or.inl rfl⟩
  | reading offset page =>
    rw [Reader.page?] at hr
    rw [Reader.step, Reader.readingStep]
    split
    · rename_i hgo
      rw [if_pos hgo] at hr
      cases hv : p.memory.view (offset + page * plan.layout.pageSize) plan.layout.pageSize with
      | ok v =>
        rw [hv] at hr
        cases hr
      | error e =>
        rw [Pipeline.readPage_of_error hv]
        exact same _
    · exact same _
  | giveBack offset failure? =>
    rw [Reader.step, Reader.giveBackStep, Pipeline.offerFree_eq]
    cases (p.free.offer offset).1 with
    | false => exact ⟨rfl, rfl, rfl, rfl, Or.inr ⟨rfl, _, rfl⟩⟩
    | true =>
      cases failure? with
      | none => exact ⟨rfl, rfl, rfl, rfl, Or.inl rfl⟩
      | some e => exact ⟨rfl, rfl, rfl, rfl, Or.inr ⟨rfl, _, rfl⟩⟩
  | done failure? => exact same _

/-- A page is read from a superpage, below the limit, where the memory grants a view of it. -/
theorem Reader.reading_of_page {σ : Type} {plan : Plan} {p : Pipeline σ} {r : Reader}
    {pg : PageRead} (h : r.page? plan p = some pg) :
    ∃ offset page v, r = .reading offset page ∧
      (page < plan.layout.pagesPerSuperpage && !limitReached plan.limit? p.stats.read) = true ∧
      p.memory.view (offset + page * plan.layout.pageSize) plan.layout.pageSize = .ok v ∧
      pg = ⟨p.stats.read, offset + page * plan.layout.pageSize, p.memory.page v⟩ := by
  cases r with
  | reading offset page =>
    rw [Reader.page?] at h
    split at h
    · rename_i hgo
      cases hv : p.memory.view (offset + page * plan.layout.pageSize) plan.layout.pageSize with
      | ok v =>
        rw [hv] at h
        exact ⟨offset, page, v, rfl, hgo, hv, (Option.some.inj h).symm⟩
      | error e =>
        rw [hv] at h
        cases h
    · cases h
  | poll => cases h
  | take => cases h
  | giveBack offset failure? => cases h
  | done failure? => cases h

/-- **A page of the journal is the one that is counted, checked and copied.** The verifier goes on to
the next page if the copy was made. -/
theorem Reader.step_page {σ : Type} {plan : Plan} {p : Pipeline σ} {r : Reader} {pg : PageRead}
    (h : r.page? plan p = some pg) :
    (r.step plan p).2.stats =
        (Pipeline.checked p.verifier? p.stats.addRead.2 pg.event pg.words).1 ∧
      (r.step plan p).2.dump? = (Pipeline.copied p.dump? pg.event pg.words).2 ∧
      ((Pipeline.copied p.dump? pg.event pg.words).1 = .ok () →
        (r.step plan p).2.verifier? = (Pipeline.checked p.verifier? p.stats.addRead.2 pg.event
          pg.words).2.map Verifier.advance) ∧
      ∀ failure?, (r.step plan p).1 ≠ .done failure? := by
  obtain ⟨offset, page, v, rfl, hgo, hv, rfl⟩ := Reader.reading_of_page h
  rw [Reader.step, Reader.readingStep, if_pos hgo, Pipeline.readPage_of_view hv]
  rcases hc : Pipeline.copied p.dump? p.stats.read (p.memory.page v) with ⟨_ | _, dump?⟩
  · exact ⟨rfl, rfl, nofun, nofun⟩
  · exact ⟨rfl, rfl, fun _ => rfl, nofun⟩

/-- Reading a page changes nothing in the memory, except that the page may be overwritten. -/
theorem Reader.memory_page {σ : Type} {plan : Plan} {p : Pipeline σ} {r : Reader} {pg : PageRead}
    {v : View} (h : r.page? plan p = some pg)
    (hv : p.memory.view pg.position plan.layout.pageSize = .ok v) :
    (r.step plan p).2.channel = p.channel ∧
      ((r.step plan p).2.memory = p.memory ∨
        (r.step plan p).2.memory = p.memory.fill v resetWord) := by
  obtain ⟨offset, page, v, rfl, hgo, hview, rfl⟩ := Reader.reading_of_page h
  obtain rfl := Except.ok.inj (hv.symm.trans hview)
  rw [Reader.step, Reader.readingStep, if_pos hgo, Pipeline.readPage_of_view hview]
  rcases Pipeline.copied p.dump? p.stats.read (p.memory.page v) with ⟨_ | _, dump?⟩
  · exact ⟨rfl, Or.inl rfl⟩
  · refine ⟨rfl, ?_⟩
    dsimp only
    split
    · exact Or.inr rfl
    · exact Or.inl rfl

/-- The reader never uses the channel. -/
theorem Reader.channel_step {σ : Type} (plan : Plan) (p : Pipeline σ) (r : Reader) :
    (r.step plan p).2.channel = p.channel := by
  cases hpage : r.page? plan p with
  | none => exact (Reader.leaves hpage).channel_eq
  | some pg =>
    obtain ⟨offset, page, v, rfl, hgo, hview, rfl⟩ := Reader.reading_of_page hpage
    rw [Reader.step, Reader.readingStep, if_pos hgo, Pipeline.readPage_of_view hview]
    rcases Pipeline.copied p.dump? p.stats.read (p.memory.page v) with ⟨_ | _, dump?⟩ <;> rfl

end DmaReadout
