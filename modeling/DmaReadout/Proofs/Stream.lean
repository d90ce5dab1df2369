import DmaReadout.Proofs.Consumers
import DmaReadout.Proofs.Counters

/-! # The stream of pages

The pages come out of a run in the order of their event numbers, with the words that the generator
wrote, however the steps of the two tasks fall.

* `Carries`: the generator has written the pages of all superpages that were filled, and those that the
  reader may still read are in the memory; `Carries.feed_step`, `Carries.read_step`.
* `observe_eq_map`: notes of a run that go through a sequence of values; `taken_step`, `page_step`: the
  superpages and the pages are such notes.
* `superpagesRead_eq`, `pagesRead_eq`: the order of reading; `stream`: the main statement. -/

namespace DmaReadout

/-- The generator of the channel has written the pages of all superpages that were filled. Those that
were not read yet are in the memory, unless their superpage was given back. -/
def Carries (plan : Plan) (g : Generator) (p : Pipeline Emulated) (n : Ledger) : Prop :=
  Wrote plan.layout g (max n.read (n.returned * plan.layout.pagesPerSuperpage))
    (n.filled * plan.layout.pagesPerSuperpage) (p.channel.generator, p.memory)

namespace Carries

variable {plan : Plan} {g : Generator} {p : Pipeline Emulated} {f : Feeder} {r : Reader} {n : Ledger}

/-- A step that touches neither the generator nor the memory. -/
theorem unchanged (hc : Carries plan g p n) {q : Pipeline Emulated} {n' : Ledger}
    (hg : q.channel.generator = p.channel.generator) (hm : q.memory = p.memory)
    (hread : n'.read = n.read) (hret : n.returned ≤ n'.returned) (hfill : n'.filled = n.filled) :
    Carries plan g q n' := by
  obtain ⟨hgen, hstored, hholds⟩ := hc
  have hmul := Nat.mul_le_mul_right plan.layout.pagesPerSuperpage hret
  unfold Carries
  rw [hg, hm, hread, hfill]
  exact ⟨hgen, hstored.mono (max_le_max le_rfl hmul), hholds⟩

theorem fill (hc : Carries plan g p n) (h : Circulates plan p .fill r n)
    (hg : g.pageSize = plan.layout.pageSize) :
    Carries plan g p.fill { n with filled := n.submitted } := by
  obtain ⟨k, hk⟩ : ∃ k, n.submitted = n.filled + k := ⟨n.submitted - n.filled, by
    have := h.filled_le
    omega⟩
  obtain ⟨q, hfill, -⟩ := h.equipped.serves.fill_descriptors p.memory h.queue_eq h.ahead_le h.filled_le
  have hsub : n.submitted ≤ n.returned + plan.layout.count := h.submitted_le
  have hroom : (n.filled + k) * plan.layout.pagesPerSuperpage ≤
      max n.read (n.returned * plan.layout.pagesPerSuperpage) + plan.layout.pages := by
    calc (n.filled + k) * plan.layout.pagesPerSuperpage
        ≤ (n.returned + plan.layout.count) * plan.layout.pagesPerSuperpage :=
          Nat.mul_le_mul_right _ (hk ▸ hsub)
      _ = n.returned * plan.layout.pagesPerSuperpage + plan.layout.pages := Nat.add_mul _ _ _
      _ ≤ _ := Nat.add_le_add_right (le_max_right _ _) _
  have hwrote := Wrote.writeStretch h.equipped.aligned h.equipped.addressable hg k hc hroom
  rw [Pipeline.fill_eq, show Channel.fill p.channel p.memory = _ from hfill]
  unfold Carries
  rw [show n.submitted = n.filled + k from hk]
  exact hwrote

theorem feed_step (hc : Carries plan g p n) (h : Circulates plan p f r n)
    (hg : g.pageSize = plan.layout.pageSize) : Carries plan g (f.step plan p).2 (n.afterFeed f) := by
  have hl := Feeder.leaves plan p f
  cases f with
  | fill => exact hc.fill h hg
  | submit offset =>
    refine hc.unchanged ?_ (hl.memory_eq (by simp)) rfl le_rfl rfl
    rw [Feeder.step, Feeder.submitStep, Pipeline.onChannel_eq, h.push_eq]
    rfl
  | collect offset =>
    refine hc.unchanged ?_ (hl.memory_eq (by simp)) rfl le_rfl rfl
    rw [Feeder.step, h.collectStep_eq]
    rfl
  | _ =>
    have hchannel := hl.channel_eq (by simp) (by simp) (by simp)
    exact hc.unchanged (congrArg _ hchannel) (hl.memory_eq (by simp)) rfl le_rfl rfl

end Carries

/-- The page that is read in a step is the next one of the count, and its superpage was filled. -/
theorem Circulates.page_place {plan : Plan} {p : Pipeline Emulated} {f : Feeder} {r : Reader}
    {n : Ledger} {pg : PageRead} (h : Circulates plan p f r n) (hp : r.page? plan p = some pg) :
    pg = ⟨p.stats.read, plan.layout.position n.read, p.memory.page (plan.layout.window n.read)⟩ ∧
      n.afterRead (r.page? plan p) r = { n with read := n.read + 1 } ∧
      n.returned * plan.layout.pagesPerSuperpage ≤ n.read ∧
      n.read < n.filled * plan.layout.pagesPerSuperpage := by
  obtain ⟨offset, page, v, rfl, hgo, -⟩ := Reader.reading_of_page hp
  have hpage := hp
  rw [h.page?_eq, if_pos hgo] at hpage
  obtain ⟨-, -, hread⟩ := h.reader_holds
  have hret : n.returned + 1 ≤ n.filled := le_trans h.returned_le h.ahead_le
  have hmul := Nat.mul_le_mul_right plan.layout.pagesPerSuperpage hret
  rw [Nat.succ_mul] at hmul
  rw [Bool.and_eq_true, decide_eq_true_eq] at hgo
  refine ⟨(Option.some.inj hpage).symm, ?_, by omega, by omega⟩
  rw [hp]
  rfl

namespace Carries

variable {plan : Plan} {g : Generator} {p : Pipeline Emulated} {f : Feeder} {r : Reader} {n : Ledger}

theorem read_step (hc : Carries plan g p n) (h : Circulates plan p f r n) :
    Carries plan g (r.step plan p).2 (n.afterRead (r.page? plan p) r) := by
  cases hpage : r.page? plan p with
  | none =>
    have hl := Reader.leaves hpage
    have hgen := congrArg Emulated.generator hl.channel_eq
    cases r with
    | giveBack offset failure? => exact hc.unchanged hgen hl.memory_eq rfl (Nat.le_succ _) rfl
    | _ => exact hc.unchanged hgen hl.memory_eq rfl le_rfl rfl
  | some pg =>
    obtain ⟨rfl, hn, hret, hlt⟩ := h.page_place hpage
    obtain ⟨hchannel, hmem⟩ := Reader.memory_page hpage (h.equipped.view_position n.read)
    obtain ⟨hgen, hstored, hholds⟩ := hc
    have hsub := h.filled_le.trans ((Nat.le_add_right _ _).trans h.submitted_le)
    have hround : n.filled * plan.layout.pagesPerSuperpage ≤ n.read + plan.layout.pages := by
      calc n.filled * plan.layout.pagesPerSuperpage
          ≤ (n.returned + plan.layout.count) * plan.layout.pagesPerSuperpage :=
            Nat.mul_le_mul_right _ hsub
        _ = n.returned * plan.layout.pagesPerSuperpage + plan.layout.pages := Nat.add_mul _ _ _
        _ ≤ _ := Nat.add_le_add_right hret _
    have hrest : Stored plan.layout g p.memory (n.read + 1)
        (n.filled * plan.layout.pagesPerSuperpage) :=
      hstored.mono (max_le (Nat.le_succ _) (le_trans hret (Nat.le_succ _)))
    rw [← hpage, hn]
    unfold Carries
    rw [hchannel, show max (n.read + 1) (n.returned * plan.layout.pagesPerSuperpage) = n.read + 1 from
      max_eq_left (le_trans hret (Nat.le_succ _))]
    rcases hmem with hmem | hmem
    · rw [hmem]
      exact ⟨hgen, hrest, hholds⟩
    · rw [hmem]
      exact ⟨hgen, hrest.fill h.equipped.aligned hround _,
        hholds.trans_eq (Memory.size_fill _ _ _).symm⟩

end Carries

/-! ### Notes in order -/

namespace Machine

/-- Notes that go through a sequence of values: if every step notes the values between two counts, a run
notes those between the first and the last. -/
theorem observe_eq_map {σ α : Type} [Channel σ] {plan : Plan}
    {note? : Machine σ → Turn → Option α} {value : Nat → α} (keeps : Machine σ → Ledger → Prop)
    (count : Machine σ → Ledger → Nat)
    (hkeeps : ∀ m n t, keeps m n → keeps (m.step plan t) (n.after plan m t))
    (hle : ∀ m n t, keeps m n → count m n ≤ count (m.step plan t) (n.after plan m t))
    (hnote : ∀ m n t, keeps m n → (note? m t).toList =
      (List.Ico (count m n) (count (m.step plan t) (n.after plan m t))).map value) :
    ∀ (turns : List Turn) (m : Machine σ) (n : Ledger), keeps m n →
      count m n ≤ count (m.run plan turns) (m.tally plan n turns) ∧
        m.observe plan note? turns =
          (List.Ico (count m n) (count (m.run plan turns) (m.tally plan n turns))).map value := by
  intro turns
  induction turns with
  | nil => exact fun m n _ => ⟨le_rfl, by rw [run_nil, tally, List.Ico.self_empty]; rfl⟩
  | cons t turns ih =>
    intro m n h
    have hstep := hle m n t h
    obtain ⟨hrest, hnotes⟩ := ih _ _ (hkeeps m n t h)
    refine ⟨le_trans hstep hrest, ?_⟩
    rw [observe, hnote m n t h, hnotes, ← List.map_append, List.Ico.append_consecutive hstep hrest]
    rfl

variable {plan : Plan} {p : Pipeline Emulated} {g : Generator}

/-- The superpages that the reader has taken. -/
def taken {σ : Type} (m : Machine σ) (n : Ledger) : Nat :=
  n.returned + m.reader.inHand

/-- Only a reader without a superpage takes one. -/
theorem taken_read {σ : Type} [Channel σ] (plan : Plan) (m : Machine σ) (n : Ledger)
    (hr : m.reader ≠ .take) :
    (m.step plan .read).taken (n.after plan m .read) = m.taken n ∧ m.superpage? .read = none := by
  obtain ⟨p, f, r⟩ := m
  show (n.afterRead (r.page? plan p) r).returned + (r.step plan p).1.inHand = n.returned + r.inHand ∧
    r.superpage? p = none
  rcases hstep : r.step plan p with ⟨r', q⟩
  cases Reader.moves hstep with
  | waits | takes => exact absurd rfl hr
  | _ => exact ⟨rfl, rfl⟩

/-- The superpage that the reader takes is the next one of the count. -/
theorem Circulates.taken_step {m : Machine Emulated} {n : Ledger} (h : m.Circulates plan n)
    (t : Turn) :
    m.taken n ≤ (m.step plan t).taken (n.after plan m t) ∧
      (m.superpage? t).toList =
        (List.Ico (m.taken n) ((m.step plan t).taken (n.after plan m t))).map plan.layout.nth := by
  have none_taken : ∀ {k : Nat} {o : Option Nat}, k = m.taken n → o = none →
      m.taken n ≤ k ∧ o.toList = (List.Ico (m.taken n) k).map plan.layout.nth := by
    rintro _ _ rfl rfl
    exact ⟨le_rfl, by rw [List.Ico.self_empty]; rfl⟩
  cases t with
  | feed =>
    refine none_taken ?_ rfl
    show (n.afterFeed m.feeder).returned + m.reader.inHand = n.returned + m.reader.inHand
    cases m.feeder <;> rfl
  | stop => exact none_taken rfl rfl
  | read =>
    by_cases htake : m.reader = .take
    swap
    · obtain ⟨hcount, hnone⟩ := taken_read plan m n htake
      exact none_taken hcount hnone
    obtain ⟨p, f, r⟩ := m
    obtain rfl : r = .take := htake
    have hnext := DmaReadout.Circulates.takeStep h
    cases hpop : p.ready.pop with
    | none =>
      have hstep : Reader.takeStep p = (.poll, p) := by rw [Reader.takeStep, hpop]
      refine none_taken ?_ (by rw [superpage?, Reader.superpage?, hpop]; rfl)
      show n.returned + (Reader.takeStep p).1.inHand = n.returned
      rw [hstep]
      rfl
    | some x =>
      obtain ⟨offset, ready⟩ := x
      have hstep : Reader.takeStep p = (.reading offset 0, { p with ready }) := by
        rw [Reader.takeStep, hpop]
      rw [hstep] at hnext
      obtain ⟨hoff, -⟩ := hnext.reader_holds
      have htaken : (Machine.step plan ⟨p, f, .take⟩ .read).taken
          (n.after plan ⟨p, f, .take⟩ .read) = n.returned + 1 := by
        show n.returned + (Reader.takeStep p).1.inHand = n.returned + 1
        rw [hstep]
        rfl
      rw [htaken]
      refine ⟨Nat.le_succ _, ?_⟩
      show (p.ready.pop.map (·.1)).toList = (List.Ico n.returned (n.returned + 1)).map _
      rw [hpop, List.Ico.succ_singleton, List.map_singleton, ← hoff]
      rfl

/-- Page `e` of the count as it is read. -/
def pageRead (l : Layout) (g : Generator) (e : Nat) : PageRead :=
  ⟨e.toUInt64, l.position e, g.pageOf e⟩

/-- What holds in every state of a run on a generator of the layout's page size. -/
structure Streams (plan : Plan) (g : Generator) (s : Stats) (m : Machine Emulated) (n : Ledger) :
    Prop where
  circulates : m.Circulates plan n
  counts : Counts plan s m.shared.stats n
  carries : Carries plan g m.shared n
  pageSize_eq : g.pageSize = plan.layout.pageSize

theorem Streams.step {g : Generator} {s : Stats} {m : Machine Emulated} {n : Ledger}
    (h : Streams plan g s m n) (t : Turn) :
    Streams plan g s (m.step plan t) (n.after plan m t) where
  circulates := h.circulates.step t
  counts := h.circulates.step_counts h.counts t
  carries := by
    cases t with
    | feed => exact h.carries.feed_step h.circulates h.pageSize_eq
    | read => exact h.carries.read_step h.circulates
    | stop => exact h.carries
  pageSize_eq := h.pageSize_eq

/-- The page that is read in a turn is the next one of the count, with the words that were generated. -/
theorem Streams.page_step {g : Generator} {s : Stats} {m : Machine Emulated} {n : Ledger}
    (h : Streams plan g s m n) (hs : s.read = 0) (t : Turn) :
    n.read ≤ (n.after plan m t).read ∧
      (m.page? plan t).toList =
        (List.Ico n.read (n.after plan m t).read).map (pageRead plan.layout g) := by
  have none_read : ∀ {k : Nat} {o : Option PageRead}, k = n.read → o = none →
      n.read ≤ k ∧ o.toList = (List.Ico n.read k).map (pageRead plan.layout g) := by
    rintro _ _ rfl rfl
    exact ⟨le_rfl, by rw [List.Ico.self_empty]; rfl⟩
  cases t with
  | feed =>
    refine none_read ?_ rfl
    show (n.afterFeed m.feeder).read = n.read
    cases m.feeder <;> rfl
  | stop => exact none_read rfl rfl
  | read =>
    show n.read ≤ (n.afterRead (m.reader.page? plan m.shared) m.reader).read ∧
      (m.reader.page? plan m.shared).toList = (List.Ico n.read
        (n.afterRead (m.reader.page? plan m.shared) m.reader).read).map (pageRead plan.layout g)
    cases hpage : m.reader.page? plan m.shared with
    | none =>
      refine none_read ?_ rfl
      cases m.reader <;> rfl
    | some pg =>
      obtain ⟨rfl, hn, hret, hlt⟩ := DmaReadout.Circulates.page_place h.circulates hpage
      have hread := h.counts.read_eq
      rw [hs, UInt64.zero_add] at hread
      have hwords := h.carries.stored n.read (max_le le_rfl hret) hlt
      rw [hpage] at hn
      rw [hn, show ({ n with read := n.read + 1 } : Ledger).read = n.read + 1 from rfl,
        List.Ico.succ_singleton, List.map_singleton, pageRead, ← hread, ← hwords]
      exact ⟨Nat.le_succ _, rfl⟩

theorem start_streams (h : Prefilled plan.layout p) :
    Streams plan p.channel.generator p.stats (start p) {} where
  circulates := DmaReadout.Circulates.start h
  counts := start_counts plan p
  carries := by
    refine ⟨?_, ?_, h.memory_holds⟩
    · show p.channel.generator = p.channel.generator.after (0 * _)
      rw [Nat.zero_mul, Generator.after_zero]
    · intro e _ hlt
      rw [show ({} : Ledger).filled = 0 from rfl, Nat.zero_mul] at hlt
      exact absurd hlt (Nat.not_lt_zero e)
  pageSize_eq := h.serves.pageSize_eq

/-- The superpages are read in the order of the count. -/
theorem superpagesRead_eq (h : Prefilled plan.layout p) (turns : List Turn) :
    (start p).superpagesRead plan turns =
      (List.range ((start p).superpagesRead plan turns).length).map plan.layout.nth := by
  obtain ⟨-, hnotes⟩ := observe_eq_map (Circulates plan) taken
    (fun m n t h => h.step t) (fun m n t h => (h.taken_step t).1) (fun m n t h => (h.taken_step t).2)
    turns (start p) {} (DmaReadout.Circulates.start h)
  rw [show (start p).taken {} = 0 from rfl, List.Ico.zero_bot] at hnotes
  have hlen := congrArg List.length hnotes
  rw [List.length_map, List.length_range] at hlen
  rw [superpagesRead, hlen]
  exact hnotes

/-- The pages are read in the order of the count, with the words that were generated. -/
theorem pagesRead_eq (h : Prefilled plan.layout p) (hread : p.stats.read = 0) (turns : List Turn) :
    (start p).pagesRead plan turns =
      (List.range ((start p).pagesRead plan turns).length).map
        (pageRead plan.layout p.channel.generator) := by
  obtain ⟨-, hnotes⟩ := observe_eq_map (Streams plan p.channel.generator p.stats)
    (fun _ n => n.read) (fun m n t h => h.step t) (fun m n t h => (h.page_step hread t).1)
    (fun m n t h => (h.page_step hread t).2) turns (start p) {} (start_streams h)
  have htally := read_tally plan turns {} (start p)
  rw [show ({} : Ledger).read = 0 from rfl] at hnotes htally
  rw [htally, Nat.zero_add, List.Ico.zero_bot] at hnotes
  exact hnotes

end Machine

/-! ### The main statement -/

/-- The bytes of the first `k` pages of a generator, one behind the other. -/
def Generator.bytesOfPages (g : Generator) (k : Nat) : ByteArray :=
  (List.range k).foldl (fun bytes e => bytes ++ bytesOfWords (g.pageOf e)) .empty

namespace Machine

/-- **The stream of pages.** In a run on a fresh channel, with any sequence of turns, the superpages and
the pages are read in the order of the count. The words of a page are those of its event number, except
that the ninth word of every `k`-th page is inverted if `k` is the distance of spoilt pages. These are
the pages that a verifier checks, and an unlimited copy in bytes consists of them. -/
theorem stream (plan : Plan) {p : Pipeline Emulated} (h : Prefilled plan.layout p)
    (hcounter : p.channel.generator.counter = 0) (hgenerated : p.channel.generator.generated = 0)
    (hpattern : p.channel.generator.pattern ≠ .random) (hread : p.stats.read = 0)
    (turns : List Turn) :
    (start p).superpagesRead plan turns =
        (List.range ((start p).superpagesRead plan turns).length).map
          (fun n => n % plan.layout.count * plan.layout.superpageSize) ∧
      (start p).pagesRead plan turns =
        (List.range ((start p).pagesRead plan turns).length).map (fun e =>
          ⟨e.toUInt64,
            e % (plan.layout.count * plan.layout.pagesPerSuperpage) * plan.layout.pageSize,
            p.channel.generator.pageOf e⟩) ∧
      (∀ e, (p.channel.generator.pageOf e).size = plan.layout.pageSize / 4 ∧
        ∀ i, i < plan.layout.pageSize / 4 →
          ∃ w, generatedWord? p.channel.generator.family p.channel.generator.pattern e.toUInt32 i =
              some w ∧
            (p.channel.generator.pageOf e)[i]? = some
              (if i = 8 ∧ ∃ k, p.channel.generator.faultInterval? = some k ∧ k ∣ e + 1 then ~~~w
                else w)) ∧
      ((start p).run plan turns).shared.stats.read =
        ((start p).pagesRead plan turns).length.toUInt64 ∧
      (Unlimited p.dump? → ((start p).run plan turns).shared.verifier? =
        p.verifier?.map (((start p).pagesRead plan turns).foldl Verifier.after)) ∧
      (p.dump? = some { mode := .binary, sink := {} } →
        ∃ closed, ((start p).run plan turns).shared.dump? = some ⟨.binary, ⟨none,
          p.channel.generator.bytesOfPages ((start p).pagesRead plan turns).length⟩, closed⟩) := by
  have hsize : p.channel.generator.pageSize = plan.layout.pageSize := h.serves.pageSize_eq
  refine ⟨superpagesRead_eq h turns, pagesRead_eq h hread turns, fun e => ⟨?_, fun i hi => ?_⟩, ?_,
    fun hdump => ?_, fun hdump => ?_⟩
  · rw [Generator.pageOf, Array.size_ofFn, hsize]
  · exact Generator.getElem?_pageOf hcounter hgenerated hpattern e (hsize ▸ hi)
  · rw [(counts_run h turns).read_eq, hread, UInt64.zero_add, read_tally]
    exact congrArg _ (Nat.zero_add _)
  · exact (Checks.run plan turns (⟨rfl, hdump⟩ : Checks p.verifier? (start p))).1
  · obtain ⟨closed, hcopy, -⟩ := Copies.run plan turns
      (⟨false, hdump, fun h => absurd h (by decide)⟩ : Copies .binary .empty (start p))
    refine ⟨closed, ?_⟩
    rw [hcopy, pagesRead_eq h hread turns, List.foldl_map, List.length_map, List.length_range]
    rfl

/-- Four pages of two superpages, which are overwritten after they were read; the ninth words of the
second and the fourth are inverted. -/
theorem stream_small :
    ((start .small).pagesRead { layout := .small, pageReset := true } (.replicate 10 .feed ++
        .replicate 6 .read ++ .replicate 13 .feed ++ .replicate 6 .read)).map (·.position) =
          [0, 40, 80, 120] ∧
      (Emulated.small.generator.pageOf 3)[8]? = some (~~~(3 * 256 + 1)) ∧
      ∃ closed, ((start .small).run { layout := .small, pageReset := true } (.replicate 10 .feed ++
        .replicate 6 .read ++ .replicate 13 .feed ++ .replicate 6 .read)).shared.dump? =
          some ⟨.binary, ⟨none, Emulated.small.generator.bytesOfPages 4⟩, closed⟩ := by
  have hlen : ((start .small).pagesRead { layout := .small, pageReset := true }
      (.replicate 10 .feed ++ .replicate 6 .read ++ .replicate 13 .feed ++
        .replicate 6 .read)).length = 4 := by
    decide +kernel
  obtain ⟨-, hpages, hwords, -, -, hcopy⟩ := stream { layout := .small, pageReset := true }
    prefilled_small rfl rfl (by decide) rfl (.replicate 10 .feed ++ .replicate 6 .read ++
      .replicate 13 .feed ++ .replicate 6 .read)
  obtain ⟨closed, hcopy⟩ := hcopy rfl
  obtain ⟨w, hw, hword⟩ := (hwords 3).2 8 (by decide)
  obtain rfl : 3 * 256 + 1 = w := Option.some.inj hw
  rw [if_pos ⟨rfl, 2, rfl, by decide⟩] at hword
  rw [hlen] at hpages hcopy
  refine ⟨?_, hword, closed, hcopy⟩
  rw [hpages]
  rfl

end Machine

end DmaReadout
