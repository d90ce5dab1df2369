import DmaReadout.Proofs.Checking
import DmaReadout.Proofs.Stream

/-! # The mismatches of a run

A run on a fresh channel finds what the generator has spoilt, and nothing else. A counter that the
verifier takes up from a page never leads it astray, and neither does the end of the counters.

* `Machine.mismatchesFound`: the mismatches in the order in which they are found.
* `Logs`: the log and the counter of a run; `Logs.run`: they are about the mismatches found, on any
  channel.
* `Verifies`: the verifier follows the generator as long as the reader does not fail.
* `faults_found`: the main statement. -/

namespace DmaReadout

namespace Machine

/-- The mismatches found in a turn, if a page is checked. -/
def mismatches? {σ : Type} (plan : Plan) (m : Machine σ) (t : Turn) : Option (List Mismatch) :=
  match m.shared.verifier?, m.page? plan t with
  | some v, some pg => some (v.mismatches pg.event pg.words)
  | _, _ => none

/-- The mismatches found in a run. -/
def mismatchesFound {σ : Type} [Channel σ] (plan : Plan) (m : Machine σ) (turns : List Turn) :
    List Mismatch :=
  (m.observe plan (mismatches? plan) turns).flatten

theorem mismatchesFound_cons {σ : Type} [Channel σ] (plan : Plan) (m : Machine σ) (t : Turn)
    (turns : List Turn) :
    m.mismatchesFound plan (t :: turns) =
      (m.mismatches? plan t).toList.flatten ++ (m.step plan t).mismatchesFound plan turns := by
  rw [mismatchesFound, observe, List.flatten_append, mismatchesFound]

theorem observe_map {σ α β : Type} [Channel σ] (plan : Plan) (note? : Machine σ → Turn → Option α)
    (f : α → β) (turns : List Turn) : ∀ m : Machine σ,
    m.observe plan (fun m t => (note? m t).map f) turns = (m.observe plan note? turns).map f := by
  induction turns with
  | nil => intro m; rfl
  | cons t turns ih =>
    intro m
    rw [observe, observe, ih, List.map_append, Option.toList_map]

end Machine

/-! ### The log -/

theorem Feeder.errors_step {σ : Type} [Channel σ] (plan : Plan) (p : Pipeline σ) (f : Feeder) :
    (f.step plan p).2.stats.errors = p.stats.errors := by
  rcases hstep : f.step plan p with ⟨f', q⟩
  cases Feeder.moves hstep <;> rfl

/-- A verifier goes on to the next page unless the page cannot be copied. -/
theorem Reader.verifier_page {σ : Type} {plan : Plan} {p : Pipeline σ} {r : Reader} {pg : PageRead}
    (h : r.page? plan p = some pg) {v : Verifier} (hv : p.verifier? = some v) :
    ∃ v', (r.step plan p).2.verifier? = some v' ∧
      (v' = (v.check pg.event pg.words).2 ∨ v' = (v.check pg.event pg.words).2.advance) ∧
      ((r.step plan p).1.failure? = none → v' = (v.check pg.event pg.words).2.advance) := by
  obtain ⟨offset, page, view, rfl, hgo, hview, rfl⟩ := Reader.reading_of_page h
  rw [Reader.step, Reader.readingStep, if_pos hgo, Pipeline.readPage_of_view hview]
  have hcheck : (p.afterCheck view).2 = some (v.check p.stats.read (p.memory.page view)).2 := by
    rw [Pipeline.afterCheck, hv]
    rfl
  rcases Pipeline.copied p.dump? p.stats.read (p.memory.page view) with ⟨_ | _, dump?⟩
  · refine ⟨_, hcheck, Or.inl rfl, fun hnone => ?_⟩
    cases hnone
  · exact ⟨_, congrArg (Option.map Verifier.advance) hcheck, Or.inr rfl, fun _ => rfl⟩

/-- A reader that met a failure does not forget it. -/
theorem Reader.failure?_of_step {σ : Type} {plan : Plan} {p : Pipeline σ} {r : Reader}
    (h : (r.step plan p).1.failure? = none) : r.failure? = none := by
  rcases hstep : r.step plan p with ⟨r', q⟩
  rw [hstep] at h
  cases Reader.moves hstep with
  | abandons | crowded => cases h
  | rests => exact h
  | _ => rfl

namespace Machine

variable {σ : Type} [Channel σ] {plan : Plan} {m : Machine σ} {log : ErrorLog} {errors : UInt64}

/-- A run that checks its pages, with its log and its counter of mismatches. -/
structure Logs (log : ErrorLog) (errors : UInt64) (m : Machine σ) : Prop where
  log_eq : ∃ v, m.shared.verifier? = some v ∧ v.log = log
  errors_eq : m.shared.stats.errors = errors

theorem Logs.step (h : Logs log errors m) (plan : Plan) (t : Turn) :
    Logs (log.recordAll (m.mismatches? plan t).toList.flatten)
      (errors + (m.mismatches? plan t).toList.flatten.length.toUInt64) (m.step plan t) := by
  obtain ⟨p, f, r⟩ := m
  obtain ⟨⟨v, hv, rfl⟩, rfl⟩ := h
  have hv : p.verifier? = some v := hv
  have nothing : ∀ {m' : Machine σ} {found : List Mismatch}, found = [] →
      m'.shared.verifier? = some v → m'.shared.stats.errors = p.stats.errors →
      Logs (v.log.recordAll found) (p.stats.errors + found.length.toUInt64) m' := by
    rintro m' _ rfl hv' he
    exact ⟨⟨v, hv', rfl⟩, he.trans (UInt64.add_zero _).symm⟩
  cases t with
  | feed =>
    refine nothing ?_ ((Feeder.leaves plan p f).verifier_eq.trans hv) (Feeder.errors_step plan p f)
    simp [mismatches?, page?]
  | stop => exact nothing (by simp [mismatches?, page?]) hv rfl
  | read =>
    cases hpage : r.page? plan p with
    | none =>
      have hl := Reader.leaves hpage
      refine nothing ?_ (hl.verifier_eq.trans hv) (congrArg Stats.errors hl.stats_eq)
      simp [mismatches?, page?, hpage]
    | some pg =>
      obtain ⟨v', hv', hchecked, -⟩ := Reader.verifier_page hpage hv
      have hlog : v'.log = v.log.recordAll (v.mismatches pg.event pg.words) := by
        rcases hchecked with rfl | rfl <;> exact v.log_check _ _
      obtain ⟨hstats, -⟩ := Reader.step_page hpage
      have hfound : (mismatches? plan ⟨p, f, r⟩ .read).toList.flatten =
          v.mismatches pg.event pg.words := by
        simp [mismatches?, page?, hpage, hv]
      rw [hfound]
      refine ⟨⟨v', hv', hlog⟩, ?_⟩
      show (r.step plan p).2.stats.errors = _
      rw [hstats, hv]
      rfl

/-- **The log of a run and its counter** are about the mismatches found, on any channel. -/
theorem Logs.run (plan : Plan) (turns : List Turn) : ∀ {m : Machine σ} {log : ErrorLog}
    {errors : UInt64}, Logs log errors m →
    Logs (log.recordAll (m.mismatchesFound plan turns))
      (errors + (m.mismatchesFound plan turns).length.toUInt64) (m.run plan turns) := by
  induction turns with
  | nil =>
    intro m log errors h
    exact ⟨h.log_eq, h.errors_eq.trans (UInt64.add_zero _).symm⟩
  | cons t turns ih =>
    intro m log errors h
    have hrest := ih (h.step plan t)
    rw [run_cons, mismatchesFound_cons, List.length_append, ErrorLog.recordAll, List.foldl_append,
      show ∀ a b : Nat, (a + b).toUInt64 = a.toUInt64 + b.toUInt64 from UInt64.ofNat_add,
      ← UInt64.add_assoc]
    exact hrest

end Machine

/-! ### What is found -/

namespace Machine

variable {plan : Plan} {p : Pipeline Emulated} {g : Generator} {s : Stats} {m : Machine Emulated}
  {n : Ledger}

/-- The verifier follows the generator as long as the reader does not fail. -/
def Verifies (g : Generator) (m : Machine Emulated) (n : Ledger) : Prop :=
  ∃ v, m.shared.verifier? = some v ∧ (m.reader.failure? = none → v.Follows g n.read)

/-- A page that is read is the next one of the count. -/
theorem Streams.page_eq (h : Streams plan g s m n) (hs : s.read = 0) {t : Turn} {pg : PageRead}
    (hpage : m.page? plan t = some pg) :
    pg = pageRead plan.layout g n.read ∧ (n.after plan m t).read = n.read + 1 := by
  obtain ⟨hle, hnotes⟩ := h.page_step hs t
  have hlen := congrArg List.length hnotes
  rw [hpage, List.length_map, List.Ico.length] at hlen
  have hlen : 1 = (n.after plan m t).read - n.read := hlen
  have hnext : (n.after plan m t).read = n.read + 1 := by omega
  rw [hpage, hnext, List.Ico.succ_singleton] at hnotes
  exact ⟨(List.cons.inj hnotes).1, hnext⟩

theorem Streams.read_after (h : Streams plan g s m n) (hs : s.read = 0) {t : Turn}
    (hpage : m.page? plan t = none) : (n.after plan m t).read = n.read := by
  obtain ⟨hle, hnotes⟩ := h.page_step hs t
  have hlen := congrArg List.length hnotes
  rw [hpage, List.length_map, List.Ico.length] at hlen
  have hlen : 0 = (n.after plan m t).read - n.read := hlen
  omega

theorem Verifies.step (hv : Verifies g m n) (h : Streams plan g s m n) (hs : s.read = 0)
    (hg : g.Fresh) (t : Turn) : Verifies g (m.step plan t) (n.after plan m t) := by
  obtain ⟨v, hverifier, hfollows⟩ := hv
  cases t with
  | feed =>
    refine ⟨v, (Feeder.leaves plan m.shared m.feeder).verifier_eq.trans hverifier, ?_⟩
    rw [h.read_after hs rfl]
    exact hfollows
  | stop => exact ⟨v, hverifier, hfollows⟩
  | read =>
    have hlasts : (m.step plan .read).reader.failure? = none → m.reader.failure? = none :=
      fun hnone => Reader.failure?_of_step hnone
    cases hpage : m.reader.page? plan m.shared with
    | none =>
      refine ⟨v, (Reader.leaves hpage).verifier_eq.trans hverifier, fun hnone => ?_⟩
      rw [h.read_after (t := .read) hs hpage]
      exact hfollows (hlasts hnone)
    | some pg =>
      obtain ⟨hpg, hnext⟩ := h.page_eq (t := .read) hs hpage
      obtain ⟨v', hv', -, hadvance⟩ := Reader.verifier_page hpage hverifier
      refine ⟨v', hv', fun hnone => ?_⟩
      have hv'' : v' = (v.check pg.event pg.words).2.advance := hadvance hnone
      rw [hv'', hnext, hpg]
      exact (hfollows (hlasts hnone)).next hg _

/-- What is found in a page is what is to be found there. -/
theorem Verifies.found (hv : Verifies g m n) (h : Streams plan g s m n) (hs : s.read = 0)
    (hg : g.Fresh) (t : Turn) :
    ((m.mismatches? plan t).map (·.map Mismatch.facts)).toList =
      (List.Ico n.read (n.after plan m t).read).map g.faults := by
  obtain ⟨v, hverifier, hfollows⟩ := hv
  cases hpage : m.page? plan t with
  | none =>
    rw [h.read_after hs hpage, List.Ico.self_empty]
    simp [mismatches?, hpage]
  | some pg =>
    obtain ⟨rfl, hnext⟩ := h.page_eq hs hpage
    have hnone : m.reader.failure? = none := by
      cases t with
      | read =>
        obtain ⟨offset, page, view, hr, -⟩ := Reader.reading_of_page hpage
        rw [hr]
        rfl
      | feed => cases hpage
      | stop => cases hpage
    have hfound := (hfollows hnone).mismatches hg
    rw [hnext, List.Ico.succ_singleton, List.map_singleton, ← hfound]
    simp [mismatches?, hpage, hverifier, pageRead]

theorem mismatchesFound_eq (h : Prefilled plan.layout p) (hg : p.channel.generator.Fresh)
    (hread : p.stats.read = 0) {v : Verifier} (hv : p.verifier? = some v)
    (hfollows : v.Follows p.channel.generator 0) (turns : List Turn) :
    ((start p).mismatchesFound plan turns).map Mismatch.facts =
      (List.range ((start p).pagesRead plan turns).length).flatMap p.channel.generator.faults := by
  have hnotes : (start p).observe plan
      (fun m t => (m.mismatches? plan t).map (·.map Mismatch.facts)) turns =
        (List.Ico 0 ((start p).tally plan {} turns).read).map p.channel.generator.faults :=
    (observe_eq_map
      (fun m n => Streams plan p.channel.generator p.stats m n ∧ Verifies p.channel.generator m n)
      (fun _ n => n.read) (fun m n t h => ⟨h.1.step t, h.2.step h.1 hread hg t⟩)
      (fun m n t h => (h.1.page_step hread t).1) (fun m n t h => h.2.found h.1 hread hg t)
      turns (start p) {} ⟨start_streams h, v, hv, fun _ => hfollows⟩).2
  have htally := read_tally plan turns {} (start p)
  rw [show ({} : Ledger).read = 0 from rfl, Nat.zero_add] at htally
  rw [htally, List.Ico.zero_bot, observe_map] at hnotes
  rw [mismatchesFound, List.map_flatten, hnotes, List.flatMap_def]

end Machine

/-! ### The main statement -/

namespace Generator

theorem flatMap_faults_eq_nil {g : Generator}
    (h : g.faultInterval? = none ∨ g.pageSize / 4 ≤ stride) (es : List Nat) :
    es.flatMap g.faults = [] := by
  refine List.flatMap_eq_nil_iff.2 fun e _ => if_neg ?_
  rintro ⟨hsize, k, hk, -⟩
  rcases h with h | h
  · rw [h] at hk
    cases hk
  · omega

theorem flatMap_faults {g : Generator} {k : Nat} (hk : g.faultInterval? = some k)
    (hsize : stride < g.pageSize / 4) (es : List Nat) :
    es.flatMap g.faults = (es.filter (k ∣ · + 1)).map g.fault := by
  induction es with
  | nil => rfl
  | cons e es ih =>
    have hspoils : g.Spoils e ↔ k ∣ e + 1 := by simp [Spoils, hk]
    rw [List.flatMap_cons, ih, faults]
    by_cases hdvd : k ∣ e + 1
    · simp [hsize, hspoils, hdvd]
    · simp [hspoils, hdvd]

/-- Every `k`-th page of the first `n` is spoilt. -/
theorem length_spoilt (k n : Nat) : ((List.range n).filter (k ∣ · + 1)).length = n / k := by
  induction n with
  | zero => simp
  | succ n ih =>
    rw [List.range_succ, List.filter_append, List.length_append, ih, Nat.succ_div]
    by_cases hdvd : k ∣ n + 1 <;> simp [hdvd]

end Generator

namespace Machine

variable {plan : Plan} {p : Pipeline Emulated}

/-- **The mismatches of a run.** In a run on a fresh channel whose pages are checked, with any sequence
of turns, nothing is found if no page is spoilt or the pages are too short for that. If every `k`-th page
is spoilt, its ninth word is found inverted, and nothing else, so that one mismatch is counted for every
`k` pages. The log counts all mismatches and keeps the first of them. -/
theorem faults_found (plan : Plan) (h : Prefilled plan.layout p)
    (hcounter : p.channel.generator.counter = 0) (hgenerated : p.channel.generator.generated = 0)
    (hread : p.stats.read = 0) (herrors : p.stats.errors = 0) {resync : Bool} {cap : Nat}
    {v : Verifier} (hcreate : Verifier.create p.channel.generator.family p.channel.generator.pattern
      resync cap = .ok v) (hv : p.verifier? = some v) (turns : List Turn) :
    (p.channel.generator.faultInterval? = none ∨ plan.layout.pageSize / 4 ≤ 8 →
      (start p).mismatchesFound plan turns = [] ∧
        ((start p).run plan turns).shared.stats.errors = 0) ∧
    (∀ k, p.channel.generator.faultInterval? = some k → 8 < plan.layout.pageSize / 4 →
      ((start p).mismatchesFound plan turns).map
          (fun x => (x.event, x.index, some x.expected, some x.actual)) =
        ((List.range ((start p).pagesRead plan turns).length).filter (k ∣ · + 1)).map (fun e =>
          (e.toUInt64, 8,
            generatedWord? p.channel.generator.family p.channel.generator.pattern e.toUInt32 8,
            (generatedWord? p.channel.generator.family p.channel.generator.pattern e.toUInt32 8).map
              (~~~ ·))) ∧
        ((start p).run plan turns).shared.stats.errors =
          (((start p).pagesRead plan turns).length / k).toUInt64 ∧
        (((start p).pagesRead plan turns).length < 2 ^ 64 →
          ((start p).run plan turns).shared.stats.errors.toNat =
            ((start p).run plan turns).shared.stats.read.toNat / k)) ∧
    ∃ v', ((start p).run plan turns).shared.verifier? = some v' ∧
      v'.log.total = ((start p).mismatchesFound plan turns).length ∧
      v'.log.kept.toList = ((start p).mismatchesFound plan turns).take cap := by
  have hsize : p.channel.generator.pageSize = plan.layout.pageSize := h.serves.pageSize_eq
  obtain ⟨hpattern, hfollows, hlog⟩ := Verifier.follows_of_create hcreate
  have hfresh : p.channel.generator.Fresh := by
    refine ⟨hcounter, hgenerated, hpattern, ?_⟩
    have haligned := h.aligned
    have hpos := plan.layout.page_pos
    omega
  have hfound := mismatchesFound_eq h hfresh hread hv hfollows turns
  obtain ⟨⟨v', hv', hlog'⟩, hcount⟩ := Logs.run plan turns
    (⟨⟨v, hv, hlog⟩, herrors⟩ : Logs { limit := cap } 0 (start p))
  rw [UInt64.zero_add] at hcount
  refine ⟨fun hnone => ?_, fun k hk hlong => ?_, v', hv', ?_, ?_⟩
  · rw [Generator.flatMap_faults_eq_nil (hsize ▸ hnone), List.map_eq_nil_iff] at hfound
    rw [hcount, hfound]
    exact ⟨rfl, rfl⟩
  · have hlong : stride < p.channel.generator.pageSize / 4 := hsize ▸ hlong
    rw [Generator.flatMap_faults hk hlong] at hfound
    have hlength := congrArg List.length hfound
    rw [List.length_map, List.length_map, Generator.length_spoilt] at hlength
    rw [hlength] at hcount
    refine ⟨hfound, hcount, fun hlt => ?_⟩
    have hpages := (counts_run h turns).read_eq
    rw [hread, UInt64.zero_add, read_tally, show ({} : Ledger).read = 0 from rfl,
      Nat.zero_add] at hpages
    rw [hcount, hpages, UInt64.toNat_ofNat_of_lt' hlt]
    exact UInt64.toNat_ofNat_of_lt' (lt_of_le_of_lt (Nat.div_le_self _ _) hlt)
  · rw [hlog', ErrorLog.total_recordAll]
    exact Nat.zero_add _
  · rw [hlog', ErrorLog.kept_recordAll]
    rfl

/-- The small pipeline with a verifier that keeps one mismatch. -/
def smallChecked : Pipeline Emulated :=
  { Pipeline.small with
    verifier? := some ⟨.cru, .incremental, true, none, { limit := 1 }⟩ }

/-- Of four pages the second and the fourth are spoilt, and the log keeps the first mismatch. -/
theorem faults_found_small :
    ((start smallChecked).mismatchesFound { layout := .small } (.replicate 10 .feed ++
        .replicate 6 .read ++ .replicate 13 .feed ++ .replicate 6 .read)).map
          (fun x => (x.event, x.index, some x.expected, some x.actual)) =
        [(1, 8, some 257, some (~~~257)), (3, 8, some 769, some (~~~769))] ∧
      ((start smallChecked).run { layout := .small } (.replicate 10 .feed ++ .replicate 6 .read ++
        .replicate 13 .feed ++ .replicate 6 .read)).shared.stats.errors = 2 := by
  have hstart : Prefilled .small smallChecked :=
    ⟨prefilled_small.toEquipped.keeps rfl prefilled_small.serves rfl rfl, prefilled_small.queue_nil,
      prefilled_small.free_eq, prefilled_small.ready_nil⟩
  have hlength : ((start smallChecked).pagesRead { layout := .small } (.replicate 10 .feed ++
      .replicate 6 .read ++ .replicate 13 .feed ++ .replicate 6 .read)).length = 4 := by
    decide +kernel
  obtain ⟨-, hspoilt, -⟩ := faults_found { layout := .small } hstart rfl rfl rfl rfl rfl rfl
    (.replicate 10 .feed ++ .replicate 6 .read ++ .replicate 13 .feed ++ .replicate 6 .read)
  obtain ⟨hfound, herrors, -⟩ := hspoilt 2 rfl (by decide)
  rw [hlength] at hfound herrors
  exact ⟨hfound, herrors⟩

end Machine

end DmaReadout
