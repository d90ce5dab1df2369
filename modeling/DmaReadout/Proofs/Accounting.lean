import DmaReadout.Proofs.Faults
import DmaReadout.Proofs.LogText
import Mathlib.Algebra.Ring.Nat

/-! # The account of mismatches

Three counts of the mismatches are kept apart: what the verifier returns for each page, the counter of
the run, and the total of the log. They agree in every state of a run, on any channel and any memory,
also after a failure; and the log holds the first mismatches, as many as it may.

* `Machine.countsReturned`: what the verifier returned, page by page.
* `Machine.ChecksFor`, `ChecksFor.length_found_le`: a run finds no more mismatches than the family
  allows for the pages read.
* `Machine.read_run`: the counter of pages, on any channel.
* `errors_accounted`: the main statement. -/

namespace DmaReadout

/-! ### The pages of a run -/

theorem Feeder.read_step {σ : Type} [Channel σ] (plan : Plan) (p : Pipeline σ) (f : Feeder) :
    (f.step plan p).2.stats.read = p.stats.read := by
  rcases hstep : f.step plan p with ⟨f', q⟩
  cases Feeder.moves hstep <;> rfl

namespace Machine

variable {σ : Type}

/-- What the verifier returns in a turn, if a page is checked. -/
def returned? (plan : Plan) (m : Machine σ) (t : Turn) : Option Nat :=
  match m.shared.verifier?, m.page? plan t with
  | some v, some pg => some (v.check pg.event pg.words).1
  | _, _ => none

theorem returned?_eq (plan : Plan) (m : Machine σ) (t : Turn) :
    m.returned? plan t = (m.mismatches? plan t).map List.length := by
  unfold returned? mismatches?
  cases m.shared.verifier? <;> cases m.page? plan t <;> rfl

/-- A run whose verifier is one for a family of cards. -/
def ChecksFor (family : Family) (m : Machine σ) : Prop :=
  ∃ v, m.shared.verifier? = some v ∧ v.family = family

theorem ChecksFor.length_step {family : Family} {m : Machine σ} (h : ChecksFor family m) (plan : Plan)
    (t : Turn) :
    (m.mismatches? plan t).toList.flatten.length ≤
      family.mismatchesPerPage * (m.page? plan t).toList.length := by
  obtain ⟨v, hv, rfl⟩ := h
  cases hpage : m.page? plan t with
  | none =>
    have hnone : m.mismatches? plan t = none := by simp [mismatches?, hpage]
    rw [hnone]
    exact Nat.zero_le _
  | some pg =>
    have hsome : m.mismatches? plan t = some (v.mismatches pg.event pg.words) := by
      simp [mismatches?, hpage, hv]
    rw [hsome, Option.toList_some, List.flatten_singleton]
    exact (v.length_mismatches_le _ _).trans_eq (Nat.mul_one _).symm

variable [Channel σ] {m : Machine σ} {family : Family}

/-- What the verifier returned in a run, page by page. -/
def countsReturned (plan : Plan) (m : Machine σ) (turns : List Turn) : List Nat :=
  m.observe plan (returned? plan) turns

theorem sum_countsReturned (plan : Plan) (m : Machine σ) (turns : List Turn) :
    (m.countsReturned plan turns).sum = (m.mismatchesFound plan turns).length := by
  have hnotes : m.countsReturned plan turns =
      (m.observe plan (mismatches? plan) turns).map List.length := by
    rw [← observe_map, countsReturned, funext₂ (returned?_eq plan)]
  rw [hnotes, mismatchesFound, List.length_flatten]

theorem ChecksFor.step (h : ChecksFor family m) (plan : Plan) (t : Turn) :
    ChecksFor family (m.step plan t) := by
  obtain ⟨p, f, r⟩ := m
  obtain ⟨v, hv, hfamily⟩ := h
  cases t with
  | feed => exact ⟨v, (Feeder.leaves plan p f).verifier_eq.trans hv, hfamily⟩
  | stop => exact ⟨v, hv, hfamily⟩
  | read =>
    cases hpage : r.page? plan p with
    | none => exact ⟨v, (Reader.leaves hpage).verifier_eq.trans hv, hfamily⟩
    | some pg =>
      obtain ⟨v', hv', hchecked, -⟩ := Reader.verifier_page hpage hv
      refine ⟨v', hv', ?_⟩
      rcases hchecked with rfl | rfl <;> exact hfamily

/-- A run finds no more mismatches than the family allows for the pages read. -/
theorem ChecksFor.length_found_le (plan : Plan) (turns : List Turn) : ∀ {m : Machine σ},
    ChecksFor family m → (m.mismatchesFound plan turns).length ≤
      family.mismatchesPerPage * (m.pagesRead plan turns).length := by
  induction turns with
  | nil => exact fun _ => Nat.zero_le _
  | cons t turns ih =>
    intro m h
    have hstep := h.length_step plan t
    have hrest := ih (h.step plan t)
    rw [mismatchesFound_cons, pagesRead_cons, List.length_append, List.length_append, Nat.mul_add]
    exact Nat.add_le_add hstep hrest

theorem read_step (plan : Plan) (m : Machine σ) (t : Turn) :
    (m.step plan t).shared.stats.read =
      m.shared.stats.read + (m.page? plan t).toList.length.toUInt64 := by
  obtain ⟨p, f, r⟩ := m
  cases t with
  | feed => exact (Feeder.read_step plan p f).trans (UInt64.add_zero _).symm
  | stop => exact (UInt64.add_zero _).symm
  | read =>
    show (r.step plan p).2.stats.read = p.stats.read + (r.page? plan p).toList.length.toUInt64
    cases hpage : r.page? plan p with
    | none =>
      rw [(Reader.leaves hpage).stats_eq]
      exact (UInt64.add_zero _).symm
    | some pg =>
      rw [(Reader.step_page hpage).1, (Pipeline.checked_counts _ _ _ _).1]
      rfl

/-- The counter of pages is that of the pages read, on any channel. -/
theorem read_run (plan : Plan) (turns : List Turn) : ∀ m : Machine σ,
    (m.run plan turns).shared.stats.read =
      m.shared.stats.read + (m.pagesRead plan turns).length.toUInt64 := by
  induction turns with
  | nil => exact fun m => (UInt64.add_zero _).symm
  | cons t turns ih =>
    intro m
    rw [run_cons, ih, read_step, pagesRead_cons, List.length_append, UInt64.add_assoc]
    exact congrArg _ (UInt64.ofNat_add _ _).symm

/-! ### The main statement -/

/-- **The account of mismatches.** Whatever the channel and the memory do and whatever turns are taken,
also if the run has failed by now: what a fresh verifier returned adds up to the total of its log and to
the counter of the run, which is the number of mismatches found, at most one for every page read, or two
with the older card. The log keeps the first of them, as many as it may; its text is that of their lines,
and no other list of mismatches has this text. It is the log that is written line by line as they are
found, with a total in 64 bits. -/
theorem errors_accounted (plan : Plan) {p : Pipeline σ} {pattern : Pattern} {resync : Bool} {cap : Nat}
    {v : Verifier} (hcreate : Verifier.create family pattern resync cap = .ok v)
    (hv : p.verifier? = some v) (hread : p.stats.read = 0) (herrors : p.stats.errors = 0)
    (turns : List Turn) :
    let m := (start p).run plan turns
    let found := (start p).mismatchesFound plan turns
    let pages := ((start p).pagesRead plan turns).length
    ∃ v', m.shared.verifier? = some v' ∧
      v'.log.total = found.length ∧ ((start p).countsReturned plan turns).sum = found.length ∧
      m.shared.stats.errors = found.length.toUInt64 ∧ m.shared.stats.read = pages.toUInt64 ∧
      (family = .cru → found.length ≤ pages) ∧ (family = .crorc → found.length ≤ 2 * pages) ∧
      (pages < 2 ^ 63 → m.shared.stats.errors.toNat = found.length ∧
        m.shared.stats.read.toNat = pages) ∧
      v'.log.recorded = min v'.log.total cap ∧
      v'.log.text = lines (found.take (min v'.log.total cap)) ∧
      (∀ ms, lines ms = v'.log.text → ms = found.take (min v'.log.total cap)) ∧
      v'.log.written = found.foldl LineLog.record { limit := cap } ∧
      (pages < 2 ^ 63 → v'.log.written.total.toNat = v'.log.total) := by
  intro m found pages
  obtain ⟨-, rfl⟩ := Verifier.create_eq_ok hcreate
  obtain ⟨⟨v', hv', hlog'⟩, hcount⟩ := Logs.run plan turns
    (⟨⟨_, hv, rfl⟩, herrors⟩ : Logs { limit := cap } 0 (start p))
  rw [UInt64.zero_add] at hcount
  have hpages : m.shared.stats.read = pages.toUInt64 := by
    rw [read_run, show (start p).shared.stats.read = 0 from hread, UInt64.zero_add]
  have hle : found.length ≤ family.mismatchesPerPage * pages :=
    ChecksFor.length_found_le plan turns (m := start p) ⟨_, hv, rfl⟩
  have hfew : pages < 2 ^ 63 → found.length < 2 ^ 64 := by
    intro hlt
    have htwo : family.mismatchesPerPage ≤ 2 := by cases family <;> decide
    have := hle.trans (Nat.mul_le_mul_right pages htwo)
    omega
  have htotal : v'.log.total = found.length := by
    rw [hlog', ErrorLog.total_recordAll]
    exact Nat.zero_add _
  have hkept : v'.log.kept.toList = found.take (min v'.log.total cap) := by
    rw [hlog', ErrorLog.kept_recordAll, ← hlog', htotal, List.take_eq_take_min, Nat.min_comm]
    rfl
  have htext : v'.log.text = lines (found.take (min v'.log.total cap)) := by
    rw [ErrorLog.text_eq, hkept]
  refine ⟨v', hv', htotal, sum_countsReturned _ _ _, hcount, hpages, ?_, ?_, fun hlt => ⟨?_, ?_⟩, ?_,
    htext, fun ms hms => lines_injective (hms.trans htext), ?_, fun hlt => ?_⟩
  · rintro rfl
    exact hle.trans_eq (Nat.one_mul _)
  · rintro rfl
    exact hle
  · rw [hcount]
    exact UInt64.toNat_ofNat_of_lt' (hfew hlt)
  · rw [hpages]
    exact UInt64.toNat_ofNat_of_lt' (by show pages < 2 ^ 64; omega)
  · rw [ErrorLog.recorded, ← Array.length_toList, hkept, List.length_take, htotal]
    omega
  · rw [hlog', ErrorLog.written_recordAll]
    rfl
  · exact UInt64.toNat_ofNat_of_lt' (htotal ▸ hfew hlt)

/-- Two mismatches are found, of which the log keeps the first. -/
theorem errors_accounted_small :
    ∃ v', ((start smallChecked).run { layout := .small } (.replicate 10 .feed ++ .replicate 6 .read ++
        .replicate 13 .feed ++ .replicate 6 .read)).shared.verifier? = some v' ∧
      v'.log.total = 2 ∧ v'.log.recorded = 1 ∧
      v'.log.text = "event:1 i:8 cnt:1 exp:0x101 val:0xfffffefe\n" := by
  have hfound : ((start smallChecked).mismatchesFound { layout := .small } (.replicate 10 .feed ++
      .replicate 6 .read ++ .replicate 13 .feed ++ .replicate 6 .read)) =
        [⟨1, 8, 1, 257, ~~~257⟩, ⟨3, 8, 3, 769, ~~~769⟩] := by
    decide +kernel
  obtain ⟨v', hv', htotal, -, -, -, -, -, -, hrecorded, htext, -⟩ :=
    errors_accounted { layout := .small } (p := smallChecked) (show Verifier.create .cru .incremental
      true 1 = .ok _ from rfl) rfl rfl rfl (.replicate 10 .feed ++ .replicate 6 .read ++
        .replicate 13 .feed ++ .replicate 6 .read)
  rw [htotal, hfound] at hrecorded htext
  rw [hfound] at htotal
  exact ⟨v', hv', htotal, hrecorded, htext.trans (by decide +kernel)⟩

end Machine

end DmaReadout
