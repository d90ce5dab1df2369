import DmaReadout.Proofs.Steps

/-! # What the pages are read for

The pages of the journal, in their order, are those that the verifier checks and that are copied. This
holds of any channel.

* `CopiesTo`: the sink of a copy; `CopiesTo.run`: it is offered the pages of the journal.
* `Copies`: what an unlimited copy has taken; `Copies.run`: it takes the pages of the journal.
* `Checks`: where a verifier stands; `Checks.run`: it has checked the pages of the journal. -/

namespace DmaReadout

/-! ### The copy of the pages -/

/-- Bytes with a page copied behind them. -/
def PageRead.copyTo (mode : DumpMode) (bytes : ByteArray) (pg : PageRead) : ByteArray :=
  bytes ++ pageBytes mode pg.event pg.words

/-- A sink that was offered a page. -/
def Sink.offered (mode : DumpMode) (s : Sink) (pg : PageRead) : Sink :=
  (s.take (pageBytes mode pg.event pg.words)).2

theorem Sink.foldl_offered_unlimited (mode : DumpMode) (pages : List PageRead) (bytes : ByteArray) :
    pages.foldl (Sink.offered mode) ⟨none, bytes⟩ =
      ⟨none, pages.foldl (PageRead.copyTo mode) bytes⟩ := by
  induction pages generalizing bytes with
  | nil => rfl
  | cons pg pages ih => exact ih _

namespace Machine

variable {σ : Type} {plan : Plan} {mode : DumpMode} {sink : Sink} {bytes : ByteArray} {m : Machine σ}

/-- A copy with this sink, which is open until the reader has ended. -/
def CopiesTo (mode : DumpMode) (sink : Sink) (m : Machine σ) : Prop :=
  ∃ closed, m.shared.dump? = some ⟨mode, sink, closed⟩ ∧
    (closed = true → ∃ failure?, m.reader = .done failure?)

/-- A copy without a limit has taken these bytes, and is open until the reader has ended. -/
def Copies (mode : DumpMode) (bytes : ByteArray) (m : Machine σ) : Prop :=
  ∃ closed, m.shared.dump? = some ⟨mode, ⟨none, bytes⟩, closed⟩ ∧
    (closed = true → ∃ failure?, m.reader = .done failure?)

variable [Channel σ]

theorem CopiesTo.step (h : CopiesTo mode sink m) (t : Turn) :
    CopiesTo mode ((m.page? plan t).toList.foldl (Sink.offered mode) sink) (m.step plan t) := by
  obtain ⟨p, f, r⟩ := m
  obtain ⟨closed, hdump, hclosed⟩ := h
  cases t with
  | feed => exact ⟨closed, (Feeder.leaves plan p f).dump_eq.trans hdump, hclosed⟩
  | stop => exact ⟨closed, hdump, hclosed⟩
  | read =>
    show CopiesTo mode ((r.page? plan p).toList.foldl (Sink.offered mode) sink)
      ⟨(r.step plan p).2, f, (r.step plan p).1⟩
    cases hpage : r.page? plan p with
    | none =>
      rcases (Reader.leaves hpage).dump_eq with hsame | ⟨hgiven, e, hdone⟩
      · refine ⟨closed, hsame.trans hdump, fun hc => ?_⟩
        obtain ⟨failure?, hr⟩ := hclosed hc
        obtain rfl : r = .done failure? := hr
        exact ⟨failure?, rfl⟩
      · exact ⟨true, by rw [hgiven, hdump]; rfl, fun _ => ⟨_, hdone⟩⟩
    | some pg =>
      obtain ⟨-, hcopy, -⟩ := Reader.step_page hpage
      obtain ⟨offset, page, v, rfl, -⟩ := Reader.reading_of_page hpage
      cases closed with
      | true => exact absurd (hclosed rfl) nofun
      | false =>
        refine ⟨false, ?_, nofun⟩
        rw [hcopy, show p.dump? = _ from hdump]
        show _ = some (Dump.mk mode (sink.take (pageBytes mode pg.event pg.words)).2 false)
        unfold Pipeline.copied Dump.writePage
        dsimp only
        rcases sink.take (pageBytes mode pg.event pg.words) with ⟨_ | _, taken⟩ <;> rfl

/-- **The sink of a copy** is offered the pages that are read, one after the other. -/
theorem CopiesTo.run (plan : Plan) (turns : List Turn) : ∀ {sink : Sink} {m : Machine σ},
    CopiesTo mode sink m →
    CopiesTo mode ((m.pagesRead plan turns).foldl (Sink.offered mode) sink) (m.run plan turns) := by
  induction turns with
  | nil => intro sink m h; exact h
  | cons t turns ih =>
    intro sink m h
    rw [pagesRead_cons, List.foldl_append]
    exact ih (h.step t)

/-- **A copy without a limit** takes the bytes of the pages that are read, one behind the other. -/
theorem Copies.run (plan : Plan) (turns : List Turn) (h : Copies mode bytes m) :
    Copies mode ((m.pagesRead plan turns).foldl (PageRead.copyTo mode) bytes) (m.run plan turns) := by
  have hrun := CopiesTo.run plan turns (show CopiesTo mode ⟨none, bytes⟩ m from h)
  rw [Sink.foldl_offered_unlimited] at hrun
  exact hrun

end Machine

/-! ### The verifier -/

/-- The failure that the reader met, also when it has not ended yet. -/
def Reader.failure? : Reader → Option Error
  | .giveBack _ failure? | .done failure? => failure?
  | _ => none

/-- A verifier that has checked a page. -/
def Verifier.after (v : Verifier) (pg : PageRead) : Verifier :=
  (v.check pg.event pg.words).2.advance

/-- A copy without a limit, if there is a copy. -/
def Unlimited (dump? : Option Dump) : Prop :=
  ∀ d, dump? = some d → d.sink.room? = none

theorem Pipeline.copied_of_unlimited {dump? : Option Dump} (h : Unlimited dump?) (event : UInt64)
    (page : Array Word) :
    (copied dump? event page).1 = .ok () ∧ Unlimited (copied dump? event page).2 := by
  cases dump? with
  | none => exact ⟨rfl, nofun⟩
  | some d =>
    obtain ⟨mode, ⟨room?, taken⟩, closed⟩ := d
    obtain rfl : room? = none := h _ rfl
    cases closed <;> refine ⟨rfl, ?_⟩ <;> rintro _ ⟨⟩ <;> rfl

namespace Machine

variable {σ : Type} {m : Machine σ}

/-- A verifier that has come to `v`, with copies that cannot fail. -/
def Checks (v? : Option Verifier) (m : Machine σ) : Prop :=
  m.shared.verifier? = v? ∧ Unlimited m.shared.dump?

variable [Channel σ]

theorem Checks.step {v? : Option Verifier} (plan : Plan) (h : Checks v? m) (t : Turn) :
    Checks (v?.map ((m.page? plan t).toList.foldl Verifier.after)) (m.step plan t) := by
  obtain ⟨p, f, r⟩ := m
  obtain ⟨hv, hdump⟩ := h
  have same : v?.map (([] : List PageRead).foldl Verifier.after) = v? :=
    congrFun Option.map_id v?
  cases t with
  | feed =>
    have hl := Feeder.leaves plan p f
    exact ⟨(hl.verifier_eq.trans hv).trans same.symm, hl.dump_eq ▸ hdump⟩
  | stop => exact ⟨hv.trans same.symm, hdump⟩
  | read =>
    show Checks (v?.map ((r.page? plan p).toList.foldl Verifier.after))
      ⟨(r.step plan p).2, f, (r.step plan p).1⟩
    cases hpage : r.page? plan p with
    | none =>
      have hl := Reader.leaves hpage
      refine ⟨(hl.verifier_eq.trans hv).trans same.symm, ?_⟩
      rcases hl.dump_eq with hsame | ⟨hgiven, -⟩
      · exact hsame ▸ hdump
      · intro d hd
        rw [hgiven] at hd
        obtain ⟨before, hbefore, rfl⟩ := Option.map_eq_some_iff.1 hd
        exact hdump before hbefore
    | some pg =>
      obtain ⟨-, hcopy, hverifier, -⟩ := Reader.step_page hpage
      obtain ⟨hok, hnext⟩ := Pipeline.copied_of_unlimited hdump pg.event pg.words
      refine ⟨?_, hcopy ▸ hnext⟩
      rw [show _ = _ from hverifier hok, show p.verifier? = v? from hv]
      cases v? <;> rfl

/-- **A verifier** checks the pages in the order in which they are read, if no copy of them can fail. -/
theorem Checks.run (plan : Plan) (turns : List Turn) : ∀ {v? : Option Verifier} {m : Machine σ},
    Checks v? m →
    Checks (v?.map ((m.pagesRead plan turns).foldl Verifier.after)) (m.run plan turns) := by
  induction turns with
  | nil =>
    intro v? m h
    exact ⟨h.1.trans (congrFun Option.map_id v?).symm, h.2⟩
  | cons t turns ih =>
    intro v? m h
    have hrest := ih (h.step plan t)
    rw [Option.map_map] at hrest
    rw [run_cons, pagesRead_cons]
    simpa only [List.foldl_append, Function.comp_def] using hrest

end Machine

end DmaReadout
