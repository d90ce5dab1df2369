import DmaReadout.Bench
import DmaReadout.Proofs.Circulation

/-! # Rounds of the two tasks

One task by itself goes on until it rests. It comes to rest within the steps that the rounds allow for,
on every channel, and so a round is a whole one and a sequence of turns like any other.

* `Machine.Reaches`: a machine that comes from another one by steps of the tasks.
* `feedRound_rests`, `readRound_rests`: every round ends; `round`: one round of each task.
* `stopped_of_readerDone`: a reader that has ended has asked the feeder to end, too.
* `Timing.Runs`: a timing that takes both tasks to their end; `Timing.steady_runs`. -/

namespace DmaReadout

/-! ### The steps of a round -/

/-- The steps that the feeder takes at most until it rests, with `k` free superpages. Each of these
costs it two steps. -/
def Feeder.stepsLeft (k : Nat) : Feeder → Nat
  | .poll => 2 * k + 5
  | .fill | .submit _ => 2 * k + 4
  | .feed => 2 * k + 3
  | .handOver => 2
  | .collect _ | .done _ => 1

/-- The steps that the reader takes at most until it rests, on superpages of `k` pages. -/
def Reader.stepsLeft (k : Nat) : Reader → Nat
  | .poll => k + 4
  | .take => k + 3
  | .reading _ page => k - page + 2
  | .giveBack _ _ | .done _ => 1

namespace Machine

variable {σ : Type} [Channel σ] {plan : Plan} {m : Machine σ}

theorem feed_rests_or (plan : Plan) (m : Machine σ) :
    (m.step plan .feed).feederRests = true ∨
      (m.step plan .feed).feeder.stepsLeft (m.step plan .feed).shared.free.length <
        m.feeder.stepsLeft m.shared.free.length := by
  obtain ⟨p, f, r⟩ := m
  show feederRests ⟨(f.step plan p).2, (f.step plan p).1, r⟩ = true ∨
    (f.step plan p).1.stepsLeft (f.step plan p).2.free.length < f.stepsLeft p.free.length
  rcases hstep : f.step plan p with ⟨f', q⟩
  cases Feeder.moves hstep with
  | goes | fills | pushes | offers => exact Or.inr (Nat.lt_succ_self _)
  | pauses =>
    right
    simp only [Feeder.stepsLeft]
    omega
  | @takes offset free _ hpop =>
    -- the next two steps are paid for by the free superpage
    have hlen := congrArg List.length (Ring.toList_pop hpop)
    rw [List.length_cons, Ring.length_toList, Ring.length_toList] at hlen
    right
    show 2 * free.length + 4 < 2 * p.free.length + 3
    omega
  | _ => exact Or.inl rfl

theorem read_rests_or (plan : Plan) (m : Machine σ) :
    (m.step plan .read).readerRests = true ∨
      (m.step plan .read).reader.stepsLeft plan.layout.pagesPerSuperpage <
        m.reader.stepsLeft plan.layout.pagesPerSuperpage := by
  obtain ⟨p, f, r⟩ := m
  show readerRests ⟨(r.step plan p).2, f, (r.step plan p).1⟩ = true ∨
    (r.step plan p).1.stepsLeft plan.layout.pagesPerSuperpage <
      r.stepsLeft plan.layout.pagesPerSuperpage
  rcases hstep : r.step plan p with ⟨r', q⟩
  cases Reader.moves hstep with
  | goes | takes => exact Or.inr (Nat.lt_succ_self _)
  | fails | finishes => exact Or.inr (Nat.succ_lt_succ (Nat.succ_pos _))
  | @reads offset page q hpage =>
    right
    show plan.layout.pagesPerSuperpage - (page + 1) + 2 < plan.layout.pagesPerSuperpage - page + 2
    omega
  | _ => exact Or.inl rfl

theorem feedUntilRest_rests (plan : Plan) : ∀ (fuel : Nat) {m : Machine σ},
    m.feeder.stepsLeft m.shared.free.length ≤ fuel → 0 < fuel →
    (feedUntilRest plan fuel m).feederRests = true
  | 0, m, _, hpos => absurd hpos (Nat.lt_irrefl 0)
  | fuel + 1, m, h, _ => by
    rw [feedUntilRest]
    split
    · assumption
    · rename_i hrest
      have hlt := (feed_rests_or plan m).resolve_left hrest
      have hpos : 0 < (m.step plan .feed).feeder.stepsLeft (m.step plan .feed).shared.free.length := by
        cases (m.step plan .feed).feeder <;> simp [Feeder.stepsLeft]
      exact feedUntilRest_rests plan fuel (by omega) (by omega)

theorem readUntilRest_rests (plan : Plan) : ∀ (fuel : Nat) {m : Machine σ},
    m.reader.stepsLeft plan.layout.pagesPerSuperpage ≤ fuel → 0 < fuel →
    (readUntilRest plan fuel m).readerRests = true
  | 0, m, _, hpos => absurd hpos (Nat.lt_irrefl 0)
  | fuel + 1, m, h, _ => by
    rw [readUntilRest]
    split
    · assumption
    · rename_i hrest
      have hlt := (read_rests_or plan m).resolve_left hrest
      have hpos : 0 < (m.step plan .read).reader.stepsLeft plan.layout.pagesPerSuperpage := by
        cases (m.step plan .read).reader <;> simp [Reader.stepsLeft]
      exact readUntilRest_rests plan fuel (by omega) (by omega)

/-- **A round of the feeder ends**, wherever the feeder stands and whatever the channel does. -/
theorem feedRound_rests (plan : Plan) (m : Machine σ) : (m.feedRound plan).feederRests = true := by
  refine feedUntilRest_rests plan _ ?_ (by omega)
  cases m.feeder <;> simp only [Feeder.stepsLeft] <;> omega

/-- **A round of the reader ends**, wherever the reader stands. -/
theorem readRound_rests (plan : Plan) (m : Machine σ) : (m.readRound plan).readerRests = true := by
  refine readUntilRest_rests plan _ ?_ (by omega)
  cases m.reader <;> simp only [Reader.stepsLeft] <;> omega

theorem feeder_of_rests {σ : Type} {m : Machine σ} (h : m.feederRests = true) :
    m.feeder = .poll ∨ ∃ failure?, m.feeder = .done failure? := by
  obtain ⟨p, f, r⟩ := m
  cases f with
  | poll => exact Or.inl rfl
  | done failure? => exact Or.inr ⟨failure?, rfl⟩
  | _ => cases h

theorem reader_of_rests {σ : Type} {m : Machine σ} (h : m.readerRests = true) :
    m.reader = .poll ∨ ∃ failure?, m.reader = .done failure? := by
  obtain ⟨p, f, r⟩ := m
  cases r with
  | poll => exact Or.inl rfl
  | done failure? => exact Or.inr ⟨failure?, rfl⟩
  | _ => cases h

/-! ### What a round leaves as it is -/

theorem feeder_readUntilRest (plan : Plan) (fuel : Nat) (m : Machine σ) :
    (readUntilRest plan fuel m).feeder = m.feeder := by
  induction fuel generalizing m with
  | zero => rfl
  | succ fuel ih =>
    rw [readUntilRest]
    split
    · rfl
    · exact ih _

/-! ### Rounds as sequences of turns -/

/-- A machine that comes from another one by steps of the two tasks. -/
def Reaches (plan : Plan) (m m' : Machine σ) : Prop :=
  ∃ turns, m' = m.run plan turns

theorem Reaches.refl (plan : Plan) (m : Machine σ) : Reaches plan m m :=
  ⟨[], rfl⟩

theorem Reaches.step (plan : Plan) (m : Machine σ) (t : Turn) : Reaches plan m (m.step plan t) :=
  ⟨[t], rfl⟩

theorem run_append (plan : Plan) (m : Machine σ) (turns more : List Turn) :
    m.run plan (turns ++ more) = (m.run plan turns).run plan more :=
  List.foldl_append

theorem Reaches.trans {m₁ m₂ m₃ : Machine σ} (h : Reaches plan m₁ m₂) (h' : Reaches plan m₂ m₃) :
    Reaches plan m₁ m₃ := by
  obtain ⟨turns, rfl⟩ := h
  obtain ⟨more, rfl⟩ := h'
  exact ⟨turns ++ more, (run_append plan m₁ turns more).symm⟩

theorem reaches_feedUntilRest (plan : Plan) (fuel : Nat) (m : Machine σ) :
    Reaches plan m (feedUntilRest plan fuel m) := by
  induction fuel generalizing m with
  | zero => exact .refl plan m
  | succ fuel ih =>
    rw [feedUntilRest]
    split
    · exact .step plan m .feed
    · exact (Reaches.step plan m .feed).trans (ih _)

theorem reaches_readUntilRest (plan : Plan) (fuel : Nat) (m : Machine σ) :
    Reaches plan m (readUntilRest plan fuel m) := by
  induction fuel generalizing m with
  | zero => exact .refl plan m
  | succ fuel ih =>
    rw [readUntilRest]
    split
    · exact .step plan m .read
    · exact (Reaches.step plan m .read).trans (ih _)

/-- One round of the feeder, then one of the reader. -/
def round (plan : Plan) (m : Machine σ) : Machine σ :=
  (m.feedRound plan).readRound plan

theorem reaches_round (plan : Plan) (m : Machine σ) : Reaches plan m (m.round plan) :=
  (reaches_feedUntilRest plan _ m).trans (reaches_readUntilRest plan _ _)

/-- After a round of each, both tasks rest. -/
theorem round_rests (plan : Plan) (m : Machine σ) :
    (m.round plan).feederRests = true ∧ (m.round plan).readerRests = true := by
  refine ⟨?_, readRound_rests plan _⟩
  have hfeed := feedRound_rests plan m
  unfold feederRests at hfeed ⊢
  rw [round, readRound, feeder_readUntilRest]
  exact hfeed

end Machine

/-! ### Asking the tasks to end -/

namespace Pipeline

theorem stopped_readPage {σ : Type} (plan : Plan) (p : Pipeline σ) (offset : Nat) :
    (p.readPage plan offset).2.stopped = p.stopped := by
  cases hv : p.memory.view offset plan.layout.pageSize with
  | error e => rw [readPage_of_error hv]
  | ok v =>
    rw [readPage_of_view hv]
    split <;> rfl

end Pipeline

/-- Only a feeder that fails asks the reader to end. -/
theorem Feeder.stopped_step {σ : Type} [Channel σ] (plan : Plan) (p : Pipeline σ) (f : Feeder) :
    (f.step plan p).2.stopped = p.stopped ∨
      (f.step plan p).2.stopped = true ∧ ∃ e, (f.step plan p).1 = .done (some e) := by
  rcases hstep : f.step plan p with ⟨f', q⟩
  cases Feeder.moves hstep with
  | refused | stuck | differs => exact Or.inr ⟨rfl, _, rfl⟩
  | _ => exact Or.inl rfl

/-- A reader only ends when it was asked to, or it asks the feeder to end, too. -/
theorem Reader.stopped_step {σ : Type} (plan : Plan) (p : Pipeline σ) (r : Reader) :
    (r.step plan p).2.stopped = p.stopped ∧
        (∀ x, (r.step plan p).1 = .done x → p.stopped = true ∨ r = .done x) ∨
      (r.step plan p).2.stopped = true ∧ ∃ x, (r.step plan p).1 = .done x := by
  rcases hstep : r.step plan p with ⟨r', q⟩
  cases Reader.moves hstep with
  | ends hstop => exact Or.inl ⟨rfl, fun _ _ => Or.inl hstop⟩
  | reaches | abandons | crowded => exact Or.inr ⟨rfl, _, rfl⟩
  | reads _ hread | fails _ hread =>
    exact Or.inl ⟨(congrArg (·.2.stopped) hread).symm.trans (Pipeline.stopped_readPage plan p _), nofun⟩
  | rests => exact Or.inl ⟨rfl, fun _ h => Or.inr h⟩
  | _ => exact Or.inl ⟨rfl, nofun⟩

namespace Machine

variable {σ : Type} [Channel σ] {plan : Plan} {m : Machine σ}

/-- A request to end is never taken back. -/
theorem stopped_step (h : m.shared.stopped = true) (t : Turn) :
    (m.step plan t).shared.stopped = true := by
  obtain ⟨p, f, r⟩ := m
  cases t with
  | feed => exact (Feeder.stopped_step plan p f).elim (fun hs => hs.trans h) And.left
  | read => exact (Reader.stopped_step plan p r).elim (fun hs => hs.1.trans h) And.left
  | stop => rfl

/-- A reader that has ended has asked the feeder to end, or was asked itself. -/
theorem stopped_of_readerDone_step (h : m.readerDone = true → m.shared.stopped = true) (t : Turn)
    (hdone : (m.step plan t).readerDone = true) : (m.step plan t).shared.stopped = true := by
  obtain ⟨p, f, r⟩ := m
  cases t with
  | feed => exact stopped_step (h hdone) .feed
  | stop => rfl
  | read =>
    rcases Reader.stopped_step plan p r with ⟨hsame, hend⟩ | ⟨hstop, -⟩
    · refine hsame.trans ?_
      cases hr : (r.step plan p).1 with
      | done x =>
        refine (hend x hr).elim id ?_
        rintro rfl
        exact h rfl
      | _ =>
        have hd : readerDone ⟨(r.step plan p).2, f, (r.step plan p).1⟩ = true := hdone
        rw [hr] at hd
        cases hd
    · exact hstop

theorem stopped_of_readerDone (plan : Plan) (turns : List Turn) : ∀ {m : Machine σ},
    (m.readerDone = true → m.shared.stopped = true) →
    (m.run plan turns).readerDone = true → (m.run plan turns).shared.stopped = true := by
  induction turns with
  | nil => intro m h; exact h
  | cons t turns ih => intro m h; exact ih (stopped_of_readerDone_step h t)

/-! ### Timings -/

theorem reaches_feedWhileMoving (plan : Plan) (fuel : Nat) (m : Machine σ) :
    Reaches plan m (feedWhileMoving plan fuel m) := by
  induction fuel generalizing m with
  | zero => exact .refl plan m
  | succ fuel ih =>
    have hround : Reaches plan m (m.feedRound plan) := reaches_feedUntilRest plan _ m
    rw [feedWhileMoving]
    split
    · exact hround
    · exact hround.trans (ih _)

theorem feedWhileMoving_rests (plan : Plan) (fuel : Nat) {m : Machine σ}
    (h : m.feederRests = true) : (feedWhileMoving plan fuel m).feederRests = true := by
  induction fuel generalizing m with
  | zero => exact h
  | succ fuel ih =>
    rw [feedWhileMoving]
    split
    · exact feedRound_rests plan m
    · exact ih (feedRound_rests plan m)

theorem reaches_feederFirst (plan : Plan) (rounds : Nat) (m : Machine σ) :
    Reaches plan m (m.feederFirst plan rounds) := by
  induction rounds generalizing m with
  | zero => exact ⟨[.stop, .feed, .read], rfl⟩
  | succ rounds ih =>
    have hround : Reaches plan m ((m.feedAhead plan).readRound plan) :=
      (reaches_feedWhileMoving plan _ m).trans (reaches_readUntilRest plan _ _)
    rw [feederFirst]
    split
    · exact hround
    · exact hround.trans (ih _)

/-- Two tasks that rest end in their next steps, when they are asked to. -/
theorem done_of_stop (plan : Plan) {m : Machine σ} (hf : m.feederRests = true)
    (hr : m.readerRests = true) :
    (((m.step plan .stop).step plan .feed).step plan .read).feederDone = true ∧
      (((m.step plan .stop).step plan .feed).step plan .read).readerDone = true := by
  obtain ⟨p, f, r⟩ := m
  cases f <;> cases hf <;> cases r <;> cases hr <;> exact ⟨rfl, rfl⟩

theorem feederFirst_done (plan : Plan) (rounds : Nat) {m : Machine σ} (hf : m.feederRests = true)
    (hr : m.readerRests = true) :
    (m.feederFirst plan rounds).feederDone = true ∧
      (m.feederFirst plan rounds).readerDone = true := by
  induction rounds generalizing m with
  | zero => exact done_of_stop plan hf hr
  | succ rounds ih =>
    rw [feederFirst]
    split
    · rename_i hdone
      exact Bool.and_eq_true_iff.1 hdone
    · refine ih ?_ (readRound_rests plan _)
      have hahead := feedWhileMoving_rests plan (m.movesLeft + 1) hf
      unfold feederRests at hahead ⊢
      rw [readRound, feeder_readUntilRest]
      exact hahead

end Machine

namespace Timing

variable {σ : Type} [Channel σ]

/-- From the start of a run on, the tasks take steps of theirs until both are at their end. -/
def Runs (timing : Timing σ) (plan : Plan) : Prop :=
  ∀ p : Pipeline σ, Machine.Reaches plan (.start p) (timing.tasks plan (.start p)) ∧
    (timing.tasks plan (.start p)).feederDone = true ∧
    (timing.tasks plan (.start p)).readerDone = true

/-- **The steady timing** takes both tasks to their end, on every channel. -/
theorem steady_runs (interrupted : Bool) (drainTimeout : Duration) (plan : Plan) :
    (steady interrupted drainTimeout : Timing σ).Runs plan :=
  fun _ => ⟨Machine.reaches_feederFirst plan _ _, Machine.feederFirst_done plan _ rfl rfl⟩

end Timing

end DmaReadout
