import DmaReadout.Proofs.Pauses

/-! # Pauses and the instants of the polls

A schedule draws random numbers only when a pause is due, and always the same ones: the time until the
next pause, then its length. The pauses of a seed are therefore one sequence; the instants at which the
schedule is polled decide when these pauses begin, and how many of them.

* `PauseRange.pause`: a pause of a seed by its number.
* `PauseSchedule.Awaits`: a schedule before a pause of its seed; `Awaits.due`: one poll, `Awaits.split`:
  a run up to one of its polls.
* `Poll.pauses`: the pauses as they are seen in a run.
* `PauseRange.pauses_oblivious`: the main statement. -/

namespace DmaReadout

/-! ### The pauses of a seed -/

/-- A pause as it is drawn. -/
structure DrawnPause where
  /-- The time until the pause, from the end of the one before. -/
  interval : Duration
  /-- The length of the pause. -/
  length : Duration
  deriving Repr, DecidableEq

namespace PauseRange

section Draw

variable {ρ : Type} [RandomSource ρ]

/-- The next pause, and the source after it. -/
def draw (r : PauseRange) (source : ρ) : Except Misuse (DrawnPause × ρ) := do
  let (interval, source) ← PauseSchedule.pick source r.nextMin r.nextMax
  let (length, source) ← PauseSchedule.pick source r.lengthMin r.lengthMax
  return (⟨interval, length⟩, source)

/-- The pause that is drawn after `k` others, and the source after it. -/
def drawAfter (r : PauseRange) (source : ρ) : (k : Nat) → Except Misuse (DrawnPause × ρ)
  | 0 => r.draw source
  | k + 1 => do
    let (_, source) ← r.drawAfter source k
    r.draw source

end Draw

variable (ρ : Type) [RandomSource ρ]

/-- Pause `k` of a seed. -/
def pause (r : PauseRange) (seed : UInt64) (k : Nat) : Except Misuse DrawnPause :=
  (r.drawAfter (RandomSource.ofSeed seed : ρ) k).map Prod.fst

/-- A schedule of a seed that begins at an instant, polled at others. -/
def polled (r : PauseRange) (seed : UInt64) (start : Duration) (times : List Duration) :
    Except Misuse (List (Poll ρ)) := do
  let s ← PauseSchedule.seeded r seed start
  s.polls times

end PauseRange

namespace Poll

variable {ρ : Type}

/-- The pauses that polls answer with. The time until a pause lasts up to its deadline; it begins at the
end of the pause before, and that of the first one at `resumed`. -/
def pauses : (resumed : Duration) → List (Poll ρ) → List DrawnPause
  | _, [] => []
  | resumed, p :: ps =>
    match p.answer? with
    | none => pauses resumed ps
    | some length =>
      ⟨⟨p.before.next.nanos - resumed.nanos⟩, length⟩ :: pauses ⟨p.instant.nanos + length.nanos⟩ ps

theorem map_length_pauses (resumed : Duration) (ps : List (Poll ρ)) :
    (pauses resumed ps).map DrawnPause.length = ps.filterMap Poll.answer? := by
  induction ps generalizing resumed with
  | nil => rfl
  | cons p ps ih =>
    rw [List.filterMap_cons, pauses]
    cases p.answer? with
    | none => exact ih resumed
    | some length => exact congrArg (length :: ·) (ih _)

end Poll

/-! ### One poll -/

theorem Clock.eq_of_after {instant d next : Duration} (h : Clock.after instant d = .ok next) :
    next = ⟨instant.nanos + d.nanos⟩ := by
  unfold Clock.after at h
  split at h
  · cases h
  · exact (Except.ok.inj h).symm

namespace PauseSchedule

variable {ρ : Type} [RandomSource ρ] {r : PauseRange} {seed : UInt64} {k : Nat}
  {resumed t : Duration} {d : DrawnPause} {s s' : PauseSchedule ρ}

/-- A schedule that awaits pause `k` of its seed; the time until it began at `resumed`. -/
structure Awaits (r : PauseRange) (seed : UInt64) (k : Nat) (resumed : Duration) (d : DrawnPause)
    (s : PauseSchedule ρ) : Prop where
  range_eq : s.range = r
  drawn : r.drawAfter (RandomSource.ofSeed seed) k = .ok (d, s.source)
  length_eq : s.length = d.length
  next_eq : s.next.nanos = resumed.nanos + d.interval.nanos

theorem roll_eq_ok (h : s.roll t = .ok s') : s'.range = s.range ∧
    ∃ d, s.range.draw s.source = .ok (d, s'.source) ∧ s'.length = d.length ∧
      s'.next.nanos = t.nanos + d.interval.nanos := by
  obtain ⟨⟨interval, source⟩, hinterval, h⟩ := bind_eq_ok h
  obtain ⟨⟨length, source'⟩, hlength, h⟩ := bind_eq_ok h
  obtain ⟨next, hnext, h⟩ := bind_eq_ok h
  obtain rfl := Clock.eq_of_after hnext
  cases h
  refine ⟨rfl, ⟨interval, length⟩, ?_, rfl, rfl⟩
  unfold PauseRange.draw
  rw [hinterval]
  dsimp only [bind, Except.bind]
  rw [hlength]
  rfl

/-- A poll before the deadline changes nothing; any other one answers with the pause and draws the next. -/
theorem due_cases {answer? : Option Duration} (h : s.due t = .ok (answer?, s')) :
    (answer? = none ∧ s' = s) ∨
      (s.next.nanos ≤ t.nanos ∧ answer? = some s.length ∧
        s.roll ⟨t.nanos + s.length.nanos⟩ = .ok s') := by
  unfold due at h
  split at h
  · cases h
    exact .inl ⟨rfl, rfl⟩
  · rename_i hlate
    obtain ⟨resumed, hafter, h⟩ := bind_eq_ok h
    obtain rfl := Clock.eq_of_after hafter
    obtain ⟨next, hroll, h⟩ := bind_eq_ok h
    cases h
    exact .inr ⟨Nat.le_of_not_lt hlate, rfl, hroll⟩

/-- A schedule that begins awaits the first pause. -/
theorem awaits_of_seeded (h : seeded r seed t = .ok s) : ∃ d, s.Awaits r seed 0 t d := by
  obtain ⟨hrange, d, hdraw, hlength, hnext⟩ := roll_eq_ok h
  exact ⟨d, hrange, hdraw, hlength, hnext⟩

/-- **One poll.** It leaves the schedule as it is, or answers with the pause that was awaited. -/
theorem Awaits.due (h : s.Awaits r seed k resumed d) {answer? : Option Duration}
    (hdue : s.due t = .ok (answer?, s')) :
    (answer? = none ∧ s' = s) ∨
      (resumed.nanos + d.interval.nanos ≤ t.nanos ∧ answer? = some d.length ∧
        ∃ d', s'.Awaits r seed (k + 1) ⟨t.nanos + d.length.nanos⟩ d') := by
  obtain ⟨rfl, hdrawn, hlength, hnext⟩ := h
  rcases due_cases hdue with hidle | ⟨hlate, hanswer, hroll⟩
  · exact .inl hidle
  obtain ⟨hrange, d', hdraw, hlength', hnext'⟩ := roll_eq_ok hroll
  rw [hlength] at hanswer hnext'
  have hdrawn' : s.range.drawAfter (RandomSource.ofSeed seed) (k + 1) = .ok (d', s'.source) := by
    rw [PauseRange.drawAfter, hdrawn]
    exact hdraw
  exact .inr ⟨hnext ▸ hlate, hanswer, d', hrange, hdrawn', hlength', hnext'⟩

/-! ### Runs -/

theorem polls_cons_eq_ok {times : List Duration} {ps : List (Poll ρ)} (h : s.polls (t :: times) = .ok ps) :
    ∃ answer? s' rest, s.due t = .ok (answer?, s') ∧ s'.polls times = .ok rest ∧
      ps = ⟨t, s, answer?, s'⟩ :: rest := by
  obtain ⟨⟨answer?, s'⟩, hdue, h⟩ := bind_eq_ok h
  obtain ⟨rest, hrest, h⟩ := bind_eq_ok h
  cases h
  exact ⟨answer?, s', rest, hdue, hrest, rfl⟩

theorem map_instant_of_polls : ∀ {times : List Duration} {s : PauseSchedule ρ} {ps : List (Poll ρ)},
    s.polls times = .ok ps → ps.map Poll.instant = times
  | [], _, _, h => by
    cases h
    rfl
  | t :: times, s, ps, h => by
    obtain ⟨answer?, s', rest, -, hrest, rfl⟩ := polls_cons_eq_ok h
    rw [List.map_cons, map_instant_of_polls hrest]

/-- The pauses that are seen in a run are those of the seed, from the awaited one on. -/
theorem Awaits.pauses : ∀ {times : List Duration} {s : PauseSchedule ρ} {k : Nat} {resumed : Duration}
    {d : DrawnPause} {ps : List (Poll ρ)}, s.Awaits r seed k resumed d → s.polls times = .ok ps →
    ∀ i e, (Poll.pauses resumed ps)[i]? = some e → r.pause ρ seed (k + i) = .ok e
  | [], _, _, _, _, _, _, h, _, _, he => by
    cases h
    cases he
  | t :: times, s, k, resumed, d, ps, hs, h, i, e, he => by
    obtain ⟨answer?, s', rest, hdue, hrest, rfl⟩ := polls_cons_eq_ok h
    rcases hs.due hdue with ⟨rfl, rfl⟩ | ⟨-, rfl, d', hs'⟩
    · exact hs.pauses hrest i e he
    · cases i with
      | zero =>
        have hinterval : s.next.nanos - resumed.nanos = d.interval.nanos := by
          rw [hs.next_eq, Nat.add_sub_cancel_left]
        cases he
        rw [hinterval, PauseRange.pause, Nat.add_zero, hs.drawn]
        rfl
      | succ i =>
        rw [Nat.add_succ, ← Nat.succ_add]
        exact hs'.pauses hrest i e he

/-- No poll of a run answers with a pause before the deadline that is awaited. -/
theorem Awaits.le_instant : ∀ {times : List Duration} {s : PauseSchedule ρ} {k : Nat} {resumed : Duration}
    {d : DrawnPause} {ps : List (Poll ρ)}, s.Awaits r seed k resumed d → s.polls times = .ok ps →
    ∀ q ∈ ps, q.answer?.isSome = true → resumed.nanos + d.interval.nanos ≤ q.instant.nanos
  | [], _, _, _, _, _, _, h, _, hq, _ => by
    cases h
    cases hq
  | t :: times, s, k, resumed, d, ps, hs, h, q, hq, hsome => by
    obtain ⟨answer?, s', rest, hdue, hrest, rfl⟩ := polls_cons_eq_ok h
    rcases hs.due hdue with ⟨rfl, rfl⟩ | ⟨hlate, rfl, d', hs'⟩
    · rcases List.mem_cons.1 hq with rfl | hq
      · cases hsome
      · exact hs.le_instant hrest q hq hsome
    · rcases List.mem_cons.1 hq with rfl | hq
      · exact hlate
      · -- later deadlines are counted from this poll on
        have hlater := hs'.le_instant hrest q hq hsome
        dsimp only at hlater
        omega

/-- A run up to one of its polls: the schedule awaits the pause after those seen so far, and the rest of
the run is a run of it. -/
theorem Awaits.split : ∀ {earlier : List (Poll ρ)} {times : List Duration} {s : PauseSchedule ρ} {k : Nat}
    {resumed : Duration} {d : DrawnPause} {p : Poll ρ} {later : List (Poll ρ)},
    s.Awaits r seed k resumed d → s.polls times = .ok (earlier ++ p :: later) →
    ∃ resumed' d' times', p.before.Awaits r seed (k + (Poll.pauses resumed earlier).length) resumed' d' ∧
      p.before.due p.instant = .ok (p.answer?, p.after) ∧ p.after.polls times' = .ok later
  | earlier, [], _, _, _, _, _, _, _, h => by
    have hnil := (Except.ok.inj h).symm
    exact absurd hnil (by simp)
  | [], t :: times, s, k, resumed, d, p, later, hs, h => by
    obtain ⟨answer?, s', rest, hdue, hrest, heq⟩ := polls_cons_eq_ok h
    obtain ⟨rfl, rfl⟩ := List.cons.inj heq
    exact ⟨resumed, d, times, hs, hdue, hrest⟩
  | q :: earlier, t :: times, s, k, resumed, d, p, later, hs, h => by
    obtain ⟨answer?, s', rest, hdue, hrest, heq⟩ := polls_cons_eq_ok h
    obtain ⟨rfl, rfl⟩ := List.cons.inj heq
    rcases hs.due hdue with ⟨rfl, rfl⟩ | ⟨-, rfl, d', hs'⟩
    · obtain ⟨resumed', d', times', hrun⟩ := hs.split hrest
      exact ⟨resumed', d', times', hrun⟩
    · obtain ⟨resumed'', d'', times'', hbefore, hrun⟩ := hs'.split hrest
      refine ⟨resumed'', d'', times'', ?_, hrun⟩
      rw [Nat.succ_add, ← Nat.add_succ] at hbefore
      exact hbefore

end PauseSchedule

/-! ### Any instants -/

namespace PauseRange

open PauseSchedule Poll

variable {ρ : Type} [RandomSource ρ] {r : PauseRange} {seed : UInt64} {start start' : Duration}
  {times times' : List Duration} {ps ps' : List (Poll ρ)}

theorem polled_eq_ok (h : r.polled ρ seed start times = .ok ps) :
    ∃ (s : PauseSchedule ρ) (d : DrawnPause), s.Awaits r seed 0 start d ∧ s.polls times = .ok ps := by
  obtain ⟨s, hseeded, hpolls⟩ := bind_eq_ok h
  obtain ⟨d, hs⟩ := awaits_of_seeded hseeded
  exact ⟨s, d, hs, hpolls⟩

/-- Pause `k` that is seen in a run is pause `k` of the seed. -/
theorem pause_of_seen (h : r.polled ρ seed start times = .ok ps) {k : Nat} {d : DrawnPause}
    (hd : (pauses start ps)[k]? = some d) : r.pause ρ seed k = .ok d := by
  obtain ⟨s, _, hs, hpolls⟩ := polled_eq_ok h
  have hpause := hs.pauses hpolls k d hd
  rwa [Nat.zero_add] at hpause

/-- After a pause there is no other one before the next interval has passed. -/
theorem next_of_seen (h : r.polled ρ seed start times = .ok ps) {earlier later : List (Poll ρ)} {p : Poll ρ}
    {length : Duration} (hps : ps = earlier ++ p :: later) (hp : p.answer? = some length) :
    ∃ next, r.pause ρ seed ((pauses start earlier).length + 1) = .ok next ∧
      ∀ q ∈ later, q.answer?.isSome = true →
        p.instant.nanos + length.nanos + next.interval.nanos ≤ q.instant.nanos := by
  obtain ⟨s, d, hs, hpolls⟩ := polled_eq_ok h
  rw [hps] at hpolls
  obtain ⟨resumed', d', times', hbefore, hdue, hlater⟩ := hs.split hpolls
  rw [hp] at hdue
  rcases hbefore.due hdue with ⟨hnone, -⟩ | ⟨-, hsome, next, hafter⟩
  · cases hnone
  obtain rfl : length = d'.length := Option.some.inj hsome
  refine ⟨next, ?_, fun q hq hsome => hafter.le_instant hlater q hq hsome⟩
  rw [pause, ← Nat.zero_add (pauses start earlier).length, hafter.drawn]
  rfl

/-- **Pauses do not depend on instants.** In every run of a schedule, at whatever instants it is polled,
pause `k` has the length, and the time until it, of pause `k` of the seed; so in two runs they are the
same. After a pause the next one begins at the earliest when the pause has ended and the time until the
next one has passed; so pauses do not overlap. -/
theorem pauses_oblivious (hrun : r.polled ρ seed start times = .ok ps)
    (hrun' : r.polled ρ seed start' times' = .ok ps') :
    ps.map Poll.instant = times ∧
      (pauses start ps).map DrawnPause.length = ps.filterMap Poll.answer? ∧
      (∀ k d, (pauses start ps)[k]? = some d → r.pause ρ seed k = .ok d) ∧
      (∀ (k : Nat) d d', (pauses start ps)[k]? = some d → (pauses start' ps')[k]? = some d' → d = d') ∧
      ∀ earlier p later length, ps = earlier ++ p :: later → p.answer? = some length →
        ∃ next, r.pause ρ seed ((pauses start earlier).length + 1) = .ok next ∧
          ∀ q ∈ later, q.answer?.isSome = true →
            p.instant.nanos + length.nanos + next.interval.nanos ≤ q.instant.nanos := by
  refine ⟨?_, map_length_pauses start ps, fun k d hd => pause_of_seen hrun hd, fun k d d' hd hd' => ?_,
    fun earlier p later length => next_of_seen hrun⟩
  · obtain ⟨s, -, -, hpolls⟩ := polled_eq_ok hrun
    exact map_instant_of_polls hpolls
  · have hpause := pause_of_seen hrun hd
    rw [pause_of_seen hrun' hd'] at hpause
    exact (Except.ok.inj hpause).symm

/-- The second pause of seed 7 with the usual bounds. -/
def secondPause : DrawnPause := ⟨.ofMicros 1437977, .ofMicros 214178⟩

/-- A schedule that is polled often and one that is polled late come to the same second pause. -/
theorem pauses_oblivious_small : ∃ ps ps',
    standard.polled Source 7 Clock.now
        [.ofParts 86400 5, .ofParts 86402 0, .ofParts 86403 0, .ofParts 86404 0] = .ok ps ∧
      standard.polled Source 7 .zero [.ofParts 10 5, .ofParts 20 0] = .ok ps' ∧
      (pauses Clock.now ps)[1]? = some secondPause ∧
      ∃ d, (pauses .zero ps')[1]? = some d ∧ d = secondPause := by
  obtain ⟨ps, hps, hseen⟩ : ∃ ps, standard.polled Source 7 Clock.now
      [.ofParts 86400 5, .ofParts 86402 0, .ofParts 86403 0, .ofParts 86404 0] = .ok ps ∧
      (pauses Clock.now ps)[1]? = some secondPause := ⟨_, rfl, rfl⟩
  obtain ⟨ps', d, hps', hd⟩ : ∃ ps' d, standard.polled Source 7 .zero
      [.ofParts 10 5, .ofParts 20 0] = .ok ps' ∧ (pauses .zero ps')[1]? = some d := ⟨_, _, rfl, rfl⟩
  obtain ⟨-, -, -, hsame, -⟩ := pauses_oblivious hps hps'
  exact ⟨ps, ps', hps, hps', hseen, d, hd, (hsame 1 secondPause d hseen hd).symm⟩

end PauseRange

end DmaReadout
