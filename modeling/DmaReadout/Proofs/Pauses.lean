import DmaReadout.Pause
import DmaReadout.Proofs.Sampling

/-! # Bounds of pauses

A schedule is polled at instants, and at some of them a pause is due. Durations are drawn in whole
microseconds, of which those below `2 ^ 64` count, so that a schedule keeps to a range of its own.

* `PauseRange.drawn`: the range that is drawn from; `drawnEnds_near`: how far it is from the one asked for.
* `pick_of_le`, `roll_eq_map`, `roll_of_empty`: what is drawn.
* `Poll`, `PauseSchedule.polls`: a schedule polled again and again; `Keeps.due`: one poll,
  `Keeps.polls`: all of them.
* `PauseRange.KeepsTo`: a schedule whose pauses and deadlines lie within bounds.
* `PauseRange.bounds_kept`: the main statement; `PauseRange.bounds_missed`: where the range asked for is
  not kept. -/

namespace DmaReadout

/-! ### The range that is kept -/

namespace PauseRange

variable {r : PauseRange}

theorem validate_eq_ok_iff : r.validate = .ok () ↔
    r.nextMin.nanos ≤ r.nextMax.nanos ∧ r.lengthMin.nanos ≤ r.lengthMax.nanos := by
  unfold validate
  split
  · exact iff_of_false nofun (by omega)
  split
  · exact iff_of_false nofun (by omega)
  · exact iff_of_true rfl (by omega)

/-- The ends of what is drawn between two durations: the first of them if the second is not longer, and
the microseconds of both otherwise. -/
def drawnEnds (least greatest : Duration) : Duration × Duration :=
  if greatest.nanos ≤ least.nanos then (least, least)
  else (.ofMicros (least.micros % 2 ^ 64), .ofMicros (greatest.micros % 2 ^ 64))

/-- The range that a schedule keeps to. -/
def drawn (r : PauseRange) : PauseRange where
  nextMin := (drawnEnds r.nextMin r.nextMax).1
  nextMax := (drawnEnds r.nextMin r.nextMax).2
  lengthMin := (drawnEnds r.lengthMin r.lengthMax).1
  lengthMax := (drawnEnds r.lengthMin r.lengthMax).2

/-- Two durations that are equal, or of which the second has fewer than `2 ^ 64` microseconds. -/
def Counted (least greatest : Duration) : Prop :=
  least = greatest ∨ greatest.micros < 2 ^ 64

/-- Two durations that are equal, or of which the first is a whole number of microseconds. -/
def Whole (least greatest : Duration) : Prop :=
  least = greatest ∨ least.nanos % 1000 = 0

/-- The clock gets as far as a schedule within bounds may count, from its beginning and from later
instants. -/
structure InReach (bounds : PauseRange) (start : Duration) (times : List Duration) : Prop where
  start : start.nanos + bounds.nextMax.nanos < Clock.range * 1000000000
  times : ∀ t ∈ times,
    t.nanos + bounds.lengthMax.nanos + bounds.nextMax.nanos < Clock.range * 1000000000

/-- The ends of what is drawn are not the wrong way round, and less than a microsecond from those asked
for. -/
theorem drawnEnds_near {least greatest : Duration} (h : least.nanos ≤ greatest.nanos)
    (hcounted : Counted least greatest) :
    (drawnEnds least greatest).1.nanos ≤ (drawnEnds least greatest).2.nanos ∧
      least.nanos < (drawnEnds least greatest).1.nanos + 1000 ∧
      (Whole least greatest → least.nanos ≤ (drawnEnds least greatest).1.nanos) ∧
      (drawnEnds least greatest).2.nanos ≤ greatest.nanos := by
  unfold drawnEnds
  split
  · exact ⟨Nat.le_refl _, Nat.lt_add_of_pos_right (by decide), fun _ => Nat.le_refl _, h⟩
  · rename_i hlt
    have hgreatest : greatest.micros < 2 ^ 64 := by
      rcases hcounted with rfl | hcounted
      · exact absurd (Nat.le_refl _) hlt
      · exact hcounted
    have hleast : least.micros ≤ greatest.micros := Nat.div_le_div_right h
    rw [Nat.mod_eq_of_lt hgreatest, Nat.mod_eq_of_lt (Nat.lt_of_le_of_lt hleast hgreatest)]
    unfold Duration.micros at hleast ⊢
    unfold Duration.ofMicros
    refine ⟨?_, ?_, fun hwhole => ?_, ?_⟩
    · show least.nanos / 1000 * 1000 ≤ greatest.nanos / 1000 * 1000
      omega
    · show least.nanos < least.nanos / 1000 * 1000 + 1000
      omega
    · rcases hwhole with rfl | hwhole
      · exact absurd (Nat.le_refl _) hlt
      · show least.nanos ≤ least.nanos / 1000 * 1000
        omega
    · show greatest.nanos / 1000 * 1000 ≤ greatest.nanos
      omega

end PauseRange

/-! ### What is drawn -/

namespace PauseSchedule

open PauseRange

section Pick

variable {ρ : Type} [RandomSource ρ] [LawfulRandomSource ρ] (source : ρ) {least greatest : Duration}

theorem pick_of_lt (h : (drawnEnds least greatest).2.nanos < (drawnEnds least greatest).1.nanos) :
    pick source least greatest = .error .emptySampleRange := by
  unfold drawnEnds at h
  unfold pick
  split
  · rename_i hle
    rw [if_pos hle] at h
    exact absurd h (Nat.lt_irrefl _)
  · rename_i hlt
    rw [if_neg hlt] at h
    have hends : greatest.micros % 2 ^ 64 < least.micros % 2 ^ 64 := Nat.lt_of_mul_lt_mul_right h
    rw [show (1 : Nat) <<< 64 = 2 ^ 64 from rfl, LawfulRandomSource.between?_of_lt source hends]

/-- **A duration** is drawn between the ends. -/
theorem pick_of_le (h : (drawnEnds least greatest).1.nanos ≤ (drawnEnds least greatest).2.nanos) :
    ∃ d source', pick source least greatest = .ok (d, source') ∧
      (drawnEnds least greatest).1.nanos ≤ d.nanos ∧ d.nanos ≤ (drawnEnds least greatest).2.nanos := by
  unfold drawnEnds at h ⊢
  unfold pick
  split
  · exact ⟨least, source, rfl, Nat.le_refl _, Nat.le_refl _⟩
  · rename_i hlt
    rw [if_neg hlt] at h
    have hends : least.micros % 2 ^ 64 ≤ greatest.micros % 2 ^ 64 :=
      Nat.le_of_mul_le_mul_right h (by decide)
    obtain ⟨n, source', hdrawn, hlo, hhi⟩ :=
      LawfulRandomSource.between?_of_le source hends (Nat.mod_lt _ (Nat.two_pow_pos 64))
    rw [show (1 : Nat) <<< 64 = 2 ^ 64 from rfl, hdrawn]
    exact ⟨_, source', rfl, Nat.mul_le_mul_right 1000 hlo, Nat.mul_le_mul_right 1000 hhi⟩

end Pick

end PauseSchedule

theorem Clock.after_of_lt {instant d : Duration}
    (h : instant.nanos + d.nanos < Clock.range * 1000000000) :
    Clock.after instant d = .ok ⟨instant.nanos + d.nanos⟩ :=
  if_neg (Nat.not_le.2 h)

theorem Clock.after_of_le {instant d : Duration}
    (h : Clock.range * 1000000000 ≤ instant.nanos + d.nanos) :
    Clock.after instant d = .error .instantTooLate :=
  if_pos h

namespace PauseSchedule

/-- A deadline between the shortest and the longest time after an instant. -/
def DeadlineWithin (bounds : PauseRange) (instant deadline : Duration) : Prop :=
  instant.nanos + bounds.nextMin.nanos ≤ deadline.nanos ∧
    deadline.nanos ≤ instant.nanos + bounds.nextMax.nanos

/-- A schedule with a given range whose next pause is neither too short nor too long. -/
structure Keeps {ρ : Type} (r : PauseRange) (s : PauseSchedule ρ) : Prop where
  range_eq : s.range = r
  least_le : r.drawn.lengthMin.nanos ≤ s.length.nanos
  le_greatest : s.length.nanos ≤ r.drawn.lengthMax.nanos

variable {ρ : Type} [RandomSource ρ] [LawfulRandomSource ρ] {s : PauseSchedule ρ} {t : Duration}

/-- **A pause is drawn** from the ranges if none of them is empty; what is left is to count the time until
it. -/
theorem roll_eq_map (hvalid : s.range.drawn.validate = .ok ()) (t : Duration) :
    ∃ interval length source,
      s.roll t = (Clock.after t interval).map (fun next => { s with next, length, source }) ∧
        s.range.drawn.nextMin.nanos ≤ interval.nanos ∧
        interval.nanos ≤ s.range.drawn.nextMax.nanos ∧
        s.range.drawn.lengthMin.nanos ≤ length.nanos ∧
        length.nanos ≤ s.range.drawn.lengthMax.nanos := by
  obtain ⟨hnext, hlength⟩ := PauseRange.validate_eq_ok_iff.1 hvalid
  obtain ⟨interval, source, hinterval, hlo, hhi⟩ := pick_of_le s.source hnext
  obtain ⟨length, source', hpick, hleast, hgreatest⟩ := pick_of_le source hlength
  refine ⟨interval, length, source', ?_, hlo, hhi, hleast, hgreatest⟩
  unfold roll
  rw [hinterval]
  dsimp only [bind, Except.bind]
  rw [hpick]
  cases Clock.after t interval <;> rfl

/-- A pause is drawn within the range that is kept. -/
theorem roll_of_valid (hvalid : s.range.drawn.validate = .ok ())
    (hclock : t.nanos + s.range.drawn.nextMax.nanos < Clock.range * 1000000000) :
    ∃ s', s.roll t = .ok s' ∧ s'.Keeps s.range ∧ DeadlineWithin s.range.drawn t s'.next := by
  obtain ⟨interval, length, source, hroll, hlo, hhi, hleast, hgreatest⟩ := roll_eq_map hvalid t
  rw [Clock.after_of_lt (Nat.lt_of_le_of_lt (Nat.add_le_add_left hhi _) hclock)] at hroll
  exact ⟨_, hroll, ⟨rfl, hleast, hgreatest⟩, Nat.add_le_add_left hlo _, Nat.add_le_add_left hhi _⟩

/-- Nothing is drawn if the next pause is later than the clock counts. -/
theorem roll_of_far (hvalid : s.range.drawn.validate = .ok ())
    (hclock : Clock.range * 1000000000 ≤ t.nanos + s.range.drawn.nextMin.nanos) :
    s.roll t = .error .instantTooLate := by
  obtain ⟨interval, length, source, hroll, hlo, -⟩ := roll_eq_map hvalid t
  rw [Clock.after_of_le (Nat.le_trans hclock (Nat.add_le_add_left hlo _))] at hroll
  exact hroll

/-- Nothing is drawn if one of the ranges is empty. -/
theorem roll_of_empty {e : Error} (hempty : s.range.drawn.validate = .error e) :
    s.roll t = .error .emptySampleRange := by
  unfold roll
  by_cases hnext : s.range.drawn.nextMin.nanos ≤ s.range.drawn.nextMax.nanos
  · have hlength : s.range.drawn.lengthMax.nanos < s.range.drawn.lengthMin.nanos := by
      refine Nat.lt_of_not_le fun hlength => ?_
      rw [PauseRange.validate_eq_ok_iff.2 ⟨hnext, hlength⟩] at hempty
      cases hempty
    obtain ⟨interval, source, hinterval, -⟩ := pick_of_le s.source hnext
    rw [hinterval]
    dsimp only [bind, Except.bind]
    rw [pick_of_lt source hlength]
  · rw [pick_of_lt s.source (Nat.lt_of_not_le hnext)]
    rfl

end PauseSchedule

/-! ### Polls -/

/-- A schedule polled once. -/
structure Poll (ρ : Type) where
  instant : Duration
  before : PauseSchedule ρ
  /-- The length of the pause that is due, if there is one. -/
  answer? : Option Duration
  after : PauseSchedule ρ

/-- A poll that answers with a pause exactly from the deadline on, and a pause within bounds; the next
deadline is counted from the end of the pause. Other polls leave the schedule as it is. -/
structure Poll.Within {ρ : Type} (bounds : PauseRange) (p : Poll ρ) : Prop where
  due_iff : p.answer?.isSome = true ↔ p.before.next.nanos ≤ p.instant.nanos
  length : ∀ d, p.answer? = some d →
    bounds.lengthMin.nanos ≤ d.nanos ∧ d.nanos ≤ bounds.lengthMax.nanos
  deadline : ∀ d, p.answer? = some d →
    PauseSchedule.DeadlineWithin bounds ⟨p.instant.nanos + d.nanos⟩ p.after.next
  idle : p.answer? = none → p.after = p.before

namespace PauseSchedule

variable {ρ : Type} [RandomSource ρ]

/-- A schedule polled at instants, one after the other. -/
def polls (s : PauseSchedule ρ) : List Duration → Except Misuse (List (Poll ρ))
  | [] => .ok []
  | t :: times => do
    let (answer?, next) ← s.due t
    let rest ← next.polls times
    return ⟨t, s, answer?, next⟩ :: rest

variable [LawfulRandomSource ρ] {r : PauseRange} {s : PauseSchedule ρ}

/-- **One poll** answers within the range that is kept, and leaves a schedule that does so again. -/
theorem Keeps.due (h : s.Keeps r) (hvalid : r.drawn.validate = .ok ()) {t : Duration}
    (hclock : t.nanos + r.drawn.lengthMax.nanos + r.drawn.nextMax.nanos < Clock.range * 1000000000) :
    ∃ answer? next, s.due t = .ok (answer?, next) ∧ next.Keeps r ∧
      Poll.Within r.drawn ⟨t, s, answer?, next⟩ := by
  obtain ⟨rfl, hleast, hgreatest⟩ := h
  unfold PauseSchedule.due
  split
  · rename_i hearly
    exact ⟨none, s, rfl, ⟨rfl, hleast, hgreatest⟩,
      ⟨iff_of_false nofun (Nat.not_le.2 hearly), nofun, nofun, fun _ => rfl⟩⟩
  · rename_i hlate
    have hafter : Clock.after t s.length = .ok ⟨t.nanos + s.length.nanos⟩ :=
      Clock.after_of_lt (by omega)
    obtain ⟨next, hroll, hkeeps, hdeadline⟩ :=
      roll_of_valid (s := s) (t := ⟨t.nanos + s.length.nanos⟩) hvalid (by dsimp only; omega)
    rw [hafter]
    dsimp only [bind, Except.bind]
    rw [hroll]
    refine ⟨some s.length, next, rfl, hkeeps, iff_of_true rfl (Nat.le_of_not_lt hlate), ?_, ?_, nofun⟩
    · rintro _ ⟨⟩
      exact ⟨hleast, hgreatest⟩
    · rintro _ ⟨⟩
      exact hdeadline

/-- **All polls** answer within the range that is kept. -/
theorem Keeps.polls (hvalid : r.drawn.validate = .ok ()) : ∀ {times : List Duration}
    {s : PauseSchedule ρ}, s.Keeps r →
    (∀ t ∈ times, t.nanos + r.drawn.lengthMax.nanos + r.drawn.nextMax.nanos <
      Clock.range * 1000000000) →
    ∃ ps, s.polls times = .ok ps ∧ ps.map Poll.instant = times ∧ ∀ p ∈ ps, p.Within r.drawn
  | [], _, _, _ => ⟨[], rfl, rfl, nofun⟩
  | t :: times, s, h, hclock => by
    obtain ⟨answer?, next, hdue, hkeeps, hwithin⟩ := h.due hvalid (hclock t List.mem_cons_self)
    obtain ⟨ps, hps, hinstants, hall⟩ :=
      Keeps.polls hvalid hkeeps fun t' ht' => hclock t' (List.mem_cons_of_mem t ht')
    refine ⟨⟨t, s, answer?, next⟩ :: ps, ?_, ?_, List.forall_mem_cons.2 ⟨hwithin, hall⟩⟩
    · rw [PauseSchedule.polls, hdue]
      dsimp only [bind, Except.bind]
      rw [hps]
      rfl
    · rw [List.map_cons, hinstants]

end PauseSchedule

/-! ### The range asked for -/

namespace PauseRange

open PauseSchedule

variable {r : PauseRange} {ρ : Type}

/-- A schedule of range `r` begins with a deadline within bounds, and polled at instants, it answers
within them. -/
def KeepsTo (ρ : Type) [RandomSource ρ] (bounds r : PauseRange) (seed : UInt64) (start : Duration)
    (times : List Duration) : Prop :=
  ∃ (s : PauseSchedule ρ) (ps : List (Poll ρ)), seeded r seed start = .ok s ∧
    DeadlineWithin bounds start s.next ∧
    s.polls times = .ok ps ∧ ps.map Poll.instant = times ∧ ∀ p ∈ ps, p.Within bounds

/-- `inner` lies within `outer`. -/
structure Inside (inner outer : PauseRange) : Prop where
  nextMin : outer.nextMin.nanos ≤ inner.nextMin.nanos
  nextMax : inner.nextMax.nanos ≤ outer.nextMax.nanos
  lengthMin : outer.lengthMin.nanos ≤ inner.lengthMin.nanos
  lengthMax : inner.lengthMax.nanos ≤ outer.lengthMax.nanos

section Inside

variable {inner outer : PauseRange} (h : inner.Inside outer)

include h

theorem Inside.inReach {start : Duration} {times : List Duration} (hreach : outer.InReach start times) :
    inner.InReach start times :=
  ⟨Nat.lt_of_le_of_lt (Nat.add_le_add_left h.nextMax _) hreach.start, fun t ht =>
    Nat.lt_of_le_of_lt (Nat.add_le_add (Nat.add_le_add_left h.lengthMax _) h.nextMax) (hreach.times t ht)⟩

theorem Inside.deadlineWithin {instant deadline : Duration} (hd : DeadlineWithin inner instant deadline) :
    DeadlineWithin outer instant deadline :=
  ⟨Nat.le_trans (Nat.add_le_add_left h.nextMin _) hd.1,
    Nat.le_trans hd.2 (Nat.add_le_add_left h.nextMax _)⟩

theorem Inside.within {p : Poll ρ} (hp : p.Within inner) : p.Within outer where
  due_iff := hp.due_iff
  length d hd := ⟨Nat.le_trans h.lengthMin (hp.length d hd).1, Nat.le_trans (hp.length d hd).2 h.lengthMax⟩
  deadline d hd := h.deadlineWithin (hp.deadline d hd)
  idle := hp.idle

theorem Inside.keepsTo [RandomSource ρ] {seed : UInt64} {start : Duration} {times : List Duration}
    (hr : KeepsTo ρ inner r seed start times) : KeepsTo ρ outer r seed start times := by
  obtain ⟨s, ps, hseeded, hdeadline, hpolls, hinstants, hwithin⟩ := hr
  exact ⟨s, ps, hseeded, h.deadlineWithin hdeadline, hpolls, hinstants, fun p hp => h.within (hwithin p hp)⟩

end Inside

variable [RandomSource ρ] [LawfulRandomSource ρ]

/-- A schedule keeps to the range that is drawn from. -/
theorem drawn_keepsTo (hvalid : r.drawn.validate = .ok ()) (seed : UInt64) {start : Duration}
    {times : List Duration} (hreach : r.drawn.InReach start times) :
    KeepsTo ρ r.drawn r seed start times := by
  obtain ⟨s, hroll, hkeeps, hdeadline⟩ :=
    roll_of_valid (s := ⟨r, start, .zero, (RandomSource.ofSeed seed : ρ)⟩) hvalid hreach.start
  obtain ⟨ps, hps, hinstants, hwithin⟩ := Keeps.polls hvalid hkeeps hreach.times
  exact ⟨s, ps, hroll, hdeadline, hps, hinstants, hwithin⟩

/-- **Bounds.** With any generator that keeps to the range law, a schedule of a valid range keeps to the
range that is drawn from, at whatever instants it is polled. None begins if that range is empty, or if
the first pause is later than the clock counts. If the microseconds of the range asked for count, the
range drawn from begins less than a microsecond before it and does not end after it; and if the lower
ends are whole microseconds, the range asked for is kept. -/
theorem bounds_kept (ρ : Type) [RandomSource ρ] [LawfulRandomSource ρ] (hvalid : r.validate = .ok ())
    (seed : UInt64) (start : Duration) (times : List Duration) :
    (r.drawn.validate = .ok () → r.drawn.InReach start times →
        KeepsTo ρ r.drawn r seed start times) ∧
      (∀ e, r.drawn.validate = .error e → seeded (ρ := ρ) r seed start = .error .emptySampleRange) ∧
      (r.drawn.validate = .ok () → Clock.range * 1000000000 ≤ start.nanos + r.drawn.nextMin.nanos →
        seeded (ρ := ρ) r seed start = .error .instantTooLate) ∧
      (Counted r.nextMin r.nextMax → Counted r.lengthMin r.lengthMax →
        r.drawn.validate = .ok () ∧
          r.nextMin.nanos < r.drawn.nextMin.nanos + 1000 ∧ r.drawn.nextMax.nanos ≤ r.nextMax.nanos ∧
          r.lengthMin.nanos < r.drawn.lengthMin.nanos + 1000 ∧
          r.drawn.lengthMax.nanos ≤ r.lengthMax.nanos ∧
          (Whole r.nextMin r.nextMax → Whole r.lengthMin r.lengthMax → r.InReach start times →
            KeepsTo ρ r r seed start times)) := by
  obtain ⟨hnext, hlength⟩ := validate_eq_ok_iff.1 hvalid
  refine ⟨fun hdrawn hreach => drawn_keepsTo hdrawn seed hreach, fun e he => roll_of_empty he,
    fun hdrawn hfar => roll_of_far hdrawn hfar, fun hnextCounted hlengthCounted => ?_⟩
  obtain ⟨hnextOrder, hnextNear, hnextLeast, hnextGreatest⟩ := drawnEnds_near hnext hnextCounted
  obtain ⟨hlengthOrder, hlengthNear, hlengthLeast, hlengthGreatest⟩ :=
    drawnEnds_near hlength hlengthCounted
  have hdrawn : r.drawn.validate = .ok () := validate_eq_ok_iff.2 ⟨hnextOrder, hlengthOrder⟩
  refine ⟨hdrawn, hnextNear, hnextGreatest, hlengthNear, hlengthGreatest,
    fun hnextWhole hlengthWhole hreach => ?_⟩
  have hinside : r.drawn.Inside r :=
    ⟨hnextLeast hnextWhole, hnextGreatest, hlengthLeast hlengthWhole, hlengthGreatest⟩
  exact hinside.keepsTo (drawn_keepsTo hdrawn seed (hinside.inReach hreach))

/-- The usual bounds are kept. -/
theorem bounds_kept_standard : standard.validate = .ok () ∧
    KeepsTo Source standard standard 7 Clock.now [Clock.now, .ofParts 86402 0, .ofParts 86404 0] := by
  obtain ⟨-, -, -, hcounted⟩ :=
    bounds_kept (r := standard) Source rfl 7 Clock.now [Clock.now, .ofParts 86402 0, .ofParts 86404 0]
  obtain ⟨-, -, -, -, -, hkept⟩ := hcounted (.inr (by decide)) (.inr (by decide))
  exact ⟨rfl, hkept (.inr (by decide)) (.inr (by decide)) ⟨by decide, by decide⟩⟩

/-- Bounds of deadlines that are not whole microseconds. -/
def unevenDeadlines : PauseRange := ⟨⟨1500⟩, ⟨1501⟩, .zero, .zero⟩

/-- Bounds of lengths that are not whole microseconds. -/
def unevenLengths : PauseRange := ⟨.zero, .zero, ⟨1500⟩, ⟨1501⟩⟩

/-- Lengths from a second on, to the first number of microseconds that does not count. -/
def wide : PauseRange := ⟨.zero, .zero, .ofParts 1 0, .ofMicros (2 ^ 64)⟩

/-- A first pause that is due when the clock has ended. -/
def never : PauseRange := ⟨.ofParts Clock.range 0, .ofParts Clock.range 0, .zero, .zero⟩

/-- **Bounds missed.** Valid ranges that are not kept: deadlines come too early, pauses are too short, or
no schedule begins. -/
theorem bounds_missed :
    (unevenDeadlines.validate = .ok () ∧ ¬ KeepsTo Source unevenDeadlines unevenDeadlines 0 Clock.now []) ∧
      (unevenLengths.validate = .ok () ∧
        ¬ KeepsTo Source unevenLengths unevenLengths 0 Clock.now [Clock.now]) ∧
      (wide.validate = .ok () ∧ seeded (ρ := Source) wide 0 Clock.now = .error .emptySampleRange) ∧
      (never.validate = .ok () ∧ seeded (ρ := Source) never 0 Clock.now = .error .instantTooLate) := by
  have hdeadline : (seeded (ρ := Source) unevenDeadlines 0 Clock.now).map (·.next.nanos) =
      .ok (Clock.now.nanos + 1000) := rfl
  have hlength : ((seeded (ρ := Source) unevenLengths 0 Clock.now).bind (·.polls [Clock.now])).map
      (List.map Poll.answer?) = .ok [some ⟨1000⟩] := rfl
  refine ⟨⟨rfl, ?_⟩, ⟨rfl, ?_⟩, ⟨rfl, rfl⟩, ⟨rfl, rfl⟩⟩
  · rintro ⟨s, ps, hs, hwithin, -⟩
    rw [hs] at hdeadline
    have hnext : s.next.nanos = Clock.now.nanos + 1000 := Except.ok.inj hdeadline
    have hleast : Clock.now.nanos + 1500 ≤ s.next.nanos := hwithin.1
    omega
  · rintro ⟨s, ps, hs, -, hps, -, hall⟩
    rw [hs] at hlength
    dsimp only [Except.bind] at hlength
    rw [hps] at hlength
    have hanswers : ps.map Poll.answer? = [some ⟨1000⟩] := Except.ok.inj hlength
    obtain ⟨p, hp, hanswer⟩ := List.mem_map.1 (hanswers ▸ List.mem_cons_self)
    exact absurd ((hall p hp).length ⟨1000⟩ hanswer).1 (by decide)

end PauseRange

end DmaReadout
