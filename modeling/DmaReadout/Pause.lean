import DmaReadout.Clock
import DmaReadout.Random

/-! # Random pauses

* `PauseRange`: the bounds of a schedule.
* `PauseSchedule`: the next pause; it is rolled anew whenever a pause is due.
* `PauseSchedule.begun?`: whether a schedule can begin at all, which its bounds decide. -/

namespace DmaReadout

/-- The bounds of a schedule of pauses. -/
structure PauseRange where
  /-- The shortest time until the next pause. -/
  nextMin : Duration
  /-- The longest time until the next pause. -/
  nextMax : Duration
  /-- The shortest pause. -/
  lengthMin : Duration
  /-- The longest pause. -/
  lengthMax : Duration
  deriving Repr, DecidableEq

namespace PauseRange

/-- A pause of up to half a second, every two seconds at the latest. -/
def standard : PauseRange :=
  ⟨.ofMillis 10, .ofMillis 2000, .ofMillis 1, .ofMillis 500⟩

/-- Both ranges must hold a value. -/
def validate (r : PauseRange) : Except Error Unit :=
  if r.nextMax.nanos < r.nextMin.nanos then
    .error (.config (.pauseInterval r.nextMin r.nextMax))
  else if r.lengthMax.nanos < r.lengthMin.nanos then
    .error (.config (.pauseLength r.lengthMin r.lengthMax))
  else .ok ()

end PauseRange

/-- A schedule of pauses. -/
structure PauseSchedule (ρ : Type) where
  /-- The bounds. -/
  range : PauseRange
  /-- The instant from which on the next pause is due. -/
  next : Duration
  /-- The length of the next pause. -/
  length : Duration
  /-- Where further random numbers come from. -/
  source : ρ
  deriving Repr, DecidableEq

namespace PauseSchedule

variable {ρ : Type} [RandomSource ρ]

/-- A duration in whole microseconds between two others, of which the microseconds below `2 ^ 64`
count; the first if it is not shorter than the second. -/
def pick (source : ρ) (least greatest : Duration) : Except Misuse (Duration × ρ) :=
  if greatest.nanos ≤ least.nanos then .ok (least, source)
  else
    match RandomSource.between? source (least.micros % 1 <<< 64) (greatest.micros % 1 <<< 64) with
    | none => .error .emptySampleRange
    | some (n, source) => .ok (.ofMicros n, source)

/-- The schedule with the next pause drawn: first the time until it, then its length. -/
def roll (s : PauseSchedule ρ) (now : Duration) : Except Misuse (PauseSchedule ρ) := do
  let (interval, source) ← pick s.source s.range.nextMin s.range.nextMax
  let (length, source) ← pick source s.range.lengthMin s.range.lengthMax
  let next ← Clock.after now interval
  return { s with next, length, source }

/-- A schedule that begins at an instant. -/
def seeded (range : PauseRange) (seed : UInt64) (now : Duration) : Except Misuse (PauseSchedule ρ) :=
  roll ⟨range, now, .zero, RandomSource.ofSeed seed⟩ now

/-- Whether a schedule can begin now. Its bounds decide that, not its random numbers. -/
def begun? (range : PauseRange) : Except Misuse Unit :=
  (seeded (ρ := Source) range 0 Clock.now).map fun _ => ()

/-- The length of the pause that is due at an instant, if there is one. The next interval begins at
the end of the pause. -/
def due (s : PauseSchedule ρ) (now : Duration) :
    Except Misuse (Option Duration × PauseSchedule ρ) :=
  if now.nanos < s.next.nanos then .ok (none, s)
  else do
    let resumed ← Clock.after now s.length
    let next ← s.roll resumed
    return (some s.length, next)

end PauseSchedule

end DmaReadout
