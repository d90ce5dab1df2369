import DmaReadout.Fault

/-! # The clock

Instants are durations since the clock began.

* `Clock.now`: the instant at which everything here begins.
* `Clock.after`: an instant later by a duration; the clock ends some day. -/

namespace DmaReadout.Clock

/-- The seconds that the clock can count. -/
def range : Nat := 1 <<< 63

/-- The present: the clock has run for a day. -/
def now : Duration := .ofParts 86400 0

/-- An instant later by a duration, if the clock gets there. -/
def after (instant d : Duration) : Except Misuse Duration :=
  if range * 1000000000 ≤ instant.nanos + d.nanos then .error .instantTooLate
  else .ok ⟨instant.nanos + d.nanos⟩

end DmaReadout.Clock
