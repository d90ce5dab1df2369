import DmaReadout.Text.Numeral

/-! # Durations

* `Duration`: a length of time in whole nanoseconds.
* `Duration.render`: its text in the largest unit of which it holds at least one. -/

namespace DmaReadout

/-- A length of time. -/
structure Duration where
  /-- The length in nanoseconds. -/
  nanos : Nat
  deriving Repr, DecidableEq

namespace Duration

/-- `s` seconds and `n` nanoseconds. -/
def ofParts (s n : Nat) : Duration := ⟨s * 1000000000 + n⟩

/-- `n` milliseconds. -/
def ofMillis (n : Nat) : Duration := ⟨n * 1000000⟩

/-- `n` microseconds. -/
def ofMicros (n : Nat) : Duration := ⟨n * 1000⟩

/-- No time at all. -/
def zero : Duration := ⟨0⟩

/-- The whole seconds. -/
def seconds (d : Duration) : Nat := d.nanos / 1000000000

/-- The nanoseconds beyond the whole seconds. -/
def subNanos (d : Duration) : Nat := d.nanos % 1000000000

/-- The whole microseconds. -/
def micros (d : Duration) : Nat := d.nanos / 1000

/-- `d` as a number of seconds. -/
def toFloat (d : Duration) : Float :=
  d.seconds.toUInt64.toFloat + d.subNanos.toUInt64.toFloat / 1e9

/-- `whole + part / 10 ^ places`, without zeros at the end and without a point if `part` is zero. -/
def renderPart (whole part places : Nat) : String :=
  if part = 0 then whole.repr
  else
    let digits := (Text.padZero places part.repr).toList
    whole.repr ++ "." ++ String.ofList (digits.reverse.dropWhile (· == '0')).reverse

/-- The text of a duration in seconds, milliseconds, microseconds or nanoseconds: the largest of
these units of which it holds at least one. -/
def render (d : Duration) : String :=
  if 1000000000 ≤ d.nanos then renderPart d.seconds d.subNanos 9 ++ "s"
  else if 1000000 ≤ d.nanos then renderPart (d.nanos / 1000000) (d.nanos % 1000000) 6 ++ "ms"
  else if 1000 ≤ d.nanos then renderPart (d.nanos / 1000) (d.nanos % 1000) 3 ++ "µs"
  else d.nanos.repr ++ "ns"

end Duration

end DmaReadout
