import DmaReadout.Duration

/-! # Throughput

* `Throughput`: the rate at which pages were read.
* `HammerThroughput`: the rate of the register stress. -/

namespace DmaReadout

/-- A rate per second; zero if no time has passed. -/
def perSecond (amount seconds : Float) : Float :=
  if 0 < seconds then amount / seconds else 0

/-- The rate at which pages were read. -/
structure Throughput where
  /-- The time that was taken. -/
  seconds : Float
  /-- The number of pages. -/
  pages : UInt64
  /-- The number of bytes. -/
  bytes : Float
  /-- The number of bytes in units of `10 ^ 9`. -/
  gigabytes : Float
  /-- Gigabytes for each second. -/
  gigabytesPerSecond : Float
  /-- Gigabits for each second. -/
  gigabitsPerSecond : Float

/-- The rate of pages of `pageSize` bytes. -/
def Throughput.compute (pages : UInt64) (pageSize : Nat) (elapsed : Duration) : Throughput :=
  let seconds := elapsed.toFloat
  let bytes := pages.toFloat * pageSize.toUInt64.toFloat
  let gigabytes := bytes / 1e9
  let rate := perSecond gigabytes seconds
  ⟨seconds, pages, bytes, gigabytes, rate, rate * 8⟩

/-- The bytes of one write of the register stress. -/
def hammerWriteSize : Nat := 4

/-- The rate of the register stress. -/
structure HammerThroughput where
  /-- The number of writes. -/
  writes : UInt64
  /-- The bytes of one write. -/
  writeSize : Nat
  /-- The number of bytes in units of `10 ^ 6`. -/
  megabytes : Float
  /-- Megabytes for each second. -/
  megabytesPerSecond : Float

/-- The rate of a number of writes. -/
def HammerThroughput.compute (writes : UInt64) (elapsed : Duration) : HammerThroughput :=
  let megabytes := writes.toFloat * hammerWriteSize.toUInt64.toFloat / 1e6
  ⟨writes, hammerWriteSize, megabytes, perSecond megabytes elapsed.toFloat⟩

end DmaReadout
