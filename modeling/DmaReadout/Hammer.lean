import DmaReadout.Channel.Bar
import DmaReadout.Fault
import DmaReadout.Stats

/-! # The register stress

* `Hammer`: writes a rising number to the debug register, in rounds of fixed length.
* `Hammer.run`: ends with the round in which it was asked to end. -/

namespace DmaReadout

/-- The register stress between two writes. -/
structure Hammer where
  /-- The registers. -/
  bar : Bar
  /-- The writes of one round. -/
  multiplier : Nat
  /-- The next number. -/
  value : Word := 0
  deriving Repr, DecidableEq

namespace Hammer

/-- The register stress on a card that allows it. -/
def create (family : Family) (bar : Bar) (multiplier : Nat) : Except Error Hammer :=
  if family.supportsHammer then .ok { bar, multiplier } else .error (.capability (.hammer family))

/-- What the `n`-th write, counted from zero, writes where. -/
def nthWrite (n : Nat) : Nat × Word :=
  (debugRegister, n.toUInt32)

/-- The stress after one write. -/
def write (h : Hammer) : Hammer :=
  match h with
  | ⟨bar, multiplier, value⟩ => ⟨bar.write debugRegister value, multiplier, value + 1⟩

/-- The stress after `n` writes. -/
def writes : (n : Nat) → Hammer → Hammer
  | 0, h => h
  | n + 1, h => writes n h.write

/-- The stress and the counters after `n` rounds. Whole rounds are counted. -/
def rounds (stats : Stats) : (n : Nat) → Hammer → Hammer × Stats
  | 0, h => (h, stats)
  | n + 1, h => rounds (stats.addHammered h.multiplier.toUInt64) n (writes h.multiplier h)

/-- The number of rounds until the stress ends, if it is asked to end at a write counted from one. -/
def roundsUntil (h : Hammer) (stopAt : Nat) : Nat :=
  (stopAt + h.multiplier - 1) / h.multiplier

/-- The number of writes in `n` rounds. -/
def writeCount (h : Hammer) (n : Nat) : Nat :=
  n * h.multiplier

/-- The stress at its end, if it is asked to end at a write counted from one, and the counters. -/
def run (h : Hammer) (stats : Stats) (stopAt : Nat) : Hammer × Stats :=
  rounds stats (h.roundsUntil stopAt) h

end Hammer

end DmaReadout
