/-! # Pseudo-random numbers

* `RandomSource`: what gives random numbers of a range.
* `Source`: a generator of 64-bit words with a state of four words.
* `Source.ofSeed`: the state that a seed expands to.
* `Source.between?`: a number of a range, from one word or two. -/

namespace DmaReadout

/-- The generators of random numbers with states in `ρ`. -/
class RandomSource (ρ : Type) where
  /-- The state that a seed expands to. -/
  ofSeed : UInt64 → ρ
  /-- A number from `lo` to `hi`, both below `2 ^ 64`, and the state after it; none if there is none. -/
  between? : ρ → (lo hi : Nat) → Option (Nat × ρ)

/-- The step of the seed expander. -/
def seedStep : UInt64 := 0x9e3779b97f4a7c15

/-- The output of the seed expander in a state. -/
def seedWord (z : UInt64) : UInt64 :=
  let z := (z ^^^ (z >>> 30)) * 0xbf58476d1ce4e5b9
  let z := (z ^^^ (z >>> 27)) * 0x94d049bb133111eb
  z ^^^ (z >>> 31)

/-- The bits of `x` moved up in a circle. -/
def rotate (x : UInt64) (k : UInt64) : UInt64 :=
  (x <<< k) ||| (x >>> (64 - k))

/-- A generator of 64-bit words. -/
structure Source where
  /-- First word of the state. -/
  a : UInt64
  /-- Second word of the state. -/
  b : UInt64
  /-- Third word of the state. -/
  c : UInt64
  /-- Fourth word of the state. -/
  d : UInt64
  deriving Repr, DecidableEq

namespace Source

/-- The state that a seed expands to. -/
def ofSeed (seed : UInt64) : Source :=
  ⟨seedWord (seed + seedStep), seedWord (seed + 2 * seedStep), seedWord (seed + 3 * seedStep),
    seedWord (seed + 4 * seedStep)⟩

/-- The next word, and the generator after it. -/
def next (s : Source) : UInt64 × Source :=
  let c := s.c ^^^ s.a
  let d := s.d ^^^ s.b
  (rotate (s.a + s.d) 23 + s.a, ⟨s.a ^^^ d, s.b ^^^ c, c ^^^ (s.b <<< 17), rotate d 45⟩)

/-- A number below `range`, which is not zero: the upper half of a word times the range, one more if
the lower half is so great that a second product may carry into it and does. -/
def below (s : Source) (range : Nat) : Nat × Source :=
  let (w, s) := s.next
  let product := w.toNat * range
  let high := product >>> 64
  let low := product % 1 <<< 64
  if 1 <<< 64 - range < low then
    let (w, s) := s.next
    let carry := low + (w.toNat * range) >>> 64
    (if 1 <<< 64 ≤ carry then high + 1 else high, s)
  else (high, s)

/-- A number from `lo` to `hi`, both below `2 ^ 64`; none if there is none. -/
def between? (s : Source) (lo hi : Nat) : Option (Nat × Source) :=
  if hi < lo then none
  else if hi - lo + 1 = 1 <<< 64 then
    let (w, s) := s.next
    some (w.toNat, s)
  else
    let (n, s) := s.below (hi - lo + 1)
    some (lo + n, s)

@[default_instance] instance : RandomSource Source where
  ofSeed := ofSeed
  between? := between?

end Source

end DmaReadout
