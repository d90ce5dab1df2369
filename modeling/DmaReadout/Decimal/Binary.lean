/-! # Binary floating-point numbers

* `Format`: how many bits hold the fraction and the exponent.
* `Format.decode`: the number that a bit pattern stands for, `± mantissa * 2 ^ exponent`. -/

namespace DmaReadout.Decimal

/-- A binary interchange format. -/
structure Format where
  /-- Bits of the fraction. -/
  fractionBits : Nat
  /-- Bits of the biased exponent. -/
  exponentBits : Nat
  deriving Repr, DecidableEq

/-- The 64-bit format. -/
def double : Format := ⟨52, 11⟩

/-- The 32-bit format. -/
def single : Format := ⟨23, 8⟩

/-- What a bit pattern stands for. -/
inductive Number where
  /-- No number. -/
  | nan
  /-- An infinity of the given sign. -/
  | infinite (negative : Bool)
  /-- The number `± mantissa * 2 ^ exponent`; `narrow` if the next smaller magnitude lies at half
  the distance of the next greater one. -/
  | finite (negative : Bool) (mantissa : Nat) (exponent : Int) (narrow : Bool)
  deriving Repr, DecidableEq

/-- The number that a bit pattern stands for. -/
def Format.decode (f : Format) (bits : Nat) : Number :=
  let fraction := bits % 1 <<< f.fractionBits
  let biased := bits >>> f.fractionBits % 1 <<< f.exponentBits
  let negative := bits >>> (f.fractionBits + f.exponentBits) % 2 == 1
  let least : Int := 2 - (1 <<< (f.exponentBits - 1) : Nat) - f.fractionBits
  if biased + 1 = 1 <<< f.exponentBits then
    if fraction = 0 then .infinite negative else .nan
  else if biased = 0 then
    .finite negative fraction least false
  else
    .finite negative (1 <<< f.fractionBits + fraction) (least + (biased - 1 : Nat))
      (fraction == 0 && biased != 1)

/-- The number in a 64-bit float. -/
def ofFloat (x : Float) : Number :=
  double.decode x.toBits.toNat

/-- The magnitude `mantissa * 2 ^ exponent` as a quotient. -/
def quotient (mantissa : Nat) (exponent : Int) : Nat × Nat :=
  if 0 ≤ exponent then (mantissa <<< exponent.toNat, 1) else (mantissa, 1 <<< (-exponent).toNat)

example : double.decode 0x3ff0000000000000 = .finite false (1 <<< 52) (-52) true := by decide
example : single.decode 0x80000000 = .finite true 0 (-149) false := by decide
example : double.decode 0x7ff0000000000000 = .infinite false := by decide

end DmaReadout.Decimal
