import DmaReadout.Decimal.Binary
import DmaReadout.Text.Numeral

/-! # A fixed number of decimal places

* `roundHalfEven`: the integer nearest to a quotient, the even one of two that are equally near.
* `fixed`: a number with a fixed number of decimal places, rounded from its exact value. -/

namespace DmaReadout.Decimal

/-- The integer nearest to `num / den`; a tie goes to the even neighbour. -/
def roundHalfEven (num den : Nat) : Nat :=
  let q := num / den
  let r := num % den
  if 2 * r < den ∨ (2 * r = den ∧ q % 2 = 0) then q else q + 1

/-- The text of `n / 10 ^ places`, with exactly `places` digits behind the point. -/
def placed (places n : Nat) : String :=
  if places = 0 then n.repr
  else
    (n / Nat.pow 10 places).repr ++ "." ++ Text.padZero places (n % Nat.pow 10 places).repr

/-- The text of a number with `places` decimal places. The sign of zero is kept. -/
def fixed (places : Nat) : Number → String
  | .nan => "NaN"
  | .infinite negative => if negative then "-inf" else "inf"
  | .finite negative m e _ =>
    let (num, den) := quotient m e
    (if negative then "-" else "") ++ placed places (roundHalfEven (num * Nat.pow 10 places) den)

end DmaReadout.Decimal
