import DmaReadout.Decimal.Binary

/-! # The fewest decimal digits that read back

A positive number `m * 2 ^ e` is read back from every decimal in the interval that reaches half-way
to its two neighbours, the ends included if `m` is even.

* `Scaled`: an integer times a power of ten.
* `shortest`: a decimal in that interval with the fewest digits, the nearest of those.
* `Style`, `Style.render`: how the digits are written down. -/

namespace DmaReadout.Decimal

/-- The number `digits * 10 ^ scale`. -/
structure Scaled where
  /-- The digits, read as one integer. -/
  digits : Nat
  /-- The power of ten of the last digit. -/
  scale : Int
  deriving Repr, DecidableEq

/-- The exponent `k` with `10 ^ k ≤ num / den < 10 ^ (k + 1)`. -/
def magnitude (num den : Nat) : Int :=
  if den ≤ num then ((num / den).repr.length : Int) - 1
  else
    let d := (den / num).repr.length
    if den = num * Nat.pow 10 (d - 1) then 1 - (d : Int) else -(d : Int)

/-- The interval of the numbers that read back, over one denominator. -/
structure Interval where
  /-- Numerator of the lower end. -/
  lower : Nat
  /-- Numerator of the number itself. -/
  value : Nat
  /-- Numerator of the upper end. -/
  upper : Nat
  /-- The common denominator. -/
  den : Nat
  /-- Whether the ends belong to it. -/
  closed : Bool

/-- The interval around `m * 2 ^ e`. -/
def Interval.around (m : Nat) (e : Int) (narrow : Bool) : Interval :=
  let (scale, den) := quotient 1 (e - 2)
  { lower := (4 * m - if narrow then 1 else 2) * scale
    value := 4 * m * scale
    upper := (4 * m + 2) * scale
    den := den
    closed := m % 2 == 0 }

/-- Whether `d` lies in the interval. -/
def Interval.contains (i : Interval) (d : Scaled) : Bool :=
  let (n, m) := if 0 ≤ d.scale then (d.digits * Nat.pow 10 d.scale.toNat, 1)
    else (d.digits, Nat.pow 10 (-d.scale).toNat)
  if i.closed then i.lower * m ≤ n * i.den && n * i.den ≤ i.upper * m
  else i.lower * m < n * i.den && n * i.den < i.upper * m

/-- The two neighbours of the number on the grid of multiples of `10 ^ scale`, the nearer first;
a tie goes to the even one. -/
def Interval.neighbours (i : Interval) (scale : Int) : List Scaled :=
  let (num, den) := if 0 ≤ scale then (i.value, i.den * Nat.pow 10 scale.toNat)
    else (i.value * Nat.pow 10 (-scale).toNat, i.den)
  let q := num / den
  let r := num % den
  if 2 * r < den ∨ (2 * r = den ∧ q % 2 = 0) then [⟨q, scale⟩, ⟨q + 1, scale⟩]
  else [⟨q + 1, scale⟩, ⟨q, scale⟩]

/-- The first grid with a hit, for `left` more digit counts starting with `count`. -/
def Interval.search (i : Interval) (top : Int) : (left count : Nat) → Scaled
  | 0, count => (i.neighbours (top - count)).headD ⟨0, 0⟩
  | left + 1, count =>
    match (i.neighbours (top + 1 - count)).find? i.contains with
    | some d => d
    | none => i.search top left (count + 1)

/-- A decimal with the fewest digits that reads back as `m * 2 ^ e`. Seventeen digits suffice for
every number of the 64-bit format. -/
def shortest (m : Nat) (e : Int) (narrow : Bool) : Scaled :=
  let i := Interval.around m e narrow
  i.search (magnitude i.value i.den) 17 1

/-- The digits without trailing zeros, for at most `fuel` of them. -/
def Scaled.strip (d : Scaled) : (fuel : Nat) → Scaled
  | 0 => d
  | fuel + 1 =>
    if d.digits ≠ 0 ∧ d.digits % 10 = 0 then Scaled.strip ⟨d.digits / 10, d.scale + 1⟩ fuel else d

/-- How digits are written: without an exponent if the power of ten of the first digit is at least
`plainFrom` and below `plainBelow`. -/
structure Style where
  /-- The least power of ten written without an exponent. -/
  plainFrom : Int
  /-- The first power of ten written with an exponent. -/
  plainBelow : Int
  deriving Repr, DecidableEq

/-- A text of `n` zeros. -/
def zeros (n : Nat) : String :=
  String.ofList (List.replicate n '0')

/-- The text of positive decimal digits. A whole number without exponent ends in `.0`; the sign of
an exponent is always written. -/
def Style.renderDecimal (s : Style) (d : Scaled) : String :=
  let d := d.strip 20
  let text := d.digits.repr
  let n : Int := text.length
  let e := d.scale + n - 1
  if s.plainFrom ≤ e ∧ e < s.plainBelow then
    if 0 ≤ d.scale then text ++ zeros d.scale.toNat ++ ".0"
    else if 0 ≤ e then
      let cs := text.toList
      String.ofList (cs.take (e + 1).toNat) ++ "." ++ String.ofList (cs.drop (e + 1).toNat)
    else "0." ++ zeros (-e - 1).toNat ++ text
  else
    let cs := text.toList
    let mantissa :=
      String.ofList (cs.take 1) ++ (if n = 1 then "" else "." ++ String.ofList (cs.drop 1))
    mantissa ++ "e" ++ (if e < 0 then "-" else "+") ++ e.natAbs.repr

/-- The text of a finite number; none for the others. -/
def Style.render? (s : Style) : Number → Option String
  | .finite negative m e narrow =>
    let body := if m = 0 then "0.0" else s.renderDecimal (shortest m e narrow)
    some ((if negative then "-" else "") ++ body)
  | _ => none

end DmaReadout.Decimal
