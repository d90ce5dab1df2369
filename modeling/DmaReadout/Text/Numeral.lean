/-! # Numerals and columns

* `natural?`, `integer?`: decimal numerals with at most one leading sign.
* `hex`, `fixedHex`: lower-case hexadecimal digits.
* `padRight`, `padZero`: a text filled up to a width. -/

namespace DmaReadout.Text

/-- Whether a character is one of the ten ASCII digits. -/
def isDigit (c : Char) : Bool :=
  '0' ≤ c && c ≤ '9'

/-- Whether a character is an ASCII hexadecimal digit of either case. -/
def isHexDigit (c : Char) : Bool :=
  isDigit c || ('a' ≤ c && c ≤ 'f') || ('A' ≤ c && c ≤ 'F')

/-- The value of decimal digits, the most significant first. -/
def digitsValue (cs : List Char) : Nat :=
  cs.foldl (fun n c => 10 * n + (c.toNat - '0'.toNat)) 0

/-- The value of a nonempty list of ASCII digits. -/
def digits? (cs : List Char) : Option Nat :=
  if cs ≠ [] ∧ cs.all isDigit then some (digitsValue cs) else none

/-- The value of a numeral: digits, after one `+` or none. -/
def natural? : List Char → Option Nat
  | '+' :: cs => digits? cs
  | cs => digits? cs

/-- The value of a numeral below `bound`. -/
def naturalBelow? (bound : Nat) (cs : List Char) : Option Nat :=
  (natural? cs).filter (· < bound)

/-- The value of a signed numeral: digits, after one `+`, one `-` or no sign. -/
def integer? : List Char → Option Int
  | '-' :: cs => (digits? cs).map fun n => -(n : Int)
  | cs => (natural? cs).map Int.ofNat

/-- The value of a signed numeral from `lo` to `hi`. -/
def integerWithin? (lo hi : Int) (cs : List Char) : Option Int :=
  (integer? cs).filter fun n => lo ≤ n && n ≤ hi

/-- Whether two texts agree when the ASCII letters are taken in lower case. -/
def sameLetters (a b : List Char) : Bool :=
  a.map Char.toLower == b.map Char.toLower

/-- The hexadecimal digits of a number, in lower case. -/
def hex (n : Nat) : String :=
  String.ofList (Nat.toDigits 16 n)

/-- The text with zeros in front, up to `width` characters. -/
def padZero (width : Nat) (s : String) : String :=
  String.ofList (List.replicate (width - s.length) '0') ++ s

/-- The text with blanks behind, up to `width` characters. -/
def padRight (width : Nat) (s : String) : String :=
  s ++ String.ofList (List.replicate (width - s.length) ' ')

/-- The hexadecimal digits of a number, with zeros in front up to `width`. -/
def fixedHex (width n : Nat) : String :=
  padZero width (hex n)

theorem digits?_eq_some_iff {cs : List Char} {n : Nat} :
    digits? cs = some n ↔ cs ≠ [] ∧ cs.all isDigit ∧ digitsValue cs = n := by
  simp only [digits?, Option.ite_none_right_eq_some, Option.some.injEq, and_assoc]

/-- The digits that a number is written with have its value. -/
theorem digits?_toDigits (n : Nat) : digits? (Nat.toDigits 10 n) = some n := by
  have hdigits : ∀ c ∈ Nat.toDigits 10 n, isDigit c = true := fun _ hc =>
    Nat.isDigit_of_mem_toDigits (by decide) (by decide) hc
  exact digits?_eq_some_iff.2
    ⟨Nat.toDigits_ne_nil, List.all_eq_true.2 hdigits, Nat.ofDigitChars_ten_toDigits⟩

end DmaReadout.Text
