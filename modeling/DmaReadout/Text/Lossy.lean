/-! # Reading bytes as text

* `Partial`: a character of which some bytes are still to come.
* `lossyText`: the text of any bytes. Where no character stands, the replacement character does, once
  for every beginning of a character that breaks off and once for every byte that begins none. -/

namespace DmaReadout.Text

/-- A character of which some bytes are still to come. -/
structure Partial where
  /-- The bits so far. -/
  bits : Nat
  /-- The bytes that come after the next one. -/
  after : Nat
  /-- The least value of the next byte. -/
  least : UInt8
  /-- The greatest value of the next byte. -/
  greatest : UInt8
  deriving Repr, DecidableEq

namespace Partial

/-- The beginning of a character of more than one byte. The bounds of the second byte leave out what
has a shorter form, the surrogates and what lies beyond the last character. -/
def ofFirst? (b : UInt8) : Option Partial :=
  if b < 0xC2 then none
  else if b < 0xE0 then some ⟨b.toNat - 0xC0, 0, 0x80, 0xBF⟩
  else if b < 0xF0 then
    some ⟨b.toNat - 0xE0, 1, if b = 0xE0 then 0xA0 else 0x80, if b = 0xED then 0x9F else 0xBF⟩
  else if b < 0xF5 then
    some ⟨b.toNat - 0xF0, 2, if b = 0xF0 then 0x90 else 0x80, if b = 0xF4 then 0x8F else 0xBF⟩
  else none

/-- Whether a byte continues the character. -/
def continues (p : Partial) (b : UInt8) : Bool :=
  p.least ≤ b && b ≤ p.greatest

/-- The bits with those of a further byte. -/
def bitsWith (p : Partial) (b : UInt8) : Nat :=
  p.bits * 64 + (b.toNat - 0x80)

end Partial

/-- What stands for bytes that are no character. -/
def replacement : Char := '\uFFFD'

/-- The text so far, with the character that is not complete yet. -/
structure Reading where
  /-- The characters, the last one first. -/
  chars : List Char := []
  /-- The character that is not complete yet. -/
  partial? : Option Partial := none

namespace Reading

/-- The reading after a byte that begins something. -/
def begin (chars : List Char) (b : UInt8) : Reading :=
  if b < 0x80 then ⟨Char.ofNat b.toNat :: chars, none⟩
  else
    match Partial.ofFirst? b with
    | none => ⟨replacement :: chars, none⟩
    | some p => ⟨chars, some p⟩

/-- The reading after a byte. -/
def step (r : Reading) (b : UInt8) : Reading :=
  match r.partial? with
  | none => begin r.chars b
  | some p =>
    if !p.continues b then begin (replacement :: r.chars) b
    else if p.after = 0 then ⟨Char.ofNat (p.bitsWith b) :: r.chars, none⟩
    else ⟨r.chars, some ⟨p.bitsWith b, p.after - 1, 0x80, 0xBF⟩⟩

/-- All characters of a reading at its end. -/
def finish (r : Reading) : List Char :=
  (if r.partial?.isSome then replacement :: r.chars else r.chars).reverse

end Reading

/-- The text of any bytes. -/
def lossyText (bytes : ByteArray) : String :=
  String.ofList (bytes.foldl Reading.step {}).finish

end DmaReadout.Text
