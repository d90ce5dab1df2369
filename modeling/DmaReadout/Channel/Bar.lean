import DmaReadout.Card
import DmaReadout.Pattern

/-! # Registers of a card

* `Bar`: the register file of a card.
* `Bar.modify`: replaces some bits of a register. -/

namespace DmaReadout

/-- The number of registers. -/
def registerCount : Nat := 1024

/-- The register that may be written freely. -/
def debugRegister : Nat := 4

/-- The register file of a card. -/
structure Bar where
  /-- The family of the card. -/
  family : Family
  /-- The registers. -/
  registers : Array Word
  deriving Repr, DecidableEq

namespace Bar

/-- Registers that are all zero. -/
def zeroed (family : Family) : Bar :=
  ⟨family, Array.replicate registerCount 0⟩

/-- The contents of a register; all ones where there is none. -/
def read (b : Bar) (index : Nat) : Word :=
  b.registers.getD index 0xFFFFFFFF

/-- The registers after a write; nothing happens where there is no register. -/
def write (b : Bar) (index : Nat) (w : Word) : Bar :=
  match b with
  | ⟨family, registers⟩ => ⟨family, registers.setIfInBounds index w⟩

/-- `w` moved up by `position` bits; nothing is left from 32 bits on. -/
def shiftedUp (w : Word) (position : Nat) : Word :=
  if position < 32 then w <<< position.toUInt32 else 0

/-- The lowest `width` bits. -/
def lowBits (width : Nat) : Word :=
  if width < 32 then (1 <<< width.toUInt32) - 1 else 0xFFFFFFFF

/-- The registers with `width` bits of one of them, from `position` on, replaced by the low bits of
`value`. -/
def modify (b : Bar) (index position width : Nat) (value : Word) : Bar :=
  if width = 0 then b
  else
    let mask := shiftedUp (lowBits width) position
    b.write index ((b.read index &&& ~~~mask) ||| (shiftedUp value position &&& mask))

/-- The temperature in degrees Celsius as the bits of a 32-bit float, if the card measures it. -/
def temperature? (b : Bar) : Option UInt32 :=
  match b.family with
  | .cru => some 0x42340000
  | .crorc => none

end Bar

end DmaReadout
