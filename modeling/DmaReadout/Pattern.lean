import DmaReadout.Text.Blank
import DmaReadout.Text.Numeral

/-! # Data patterns and readout modes

* `Pattern`: the word sequences that a card's data generator can write.
* `ReadoutMode`: how a card is made to send data.
* `Pattern.ofText?`, `ReadoutMode.ofText?`: names are read in either case, blanks around them are
  dropped. -/

namespace DmaReadout

/-- A word of the DMA buffer. -/
abbrev Word := UInt32

/-- The word sequence that a data generator writes. -/
inductive Pattern where
  /-- Words derived from a counter, different for every page. -/
  | incremental
  /-- One word of alternating bits. -/
  | alternating
  /-- One constant word. -/
  | constant
  /-- Arbitrary words, which cannot be checked. -/
  | random
  deriving Repr, DecidableEq

namespace Pattern

/-- All patterns, in the order of the command line. -/
def all : List Pattern := [incremental, alternating, constant, random]

/-- The upper-case name of a pattern. -/
def name : Pattern → String
  | incremental => "INCREMENTAL"
  | alternating => "ALTERNATING"
  | constant => "CONSTANT"
  | random => "RANDOM"

/-- Whether pages of this pattern can be checked. -/
def verifiable (p : Pattern) : Bool :=
  p != random

/-- The word of a pattern that does not depend on the position. -/
def fixedWord? : Pattern → Option Word
  | alternating => some 0xA5A5A5A5
  | constant => some 0x12345678
  | incremental | random => none

/-- The pattern with exactly this name, in either case. -/
def named? (cs : List Char) : Option Pattern :=
  all.find? fun p => Text.sameLetters p.name.toList cs

/-- The pattern that a text names. -/
def ofText? (s : String) : Option Pattern :=
  named? (Text.trimChars s.toList)

theorem verifiable_iff (p : Pattern) : p.verifiable = true ↔ p ≠ random := by
  simp [verifiable]

end Pattern

/-- How a card is made to send data. -/
inductive ReadoutMode where
  /-- Data flows without waiting for triggers. -/
  | continuous
  deriving Repr, DecidableEq

namespace ReadoutMode

/-- The upper-case name of a mode. -/
def name : ReadoutMode → String
  | continuous => "CONTINUOUS"

/-- The mode with exactly this name, in either case. -/
def named? (cs : List Char) : Option ReadoutMode :=
  if Text.sameLetters continuous.name.toList cs then some continuous else none

/-- The mode that a text names. -/
def ofText? (s : String) : Option ReadoutMode :=
  named? (Text.trimChars s.toList)

end ReadoutMode

end DmaReadout
