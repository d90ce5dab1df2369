import DmaReadout.Text.Blank
import DmaReadout.Text.Numeral

/-! # Cards

* `Family`: the two kinds of readout card.
* `CardId`: how a card is addressed, with its text form `CardId.render`.
* `CardId.ofText?`: reads a card id from a text; blanks around it are dropped. -/

namespace DmaReadout

/-- The kinds of readout card. -/
inductive Family where
  /-- The older card: the event counter is in a page's header. -/
  | crorc
  /-- The newer card: the event counter is in every eighth word. -/
  | cru
  deriving Repr, DecidableEq

namespace Family

/-- The name of a family for readers. -/
def name : Family → String
  | crorc => "C-RORC"
  | cru => "CRU"

/-- The name of a family in data files. -/
def key : Family → String
  | crorc => "CRORC"
  | cru => "CRU"

/-- Whether the register stress may run on cards of this family. -/
def supportsHammer : Family → Bool
  | crorc => false
  | cru => true

end Family

/-- How a card is addressed. -/
inductive CardId where
  /-- The address on the bus, `bus:device.function`. -/
  | pci (address : String)
  /-- The serial number. -/
  | serial (number : UInt32)
  /-- The emulated card of a family. -/
  | emulated (family : Family)
  deriving Repr, DecidableEq

namespace CardId

/-- The family of a card, if it is known before the card is opened. -/
def family? : CardId → Option Family
  | emulated f => some f
  | pci _ | serial _ => none

/-- The text of a card id. -/
def render : CardId → String
  | pci address => address
  | serial number => number.toNat.repr
  | emulated .cru => "emu-cru"
  | emulated .crorc => "emu-crorc"

/-- The two parts of a text around the first `c`. -/
def cut? (c : Char) (cs : List Char) : Option (List Char × List Char) :=
  match cs.dropWhile (· != c) with
  | [] => none
  | _ :: rest => some (cs.takeWhile (· != c), rest)

/-- Whether a text has between one and `most` hexadecimal digits and nothing else. -/
def isHexField (most : Nat) (cs : List Char) : Bool :=
  cs ≠ [] && cs.length ≤ most && cs.all Text.isHexDigit

/-- Whether a text has the form `bus:device.function`: one to four and one or two hexadecimal digits
and one octal digit. -/
def isAddress (cs : List Char) : Bool :=
  match cut? ':' cs with
  | none => false
  | some (bus, rest) =>
    match cut? '.' rest with
    | none => false
    | some (device, function) =>
      isHexField 4 bus && isHexField 2 device &&
        match function with
        | [c] => '0' ≤ c && c ≤ '7'
        | _ => false

/-- The emulated card that a text names, in either case. -/
def emulatedNamed? (cs : List Char) : Option Family :=
  if Text.sameLetters cs "emu-cru".toList || Text.sameLetters cs "emulator".toList then some .cru
  else if Text.sameLetters cs "emu-crorc".toList then some .crorc
  else none

/-- The card that characters without blanks around them address. -/
def ofChars? (cs : List Char) : Option CardId :=
  match emulatedNamed? cs with
  | some f => some (emulated f)
  | none =>
    if isAddress cs then some (pci (String.ofList cs))
    else (Text.naturalBelow? (1 <<< 32) cs).map fun n => serial n.toUInt32

/-- The card that a text addresses. -/
def ofText? (s : String) : Option CardId :=
  ofChars? (Text.trimChars s.toList)

/-- The key of one channel of a card in file names. -/
def channelKey (id : CardId) (channel : UInt32) : String :=
  "roc-dma-bench_id=" ++ id.render ++ "_chan=" ++ channel.toNat.repr

/-- The name of the lock file of one channel of a card. -/
def lockName (id : CardId) (channel : UInt32) : String :=
  id.channelKey channel ++ ".lock"

end CardId

end DmaReadout
