import DmaReadout.Config
import DmaReadout.Reading

/-! # Options of the command line

* `Options`: what the command line can say.
* `UsageFault`: what can be wrong with it.
* `Options.toConfig`: the configuration that is asked for. -/

namespace DmaReadout

/-- Why a command line is not followed. -/
inductive UsageFault where
  | unknownArgument
  | repeated
  | unwantedValue
  | badChoice
  | badNumber
  | missing
  | help
  | version
  deriving Repr, DecidableEq

/-- What the command line can say. -/
structure Options where
  /-- The card. -/
  card : String := ""
  /-- The channel of the card. -/
  channel : UInt32 := 0
  /-- The number of pages; there is no limit if it is not positive. -/
  pages : Int := 1500
  /-- The size of the buffer. -/
  bufferSize : String := "10MB"
  /-- The size of a superpage in MiB. -/
  superpageMebibytes : Nat := 1
  /-- The size of a page in KiB. -/
  pageKibibytes : Nat := 8
  /-- Whether the channel is reset first. -/
  reset : Bool := false
  /-- Whether pages are copied as text. -/
  asciiFile : Bool := false
  /-- Whether pages are copied as raw bytes. -/
  binaryFile : Bool := false
  /-- Whether pages are not checked. -/
  noErrorCheck : Bool := false
  /-- What the card writes. -/
  pattern : Pattern := .incremental
  /-- How the card is made to send data. -/
  readoutMode? : Option ReadoutMode := none
  /-- Whether the expected counter goes on after a mismatch. -/
  noResync : Bool := false
  /-- Whether pages are overwritten after they were read. -/
  pageReset : Bool := false
  /-- Whether the registers are stressed. -/
  barHammer : Bool := false
  /-- Whether there are random pauses. -/
  randomPause : Bool := false
  /-- Whether the file behind the buffer is removed at the end. -/
  removePagesFile : Bool := false
  /-- Whether the status is shown. -/
  verbose : Bool := false
  /-- The path of the file behind the buffer. -/
  bufferPath? : Option String := none
  /-- The folder of copies and logs. -/
  outputFolder : String := "."
  /-- Whether the report is written for programs. -/
  json : Bool := false
  deriving Repr, DecidableEq

namespace Options

/-- A number of units in bytes, if it is neither zero nor too large. -/
def bytes? (unit count : Nat) : Option Nat :=
  if 0 < count * unit ∧ count * unit < sizeLimit then some (count * unit) else none

/-- The configuration that is asked for. -/
def toConfig (o : Options) : Except Error Config := do
  let card ← CardId.parse o.card
  let buffer ← BufferSize.parse o.bufferSize
  let superpageSize ← (bytes? mebibyte o.superpageMebibytes).elim
    (.error (.config (.superpageMebibytes o.superpageMebibytes))) .ok
  let pageSize ← (bytes? 1024 o.pageKibibytes).elim
    (.error (.config (.pageKibibytes o.pageKibibytes))) .ok
  let dump ← DumpMode.ofFlags o.asciiFile o.binaryFile
  return {
    card
    channel := o.channel
    maxPages? := pageLimit? o.pages
    buffer
    superpageSize
    pageSize
    reset := o.reset
    dump
    errorCheck := !o.noErrorCheck
    pattern := o.pattern
    readoutMode? := o.readoutMode?
    resync := !o.noResync
    pageReset := o.pageReset
    barHammer := o.barHammer
    randomPause := o.randomPause
    removePagesFile := o.removePagesFile
    verbose := o.verbose
    bufferPath? := o.bufferPath?
    outputFolder := o.outputFolder }

end Options

end DmaReadout
