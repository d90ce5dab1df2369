import DmaReadout.BufferSize
import DmaReadout.Dump
import DmaReadout.Layout
import DmaReadout.Pause

/-! # Configuration of a run

* `Config`: everything that is asked for; `Config.standard`: what holds if nothing is said.
* `Config.validate`: the conditions that need no card.
* `Config.prepare`: the layout of a run that may be started. -/

namespace DmaReadout

/-- The limits of a run. -/
structure Limits where
  /-- The mismatches that are kept in the log. -/
  maxRecorded : Nat := 1000
  /-- The writes in one round of the register stress. -/
  hammerMultiplier : Nat := 10000
  /-- The time between two looks of the monitor. -/
  monitorInterval : Duration := .ofMillis 10
  /-- The time after which the status moves to a new line. -/
  displayInterval : Duration := .ofParts 60 0
  /-- The time that superpages may take to come back from the channel at the end. -/
  drainTimeout : Duration := .ofMillis 10
  /-- The characters of the log that are shown. -/
  consoleChars : Nat := 2000
  /-- The bounds of random pauses. -/
  pause : PauseRange := .standard
  deriving Repr, DecidableEq

/-- A configuration of a run. -/
structure Config where
  /-- The card. -/
  card : CardId
  /-- The channel of the card. -/
  channel : UInt32
  /-- The pages to read; none to read until interrupted. -/
  maxPages? : Option UInt64 := some 1500
  /-- The size of the buffer. -/
  buffer : BufferSize := ⟨10 * mebibyte, .small⟩
  /-- The bytes of a superpage. -/
  superpageSize : Nat := mebibyte
  /-- The bytes of a page. -/
  pageSize : Nat := 8192
  /-- Whether the channel is reset first. -/
  reset : Bool := false
  /-- How pages are copied. -/
  dump : DumpMode := .none
  /-- Whether pages are checked. -/
  errorCheck : Bool := true
  /-- What the card writes. -/
  pattern : Pattern := .incremental
  /-- How the card is made to send data. -/
  readoutMode? : Option ReadoutMode := none
  /-- Whether the counter is taken from the page again after a mismatch. -/
  resync : Bool := true
  /-- Whether pages are overwritten after they were read. -/
  pageReset : Bool := false
  /-- Whether the registers are stressed. -/
  barHammer : Bool := false
  /-- Whether there are random pauses. -/
  randomPause : Bool := false
  /-- Whether the file behind the buffer is removed at the end. -/
  removePagesFile : Bool := false
  /-- Whether the status is shown. -/
  verbose : Bool := false
  /-- The path of the file behind the buffer, if it is not the usual one. -/
  bufferPath? : Option String := none
  /-- The folder of copies and logs. -/
  outputFolder : String := "."
  /-- The limits. -/
  limits : Limits := {}
  deriving Repr, DecidableEq

/-- The folder of the files behind buffers. -/
def hugePageRoot : String := "/var/lib/hugetlbfs/global"

/-- The usual path of the file behind the buffer of one channel of a card. -/
def defaultBufferPath (page : HugePage) (card : CardId) (channel : UInt32) : String :=
  hugePageRoot ++ "/pagesize-" ++ page.label ++ "/" ++ card.channelKey channel ++ "_pages"

/-- The limit that a number of pages stands for; none if it is not positive. -/
def pageLimit? (pages : Int) : Option UInt64 :=
  if 0 < pages then some pages.toNat.toUInt64 else none

namespace Config

/-- The configuration of a run if nothing is said but the channel. -/
def standard (card : CardId) (channel : UInt32) : Config := { card, channel }

/-- The path of the file behind the buffer. -/
def bufferPath (c : Config) : String :=
  c.bufferPath?.getD (defaultBufferPath c.buffer.hugePage c.card c.channel)

/-- The conditions that need no card. -/
def validate (c : Config) : Except Error Unit :=
  if c.pageSize = 0 ∨ c.pageSize % 4 ≠ 0 then .error (.config (.pageSize c.pageSize))
  else if c.superpageSize < c.pageSize ∨ c.superpageSize % c.pageSize ≠ 0 then
    .error (.config (.superpageSize c.superpageSize c.pageSize))
  else if c.buffer.bytes < c.superpageSize then
    .error (.config (.bufferBelowSuperpage c.buffer.bytes c.superpageSize))
  else if c.limits.hammerMultiplier = 0 then .error (.config .hammerMultiplier)
  else if c.limits.monitorInterval.nanos = 0 then .error (.config .monitorInterval)
  else c.limits.pause.validate

/-- Whether the register stress is asked for on a card that is known not to allow it. -/
def hammerRefused? (c : Config) : Option Family :=
  c.card.family?.filter fun f => c.barHammer && !f.supportsHammer

/-- The layout of the buffer, if the run may be started. -/
def prepare (c : Config) : Except Error Layout :=
  match c.validate with
  | .error e => .error e
  | .ok () =>
    match Layout.ofSizes c.buffer.bytes c.superpageSize c.pageSize with
    | .error e => .error e
    | .ok layout =>
      if c.errorCheck && !c.pattern.verifiable then .error (.unsupportedPattern c.pattern)
      else
        match c.hammerRefused? with
        | some f => .error (.capability (.hammer f))
        | none => .ok layout

end Config

end DmaReadout
