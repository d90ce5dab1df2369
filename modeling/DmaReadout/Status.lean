import DmaReadout.Decimal.Fixed
import DmaReadout.Duration
import DmaReadout.Sink
import DmaReadout.Stats
import DmaReadout.Text.Numeral

/-! # The status line

* `statusHeader`, `statusLine`: the texts.
* `StatusDisplay`: writes one line over the other and moves to a new line once in an interval. -/

namespace DmaReadout

/-- The columns of the status, filled up with blanks. -/
def statusColumns (pushed read errors temperature : String) : String :=
  Text.padRight 12 pushed ++ "  " ++ Text.padRight 12 read ++ "  " ++ Text.padRight 12 errors ++
    "  " ++ Text.padRight 5 temperature

/-- The names of the columns, with a first line without values below them. -/
def statusHeader : String :=
  "\n  " ++ Text.padRight 8 "Time" ++ "   " ++ statusColumns "Pushed" "Read" "Errors" "°C" ++
    "\n  00:00:00   " ++ statusColumns "-" "-" "-" "-"

/-- Hours, minutes and seconds, each with two digits at least. -/
def clockText (seconds : Nat) : String :=
  let two n := Text.padZero 2 (Nat.repr n)
  two (seconds / 3600) ++ ":" ++ two (seconds / 60 % 60) ++ ":" ++ two (seconds % 60)

/-- A temperature with one decimal place, given as the bits of a 32-bit float. -/
def temperatureText : Option UInt32 → String
  | none => "n/a"
  | some bits => Decimal.fixed 1 (Decimal.single.decode bits.toNat)

/-- A number of mismatches, if pages are checked. -/
def errorCountText (errorCheck : Bool) (errors : UInt64) : String :=
  if errorCheck then errors.toNat.repr else "n/a"

/-- The line of one moment; it begins where the line before began. -/
def statusLine (errorCheck : Bool) (elapsed : Duration) (stats : Stats)
    (temperature? : Option UInt32) : String :=
  "\r  " ++ clockText elapsed.seconds ++ "   " ++
    statusColumns stats.pushed.toNat.repr stats.read.toNat.repr
      (errorCountText errorCheck stats.errors) (temperatureText temperature?)

/-- The status display between two lines. -/
structure StatusDisplay where
  /-- Where the text goes. -/
  sink : Sink
  /-- Whether pages are checked. -/
  errorCheck : Bool
  /-- The seconds between two new lines. -/
  interval : Nat
  /-- Whether the header was written. -/
  headed : Bool := false
  /-- Whether a new line is due at the end of the interval. -/
  pending : Bool := false

namespace StatusDisplay

/-- A display that moves to a new line once in a number of whole seconds, at least in one. -/
def create (sink : Sink) (errorCheck : Bool) (interval : Duration) : StatusDisplay :=
  { sink, errorCheck, interval := max interval.seconds 1 }

/-- The display after a text was written. -/
def write (d : StatusDisplay) (text : String) : Except FileFault Unit × StatusDisplay :=
  match d.sink.takeText text with
  | (r, sink) => (r, { d with sink })

/-- The display with its header. -/
def head (d : StatusDisplay) : Except FileFault Unit × StatusDisplay :=
  if d.headed then (.ok (), d)
  else
    match d.write statusHeader with
    | (.error e, d) => (.error e, d)
    | (.ok _, d) => (.ok (), { d with headed := true })

/-- The display after a new line, if one is due. -/
def scroll (d : StatusDisplay) (phase : Nat) : Except FileFault Unit × StatusDisplay :=
  if d.pending && phase = 0 then
    match d.write "\n" with
    | (.error e, d) => (.error e, d)
    | (.ok _, d) => (.ok (), { d with pending := false })
  else (.ok (), d)

/-- The display after the line of one moment. What fails ends the update. -/
def update (d : StatusDisplay) (elapsed : Duration) (stats : Stats)
    (temperature? : Option UInt32) : Except FileFault Unit × StatusDisplay :=
  match d.head with
  | (.error e, d) => (.error e, d)
  | (.ok _, d) =>
    match d.write (statusLine d.errorCheck elapsed stats temperature?) with
    | (.error e, d) => (.error e, d)
    | (.ok _, d) =>
      let phase := elapsed.seconds % d.interval
      match d.scroll phase with
      | (.error e, d) => (.error e, d)
      | (.ok _, d) => (.ok (), if 1 ≤ phase then { d with pending := true } else d)

end StatusDisplay

end DmaReadout
