import DmaReadout.Decimal.Fixed
import DmaReadout.Files
import DmaReadout.Mismatch
import DmaReadout.Status
import DmaReadout.Throughput

/-! # The report of a run

* `Report`: what a finished run has found.
* `Report.renderStats`: the table of figures.
* `Report.consoleErrors`: the beginning of the log of mismatches.
* `Report.partitionComplete`: whether every superpage came back once. -/

namespace DmaReadout

/-- What a finished run has found. -/
structure Report where
  /-- The family of the card. -/
  family : Family
  /-- The bytes of a page. -/
  pageSize : Nat
  /-- The time that the run took. -/
  elapsed : Duration
  /-- The counters. -/
  stats : Stats
  /-- Whether pages were checked. -/
  errorCheck : Bool
  /-- Whether the registers were stressed. -/
  barHammer : Bool
  /-- The pages that came back at the end without being read. -/
  drainedPages : Nat
  /-- The number of superpages of the buffer. -/
  superpages : Nat
  /-- The offsets of the superpages that came back, in rising order. -/
  reclaimed : List Nat
  /-- The mismatches. -/
  log : ErrorLog
  /-- The path of the copy of the pages. -/
  dumpFile? : Option String := none
  /-- The path of the log of mismatches. -/
  errorFile? : Option String := none

/-- The name of the file with the log of mismatches. -/
def errorFileName : String := "readout_errors.txt"

/-- The path of the log of mismatches, and the files with it. -/
def writeErrorFile (fs : Files) (log : ErrorLog) (folder : String) :
    Except Error (String × Files) :=
  let path := Files.join folder errorFileName
  match fs.write path log.text.toUTF8 with
  | .error e => .error (.file e)
  | .ok fs => .ok (path, fs)

namespace Report

/-- The rate of reading. -/
def throughput (r : Report) : Throughput :=
  .compute r.stats.read r.pageSize r.elapsed

/-- The rate of the register stress, if there was one. -/
def hammer? (r : Report) : Option HammerThroughput :=
  if r.barHammer then some (.compute r.stats.hammered r.elapsed) else none

/-- Whether the offsets that came back are those of all superpages, each of them once. -/
def partitionComplete (r : Report) (superpageSize : Nat) : Bool :=
  r.reclaimed.length == r.superpages &&
    r.reclaimed == (List.range r.reclaimed.length).map (· * superpageSize)

/-- A line of the table. -/
def tableLine (label value : String) : String :=
  "  " ++ Text.padRight 10 label ++ "  " ++ Text.padRight 10 value ++ "\n"

/-- A figure with a fixed number of decimal places. -/
def figure (places : Nat) (x : Float) : String :=
  Decimal.fixed places (Decimal.ofFloat x)

/-- The lines on the rate of reading. -/
def throughputLines (r : Report) : List (String × String) :=
  let t := r.throughput
  [("Seconds", figure 3 t.seconds), ("Pages", t.pages.toNat.repr)] ++
    if 0 < t.bytes then
      [("Bytes", figure 0 t.bytes), ("GB", figure 6 t.gigabytes),
        ("GB/s", figure 6 t.gigabytesPerSecond), ("Gb/s", figure 6 t.gigabitsPerSecond),
        ("Errors", errorCountText r.errorCheck r.stats.errors)]
    else []

/-- The lines on the register stress. -/
def hammerLines (h : HammerThroughput) : List (String × String) :=
  [("BAR writes", h.writes.toNat.repr), ("BAR write size (bytes)", h.writeSize.repr),
    ("BAR MB", figure 6 h.megabytes), ("BAR MB/s", figure 6 h.megabytesPerSecond)]

/-- The table of figures. -/
def renderStats (r : Report) : String :=
  let lines := r.throughputLines ++ (r.hammer?.map hammerLines).getD []
  "\n" ++ String.join (lines.map fun l => tableLine l.1 l.2) ++ "\n"

/-- The log of mismatches, cut after `limit` characters; none if it is empty. -/
def consoleErrors (r : Report) (limit : Nat) : Option String :=
  let text := r.log.text
  if text = "" then none
  else if text.length ≤ limit then some ("Errors:\n" ++ text)
  else
    let shown := String.ofList (text.toList.take limit)
    let left := text.utf8ByteSize - shown.utf8ByteSize
    some ("Errors:\n" ++ shown ++ "\n... more follow (" ++ left.repr ++ " characters)\n")

theorem partitionComplete_iff (r : Report) (superpageSize : Nat) :
    r.partitionComplete superpageSize = true ↔
      r.reclaimed = (List.range r.superpages).map (· * superpageSize) := by
  simp only [partitionComplete, Bool.and_eq_true, beq_iff_eq]
  constructor
  · rintro ⟨h, e⟩
    rwa [h] at e
  · intro e
    have h : r.reclaimed.length = r.superpages := by rw [e]; simp
    exact ⟨h, by rw [h]; exact e⟩

end Report

end DmaReadout
