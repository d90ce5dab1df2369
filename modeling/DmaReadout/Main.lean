import DmaReadout.Arguments
import DmaReadout.Bench
import DmaReadout.Console

/-! # The program

Runs the benchmark that the command line asks for, writes the files that the run has made, and
prints the report. -/

namespace DmaReadout

/-- Writes a file of a finished run to the disk. -/
def saveFile (files : Files) (path? : Option String) : IO Unit := do
  if let some path := path? then
    if let some content := files.read? path then
      IO.FS.writeBinFile path content.toBytes

/-- Runs a benchmark and prints its report, or the failure. -/
def runBench (options : Options) (config : Config) (bench : Bench) : IO UInt32 := do
  let before ← IO.monoNanosNow
  let timing : Timing Emulated := .steady false config.limits.drainTimeout
  let files := (Files.start.makeFolders config.outputFolder).2
  let (result, locks) := bench.execute timing ⟨files, []⟩
  match result with
  | .error misuse =>
    IO.eprintln s!"Error: {misuse.message}"
    return 101
  | .ok (.error e) =>
    saveFile locks.files (some (Files.join config.outputFolder errorFileName))
    IO.eprintln s!"Error: benchmark on card {config.card.render} failed: {e.message}"
    return 1
  | .ok (.ok report) =>
    saveFile locks.files report.dumpFile?
    saveFile locks.files report.errorFile?
    let after ← IO.monoNanosNow
    let report := { report with elapsed := ⟨after - before⟩ }
    IO.print (report.shown options.json options.verbose config.limits.consoleChars)
    return 0

end DmaReadout

open DmaReadout

/-- The program: zero if all went well. -/
def main (args : List String) : IO UInt32 := do
  match Options.parse args with
  | .error fault =>
    if fault.isRequest then
      IO.print fault.message
      return 0
    else
      IO.eprintln s!"error: {fault.message}"
      return 2
  | .ok options =>
    match options.toConfig with
    | .error e =>
      IO.eprintln s!"Error: {e.message}"
      return 1
    | .ok config =>
      match Bench.create config with
      | .error e =>
        IO.eprintln s!"Error: {e.message}"
        return 1
      | .ok bench => runBench options config bench
