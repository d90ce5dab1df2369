import DmaReadout.Options
import DmaReadout.Summary

/-! # What the command line shows

* `usageText`, `UsageFault.message`: how the program is called.
* `Report.shown`: the report of a run as it is printed. -/

namespace DmaReadout

/-- The options with what they mean. -/
def optionLines : List (String × String) :=
  [("--id <CARD>", "Card: PCI address (42:00.0), serial number, emu-cru or emu-crorc"),
    ("--channel <CHANNEL>", "DMA channel"),
    ("--pages <PAGES>", "Pages to read out; 0 or less runs until interrupted [default: 1500]"),
    ("--buffer-size <SIZE>", "DMA buffer size, e.g. 10MB or 1GB [default: 10MB]"),
    ("--superpage-size <MIB>", "Superpage size in MiB [default: 1]"),
    ("--dma-page-size <KIB>", "DMA page size in KiB [default: 8]"),
    ("--reset", "Reset the channel before starting DMA"),
    ("--to-file-ascii", "Dump pages to readout_data.txt"),
    ("--to-file-bin", "Dump pages to readout_data.bin"),
    ("--no-errorcheck", "Skip data error checking"),
    ("--pattern <PATTERN>",
      "Data generator pattern: incremental, alternating, constant or random"),
    ("--readout-mode <MODE>", "Readout mode: continuous"),
    ("--no-resync", "Keep the expected counter running after a mismatch"),
    ("--page-reset", "Stamp every page with 0xCCCCCCCC after reading it"),
    ("--bar-hammer", "Stress the BAR with register writes during readout (CRU only)"),
    ("--random-pause", "Inject random pauses into the push and readout loops"),
    ("--rm-pages-file", "Remove the hugetlbfs pages file at exit"),
    ("-v, --verbose", "Live status display and console error log"),
    ("--buffer-path <PATH>", "Use this file for the DMA buffer"),
    ("--output-dir <DIR>", "Directory for readout_data.* and readout_errors.txt [default: .]"),
    ("--json", "Print the final report as JSON"),
    ("-h, --help", "Print help"),
    ("-V, --version", "Print version")]

/-- How the program is called. -/
def usageText : String :=
  "Usage: roc-dma-bench [OPTIONS] --id <CARD> --channel <CHANNEL>\n\nOptions:\n" ++
    String.join (optionLines.map fun l => "  " ++ Text.padRight 24 l.1 ++ "  " ++ l.2 ++ "\n")

/-- The text of a command line that is not followed. -/
def UsageFault.message : UsageFault → String
  | unknownArgument => "unexpected argument"
  | repeated => "an argument cannot be used multiple times"
  | unwantedValue => "unexpected value for a flag"
  | badChoice => "a value is required or not one of the possible values"
  | badNumber => "invalid number"
  | missing => "the required arguments --id and --channel were not provided"
  | help => usageText
  | version => "roc-dma-bench\n"

/-- Whether a request for a text was followed, rather than refused. -/
def UsageFault.isRequest : UsageFault → Bool
  | help | version => true
  | _ => false

/-- The report of a run as it is printed. -/
def Report.shown (r : Report) (json verbose : Bool) (consoleChars : Nat) : String :=
  if json then r.summary.render ++ "\n"
  else
    let errors := if verbose then (r.consoleErrors consoleChars).map ("\n" ++ ·) else none
    errors.getD "" ++ r.renderStats

end DmaReadout
