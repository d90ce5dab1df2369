import DmaReadout.Decimal.Shortest
import DmaReadout.Report

/-! # The summary for programs

* `Value`: a value of a data file, with its text.
* `Report.summary`: the figures of a report as a text for other programs. -/

namespace DmaReadout

/-- A value of a data file. -/
inductive Value where
  /-- A number or a name that is written as it is. -/
  | bare (text : String)
  /-- A text in quotes. -/
  | quoted (text : String)
  /-- Named values in order. -/
  | record (fields : List (String × Value))

namespace Value

/-- The text of a character in quotes. -/
def escapeChar (c : Char) : String :=
  if c = '"' then "\\\""
  else if c = '\\' then "\\\\"
  else if c = '\x08' then "\\b"
  else if c = '\x09' then "\\t"
  else if c = '\x0a' then "\\n"
  else if c = '\x0c' then "\\f"
  else if c = '\x0d' then "\\r"
  else if c.toNat < 0x20 then "\\u" ++ Text.fixedHex 4 c.toNat
  else c.toString

/-- A text in quotes. -/
def quote (s : String) : String :=
  "\"" ++ String.join (s.toList.map escapeChar) ++ "\""

/-- How floats are written. -/
def floatStyle : Decimal.Style := ⟨-5, 16⟩

/-- The value of a float, with the fewest digits that read back. -/
def float (x : Float) : Value :=
  bare ((floatStyle.render? (Decimal.ofFloat x)).getD "null")

/-- The value of a natural number. -/
def natural (n : Nat) : Value :=
  bare n.repr

/-- Blanks for a depth. -/
def indent (depth : Nat) : String :=
  String.ofList (List.replicate (2 * depth) ' ')

mutual

/-- The text of a value at a depth. -/
def renderAt (depth : Nat) : Value → String
  | bare text => text
  | quoted text => quote text
  | record [] => "\x7b\x7d"
  | record (f :: fs) =>
    "\x7b\n" ++ renderFields (depth + 1) (f :: fs) ++ "\n" ++ indent depth ++ "\x7d"

/-- The text of named values at a depth, one on each line. -/
def renderFields (depth : Nat) : List (String × Value) → String
  | [] => ""
  | [(name, value)] => indent depth ++ quote name ++ ": " ++ renderAt depth value
  | (name, value) :: rest =>
    indent depth ++ quote name ++ ": " ++ renderAt depth value ++ ",\n" ++
      renderFields depth rest

end

/-- The text of a value. -/
def render (v : Value) : String :=
  v.renderAt 0

end Value

namespace Report

/-- The figures of the rate of reading. -/
def throughputFields (t : Throughput) : List (String × Value) :=
  [("seconds", .float t.seconds), ("pages", .natural t.pages.toNat), ("bytes", .float t.bytes),
    ("gigabytes", .float t.gigabytes), ("gigabytes_per_second", .float t.gigabytesPerSecond),
    ("gigabits_per_second", .float t.gigabitsPerSecond)]

/-- The figures of the register stress. -/
def hammerFields (h : HammerThroughput) : List (String × Value) :=
  [("writes", .natural h.writes.toNat), ("write_size", .natural h.writeSize),
    ("megabytes", .float h.megabytes), ("megabytes_per_second", .float h.megabytesPerSecond)]

/-- A field that is left out if it has no value. -/
def optionalField {α : Type} (name : String) (value? : Option α) (f : α → Value) :
    List (String × Value) :=
  (value?.map fun v => (name, f v)).toList

/-- The mismatches found, if pages were checked. -/
def errors? (r : Report) : Option UInt64 :=
  if r.errorCheck then some r.stats.errors else none

/-- The figures of a report. -/
def summary (r : Report) : Value :=
  .record ([("card_family", .quoted r.family.key)] ++ throughputFields r.throughput ++
    [("pushed_pages", .natural r.stats.pushed.toNat),
      ("errors", (r.errors?.map fun n => Value.natural n.toNat).getD (.bare "null")),
      ("drained_pages", .natural r.drainedPages), ("superpages", .natural r.superpages),
      ("reclaimed_superpages", .natural r.reclaimed.length)] ++
    optionalField "bar_hammer" r.hammer? (fun h => .record (hammerFields h)) ++
    optionalField "dump_file" r.dumpFile? .quoted ++
    optionalField "error_file" r.errorFile? .quoted)

end Report

end DmaReadout
