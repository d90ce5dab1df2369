import DmaReadout.Bytes
import DmaReadout.Sink

/-! # Copies of pages

* `DumpMode`: no copy, one in decimal text, or one in raw bytes.
* `asciiPage`: the text of a page; `pageBytes`: what is written for a page.
* `Dump`: a copy in progress. -/

namespace DmaReadout

/-- How pages are copied. -/
inductive DumpMode where
  /-- Not at all. -/
  | none
  /-- As text, with the words in decimal. -/
  | ascii
  /-- As raw bytes. -/
  | binary
  deriving Repr, DecidableEq

namespace DumpMode

/-- The mode that two flags ask for; at most one may be set. -/
def ofFlags (ascii binary : Bool) : Except Error DumpMode :=
  match ascii, binary with
  | true, true => .error (.config .twoDumps)
  | true, false => .ok .ascii
  | false, true => .ok .binary
  | false, false => .ok .none

/-- The name of a mode. -/
def name : DumpMode → String
  | none => "None"
  | ascii => "Ascii"
  | binary => "Binary"

/-- The name of the file that a mode writes. -/
def fileName? : DumpMode → Option String
  | none => Option.none
  | ascii => some "readout_data.txt"
  | binary => some "readout_data.bin"

end DumpMode

/-- The words in one line of text. -/
def wordsPerLine : Nat := 8

/-- The text of one word. -/
def asciiWord (w : Word) : String :=
  w.toNat.repr ++ " "

/-- The words of a page in lines of eight, each word with a blank behind it. -/
def asciiWords (page : Array Word) : String :=
  let (text, column) := page.foldl
    (fun (text, column) w =>
      if column + 1 = wordsPerLine then (text ++ asciiWord w ++ "\n", 0)
      else (text ++ asciiWord w, column + 1))
    ("", 0)
  if column = 0 then text else text ++ "\n"

/-- The text of a page: its number, its words, an empty line. -/
def asciiPage (event : UInt64) (page : Array Word) : String :=
  "Event #" ++ event.toNat.repr ++ "\n" ++ asciiWords page ++ "\n"

/-- What is written for a page. -/
def pageBytes (mode : DumpMode) (event : UInt64) (page : Array Word) : ByteArray :=
  match mode with
  | .none => .empty
  | .ascii => (asciiPage event page).toUTF8
  | .binary => bytesOfWords page

/-- A copy in progress. -/
structure Dump where
  /-- How pages are copied. -/
  mode : DumpMode
  /-- Where they go. -/
  sink : Sink
  /-- Whether the copy was given up; then nothing more is written. -/
  closed : Bool := false

namespace Dump

/-- The copy after one more page, and whether all of it could be written. -/
def writePage (d : Dump) (event : UInt64) (page : Array Word) : Except Error Unit × Dump :=
  match d with
  | ⟨mode, sink, true⟩ => (.ok (), ⟨mode, sink, true⟩)
  | ⟨mode, sink, false⟩ =>
    match sink.take (pageBytes mode event page) with
    | (.ok _, sink) => (.ok (), ⟨mode, sink, false⟩)
    | (.error e, sink) => (.error (.file e), ⟨mode, sink, false⟩)

/-- The copy given up. -/
def close (d : Dump) : Dump :=
  { d with closed := true }

end Dump

end DmaReadout
