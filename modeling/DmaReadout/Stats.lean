/-! # Counters of a run

* `Stats`: four counters of 64 bits, which wrap. -/

namespace DmaReadout

/-- The counters of a run. -/
structure Stats where
  /-- The pages handed to the reader. -/
  pushed : UInt64 := 0
  /-- The pages read. -/
  read : UInt64 := 0
  /-- The mismatches found. -/
  errors : UInt64 := 0
  /-- The writes of the register stress. -/
  hammered : UInt64 := 0
  deriving Repr, DecidableEq

namespace Stats

/-- Counts pages handed to the reader. -/
def addPushed (s : Stats) (n : UInt64) : Stats :=
  { s with pushed := s.pushed + n }

/-- Counts one page read. Its event number is the count before. -/
def addRead (s : Stats) : UInt64 × Stats :=
  (s.read, { s with read := s.read + 1 })

/-- Counts mismatches. -/
def addErrors (s : Stats) (n : UInt64) : Stats :=
  { s with errors := s.errors + n }

/-- Counts writes of the register stress. -/
def addHammered (s : Stats) (n : UInt64) : Stats :=
  { s with hammered := s.hammered + n }

end Stats

/-- Whether a count has come up to a limit. -/
def limitReached (limit? : Option UInt64) (count : UInt64) : Bool :=
  limit?.any (· ≤ count)

end DmaReadout
