import DmaReadout.Fault

/-! # Byte sinks

* `Sink`: takes bytes, all or up to a limit, and keeps what it took.
* `Sink.take`: what does not fit is cut off, and then the sink is full. -/

namespace DmaReadout

/-- A receiver of bytes. -/
structure Sink where
  /-- The number of bytes that it still takes; none if there is no limit. -/
  room? : Option Nat := none
  /-- The bytes that it took. -/
  taken : ByteArray := .empty

namespace Sink

/-- The sink after it was offered bytes, and whether they fitted. -/
def take (s : Sink) (bytes : ByteArray) : Except FileFault Unit × Sink :=
  match s with
  | ⟨none, taken⟩ => (.ok (), ⟨none, taken ++ bytes⟩)
  | ⟨some room, taken⟩ =>
    if bytes.size ≤ room then (.ok (), ⟨some (room - bytes.size), taken ++ bytes⟩)
    else (.error .sinkFull, ⟨some 0, taken ++ bytes.extract 0 room⟩)

/-- The sink after it was offered a text. -/
def takeText (s : Sink) (text : String) : Except FileFault Unit × Sink :=
  s.take text.toUTF8

/-- The sink without the bytes that it took. -/
def emptied (s : Sink) : Sink :=
  { s with taken := .empty }

end Sink

end DmaReadout
