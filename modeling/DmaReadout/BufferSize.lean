import DmaReadout.Fault

/-! # Buffer sizes

* `HugePage`: the two granularities of memory behind a buffer.
* `BufferSize`: a number of bytes together with the granularity.
* `BufferSize.parse`: reads a count followed by `MB` or `GB`.
* `BufferSize.render`: writes it again. -/

namespace DmaReadout

/-- Bytes in one MiB. -/
def mebibyte : Nat := 1 <<< 20

/-- Bytes in one GiB. -/
def gibibyte : Nat := 1 <<< 30

/-- The first size that is too large for the address space. -/
def sizeLimit : Nat := 1 <<< 64

/-- The granularity of the memory behind a buffer. -/
inductive HugePage where
  /-- Pages of 2 MiB. -/
  | small
  /-- Pages of 1 GiB. -/
  | large
  deriving Repr, DecidableEq

namespace HugePage

/-- The bytes of one page. -/
def bytes : HugePage → Nat
  | small => 2 * mebibyte
  | large => gibibyte

/-- The label of a granularity in directory names. -/
def label : HugePage → String
  | small => "2MB"
  | large => "1GB"

/-- The bytes that one unit of a count stands for. -/
def unitBytes : HugePage → Nat
  | small => mebibyte
  | large => gibibyte

/-- The unit behind a count. -/
def unit : HugePage → String
  | small => "MB"
  | large => "GB"

/-- The granularity that a unit selects, in either case. -/
def ofUnit? (cs : List Char) : Option HugePage :=
  if Text.sameLetters cs "MB".toList then some small
  else if Text.sameLetters cs "GB".toList then some large
  else none

/-- The count that is used for a count asked for: an even number of MiB, at least two. -/
def rounded : HugePage → Nat → Nat
  | small, n => max n 2 - max n 2 % 2
  | large, n => n

end HugePage

/-- The size of a buffer. -/
structure BufferSize where
  /-- The size in bytes. -/
  bytes : Nat
  /-- The granularity of the memory. -/
  hugePage : HugePage
  deriving Repr, DecidableEq

namespace BufferSize

/-- The characters before and in the last two bytes of a text. There are none if the text is
shorter than three bytes or the last two bytes begin inside a character. -/
def splitUnit? (cs : List Char) : Option (List Char × List Char) :=
  if cs.foldr (fun c n => c.utf8Size + n) 0 < 3 then none
  else
    match cs.reverse with
    | last :: rest =>
      if last.utf8Size = 2 then some (rest.reverse, [last])
      else
        match rest with
        | first :: rest =>
          if last.utf8Size = 1 ∧ first.utf8Size = 1 then some (rest.reverse, [first, last])
          else none
        | [] => none
    | [] => none

/-- The size that a text gives: a count, then `MB` for memory in pages of 2 MiB or `GB` for pages
of 1 GiB. -/
def parse (text : String) : Except Error BufferSize :=
  match splitUnit? (Text.trimChars text.toList) with
  | none => .error (.config (.bufferSizeForm text))
  | some (count, unit) =>
    match HugePage.ofUnit? unit with
    | none => .error (.config (.bufferSizeUnit (String.ofList unit)))
    | some page =>
      match Text.naturalBelow? sizeLimit (Text.trimChars count) with
      | none => .error (.config (.bufferSizeCount text))
      | some n =>
        let bytes := page.rounded n * page.unitBytes
        if bytes < sizeLimit then .ok ⟨bytes, page⟩
        else .error (.config (.bufferSizeTooLarge text))

/-- The text of a size. -/
def render (b : BufferSize) : String :=
  (b.bytes / b.hugePage.unitBytes).repr ++ b.hugePage.unit

end BufferSize

end DmaReadout
