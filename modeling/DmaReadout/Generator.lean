import DmaReadout.Card
import DmaReadout.Memory

/-! # The data generator

* `generatedWord?`: the word at one place of a page, from the page's event counter.
* `leadingCounter`: the event counter that a page shows.
* `Generator`: writes one page after the other, and can spoil every `n`-th of them. -/

namespace DmaReadout

/-- The words between two words that are checked on a page of the newer card. -/
def stride : Nat := 8

/-- The words of the header of a page of the older card. -/
def headerWords : Nat := 8

/-- The word at `index` of the page with the given event counter; none if it is arbitrary. -/
def generatedWord? (family : Family) (pattern : Pattern) (counter : Word) (index : Nat) :
    Option Word :=
  if family = .crorc ∧ index < headerWords then some (if index = 0 then counter else 0)
  else
    match pattern with
    | .random => none
    | .alternating => Pattern.alternating.fixedWord?
    | .constant => Pattern.constant.fixedWord?
    | .incremental =>
      match family with
      | .cru => some (counter * 256 + (index / stride).toUInt32)
      | .crorc => some (index.toUInt32 - 1)

/-- The event counter that a page shows in its first word. -/
def leadingCounter (family : Family) (page : Array Word) : Word :=
  match page[0]? with
  | none => 0
  | some w =>
    match family with
    | .cru => w / 256
    | .crorc => w

/-- The word of a place that no pattern fixes. Any other word would do as well. -/
def arbitraryWord (page index : Nat) : Word :=
  let z := (page * 0x100000000 + index + 1).toUInt64 * 0x9e3779b97f4a7c15
  let z := (z ^^^ (z >>> 30)) * 0xbf58476d1ce4e5b9
  (z >>> 32).toUInt32

/-- A data generator between two pages. -/
structure Generator where
  /-- The family of the card. -/
  family : Family
  /-- What it writes. -/
  pattern : Pattern
  /-- The bytes of a page. -/
  pageSize : Nat
  /-- The distance of spoilt pages, if any are to be spoilt. -/
  faultInterval? : Option Nat := none
  /-- The event counter of the next page. -/
  counter : Word := 0
  /-- The pages written so far. -/
  generated : Nat := 0
  deriving Repr, DecidableEq

namespace Generator

/-- Whether the next page is to be spoilt. -/
def spoilsNext (g : Generator) : Bool :=
  match g.faultInterval? with
  | none => false
  | some n => (g.generated + 1) % n = 0

/-- The word at `index` of the next page. In a spoilt page the first checked word behind the header
is inverted. -/
def nextWord (g : Generator) (index : Nat) : Word :=
  let w := (generatedWord? g.family g.pattern g.counter index).getD
    (arbitraryWord g.generated index)
  if index = stride && g.spoilsNext then ~~~w else w

/-- The pages written so far, counted in 64 bits. -/
def counted (g : Generator) : UInt64 := g.generated.toUInt64

/-- The generator after a page. -/
def advance (g : Generator) : Generator :=
  { g with counter := g.counter + 1, generated := g.generated + 1 }

/-- The generator and the memory after a page was written at `offset`. Where the memory grants no
page, nothing happens. -/
def writePage (g : Generator) (m : Memory) (offset : Nat) : Generator × Memory :=
  match m.view offset g.pageSize with
  | .error _ => (g, m)
  | .ok v => (g.advance, m.put v.first v.count g.nextWord)

/-- The generator and the memory after `n` pages were written one behind the other. -/
def writePages (g : Generator) (m : Memory) (offset : Nat) : (n : Nat) → Generator × Memory
  | 0 => (g, m)
  | n + 1 =>
    match g.writePage m offset with
    | (g, m) => g.writePages m (offset + g.pageSize) n

@[simp] theorem pageSize_advance (g : Generator) : g.advance.pageSize = g.pageSize := rfl

@[simp] theorem size_writePage (g : Generator) (m : Memory) (offset : Nat) :
    (g.writePage m offset).2.size = m.size := by
  unfold writePage
  split <;> simp

@[simp] theorem size_writePages (g : Generator) (m : Memory) (offset n : Nat) :
    (g.writePages m offset n).2.size = m.size := by
  induction n generalizing g m offset with
  | zero => rfl
  | succ n ih => rw [writePages, ih, size_writePage]

end Generator

end DmaReadout
