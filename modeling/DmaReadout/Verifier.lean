import DmaReadout.Generator
import DmaReadout.Mismatch

/-! # Checking pages

* `bodyIndices`: the words of a page that are compared with the generator.
* `mismatches`: what is wrong with a page, given its event counter: a wrong counter in the header
  of a page of the older card, and the first wrong word behind it.
* `Verifier`: follows the event counter from page to page and keeps the log. -/

namespace DmaReadout

/-- The indices of the words behind the header that are checked on a page of `n` words. -/
def bodyIndices : Family → Nat → List Nat
  | .cru, n => (List.range ((n + stride - 1) / stride)).map (stride * ·)
  | .crorc, n => (List.range (n - headerWords)).map (headerWords + ·)

/-- The mismatch of one word, if it is none that the generator writes. -/
def wordMismatch? (family : Family) (pattern : Pattern) (event : UInt64) (counter : Word)
    (page : Array Word) (index : Nat) : Option Mismatch :=
  match generatedWord? family pattern counter index with
  | none => none
  | some expected =>
    let actual := page.getD index 0
    if actual = expected then none else some ⟨event, index, counter, expected, actual⟩

/-- The mismatch of the counter in the header of a page of the older card. -/
def headerMismatch? (family : Family) (event : UInt64) (counter : Word) (page : Array Word) :
    Option Mismatch :=
  match family with
  | .cru => none
  | .crorc =>
    match page[0]? with
    | none => none
    | some w => if w = counter then none else some ⟨event, 0, counter, counter, w⟩

/-- The first mismatch behind the header. -/
def bodyMismatch? (family : Family) (pattern : Pattern) (event : UInt64) (counter : Word)
    (page : Array Word) : Option Mismatch :=
  (bodyIndices family page.size).findSome? (wordMismatch? family pattern event counter page)

/-- A verifier between two pages. -/
structure Verifier where
  /-- The family of the card. -/
  family : Family
  /-- The pattern that pages should have. -/
  pattern : Pattern
  /-- Whether the counter is taken from the page again after a mismatch. -/
  resync : Bool
  /-- The event counter of the next page; none before the first page. -/
  counter? : Option Word
  /-- The mismatches so far. -/
  log : ErrorLog
  deriving Repr, DecidableEq

namespace Verifier

/-- A verifier for a pattern that can be checked. -/
def create (family : Family) (pattern : Pattern) (resync : Bool) (limit : Nat) :
    Except Error Verifier :=
  if pattern.verifiable then .ok ⟨family, pattern, resync, none, { limit }⟩
  else .error (.unsupportedPattern pattern)

/-- The event counter that a page is checked against. -/
def expected (v : Verifier) (page : Array Word) : Word :=
  v.counter?.getD (leadingCounter v.family page)

/-- What is wrong with a page, that of the header first. -/
def mismatches (v : Verifier) (event : UInt64) (page : Array Word) : List Mismatch :=
  (headerMismatch? v.family event (v.expected page) page).toList ++
    (bodyMismatch? v.family v.pattern event (v.expected page) page).toList

/-- The verifier after a page, and the number of mismatches in it. Only a mismatch behind the header
makes it take up the counter of the page. -/
def check (v : Verifier) (event : UInt64) (page : Array Word) : Nat × Verifier :=
  let counter := v.expected page
  let header := (headerMismatch? v.family event counter page).toList
  let body := (bodyMismatch? v.family v.pattern event counter page).toList
  let next := if !body.isEmpty && v.resync then leadingCounter v.family page else counter
  ((header ++ body).length,
    { v with counter? := some next, log := v.log.recordAll (header ++ body) })

/-- The verifier on the way to the next page. -/
def advance (v : Verifier) : Verifier :=
  { v with counter? := v.counter?.map (· + 1) }

theorem check_fst (v : Verifier) (event : UInt64) (page : Array Word) :
    (v.check event page).1 = (v.mismatches event page).length := rfl

theorem log_check (v : Verifier) (event : UInt64) (page : Array Word) :
    (v.check event page).2.log = v.log.recordAll (v.mismatches event page) := rfl

end Verifier

end DmaReadout
