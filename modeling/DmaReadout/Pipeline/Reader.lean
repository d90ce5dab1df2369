import DmaReadout.Pipeline.Basic

/-! # The task that reads pages

* `Reader`: where the task stands, with the superpage that it holds there.
* `Reader.step`: its next step. -/

namespace DmaReadout

/-- Where the task that reads pages stands. -/
inductive Reader where
  /-- Before it looks whether it should end. -/
  | poll
  /-- Before it takes a superpage that is ready. -/
  | take
  /-- Before it reads a page of a superpage. -/
  | reading (offset page : Nat)
  /-- With a superpage that goes back to the free queue, and the failure met while reading it. -/
  | giveBack (offset : Nat) (failure? : Option Error)
  /-- At the end, with the failure that ended it. -/
  | done (failure? : Option Error)
  deriving Repr, DecidableEq

namespace Reader

variable {σ : Type}

/-- The end with a failure; the copy is given up and the other task asked to end. -/
def fail (p : Pipeline σ) (e : Error) : Reader × Pipeline σ :=
  (done (some e), p.abandon)

/-- Looks whether the task should end. At the limit it asks the other task to end, too. -/
def pollStep (plan : Plan) (p : Pipeline σ) : Reader × Pipeline σ :=
  if p.stopped then (done none, p)
  else if limitReached plan.limit? p.stats.read then (done none, p.stop)
  else (take, p)

/-- Takes the oldest superpage that is ready. -/
def takeStep (p : Pipeline σ) : Reader × Pipeline σ :=
  match p.ready.pop with
  | none => (poll, p)
  | some (offset, ready) => (reading offset 0, { p with ready })

/-- Reads one page, if there is a further one and the limit is not reached. -/
def readingStep (plan : Plan) (p : Pipeline σ) (offset page : Nat) : Reader × Pipeline σ :=
  if page < plan.layout.pagesPerSuperpage && !limitReached plan.limit? p.stats.read then
    match p.readPage plan (offset + page * plan.layout.pageSize) with
    | (none, p) => (reading offset (page + 1), p)
    | (some e, p) => (giveBack offset (some e), p)
  else (giveBack offset none, p)

/-- Puts a superpage back on the free queue. That this fails weighs more than a failure before. -/
def giveBackStep (p : Pipeline σ) (offset : Nat) (failure? : Option Error) :
    Reader × Pipeline σ :=
  match p.offerFree offset with
  | (false, p) => fail p (.queue (.returning offset))
  | (true, p) =>
    match failure? with
    | none => (poll, p)
    | some e => fail p e

/-- The next step. -/
def step (plan : Plan) (p : Pipeline σ) : Reader → Reader × Pipeline σ
  | poll => pollStep plan p
  | take => takeStep p
  | reading offset page => readingStep plan p offset page
  | giveBack offset failure? => giveBackStep p offset failure?
  | done failure? => (done failure?, p)

end Reader

end DmaReadout
