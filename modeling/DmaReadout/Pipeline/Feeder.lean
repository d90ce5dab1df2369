import DmaReadout.Pipeline.Basic

/-! # The task that feeds the channel

* `Feeder`: where the task stands, with the superpage that it holds there.
* `Feeder.step`: its next step. -/

namespace DmaReadout

/-- Where the task that feeds the channel stands. -/
inductive Feeder where
  /-- Before it looks whether it should end. -/
  | poll
  /-- Before it asks the channel for progress. -/
  | fill
  /-- Before it takes a free superpage. -/
  | feed
  /-- With a superpage to push to the channel. -/
  | submit (offset : Nat)
  /-- Before it looks whether the oldest superpage of the channel can be read. -/
  | handOver
  /-- With the superpage that it made ready, before it takes it from the channel. -/
  | collect (offset : Nat)
  /-- At the end, with the failure that ended it. -/
  | done (failure? : Option Error)
  deriving Repr, DecidableEq

namespace Feeder

variable {σ : Type} [Channel σ]

/-- The end with a failure; the other task is asked to end, too. -/
def fail (p : Pipeline σ) (e : Error) : Feeder × Pipeline σ :=
  (done (some e), p.stop)

/-- Takes a free superpage, if the channel has room for it. -/
def feedStep (p : Pipeline σ) : Feeder × Pipeline σ :=
  if Channel.available p.channel = 0 then (handOver, p)
  else
    match p.free.pop with
    | none => (handOver, p)
    | some (offset, free) => (submit offset, { p with free })

/-- Pushes a superpage to the channel. -/
def submitStep (plan : Plan) (p : Pipeline σ) (offset : Nat) : Feeder × Pipeline σ :=
  match p.onChannel (Channel.push · ⟨offset, plan.layout.superpageSize, 0⟩) with
  | (.ok _, p) => (feed, p)
  | (.error e, p) => fail p e

/-- Makes the oldest superpage of the channel ready, if it is filled and there is room for it. -/
def handOverStep (p : Pipeline σ) : Feeder × Pipeline σ :=
  if Channel.queued p.channel = 0 then (poll, p)
  else
    match Channel.head? p.channel with
    | none => (poll, p)
    | some s =>
      if s.isFilled then
        match p.offerReady s.offset with
        | (true, p) => (collect s.offset, p)
        | (false, p) => (poll, p)
      else (poll, p)

/-- Takes the superpage that was made ready from the channel, and counts its pages. -/
def collectStep (plan : Plan) (p : Pipeline σ) (offset : Nat) : Feeder × Pipeline σ :=
  match p.onChannel Channel.pop with
  | (none, p) => fail p (.queue (.stuck offset))
  | (some s, p) =>
    if s.offset = offset then
      (poll, { p with stats := p.stats.addPushed plan.layout.pagesPerSuperpage.toUInt64 })
    else fail p (.queue (.popped s.offset offset))

/-- The next step. -/
def step (plan : Plan) (p : Pipeline σ) : Feeder → Feeder × Pipeline σ
  | poll =>
    if p.stopped || limitReached plan.limit? p.stats.pushed then (done none, p) else (fill, p)
  | fill => (feed, p.fill)
  | feed => feedStep p
  | submit offset => submitStep plan p offset
  | handOver => handOverStep p
  | collect offset => collectStep plan p offset
  | done failure? => (done failure?, p)

end Feeder

end DmaReadout
