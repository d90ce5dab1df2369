import DmaReadout.Pipeline.Feeder
import DmaReadout.Pipeline.Reader

/-! # The two tasks together

* `Machine`: the pipeline with both tasks; `Turn`: whose step comes next.
* `Machine.run`: the machine after any sequence of turns.
* `Machine.feedRounds`, `Machine.readAll`: one task by itself.
* `Machine.alternate`: the two tasks in turn, one round each; `Machine.feederFirst`: the feeder as
  far ahead as it gets. -/

namespace DmaReadout

/-- The pipeline with the two tasks of a run. -/
structure Machine (σ : Type) where
  /-- What the tasks share. -/
  shared : Pipeline σ
  /-- The task that feeds the channel. -/
  feeder : Feeder := .poll
  /-- The task that reads pages. -/
  reader : Reader := .poll

/-- Whose step comes next. -/
inductive Turn where
  /-- The task that feeds the channel. -/
  | feed
  /-- The task that reads pages. -/
  | read
  /-- Somebody who asks both to end. -/
  | stop
  deriving Repr, DecidableEq

namespace Machine

variable {σ : Type} [Channel σ]

/-- The machine after one step. -/
def step (plan : Plan) (m : Machine σ) : Turn → Machine σ
  | .feed =>
    match m with
    | ⟨p, feeder, reader⟩ =>
      match feeder.step plan p with
      | (feeder, p) => ⟨p, feeder, reader⟩
  | .read =>
    match m with
    | ⟨p, feeder, reader⟩ =>
      match reader.step plan p with
      | (reader, p) => ⟨p, feeder, reader⟩
  | .stop => { m with shared := m.shared.stop }

/-- The machine after a sequence of turns. -/
def run (plan : Plan) (m : Machine σ) (turns : List Turn) : Machine σ :=
  turns.foldl (step plan) m

/-- Whether the feeder is between two rounds or at its end. -/
def feederRests (m : Machine σ) : Bool :=
  match m.feeder with
  | .poll | .done _ => true
  | _ => false

/-- Whether the reader is between two superpages or at its end. -/
def readerRests (m : Machine σ) : Bool :=
  match m.reader with
  | .poll | .done _ => true
  | _ => false

/-- Whether the feeder is at its end. -/
def feederDone (m : Machine σ) : Bool :=
  match m.feeder with
  | .done _ => true
  | _ => false

/-- Whether the reader is at its end. -/
def readerDone (m : Machine σ) : Bool :=
  match m.reader with
  | .done _ => true
  | _ => false

/-- The machine after steps of the feeder until it rests, at most `fuel`. -/
def feedUntilRest (plan : Plan) : (fuel : Nat) → Machine σ → Machine σ
  | 0, m => m
  | fuel + 1, m =>
    let m := m.step plan .feed
    if m.feederRests then m else feedUntilRest plan fuel m

/-- One round of the feeder. Every superpage that it pushes leaves the free queue. -/
def feedRound (plan : Plan) (m : Machine σ) : Machine σ :=
  feedUntilRest plan (2 * m.shared.free.length + 5) m

/-- The machine after steps of the reader until it rests, at most `fuel`. -/
def readUntilRest (plan : Plan) : (fuel : Nat) → Machine σ → Machine σ
  | 0, m => m
  | fuel + 1, m =>
    let m := m.step plan .read
    if m.readerRests then m else readUntilRest plan fuel m

/-- One round of the reader: at most one superpage. -/
def readRound (plan : Plan) (m : Machine σ) : Machine σ :=
  readUntilRest plan (plan.layout.pagesPerSuperpage + 4) m

/-- The feeder by itself, asked to end after a number of rounds. -/
def feedRounds (plan : Plan) : (rounds : Nat) → Machine σ → Machine σ
  | 0, m => (m.step plan .stop).step plan .feed
  | rounds + 1, m =>
    let m := m.feedRound plan
    if m.feederDone then m else feedRounds plan rounds m

/-- The reader by itself for a number of rounds, asked to end when nothing is ready. -/
def readRounds (plan : Plan) : (rounds : Nat) → Machine σ → Machine σ
  | 0, m => (m.step plan .stop).step plan .read
  | rounds + 1, m =>
    if m.shared.ready.isEmpty then (m.step plan .stop).step plan .read
    else
      let m := m.readRound plan
      if m.readerDone then m else readRounds plan rounds m

/-- The reader by itself until nothing is ready. -/
def readAll (plan : Plan) (m : Machine σ) : Machine σ :=
  readRounds plan (m.shared.ready.length + 1) m

/-- The two tasks in turn, one round each; after `rounds` rounds they are asked to end. -/
def alternate (plan : Plan) : (rounds : Nat) → Machine σ → Machine σ
  | 0, m => ((m.step plan .stop).step plan .feed).step plan .read
  | rounds + 1, m =>
    let m := (m.feedRound plan).readRound plan
    if m.feederDone && m.readerDone then m else alternate plan rounds m

/-- The moves that superpages have before them on the feeder's side: to the channel, and from there
to the ready queue. -/
def movesLeft (m : Machine σ) : Nat :=
  2 * m.shared.free.length + Channel.queued m.shared.channel

/-- The feeder by itself until a round of it moves no superpage, at most `fuel` rounds. -/
def feedWhileMoving (plan : Plan) : (fuel : Nat) → Machine σ → Machine σ
  | 0, m => m
  | fuel + 1, m =>
    let before := m.movesLeft
    let m := m.feedRound plan
    if m.movesLeft = before || m.feederDone then m else feedWhileMoving plan fuel m

/-- The feeder by itself as far as it gets. -/
def feedAhead (plan : Plan) (m : Machine σ) : Machine σ :=
  feedWhileMoving plan (m.movesLeft + 1) m

/-- The two tasks with a feeder that is faster than the reader: it runs as far ahead as it can for
every superpage that is read. After `rounds` superpages the tasks are asked to end. -/
def feederFirst (plan : Plan) : (rounds : Nat) → Machine σ → Machine σ
  | 0, m => ((m.step plan .stop).step plan .feed).step plan .read
  | rounds + 1, m =>
    let m := (m.feedAhead plan).readRound plan
    if m.feederDone && m.readerDone then m else feederFirst plan rounds m

/-- A number of rounds in which the two tasks reach the limit. Two rounds bring a superpage through
a channel that takes no more than one. -/
def enoughRounds (plan : Plan) : Nat :=
  match plan.limit? with
  | none => 0
  | some limit => 2 * (limit.toNat / plan.layout.pagesPerSuperpage + plan.layout.count) + 8

end Machine

end DmaReadout
