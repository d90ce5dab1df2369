import DmaReadout.Channel.Basic
import DmaReadout.Dump
import DmaReadout.Ring
import DmaReadout.Stats
import DmaReadout.Verifier

/-! # What the two tasks of a run share

Superpages circulate: from the free queue through the channel to the ready queue, and from there
back to the free queue once they were read.

* `Plan`: what does not change during a run.
* `Pipeline`: the memory, the channel, the two queues, the counters, the verifier and the copy. -/

namespace DmaReadout

/-- What does not change during a run. -/
structure Plan where
  /-- The division of the buffer. -/
  layout : Layout
  /-- The number of pages after which both tasks end. -/
  limit? : Option UInt64 := none
  /-- Whether a page is overwritten after it was read. -/
  pageReset : Bool := false
  deriving Repr, DecidableEq

/-- The word that is written over a page that was read. -/
def resetWord : Word := 0xCCCCCCCC

/-- What the two tasks of a run share. -/
structure Pipeline (σ : Type) where
  /-- The memory of the buffer. -/
  memory : Memory
  /-- The channel. -/
  channel : σ
  /-- The offsets of superpages that may be filled. -/
  free : Ring Nat
  /-- The offsets of superpages that may be read. -/
  ready : Ring Nat
  /-- The counters. -/
  stats : Stats := {}
  /-- Checks the pages, if they are checked. -/
  verifier? : Option Verifier := none
  /-- Copies the pages, if they are copied. -/
  dump? : Option Dump := none
  /-- Whether the tasks are asked to end. -/
  stopped : Bool := false

namespace Pipeline

variable {σ : Type}

/-- The pipeline with both tasks asked to end. -/
def stop (p : Pipeline σ) : Pipeline σ :=
  { p with stopped := true }

/-- The pipeline after the reader failed: the copy is given up. -/
def abandon (p : Pipeline σ) : Pipeline σ :=
  { p with stopped := true, dump? := p.dump?.map Dump.close }

/-- The pipeline after a step of its channel, with what the step gave. -/
@[inline] def onChannel {ρ : Type} (p : Pipeline σ) (f : σ → ρ × σ) : ρ × Pipeline σ :=
  match p with
  | ⟨memory, channel, free, ready, stats, verifier, dump, stopped⟩ =>
    match f channel with
    | (r, channel) => (r, ⟨memory, channel, free, ready, stats, verifier, dump, stopped⟩)

/-- The pipeline with an offset on its free queue, and whether there was room for it. -/
def offerFree (p : Pipeline σ) (offset : Nat) : Bool × Pipeline σ :=
  match p with
  | ⟨memory, channel, free, ready, stats, verifier, dump, stopped⟩ =>
    match free.offer offset with
    | (r, free) => (r, ⟨memory, channel, free, ready, stats, verifier, dump, stopped⟩)

/-- The pipeline with an offset on its ready queue, and whether there was room for it. -/
def offerReady (p : Pipeline σ) (offset : Nat) : Bool × Pipeline σ :=
  match p with
  | ⟨memory, channel, free, ready, stats, verifier, dump, stopped⟩ =>
    match ready.offer offset with
    | (r, ready) => (r, ⟨memory, channel, free, ready, stats, verifier, dump, stopped⟩)

/-- The pipeline after the channel was asked for progress. -/
def fill [Channel σ] (p : Pipeline σ) : Pipeline σ :=
  match p with
  | ⟨memory, channel, free, ready, stats, verifier, dump, stopped⟩ =>
    match Channel.fill channel memory with
    | (channel, memory) => ⟨memory, channel, free, ready, stats, verifier, dump, stopped⟩

/-- The counters and the verifier after a page was checked, if it is checked. -/
def checked (verifier? : Option Verifier) (stats : Stats) (event : UInt64) (page : Array Word) :
    Stats × Option Verifier :=
  match verifier? with
  | none => (stats, none)
  | some v =>
    match v.check event page with
    | (n, v) => (stats.addErrors n.toUInt64, some v)

/-- The copy after a page was written to it, if there is one. -/
def copied (dump? : Option Dump) (event : UInt64) (page : Array Word) :
    Except Error Unit × Option Dump :=
  match dump? with
  | none => (.ok (), none)
  | some d =>
    match d.writePage event page with
    | (r, d) => (r, some d)

/-- The pipeline after the page at `offset` was read: counted, checked, copied, overwritten. If it
cannot be copied, it is not overwritten and the verifier stays at it. -/
def readPage (plan : Plan) (p : Pipeline σ) (offset : Nat) : Option Error × Pipeline σ :=
  match p with
  | ⟨memory, channel, free, ready, stats, verifier, dump, stopped⟩ =>
    match memory.view offset plan.layout.pageSize with
    | .error e => (some e, ⟨memory, channel, free, ready, stats, verifier, dump, stopped⟩)
    | .ok v =>
      let page := memory.page v
      match stats.addRead with
      | (event, stats) =>
        match checked verifier stats event page with
        | (stats, verifier) =>
          match copied dump event page with
          | (.error e, dump) =>
            (some e, ⟨memory, channel, free, ready, stats, verifier, dump, stopped⟩)
          | (.ok _, dump) =>
            let memory := if plan.pageReset then memory.fill v resetWord else memory
            (none, ⟨memory, channel, free, ready, stats, verifier.map Verifier.advance, dump,
              stopped⟩)

end Pipeline

end DmaReadout
