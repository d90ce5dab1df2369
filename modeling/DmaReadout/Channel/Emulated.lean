import DmaReadout.Channel.Basic
import DmaReadout.Generator

/-! # The emulated channel

* `Emulated`: a channel in software, which fills every queued superpage with generated pages as soon
  as it is asked for progress.
* The operations, and `Emulated` as a `Channel`. -/

namespace DmaReadout

/-- The number of superpages that a channel takes if nothing else is said. -/
def defaultCapacity : Nat := 128

/-- An emulated channel. -/
structure Emulated where
  /-- Writes the pages. -/
  generator : Generator
  /-- The bytes of the buffer that superpages must lie in. -/
  bufferSize : Nat
  /-- The queued superpages, the oldest first. -/
  queue : Fifo Superpage := .empty
  /-- The number of superpages that can be queued. -/
  capacity : Nat := defaultCapacity
  /-- Whether the transfer is on. -/
  running : Bool := false
  /-- The registers. -/
  bar : Bar
  deriving Repr, DecidableEq

namespace Emulated

/-- A channel that writes pages of `pageSize` bytes into a buffer of `bufferSize` bytes. -/
def create (family : Family) (bufferSize pageSize : Nat) (pattern : Pattern) :
    Except Error Emulated :=
  if pageSize = 0 ∨ pageSize % 4 ≠ 0 then .error (.config (.channelPageSize pageSize))
  else .ok {
    generator := { family, pattern, pageSize }
    bufferSize
    bar := .zeroed family }

/-- The channel with room for `n` superpages, but at least for one. -/
def withCapacity (c : Emulated) (n : Nat) : Emulated :=
  { c with capacity := max n 1 }

/-- The channel with every `n`-th page spoilt; none if `n` is zero. -/
def withFaultInterval (c : Emulated) (n : Nat) : Emulated :=
  { c with generator := { c.generator with faultInterval? := if n = 0 then none else some n } }

/-- Starts the transfer, which must be off. -/
def start (c : Emulated) : Except Error Unit × Emulated :=
  if c.running then (.error (.channel .alreadyStarted), c) else (.ok (), { c with running := true })

/-- Stops the transfer. -/
def stop (c : Emulated) : Except Error Unit × Emulated :=
  (.ok (), { c with running := false })

/-- Lets the event counter begin anew; the transfer must be off. -/
def reset (c : Emulated) : Except Error Unit × Emulated :=
  if c.running then (.error (.channel .resetWhileRunning), c)
  else (.ok (), { c with generator := { c.generator with counter := 0 } })

/-- The number of whole pages that a superpage can still receive. -/
def missingPages (pageSize : Nat) (s : Superpage) : Nat :=
  (s.size - s.received) / pageSize

/-- One superpage filled up, with the generator and the memory after that. -/
def fillOne : Generator × Memory → Superpage → Superpage × Generator × Memory
  | (g, m), s =>
    let n := missingPages g.pageSize s
    if n = 0 then (s, g, m)
    else
      match g.writePages m (s.offset + s.received) n with
      | (g, m) => ({ s with received := s.received + n * g.pageSize }, g, m)

theorem fillOne_of_isFilled (state : Generator × Memory) {s : Superpage} (h : s.isFilled = true) :
    fillOne state s = (s, state) := by
  have h := of_decide_eq_true h
  have : missingPages state.1.pageSize s = 0 := by
    rw [missingPages, Nat.sub_eq_zero_of_le h, Nat.zero_div]
  simp [fillOne, this]

/-- Fills all queued superpages in order, if the transfer is on. -/
def fill (c : Emulated) (m : Memory) : Emulated × Memory :=
  match c with
  | ⟨generator, bufferSize, queue, capacity, true, bar⟩ =>
    match queue.updateUnless Superpage.isFilled fillOne (generator, m) with
    | (queue, generator, m) => (⟨generator, bufferSize, queue, capacity, true, bar⟩, m)
  | c => (c, m)

/-- The number of superpages that can still be pushed. -/
def available (c : Emulated) : Nat :=
  c.capacity - c.queue.length

/-- Whether a superpage lies in the buffer and consists of whole pages. -/
def fits (c : Emulated) (s : Superpage) : Bool :=
  s.size ≠ 0 && s.size % c.generator.pageSize = 0 && s.offset + s.size < 1 <<< 64 &&
    s.offset + s.size ≤ c.bufferSize

/-- Queues a superpage, which must lie in the buffer and consist of whole pages. -/
def push (c : Emulated) (s : Superpage) : Except Error Unit × Emulated :=
  if c.capacity ≤ c.queue.length then (.error (.channel .queueFull), c)
  else if !c.fits s then (.error (.channel (.misfit s.offset s.size)), c)
  else
    match c with
    | ⟨generator, bufferSize, queue, capacity, running, bar⟩ =>
      (.ok (), ⟨generator, bufferSize, queue.push ⟨s.offset, s.size, 0⟩, capacity, running, bar⟩)

/-- Takes the oldest superpage, if it is filled or the transfer is off. -/
def pop (c : Emulated) : Option Superpage × Emulated :=
  match c.queue.head? with
  | none => (none, c)
  | some s =>
    if s.isFilled || !c.running then (some s, { c with queue := c.queue.tail }) else (none, c)

/-- A channel that is off gives back all its superpages, filled or not, and is empty then. -/
theorem popsAll_of_off {c : Emulated} (hc : c.running = false) :
    ∃ c', PopsAll pop c c.queue.toList c' ∧ c'.running = false ∧ c'.queue.toList = [] := by
  refine PopsAll.of_queue (fun c : Emulated => c.queue) (fun c => c.running = false) (fun c _ h => ?_)
    (fun c s hc h => ?_) hc rfl
  · rw [pop, h]
  · refine ⟨{ c with queue := c.queue.tail }, ?_, hc, rfl⟩
    rw [pop, h, hc]
    simp

instance : Channel Emulated where
  family c := c.generator.family
  start := start
  stop := stop
  reset := reset
  fill := fill
  available := available
  queued c := c.queue.length
  head? c := c.queue.head?
  push := push
  pop := pop
  bar c := c.bar
  withBar c b := { c with bar := b }
  held c := c.queue.length
  pops_all c := by
    obtain ⟨c', hall, -⟩ := popsAll_of_off (c := c.stop.2) rfl
    exact ⟨_, c', hall, Nat.le_of_eq (Fifo.length_toList _)⟩

end Emulated

end DmaReadout
