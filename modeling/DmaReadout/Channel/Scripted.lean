import DmaReadout.Channel.Basic

/-! # The scripted channel

* `Scripted`: a channel that misbehaves as told. It writes no memory. -/

namespace DmaReadout

/-- What a running scripted channel gives back when it is popped. -/
inductive PopRule where
  /-- The oldest superpage, if it is filled. -/
  | oldest
  /-- Nothing at all. -/
  | nothing
  /-- The superpage that was pushed last. -/
  | newest
  deriving Repr, DecidableEq

/-- A scripted channel. -/
structure Scripted where
  /-- The family of the card. -/
  family : Family
  /-- The bytes of a page. -/
  pageSize : Nat
  /-- The number of superpages that can be queued. -/
  capacity : Nat := 4
  /-- The pages that it can still fill; none if there is no limit. -/
  budget? : Option Nat := none
  /-- The number of pushes after which all further ones are refused. -/
  acceptedPushes? : Option Nat := none
  /-- What a pop gives back while the transfer is on. -/
  popRule : PopRule := .oldest
  /-- Whether starting fails. -/
  failsStart : Bool := false
  /-- Whether stopping fails. -/
  failsStop : Bool := false
  /-- Whether a reset fails. -/
  failsReset : Bool := false
  /-- Whether the oldest superpage cannot be seen. -/
  hidesHead : Bool := false
  /-- The queued superpages, the oldest first. -/
  queue : Fifo Superpage := .empty
  /-- The pushes so far. -/
  pushes : Nat := 0
  /-- Whether the transfer is on. -/
  running : Bool := false
  /-- The registers. -/
  bar : Bar
  deriving Repr, DecidableEq

namespace Scripted

/-- A refusal with the given text. -/
def refusal (text : String) : Except Error Unit :=
  .error (.channel (.other text))

/-- Starts the transfer. -/
def start (c : Scripted) : Except Error Unit × Scripted :=
  if c.failsStart then (refusal "start failed", c) else (.ok (), { c with running := true })

/-- Stops the transfer, also if it fails. -/
def stop (c : Scripted) : Except Error Unit × Scripted :=
  (if c.failsStop then refusal "stop failed" else .ok (), { c with running := false })

/-- Resets nothing. -/
def reset (c : Scripted) : Except Error Unit × Scripted :=
  (if c.failsReset then refusal "reset failed" else .ok (), c)

/-- The number of pages after which a superpage is filled. -/
def pagesToFill (pageSize : Nat) (s : Superpage) : Nat :=
  (s.size - s.received + pageSize - 1) / pageSize

/-- One superpage filled as far as the budget goes, and the rest of the budget. -/
def fillOne (pageSize : Nat) (budget? : Option Nat) (s : Superpage) : Superpage × Option Nat :=
  let n := match budget? with
    | none => pagesToFill pageSize s
    | some b => min b (pagesToFill pageSize s)
  ({ s with received := s.received + n * pageSize }, budget?.map (· - n))

theorem fillOne_of_isFilled (pageSize : Nat) (budget? : Option Nat) {s : Superpage}
    (h : s.isFilled = true) : fillOne pageSize budget? s = (s, budget?) := by
  have h := of_decide_eq_true h
  have : pagesToFill pageSize s = 0 := by
    rw [pagesToFill, Nat.sub_eq_zero_of_le h, Nat.zero_add]
    cases pageSize with
    | zero => rfl
    | succ n => exact Nat.div_eq_of_lt (Nat.lt_succ_self n)
  cases budget? <;> simp [fillOne, this]

/-- Counts pages of the queued superpages as received, in order, if the transfer is on and the
budget is not spent. -/
def fill (c : Scripted) (m : Memory) : Scripted × Memory :=
  if c.running && c.budget? != some 0 then
    match c.queue.updateUnless Superpage.isFilled (fillOne c.pageSize) c.budget? with
    | (queue, budget?) => ({ c with budget?, queue }, m)
  else (c, m)

/-- The queue with a superpage behind the others. -/
def enqueue (c : Scripted) (s : Superpage) : Scripted :=
  match c with
  | ⟨family, pageSize, capacity, budget?, acceptedPushes?, popRule, failsStart, failsStop,
      failsReset, hidesHead, queue, pushes, running, bar⟩ =>
    ⟨family, pageSize, capacity, budget?, acceptedPushes?, popRule, failsStart, failsStop,
      failsReset, hidesHead, queue.push s, pushes, running, bar⟩

/-- Queues a superpage as it is, unless it is to be refused. -/
def push (c : Scripted) (s : Superpage) : Except Error Unit × Scripted :=
  let c := { c with pushes := c.pushes + 1 }
  if c.acceptedPushes?.any (· < c.pushes) then (refusal "rejected", c)
  else (.ok (), c.enqueue s)

/-- Takes the oldest superpage, if it is filled or the transfer is off. -/
def popOldest (c : Scripted) : Option Superpage × Scripted :=
  match c.queue.head? with
  | none => (none, c)
  | some s =>
    if s.isFilled || !c.running then (some s, { c with queue := c.queue.tail }) else (none, c)

/-- Takes a superpage by the rule of the channel. -/
def pop (c : Scripted) : Option Superpage × Scripted :=
  if c.running then
    match c.popRule with
    | .oldest => c.popOldest
    | .nothing => (none, c)
    | .newest => (c.queue.last?, { c with queue := c.queue.init })
  else c.popOldest

/-- A channel that is off gives back all its superpages. -/
theorem popsAll_of_off {c : Scripted} (hc : c.running = false) :
    ∃ c', PopsAll pop c c.queue.toList c' ∧ c'.running = false ∧ c'.queue.toList = [] := by
  refine PopsAll.of_queue (fun c : Scripted => c.queue) (fun c => c.running = false) (fun c hc h => ?_)
    (fun c s hc h => ?_) hc rfl
  · rw [pop, hc, if_neg Bool.false_ne_true, popOldest, h]
  · refine ⟨{ c with queue := c.queue.tail }, ?_, hc, rfl⟩
    rw [pop, hc, if_neg Bool.false_ne_true, popOldest, h, hc]
    simp

instance : Channel Scripted where
  family c := c.family
  start := start
  stop := stop
  reset := reset
  fill := fill
  available c := c.capacity - c.queue.length
  queued c := c.queue.length
  head? c := if c.hidesHead then none else c.queue.head?
  push := push
  pop := pop
  bar c := c.bar
  withBar c b := { c with bar := b }
  held c := c.queue.length
  pops_all c := by
    obtain ⟨c', hall, -⟩ := popsAll_of_off (c := c.stop.2) rfl
    exact ⟨_, c', hall, Nat.le_of_eq (Fifo.length_toList _)⟩

end Scripted

end DmaReadout
