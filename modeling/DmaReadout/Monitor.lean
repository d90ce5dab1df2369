import DmaReadout.Channel.Bar
import DmaReadout.Clock
import DmaReadout.Status

/-! # The monitor

* `Cues`: what happens from outside when the display is brought up to date for the `n`-th time.
* `Monitor.run`: looks for an interrupt and shows the status, again and again until it should
  end. -/

namespace DmaReadout

/-- What happens at certain updates of the display, counted from one; zero means never. -/
structure Cues where
  /-- The update at which the run is asked to end. -/
  stopAt : Nat := 0
  /-- The update at which the run is interrupted. -/
  interruptAt : Nat := 0
  /-- The update that fails. -/
  failAt : Nat := 0
  deriving Repr, DecidableEq

/-- A monitor between two looks. -/
structure Monitor where
  /-- The counters to show. -/
  stats : Stats
  /-- The registers with the temperature. -/
  bar : Bar
  /-- The display, if there is one that works. -/
  display? : Option StatusDisplay
  /-- The updates so far. -/
  updates : Nat := 0
  /-- Whether the run was interrupted. -/
  interrupted : Bool
  /-- Whether the run is asked to end. -/
  stopped : Bool
  /-- The text of a display that was given up. -/
  lost : ByteArray := .empty

namespace Monitor

/-- The monitor after one update of its display. A display that fails is given up. -/
def refresh (m : Monitor) (cues : Cues) (d : StatusDisplay) (elapsed : Duration) : Monitor :=
  match d.update elapsed m.stats m.bar.temperature? with
  | (.error _, d) => { m with display? := none, lost := d.sink.taken }
  | (.ok _, d) =>
    let n := m.updates + 1
    let m := { m with
      updates := n
      stopped := m.stopped || n == cues.stopAt
      interrupted := m.interrupted || n == cues.interruptAt }
    if n = cues.failAt then { m with display? := none, lost := d.sink.taken }
    else { m with display? := some d }

/-- The monitor after one look. An interrupt asks the run to end. -/
def tick (m : Monitor) (cues : Cues) (elapsed : Duration) : Monitor :=
  if m.interrupted then { m with stopped := true }
  else
    match m.display? with
    | none => m
    | some d => m.refresh cues d elapsed

/-- The monitor after its looks, one in each interval, at most `fuel` of them. After each it must
be able to tell when the next one is due. -/
def ticks (m : Monitor) (cues : Cues) (interval : Duration) :
    (fuel : Nat) → (elapsed : Duration) → Except Misuse Monitor
  | 0, _ => .ok m
  | fuel + 1, elapsed =>
    if m.stopped then .ok m
    else
      match Clock.after ⟨Clock.now.nanos + elapsed.nanos⟩ interval with
      | .error e => .error e
      | .ok _ => (m.tick cues elapsed).ticks cues interval fuel ⟨elapsed.nanos + interval.nanos⟩

/-- The monitor at its end. After the last cue it looks once more. -/
def run (m : Monitor) (cues : Cues) (interval : Duration) : Except Misuse Monitor :=
  m.ticks cues interval (cues.stopAt + cues.interruptAt + 2) .zero

/-- All text that was shown. -/
def shown (m : Monitor) : ByteArray :=
  match m.display? with
  | some d => d.sink.taken
  | none => m.lost

end Monitor

end DmaReadout
