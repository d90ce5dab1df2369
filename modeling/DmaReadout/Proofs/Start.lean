import DmaReadout.Bench
import DmaReadout.Proofs.Pages
import DmaReadout.Proofs.Ring

/-! # The start of a run

* `Equipped`: what does not change during a run on an emulated channel.
* `Prefilled`: the start of a run, with all superpages free.
* `Bench.prefilled_of_create`: every run on an emulated channel that was just made starts like this.
* `Pipeline.small`: a small pipeline at its start. -/

namespace DmaReadout

/-- What does not change during a run on an emulated channel. -/
structure Equipped (l : Layout) (p : Pipeline Emulated) : Prop where
  aligned : l.pageSize % 4 = 0
  addressable : l.bytes < 2 ^ 64
  memory_holds : l.bytes ≤ p.memory.size
  serves : p.channel.Serves l
  free_capacity : p.free.capacity = l.count
  ready_capacity : p.ready.capacity = l.count

/-- **The start of a run**: a started channel without superpages, all superpages free, and queues that
hold one value for every superpage. -/
structure Prefilled (l : Layout) (p : Pipeline Emulated) : Prop extends Equipped l p where
  queue_nil : p.channel.queue.toList = []
  free_eq : p.free.toList = l.offsets
  ready_nil : p.ready.toList = []

/-- Every page of the count can be viewed. -/
theorem Equipped.view_position {l : Layout} {p : Pipeline Emulated} (h : Equipped l p) (e : Nat) :
    p.memory.view (l.position e) l.pageSize = .ok (l.window e) :=
  l.view_position h.aligned h.addressable h.memory_holds e

/-- Steps that keep the sizes keep the rest. -/
theorem Equipped.keeps {l : Layout} {p q : Pipeline Emulated} (h : Equipped l p)
    (hm : q.memory.size = p.memory.size) (hc : q.channel.Serves l)
    (hf : q.free.capacity = p.free.capacity) (hr : q.ready.capacity = p.ready.capacity) :
    Equipped l q :=
  ⟨h.aligned, h.addressable, hm ▸ h.memory_holds, hc, hf.trans h.free_capacity,
    hr.trans h.ready_capacity⟩

/-! ### Runs of a configuration -/

/-- A run on a started and empty emulated channel begins with all superpages free. -/
theorem Bench.prefilled_pipeline (b : Bench) (s : Setup) {c : Emulated} {memory : Memory}
    (aligned : b.layout.pageSize % 4 = 0) (addressable : memory.size < 2 ^ 64)
    (holds : b.layout.bytes ≤ memory.size) (serves : c.Serves b.layout)
    (queue_nil : c.queue.toList = []) : Prefilled b.layout (b.pipeline s c memory) := by
  have hcap : b.queue.capacity = b.layout.count := Ring.capacity_ofSlots _ _
  have hnil : b.queue.toList = [] := Ring.toList_ofSlots _ _
  obtain ⟨hfree, hfreecap⟩ := Ring.pushAll_of_room b.layout.offsets (r := b.queue) (by
    rw [hnil, hcap, b.layout.length_offsets]
    exact (Nat.zero_add _).le)
  -- the register stress touches nothing of the channel but its registers
  have hchannel : (b.pipeline s c memory).channel.Serves b.layout ∧
      (b.pipeline s c memory).channel.queue = c.queue := by
    unfold Bench.pipeline
    cases s.hammer? with
    | none => exact ⟨serves, rfl⟩
    | some hammer => exact ⟨⟨serves.running, serves.pageSize_eq, serves.bytes_le,
        serves.capacity_pos⟩, rfl⟩
  exact
    { aligned
      addressable := lt_of_le_of_lt holds addressable
      memory_holds := holds
      serves := hchannel.1
      free_capacity := hfreecap.trans hcap
      ready_capacity := hcap
      queue_nil := hchannel.2 ▸ queue_nil
      free_eq := by rw [← List.nil_append b.layout.offsets, ← hnil]; exact hfree
      ready_nil := hnil }

/-- **Every run on a new emulated channel**, of any capacity and fault interval, begins with all
superpages free, nothing counted and a generator that has written nothing. -/
theorem Bench.prefilled_of_create (b : Bench) (s : Setup) {family : Family} {size : Nat}
    {pattern : Pattern} {c : Emulated} {memory : Memory}
    (created : Emulated.create family size b.layout.pageSize pattern = .ok c)
    (sized : memory.size = size) (addressable : size < 2 ^ 64) (holds : b.layout.bytes ≤ size)
    (capacity interval : Nat) :
    Prefilled b.layout
        (b.pipeline s ((c.withCapacity capacity).withFaultInterval interval).start.2 memory) ∧
      (b.pipeline s ((c.withCapacity capacity).withFaultInterval interval).start.2
        memory).stats.read = 0 ∧
      (b.pipeline s ((c.withCapacity capacity).withFaultInterval interval).start.2
        memory).stats.pushed = 0 ∧
      (b.pipeline s ((c.withCapacity capacity).withFaultInterval interval).start.2
        memory).channel.generator =
          { family, pattern, pageSize := b.layout.pageSize
            faultInterval? := if interval = 0 then none else some interval } := by
  have hserves := Emulated.serves_of_create created holds capacity interval
  obtain ⟨⟨-, haligned⟩, rfl⟩ := Emulated.create_eq_ok.1 created
  subst sized
  refine ⟨b.prefilled_pipeline s haligned addressable holds hserves rfl, ?_⟩
  unfold Bench.pipeline
  cases s.hammer? <;> exact ⟨rfl, rfl, rfl⟩

/-! ### A small pipeline -/

/-- Two superpages of two pages of ten words. -/
def Layout.small : Layout :=
  ⟨2, 80, 40, by decide, by decide, by decide, by decide⟩

/-- A started channel for one superpage at a time, which spoils every second page. -/
def Emulated.small : Emulated where
  generator := { family := .cru, pattern := .incremental, pageSize := 40, faultInterval? := some 2 }
  bufferSize := 160
  capacity := 1
  running := true
  bar := .zeroed .cru

/-- A pipeline on this channel, with all superpages free and a copy of the pages in bytes. -/
def Pipeline.small : Pipeline Emulated where
  memory := { size := 160 }
  channel := .small
  free := (Ring.ofSlots 3 (by decide)).pushAll Layout.small.offsets
  ready := .ofSlots 3 (by decide)
  dump? := some { mode := .binary, sink := {} }

theorem prefilled_small : Prefilled .small .small where
  aligned := rfl
  addressable := by decide
  memory_holds := by decide
  serves := ⟨rfl, rfl, by decide, by decide⟩
  free_capacity := rfl
  ready_capacity := rfl
  queue_nil := rfl
  free_eq := by decide
  ready_nil := rfl

end DmaReadout
