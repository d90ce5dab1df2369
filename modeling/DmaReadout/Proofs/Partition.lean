import DmaReadout.Proofs.Circulation

/-! # The partition of the superpages

In every state of a run each superpage is in exactly one place, and so no queue is ever too short for
it.

* `Machine.places`: the superpages in all places.
* `Machine.Unhindered`: nothing that the tasks do next with a superpage can fail.
* `places_partition`: the main statement. -/

namespace DmaReadout

/-- The superpage that the feeder took from the free queue and did not push yet. -/
def Feeder.held : Feeder → List Nat
  | .submit offset => [offset]
  | _ => []

/-- The superpage that the reader took from the ready queue and did not give back yet. -/
def Reader.held : Reader → List Nat
  | .reading offset _ | .giveBack offset _ => [offset]
  | _ => []

namespace Machine

/-- The superpages in the channel, without the one that the feeder made ready and is about to take. -/
def inChannel (m : Machine Emulated) : List Nat :=
  m.shared.channel.offsets.drop m.feeder.ahead

/-- The superpages in all places: with the reader, ready, in the channel, with the feeder, free. -/
def places (m : Machine Emulated) : List Nat :=
  m.reader.held ++ m.shared.ready.toList ++ m.inChannel ++ m.feeder.held ++ m.shared.free.toList

/-- Nothing that the two tasks do next with a superpage can fail, and they did not fail so far, except
that a file did not take the copy of a page. -/
structure Unhindered (plan : Plan) (m : Machine Emulated) : Prop where
  gives_back : ∀ offset failure?, m.reader = .giveBack offset failure? →
    (m.shared.offerFree offset).1 = true
  hands_over : ∀ s, m.feeder = .handOver → Channel.head? m.shared.channel = some s →
    (m.shared.offerReady s.offset).1 = true
  submits : ∀ offset, m.feeder = .submit offset →
    (Channel.push m.shared.channel ⟨offset, plan.layout.superpageSize, 0⟩).1 = .ok ()
  collects : ∀ offset, m.feeder = .collect offset →
    ∃ s, (Channel.pop m.shared.channel).1 = some s ∧ s.offset = offset
  feeder_ends : ∀ e, m.feeder ≠ .done (some e)
  reader_ends : ∀ e, m.reader = .done (some e) → ∃ f, e = .file f

variable {plan : Plan} {m : Machine Emulated} {n : Ledger}

theorem Circulates.reader_held (h : m.Circulates plan n) :
    m.reader.held = plan.layout.stretch n.returned (n.returned + m.reader.inHand) := by
  obtain ⟨p, f, r⟩ := m
  have hr := h.reader_holds
  cases r with
  | reading offset page => exact hr.1 ▸ (plan.layout.stretch_one _).symm
  | giveBack offset failure? => exact hr.1 ▸ (plan.layout.stretch_one _).symm
  | poll => exact (plan.layout.stretch_eq_nil le_rfl).symm
  | take => exact (plan.layout.stretch_eq_nil le_rfl).symm
  | done failure? => exact (plan.layout.stretch_eq_nil le_rfl).symm

theorem Circulates.feeder_held (h : m.Circulates plan n) :
    m.feeder.held = plan.layout.stretch n.submitted (n.submitted + m.feeder.inHand) := by
  obtain ⟨p, f, r⟩ := m
  have hf := h.feeder_holds
  cases f with
  | submit offset => exact hf.1 ▸ (plan.layout.stretch_one _).symm
  | poll => exact (plan.layout.stretch_eq_nil le_rfl).symm
  | fill => exact (plan.layout.stretch_eq_nil le_rfl).symm
  | feed => exact (plan.layout.stretch_eq_nil le_rfl).symm
  | handOver => exact (plan.layout.stretch_eq_nil le_rfl).symm
  | collect offset => exact (plan.layout.stretch_eq_nil le_rfl).symm
  | done failure? => exact (plan.layout.stretch_eq_nil le_rfl).symm

theorem Circulates.inChannel_eq (h : m.Circulates plan n) :
    m.inChannel = plan.layout.stretch (n.collected + m.feeder.ahead) n.submitted := by
  rw [inChannel, Emulated.offsets, h.queue_eq, plan.layout.map_offset_descriptors,
    plan.layout.drop_stretch (le_trans h.ahead_le h.filled_le)]

/-- The superpages in all places are those of one round, the one to be free next in front. -/
theorem Circulates.places_eq (h : m.Circulates plan n) :
    m.places = plan.layout.stretch n.returned (n.returned + plan.layout.count) := by
  have hret := h.returned_le
  have hsub := h.submitted_le
  have hchannel := le_trans h.ahead_le h.filled_le
  rw [places, h.reader_held, h.ready_eq, h.inChannel_eq, h.feeder_held, h.free_eq,
    plan.layout.stretch_append (Nat.le_add_right _ _) hret,
    plan.layout.stretch_append (le_trans (Nat.le_add_right _ _) hret) hchannel,
    plan.layout.stretch_append (by omega) (Nat.le_add_right _ _),
    plan.layout.stretch_append (by omega) hsub]

theorem Circulates.unhindered (h : m.Circulates plan n) : m.Unhindered plan := by
  obtain ⟨p, f, r⟩ := m
  refine ⟨?_, ?_, ?_, ?_, ?_, ?_⟩
  · rintro offset failure? rfl
    obtain ⟨s, hs, -⟩ := Ring.offer_of_room offset (h.free_room rfl)
    rw [Pipeline.offerFree_eq]
    exact congrArg Prod.fst hs
  · rintro s rfl hhead
    obtain ⟨ready, hready, -⟩ := Ring.offer_of_room s.offset (h.ready_room rfl (h.head_eq hhead).1)
    rw [Pipeline.offerReady_eq]
    exact congrArg Prod.fst hready
  · rintro offset rfl
    exact congrArg Prod.fst h.push_eq
  · rintro offset rfl
    exact ⟨_, congrArg Prod.fst h.pop_eq, rfl⟩
  · rintro e rfl
    exact nomatch h.feeder_holds
  · rintro e rfl
    exact h.reader_holds.1 e rfl

/-- **The partition.** From a start with all superpages free, in every state that the two tasks reach by
any sequence of turns, also with requests to end in between, each superpage of the buffer is in exactly
one place and nothing else is in any. No push to a queue or to the channel fails, and the channel
gives back what was made ready. -/
theorem places_partition (plan : Plan) {p : Pipeline Emulated} (h : Prefilled plan.layout p)
    (turns : List Turn) :
    ((start p).run plan turns).places.Perm plan.layout.offsets ∧
      ((start p).run plan turns).places.Nodup ∧ ((start p).run plan turns).Unhindered plan := by
  have hc := circulates_run h turns
  have hperm : ((start p).run plan turns).places.Perm plan.layout.offsets := by
    rw [hc.places_eq]
    exact plan.layout.stretch_perm _
  exact ⟨hperm, hperm.nodup_iff.2 plan.layout.nodup_offsets, hc.unhindered⟩

/-- A superpage of the small pipeline that is made ready, read and given back before the feeder takes it
from the channel is counted once. -/
theorem places_partition_small :
    ((start .small).run { layout := .small }
        (List.replicate 10 .feed ++ List.replicate 6 .read)).feeder = .collect 0 ∧
      ((start .small).run { layout := .small }
        (List.replicate 10 .feed ++ List.replicate 6 .read)).shared.free.toList = [80, 0] ∧
      ((start .small).run { layout := .small }
        (List.replicate 10 .feed ++ List.replicate 6 .read)).places.Perm
          Layout.small.offsets := by
  refine ⟨by decide +kernel, by decide +kernel, ?_⟩
  exact (places_partition { layout := .small } prefilled_small _).1

end Machine

end DmaReadout
