import DmaReadout.Ring

/-! # Bounded queues as lists

What the operations of a ring do to the list of its values, as far as there is room. A full ring holds
`capacity` values, and no operation changes the capacity.

* `push?_of_room`, `offer_of_room`: with room, a value goes behind the others.
* `pushAll_of_room`: with room for all of them, a list goes behind the values. -/

namespace DmaReadout

namespace Ring

variable {α : Type}

theorem capacity_ofSlots (slots : Nat) (h : 2 ≤ slots) :
    (ofSlots slots h : Ring α).capacity = slots - 1 := by
  simp [capacity, ofSlots]

theorem capacity_push {r s : Ring α} {v : α} (h : r.push? v = some s) :
    s.capacity = r.capacity := by
  unfold push? at h
  split at h
  · simp at h
  · rw [← Option.some.inj h]
    simp [capacity]

theorem capacity_pop {r s : Ring α} {v : α} (h : r.pop = some (v, s)) :
    s.capacity = r.capacity := by
  unfold pop at h
  split at h
  · simp at h
  · split at h
    · simp at h
    · rw [← (Prod.mk.inj (Option.some.inj h)).2]
      rfl

theorem length_le_capacity (r : Ring α) : r.toList.length ≤ r.capacity := by
  have hlt := r.length_lt_size
  rw [length_toList, capacity]
  omega

/-- With room, a value goes behind the others. -/
theorem push?_of_room {r : Ring α} (v : α) (h : r.toList.length < r.capacity) :
    ∃ s, r.push? v = some s ∧ s.toList = r.toList ++ [v] ∧ s.capacity = r.capacity := by
  rw [length_toList] at h
  cases hs : r.push? v with
  | none =>
    have hfull := (r.isFull_iff).1 ((r.push?_eq_none_iff v).1 hs)
    omega
  | some s => exact ⟨s, rfl, toList_push hs, capacity_push hs⟩

theorem offer_of_room {r : Ring α} (v : α) (h : r.toList.length < r.capacity) :
    ∃ s, r.offer v = (true, s) ∧ s.toList = r.toList ++ [v] ∧ s.capacity = r.capacity := by
  obtain ⟨s, hs, hl, hc⟩ := push?_of_room v h
  exact ⟨s, by rw [offer, hs], hl, hc⟩

/-- A full queue stays as it is. -/
theorem offer_of_full {r : Ring α} (v : α) (h : r.capacity ≤ r.toList.length) :
    r.offer v = (false, r) := by
  have hle := r.length_le_capacity
  have hfull : r.isFull = true := (r.isFull_iff).2 (by
    rw [← length_toList]
    omega)
  rw [offer, (r.push?_eq_none_iff v).2 hfull]

theorem mem_offer {r : Ring α} {v x : α} (h : x ∈ (r.offer v).2.toList) : x ∈ r.toList ∨ x = v := by
  rcases Nat.lt_or_ge r.toList.length r.capacity with hroom | hfull
  · obtain ⟨s, hs, hl, -⟩ := offer_of_room v hroom
    rw [hs, hl, List.mem_append, List.mem_singleton] at h
    exact h
  · rw [offer_of_full v hfull] at h
    exact Or.inl h

/-- With room for all of them, the values of a list go behind the others. -/
theorem pushAll_of_room : ∀ (l : List α) {r : Ring α}, r.toList.length + l.length ≤ r.capacity →
    (r.pushAll l).toList = r.toList ++ l ∧ (r.pushAll l).capacity = r.capacity
  | [], r, _ => by simp [pushAll]
  | v :: l, r, h => by
    rw [List.length_cons] at h
    obtain ⟨s, hs, hl, hc⟩ := offer_of_room (r := r) v (by omega)
    have hroom : s.toList.length + l.length ≤ s.capacity := by
      rw [hl, hc, List.length_append, List.length_singleton]
      omega
    obtain ⟨ih, ihc⟩ := pushAll_of_room l hroom
    rw [pushAll, hs]
    exact ⟨by rw [ih, hl, List.append_assoc, List.singleton_append], by rw [ihc, hc]⟩

end Ring

end DmaReadout
