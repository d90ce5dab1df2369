import DmaReadout.Sink

/-! # Sinks that run full

A sink takes bytes as long as it has room. However they are offered to it, it takes their front part.

* `take_of_room`, `take_of_full`, `take_spent`, `taken_of_ok`, `take_unlimited`: single offers.
* `take_append`: two offers in a row are one; `fits_behind_iff`: when the second one fits.
* `taken_limited`, `taken_take`: what is taken in all. -/

namespace DmaReadout

namespace Sink

variable {room : Nat} {taken bytes : ByteArray}

theorem take_of_room (h : bytes.size ≤ room) :
    take ⟨some room, taken⟩ bytes = (.ok (), ⟨some (room - bytes.size), taken ++ bytes⟩) :=
  if_pos h

theorem take_of_full (h : room < bytes.size) :
    take ⟨some room, taken⟩ bytes = (.error .sinkFull, ⟨some 0, taken ++ bytes.extract 0 room⟩) :=
  if_neg (Nat.not_le.2 h)

theorem take_empty (s : Sink) : (s.take .empty).2 = s := by
  obtain ⟨room?, taken⟩ := s
  cases room? with
  | none => exact congrArg (Sink.mk none) ByteArray.append_empty
  | some room =>
    rw [take_of_room (Nat.zero_le room), ByteArray.append_empty]
    rfl

theorem take_spent (taken bytes : ByteArray) :
    (take ⟨some 0, taken⟩ bytes).2 = ⟨some 0, taken⟩ := by
  rcases Nat.eq_zero_or_pos bytes.size with hnil | hpos
  · rw [ByteArray.size_eq_zero_iff.1 hnil, take_empty]
  · rw [take_of_full hpos, ByteArray.extract_same, ByteArray.append_empty]

/-- What fits is taken as a whole. -/
theorem taken_of_ok {s : Sink} (h : (s.take bytes).1 = .ok ()) :
    (s.take bytes).2.taken = s.taken ++ bytes := by
  obtain ⟨room?, taken⟩ := s
  cases room? with
  | none => rfl
  | some room =>
    rcases Nat.lt_or_ge room bytes.size with hfull | hroom
    · rw [take_of_full hfull] at h
      cases h
    · rw [take_of_room hroom]

/-- Everything fits into a sink without a limit. -/
theorem take_unlimited {s : Sink} (h : s.room? = none) (bytes : ByteArray) :
    (s.take bytes).1 = .ok () ∧ (s.take bytes).2.room? = none := by
  obtain ⟨room?, taken⟩ := s
  cases h
  exact ⟨rfl, rfl⟩

/-- What is offered in two parts is taken as if it were offered at once. -/
theorem take_append (s : Sink) (a b : ByteArray) :
    ((s.take a).2.take b).2 = (s.take (a ++ b)).2 := by
  obtain ⟨room?, taken⟩ := s
  cases room? with
  | none => exact congrArg (Sink.mk none) ByteArray.append_assoc
  | some room =>
    have hsize : (a ++ b).size = a.size + b.size := ByteArray.size_append
    have hcut : (a ++ b).extract 0 room = a.extract 0 room ++ b.extract 0 (room - a.size) := by
      rw [ByteArray.extract_append, Nat.zero_sub]
    rcases Nat.lt_or_ge room a.size with hfull | hroom
    · -- the second part comes to a sink that takes nothing any more
      rw [take_of_full hfull, take_spent, take_of_full (by omega), hcut,
        Nat.sub_eq_zero_of_le (Nat.le_of_lt hfull), ByteArray.extract_same, ByteArray.append_empty]
    rw [take_of_room hroom]
    rcases Nat.lt_or_ge (room - a.size) b.size with hfull | hrest
    · have hall : a.extract 0 (max room a.size) = a := ByteArray.extract_zero_max_size
      rw [Nat.max_eq_left hroom] at hall
      rw [take_of_full hfull, take_of_full (by omega), hcut, hall, ByteArray.append_assoc]
    · rw [take_of_room hrest, take_of_room (by omega), hsize, Nat.sub_sub, ByteArray.append_assoc]

/-- A sink with a limit takes what is in front of the limit. -/
theorem taken_limited (room : Nat) (taken bytes : ByteArray) :
    (take ⟨some room, taken⟩ bytes).2.taken = taken ++ bytes.extract 0 room := by
  rcases Nat.lt_or_ge room bytes.size with hfull | hroom
  · rw [take_of_full hfull]
  · have hall : bytes.extract 0 (max room bytes.size) = bytes := ByteArray.extract_zero_max_size
    rw [Nat.max_eq_left hroom] at hall
    rw [take_of_room hroom, hall]

/-- What is offered behind other bytes fits if all of it does, and always if it is nothing. -/
theorem fits_behind_iff (room : Nat) (taken a b : ByteArray) :
    ((take ⟨some room, taken⟩ a).2.take b).1 = .ok () ↔ (a ++ b).size ≤ room ∨ b.size = 0 := by
  have hsize : (a ++ b).size = a.size + b.size := ByteArray.size_append
  have hok : ∀ {rest : Nat} {taken : ByteArray},
      (take ⟨some rest, taken⟩ b).1 = .ok () ↔ b.size ≤ rest := by
    intro rest taken
    rcases Nat.lt_or_ge rest b.size with hfull | hroom
    · rw [take_of_full hfull]
      exact iff_of_false (by simp) (Nat.not_le.2 hfull)
    · rw [take_of_room hroom]
      exact iff_of_true rfl hroom
  rcases Nat.lt_or_ge room a.size with hfull | hroom
  · rw [take_of_full hfull, hok]
    omega
  · rw [take_of_room hroom, hok]
    omega

/-- What a sink takes is the front part of what it is offered. -/
theorem taken_take (s : Sink) (bytes : ByteArray) :
    ∃ k, (s.take bytes).2.taken = s.taken ++ bytes.extract 0 k := by
  obtain ⟨room?, taken⟩ := s
  cases room? with
  | none => exact ⟨bytes.size, by rw [ByteArray.extract_zero_size]; rfl⟩
  | some room => exact ⟨room, taken_limited room taken bytes⟩

end Sink

end DmaReadout
