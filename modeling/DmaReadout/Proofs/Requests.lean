import DmaReadout.Proofs.Ring

/-! # Requests to a bounded queue

Whoever holds an end of a queue sees only the replies to its requests. The replies of a ring are those
of a list of at most `capacity` values, whatever is asked for and in whatever order, and they come from
the cells between the two indices alone.

* `Request`, `Reply`: what either end asks for and is told; `Ring.reply`: the reply of a ring,
  `Request.onList`: that of a list; `respond`: requests made in order.
* `popAll_eq_drain`: draining pops until nothing is left.
* `reply_refines`: a ring replies to one request as the list of its values.
* `Holds`: the cells between the indices; `reply_keeps`: no request overwrites one of them;
  `Agrees.reply`: the other cells are not looked at.
* `refines_list`: all of it along the requests to a fresh ring. -/

namespace DmaReadout

/-- The ends of a queue. -/
inductive End where
  | producer
  | consumer
  deriving Repr, DecidableEq

/-- A request to a queue; the last three are open to either end. -/
inductive Request (α : Type) where
  | push (v : α)
  | pop
  | drain
  | length (side : End)
  | isEmpty (side : End)
  | capacity (side : End)
  deriving Repr, DecidableEq

/-- What a request is told. -/
inductive Reply (α : Type) where
  | taken
  /-- The value that was not taken. -/
  | refused (v : α)
  | popped (v : Option α)
  | drained (vs : List α)
  | count (n : Nat)
  | empty (b : Bool)
  deriving Repr, DecidableEq

variable {α σ : Type}

/-- What a request does to a list of at most `n` values. -/
def Request.onList (n : Nat) (l : List α) : Request α → Reply α × List α
  | .push v => if l.length < n then (.taken, l ++ [v]) else (.refused v, l)
  | .pop => (.popped l.head?, l.tail)
  | .drain => (.drained l, [])
  | .length _ => (.count l.length, l)
  | .isEmpty _ => (.empty l.isEmpty, l)
  | .capacity _ => (.count n, l)

/-- The replies to requests made in order, and what is left in the end. -/
def respond (f : σ → Request α → Reply α × σ) (s : σ) : List (Request α) → List (Reply α) × σ
  | [] => ([], s)
  | c :: cs => ((f s c).1 :: (respond f (f s c).2 cs).1, (respond f (f s c).2 cs).2)

namespace Ring

/-- What a request does to a ring. -/
def reply (r : Ring α) : Request α → Reply α × Ring α
  | .push v =>
    match r.push? v with
    | none => (.refused v, r)
    | some s => (.taken, s)
  | .pop =>
    match r.pop with
    | none => (.popped none, r)
    | some (v, s) => (.popped (some v), s)
  | .drain => (.drained r.drain.1, r.drain.2)
  | .length _ => (.count r.length, r)
  | .isEmpty _ => (.empty r.isEmpty, r)
  | .capacity _ => (.count r.capacity, r)

/-! ### The fields after an operation -/

theorem fields_of_push {r s : Ring α} {v : α} (h : r.push? v = some s) :
    s.cells = r.cells.setIfInBounds r.write (some v) ∧ s.read = r.read ∧
      s.write = after r.cells.size r.write := by
  unfold push? at h
  split at h
  · simp at h
  · rw [← Option.some.inj h]
    exact ⟨rfl, rfl, rfl⟩

theorem fields_of_pop {r s : Ring α} {v : α} (h : r.pop = some (v, s)) :
    s.cells = r.cells ∧ s.read = after r.cells.size r.read ∧ s.write = r.write := by
  unfold pop at h
  split at h
  · simp at h
  · split at h
    · simp at h
    · rw [← (Prod.mk.inj (Option.some.inj h)).2]
      exact ⟨rfl, rfl, rfl⟩

theorem ext_fields {r s : Ring α} (hc : r.cells = s.cells) (hr : r.read = s.read)
    (hw : r.write = s.write) : r = s := by
  cases r
  cases s
  simp_all

theorem read_eq_write {r : Ring α} (h : r.toList = []) : r.read = r.write := by
  have hlen : r.length = 0 := by rw [← length_toList, h, List.length_nil]
  have := r.read_lt
  unfold length at hlen
  split at hlen <;> omega

/-! ### Draining as popping -/

/-- The values popped until the queue is empty, and the queue then. -/
def popAll (r : Ring α) : List α × Ring α :=
  match _h : r.pop with
  | none => ([], r)
  | some (v, s) => (v :: s.popAll.1, s.popAll.2)
termination_by r.length
decreasing_by
  all_goals
    rw [← length_toList, ← length_toList, toList_pop _h, List.length_cons]
    omega

theorem popAll_of_none {r : Ring α} (h : r.pop = none) : r.popAll = ([], r) := by
  rw [popAll]
  split
  · rfl
  · simp_all

theorem popAll_of_some {r s : Ring α} {v : α} (h : r.pop = some (v, s)) :
    r.popAll = (v :: s.popAll.1, s.popAll.2) := by
  rw [popAll]
  split
  all_goals simp_all

/-- **Draining pops until nothing is left.** -/
theorem popAll_eq_drain (r : Ring α) : r.popAll = r.drain := by
  induction hn : r.length using Nat.strongRecOn generalizing r with
  | ind n ih =>
    cases hp : r.pop with
    | none =>
      have hnil : r.toList = [] := (r.pop_eq_none_iff).1 hp
      rw [popAll_of_none hp]
      refine Prod.ext hnil.symm (ext_fields rfl ?_ rfl)
      exact read_eq_write hnil
    | some p =>
      obtain ⟨v, s⟩ := p
      have hlist : r.toList = v :: s.toList := toList_pop hp
      have hshort : s.length < n := by
        rw [← hn, ← length_toList, ← length_toList, hlist, List.length_cons]
        omega
      obtain ⟨hcells, -, hwrite⟩ := fields_of_pop hp
      rw [popAll_of_some hp, ih s.length hshort s rfl]
      refine Prod.ext hlist.symm (ext_fields hcells ?_ ?_)
      · exact hwrite
      · exact hwrite

/-! ### One request -/

theorem push?_of_full {r : Ring α} (v : α) (h : r.capacity ≤ r.toList.length) :
    r.push? v = none := by
  have hle := r.length_le_capacity
  refine (r.push?_eq_none_iff v).2 ((r.isFull_iff).2 ?_)
  rw [← length_toList]
  omega

/-- **A ring replies to a request** as the list of its values, and leaves that list. -/
theorem reply_refines (r : Ring α) (c : Request α) :
    (r.reply c).1 = (c.onList r.capacity r.toList).1 ∧
      (r.reply c).2.toList = (c.onList r.capacity r.toList).2 ∧
      (r.reply c).2.capacity = r.capacity := by
  cases c with
  | push v =>
    rcases Nat.lt_or_ge r.toList.length r.capacity with hroom | hfull
    · obtain ⟨s, hs, hl, hc⟩ := push?_of_room v hroom
      rw [reply, hs, Request.onList, if_pos hroom]
      exact ⟨rfl, hl, hc⟩
    · rw [reply, push?_of_full v hfull, Request.onList, if_neg (Nat.not_lt.2 hfull)]
      exact ⟨rfl, rfl, rfl⟩
  | pop =>
    cases hp : r.pop with
    | none =>
      have hnil : r.toList = [] := (r.pop_eq_none_iff).1 hp
      rw [reply, hp, Request.onList]
      exact ⟨by rw [hnil, List.head?_nil], by rw [hnil, List.tail_nil], rfl⟩
    | some p =>
      obtain ⟨v, s⟩ := p
      rw [reply, hp, Request.onList, toList_pop hp]
      exact ⟨rfl, rfl, capacity_pop hp⟩
  | drain => exact ⟨rfl, r.toList_drain_snd, rfl⟩
  | length side =>
    refine ⟨?_, rfl, rfl⟩
    simp only [reply, Request.onList, length_toList]
  | isEmpty side =>
    refine ⟨?_, rfl, rfl⟩
    have hsame : r.isEmpty = r.toList.isEmpty := by
      rw [Bool.eq_iff_iff, r.isEmpty_iff, List.isEmpty_iff]
    simp only [reply, Request.onList, hsame]
  | capacity side => exact ⟨rfl, rfl, rfl⟩

/-! ### The cells between the indices -/

/-- Cell `i` is one of those from the read index up to the write index, round the end of the ring. -/
def Holds (r : Ring α) (i : Nat) : Prop :=
  if r.read ≤ r.write then r.read ≤ i ∧ i < r.write
  else (r.read ≤ i ∧ i < r.cells.size) ∨ i < r.write

theorem holds_place (r : Ring α) {k : Nat} (h : k < r.length) : r.Holds (r.place k) := by
  have := r.read_lt
  have := r.write_lt
  unfold length at h
  unfold Holds place
  (repeat' split at h) <;> (repeat' split) <;> omega

theorem not_holds_of_eq {r : Ring α} (h : r.read = r.write) (i : Nat) : ¬ r.Holds i := by
  unfold Holds
  rw [if_pos (Nat.le_of_eq h)]
  omega

theorem holds_of_push {r s : Ring α} {v : α} (h : r.push? v = some s) {i : Nat} (hi : s.Holds i) :
    r.Holds i ∨ i = r.write := by
  have := r.write_lt
  obtain ⟨hcells, hread, hwrite⟩ := fields_of_push h
  have hsize : s.cells.size = r.cells.size := by rw [hcells, Array.size_setIfInBounds]
  unfold Holds at *
  rw [hread, hwrite, hsize] at hi
  unfold after at hi
  (repeat' split at hi) <;> split <;> omega

theorem holds_of_pop {r s : Ring α} {v : α} (h : r.pop = some (v, s)) {i : Nat} (hi : s.Holds i) :
    r.Holds i := by
  have := r.read_lt
  have := r.write_lt
  have hne : r.read ≠ r.write := by
    intro he
    rw [pop, dif_pos he] at h
    simp at h
  obtain ⟨hcells, hread, hwrite⟩ := fields_of_pop h
  unfold Holds at *
  rw [hread, hwrite, hcells, after] at hi
  by_cases hend : r.read + 1 = r.cells.size
  · rw [if_pos hend] at hi
    split at hi <;> split <;> omega
  · rw [if_neg hend] at hi
    split at hi <;> split <;> omega

theorem not_holds_write (r : Ring α) : ¬ r.Holds r.write := by
  have := r.write_lt
  unfold Holds
  split <;> omega

/-- No request overwrites a cell between the indices. -/
theorem reply_keeps (r : Ring α) (c : Request α) {i : Nat} (h : r.Holds i) :
    (r.reply c).2.cells[i]? = r.cells[i]? := by
  cases c with
  | push v =>
    cases hp : r.push? v with
    | none => simp only [reply, hp]
    | some s =>
      obtain ⟨hcells, -, -⟩ := fields_of_push hp
      have hne : r.write ≠ i := fun he => r.not_holds_write (he ▸ h)
      simp only [reply, hp, hcells]
      exact Array.getElem?_setIfInBounds_ne hne
  | pop =>
    cases hp : r.pop with
    | none => simp only [reply, hp]
    | some p =>
      obtain ⟨v, s⟩ := p
      simp only [reply, hp, (fields_of_pop hp).1]
  | drain => rfl
  | length side => rfl
  | isEmpty side => rfl
  | capacity side => rfl

/-- Two rings with the same indices and the same cells between them. -/
structure Agrees (r s : Ring α) : Prop where
  size : s.cells.size = r.cells.size
  read : s.read = r.read
  write : s.write = r.write
  cells : ∀ i, r.Holds i → s.cells[i]? = r.cells[i]?

section Agrees
variable {r s : Ring α} (h : Agrees r s)
include h

theorem Agrees.length_eq : s.length = r.length := by
  unfold length
  rw [h.size, h.read, h.write]

theorem Agrees.capacity_eq : s.capacity = r.capacity := by
  unfold capacity
  rw [h.size]

theorem Agrees.toList_eq : s.toList = r.toList := by
  have hplace : ∀ k, s.place k = r.place k := by
    intro k
    unfold place
    rw [h.size, h.read]
  unfold toList
  rw [h.length_eq]
  refine filterMap_agree fun k hk => ?_
  unfold at?
  rw [hplace, h.cells _ (r.holds_place (List.mem_range.1 hk))]

theorem Agrees.push {v : α} {r' s' : Ring α} (hr : r.push? v = some r') (hs : s.push? v = some s') :
    Agrees r' s' := by
  obtain ⟨hrc, hrr, hrw⟩ := fields_of_push hr
  obtain ⟨hsc, hsr, hsw⟩ := fields_of_push hs
  refine ⟨?_, by rw [hsr, hrr, h.read], by rw [hsw, hrw, h.size, h.write], fun i hi => ?_⟩
  · rw [hsc, hrc, Array.size_setIfInBounds, Array.size_setIfInBounds, h.size]
  · rw [hsc, hrc, h.write]
    by_cases hw : r.write = i
    · rw [← hw, Array.getElem?_setIfInBounds_self, Array.getElem?_setIfInBounds_self, h.size]
    · have hold : r.Holds i := (holds_of_push hr hi).resolve_right (Ne.symm hw)
      rw [Array.getElem?_setIfInBounds_ne hw, Array.getElem?_setIfInBounds_ne hw, h.cells i hold]

theorem Agrees.pop {p q : α × Ring α} (hr : r.pop = some p) (hs : s.pop = some q) :
    Agrees p.2 q.2 := by
  obtain ⟨hrc, hrr, hrw⟩ := fields_of_pop hr
  obtain ⟨hsc, hsr, hsw⟩ := fields_of_pop hs
  refine ⟨by rw [hsc, hrc, h.size], by rw [hsr, hrr, h.size, h.read], ?_, fun i hi => ?_⟩
  · rw [hsw, hrw, h.write]
  · rw [hsc, hrc, h.cells i (holds_of_pop hr hi)]

/-- The reply to a request, and the cells between the indices afterwards, do not depend on the other
cells. -/
theorem Agrees.reply (c : Request α) :
    (s.reply c).1 = (r.reply c).1 ∧ Agrees (r.reply c).2 (s.reply c).2 := by
  have hreply : (s.reply c).1 = (r.reply c).1 := by
    rw [(s.reply_refines c).1, (r.reply_refines c).1, h.capacity_eq, h.toList_eq]
  refine ⟨hreply, ?_⟩
  cases c with
  | push v =>
    rcases Nat.lt_or_ge r.toList.length r.capacity with hroom | hfull
    · obtain ⟨r', hr, -, -⟩ := push?_of_room v hroom
      obtain ⟨s', hs, -, -⟩ := push?_of_room (r := s) v (by rwa [h.capacity_eq, h.toList_eq])
      rw [Ring.reply, hr, Ring.reply, hs]
      exact h.push hr hs
    · have hfull' : s.capacity ≤ s.toList.length := by rwa [h.capacity_eq, h.toList_eq]
      rw [Ring.reply, push?_of_full v hfull, Ring.reply, push?_of_full v hfull']
      exact h
  | pop =>
    cases hr : r.pop with
    | none =>
      have hs : s.pop = none := by rw [pop_eq_none_iff, h.toList_eq, ← pop_eq_none_iff, hr]
      rw [Ring.reply, hr, Ring.reply, hs]
      exact h
    | some p =>
      cases hs : s.pop with
      | none =>
        rw [pop_eq_none_iff, h.toList_eq, ← pop_eq_none_iff, hr] at hs
        simp at hs
      | some q =>
        rw [Ring.reply, hr, Ring.reply, hs]
        exact h.pop hr hs
  | drain =>
    refine ⟨h.size, h.write, h.write, fun i hi => ?_⟩
    exact absurd hi (not_holds_of_eq rfl i)
  | length side => exact h
  | isEmpty side => exact h
  | capacity side => exact h

end Agrees

/-! ### A sequence of requests -/

/-- Requests made in order get the replies of the list of queued values. -/
theorem respond_refines : ∀ (requests : List (Request α)) (r : Ring α),
    let list := respond (Request.onList r.capacity) r.toList requests
    (respond reply r requests).1 = list.1 ∧ (respond reply r requests).2.toList = list.2 ∧
      (respond reply r requests).2.capacity = r.capacity
  | [], r => ⟨rfl, rfl, rfl⟩
  | c :: requests, r => by
    obtain ⟨hreply, hlist, hcapacity⟩ := r.reply_refines c
    obtain ⟨ihreplies, ihlist, ihcapacity⟩ := respond_refines requests (r.reply c).2
    rw [hlist, hcapacity] at ihreplies ihlist
    rw [respond, respond]
    exact ⟨by rw [hreply, ihreplies], ihlist, by rw [ihcapacity, hcapacity]⟩

/-- **A ring of `slots` cells is a list of at most `slots - 1` values.** Whatever the two ends ask for,
in whatever order, the replies are those of the list, which takes a value as long as it has fewer than
`slots - 1`, hands the value back otherwise, and gives the oldest first. The indices stay below
`slots`; draining is popping until nothing is left; the next request, whichever it is, overwrites no
cell between the indices, and what comes of it is the same whatever the other cells hold. -/
theorem refines_list (slots : Nat) (h : 2 ≤ slots) (requests : List (Request α)) :
    let ring := respond reply (ofSlots slots h) requests
    let list := respond (Request.onList (slots - 1)) [] requests
    (slots < slotLimit → create slots = .ok (ofSlots slots h : Ring α)) ∧
      ring.1 = list.1 ∧ ring.2.toList = list.2 ∧ ring.2.cells.size = slots ∧
      ring.2.read < slots ∧ ring.2.write < slots ∧ ring.2.popAll = ring.2.drain ∧
      ∀ c, (∀ i, ring.2.Holds i → (ring.2.reply c).2.cells[i]? = ring.2.cells[i]?) ∧
        ∀ s, Agrees ring.2 s →
          (s.reply c).1 = (ring.2.reply c).1 ∧ Agrees (ring.2.reply c).2 (s.reply c).2 := by
  intro ring list
  obtain ⟨hreplies, hlist, hcapacity⟩ := respond_refines requests (ofSlots slots h)
  rw [toList_ofSlots, capacity_ofSlots] at hreplies hlist
  have hsize : ring.2.cells.size = slots := by
    have hcap : ring.2.capacity = slots - 1 := by rw [hcapacity, capacity_ofSlots]
    have := ring.2.two_le
    unfold capacity at hcap
    omega
  refine ⟨fun hslots => ?_, hreplies, hlist, hsize, ?_, ?_, ring.2.popAll_eq_drain, fun c => ⟨?_, ?_⟩⟩
  · rw [create, dif_pos h, if_neg (Nat.not_le.2 hslots)]
  · exact hsize ▸ ring.2.read_lt
  · exact hsize ▸ ring.2.write_lt
  · exact fun i hi => ring.2.reply_keeps c hi
  · exact fun s hs => hs.reply c

/-- Four cells whose indices have gone round the end of the ring: the fourth value is handed back. -/
theorem refines_list_round :
    2 ≤ 4 ∧ (respond reply (ofSlots 4 (by decide))
      [.push 10, .push 11, .pop, .push 12, .push 13, .push 14, .length .producer, .drain,
        .isEmpty .consumer]).1 =
      [.taken, .taken, .popped (some 10), .taken, .taken, .refused 14, .count 3,
        .drained [11, 12, 13], .empty true] :=
  ⟨by decide, ((refines_list 4 (by decide) _).2.1).trans (by decide)⟩

end Ring

end DmaReadout
