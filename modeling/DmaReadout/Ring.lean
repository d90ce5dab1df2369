import DmaReadout.Fault

/-! # Bounded queues

A queue of fixed capacity in a ring of cells. One cell stays unused, so that equal indices mean an
empty queue.

* `Ring`: the cells and the two indices, with the facts that every operation keeps.
* `Ring.push?`, `Ring.offer`, `Ring.pop`, `Ring.drain`: the operations.
* `Ring.toList`: the queued values, the oldest first; `toList_push`, `toList_pop`, `drain_fst`: the
  operations are those of a list. -/

namespace DmaReadout

/-- A bounded queue of values. -/
structure Ring (α : Type) where
  /-- The cells of the ring; a cell outside the queue may hold an old value. -/
  cells : Array (Option α)
  /-- The cell of the oldest value. -/
  read : Nat
  /-- The cell for the next value. -/
  write : Nat
  two_le : 2 ≤ cells.size
  read_lt : read < cells.size
  write_lt : write < cells.size
  held : ∀ k, k < (if read ≤ write then write - read else cells.size - read + write) →
    ((cells[if read + k < cells.size then read + k else read + k - cells.size]?).join).isSome

namespace Ring

variable {α : Type}

/-- The number of queued values. -/
def length (r : Ring α) : Nat :=
  if r.read ≤ r.write then r.write - r.read else r.cells.size - r.read + r.write

/-- The cell `k` places behind the oldest value. -/
def place (r : Ring α) (k : Nat) : Nat :=
  if r.read + k < r.cells.size then r.read + k else r.read + k - r.cells.size

/-- The value `k` places behind the oldest one. -/
def at? (r : Ring α) (k : Nat) : Option α :=
  (r.cells[r.place k]?).join

/-- The queued values, the oldest first. -/
def toList (r : Ring α) : List α :=
  (List.range r.length).filterMap r.at?

/-- The number of values that the queue can hold. -/
def capacity (r : Ring α) : Nat :=
  r.cells.size - 1

/-- Whether nothing is queued. -/
def isEmpty (r : Ring α) : Bool :=
  r.length = 0

/-- The cell after cell `i` in a ring of `n`. -/
def after (n i : Nat) : Nat :=
  if i + 1 = n then 0 else i + 1

theorem after_lt {n i : Nat} (h : i < n) : after n i < n := by
  unfold after
  split <;> omega

/-- An empty queue with `slots` cells. -/
def ofSlots (slots : Nat) (h : 2 ≤ slots) : Ring α where
  cells := Array.replicate slots none
  read := 0
  write := 0
  two_le := by simpa using h
  read_lt := by simp; omega
  write_lt := by simp; omega
  held := by simp

/-- The first number of cells that cannot be addressed. -/
def slotLimit : Nat := 1 <<< 60

/-- An empty queue with `slots` cells, of which there must be two. -/
def create (slots : Nat) : Except Misuse (Ring α) :=
  if h : 2 ≤ slots then
    if slotLimit ≤ slots then .error .tooManySlots else .ok (ofSlots slots h)
  else .error (.tooFewSlots slots)

/-- Whether the queue takes no further value. -/
def isFull (r : Ring α) : Bool :=
  after r.cells.size r.write = r.read

/-- The queue with `v` behind the others, unless it is full. -/
@[inline] def push? (r : Ring α) (v : α) : Option (Ring α) :=
  if h : after r.cells.size r.write = r.read then none
  else some {
    cells := r.cells.setIfInBounds r.write (some v)
    read := r.read
    write := after r.cells.size r.write
    two_le := by simpa using r.two_le
    read_lt := by simpa using r.read_lt
    write_lt := by simpa using after_lt r.write_lt
    held := by
      have hr := r.read_lt
      have hw := r.write_lt
      have hh := r.held
      simp only [Array.size_setIfInBounds]
      intro k hk
      by_cases hlast : (if r.read + k < r.cells.size then r.read + k
          else r.read + k - r.cells.size) = r.write
      · rw [hlast]
        simp [hw]
      · rw [Array.getElem?_setIfInBounds_ne (Ne.symm hlast)]
        refine hh k ?_
        unfold after at h hk
        (repeat' split at h) <;> (repeat' split at hk) <;> (repeat' split at hlast) <;>
          (repeat' split) <;> omega }

/-- The queue with `v` behind the others if there is room for it, and whether there was. -/
@[inline] def offer (r : Ring α) (v : α) : Bool × Ring α :=
  match r.push? v with
  | none => (false, r)
  | some s => (true, s)

/-- The oldest value, and the queue without it. -/
def pop (r : Ring α) : Option (α × Ring α) :=
  if h : r.read = r.write then none
  else
    match (r.cells[r.read]?).join with
    | none => none
    | some v => some (v, {
        cells := r.cells
        read := after r.cells.size r.read
        write := r.write
        two_le := r.two_le
        read_lt := after_lt r.read_lt
        write_lt := r.write_lt
        held := by
          have hr := r.read_lt
          have hw := r.write_lt
          have hh := r.held
          intro k hk
          have := hh (k + 1) (by
            unfold after at hk
            (repeat' split at hk) <;> (repeat' split) <;> omega)
          have same : (if after r.cells.size r.read + k < r.cells.size then
              after r.cells.size r.read + k
              else after r.cells.size r.read + k - r.cells.size) =
              (if r.read + (k + 1) < r.cells.size then r.read + (k + 1)
              else r.read + (k + 1) - r.cells.size) := by
            unfold after at *
            (repeat' split at hk) <;> (repeat' split) <;> omega
          rw [same]
          exact this })

/-- All queued values, and the empty queue. -/
def drain (r : Ring α) : List α × Ring α :=
  (r.toList, {
    cells := r.cells
    read := r.write
    write := r.write
    two_le := r.two_le
    read_lt := r.write_lt
    write_lt := r.write_lt
    held := by simp })

/-- The queue with the values of a list pushed in turn, as long as there is room. -/
def pushAll (r : Ring α) : List α → Ring α
  | [] => r
  | v :: vs => (r.offer v).2.pushAll vs

/-! ### The list of queued values -/

theorem length_lt_size (r : Ring α) : r.length < r.cells.size := by
  have := r.read_lt
  have := r.write_lt
  unfold length
  split <;> omega

theorem place_length (r : Ring α) : r.place r.length = r.write := by
  have := r.read_lt
  have := r.write_lt
  unfold place length
  (repeat' split) <;> omega

theorem place_ne_write (r : Ring α) {k : Nat} (h : k < r.length) : r.place k ≠ r.write := by
  have := r.read_lt
  have := r.write_lt
  unfold length at h
  unfold place
  (repeat' split at h) <;> (repeat' split) <;> omega

theorem at?_isSome (r : Ring α) {k : Nat} (h : k < r.length) : (r.at? k).isSome :=
  r.held k h

theorem length_filterMap_of_isSome {β γ : Type} (f : β → Option γ) :
    ∀ l : List β, (∀ x ∈ l, (f x).isSome) → (l.filterMap f).length = l.length
  | [], _ => rfl
  | x :: l, h => by
    obtain ⟨y, hy⟩ := Option.isSome_iff_exists.1 (h x (by simp))
    rw [List.filterMap_cons_some hy, List.length_cons, List.length_cons,
      length_filterMap_of_isSome f l fun z hz => h z (by simp [hz])]

theorem filterMap_agree {β γ : Type} {f g : β → Option γ} :
    ∀ {l : List β}, (∀ x ∈ l, f x = g x) → l.filterMap f = l.filterMap g
  | [], _ => rfl
  | x :: l, h => by
    rw [List.filterMap_cons, List.filterMap_cons, h x (by simp),
      filterMap_agree fun y hy => h y (by simp [hy])]

@[simp] theorem length_toList (r : Ring α) : r.toList.length = r.length := by
  rw [toList, length_filterMap_of_isSome, List.length_range]
  intro k hk
  exact r.at?_isSome (List.mem_range.1 hk)

theorem isEmpty_iff (r : Ring α) : r.isEmpty = true ↔ r.toList = [] := by
  rw [← List.length_eq_zero_iff, length_toList]
  simp [isEmpty]

theorem toList_ofSlots (slots : Nat) (h : 2 ≤ slots) : (ofSlots slots h : Ring α).toList = [] := by
  simp [toList, ofSlots, length]

theorem isFull_iff (r : Ring α) : r.isFull = true ↔ r.length = r.capacity := by
  have := r.read_lt
  have := r.write_lt
  have := r.two_le
  unfold isFull capacity length after
  simp only [decide_eq_true_eq]
  (repeat' split) <;> omega

theorem push?_eq_none_iff (r : Ring α) (v : α) : r.push? v = none ↔ r.isFull = true := by
  unfold push? isFull
  split <;> simp_all

/-- Pushing adds the value behind the queued ones. -/
theorem toList_push {r s : Ring α} {v : α} (h : r.push? v = some s) :
    s.toList = r.toList ++ [v] := by
  have hr := r.read_lt
  have hw := r.write_lt
  unfold push? at h
  split at h
  · simp at h
  · rename_i hfull
    have h := Option.some.inj h
    have hread : s.read = r.read := by rw [← h]
    have hsize : s.cells.size = r.cells.size := by rw [← h]; simp
    have hlen : s.length = r.length + 1 := by
      have hwrite : s.write = after r.cells.size r.write := by rw [← h]
      unfold length
      rw [hread, hsize, hwrite]
      unfold after at *
      (repeat' split at hfull) <;> (repeat' split) <;> omega
    have hplace : ∀ k, s.place k = r.place k := by
      intro k
      unfold place
      rw [hread, hsize]
    have hold : ∀ k ∈ List.range r.length, s.at? k = r.at? k := by
      intro k hk
      have hne := r.place_ne_write (List.mem_range.1 hk)
      unfold at?
      rw [hplace, ← h]
      simp only
      rw [Array.getElem?_setIfInBounds_ne (Ne.symm hne)]
    have hnew : s.at? r.length = some v := by
      unfold at?
      rw [hplace, place_length, ← h]
      simp [hw]
    unfold toList
    rw [hlen, List.range_succ, List.filterMap_append]
    congr 1
    · exact filterMap_agree hold
    · simp [hnew]

theorem pop_eq_none_iff (r : Ring α) : r.pop = none ↔ r.toList = [] := by
  rw [← List.length_eq_zero_iff, length_toList]
  have hr := r.read_lt
  have hw := r.write_lt
  unfold pop
  constructor
  · intro h
    split at h
    · rename_i he
      unfold length
      rw [he]
      simp
    · rename_i hne
      have hpos : 0 < r.length := by
        unfold length
        split <;> omega
      have := r.at?_isSome hpos
      unfold at? place at this
      rw [Nat.add_zero, if_pos hr] at this
      split at h
      · rename_i hnone
        rw [hnone] at this
        simp at this
      · simp at h
  · intro h
    rw [dif_pos]
    unfold length at h
    split at h <;> omega

/-- Popping takes the oldest value away. -/
theorem toList_pop {r s : Ring α} {v : α} (h : r.pop = some (v, s)) :
    r.toList = v :: s.toList := by
  have hr := r.read_lt
  have hw := r.write_lt
  unfold pop at h
  split at h
  · simp at h
  · rename_i hne
    split at h
    · simp at h
    · rename_i w hv
      obtain ⟨rfl, hs⟩ := Prod.mk.inj (Option.some.inj h)
      have hread : s.read = after r.cells.size r.read := by rw [← hs]
      have hcells : s.cells = r.cells := by rw [← hs]
      have hwrite : s.write = r.write := by rw [← hs]
      have hlen : r.length = s.length + 1 := by
        unfold length
        rw [hread, hcells, hwrite]
        unfold after
        (repeat' split) <;> omega
      have hat : ∀ k, k < s.length → s.at? k = r.at? (k + 1) := by
        intro k hk
        unfold at? place
        rw [hcells]
        congr 2
        unfold length at hk
        rw [hread, hcells, hwrite] at hk
        rw [hread]
        unfold after at *
        (repeat' split at hk) <;> (repeat' split) <;> omega
      have hfirst : r.at? 0 = some w := by
        unfold at? place
        rw [Nat.add_zero, if_pos hr]
        exact hv
      unfold toList
      rw [hlen, List.range_succ_eq_map, List.filterMap_cons_some hfirst, List.filterMap_map]
      congr 1
      exact filterMap_agree fun k hk => (hat k (List.mem_range.1 hk)).symm

theorem drain_fst (r : Ring α) : r.drain.1 = r.toList := rfl

theorem toList_drain_snd (r : Ring α) : r.drain.2.toList = [] := by
  simp [drain, toList, length]

end Ring

end DmaReadout
