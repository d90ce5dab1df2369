/-! # Queues without a bound

A queue in an array, with the index of its oldest value; the values before that are left over and
dropped together once they are as many as the queued ones.

* `Fifo`: the queue; `Fifo.toList`: the queued values, the oldest first.
* `Fifo.push`, `Fifo.tail`, `Fifo.init`: adds a value, drops the oldest, drops the newest;
  `toList_push`, `toList_tail`, `toList_init`: what they do to the list.
* `Fifo.update`: replaces all values in order, with a state carried along; `update_eq`.
* `Fifo.updateUnless`: the same, without work if all values are known to stay;
  `updateUnless_eq`. -/

namespace DmaReadout

/-- A queue of values. -/
structure Fifo (α : Type) where
  /-- The values, the queued ones last. -/
  cells : Array α
  /-- The index of the oldest queued value. -/
  start : Nat
  start_le : start ≤ cells.size
  deriving Repr, DecidableEq

/-- Replaces the values of a list in order, with a state carried along. -/
def thread {α σ : Type} (f : σ → α → α × σ) (s : σ) : List α → List α × σ
  | [] => ([], s)
  | x :: xs =>
    let (y, s) := f s x
    let (ys, s) := thread f s xs
    (y :: ys, s)

namespace Fifo

variable {α σ : Type}

/-- The queue of the values of an array. -/
def ofArray (a : Array α) : Fifo α := ⟨a, 0, Nat.zero_le _⟩

/-- The queue of the values of a list. -/
def ofList (l : List α) : Fifo α := ofArray l.toArray

/-- A queue without values. -/
def empty : Fifo α := ofArray #[]

/-- The queued values, the oldest first. -/
def toList (q : Fifo α) : List α := q.cells.toList.drop q.start

/-- The number of queued values. -/
def length (q : Fifo α) : Nat := q.cells.size - q.start

/-- The oldest value. -/
def head? (q : Fifo α) : Option α := q.cells[q.start]?

/-- The newest value. -/
def last? (q : Fifo α) : Option α :=
  if q.start < q.cells.size then q.cells.back? else none

/-- The queue with a value behind the others. -/
def push (q : Fifo α) (x : α) : Fifo α :=
  match q with
  | ⟨cells, start, h⟩ => ⟨cells.push x, start, by simp; omega⟩

/-- The queue without its oldest value. -/
def tail (q : Fifo α) : Fifo α :=
  match q with
  | ⟨cells, start, _⟩ =>
    if h : start + 1 ≤ cells.size then
      if cells.size ≤ 2 * (start + 1) then ofArray (cells.extract (start + 1) cells.size)
      else ⟨cells, start + 1, h⟩
    else empty

/-- The queue without its newest value. -/
def init (q : Fifo α) : Fifo α :=
  match q with
  | ⟨cells, start, _⟩ => if h : start < cells.size then ⟨cells.pop, start, by simp; omega⟩ else empty

/-- Replaces all values in order, with a state carried along. -/
def update (f : σ → α → α × σ) (s : σ) (q : Fifo α) : Fifo α × σ :=
  let (out, s) := q.toList.foldl
    (fun (out, s) x =>
      let (y, s) := f s x
      (out.push y, s)) (#[], s)
  (ofArray out, s)

/-- Whether all queued values pass a test. -/
def all (p : α → Bool) (q : Fifo α) : Bool :=
  q.cells.all p q.start

/-- Replaces all values in order, unless all of them are `done`. -/
def updateUnless (done : α → Bool) (f : σ → α → α × σ) (s : σ) (q : Fifo α) : Fifo α × σ :=
  if q.all done then (q, s) else q.update f s

/-! ### The list of queued values -/

@[simp] theorem toList_ofArray (a : Array α) : (ofArray a).toList = a.toList := rfl

@[simp] theorem toList_ofList (l : List α) : (ofList l).toList = l := rfl

@[simp] theorem toList_empty : (empty : Fifo α).toList = [] := rfl

@[simp] theorem length_toList (q : Fifo α) : q.toList.length = q.length := by
  simp [toList, length]

theorem head?_toList (q : Fifo α) : q.toList.head? = q.head? := by
  simp [toList, head?, List.head?_drop]

theorem last?_toList (q : Fifo α) : q.toList.getLast? = q.last? := by
  unfold toList last?
  split
  · rw [List.getLast?_drop, if_neg (by simp; omega), Array.back?_eq_getElem?,
      List.getLast?_eq_getElem?]
    simp
  · rw [List.drop_eq_nil_of_le (by simp; omega)]
    rfl

@[simp] theorem toList_push (q : Fifo α) (x : α) : (q.push x).toList = q.toList ++ [x] := by
  obtain ⟨cells, start, h⟩ := q
  simp only [push, toList, Array.toList_push]
  rw [List.drop_append_of_le_length (by simpa using h)]

@[simp] theorem toList_tail (q : Fifo α) : q.tail.toList = q.toList.tail := by
  obtain ⟨cells, start, h⟩ := q
  unfold tail
  dsimp only
  split
  · split
    · rw [toList_ofArray]
      simp only [toList, Array.toList_extract, List.extract_eq_take_drop, List.tail_drop]
      rw [List.take_of_length_le (by simp)]
    · simp [toList]
  · rw [toList_empty, toList, List.drop_eq_nil_of_le (by simp; omega)]
    rfl

@[simp] theorem toList_init (q : Fifo α) : q.init.toList = q.toList.dropLast := by
  obtain ⟨cells, start, h⟩ := q
  unfold init
  dsimp only
  split
  · simp only [toList, Array.toList_pop]
    rw [List.dropLast_eq_take, List.dropLast_eq_take, List.drop_take, List.length_drop]
    congr 1
    omega
  · rw [toList_empty, toList, List.drop_eq_nil_of_le (by simp; omega)]
    rfl

/-- A queue is empty, or its oldest value comes before the others. -/
theorem head_cases (q : Fifo α) : q.head? = none ∧ q.toList = [] ∨
    ∃ x, q.head? = some x ∧ q.toList = x :: q.tail.toList := by
  rw [← q.head?_toList, q.toList_tail]
  cases q.toList with
  | nil => exact Or.inl ⟨rfl, rfl⟩
  | cons x rest => exact Or.inr ⟨x, rfl, rfl⟩

theorem foldl_thread (f : σ → α → α × σ) (l : List α) :
    ∀ (out : Array α) (s : σ),
      l.foldl (fun (out, s) x => ((out.push (f s x).1 : Array α), (f s x).2)) (out, s) =
        (out ++ (thread f s l).1.toArray, (thread f s l).2) := by
  induction l with
  | nil => intro out s; simp [thread]
  | cons x l ih => intro out s; rw [List.foldl_cons, ih]; simp [thread]

theorem update_eq (f : σ → α → α × σ) (s : σ) (q : Fifo α) :
    q.update f s = (ofList (thread f s q.toList).1, (thread f s q.toList).2) := by
  unfold update
  rw [foldl_thread]
  simp [ofList]

theorem all_eq (p : α → Bool) (q : Fifo α) : q.all p = q.toList.all p := by
  obtain ⟨cells, start, h⟩ := q
  rw [Bool.eq_iff_iff]
  simp only [all, toList, Array.all_iff_forall, List.all_eq_true, List.mem_iff_getElem,
    List.getElem_drop, List.length_drop, Array.length_toList, Array.getElem_toList]
  constructor
  · rintro hp x ⟨i, hi, rfl⟩
    exact hp (start + i) (by omega) ⟨by omega, by omega⟩
  · intro hp i hi hs
    exact hp _ ⟨i - start, by omega, by congr 1; omega⟩

theorem thread_of_all {done : α → Bool} {f : σ → α → α × σ} {s : σ} :
    ∀ {l : List α}, (∀ x ∈ l, done x = true) → (∀ x, done x = true → f s x = (x, s)) →
      thread f s l = (l, s)
  | [], _, _ => rfl
  | x :: l, h, hf => by
    rw [thread, hf x (h x (by simp))]
    simp only
    rw [thread_of_all (fun y hy => h y (by simp [hy])) hf]

/-- Skipping the values that are done changes nothing, if the replacement keeps those. -/
theorem updateUnless_eq {done : α → Bool} {f : σ → α → α × σ} (s : σ) (q : Fifo α)
    (hf : ∀ x, done x = true → f s x = (x, s)) :
    ((q.updateUnless done f s).1.toList, (q.updateUnless done f s).2) = thread f s q.toList := by
  unfold updateUnless
  split
  · rename_i h
    rw [all_eq, List.all_eq_true] at h
    rw [thread_of_all h hf]
  · rw [update_eq, toList_ofList]

end Fifo

end DmaReadout
