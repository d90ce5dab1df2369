import DmaReadout.Pipeline.Schedule

/-! # The journal of a run

What an observer of the two tasks writes down along a run. None of it is used by the tasks.

* `Machine.observe`: one note for every turn at which there is something to note.
* `PageRead`, `Machine.pagesRead`: the pages in the order of reading, each as it is checked and copied.
* `Machine.superpagesRead`: the superpages in the order in which the reader takes them.
* `Ledger`, `Machine.tally`: how many superpages and pages have passed each point of the circulation. -/

namespace DmaReadout

/-- A page as it is read. -/
structure PageRead where
  /-- Its event number. -/
  event : UInt64
  /-- Where it begins in the buffer. -/
  position : Nat
  /-- Its words. -/
  words : Array Word
  deriving Repr, DecidableEq

/-- The page that the reader reads in its next step, if it reads one. -/
def Reader.page? {σ : Type} (plan : Plan) (p : Pipeline σ) : Reader → Option PageRead
  | .reading offset page =>
    if page < plan.layout.pagesPerSuperpage && !limitReached plan.limit? p.stats.read then
      match p.memory.view (offset + page * plan.layout.pageSize) plan.layout.pageSize with
      | .ok v => some ⟨p.stats.read, offset + page * plan.layout.pageSize, p.memory.page v⟩
      | .error _ => none
    else none
  | _ => none

/-- The superpage that the reader takes in its next step, if it takes one. -/
def Reader.superpage? {σ : Type} (p : Pipeline σ) : Reader → Option Nat
  | .take => p.ready.pop.map (·.1)
  | _ => none

namespace Machine

variable {σ α : Type}

/-- The page that is read in a turn, if one is read. -/
def page? (plan : Plan) (m : Machine σ) : Turn → Option PageRead
  | .read => m.reader.page? plan m.shared
  | _ => none

/-- The superpage that the reader takes in a turn, if it takes one. -/
def superpage? (m : Machine σ) : Turn → Option Nat
  | .read => m.reader.superpage? m.shared
  | _ => none

variable [Channel σ]

/-- The notes taken along a run, each before the step that it is about. -/
def observe (plan : Plan) (note? : Machine σ → Turn → Option α) (m : Machine σ) :
    List Turn → List α
  | [] => []
  | t :: turns => (note? m t).toList ++ observe plan note? (m.step plan t) turns

/-- The pages of a run in the order of reading. -/
def pagesRead (plan : Plan) (m : Machine σ) (turns : List Turn) : List PageRead :=
  m.observe plan (page? plan) turns

/-- The superpages of a run in the order of reading. -/
def superpagesRead (plan : Plan) (m : Machine σ) (turns : List Turn) : List Nat :=
  m.observe plan superpage? turns

theorem pagesRead_cons (plan : Plan) (m : Machine σ) (t : Turn) (turns : List Turn) :
    m.pagesRead plan (t :: turns) =
      (m.page? plan t).toList ++ (m.step plan t).pagesRead plan turns := rfl

@[simp] theorem run_nil (plan : Plan) (m : Machine σ) : m.run plan [] = m := rfl

theorem run_cons (plan : Plan) (m : Machine σ) (t : Turn) (turns : List Turn) :
    m.run plan (t :: turns) = (m.step plan t).run plan turns := rfl

end Machine

/-! ### Counting -/

/-- How many superpages and pages have passed each point of the circulation since the start. -/
structure Ledger where
  /-- The superpages that the reader gave back. -/
  returned : Nat := 0
  /-- The superpages that the feeder took from the channel. -/
  collected : Nat := 0
  /-- The superpages that were in the channel, or had left it, when it last was asked for progress. -/
  filled : Nat := 0
  /-- The superpages that were pushed to the channel. -/
  submitted : Nat := 0
  /-- The pages that were read. -/
  read : Nat := 0
  deriving Repr, DecidableEq

namespace Ledger

/-- The ledger after the next step of the feeder. -/
def afterFeed (l : Ledger) : Feeder → Ledger
  | .fill => { l with filled := l.submitted }
  | .submit _ => { l with submitted := l.submitted + 1 }
  | .collect _ => { l with collected := l.collected + 1 }
  | _ => l

/-- The ledger after the next step of the reader, which reads a page or does not. -/
def afterRead (l : Ledger) (page? : Option PageRead) : Reader → Ledger
  | .reading _ _ => { l with read := l.read + page?.toList.length }
  | .giveBack _ _ => { l with returned := l.returned + 1 }
  | _ => l

/-- The ledger after a turn. -/
def after {σ : Type} (plan : Plan) (m : Machine σ) (l : Ledger) : Turn → Ledger
  | .feed => l.afterFeed m.feeder
  | .read => l.afterRead (m.reader.page? plan m.shared) m.reader
  | .stop => l

theorem collected_le_after {σ : Type} (plan : Plan) (m : Machine σ) (l : Ledger) (t : Turn) :
    l.collected ≤ (l.after plan m t).collected := by
  obtain ⟨p, f, r⟩ := m
  cases t with
  | feed => cases f <;> simp [after, afterFeed]
  | read => cases r <;> simp [after, afterRead]
  | stop => exact Nat.le_refl _

end Ledger

namespace Machine

variable {σ : Type} [Channel σ]

/-- The ledger after a run from `m`, which begins with the ledger `l`. -/
def tally (plan : Plan) (l : Ledger) (m : Machine σ) : List Turn → Ledger
  | [] => l
  | t :: turns => tally plan (l.after plan m t) (m.step plan t) turns

theorem tally_append (plan : Plan) (turns more : List Turn) : ∀ (l : Ledger) (m : Machine σ),
    m.tally plan l (turns ++ more) = (m.run plan turns).tally plan (m.tally plan l turns) more := by
  induction turns with
  | nil => intro l m; rfl
  | cons t turns ih => intro l m; exact ih (l.after plan m t) (m.step plan t)

theorem collected_le_tally (plan : Plan) (turns : List Turn) : ∀ (l : Ledger) (m : Machine σ),
    l.collected ≤ (m.tally plan l turns).collected := by
  induction turns with
  | nil => intro l m; exact Nat.le_refl _
  | cons t turns ih =>
    intro l m
    exact Nat.le_trans (l.collected_le_after plan m t) (ih (l.after plan m t) (m.step plan t))

/-- The pages of the ledger are those of the journal. -/
theorem read_tally (plan : Plan) (turns : List Turn) : ∀ (l : Ledger) (m : Machine σ),
    (m.tally plan l turns).read = l.read + (m.pagesRead plan turns).length := by
  induction turns with
  | nil => intro l m; rfl
  | cons t turns ih =>
    intro l m
    have hstep : (l.after plan m t).read = l.read + (m.page? plan t).toList.length := by
      obtain ⟨p, f, r⟩ := m
      cases t with
      | feed => cases f <;> rfl
      | read => cases r <;> rfl
      | stop => rfl
    rw [tally, ih, hstep, Nat.add_assoc, pagesRead_cons, List.length_append]

end Machine

end DmaReadout
