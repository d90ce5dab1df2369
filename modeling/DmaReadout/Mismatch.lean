import DmaReadout.Pattern
import DmaReadout.Text.Numeral

/-! # Mismatches and their log

* `Mismatch`: a word that is not what the generator writes, with its line of text.
* `ErrorLog`: counts all mismatches and keeps the first of them. -/

namespace DmaReadout

/-- A word that is not what the generator writes. -/
structure Mismatch where
  /-- The number of the page in the order of reading. -/
  event : UInt64
  /-- The index of the word in its page. -/
  index : Nat
  /-- The event counter that was expected. -/
  counter : Word
  /-- The word that was expected. -/
  expected : Word
  /-- The word that was found. -/
  actual : Word
  deriving Repr, DecidableEq

/-- The line of a mismatch, without its end. -/
def Mismatch.render (m : Mismatch) : String :=
  "event:" ++ m.event.toNat.repr ++ " i:" ++ m.index.repr ++ " cnt:" ++ m.counter.toNat.repr ++
    " exp:0x" ++ Text.hex m.expected.toNat ++ " val:0x" ++ Text.hex m.actual.toNat

/-- A log that keeps a limited number of mismatches and counts all. -/
structure ErrorLog where
  /-- The number of mismatches that are kept. -/
  limit : Nat
  /-- The mismatches kept, in the order in which they were found. -/
  kept : Array Mismatch := #[]
  /-- The number of all mismatches. -/
  total : Nat := 0
  deriving Repr, DecidableEq

namespace ErrorLog

/-- A log that keeps nothing. -/
def silent : ErrorLog := { limit := 0 }

/-- The log with one more mismatch. -/
def record (l : ErrorLog) (m : Mismatch) : ErrorLog :=
  match l with
  | ⟨limit, kept, total⟩ =>
    if kept.size < limit then ⟨limit, kept.push m, total + 1⟩ else ⟨limit, kept, total + 1⟩

/-- The log with more mismatches, in order. -/
def recordAll (l : ErrorLog) (ms : List Mismatch) : ErrorLog :=
  ms.foldl record l

/-- The number of mismatches kept. -/
def recorded (l : ErrorLog) : Nat :=
  l.kept.size

/-- Whether no mismatch was found. -/
def isEmpty (l : ErrorLog) : Bool :=
  l.total = 0

/-- The lines of the mismatches kept. -/
def text (l : ErrorLog) : String :=
  l.kept.foldl (fun s m => s ++ m.render ++ "\n") ""

@[simp] theorem limit_record (l : ErrorLog) (m : Mismatch) : (l.record m).limit = l.limit := by
  obtain ⟨limit, kept, total⟩ := l
  simp only [record]
  split <;> rfl

@[simp] theorem total_record (l : ErrorLog) (m : Mismatch) :
    (l.record m).total = l.total + 1 := by
  obtain ⟨limit, kept, total⟩ := l
  simp only [record]
  split <;> rfl

theorem kept_record (l : ErrorLog) (m : Mismatch) :
    (l.record m).kept.toList =
      if l.kept.size < l.limit then l.kept.toList ++ [m] else l.kept.toList := by
  obtain ⟨limit, kept, total⟩ := l
  simp only [record]
  split <;> simp

theorem total_recordAll (l : ErrorLog) (ms : List Mismatch) :
    (l.recordAll ms).total = l.total + ms.length := by
  induction ms generalizing l with
  | nil => rfl
  | cons m ms ih =>
    simp only [recordAll, List.foldl_cons, List.length_cons] at *
    rw [ih, total_record]
    omega

theorem kept_recordAll (l : ErrorLog) (ms : List Mismatch) :
    (l.recordAll ms).kept.toList = l.kept.toList ++ ms.take (l.limit - l.kept.size) := by
  induction ms generalizing l with
  | nil => simp [recordAll]
  | cons m ms ih =>
    have hsize : (l.record m).kept.size = (l.record m).kept.toList.length := by simp
    rw [recordAll, List.foldl_cons, ← recordAll, ih, limit_record, hsize, kept_record]
    by_cases hroom : l.kept.size < l.limit
    · rw [if_pos hroom, List.length_append, Array.length_toList, List.length_singleton,
        show l.limit - l.kept.size = l.limit - (l.kept.size + 1) + 1 by omega, List.take_succ_cons,
        List.append_assoc, List.singleton_append]
    · rw [if_neg hroom, Array.length_toList, Nat.sub_eq_zero_of_le (Nat.not_lt.1 hroom), List.take_zero,
        List.take_zero]

end ErrorLog

end DmaReadout
