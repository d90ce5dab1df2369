import DmaReadout.Mismatch
import Mathlib.Logic.Function.Basic

/-! # The text of the log

The lines of the log can be read back: a text comes from one list of mismatches only. Every field of a
line ends before a blank, or at the end of the line, and neither is a digit.

* `toDigits_injective`, `separator_not_mem`: the digits of a number, to any base up to 16.
* `lines`: the text of a list of mismatches; `ErrorLog.text_eq`: the text of the log.
* `Mismatch.line_injective`: a line and what follows it; `lines_injective`.
* `LineLog`: a log that writes lines as mismatches are found; `ErrorLog.written_recordAll`: it tells the
  same as one that keeps the mismatches. -/

namespace DmaReadout

/-! ### Digits -/

theorem digitChar_inj {a b : Nat} (ha : a < 16) (hb : b < 16)
    (h : Nat.digitChar a = Nat.digitChar b) : a = b := by
  have hall : ∀ a b : Fin 16, Nat.digitChar a = Nat.digitChar b → a = b := by decide
  exact congrArg Fin.val (hall ⟨a, ha⟩ ⟨b, hb⟩ h)

theorem toDigits_injective {b : Nat} (hb : 1 < b) (hb' : b ≤ 16) :
    Function.Injective (Nat.toDigits b) := by
  have hlast : ∀ n, n % b < 16 := fun n => Nat.lt_of_lt_of_le (Nat.mod_lt n (by omega)) hb'
  intro n
  induction n using Nat.strongRecOn with
  | ind n ih =>
    intro m h
    rw [Nat.toDigits_eq_if hb, Nat.toDigits_eq_if hb (n := m)] at h
    by_cases hn : n < b <;> by_cases hm : m < b
    · rw [if_pos hn, if_pos hm] at h
      exact digitChar_inj (by omega) (by omega) (List.head_eq_of_cons_eq h)
    · rw [if_pos hn, if_neg hm, ← List.nil_append [Nat.digitChar n]] at h
      exact absurd (List.append_inj_left' h rfl).symm Nat.toDigits_ne_nil
    · rw [if_neg hn, if_pos hm, ← List.nil_append [Nat.digitChar m]] at h
      exact absurd (List.append_inj_left' h rfl) Nat.toDigits_ne_nil
    · rw [if_neg hn, if_neg hm] at h
      have hdiv : n / b = m / b :=
        ih (n / b) (Nat.div_lt_self (by omega) hb) (List.append_inj_left' h rfl)
      have hmod : n % b = m % b :=
        digitChar_inj (hlast n) (hlast m) (List.head_eq_of_cons_eq (List.append_inj_right' h rfl))
      rw [← Nat.div_add_mod n b, ← Nat.div_add_mod m b, hdiv, hmod]

theorem exists_digit_of_mem {b n : Nat} {c : Char} (hb : 1 < b) :
    c ∈ Nat.toDigits b n → ∃ d < b, c = Nat.digitChar d := by
  induction n using Nat.strongRecOn with
  | ind n ih =>
    intro h
    rw [Nat.toDigits_eq_if hb] at h
    split at h
    · rename_i hn
      exact ⟨n, hn, List.mem_singleton.1 h⟩
    · rcases List.mem_append.1 h with h | h
      · exact ih (n / b) (Nat.div_lt_self (by omega) hb) h
      · exact ⟨n % b, Nat.mod_lt n (by omega), List.mem_singleton.1 h⟩

/-- Neither a blank nor the end of a line is a digit. -/
theorem separator_not_mem {b n : Nat} {sep : Char} (hb : 1 < b) (hb' : b ≤ 16)
    (hsep : sep = ' ' ∨ sep = '\n') : sep ∉ Nat.toDigits b n := by
  intro h
  obtain ⟨d, hd, hc⟩ := exists_digit_of_mem hb h
  have hall : ∀ d : Fin 16, Nat.digitChar d ≠ ' ' ∧ Nat.digitChar d ≠ '\n' := by decide
  obtain ⟨hblank, hend⟩ := hall ⟨d, Nat.lt_of_lt_of_le hd hb'⟩
  rcases hsep with rfl | rfl
  · exact hblank hc.symm
  · exact hend hc.symm

/-- A list is cut in one way only before the first place of a value. -/
theorem append_sep_inj {α : Type} {a : α} : ∀ {xs ys us vs : List α}, a ∉ xs → a ∉ ys →
    xs ++ a :: us = ys ++ a :: vs → xs = ys ∧ us = vs
  | [], [], _, _, _, _, h => ⟨rfl, (List.cons.inj h).2⟩
  | [], y :: ys, _, _, _, hy, h => absurd (List.cons.inj h).1 (List.ne_of_not_mem_cons hy)
  | x :: xs, [], _, _, hx, _, h => absurd (List.cons.inj h).1.symm (List.ne_of_not_mem_cons hx)
  | x :: xs, y :: ys, _, _, hx, hy, h => by
    obtain ⟨rfl, htail⟩ := List.cons.inj h
    obtain ⟨rfl, hrest⟩ := append_sep_inj (List.not_mem_of_not_mem_cons hx)
      (List.not_mem_of_not_mem_cons hy) htail
    exact ⟨rfl, hrest⟩

/-- A number ends where its first separator stands. -/
theorem number_inj {b n m : Nat} {sep : Char} {us vs : List Char} (hb : 1 < b) (hb' : b ≤ 16)
    (hsep : sep = ' ' ∨ sep = '\n')
    (h : Nat.toDigits b n ++ sep :: us = Nat.toDigits b m ++ sep :: vs) : n = m ∧ us = vs := by
  obtain ⟨hdigits, hrest⟩ := append_sep_inj (separator_not_mem hb hb' hsep)
    (separator_not_mem hb hb' hsep) h
  exact ⟨toDigits_injective hb hb' hdigits, hrest⟩

/-! ### Lines -/

/-- The characters of a line and of what follows it. -/
theorem Mismatch.toList_line (m : Mismatch) (rest : String) :
    (m.render ++ "\n" ++ rest).toList =
      "event:".toList ++ (Nat.toDigits 10 m.event.toNat ++ ' ' ::
        ("i:".toList ++ (Nat.toDigits 10 m.index ++ ' ' ::
          ("cnt:".toList ++ (Nat.toDigits 10 m.counter.toNat ++ ' ' ::
            ("exp:0x".toList ++ (Nat.toDigits 16 m.expected.toNat ++ ' ' ::
              ("val:0x".toList ++ (Nat.toDigits 16 m.actual.toNat ++ '\n' :: rest.toList))))))))) := by
  delta render
  simp only [Text.hex, String.toList_append, String.toList_ofList, Nat.toList_repr, List.append_assoc]
  rfl

/-- A line tells its mismatch and what follows it. -/
theorem Mismatch.line_injective {m m' : Mismatch} {rest rest' : String}
    (h : m.render ++ "\n" ++ rest = m'.render ++ "\n" ++ rest') : m = m' ∧ rest = rest' := by
  have h := congrArg String.toList h
  rw [toList_line, toList_line] at h
  have blank : ' ' = ' ' ∨ ' ' = '\n' := Or.inl rfl
  obtain ⟨hevent, h⟩ := number_inj (by decide) (by decide) blank (List.append_cancel_left h)
  obtain ⟨hindex, h⟩ := number_inj (by decide) (by decide) blank (List.append_cancel_left h)
  obtain ⟨hcounter, h⟩ := number_inj (by decide) (by decide) blank (List.append_cancel_left h)
  obtain ⟨hexpected, h⟩ := number_inj (by decide) (by decide) blank (List.append_cancel_left h)
  obtain ⟨hactual, hrest⟩ := number_inj (by decide) (by decide) (Or.inr rfl) (List.append_cancel_left h)
  obtain ⟨event, index, counter, expected, actual⟩ := m
  obtain rfl : event = m'.event := UInt64.toNat_inj.1 hevent
  obtain rfl : index = m'.index := hindex
  obtain rfl : counter = m'.counter := UInt32.toNat_inj.1 hcounter
  obtain rfl : expected = m'.expected := UInt32.toNat_inj.1 hexpected
  obtain rfl : actual = m'.actual := UInt32.toNat_inj.1 hactual
  exact ⟨rfl, String.toList_inj.1 hrest⟩

/-- The lines of mismatches, each with its end. -/
def lines (ms : List Mismatch) : String :=
  String.join (ms.map fun m => m.render ++ "\n")

theorem lines_cons (m : Mismatch) (ms : List Mismatch) :
    lines (m :: ms) = m.render ++ "\n" ++ lines ms := by
  rw [lines, List.map_cons, String.join_cons, lines]

theorem lines_cons_ne_empty (m : Mismatch) (ms : List Mismatch) : lines (m :: ms) ≠ "" := by
  intro h
  have := congrArg String.toList h
  rw [lines_cons, Mismatch.toList_line] at this
  simp at this

/-- **A text comes from one list of mismatches only.** -/
theorem lines_injective : Function.Injective lines
  | [], [], _ => rfl
  | [], m :: ms, h => absurd h.symm (lines_cons_ne_empty m ms)
  | m :: ms, [], h => absurd h (lines_cons_ne_empty m ms)
  | m :: ms, m' :: ms', h => by
    rw [lines_cons, lines_cons] at h
    obtain ⟨rfl, hrest⟩ := Mismatch.line_injective h
    rw [lines_injective hrest]

/-- The text of the log are the lines of the mismatches kept. -/
theorem ErrorLog.text_eq (l : ErrorLog) : l.text = lines l.kept.toList := by
  rw [text, lines, String.join_eq_foldl, List.foldl_map, ← Array.foldl_toList]
  simp only [String.append_assoc]

/-! ### The log as it is written -/

/-- A log that is written line by line: its text with the number of its lines, and the number of all
mismatches, in 64 bits. -/
structure LineLog where
  /-- The number of lines that are kept. -/
  limit : Nat
  text : String := ""
  recorded : Nat := 0
  total : UInt64 := 0
  deriving Repr, DecidableEq

/-- The log with one more mismatch, which has a line if there is room. -/
def LineLog.record (l : LineLog) (m : Mismatch) : LineLog :=
  match l with
  | ⟨limit, text, recorded, total⟩ =>
    if recorded < limit then ⟨limit, text ++ m.render ++ "\n", recorded + 1, total + 1⟩
    else ⟨limit, text, recorded, total + 1⟩

namespace ErrorLog

/-- A log as it is written. -/
def written (l : ErrorLog) : LineLog :=
  ⟨l.limit, l.text, l.recorded, l.total.toUInt64⟩

/-- Whether a log keeps mismatches or writes their lines is the same. -/
theorem written_record (l : ErrorLog) (m : Mismatch) : (l.record m).written = l.written.record m := by
  obtain ⟨limit, kept, total⟩ := l
  have htotal : (total + 1).toUInt64 = total.toUInt64 + 1 := UInt64.ofNat_add total 1
  by_cases hroom : kept.size < limit
  · have hkept : record ⟨limit, kept, total⟩ m = ⟨limit, kept.push m, total + 1⟩ := if_pos hroom
    have hline : LineLog.record (written ⟨limit, kept, total⟩) m =
        ⟨limit, text ⟨limit, kept, total⟩ ++ m.render ++ "\n", kept.size + 1, total.toUInt64 + 1⟩ :=
      if_pos hroom
    rw [hkept, hline, written, recorded, text, Array.foldl_push, Array.size_push, htotal]
    rfl
  · have hkept : record ⟨limit, kept, total⟩ m = ⟨limit, kept, total + 1⟩ := if_neg hroom
    have hline : LineLog.record (written ⟨limit, kept, total⟩) m =
        ⟨limit, text ⟨limit, kept, total⟩, kept.size, total.toUInt64 + 1⟩ := if_neg hroom
    rw [hkept, hline, written, htotal]
    rfl

theorem written_recordAll (ms : List Mismatch) : ∀ l : ErrorLog,
    (l.recordAll ms).written = ms.foldl LineLog.record l.written := by
  induction ms with
  | nil => exact fun _ => rfl
  | cons m ms ih =>
    intro l
    rw [List.foldl_cons, ← written_record]
    exact ih (l.record m)

end ErrorLog

end DmaReadout
