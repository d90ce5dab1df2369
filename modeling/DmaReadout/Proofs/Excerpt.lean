import DmaReadout.Proofs.LogText
import DmaReadout.Report
import Mathlib.Data.String.Basic

/-! # The beginning of the log

The console shows the log up to a number of characters and says how many are left. That number is counted
in bytes, but the text of a log has only characters of one byte.

* `IsAscii`: texts of one-byte characters; `isAscii_lines`: the text of a log is one.
* `Report.consoleErrors_of_le`, `Report.consoleErrors_of_lt`: the whole log, and its beginning.
* `Report.console_accounts`: the main statement. -/

namespace DmaReadout

/-! ### Characters of one byte -/

/-- A text of ASCII characters. -/
def IsAscii (s : String) : Prop := ∀ c ∈ s.toList, c.toNat < 128

theorem IsAscii.utf8ByteSize_eq {s : String} (h : IsAscii s) : s.utf8ByteSize = s.length := by
  have hbytes : ∀ cs : List Char, (∀ c ∈ cs, c.toNat < 128) → String.utf8Len cs = cs.length := by
    intro cs hcs
    induction cs with
    | nil => rfl
    | cons c cs ih =>
      obtain ⟨hc, hrest⟩ := List.forall_mem_cons.1 hcs
      have hone : c.utf8Size = 1 := Char.utf8Size_eq_one_iff.2 (Nat.le_of_lt_succ hc)
      rw [String.utf8Len_cons, hone, ih hrest, List.length_cons]
  rw [← String.utf8Len_toList, hbytes s.toList h, String.length_toList]

theorem isAscii_append_iff {s t : String} : IsAscii (s ++ t) ↔ IsAscii s ∧ IsAscii t := by
  unfold IsAscii
  rw [String.toList_append, List.forall_mem_append]

theorem isAscii_of_all {s : String} (h : s.toList.all (·.toNat < 128) = true) : IsAscii s :=
  fun c hc => of_decide_eq_true (List.all_eq_true.1 h c hc)

theorem toDigits_ascii {b n : Nat} (hb : 1 < b) (hb' : b ≤ 16) :
    ∀ c ∈ Nat.toDigits b n, c.toNat < 128 := by
  intro c hc
  obtain ⟨d, hd, rfl⟩ := exists_digit_of_mem hb hc
  have hall : ∀ d : Fin 16, (Nat.digitChar d).toNat < 128 := by decide
  exact hall ⟨d, Nat.lt_of_lt_of_le hd hb'⟩

/-- **The text of a log** is ASCII: each line has fixed words, digits and its end. -/
theorem isAscii_lines (ms : List Mismatch) : IsAscii (lines ms) := by
  have hdec : ∀ n : Nat, ∀ c ∈ Nat.toDigits 10 n, c.toNat < 128 := fun n =>
    toDigits_ascii (by decide) (by decide)
  have hhex : ∀ n : Nat, ∀ c ∈ Nat.toDigits 16 n, c.toNat < 128 := fun n =>
    toDigits_ascii (by decide) (by decide)
  induction ms with
  | nil => exact fun c hc => nomatch (hc : c ∈ [])
  | cons m ms ih =>
    unfold IsAscii at ih ⊢
    rw [lines_cons, Mismatch.toList_line]
    simp only [List.forall_mem_append, List.forall_mem_cons]
    refine ⟨isAscii_of_all rfl, hdec _, by decide, isAscii_of_all rfl, hdec _, by decide,
      isAscii_of_all rfl, hdec _, by decide, isAscii_of_all rfl, hhex _, by decide,
      isAscii_of_all rfl, hhex _, by decide, ih⟩

namespace Report

variable {r : Report} {n : Nat}

theorem consoleErrors_eq_none_iff : r.consoleErrors n = none ↔ r.log.text = "" := by
  unfold consoleErrors
  dsimp only
  split
  · rename_i hempty
    exact iff_of_true rfl hempty
  · rename_i hne
    refine iff_of_false ?_ hne
    split
    · exact Option.some_ne_none _
    · exact Option.some_ne_none _

/-- A short log is shown as a whole. -/
theorem consoleErrors_of_le (hne : r.log.text ≠ "") (h : r.log.text.length ≤ n) :
    r.consoleErrors n = some ("Errors:\n" ++ r.log.text) := by
  unfold consoleErrors
  dsimp only
  rw [if_neg hne, if_pos h]

/-- **The beginning of a long log** is shown with the number of characters behind it. It is cut at `n`
bytes, where a character begins. -/
theorem consoleErrors_of_lt (hascii : IsAscii r.log.text) (h : n < r.log.text.length) :
    ∃ shown rest, r.log.text = shown ++ rest ∧ shown.length = n ∧
      String.Pos.Raw.IsValid r.log.text ⟨n⟩ ∧
      r.consoleErrors n =
        some ("Errors:\n" ++ shown ++ "\n... more follow (" ++ rest.length.repr ++ " characters)\n") := by
  obtain ⟨shown, rest, htext, hshown⟩ : ∃ shown rest, r.log.text = shown ++ rest ∧
      String.ofList (r.log.text.toList.take n) = shown := by
    refine ⟨_, String.ofList (r.log.text.toList.drop n), ?_, rfl⟩
    rw [← String.ofList_append, List.take_append_drop, String.ofList_toList]
  have hlength : shown.length = n := by
    rw [← hshown, String.length_ofList, List.length_take, String.length_toList]
    exact Nat.min_eq_left (Nat.le_of_lt h)
  obtain ⟨hshownAscii, hrestAscii⟩ := isAscii_append_iff.1 (htext ▸ hascii)
  have hsize : shown.utf8ByteSize = n := hshownAscii.utf8ByteSize_eq.trans hlength
  have hleft : r.log.text.utf8ByteSize - shown.utf8ByteSize = rest.length := by
    rw [htext, String.utf8ByteSize_append, Nat.add_sub_cancel_left, hrestAscii.utf8ByteSize_eq]
  refine ⟨shown, rest, htext, hlength, ?_, ?_⟩
  · refine String.Pos.Raw.isValid_iff_exists_append.2 ⟨shown, rest, htext, ?_⟩
    rw [← hsize]
    rfl
  · have hne : r.log.text ≠ "" := by
      intro hempty
      rw [hempty] at h
      exact Nat.not_lt_zero n h
    unfold consoleErrors
    dsimp only
    rw [if_neg hne, if_neg (Nat.not_le.2 h), hshown, hleft]

/-- **Every character is accounted for.** The console shows nothing just if no line was kept. Otherwise it
shows the whole log if that has `n` characters at most, and else the first `n` characters, cut where a
character begins, with a number that makes up all characters of the log together with `n`. -/
theorem console_accounts (r : Report) (limit n : Nat) (ms : List Mismatch)
    (hlog : r.log = ErrorLog.recordAll { limit } ms) :
    r.log.text = lines (ms.take limit) ∧ r.log.recorded = (ms.take limit).length ∧
      (r.consoleErrors n = none ↔ r.log.recorded = 0) ∧
      (r.log.recorded ≠ 0 → r.log.text.length ≤ n →
        r.consoleErrors n = some ("Errors:\n" ++ r.log.text)) ∧
      (n < r.log.text.length → ∃ shown rest left, r.log.text = shown ++ rest ∧ shown.length = n ∧
        String.Pos.Raw.IsValid r.log.text ⟨n⟩ ∧ n + left = r.log.text.length ∧
        r.consoleErrors n =
          some ("Errors:\n" ++ shown ++ "\n... more follow (" ++ left.repr ++ " characters)\n")) := by
  have hkept : r.log.kept.toList = ms.take limit := by
    rw [hlog, ErrorLog.kept_recordAll]
    rfl
  have htext : r.log.text = lines (ms.take limit) := by rw [ErrorLog.text_eq, hkept]
  have hrecorded : r.log.recorded = (ms.take limit).length := by
    rw [← hkept, Array.length_toList, ErrorLog.recorded]
  have hempty : r.log.text = "" ↔ r.log.recorded = 0 := by
    rw [htext, hrecorded, List.length_eq_zero_iff]
    exact ⟨fun h => lines_injective h, fun h => congrArg lines h⟩
  have hascii : IsAscii r.log.text := htext ▸ isAscii_lines _
  refine ⟨htext, hrecorded, consoleErrors_eq_none_iff.trans hempty,
    fun hsome => consoleErrors_of_le (mt hempty.1 hsome), fun h => ?_⟩
  obtain ⟨shown, rest, hsplit, hlength, hvalid, hshown⟩ := consoleErrors_of_lt hascii h
  refine ⟨shown, rest, rest.length, hsplit, hlength, hvalid, ?_, hshown⟩
  rw [hsplit, String.length_append, hlength]

/-- A report with a log of one line. -/
def withOneLine : Report where
  family := .cru
  pageSize := 8192
  elapsed := .ofParts 2 0
  stats := {}
  errorCheck := true
  barHammer := false
  drainedPages := 0
  superpages := 4
  reclaimed := []
  log := ErrorLog.recordAll { limit := 1 } [⟨7, 8, 1, 2, 3⟩, ⟨8, 8, 1, 2, 3⟩]

/-- The line has 34 characters with its end; all of it is shown, or 24 are left behind the first ten. -/
theorem console_accounts_line : withOneLine.log.text.length = 34 ∧
    withOneLine.consoleErrors 34 = some ("Errors:\n" ++ withOneLine.log.text) ∧
    ∃ shown, shown.length = 10 ∧ withOneLine.consoleErrors 10 =
      some ("Errors:\n" ++ shown ++ "\n... more follow (" ++ (24 : Nat).repr ++ " characters)\n") := by
  have hlength : withOneLine.log.text.length = 34 := by decide
  obtain ⟨-, -, -, hwhole, -⟩ := console_accounts withOneLine 1 34 _ rfl
  obtain ⟨-, -, -, -, hcut⟩ := console_accounts withOneLine 1 10 _ rfl
  obtain ⟨shown, rest, left, -, hshown, -, hleft, htext⟩ := hcut (by rw [hlength]; decide)
  obtain rfl : left = 24 := by omega
  exact ⟨hlength, hwhole (by decide) (Nat.le_of_eq hlength), shown, hshown, htext⟩

end Report

end DmaReadout
