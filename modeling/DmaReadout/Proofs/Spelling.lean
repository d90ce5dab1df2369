import DmaReadout.Text.Blank
import DmaReadout.Text.Numeral
import Mathlib.Data.List.TakeWhile

/-! # Spelling

What the readers of texts look for, said without the readers: a part of a text without the blanks around
it, a numeral, a name in letters of either case.

* `Trimmed`: what is left without the blanks at the two ends; `trimChars_eq_iff`.
* `Numeral`: digits after one `+` or none, with their value; `naturalBelow?_eq_some_iff`,
  `numeral_toDigits`.
* `mem_of_sameLetters`, `eq_or_eq_of_toLower`: names in either case. -/

namespace DmaReadout.Text

/-! ### Blanks -/

/-- What is left of characters when the blanks at the two ends are taken away: around it there are blanks
only, and it neither begins nor ends with one. -/
def Trimmed (cs ds : List Char) : Prop :=
  ∃ before behind, cs = before ++ ds ++ behind ∧ (∀ c ∈ before, isBlank c = true) ∧
    (∀ c ∈ behind, isBlank c = true) ∧ (∀ c ∈ ds.head?, isBlank c = false) ∧
    ∀ c ∈ ds.getLast?, isBlank c = false

theorem dropWhile_of_head {α : Type} {p : α → Bool} {l : List α} (h : ∀ a ∈ l.head?, p a = false) :
    l.dropWhile p = l := by
  cases l with
  | nil => rfl
  | cons a l => exact List.dropWhile_cons_of_neg (Bool.eq_false_iff.1 (h a rfl))

theorem head_dropWhile {α : Type} (p : α → Bool) (l : List α) :
    ∀ a ∈ (l.dropWhile p).head?, p a = false := by
  intro a ha
  have hhead := List.head?_dropWhile_not p l
  rwa [ha] at hhead

theorem trimmed_trimChars (cs : List Char) : Trimmed cs (trimChars cs) := by
  have hstart : cs = cs.takeWhile isBlank ++ cs.dropWhile isBlank :=
    List.takeWhile_append_dropWhile.symm
  generalize hrest : cs.dropWhile isBlank = rest at hstart
  have hend : rest = trimChars cs ++ (rest.reverse.takeWhile isBlank).reverse := by
    rw [trimChars, hrest, ← List.reverse_append, List.takeWhile_append_dropWhile, List.reverse_reverse]
  have hhead := head_dropWhile isBlank cs
  rw [hrest] at hhead
  refine ⟨cs.takeWhile isBlank, (rest.reverse.takeWhile isBlank).reverse, ?_,
    fun c => List.mem_takeWhile_imp, fun c hc => ?_, fun c hc => hhead c ?_, ?_⟩
  · rw [List.append_assoc, ← hend]
    exact hstart
  · exact List.mem_takeWhile_imp (List.mem_reverse.1 hc)
  · rw [hend, List.head?_append, Option.mem_def.1 hc]
    rfl
  · rw [trimChars, List.getLast?_reverse]
    exact head_dropWhile isBlank _

theorem Trimmed.trimChars_eq {cs ds : List Char} (h : Trimmed cs ds) : trimChars cs = ds := by
  obtain ⟨before, behind, rfl, hbefore, hbehind, hhead, hlast⟩ := h
  rw [trimChars, List.append_assoc, List.dropWhile_append_of_pos hbefore]
  have hbehind' : ∀ c ∈ behind.reverse, isBlank c = true := fun c hc => hbehind c (List.mem_reverse.1 hc)
  cases ds with
  | nil =>
    have hnone : behind.dropWhile isBlank = [] := List.dropWhile_eq_nil_iff.2 hbehind
    rw [List.nil_append, hnone]
    rfl
  | cons d ds =>
    have hkeep : (d :: ds ++ behind).dropWhile isBlank = d :: ds ++ behind := dropWhile_of_head hhead
    have hkeep' : (d :: ds).reverse.dropWhile isBlank = (d :: ds).reverse :=
      dropWhile_of_head (by rwa [List.head?_reverse])
    rw [hkeep, List.reverse_append, List.dropWhile_append_of_pos hbehind', hkeep', List.reverse_reverse]

theorem trimChars_eq_iff {cs ds : List Char} : trimChars cs = ds ↔ Trimmed cs ds :=
  ⟨fun h => h ▸ trimmed_trimChars cs, Trimmed.trimChars_eq⟩

theorem isBlank_of_all {cs : List Char} (h : cs.all (! isBlank ·) = true) :
    ∀ c ∈ cs, isBlank c = false := by
  simpa using h

theorem trimmed_self {cs : List Char} (h : ∀ c ∈ cs, isBlank c = false) : Trimmed cs cs :=
  ⟨[], [], by simp, nofun, nofun, fun c hc => h c (List.mem_of_mem_head? hc),
    fun c hc => h c (List.mem_of_getLast? hc)⟩

/-! ### Numerals -/

/-- A numeral with its value: one `+` or none, and at least one digit. -/
def Numeral (cs : List Char) (n : Nat) : Prop :=
  ∃ sign digits, cs = sign ++ digits ∧ (sign = [] ∨ sign = ['+']) ∧ digits ≠ [] ∧
    (∀ c ∈ digits, isDigit c = true) ∧ digitsValue digits = n

theorem natural?_eq_some_iff {cs : List Char} {n : Nat} : natural? cs = some n ↔ Numeral cs n := by
  have hplus : isDigit '+' = false := rfl
  constructor
  · intro h
    unfold natural? at h
    split at h <;> obtain ⟨hne, hall, hvalue⟩ := digits?_eq_some_iff.1 h
    · exact ⟨['+'], _, rfl, Or.inr rfl, hne, List.all_eq_true.1 hall, hvalue⟩
    · exact ⟨[], _, rfl, Or.inl rfl, hne, List.all_eq_true.1 hall, hvalue⟩
  · rintro ⟨sign, digits, rfl, hsign, hne, hall, hvalue⟩
    have hdigits := digits?_eq_some_iff.2 ⟨hne, List.all_eq_true.2 hall, hvalue⟩
    rcases hsign with rfl | rfl
    · rw [List.nil_append]
      unfold natural?
      split
      · rw [hall '+' List.mem_cons_self] at hplus
        cases hplus
      · exact hdigits
    · exact hdigits

theorem naturalBelow?_eq_some_iff {bound n : Nat} {cs : List Char} :
    naturalBelow? bound cs = some n ↔ Numeral cs n ∧ n < bound := by
  rw [naturalBelow?, Option.filter_eq_some_iff, natural?_eq_some_iff, decide_eq_true_eq]

/-- The digits that a number is written with are a numeral of it. -/
theorem numeral_toDigits (n : Nat) : Numeral (Nat.toDigits 10 n) n := by
  obtain ⟨hne, hall, hvalue⟩ := digits?_eq_some_iff.1 (digits?_toDigits n)
  exact ⟨[], _, rfl, Or.inl rfl, hne, List.all_eq_true.1 hall, hvalue⟩

/-- The characters of numerals. -/
theorem Numeral.digit_or_plus {cs : List Char} {n : Nat} (h : Numeral cs n) :
    ∀ c ∈ cs, isDigit c = true ∨ c = '+' := by
  obtain ⟨sign, digits, rfl, hsign, -, hall, -⟩ := h
  intro c hc
  rcases List.mem_append.1 hc with hc | hc
  · rcases hsign with rfl | rfl
    · cases hc
    · exact Or.inr (List.mem_singleton.1 hc)
  · exact Or.inl (hall c hc)

theorem Numeral.ne_nil {cs : List Char} {n : Nat} (h : Numeral cs n) : cs ≠ [] := by
  obtain ⟨sign, digits, rfl, -, hne, -⟩ := h
  exact List.append_ne_nil_of_right_ne_nil sign hne

/-- A digit is at one of ten places of the code. -/
theorem isDigit_iff {c : Char} : isDigit c = true ↔ 48 ≤ c.toNat ∧ c.toNat ≤ 57 := by
  simp only [isDigit, Bool.and_eq_true, decide_eq_true_eq, Char.le_def, UInt32.le_iff_toNat_le]
  exact Iff.rfl

/-- No character is blank that comes after the blank of the keyboard and before the blanks beyond
ASCII. -/
theorem not_isBlank {c : Char} (hlo : 32 < c.toNat) (hhi : c.toNat < 0x85) : isBlank c = false := by
  have hranges : ∀ r ∈ blankRanges, r.2 ≤ 32 ∨ 0x85 ≤ r.1 := by decide
  refine List.any_eq_false.2 fun r hr => ?_
  have := hranges r hr
  simp only [Bool.and_eq_true, decide_eq_true_eq]
  omega

theorem Numeral.not_blank {cs : List Char} {n : Nat} (h : Numeral cs n) :
    ∀ c ∈ cs, isBlank c = false := by
  intro c hc
  rcases h.digit_or_plus c hc with hdigit | rfl
  · obtain ⟨hlo, hhi⟩ := isDigit_iff.1 hdigit
    exact not_isBlank (by omega) (by omega)
  · rfl

/-! ### Letters of either case -/

theorem mem_of_sameLetters {a b : List Char} (h : sameLetters a b = true) {c : Char} (hc : c ∈ a) :
    c.toLower ∈ b.map Char.toLower := by
  rw [← eq_of_beq h]
  exact List.mem_map_of_mem hc

/-- A character that becomes a small letter is this letter or its capital. -/
theorem eq_or_eq_of_toLower {c small : Char} (capital : Char) (h : c.toLower = small)
    (hcase : small.toNat = capital.toNat + 32) : c = small ∨ c = capital := by
  unfold Char.toLower at h
  split at h
  · rename_i hupper
    refine Or.inr (Char.toNat_inj.1 ?_)
    have hval : c.val.toNat + 32 = small.toNat := by
      have hle : c.val.toNat ≤ 90 := UInt32.le_iff_toNat_le.1 hupper.2
      rw [← h]
      show c.val.toNat + 32 = (c.val + 32).toNat
      rw [UInt32.toNat_add]
      show _ = (c.val.toNat + 32) % 2 ^ 32
      omega
    show c.val.toNat = capital.toNat
    omega
  · exact Or.inl h

end DmaReadout.Text
