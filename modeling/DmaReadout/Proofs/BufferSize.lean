import DmaReadout.BufferSize
import DmaReadout.Proofs.Spelling
import Mathlib.Data.String.Basic

/-! # Texts of buffer sizes

Which texts give a buffer size, and which size they give.

* `splitUnit?_eq_some_iff`: a text is cut before its last two bytes, if a character begins there.
* `ofUnit?_eq_some_iff`, `unit_of_sameLetters`: the units, in either case.
* `Spells`: a count and a unit behind it, with blanks around either; `parse_eq_ok_iff`.
* `spells_render`, `parse_render`: the text of a size; `bytes_dvd_rounded`: sizes in whole pages.
* `parse_exact`: the main statement. -/

namespace DmaReadout

open Text

/-! ### Units -/

namespace HugePage

/-- A unit in either case are two letters of one byte each, and the second of them is no blank. -/
theorem unit_of_sameLetters {cs : List Char} {page : HugePage}
    (h : sameLetters cs page.unit.toList = true) :
    ∃ a b, cs = [a, b] ∧ a.utf8Size = 1 ∧ b.utf8Size = 1 ∧ isBlank b = false := by
  have hmap : cs.map Char.toLower = page.unit.toList.map Char.toLower := eq_of_beq h
  have hsmall : ∃ x, page.unit.toList.map Char.toLower = [x, 'b'] ∧ (x = 'm' ∨ x = 'g') := by
    cases page
    · exact ⟨'m', rfl, Or.inl rfl⟩
    · exact ⟨'g', rfl, Or.inr rfl⟩
  obtain ⟨x, hx, hxs⟩ := hsmall
  rw [hx] at hmap
  obtain ⟨a, rest, rfl, ha, hrest⟩ := List.map_eq_cons_iff.1 hmap
  obtain ⟨b, rest, rfl, hb, hnil⟩ := List.map_eq_cons_iff.1 hrest
  obtain rfl := List.map_eq_nil_iff.1 hnil
  have hsize : a.utf8Size = 1 := by
    rcases hxs with rfl | rfl
    · rcases eq_or_eq_of_toLower 'M' ha rfl with rfl | rfl <;> rfl
    · rcases eq_or_eq_of_toLower 'G' ha rfl with rfl | rfl <;> rfl
  refine ⟨a, b, rfl, hsize, ?_⟩
  rcases eq_or_eq_of_toLower 'B' hb rfl with rfl | rfl <;> exact ⟨rfl, rfl⟩

theorem ofUnit?_eq_some_iff {cs : List Char} {page : HugePage} :
    ofUnit? cs = some page ↔ sameLetters cs page.unit.toList = true := by
  have hapart : sameLetters cs "MB".toList = true → sameLetters cs "GB".toList = true → False := by
    intro hmega hgiga
    have := (eq_of_beq hmega).symm.trans (eq_of_beq hgiga)
    exact absurd this (by decide)
  unfold ofUnit?
  split
  · rename_i hmega
    cases page with
    | small => exact iff_of_true rfl hmega
    | large => exact iff_of_false nofun (hapart hmega)
  · rename_i hmega
    split
    · rename_i hgiga
      cases page with
      | small => exact iff_of_false nofun hmega
      | large => exact iff_of_true rfl hgiga
    · rename_i hgiga
      cases page with
      | small => exact iff_of_false nofun hmega
      | large => exact iff_of_false nofun hgiga

end HugePage

namespace BufferSize

/-! ### The last two bytes -/

theorem foldr_utf8Size (cs : List Char) :
    cs.foldr (fun c n => c.utf8Size + n) 0 = String.utf8Len cs := by
  induction cs with
  | nil => rfl
  | cons c cs ih => rw [List.foldr_cons, ih, String.utf8Len_cons, Nat.add_comm]

/-- **A text is cut before its last two bytes** exactly if it has at least three and a character begins
there. -/
theorem splitUnit?_eq_some_iff {cs front unit : List Char} :
    splitUnit? cs = some (front, unit) ↔
      cs = front ++ unit ∧ String.utf8Len unit = 2 ∧ 3 ≤ String.utf8Len cs := by
  have hpos := Char.utf8Size_pos
  unfold splitUnit?
  rw [foldr_utf8Size]
  constructor
  · intro h
    split at h
    · cases h
    rename_i hlen
    split at h
    · rename_i last rest hlast
      obtain rfl := List.reverse_eq_cons_iff.1 hlast
      split at h
      · rename_i htwo
        cases h
        exact ⟨rfl, by simpa using htwo, by omega⟩
      split at h
      · rename_i first rest
        split at h
        · rename_i hone
          cases h
          exact ⟨by simp, by simp [hone], by omega⟩
        · cases h
      · cases h
    · cases h
  · rintro ⟨rfl, hunit, hlen⟩
    rw [if_neg (by omega)]
    match unit, hunit with
    | [c], hunit =>
      have hc : c.utf8Size = 2 := by simpa using hunit
      simp [hc]
    | [c, d], hunit =>
      have := hpos c
      have := hpos d
      rw [String.utf8Len_cons, String.utf8Len_cons, String.utf8Len_nil] at hunit
      have hc : c.utf8Size = 1 := by omega
      have hd : d.utf8Size = 1 := by omega
      simp [hc, hd]
    | c :: d :: e :: unit, hunit =>
      have := hpos c
      have := hpos d
      have := hpos e
      rw [String.utf8Len_cons, String.utf8Len_cons, String.utf8Len_cons] at hunit
      omega

/-! ### Sizes -/

/-- A text that spells a size: a count, and behind it the unit of pages, in either case, with blanks
around either. -/
def Spells (text : String) (page : HugePage) (n : Nat) : Prop :=
  ∃ front unit count, Trimmed text.toList (front ++ unit) ∧
    sameLetters unit page.unit.toList = true ∧ Trimmed front count ∧ Numeral count n

/-- The size of a text is that of its count. -/
theorem parse_eq_ok_iff {text : String} {b : BufferSize} :
    parse text = .ok b ↔ ∃ n, Spells text b.hugePage n ∧ n < sizeLimit ∧
      b.bytes = b.hugePage.rounded n * b.hugePage.unitBytes ∧ b.bytes < sizeLimit := by
  constructor
  · intro h
    unfold parse at h
    split at h
    · cases h
    rename_i front unit hsplit
    split at h
    · cases h
    rename_i page hunit
    split at h
    · cases h
    rename_i n hcount
    dsimp only at h
    split at h
    · rename_i hbytes
      cases h
      obtain ⟨htrim, -, -⟩ := splitUnit?_eq_some_iff.1 hsplit
      obtain ⟨hnumeral, hn⟩ := naturalBelow?_eq_some_iff.1 hcount
      exact ⟨n, ⟨front, unit, _, trimChars_eq_iff.1 htrim, HugePage.ofUnit?_eq_some_iff.1 hunit,
        trimmed_trimChars front, hnumeral⟩, hn, rfl, hbytes⟩
    · cases h
  · rintro ⟨n, ⟨front, unit, count, htrim, hunit, hfront, hnumeral⟩, hn, hbytes, hlt⟩
    obtain ⟨x, y, rfl, hx, hy, -⟩ := HugePage.unit_of_sameLetters hunit
    have hlen : 1 ≤ String.utf8Len front := by
      obtain ⟨before, behind, rfl, -⟩ := hfront
      obtain ⟨c, cs, rfl⟩ := List.exists_cons_of_ne_nil hnumeral.ne_nil
      have := c.utf8Size_pos
      simp only [String.utf8Len_append, String.utf8Len_cons]
      omega
    have hsplit : splitUnit? (trimChars text.toList) = some (front, [x, y]) := by
      refine splitUnit?_eq_some_iff.2 ⟨htrim.trimChars_eq, by simp [hx, hy], ?_⟩
      rw [htrim.trimChars_eq, String.utf8Len_append]
      simp only [String.utf8Len_cons, String.utf8Len_nil, hx, hy]
      omega
    unfold parse
    rw [hsplit]
    dsimp only
    rw [HugePage.ofUnit?_eq_some_iff.2 hunit]
    dsimp only
    rw [hfront.trimChars_eq, naturalBelow?_eq_some_iff.2 ⟨hnumeral, hn⟩]
    dsimp only
    rw [← hbytes, if_pos hlt]

/-- Every text without a size is a fault of the configuration. -/
theorem isConfig_of_parse {text : String} {e : Error} (h : parse text = .error e) :
    e.isConfig = true := by
  unfold parse at h
  split at h
  · cases h; rfl
  split at h
  · cases h; rfl
  split at h
  · cases h; rfl
  dsimp only at h
  split at h
  · cases h
  · cases h; rfl

/-- The text of a number of units spells this number. -/
theorem spells_render {b : BufferSize} :
    Spells b.render b.hugePage (b.bytes / b.hugePage.unitBytes) := by
  have hnumeral := numeral_toDigits (b.bytes / b.hugePage.unitBytes)
  refine ⟨_, b.hugePage.unit.toList, _, ?_, beq_self_eq_true _, trimmed_self hnumeral.not_blank, hnumeral⟩
  rw [render, String.toList_append, Nat.toList_repr]
  refine trimmed_self fun c hc => ?_
  rcases List.mem_append.1 hc with hc | hc
  · exact hnumeral.not_blank c hc
  · have hunits : ∀ page : HugePage, ∀ c ∈ page.unit.toList, isBlank c = false := by
      intro page
      cases page <;> exact isBlank_of_all rfl
    exact hunits _ c hc

/-- The bytes of a count. -/
theorem rounded_mul_unitBytes (page : HugePage) (n : Nat) :
    page.rounded n * page.unitBytes =
      match page with
      | .small => max n 2 / 2 * 2 * 2 ^ 20
      | .large => n * 2 ^ 30 := by
  cases page with
  | small =>
    have hround : max n 2 - max n 2 % 2 = max n 2 / 2 * 2 := by omega
    exact congrArg (· * 2 ^ 20) hround
  | large => rfl

/-- A size that comes from a text is a whole number of pages of the memory. -/
theorem bytes_dvd_rounded (page : HugePage) (n : Nat) :
    page.bytes ∣ page.rounded n * page.unitBytes := by
  cases page with
  | small =>
    have hround : max n 2 - max n 2 % 2 = max n 2 / 2 * 2 := by omega
    refine ⟨max n 2 / 2, ?_⟩
    show (max n 2 - max n 2 % 2) * mebibyte = 2 * mebibyte * (max n 2 / 2)
    rw [hround, Nat.mul_assoc, Nat.mul_comm]
  | large => exact ⟨n, Nat.mul_comm n _⟩

theorem rounded_rounded (page : HugePage) (n : Nat) :
    page.rounded (page.rounded n) = page.rounded n := by
  cases page with
  | small =>
    show max (max n 2 - max n 2 % 2) 2 - max (max n 2 - max n 2 % 2) 2 % 2 = max n 2 - max n 2 % 2
    omega
  | large => rfl

/-- The text of a size that comes from a text is read back. -/
theorem parse_render {text : String} {b : BufferSize} (h : parse text = .ok b) :
    parse b.render = .ok b := by
  obtain ⟨n, -, -, hbytes, hlt⟩ := parse_eq_ok_iff.1 h
  have hpos : 0 < b.hugePage.unitBytes := by
    cases b.hugePage <;> decide
  have hcount : b.bytes / b.hugePage.unitBytes = b.hugePage.rounded n := by
    rw [hbytes, Nat.mul_div_cancel _ hpos]
  have hsmall : b.bytes / b.hugePage.unitBytes < sizeLimit :=
    Nat.lt_of_le_of_lt (Nat.div_le_self _ _) hlt
  refine parse_eq_ok_iff.2 ⟨_, spells_render, hsmall, ?_, hlt⟩
  rw [hcount, rounded_rounded]
  exact hbytes

/-- **Which texts give a size.** A text gives a size of memory in pages of 2 MiB or of 1 GiB exactly if it
is a numeral below `2 ^ 64` followed by `MB` or `GB`, in either case and with blanks around either, and the
size is below `2 ^ 64` bytes: that many MiB, rounded down to an even number but two at least, or that many
GiB. All other texts are faults of the configuration. The size is a whole number of pages, and its own text
gives it again. -/
theorem parse_exact (text : String) :
    (∀ bytes page, parse text = .ok ⟨bytes, page⟩ ↔
        ∃ n, Spells text page n ∧ n < 2 ^ 64 ∧ bytes < 2 ^ 64 ∧
          bytes = match page with
            | .small => max n 2 / 2 * 2 * 2 ^ 20
            | .large => n * 2 ^ 30) ∧
      (∀ e, parse text = .error e → e.isConfig = true) ∧
      ∀ b, parse text = .ok b → b.hugePage.bytes ∣ b.bytes ∧ parse b.render = .ok b := by
  refine ⟨fun bytes page => ?_, fun e => isConfig_of_parse, fun b h => ⟨?_, parse_render h⟩⟩
  · rw [parse_eq_ok_iff]
    constructor
    · rintro ⟨n, hspells, hn, hbytes, hlt⟩
      exact ⟨n, hspells, hn, hlt, hbytes.trans (rounded_mul_unitBytes page n)⟩
    · rintro ⟨n, hspells, hn, hlt, hbytes⟩
      exact ⟨n, hspells, hn, hbytes.trans (rounded_mul_unitBytes page n).symm, hlt⟩
  · obtain ⟨n, -, -, hbytes, -⟩ := parse_eq_ok_iff.1 h
    rw [hbytes]
    exact bytes_dvd_rounded b.hugePage n

/-- Eleven MiB are rounded to ten, whose text is read back; the first size in GiB that is too large is a
fault. -/
theorem parse_exact_small :
    parse " +11 mB\t" = .ok ⟨10 * 2 ^ 20, .small⟩ ∧ parse "10MB" = .ok ⟨10 * 2 ^ 20, .small⟩ ∧
      ∃ e, parse "17179869184GB" = .error e ∧ e.isConfig = true := by
  have hspells : Spells " +11 mB\t" .small 11 :=
    ⟨"+11 ".toList, "mB".toList, "+11".toList, trimChars_eq_iff.1 (by decide), by decide,
      trimChars_eq_iff.1 (by decide), natural?_eq_some_iff.1 (by decide)⟩
  obtain ⟨hsize, -, hback⟩ := parse_exact " +11 mB\t"
  have hten : parse " +11 mB\t" = .ok ⟨10 * 2 ^ 20, .small⟩ :=
    (hsize _ _).2 ⟨11, hspells, by decide, by decide, rfl⟩
  obtain ⟨-, hfault, -⟩ := parse_exact "17179869184GB"
  have hlarge : parse "17179869184GB" = .error (.config (.bufferSizeTooLarge "17179869184GB")) := by
    decide +kernel
  exact ⟨hten, (hback _ hten).2, _, hlarge, hfault _ hlarge⟩

end BufferSize

end DmaReadout
