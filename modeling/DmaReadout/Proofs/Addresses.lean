import DmaReadout.Card
import DmaReadout.Proofs.Spelling
import Mathlib.Algebra.Ring.Nat

/-! # Texts of cards

Which texts address a card, and which card they address.

* `AddressParts`: the parts of an address on the bus; `isAddress_iff`: the texts that have them.
* `Denotes`: the three kinds of texts for cards; `ofChars?_eq_some_iff`, `ofText?_eq_some_iff`.
* `ofText?_render`: the text of a card that was read is read back. -/

namespace DmaReadout.CardId

open Text

/-! ### Addresses -/

theorem cut?_eq_some_iff {c : Char} {cs as bs : List Char} :
    cut? c cs = some (as, bs) ↔ cs = as ++ c :: bs ∧ c ∉ as := by
  constructor
  · intro h
    unfold cut? at h
    split at h
    · cases h
    rename_i d rest hdrop
    have hd : d = c := by
      have hhead := head_dropWhile (· != c) cs d (by rw [hdrop]; rfl)
      simpa using hhead
    cases h
    refine ⟨?_, fun hc => ?_⟩
    · rw [← hd, ← hdrop, hd, List.takeWhile_append_dropWhile]
    · have hne := List.mem_takeWhile_imp hc
      simp at hne
  · rintro ⟨rfl, hc⟩
    have hne : ∀ a ∈ as, (a != c) = true := fun a ha => bne_iff_ne.2 fun hac => hc (hac ▸ ha)
    have hdrop : (as ++ c :: bs).dropWhile (· != c) = c :: bs := by
      rw [List.dropWhile_append_of_pos hne, List.dropWhile_cons_of_neg (by simp)]
    have htake : (as ++ c :: bs).takeWhile (· != c) = as := by
      rw [List.takeWhile_append_of_pos hne, List.takeWhile_cons_of_neg (by simp), List.append_nil]
    unfold cut?
    rw [hdrop, htake]

/-- The parts of a text of the form `bus:device.function`. -/
structure AddressParts where
  bus : List Char
  device : List Char
  function : Char

namespace AddressParts

/-- The text with these parts. -/
def text (p : AddressParts) : List Char :=
  p.bus ++ ':' :: (p.device ++ ['.', p.function])

theorem colon_mem_text (p : AddressParts) : ':' ∈ p.text :=
  List.mem_append_right _ List.mem_cons_self

/-- The parts of an address: between one and four hexadecimal digits, one or two, and an octal digit. -/
structure Valid (p : AddressParts) : Prop where
  length_bus : 1 ≤ p.bus.length ∧ p.bus.length ≤ 4
  hex_bus : ∀ c ∈ p.bus, isHexDigit c = true
  length_device : 1 ≤ p.device.length ∧ p.device.length ≤ 2
  hex_device : ∀ c ∈ p.device, isHexDigit c = true
  octal_function : '0' ≤ p.function ∧ p.function ≤ '7'

end AddressParts

theorem isHexField_iff {most : Nat} {cs : List Char} : isHexField most cs = true ↔
    (1 ≤ cs.length ∧ cs.length ≤ most) ∧ ∀ c ∈ cs, isHexDigit c = true := by
  simp only [isHexField, Bool.and_eq_true, decide_eq_true_eq, List.all_eq_true,
    ← List.length_pos_iff, Nat.succ_le_iff]

/-- **The texts of addresses** are those that have the parts of one. -/
theorem isAddress_iff {cs : List Char} :
    isAddress cs = true ↔ ∃ p : AddressParts, p.Valid ∧ cs = p.text := by
  constructor
  · intro h
    unfold isAddress at h
    split at h
    · cases h
    rename_i bus rest hbus
    split at h
    · cases h
    rename_i device function hdevice
    obtain ⟨rfl, -⟩ := cut?_eq_some_iff.1 hbus
    obtain ⟨rfl, -⟩ := cut?_eq_some_iff.1 hdevice
    simp only [Bool.and_eq_true] at h
    obtain ⟨⟨hbusField, hdeviceField⟩, hfunction⟩ := h
    obtain ⟨hbuslen, hbushex⟩ := isHexField_iff.1 hbusField
    obtain ⟨hdevicelen, hdevicehex⟩ := isHexField_iff.1 hdeviceField
    split at hfunction
    · rename_i c
      simp only [Bool.and_eq_true, decide_eq_true_eq] at hfunction
      exact ⟨⟨bus, device, c⟩, ⟨hbuslen, hbushex, hdevicelen, hdevicehex, hfunction⟩, rfl⟩
    · cases hfunction
  · rintro ⟨⟨bus, device, c⟩, ⟨hbuslen, hbushex, hdevicelen, hdevicehex, hfunction⟩, rfl⟩
    have hcolon : isHexDigit ':' = false := rfl
    have hpoint : isHexDigit '.' = false := rfl
    have hbus : cut? ':' (AddressParts.text ⟨bus, device, c⟩) = some (bus, device ++ ['.', c]) := by
      refine cut?_eq_some_iff.2 ⟨rfl, fun hmem => ?_⟩
      rw [hbushex ':' hmem] at hcolon
      cases hcolon
    have hdevice : cut? '.' (device ++ ['.', c]) = some (device, [c]) := by
      refine cut?_eq_some_iff.2 ⟨rfl, fun hmem => ?_⟩
      rw [hdevicehex '.' hmem] at hpoint
      cases hpoint
    unfold isAddress
    rw [hbus]
    dsimp only
    rw [hdevice]
    dsimp only
    rw [isHexField_iff.2 ⟨hbuslen, hbushex⟩, isHexField_iff.2 ⟨hdevicelen, hdevicehex⟩,
      decide_eq_true hfunction.1, decide_eq_true hfunction.2]
    rfl

/-- The characters of an address. -/
def isAddressChar (c : Char) : Bool :=
  isHexDigit c || c = ':' || c = '.'

theorem AddressParts.Valid.isAddressChar {p : AddressParts} (h : p.Valid) :
    ∀ c ∈ p.text, isAddressChar c = true := by
  obtain ⟨-, hbushex, -, hdevicehex, hfunction⟩ := h
  have hdigit : isHexDigit p.function = true := by
    have hle : p.function ≤ '9' := Char.le_trans hfunction.2 (by decide)
    simp [isHexDigit, isDigit, hfunction.1, hle]
  intro c hc
  simp only [AddressParts.text, List.mem_append, List.mem_cons, List.not_mem_nil, or_false] at hc
  rcases hc with hc | rfl | hc | rfl | rfl
  · simp [CardId.isAddressChar, hbushex c hc]
  · rfl
  · simp [CardId.isAddressChar, hdevicehex c hc]
  · rfl
  · simp [CardId.isAddressChar, hdigit]

/-! ### Texts -/

/-- **What a text without blanks around it means**: the name of an emulated card in either case, an
address on the bus, or a serial number. -/
inductive Denotes : List Char → CardId → Prop where
  | cru {cs : List Char} (h : sameLetters cs "emu-cru".toList = true ∨
      sameLetters cs "emulator".toList = true) : Denotes cs (.emulated .cru)
  | crorc {cs : List Char} (h : sameLetters cs "emu-crorc".toList = true) :
    Denotes cs (.emulated .crorc)
  | address {p : AddressParts} (h : p.Valid) : Denotes p.text (.pci (String.ofList p.text))
  | number {cs : List Char} {n : Nat} (h : Numeral cs n) (hn : n < 2 ^ 32) :
    Denotes cs (.serial n.toUInt32)

/-- The names of emulated cards, in small letters, have letters and dashes only. -/
theorem emulatedNamed?_of_mem {cs : List Char} {c : Char} (hc : c ∈ cs) (hlt : c.toNat < 65)
    (hdash : c ≠ '-') : emulatedNamed? cs = none := by
  have hsame : c.toLower = c := by
    unfold Char.toLower
    rw [dif_neg]
    rintro ⟨hle, -⟩
    have : 65 ≤ c.toNat := UInt32.le_iff_toNat_le.1 hle
    omega
  have hletter : ∀ name ∈ ["emu-cru", "emulator", "emu-crorc"],
      (name.toList.map Char.toLower).all (fun d => d = '-' || 65 ≤ d.toNat) = true := by decide
  have hnone : ∀ name ∈ ["emu-cru", "emulator", "emu-crorc"],
      sameLetters cs name.toList = false := by
    intro name hname
    rw [Bool.eq_false_iff]
    intro hletters
    have hmem := mem_of_sameLetters hletters hc
    rw [hsame] at hmem
    have hdashOrLetter := List.all_eq_true.1 (hletter name hname) c hmem
    simp only [Bool.or_eq_true, decide_eq_true_eq] at hdashOrLetter
    rcases hdashOrLetter with h | h
    · exact hdash h
    · omega
  unfold emulatedNamed?
  rw [hnone "emu-cru" (by decide), hnone "emulator" (by decide), hnone "emu-crorc" (by decide)]
  rfl

/-- The characters of numerals come before the colon, and none is a dash. -/
theorem plain_of_numeral {cs : List Char} {n : Nat} (h : Numeral cs n) :
    ∀ c ∈ cs, c.toNat < 58 ∧ c ≠ '-' := by
  intro c hc
  rcases h.digit_or_plus c hc with hdigit | rfl
  · obtain ⟨hlo, hhi⟩ := isDigit_iff.1 hdigit
    refine ⟨by omega, ?_⟩
    rintro rfl
    exact absurd hlo (by decide)
  · decide

/-- **The texts of cards** without blanks around them. -/
theorem ofChars?_eq_some_iff {cs : List Char} {id : CardId} :
    ofChars? cs = some id ↔ Denotes cs id := by
  constructor
  · intro h
    unfold ofChars? at h
    split at h
    · rename_i f hnamed
      cases h
      unfold emulatedNamed? at hnamed
      split at hnamed
      · rename_i hletters
        cases hnamed
        exact .cru (by simpa using hletters)
      split at hnamed
      · rename_i hletters
        cases hnamed
        exact .crorc hletters
      · cases hnamed
    split at h
    · rename_i haddress
      cases h
      obtain ⟨p, hp, rfl⟩ := isAddress_iff.1 haddress
      exact .address hp
    · obtain ⟨n, hn, rfl⟩ := Option.map_eq_some_iff.1 h
      obtain ⟨hnumeral, hlt⟩ := naturalBelow?_eq_some_iff.1 hn
      exact .number hnumeral hlt
  · intro h
    unfold ofChars?
    cases h with
    | cru h =>
      have hnamed : emulatedNamed? cs = some .cru := by
        unfold emulatedNamed?
        rw [if_pos (by simpa using h)]
      rw [hnamed]
    | crorc h =>
      have hapart : ∀ name ∈ ["emu-cru", "emulator"],
          name.toList.map Char.toLower ≠ "emu-crorc".toList.map Char.toLower := by decide
      have hother : ∀ name ∈ ["emu-cru", "emulator"], sameLetters cs name.toList = false := by
        intro name hname
        rw [Bool.eq_false_iff]
        intro hletters
        exact hapart name hname ((eq_of_beq hletters).symm.trans (eq_of_beq h))
      have hnamed : emulatedNamed? cs = some .crorc := by
        unfold emulatedNamed?
        rw [hother "emu-cru" (by decide), hother "emulator" (by decide), if_neg (by decide), if_pos h]
      rw [hnamed]
    | address hp =>
      rename_i p
      rw [emulatedNamed?_of_mem p.colon_mem_text (by decide) (by decide)]
      exact if_pos (isAddress_iff.2 ⟨p, hp, rfl⟩)
    | number h hn =>
      rename_i n
      have hplain := plain_of_numeral h
      obtain ⟨c, hc⟩ := List.exists_mem_of_ne_nil cs h.ne_nil
      have hlt := (hplain c hc).1
      have haddress : ¬isAddress cs = true := by
        intro haddress
        obtain ⟨p, -, rfl⟩ := isAddress_iff.1 haddress
        exact absurd (hplain _ p.colon_mem_text).1 (by decide)
      have hbelow : naturalBelow? (1 <<< 32) cs = some n := naturalBelow?_eq_some_iff.2 ⟨h, hn⟩
      rw [emulatedNamed?_of_mem hc (by omega) (hplain c hc).2]
      dsimp only
      rw [if_neg haddress, hbelow]
      rfl

theorem ofText?_eq_some_iff {s : String} {id : CardId} :
    ofText? s = some id ↔ ∃ cs, Trimmed s.toList cs ∧ Denotes cs id := by
  unfold ofText?
  rw [ofChars?_eq_some_iff]
  constructor
  · exact fun h => ⟨_, trimmed_trimChars _, h⟩
  · rintro ⟨cs, htrim, h⟩
    rwa [htrim.trimChars_eq]

/-! ### Reading back -/

/-- The characters of addresses lie between the full stop and the letter `f`. -/
theorem toNat_of_isAddressChar {c : Char} (h : isAddressChar c = true) :
    46 ≤ c.toNat ∧ c.toNat ≤ 102 := by
  simp only [isAddressChar, isHexDigit, Bool.or_eq_true, isDigit_iff, Bool.and_eq_true,
    decide_eq_true_eq, Char.le_def, UInt32.le_iff_toNat_le] at h
  rcases h with (((h | h) | h) | rfl) | rfl
  · omega
  · have : 97 ≤ c.toNat ∧ c.toNat ≤ 102 := h
    omega
  · have : 65 ≤ c.toNat ∧ c.toNat ≤ 70 := h
    omega
  · decide
  · decide

/-- The text of a card that was read has no blanks and means the same card. -/
theorem Denotes.render {cs : List Char} {id : CardId} (h : Denotes cs id) :
    Denotes id.render.toList id ∧ ∀ c ∈ id.render.toList, isBlank c = false := by
  cases h with
  | cru => exact ⟨.cru (Or.inl (by decide)), isBlank_of_all rfl⟩
  | crorc => exact ⟨.crorc (by decide), isBlank_of_all rfl⟩
  | address hp =>
    rw [CardId.render, String.toList_ofList]
    refine ⟨.address hp, fun c hc => ?_⟩
    have := toNat_of_isAddressChar (hp.isAddressChar c hc)
    exact not_isBlank (by omega) (by omega)
  | number h hn =>
    rename_i n
    have hvalue : n.toUInt32.toNat = n := UInt32.toNat_ofNat_of_lt' hn
    rw [CardId.render, Nat.toList_repr, hvalue]
    exact ⟨.number (numeral_toDigits n) hn, (numeral_toDigits n).not_blank⟩

/-- **The text of a card** that was read from a text is read back. -/
theorem ofText?_render {s : String} {id : CardId} (h : ofText? s = some id) :
    ofText? id.render = some id := by
  obtain ⟨cs, -, hdenotes⟩ := ofText?_eq_some_iff.1 h
  obtain ⟨hback, hblank⟩ := hdenotes.render
  exact ofText?_eq_some_iff.2 ⟨_, trimmed_self hblank, hback⟩

end DmaReadout.CardId
