import DmaReadout.Verifier
import Mathlib.Algebra.Ring.Nat
import Mathlib.Order.Bounds.Basic

/-! # Comparing a page with the generator

What the check of one page says, in words of the page alone.

* `Family.ChecksBody`, `Family.Checks`: the words that are checked on a page.
* `Deviates`: a word behind the header that is checked and is not the generator's. The first of them is
  the mismatch: `bodyMismatch?_of_isLeast`, `bodyMismatch?_eq_none_iff`.
* `SameWords`: two event counters with the same words; `SameWords.succ`, `sameWords_leadingCounter`.
* `Verifier.InStep`: a verifier whose counter has the words of the next page; `InStep.next`.
* `Verifier.check_exact`: the main statement. -/

namespace DmaReadout

variable {family : Family} {pattern : Pattern} {c e w : Word} {page : Array Word} {event : UInt64}

/-! ### The words that are checked -/

/-- The words behind the header that are checked: every eighth with the newer card, all that come after
the first eight with the older one. -/
def Family.ChecksBody : Family → Nat → Prop
  | .cru, i => 8 ∣ i
  | .crorc, i => 8 ≤ i

instance : ∀ (family : Family) (i : Nat), Decidable (family.ChecksBody i)
  | .cru, i => inferInstanceAs (Decidable (8 ∣ i))
  | .crorc, i => inferInstanceAs (Decidable (8 ≤ i))

/-- The words that are checked: with the older card also the counter in the header. -/
def Family.Checks (family : Family) (i : Nat) : Prop :=
  family = .crorc ∧ i = 0 ∨ family.ChecksBody i

instance (family : Family) (i : Nat) : Decidable (family.Checks i) :=
  inferInstanceAs (Decidable (_ ∨ _))

theorem Family.checks_zero : ∀ family : Family, family.Checks 0
  | .cru => Or.inr (Nat.dvd_zero 8)
  | .crorc => Or.inl ⟨rfl, rfl⟩

theorem mem_bodyIndices {n i : Nat} : i ∈ bodyIndices family n ↔ family.ChecksBody i ∧ i < n := by
  cases family with
  | cru =>
    simp only [bodyIndices, Family.ChecksBody, List.mem_map, List.mem_range, stride]
    constructor
    · rintro ⟨j, hj, rfl⟩
      exact ⟨Nat.dvd_mul_right 8 j, by omega⟩
    · rintro ⟨⟨j, rfl⟩, hj⟩
      exact ⟨j, by omega, rfl⟩
  | crorc =>
    simp only [bodyIndices, Family.ChecksBody, List.mem_map, List.mem_range, headerWords]
    constructor
    · rintro ⟨j, hj, rfl⟩
      omega
    · rintro ⟨hle, hlt⟩
      exact ⟨i - 8, by omega, by omega⟩

theorem pairwise_bodyIndices (family : Family) (n : Nat) : (bodyIndices family n).Pairwise (· < ·) := by
  cases family with
  | cru =>
    refine List.Pairwise.map _ (fun a b hab => ?_) List.pairwise_lt_range
    unfold stride
    omega
  | crorc => exact List.Pairwise.map _ (fun a b hab => Nat.add_lt_add_left hab _) List.pairwise_lt_range

/-- Every word of a page is determined, unless the pattern is arbitrary. -/
theorem generatedWord?_eq_some (h : pattern ≠ .random) (family : Family) (counter : Word) (i : Nat) :
    ∃ w, generatedWord? family pattern counter i = some w := by
  unfold generatedWord?
  split
  · exact ⟨_, rfl⟩
  · cases pattern with
    | random => exact absurd rfl h
    | alternating => exact ⟨_, rfl⟩
    | constant => exact ⟨_, rfl⟩
    | incremental => cases family <;> exact ⟨_, rfl⟩

/-- Only the words of the newer card's counting pattern depend on the counter behind the header. -/
theorem generatedWord?_cru (c : Word) (i : Nat) :
    generatedWord? .cru .incremental c i = some (c * 256 + (i / stride).toUInt32) :=
  if_neg (by simp)

theorem generatedWord?_crorc_zero (pattern : Pattern) (c : Word) :
    generatedWord? .crorc pattern c 0 = some c :=
  if_pos ⟨rfl, by decide⟩

/-- A word behind the header that is checked and is not the generator's. -/
def Deviates (family : Family) (pattern : Pattern) (c : Word) (page : Array Word) (i : Nat) : Prop :=
  family.ChecksBody i ∧ i < page.size ∧ page[i]? ≠ generatedWord? family pattern c i

instance (i : Nat) : Decidable (Deviates family pattern c page i) :=
  inferInstanceAs (Decidable (_ ∧ _))

instance : Decidable (∃ i, Deviates family pattern c page i) :=
  decidable_of_iff (∃ i < page.size, Deviates family pattern c page i)
    ⟨fun ⟨i, _, h⟩ => ⟨i, h⟩, fun ⟨i, h⟩ => ⟨i, h.2.1, h⟩⟩

/-- All words that are checked are those of the generator. -/
def Matches (family : Family) (pattern : Pattern) (c : Word) (page : Array Word) : Prop :=
  ∀ i < page.size, family.Checks i → page[i]? = generatedWord? family pattern c i

/-! ### The first deviation -/

/-- In a sorted list, what is found first is found at the least place. -/
theorem findSome?_of_isLeast {β : Type} {f : Nat → Option β} {l : List Nat} (hl : l.Pairwise (· < ·))
    {i : Nat} (h : IsLeast {j | j ∈ l ∧ f j ≠ none} i) : l.findSome? f = f i := by
  obtain ⟨⟨hi, hne⟩, hleast⟩ := h
  obtain ⟨b, hb⟩ := Option.ne_none_iff_exists'.1 hne
  obtain ⟨before, after, rfl⟩ := List.append_of_mem hi
  rw [hb]
  refine List.findSome?_eq_some_iff.2 ⟨before, i, after, rfl, hb, fun j hj => ?_⟩
  have hlt : j < i := (List.pairwise_append.1 hl).2.2 j hj i List.mem_cons_self
  by_contra hsome
  exact absurd (hleast ⟨List.mem_append_left _ hj, hsome⟩) (Nat.not_le.2 hlt)

theorem wordMismatch?_eq_some {i : Nat} (hi : i < page.size)
    (he : generatedWord? family pattern c i = some e) (hne : page[i]? ≠ some e) :
    wordMismatch? family pattern event c page i = some ⟨event, i, c, e, page[i]⟩ := by
  rw [Array.getElem?_eq_getElem hi, ne_eq, Option.some.injEq] at hne
  simp [wordMismatch?, he, Array.getD, hi, hne]

theorem wordMismatch?_eq_none {i : Nat} (hi : i < page.size)
    (h : page[i]? = generatedWord? family pattern c i) :
    wordMismatch? family pattern event c page i = none := by
  rw [Array.getElem?_eq_getElem hi] at h
  simp [wordMismatch?, ← h, Array.getD, hi]

theorem wordMismatch?_ne_none_iff (hpattern : pattern ≠ .random) {i : Nat} (hi : i < page.size) :
    wordMismatch? family pattern event c page i ≠ none ↔
      page[i]? ≠ generatedWord? family pattern c i := by
  obtain ⟨e, he⟩ := generatedWord?_eq_some hpattern family c i
  refine ⟨fun h hsame => h (wordMismatch?_eq_none hi hsame), fun hne => ?_⟩
  rw [wordMismatch?_eq_some hi he (he ▸ hne)]
  exact Option.some_ne_none _

/-- The words at which a mismatch is found are those that deviate. -/
theorem mem_bodyIndices_and_iff (hpattern : pattern ≠ .random) (event : UInt64) {i : Nat} :
    i ∈ bodyIndices family page.size ∧ wordMismatch? family pattern event c page i ≠ none ↔
      Deviates family pattern c page i := by
  rw [mem_bodyIndices, Deviates, and_assoc]
  exact and_congr_right fun _ => and_congr_right fun hi => wordMismatch?_ne_none_iff hpattern hi

/-- **The mismatch of a page** is its first deviation. -/
theorem bodyMismatch?_of_isLeast (hpattern : pattern ≠ .random) (event : UInt64) {i : Nat}
    (h : IsLeast {j | Deviates family pattern c page j} i) :
    ∃ e w, generatedWord? family pattern c i = some e ∧ page[i]? = some w ∧
      bodyMismatch? family pattern event c page = some ⟨event, i, c, e, w⟩ := by
  obtain ⟨e, he⟩ := generatedWord?_eq_some hpattern family c i
  obtain ⟨-, hi, hne⟩ := h.1
  refine ⟨e, page[i], he, Array.getElem?_eq_getElem hi, ?_⟩
  rw [← wordMismatch?_eq_some hi he (he ▸ hne), bodyMismatch?]
  refine findSome?_of_isLeast (pairwise_bodyIndices family page.size) ?_
  simpa only [mem_bodyIndices_and_iff hpattern event] using h

theorem bodyMismatch?_eq_none_iff (hpattern : pattern ≠ .random) :
    bodyMismatch? family pattern event c page = none ↔ ∀ i, ¬Deviates family pattern c page i := by
  rw [bodyMismatch?, List.findSome?_eq_none_iff]
  refine forall_congr' fun i => ?_
  rw [← mem_bodyIndices_and_iff hpattern event]
  simp

theorem headerMismatch?_eq (family : Family) (event : UInt64) (c : Word) (page : Array Word) :
    headerMismatch? family event c page =
      if family = .crorc ∧ 0 < page.size ∧ page[0]? ≠ some c then
        some ⟨event, 0, c, c, page.getD 0 0⟩
      else none := by
  cases family with
  | cru => rfl
  | crorc =>
    unfold headerMismatch?
    by_cases hsize : 0 < page.size
    · by_cases hc : page[0] = c <;> simp [hsize, hc, Array.getD]
    · simp [hsize]

/-- Nothing is found on a page just if all words that are checked are those of the generator. -/
theorem matches_iff (hpattern : pattern ≠ .random) (event : UInt64) :
    Matches family pattern c page ↔
      headerMismatch? family event c page = none ∧
        bodyMismatch? family pattern event c page = none := by
  rw [bodyMismatch?_eq_none_iff hpattern, headerMismatch?_eq, ite_eq_right_iff]
  constructor
  · intro h
    refine ⟨?_, fun i hi => hi.2.2 (h i hi.2.1 (Or.inr hi.1))⟩
    rintro ⟨rfl, hsize, hne⟩
    rw [h 0 hsize (Family.checks_zero .crorc), generatedWord?_crorc_zero] at hne
    exact absurd rfl hne
  · rintro ⟨hheader, hbody⟩ i hi (⟨rfl, rfl⟩ | hchecks)
    · rw [generatedWord?_crorc_zero]
      by_contra hne
      exact absurd (hheader ⟨rfl, hi, hne⟩) (Option.some_ne_none _)
    · by_contra hne
      exact hbody i ⟨hchecks, hi, hne⟩

/-! ### Counters with the same words -/

/-- Two event counters with the same words on their pages. -/
def SameWords (family : Family) (pattern : Pattern) (c e : Word) : Prop :=
  ∀ i, generatedWord? family pattern c i = generatedWord? family pattern e i

theorem sameWords_cru_iff : SameWords .cru .incremental c e ↔ c * 256 = e * 256 := by
  unfold SameWords
  simp only [generatedWord?_cru, Option.some.injEq, UInt32.add_left_inj]
  exact ⟨fun h => h 0, fun h _ => h⟩

/-- On the newer card the lower 24 bits of the counter are those that count. -/
theorem mul_256_inj : c * 256 = e * 256 ↔ c.toNat % 2 ^ 24 = e.toNat % 2 ^ 24 := by
  simp only [← UInt32.toNat_inj, UInt32.toNat_mul, UInt32.reduceToNat]
  omega

theorem sameWords_cru_fixed (hp : pattern ≠ .incremental) : SameWords .cru pattern c e := by
  intro i
  cases pattern with
  | incremental => exact absurd rfl hp
  | _ => simp [generatedWord?]

theorem sameWords_crorc_iff : SameWords .crorc pattern c e ↔ c = e := by
  refine ⟨fun h => ?_, fun h i => by rw [h]⟩
  have h0 := h 0
  rwa [generatedWord?_crorc_zero, generatedWord?_crorc_zero, Option.some.injEq] at h0

/-- On the newer card the first word of a page decides about all others. -/
theorem sameWords_cru_of_first
    (h : generatedWord? .cru pattern c 0 = generatedWord? .cru pattern e 0) :
    SameWords .cru pattern c e := by
  by_cases hp : pattern = .incremental
  · subst hp
    rw [generatedWord?_cru, generatedWord?_cru, Option.some.injEq, UInt32.add_left_inj] at h
    exact sameWords_cru_iff.2 h
  · exact sameWords_cru_fixed hp

/-- Counters with the same words go on to have the same words, also where they come round. -/
theorem SameWords.succ (h : SameWords family pattern c e) :
    SameWords family pattern (c + 1) (e + 1) := by
  cases family with
  | crorc =>
    rw [sameWords_crorc_iff] at h ⊢
    rw [h]
  | cru =>
    by_cases hp : pattern = .incremental
    · subst hp
      rw [sameWords_cru_iff] at h ⊢
      rw [UInt32.add_mul, UInt32.add_mul, h]
    · exact sameWords_cru_fixed hp

/-- The counter that a page shows has the words of the page's own. -/
theorem sameWords_leadingCounter (hw : generatedWord? family pattern e 0 = some w)
    (hpage : page[0]? = some w) : SameWords family pattern (leadingCounter family page) e := by
  rw [leadingCounter, hpage]
  cases family with
  | crorc =>
    rw [generatedWord?_crorc_zero, Option.some.injEq] at hw
    exact sameWords_crorc_iff.2 hw.symm
  | cru =>
    by_cases hp : pattern = .incremental
    · subst hp
      rw [generatedWord?_cru, Option.some.injEq] at hw
      rw [sameWords_cru_iff, ← hw, ← UInt32.toNat_inj]
      have hzero : ((0 / stride : Nat).toUInt32).toNat = 0 := rfl
      simp only [UInt32.toNat_mul, UInt32.toNat_div, UInt32.toNat_add, hzero, UInt32.reduceToNat]
      omega
    · exact sameWords_cru_fixed hp

theorem SameWords.matches (h : SameWords family pattern c e) (hpage : Matches family pattern e page) :
    Matches family pattern c page :=
  fun i hi hchecks => (hpage i hi hchecks).trans (h i).symm

/-! ### The mismatches that a page can have -/

/-- The mismatches that a page can have: pages of the older card also have a header. -/
def Family.mismatchesPerPage : Family → Nat
  | .cru => 1
  | .crorc => 2

namespace Verifier

variable {v : Verifier}

theorem length_mismatches_le (v : Verifier) (event : UInt64) (page : Array Word) :
    (v.mismatches event page).length ≤ v.family.mismatchesPerPage := by
  have hone : ∀ x : Option Mismatch, x.toList.length ≤ 1 := by
    intro x
    cases x <;> simp
  have hbody := hone (bodyMismatch? v.family v.pattern event (v.expected page) page)
  rw [mismatches, List.length_append]
  cases hf : v.family with
  | cru =>
    rw [hf] at hbody
    exact (Nat.zero_add _).trans_le hbody
  | crorc =>
    have hheader := hone (headerMismatch? .crorc event (v.expected page) page)
    rw [hf] at hbody
    exact Nat.add_le_add hheader hbody

theorem mismatches_eq_nil_iff (hpattern : v.pattern ≠ .random) :
    v.mismatches event page = [] ↔ Matches v.family v.pattern (v.expected page) page := by
  rw [matches_iff hpattern event, mismatches, List.append_eq_nil_iff, Option.toList_eq_nil_iff,
    Option.toList_eq_nil_iff]

/-- A page without a mismatch behind the header leaves the counter. -/
theorem check_of_none (h : bodyMismatch? v.family v.pattern event (v.expected page) page = none) :
    v.check event page =
      ((headerMismatch? v.family event (v.expected page) page).toList.length,
        { v with
          counter? := some (v.expected page)
          log := v.log.recordAll
            (headerMismatch? v.family event (v.expected page) page).toList }) := by
  simp only [check, h, Option.toList_none, List.append_nil, List.isEmpty_nil, Bool.not_true,
    Bool.false_and, Bool.false_eq_true, if_false]

/-- A mismatch behind the header is recorded last, and the counter is taken from the page if the verifier
does so. -/
theorem check_of_some {m : Mismatch}
    (h : bodyMismatch? v.family v.pattern event (v.expected page) page = some m) :
    v.check event page =
      ((headerMismatch? v.family event (v.expected page) page).toList.length + 1,
        { v with
          counter? := some (if v.resync = true then leadingCounter v.family page else v.expected page)
          log := v.log.recordAll
            ((headerMismatch? v.family event (v.expected page) page).toList ++ [m]) }) := by
  simp only [check, h, Option.toList_some, List.length_append, List.length_singleton,
    List.isEmpty_cons, Bool.not_false, Bool.true_and]

theorem create_of_verifiable (h : pattern.verifiable = true) (family : Family) (resync : Bool)
    (limit : Nat) :
    create family pattern resync limit = .ok ⟨family, pattern, resync, none, { limit }⟩ :=
  if_pos h

/-! ### Verifiers in step with the pages -/

/-- A verifier that has no counter yet, or one with the words of the counter `e`. -/
def InStep (v : Verifier) (e : Word) : Prop :=
  ∀ c, v.counter? = some c → SameWords v.family v.pattern c e

/-- The first counter is taken from the page itself. -/
theorem InStep.expected (h : v.InStep e) (hw : generatedWord? v.family v.pattern e 0 = some w)
    (hpage : page[0]? = some w) : SameWords v.family v.pattern (v.expected page) e := by
  unfold Verifier.expected
  cases hc : v.counter? with
  | some c => exact h c hc
  | none => exact sameWords_leadingCounter hw hpage

/-- The counter that follows that of a page has the words of the next one: if it is taken from the page
in any case, otherwise if it had the words of the page. -/
theorem inStep_next (hw : generatedWord? v.family v.pattern e 0 = some w) (hpage : page[0]? = some w)
    (hkept : bodyMismatch? v.family v.pattern event (v.expected page) page = none ∨ v.resync = false →
      SameWords v.family v.pattern (v.expected page) e) :
    (v.check event page).2.advance.InStep (e + 1) := by
  cases hbody : bodyMismatch? v.family v.pattern event (v.expected page) page with
  | none =>
    rw [check_of_none hbody]
    rintro _ ⟨⟩
    exact (hkept (Or.inl hbody)).succ
  | some m =>
    rw [check_of_some hbody]
    rintro _ ⟨⟩
    refine SameWords.succ ?_
    cases hresync : v.resync with
    | true => exact sameWords_leadingCounter hw hpage
    | false => exact hkept (Or.inr hresync)

/-- A verifier in step stays in step, whether its counter is counted on or taken from the page. -/
theorem InStep.next (h : v.InStep e) (hw : generatedWord? v.family v.pattern e 0 = some w)
    (hpage : page[0]? = some w) (event : UInt64) :
    (v.check event page).2.advance.InStep (e + 1) :=
  inStep_next hw hpage fun _ => h.expected hw hpage

/-! ### The main statement -/

/-- **The check of a page** is exact. A fresh verifier finds nothing just if there is an event counter
for which all words that are checked are the generator's. A verifier with the counter `c` returns how
many of these hold: the header of a page of the older card shows another counter, a word behind the
header deviates. The first such word is recorded behind the header's mismatch; then the counter is taken
from the page if the verifier does so, and stays otherwise. -/
theorem check_exact (family : Family) {pattern : Pattern} (hpattern : pattern.verifiable = true)
    (event : UInt64) (page : Array Word) :
    (∀ resync limit, ∃ v, create family pattern resync limit = .ok v ∧
      ((v.check event page).1 = 0 ↔
        ∃ c, ∀ i < page.size, family.Checks i → page[i]? = generatedWord? family pattern c i)) ∧
    ∀ (resync : Bool) (c : Word) (log : ErrorLog),
      let v : Verifier := ⟨family, pattern, resync, some c, log⟩
      let header : List Mismatch := if family = .crorc ∧ 0 < page.size ∧ page[0]? ≠ some c then
        [⟨event, 0, c, c, page.getD 0 0⟩] else []
      (v.check event page).1 =
          (if family = .crorc ∧ 0 < page.size ∧ page[0]? ≠ some c then 1 else 0) +
            (if ∃ i, Deviates family pattern c page i then 1 else 0) ∧
        ((∀ i, ¬Deviates family pattern c page i) →
          (v.check event page).2 = ⟨family, pattern, resync, some c, log.recordAll header⟩) ∧
        ∀ i, IsLeast {j | Deviates family pattern c page j} i →
          ∃ e w, generatedWord? family pattern c i = some e ∧ page[i]? = some w ∧
            (v.check event page).2 = ⟨family, pattern, resync,
              some (if resync = true then leadingCounter family page else c),
              log.recordAll (header ++ [⟨event, i, c, e, w⟩])⟩ := by
  have hrandom := (Pattern.verifiable_iff pattern).1 hpattern
  refine ⟨fun resync limit => ⟨_, create_of_verifiable hpattern family resync limit, ?_⟩, ?_⟩
  · rw [check_fst, List.length_eq_zero_iff, mismatches_eq_nil_iff hrandom]
    refine ⟨fun h => ⟨_, h⟩, fun ⟨c, hc⟩ => ?_⟩
    by_cases hsize : 0 < page.size
    · have hfirst := hc 0 hsize family.checks_zero
      rw [Array.getElem?_eq_getElem hsize] at hfirst
      exact (sameWords_leadingCounter hfirst.symm (Array.getElem?_eq_getElem hsize)).matches hc
    · exact fun i hi => absurd (Nat.zero_lt_of_lt hi) hsize
  · intro resync c log v header
    have hheader : (headerMismatch? family event c page).toList = header := by
      rw [headerMismatch?_eq]
      split <;> rename_i h
      · exact (if_pos h).symm
      · exact (if_neg h).symm
    have hlength : header.length =
        if family = .crorc ∧ 0 < page.size ∧ page[0]? ≠ some c then 1 else 0 :=
      apply_ite List.length _ _ _
    refine ⟨?_, fun hnone => ?_, fun i hi => ?_⟩
    · rw [← hlength, ← hheader]
      cases hbody : bodyMismatch? family pattern event c page with
      | none =>
        have hnone := (bodyMismatch?_eq_none_iff hrandom).1 hbody
        rw [check_of_none (v := v) hbody, if_neg (not_exists.2 hnone)]
        rfl
      | some m =>
        have hsome : ∃ i, Deviates family pattern c page i := by
          by_contra hnone
          rw [(bodyMismatch?_eq_none_iff hrandom).2 (not_exists.1 hnone)] at hbody
          cases hbody
        rw [check_of_some (v := v) hbody, if_pos hsome]
        rfl
    · rw [check_of_none (v := v) ((bodyMismatch?_eq_none_iff hrandom).2 hnone), ← hheader]
      rfl
    · obtain ⟨e, w, he, hw, hbody⟩ := bodyMismatch?_of_isLeast hrandom event hi
      refine ⟨e, w, he, hw, ?_⟩
      rw [check_of_some (v := v) hbody, ← hheader]
      rfl

/-- A page of the older card with a wrong header, whose tenth word is not the generator's either. -/
def smallPage : Array Word :=
  #[8, 0, 0, 0, 0, 0, 0, 0, 7, 1, 9]

/-- Both mismatches are recorded, and the counter is taken from the header. -/
theorem check_exact_small :
    let v : Verifier := ⟨.crorc, .incremental, true, some 7, { limit := 5 }⟩
    (v.check 3 smallPage).1 = 2 ∧
      (v.check 3 smallPage).2 = ⟨.crorc, .incremental, true, some 8,
        ⟨5, #[⟨3, 0, 7, 7, 8⟩, ⟨3, 9, 7, 8, 1⟩], 2⟩⟩ := by
  have hfirst : IsLeast {j | Deviates .crorc .incremental 7 smallPage j} 9 := by
    refine ⟨by decide, fun j ⟨hle, hlt, hne⟩ => ?_⟩
    have hle : 8 ≤ j := hle
    by_contra hj
    obtain rfl : j = 8 := by omega
    exact hne (by decide)
  have hverifiable : Pattern.incremental.verifiable = true := by decide
  obtain ⟨-, hknown⟩ := check_exact .crorc hverifiable 3 smallPage
  obtain ⟨hreturned, -, hdeviates⟩ := hknown true 7 { limit := 5 }
  obtain ⟨e, w, he, hw, hnext⟩ := hdeviates 9 hfirst
  obtain rfl : 8 = e := Option.some.inj he
  obtain rfl : 1 = w := Option.some.inj hw
  exact ⟨hreturned.trans (by decide), hnext⟩

end Verifier

end DmaReadout
