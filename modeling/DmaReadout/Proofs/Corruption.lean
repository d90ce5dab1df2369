import DmaReadout.Proofs.Checking
import DmaReadout.Proofs.Consumers
import Mathlib.Order.Nat

/-! # Corrupted pages

A verifier checks the pages of a stream one after the other. As long as their first words are right, it
stays in step with them, whatever the other words are; so what it finds on a page depends on this page
alone, and not on whether it takes up counters from pages.

* `Consecutive`: a property of the pages of a stream and of their event counters.
* `Verifier.found`, `Verifier.returned`, `Verifier.afterAll`: what is found on the pages of a stream, what
  is returned for them, and the verifier behind them.
* `InStep.facts_found`, `InStep.afterAll`: a verifier in step, page by page and behind the last one.
* `Verifier.corruption_isolated`: the main statement. -/

namespace DmaReadout

/-! ### Streams of pages -/

/-- A property of the pages of a stream and of their event counters, which are counted on from `c` and
come round after the last one. -/
def Consecutive (P : Word → PageRead → Prop) (c : Word) (pages : List PageRead) : Prop :=
  ∀ (n : Nat) (pg : PageRead), pages[n]? = some pg → P (c + n.toUInt32) pg

theorem add_succ_toUInt32 (c : Word) (n : Nat) : c + (n + 1).toUInt32 = c + 1 + n.toUInt32 := by
  rw [show (n + 1).toUInt32 = n.toUInt32 + 1 from UInt32.ofNat_add n 1, UInt32.add_comm n.toUInt32,
    UInt32.add_assoc]

theorem add_zero_toUInt32 (c : Word) : c + (0 : Nat).toUInt32 = c :=
  UInt32.add_zero c

theorem consecutive_nil {P : Word → PageRead → Prop} {c : Word} : Consecutive P c [] :=
  nofun

theorem consecutive_cons {P : Word → PageRead → Prop} {c : Word} {pg : PageRead}
    {pages : List PageRead} :
    Consecutive P c (pg :: pages) ↔ P c pg ∧ Consecutive P (c + 1) pages := by
  constructor
  · intro h
    refine ⟨?_, fun n x hx => ?_⟩
    · have hfirst := h 0 pg rfl
      rwa [add_zero_toUInt32] at hfirst
    · have hrest := h (n + 1) x hx
      rwa [add_succ_toUInt32] at hrest
  · rintro ⟨hfirst, hrest⟩ n x hx
    cases n with
    | zero =>
      obtain rfl : pg = x := Option.some.inj hx
      rwa [add_zero_toUInt32]
    | succ n =>
      rw [add_succ_toUInt32]
      exact hrest n x hx

namespace Verifier

variable {v : Verifier} {c e : Word} {pg : PageRead} {pages : List PageRead}

/-- What is found on the pages of a stream, page by page. -/
def found (v : Verifier) : List PageRead → List (List Mismatch)
  | [] => []
  | pg :: pages => v.mismatches pg.event pg.words :: (v.after pg).found pages

/-- What is returned for the pages of a stream. -/
def returned (v : Verifier) : List PageRead → List Nat
  | [] => []
  | pg :: pages => (v.check pg.event pg.words).1 :: (v.after pg).returned pages

/-- The verifier behind the pages of a stream. -/
def afterAll (v : Verifier) (pages : List PageRead) : Verifier :=
  pages.foldl after v

@[simp] theorem afterAll_nil (v : Verifier) : v.afterAll [] = v := rfl

@[simp] theorem afterAll_cons (v : Verifier) (pg : PageRead) (pages : List PageRead) :
    v.afterAll (pg :: pages) = (v.after pg).afterAll pages := rfl

@[simp] theorem family_after (v : Verifier) (pg : PageRead) : (v.after pg).family = v.family := rfl

@[simp] theorem pattern_after (v : Verifier) (pg : PageRead) : (v.after pg).pattern = v.pattern := rfl

@[simp] theorem family_afterAll (v : Verifier) (pages : List PageRead) :
    (v.afterAll pages).family = v.family := by
  induction pages generalizing v with
  | nil => rfl
  | cons pg pages ih => exact ih (v.after pg)

@[simp] theorem pattern_afterAll (v : Verifier) (pages : List PageRead) :
    (v.afterAll pages).pattern = v.pattern := by
  induction pages generalizing v with
  | nil => rfl
  | cons pg pages ih => exact ih (v.after pg)

@[simp] theorem resync_afterAll (v : Verifier) (pages : List PageRead) :
    (v.afterAll pages).resync = v.resync := by
  induction pages generalizing v with
  | nil => rfl
  | cons pg pages ih => exact ih (v.after pg)

@[simp] theorem length_found (v : Verifier) (pages : List PageRead) :
    (v.found pages).length = pages.length := by
  induction pages generalizing v with
  | nil => rfl
  | cons pg pages ih => exact congrArg (· + 1) (ih (v.after pg))

theorem returned_eq (v : Verifier) (pages : List PageRead) :
    v.returned pages = (v.found pages).map List.length := by
  induction pages generalizing v with
  | nil => rfl
  | cons pg pages ih => rw [returned, found, List.map_cons, ih, check_fst]

theorem found_append (v : Verifier) (before rest : List PageRead) :
    v.found (before ++ rest) = v.found before ++ (v.afterAll before).found rest := by
  induction before generalizing v with
  | nil => rfl
  | cons pg before ih => exact congrArg (_ :: ·) (ih (v.after pg))

/-- The log behind a stream has recorded what was found on its pages. -/
theorem log_afterAll (v : Verifier) (pages : List PageRead) :
    (v.afterAll pages).log = v.log.recordAll (v.found pages).flatten := by
  induction pages generalizing v with
  | nil => rfl
  | cons pg pages ih =>
    have hlog : (v.after pg).log = v.log.recordAll (v.mismatches pg.event pg.words) := rfl
    rw [afterAll_cons, ih, hlog, found, List.flatten_cons, ErrorLog.recordAll, ErrorLog.recordAll,
      ErrorLog.recordAll, List.foldl_append]

theorem counter?_after (v : Verifier) (pg : PageRead) :
    (v.after pg).counter? = (v.check pg.event pg.words).2.counter?.map (· + 1) := rfl

/-- Behind a page there is a counter. -/
theorem counter?_afterAll (v : Verifier) (pg : PageRead) (pages : List PageRead) :
    ∃ k, (v.afterAll (pg :: pages)).counter? = some k := by
  induction pages generalizing v pg with
  | nil =>
    rw [afterAll_cons, afterAll_nil, counter?_after]
    exact ⟨_, rfl⟩
  | cons pg' pages ih =>
    rw [afterAll_cons]
    exact ih (v.after pg) pg'

/-! ### Pages whose first words are right -/

/-- The first word of a page is the generator's. -/
def StartsRight (family : Family) (pattern : Pattern) (e : Word) (pg : PageRead) : Prop :=
  pg.words[0]? = generatedWord? family pattern e 0

theorem InStep.after (h : v.InStep e) (hpattern : v.pattern ≠ .random)
    (hpg : StartsRight v.family v.pattern e pg) : (v.after pg).InStep (e + 1) := by
  obtain ⟨w, hw⟩ := generatedWord?_eq_some hpattern v.family e 0
  exact h.next hw (hpg.trans hw) pg.event

/-- A verifier in step with the first page is in step behind the last one. -/
theorem InStep.afterAll (h : v.InStep c) (hpattern : v.pattern ≠ .random)
    (hpages : Consecutive (StartsRight v.family v.pattern) c pages) :
    (v.afterAll pages).InStep (c + pages.length.toUInt32) := by
  induction pages generalizing v c with
  | nil => rwa [List.length_nil, add_zero_toUInt32]
  | cons pg pages ih =>
    obtain ⟨hpg, hrest⟩ := consecutive_cons.1 hpages
    rw [List.length_cons, add_succ_toUInt32]
    exact ih (h.after hpattern hpg) hpattern hrest

theorem facts_wordMismatch? {family : Family} {pattern : Pattern} {k : Word}
    (h : SameWords family pattern k e) (event : UInt64) (page : Array Word) (i : Nat) :
    (wordMismatch? family pattern event k page i).map Mismatch.facts =
      (wordMismatch? family pattern event e page i).map Mismatch.facts := by
  unfold wordMismatch?
  rw [h i]
  cases generatedWord? family pattern e i with
  | none => rfl
  | some expected =>
    by_cases hsame : page.getD i 0 = expected
    · simp only [hsame, if_true]
    · simp only [hsame, if_false]
      rfl

/-- The verifier's counter decides nothing about what is found, as long as it has the words of the
page's own; it is only named in the mismatch. -/
theorem facts_bodyMismatch? {family : Family} {pattern : Pattern} {k : Word}
    (h : SameWords family pattern k e) (event : UInt64) (page : Array Word) :
    (bodyMismatch? family pattern event k page).map Mismatch.facts =
      (bodyMismatch? family pattern event e page).map Mismatch.facts := by
  unfold bodyMismatch?
  rw [List.map_findSome?, List.map_findSome?]
  exact congrArg (List.findSome? · _) (funext (facts_wordMismatch? h event page))

theorem InStep.facts_mismatches (h : v.InStep e) (hpattern : v.pattern ≠ .random)
    (hpg : StartsRight v.family v.pattern e pg) :
    (v.mismatches pg.event pg.words).map Mismatch.facts =
      (bodyMismatch? v.family v.pattern pg.event e pg.words).toList.map Mismatch.facts := by
  obtain ⟨w, hw⟩ := generatedWord?_eq_some hpattern v.family e 0
  have hsame := h.expected hw (hpg.trans hw)
  have hheader : headerMismatch? v.family pg.event (v.expected pg.words) pg.words = none := by
    rw [headerMismatch?_eq, if_neg]
    rintro ⟨hfamily, -, hne⟩
    rw [hpg, ← hsame 0, hfamily, generatedWord?_crorc_zero] at hne
    exact hne rfl
  rw [mismatches, hheader, Option.toList_none, List.nil_append, ← Option.toList_map,
    ← Option.toList_map, facts_bodyMismatch? hsame]

/-- What is found on a page by a verifier in step depends on this page alone. -/
theorem InStep.facts_found (h : v.InStep c) (hpattern : v.pattern ≠ .random)
    (hpages : Consecutive (StartsRight v.family v.pattern) c pages) :
    (v.found pages).map (·.map Mismatch.facts) = pages.mapIdx fun n pg =>
      (bodyMismatch? v.family v.pattern pg.event (c + n.toUInt32) pg.words).toList.map
        Mismatch.facts := by
  induction pages generalizing v c with
  | nil => rfl
  | cons pg pages ih =>
    obtain ⟨hpg, hrest⟩ := consecutive_cons.1 hpages
    have htail := ih (h.after hpattern hpg) hpattern hrest
    rw [found, List.map_cons, List.mapIdx_cons, h.facts_mismatches hpattern hpg, htail,
      add_zero_toUInt32]
    simp only [add_succ_toUInt32, family_after, pattern_after]

/-! ### The main statement -/

/-- With the right first word, no deviation comes before the ninth word. -/
theorem eight_le_of_deviates {family : Family} {pattern : Pattern} {i : Nat}
    (hpg : StartsRight family pattern e pg) (h : Deviates family pattern e pg.words i) : 8 ≤ i := by
  obtain ⟨hchecks, -, hne⟩ := h
  cases family with
  | cru =>
    have hdvd : 8 ∣ i := hchecks
    have hpos : i ≠ 0 := by
      rintro rfl
      exact hne hpg
    exact Nat.le_of_dvd (Nat.pos_of_ne_zero hpos) hdvd
  | crorc => exact hchecks

/-- What is found on a page is its first change. -/
theorem firstChange_of_facts {family : Family} {pattern : Pattern} {ms : List Mismatch}
    (hpattern : pattern ≠ .random) (hpg : StartsRight family pattern e pg)
    (hms : ms.map Mismatch.facts =
      (bodyMismatch? family pattern pg.event e pg.words).toList.map Mismatch.facts) :
    ((∀ i, 8 ≤ i → ¬Deviates family pattern e pg.words i) → ms = []) ∧
      ∀ i, IsLeast {j | 8 ≤ j ∧ Deviates family pattern e pg.words j} i →
        ∃ m, ms = [m] ∧ m.event = pg.event ∧ m.index = i ∧
          generatedWord? family pattern e i = some m.expected ∧ pg.words[i]? = some m.actual := by
  refine ⟨fun hnone => ?_, fun i hi => ?_⟩
  · have hall : ∀ i, ¬Deviates family pattern e pg.words i :=
      fun i h => hnone i (eight_le_of_deviates hpg h) h
    rw [(bodyMismatch?_eq_none_iff hpattern).2 hall] at hms
    exact List.map_eq_nil_iff.1 hms
  · -- the first change from the ninth word on is the first deviation at all
    have hset : {j | 8 ≤ j ∧ Deviates family pattern e pg.words j} =
        {j | Deviates family pattern e pg.words j} :=
      Set.ext fun j => and_iff_right_of_imp (eight_le_of_deviates hpg)
    rw [hset] at hi
    obtain ⟨expected, actual, hexpected, hactual, hbody⟩ :=
      bodyMismatch?_of_isLeast hpattern pg.event hi
    rw [hbody] at hms
    obtain ⟨m, rfl, hm⟩ := List.map_eq_singleton_iff.1 hms
    simp only [Mismatch.facts, Prod.mk.injEq, Option.some.injEq] at hm
    obtain ⟨hevent, hindex, rfl, rfl⟩ := hm
    exact ⟨m, rfl, hevent, hindex, hexpected, hactual⟩

/-- **Corrupted pages.** In a stream whose first words are right, any other words may be changed. A fresh
verifier then finds one mismatch on each page on which a checked word from the ninth on is changed, the
first of these words against the one that the generator writes there, and none on the others; and it
finds the same if it takes up the counters of pages with mismatches. Behind the stream its counter is the
next one with the older card, and with the newer card's counting pattern one with the same lower 24
bits. -/
theorem corruption_isolated {family : Family} {pattern : Pattern}
    (hpattern : pattern.verifiable = true) (c : Word) {pages : List PageRead} (hne : pages ≠ [])
    (hfirst : ∀ (n : Nat) (pg : PageRead), pages[n]? = some pg →
      pg.words[0]? = generatedWord? family pattern (c + n.toUInt32) 0) (limit : Nat) :
    ∃ v w, create family pattern true limit = .ok v ∧ create family pattern false limit = .ok w ∧
      (v.found pages).map (·.map Mismatch.facts) = (w.found pages).map (·.map Mismatch.facts) ∧
      ∀ u ∈ [v, w],
        u.returned pages = (u.found pages).map List.length ∧
        (u.afterAll pages).log = ErrorLog.recordAll { limit } (u.found pages).flatten ∧
        (∀ (n : Nat) (pg : PageRead), pages[n]? = some pg →
          ∃ ms, (u.found pages)[n]? = some ms ∧
            ((∀ i, 8 ≤ i → ¬Deviates family pattern (c + n.toUInt32) pg.words i) → ms = []) ∧
            ∀ i, IsLeast {j | 8 ≤ j ∧ Deviates family pattern (c + n.toUInt32) pg.words j} i →
              ∃ m, ms = [m] ∧ m.event = pg.event ∧ m.index = i ∧
                generatedWord? family pattern (c + n.toUInt32) i = some m.expected ∧
                pg.words[i]? = some m.actual) ∧
        ∃ k, (u.afterAll pages).counter? = some k ∧
          (family = .crorc → k = c + pages.length.toUInt32) ∧
          (family = .cru → pattern = .incremental →
            k.toNat % 2 ^ 24 = (c + pages.length.toUInt32).toNat % 2 ^ 24) := by
  have hrandom := (Pattern.verifiable_iff pattern).1 hpattern
  have hpages : Consecutive (StartsRight family pattern) c pages := hfirst
  -- without a counter, a verifier is in step with any page
  have hstep : ∀ resync, InStep ⟨family, pattern, resync, none, { limit }⟩ c := fun _ => nofun
  have hfacts := fun resync => (hstep resync).facts_found hrandom hpages
  refine ⟨_, _, create_of_verifiable hpattern family true limit,
    create_of_verifiable hpattern family false limit, (hfacts true).trans (hfacts false).symm, ?_⟩
  intro u hu
  obtain ⟨resync, rfl⟩ : ∃ resync, u = ⟨family, pattern, resync, none, { limit }⟩ := by
    rcases List.mem_cons.1 hu with rfl | hu
    · exact ⟨true, rfl⟩
    · exact ⟨false, List.mem_singleton.1 hu⟩
  refine ⟨returned_eq _ _, log_afterAll _ _, fun n pg hpg => ?_, ?_⟩
  · have hn := congrArg (·[n]?) (hfacts resync)
    simp only [List.getElem?_map, List.getElem?_mapIdx, hpg, Option.map_some] at hn
    obtain ⟨ms, hfound, hms⟩ := Option.map_eq_some_iff.1 hn
    exact ⟨ms, hfound, firstChange_of_facts hrandom (hfirst n pg hpg) hms⟩
  · obtain ⟨pg, rest, rfl⟩ := List.exists_cons_of_ne_nil hne
    obtain ⟨k, hk⟩ := counter?_afterAll ⟨family, pattern, resync, none, { limit }⟩ pg rest
    have hsame := (hstep resync).afterAll hrandom hpages k hk
    rw [family_afterAll, pattern_afterAll] at hsame
    refine ⟨k, hk, ?_, ?_⟩
    · rintro rfl
      exact sameWords_crorc_iff.1 hsame
    · rintro rfl rfl
      exact mul_256_inj.1 (sameWords_cru_iff.1 hsame)

/-- Three pages at the end of the counters. On the second one the ninth word is changed, on the third one
a word that is not checked. -/
def smallStream : List PageRead :=
  let g : Generator :=
    { family := .cru, pattern := .incremental, pageSize := 64, counter := 0xFFFFFFFF }
  [⟨0, 0, g.pageOf 0⟩, ⟨1, 64, (g.pageOf 1).set! 8 7⟩, ⟨2, 128, (g.pageOf 2).set! 11 7⟩]

/-- Only the ninth word of the second page is found, where the generator writes one. -/
theorem corruption_isolated_small :
    ∃ v w, create .cru .incremental true 5 = .ok v ∧ create .cru .incremental false 5 = .ok w ∧
      ∀ u ∈ [v, w], (∃ m, (u.found smallStream)[1]? = some [m] ∧ m.event = 1 ∧ m.index = 8 ∧
          m.expected = 1 ∧ m.actual = 7) ∧
        (u.found smallStream)[2]? = some [] ∧
        ∃ k, (u.afterAll smallStream).counter? = some k ∧ k.toNat % 2 ^ 24 = 2 := by
  have hfirst : Consecutive (StartsRight .cru .incremental) 0xFFFFFFFF smallStream := by
    refine consecutive_cons.2 ⟨?_, consecutive_cons.2 ⟨?_, consecutive_cons.2 ⟨?_, consecutive_nil⟩⟩⟩
      <;> unfold StartsRight <;> decide +kernel
  have hverifiable : Pattern.incremental.verifiable = true := by decide
  obtain ⟨v, w, hv, hw, -, hall⟩ :=
    corruption_isolated hverifiable 0xFFFFFFFF (List.cons_ne_nil _ _) hfirst 5
  refine ⟨v, w, hv, hw, fun u hu => ?_⟩
  obtain ⟨-, -, hpages, k, hk, -, hcru⟩ := hall u hu
  obtain ⟨ms, hms, -, hsecond⟩ := hpages 1 _ rfl
  obtain ⟨m, rfl, hevent, hindex, hexpected, hactual⟩ :=
    hsecond 8 ⟨⟨Nat.le_refl 8, by decide +kernel⟩, fun j hj => hj.1⟩
  obtain ⟨ms', hms', hthird, -⟩ := hpages 2 _ rfl
  have hclean : ¬∃ i, Deviates .cru .incremental (0xFFFFFFFF + (2 : Nat).toUInt32)
      (({ family := .cru, pattern := .incremental, pageSize := 64, counter := 0xFFFFFFFF } :
        Generator).pageOf 2 |>.set! 11 7) i := by
    decide +kernel
  obtain rfl := hthird fun i _ hi => hclean ⟨i, hi⟩
  exact ⟨⟨m, hms, hevent, hindex, Option.some.inj (hexpected.symm.trans (by decide +kernel)),
    Option.some.inj (hactual.symm.trans (by decide +kernel))⟩, hms', k, hk,
    (hcru rfl rfl).trans (by decide +kernel)⟩

end Verifier

end DmaReadout
