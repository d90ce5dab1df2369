import DmaReadout.Proofs.Pages

/-! # Checking generated pages

A verifier need not know the event counter of a page, only one that gives the same words. On the newer
card a page shows the lower 24 bits of its counter, and with a fixed pattern it shows none at all; what
the verifier takes up from a page agrees with its counter all the same.

* `Generator.Agrees`: two event counters with the same words on the pages of a generator.
* `Generator.faults`: what is to be found on a page.
* `Verifier.Follows`: a verifier whose counter agrees with that of the next page; `Follows.mismatches`:
  it finds what is to be found there; `Follows.next`: it goes on to follow the generator. -/

namespace DmaReadout

namespace Generator

variable {g : Generator} {c e : Word}

/-- Two event counters with the same words on the pages of a generator. -/
def Agrees (g : Generator) (c e : Word) : Prop :=
  ∀ i, generatedWord? g.family g.pattern c i = generatedWord? g.family g.pattern e i

/-- A generator that has written nothing yet, on whose pages there are words to check. -/
structure Fresh (g : Generator) : Prop where
  counter_eq : g.counter = 0
  generated_eq : g.generated = 0
  pattern_ne : g.pattern ≠ .random
  words_pos : 0 < g.pageSize / 4

theorem agrees_iff : g.Agrees c e ↔ SameWords g.family g.pattern c e :=
  Iff.rfl

/-! ### What is to be found on a page -/

/-- Page `e` of the count is spoilt. -/
def Spoils (g : Generator) (e : Nat) : Prop :=
  ∃ k, g.faultInterval? = some k ∧ k ∣ e + 1

instance (g : Generator) (e : Nat) : Decidable (g.Spoils e) := by
  unfold Spoils
  infer_instance

/-- The inverted word of page `e`: the event, the index, what is expected and what is there. -/
def fault (g : Generator) (e : Nat) : UInt64 × Nat × Option Word × Option Word :=
  (e.toUInt64, stride, generatedWord? g.family g.pattern e.toUInt32 stride,
    (generatedWord? g.family g.pattern e.toUInt32 stride).map (~~~ ·))

/-- What is to be found on page `e`. -/
def faults (g : Generator) (e : Nat) : List (UInt64 × Nat × Option Word × Option Word) :=
  if stride < g.pageSize / 4 ∧ g.Spoils e then [g.fault e] else []

end Generator

/-- What a mismatch says about its page. Which counter its word was expected of is left out. -/
def Mismatch.facts (x : Mismatch) : UInt64 × Nat × Option Word × Option Word :=
  (x.event, x.index, some x.expected, some x.actual)

theorem findSome?_eq_of_only {α β : Type} [DecidableEq α] {f : α → Option β} {a : α} :
    ∀ {l : List α}, (∀ x ∈ l, x ≠ a → f x = none) → l.findSome? f = if a ∈ l then f a else none
  | [], _ => rfl
  | x :: l, h => by
    have ih := findSome?_eq_of_only (f := f) (a := a) (l := l)
      fun y hy => h y (List.mem_cons_of_mem _ hy)
    rw [List.findSome?_cons, ih]
    by_cases hx : x = a
    · subst hx
      rw [if_pos List.mem_cons_self]
      cases f x <;> simp
    · rw [h x List.mem_cons_self hx]
      simp [Ne.symm hx]

theorem stride_mem_bodyIndices {family : Family} {n : Nat} :
    stride ∈ bodyIndices family n ↔ stride < n :=
  mem_bodyIndices.trans (and_iff_right (by cases family <;> decide))

namespace Generator

variable {g : Generator} {c : Word} {e : Nat}

theorem size_pageOf (g : Generator) (e : Nat) : (g.pageOf e).size = g.pageSize / 4 :=
  Array.size_ofFn

/-- The first word of a page is never spoilt. -/
theorem Fresh.head_pageOf (hg : g.Fresh) (e : Nat) :
    ∃ w, generatedWord? g.family g.pattern e.toUInt32 0 = some w ∧ (g.pageOf e)[0]? = some w := by
  obtain ⟨w, hw, hpage⟩ :=
    getElem?_pageOf hg.counter_eq hg.generated_eq hg.pattern_ne e hg.words_pos
  exact ⟨w, hw, hpage⟩

theorem Fresh.headerMismatch? (hg : g.Fresh) (hc : g.Agrees c e.toUInt32) (event : UInt64) :
    headerMismatch? g.family event c (g.pageOf e) = none := by
  obtain ⟨w, hw, hpage⟩ := hg.head_pageOf e
  unfold DmaReadout.headerMismatch?
  cases hf : g.family with
  | cru => rfl
  | crorc =>
    rw [hf, generatedWord?_crorc_zero, Option.some.injEq] at hw
    rw [agrees_iff, hf, sameWords_crorc_iff] at hc
    simp [hpage, ← hw, hc]

/-- With a counter that agrees, only an inverted word is a mismatch. -/
theorem Fresh.wordMismatch? (hg : g.Fresh) (hc : g.Agrees c e.toUInt32) (event : UInt64) {i : Nat}
    (hi : i < g.pageSize / 4) :
    wordMismatch? g.family g.pattern event c (g.pageOf e) i =
      if i = stride ∧ g.Spoils e then
        (generatedWord? g.family g.pattern e.toUInt32 i).map fun w => ⟨event, i, c, w, ~~~w⟩
      else none := by
  obtain ⟨w, hw, hpage⟩ := getElem?_pageOf hg.counter_eq hg.generated_eq hg.pattern_ne e hi
  have hactual : (g.pageOf e).getD i 0 = if i = stride ∧ g.Spoils e then ~~~w else w := by
    rw [Array.getD_eq_getD_getElem?, hpage]
    rfl
  unfold DmaReadout.wordMismatch?
  rw [hc i, hw, hactual]
  by_cases hspoilt : i = stride ∧ g.Spoils e
  · have hne : ~~~w ≠ w := fun h => by
      have hnat := congrArg UInt32.toNat h
      rw [UInt32.toNat_not, UInt32.size] at hnat
      omega
    simp [hspoilt, hne]
  · simp [hspoilt]

theorem Fresh.bodyMismatch? (hg : g.Fresh) (hc : g.Agrees c e.toUInt32) (event : UInt64) :
    bodyMismatch? g.family g.pattern event c (g.pageOf e) =
      if stride < g.pageSize / 4 ∧ g.Spoils e then
        (generatedWord? g.family g.pattern e.toUInt32 stride).map fun w =>
          ⟨event, stride, c, w, ~~~w⟩
      else none := by
  have honly : ∀ i ∈ bodyIndices g.family (g.pageOf e).size, i ≠ stride →
      DmaReadout.wordMismatch? g.family g.pattern event c (g.pageOf e) i = none := by
    intro i hi hne
    rw [hg.wordMismatch? hc event (size_pageOf g e ▸ (mem_bodyIndices.1 hi).2), if_neg]
    exact fun h => hne h.1
  unfold DmaReadout.bodyMismatch?
  rw [findSome?_eq_of_only honly, size_pageOf, if_congr stride_mem_bodyIndices rfl rfl]
  by_cases hsize : stride < g.pageSize / 4
  · rw [if_pos hsize, hg.wordMismatch? hc event hsize]
    simp [hsize]
  · simp [hsize]

end Generator

/-! ### Verifiers -/

namespace Verifier

variable {g : Generator} {v : Verifier} {e : Nat}

/-- A verifier of the generator's words whose counter, if it has one, agrees with that of page `e`. -/
structure Follows (g : Generator) (e : Nat) (v : Verifier) : Prop where
  family_eq : v.family = g.family
  pattern_eq : v.pattern = g.pattern
  counter_agrees : ∀ c, v.counter? = some c → g.Agrees c e.toUInt32

theorem Follows.inStep (h : Follows g e v) : v.InStep e.toUInt32 := by
  unfold InStep
  rw [h.family_eq, h.pattern_eq]
  exact h.counter_agrees

theorem Follows.expected (h : Follows g e v) (hg : g.Fresh) :
    g.Agrees (v.expected (g.pageOf e)) e.toUInt32 := by
  obtain ⟨w, hw, hpage⟩ := hg.head_pageOf e
  have hexpected := h.inStep.expected (by rw [h.family_eq, h.pattern_eq, hw]) hpage
  rwa [h.family_eq, h.pattern_eq, ← Generator.agrees_iff] at hexpected

/-- **What is found on a page** is what the generator has spoilt there. -/
theorem Follows.mismatches (h : Follows g e v) (hg : g.Fresh) :
    (v.mismatches e.toUInt64 (g.pageOf e)).map Mismatch.facts = g.faults e := by
  have hc := h.expected hg
  obtain ⟨w, hw⟩ := generatedWord?_eq_some hg.pattern_ne g.family e.toUInt32 stride
  unfold Verifier.mismatches
  rw [h.family_eq, h.pattern_eq, hg.headerMismatch? hc, hg.bodyMismatch? hc, Generator.faults,
    Generator.fault, hw]
  split <;> rfl

/-- The counter for the next page agrees, whether it was counted on or taken from the page. -/
theorem Follows.next (h : Follows g e v) (hg : g.Fresh) (event : UInt64) :
    Follows g (e + 1) (v.check event (g.pageOf e)).2.advance where
  family_eq := h.family_eq
  pattern_eq := h.pattern_eq
  counter_agrees := by
    intro c hc
    obtain ⟨w, hw, hpage⟩ := hg.head_pageOf e
    have hnext := h.inStep.next (by rw [h.family_eq, h.pattern_eq, hw]) hpage event c hc
    rw [Generator.agrees_iff, ← h.family_eq, ← h.pattern_eq]
    rwa [← show (e + 1).toUInt32 = e.toUInt32 + 1 from UInt32.ofNat_add e 1] at hnext

theorem create_eq_ok {family : Family} {pattern : Pattern} {resync : Bool} {limit : Nat}
    (h : create family pattern resync limit = .ok v) :
    pattern.verifiable = true ∧ v = ⟨family, pattern, resync, none, { limit }⟩ := by
  unfold create at h
  split at h
  · rename_i hpattern
    cases h
    exact ⟨hpattern, rfl⟩
  · cases h

theorem follows_of_create {resync : Bool} {limit : Nat}
    (h : create g.family g.pattern resync limit = .ok v) :
    g.pattern ≠ .random ∧ Follows g 0 v ∧ v.log = { limit } := by
  obtain ⟨hpattern, rfl⟩ := create_eq_ok h
  exact ⟨(Pattern.verifiable_iff _).1 hpattern, ⟨rfl, rfl, nofun⟩, rfl⟩

end Verifier

end DmaReadout
