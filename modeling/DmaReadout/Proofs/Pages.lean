import DmaReadout.Proofs.Comparison
import DmaReadout.Proofs.Emulated

/-! # Pages in the memory

A channel writes the pages of the count one after the other, each to its place in the buffer. A page
stays there until the page one round later is written.

* `Memory.page_put`, `Memory.page_put_of_apart`: what a write does to the pages of a memory.
* `Generator.after`, `Generator.pageOf`: a generator after some pages, and the words of a page.
* `Layout.window`: the window of a page of the count; `window_apart`: when two of them do not touch.
* `Stored`: the pages of a range are in the memory; `Stored.fill`: overwriting a page leaves those after
  it.
* `Wrote`: a generator and the memory that holds the pages it wrote last; `Wrote.writeStretch`: writing
  superpages goes on with the range, as long as it is shorter than a round. -/

namespace DmaReadout

/-! ### Windows of a memory -/

namespace Memory

/-- A write all over a window is the page of that window. -/
theorem page_put (m : Memory) (first n : Nat) (f : Nat → Word) :
    (m.put first n f).page ⟨first, n⟩ = Array.ofFn fun k : Fin n => f k := by
  refine congrArg Array.ofFn (funext fun k => ?_)
  have hk : (k : Nat) < n := k.isLt
  show (m.put first n f).word (first + k) = f k
  rw [word_put, if_pos (by omega), Nat.add_sub_cancel_left]

/-- A write leaves the page of a window that it does not touch. -/
theorem page_put_of_apart (m : Memory) {first n : Nat} (f : Nat → Word) {v : View}
    (h : first + n ≤ v.first ∨ v.first + v.count ≤ first) :
    (m.put first n f).page v = m.page v := by
  refine congrArg Array.ofFn (funext fun k => ?_)
  have hk := k.isLt
  rw [word_put, if_neg (by omega)]

end Memory

namespace Layout

variable (l : Layout)

/-- The window of page `e` of the count. -/
def window (e : Nat) : View :=
  ⟨l.position e / 4, l.pageSize / 4⟩

/-- Every page of the count can be viewed in a memory that holds the layout. -/
theorem view_position (aligned : l.pageSize % 4 = 0) (addressable : l.bytes < 2 ^ 64) {m : Memory}
    (hm : l.bytes ≤ m.size) (e : Nat) :
    m.view (l.position e) l.pageSize = .ok (l.window e) := by
  have hle := l.position_add_le e
  refine Memory.view_eq_ok_iff.2 ⟨by omega, by omega, ?_, aligned, rfl⟩
  rw [position, Nat.mul_mod, aligned, Nat.mul_zero, Nat.zero_mod]

/-- The windows of pages less than one round apart do not touch. -/
theorem window_apart (aligned : l.pageSize % 4 = 0) {a e : Nat} (hae : a < e)
    (hea : e < a + l.pages) :
    (l.window e).first + (l.window e).count ≤ (l.window a).first ∨
      (l.window a).first + (l.window a).count ≤ (l.window e).first := by
  have hmod : ∀ k, l.position k % 4 = 0 := by
    intro k
    rw [position, Nat.mul_mod, aligned, Nat.mul_zero, Nat.zero_mod]
  have ha := hmod a
  have he := hmod e
  unfold window
  rcases l.position_disjoint hae hea with h | h <;> dsimp only <;> omega

end Layout

/-! ### The pages of a generator -/

namespace Generator

/-- The generator after `k` further pages. -/
def after (g : Generator) (k : Nat) : Generator :=
  { g with counter := g.counter + k.toUInt32, generated := g.generated + k }

/-- The words of the page that comes after `e` further pages. -/
def pageOf (g : Generator) (e : Nat) : Array Word :=
  Array.ofFn fun i : Fin (g.pageSize / 4) => (g.after e).nextWord i

theorem after_zero (g : Generator) : g.after 0 = g := by
  unfold after
  rw [show g.counter + (0 : Nat).toUInt32 = g.counter from UInt32.add_zero _, Nat.add_zero]

theorem advance_after (g : Generator) (k : Nat) : (g.after k).advance = g.after (k + 1) := by
  unfold after advance
  rw [show (k + 1).toUInt32 = k.toUInt32 + 1 from UInt32.ofNat_add k 1, ← UInt32.add_assoc]
  rfl

theorem spoilsNext_iff (g : Generator) :
    g.spoilsNext = true ↔ ∃ k, g.faultInterval? = some k ∧ k ∣ g.generated + 1 := by
  unfold spoilsNext
  cases g.faultInterval? with
  | none => simp
  | some k => simp [Nat.dvd_iff_mod_eq_zero]

/-- The pages of a fresh generator show their own numbers. In every `k`-th page the ninth word is
inverted, if `k` is the distance of spoilt pages. -/
theorem getElem?_pageOf {g : Generator} (hcounter : g.counter = 0) (hgenerated : g.generated = 0)
    (hpattern : g.pattern ≠ .random) (e : Nat) {i : Nat} (hi : i < g.pageSize / 4) :
    ∃ w, generatedWord? g.family g.pattern e.toUInt32 i = some w ∧
      (g.pageOf e)[i]? = some
        (if i = stride ∧ ∃ k, g.faultInterval? = some k ∧ k ∣ e + 1 then ~~~w else w) := by
  obtain ⟨w, hw⟩ := generatedWord?_eq_some hpattern g.family e.toUInt32 i
  refine ⟨w, hw, ?_⟩
  have hspoils : (g.after e).spoilsNext = true ↔ ∃ k, g.faultInterval? = some k ∧ k ∣ e + 1 := by
    rw [spoilsNext_iff, show (g.after e).generated = g.generated + e from rfl, hgenerated,
      Nat.zero_add]
    rfl
  have hcount : (g.after e).counter = e.toUInt32 := by
    show g.counter + e.toUInt32 = _
    rw [hcounter, UInt32.zero_add]
  rw [pageOf, Array.getElem?_ofFn, dif_pos hi]
  show some ((g.after e).nextWord i) = _
  have hword : (generatedWord? (g.after e).family (g.after e).pattern (g.after e).counter i).getD
      (arbitraryWord (g.after e).generated i) = w := by
    rw [hcount]
    exact congrArg (Option.getD · _) hw
  unfold nextWord
  simp only [hword, Bool.and_eq_true, decide_eq_true_eq, hspoils]

end Generator

/-- The pages from number `a` up to number `b` of the count are in the memory. -/
def Stored (l : Layout) (g : Generator) (m : Memory) (a b : Nat) : Prop :=
  ∀ e, a ≤ e → e < b → m.page (l.window e) = g.pageOf e

namespace Stored

variable {l : Layout} {g : Generator} {m : Memory} {a b : Nat}

theorem mono (h : Stored l g m a b) {a' : Nat} (ha : a ≤ a') : Stored l g m a' b :=
  fun e he hb => h e (le_trans ha he) hb

/-- A page that is overwritten leaves those less than one round behind it. -/
theorem fill (h : Stored l g m (a + 1) b) (aligned : l.pageSize % 4 = 0) (hb : b ≤ a + l.pages)
    (w : Word) : Stored l g (m.fill (l.window a) w) (a + 1) b := by
  intro e he hlt
  rw [Memory.fill, Memory.page_put_of_apart m _ (l.window_apart aligned he (by omega)).symm]
  exact h e he hlt

end Stored

/-- A generator that has written the pages up to number `b`, with a memory that holds those from number
`a` on. -/
structure Wrote (l : Layout) (g : Generator) (a b : Nat) (s : Generator × Memory) : Prop where
  generator_eq : s.1 = g.after b
  stored : Stored l g s.2 a b
  holds : l.bytes ≤ s.2.size

namespace Wrote

variable {l : Layout} {g : Generator} {a b : Nat} {s : Generator × Memory}

/-- The next page takes the place of the page one round before it. -/
theorem writePage (h : Wrote l g a b s) (aligned : l.pageSize % 4 = 0)
    (addressable : l.bytes < 2 ^ 64) (hg : g.pageSize = l.pageSize) (hb : b < a + l.pages) :
    Wrote l g a (b + 1) (s.1.writePage s.2 (l.position b)) := by
  obtain ⟨_, m⟩ := s
  obtain ⟨rfl, hstored, hm⟩ := h
  have hview : m.view (l.position b) (g.after b).pageSize = .ok (l.window b) := by
    rw [show (g.after b).pageSize = l.pageSize from hg]
    exact l.view_position aligned addressable hm b
  have hwrite : (g.after b).writePage m (l.position b) =
      (g.after (b + 1), m.put (l.window b).first (l.window b).count (g.after b).nextWord) := by
    unfold Generator.writePage
    rw [hview, ← g.advance_after b]
  rw [hwrite]
  refine ⟨rfl, fun e ha hlt => ?_, hm.trans_eq (Memory.size_put _ _ _ _).symm⟩
  rcases Nat.lt_succ_iff_lt_or_eq.1 hlt with he | rfl
  · rw [Memory.page_put_of_apart m _ (l.window_apart aligned he (by omega))]
    exact hstored e ha he
  · rw [show l.window e = ⟨(l.window e).first, (l.window e).count⟩ from rfl, Memory.page_put,
      Generator.pageOf, hg]
    rfl

/-- Pages of a superpage that are written in a row. -/
theorem writePages (aligned : l.pageSize % 4 = 0) (addressable : l.bytes < 2 ^ 64)
    (hg : g.pageSize = l.pageSize) (n : Nat) : ∀ (k : Nat) {i : Nat} {s : Generator × Memory},
    Wrote l g a (n * l.pagesPerSuperpage + i) s → i + k ≤ l.pagesPerSuperpage →
    n * l.pagesPerSuperpage + i + k ≤ a + l.pages →
    Wrote l g a (n * l.pagesPerSuperpage + (i + k))
      (s.1.writePages s.2 (l.nth n + i * l.pageSize) k)
  | 0, i, s, h, _, _ => h
  | k + 1, i, s, h, hik, hroom => by
    have hnext := h.writePage aligned addressable hg (by omega)
    rw [l.position_eq n (by omega)] at hnext
    have hrest := writePages aligned addressable hg n k (i := i + 1) hnext (by omega) (by omega)
    have hsize : s.1.pageSize = l.pageSize := by
      rw [h.generator_eq]
      exact hg
    rw [Nat.succ_mul, ← Nat.add_assoc (l.nth n), Nat.add_assoc i, Nat.add_comm 1] at hrest
    rw [Generator.writePages_succ, hsize]
    exact hrest

/-- Superpages that are written in a row, as many as a round has room for. -/
theorem writeStretch (aligned : l.pageSize % 4 = 0) (addressable : l.bytes < 2 ^ 64)
    (hg : g.pageSize = l.pageSize) : ∀ (k : Nat) {n : Nat} {s : Generator × Memory},
    Wrote l g a (n * l.pagesPerSuperpage) s →
    (n + k) * l.pagesPerSuperpage ≤ a + l.pages →
    Wrote l g a ((n + k) * l.pagesPerSuperpage) (Generator.writeStretch l n (n + k) s)
  | 0, n, s, h, _ => by
    rw [Nat.add_zero, Generator.writeStretch_of_le l le_rfl]
    exact h
  | k + 1, n, s, h, hroom => by
    have hle : n * l.pagesPerSuperpage + 0 + l.pagesPerSuperpage ≤ a + l.pages := by
      rw [Nat.add_zero, ← Nat.succ_mul]
      exact le_trans (Nat.mul_le_mul_right _ (by omega)) hroom
    have hone := writePages aligned addressable hg n l.pagesPerSuperpage (i := 0) h (by omega) hle
    rw [Nat.zero_mul, Nat.add_zero, Nat.zero_add, ← Nat.succ_mul] at hone
    rw [Generator.writeStretch_cons l (by omega), show n + (k + 1) = n + 1 + k by omega]
    exact writeStretch aligned addressable hg k hone (by rwa [show n + 1 + k = n + (k + 1) by omega])

end Wrote

end DmaReadout
