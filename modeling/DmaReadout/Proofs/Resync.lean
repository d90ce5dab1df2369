import DmaReadout.Proofs.Corruption

/-! # Taking up counters from pages

A verifier may take up the counter that a page shows when there is a mismatch behind its header. On the
newer card this brings it into step from any state. On the older card a wrong header alone leaves the
counter as it is, and a wrong header with a mismatch behind it is taken up; so one corrupted page may
throw the verifier out of step, and no intact page brings it back.

* `Intact`: a page as the generator writes it.
* `Verifier.inStep_after_cru`, `Verifier.resynchronised`: the newer card, behind one page and behind many.
* `Verifier.found_intact`: on the older card a verifier counts on through intact pages.
* `Verifier.keptCounter`: the counter that it keeps from a corrupted page; `keptCounter_eq`: when this is
  the right one.
* `Verifier.corrupted_page_confined`: what is found behind a corrupted page;
  `Verifier.corruption_spreads`: there may be mismatches on all intact pages. -/

namespace DmaReadout

/-- All words of a page are the generator's. -/
def Intact (family : Family) (pattern : Pattern) (e : Word) (pg : PageRead) : Prop :=
  ∀ i < pg.words.size, pg.words[i]? = generatedWord? family pattern e i

instance (family : Family) (pattern : Pattern) (e : Word) (pg : PageRead) :
    Decidable (Intact family pattern e pg) :=
  inferInstanceAs (Decidable (∀ i < pg.words.size, _))

variable {family : Family} {pattern : Pattern} {c e k : Word} {pg : PageRead} {pages : List PageRead}

theorem Intact.matches (h : Intact family pattern e pg) : Matches family pattern e pg.words :=
  fun i hi _ => h i hi

namespace Verifier

variable {v : Verifier}

/-! ### The newer card -/

/-- Behind a page whose first word is right, a verifier that takes up counters is in step, whatever its
counter was: a counter with other words is noticed at the first word. -/
theorem inStep_after_cru (hfamily : v.family = .cru) (hresync : v.resync = true)
    (hpattern : v.pattern ≠ .random) (hpg : StartsRight .cru v.pattern e pg) :
    (v.after pg).InStep (e + 1) := by
  obtain ⟨w, hw⟩ := generatedWord?_eq_some hpattern .cru e 0
  have hpage : pg.words[0]? = some w := hpg.trans hw
  refine inStep_next (by rw [hfamily, hw]) hpage fun hkept => ?_
  have hnone := hkept.resolve_right (by rw [hresync]; exact Bool.noConfusion)
  rw [hfamily] at hnone ⊢
  -- the first word is among those that are checked, and it decides about all others
  have hzero := (bodyMismatch?_eq_none_iff hpattern).1 hnone 0
  have hsize : 0 < pg.words.size := (Array.getElem?_eq_some_iff.1 hpage).1
  refine sameWords_cru_of_first ?_
  by_contra hne
  exact hzero ⟨Nat.dvd_zero 8, hsize, by rwa [hpg, ne_comm]⟩

theorem InStep.mismatches_eq_nil (h : v.InStep e) (hpattern : v.pattern ≠ .random)
    (hsize : 0 < pg.words.size) (hpg : Intact v.family v.pattern e pg) :
    v.mismatches pg.event pg.words = [] := by
  have hfirst := hpg 0 hsize
  rw [Array.getElem?_eq_getElem hsize] at hfirst
  have hsame := h.expected hfirst.symm (Array.getElem?_eq_getElem hsize)
  exact (mismatches_eq_nil_iff hpattern).2 (hsame.matches hpg.matches)

/-- A verifier in step finds nothing on intact pages. -/
theorem InStep.found_intact (h : v.InStep c) (hpattern : v.pattern ≠ .random)
    (hpages : Consecutive (fun e pg => 0 < pg.words.size ∧ Intact v.family v.pattern e pg) c pages) :
    v.found pages = List.replicate pages.length [] := by
  induction pages generalizing v c with
  | nil => rfl
  | cons pg pages ih =>
    obtain ⟨⟨hsize, hpg⟩, hrest⟩ := consecutive_cons.1 hpages
    have hnext := h.after hpattern (hpg 0 hsize)
    rw [found, h.mismatches_eq_nil hpattern hsize hpg, ih hnext hpattern hrest, List.length_cons,
      List.replicate_succ]

/-- **A verifier of the newer card** that takes up counters is brought into step by any page. From
whatever state it comes, of the generated pages that follow only the first can have a mismatch, and it
has no more than one. -/
theorem resynchronised {v : Verifier} (hfamily : v.family = .cru) (hresync : v.resync = true)
    (hpattern : v.pattern.verifiable = true) (c : Word) {pages : List PageRead}
    (hpages : ∀ (n : Nat) (pg : PageRead), pages[n]? = some pg → 0 < pg.words.size ∧
      ∀ i < pg.words.size, pg.words[i]? = generatedWord? .cru v.pattern (c + n.toUInt32) i) :
    (∀ found, (v.returned pages)[0]? = some found → found ≤ 1) ∧
      (∀ n, 0 < n → n < pages.length → (v.returned pages)[n]? = some 0) ∧
      (v.afterAll pages).log.total ≤ v.log.total + 1 := by
  have hrandom := (Pattern.verifiable_iff v.pattern).1 hpattern
  cases pages with
  | nil => exact ⟨nofun, nofun, Nat.le_succ _⟩
  | cons pg rest =>
    have hstream : Consecutive (fun e pg => 0 < pg.words.size ∧ Intact .cru v.pattern e pg) c
      (pg :: rest) := hpages
    obtain ⟨⟨hsize, hpg⟩, hrest⟩ := consecutive_cons.1 hstream
    have hnext := inStep_after_cru hfamily hresync hrandom (hpg 0 hsize)
    have hclean := hnext.found_intact hrandom (by rwa [family_after, pattern_after, hfamily])
    have hone : (v.mismatches pg.event pg.words).length ≤ 1 :=
      (v.length_mismatches_le _ _).trans_eq (by rw [hfamily]; rfl)
    refine ⟨?_, fun n hpos hn => ?_, ?_⟩
    · rintro _ ⟨⟩
      exact hone
    · -- what is found on the pages behind the first is found by a verifier in step
      obtain ⟨n, rfl⟩ := Nat.exists_eq_succ_of_ne_zero hpos.ne'
      rw [returned_eq, found, hclean, List.map_cons, List.getElem?_cons_succ, List.map_replicate,
        List.getElem?_replicate, if_pos (Nat.lt_of_succ_lt_succ hn)]
      rfl
    · rw [log_afterAll, ErrorLog.total_recordAll, found, hclean]
      simpa using hone

/-- A verifier that expects another counter, at the end of the counters: one mismatch, on the first
page. -/
theorem resynchronised_small :
    let v : Verifier := ⟨.cru, .incremental, true, some 77, { limit := 5 }⟩
    let g : Generator :=
      { family := .cru, pattern := .incremental, pageSize := 64, counter := 0xFFFFFFFE }
    let pages : List PageRead :=
      [⟨0, 0, g.pageOf 0⟩, ⟨1, 64, g.pageOf 1⟩, ⟨2, 128, g.pageOf 2⟩]
    (v.returned pages)[0]? = some 1 ∧ (v.returned pages)[1]? = some 0 ∧
      (v.returned pages)[2]? = some 0 ∧ (v.afterAll pages).log.total ≤ 1 := by
  intro v g pages
  have hpages : Consecutive (fun e pg => 0 < pg.words.size ∧ Intact .cru .incremental e pg) 0xFFFFFFFE
      pages := by
    refine consecutive_cons.2 ⟨?_, consecutive_cons.2 ⟨?_, consecutive_cons.2 ⟨?_, consecutive_nil⟩⟩⟩
      <;> decide +kernel
  obtain ⟨-, hrest, htotal⟩ := resynchronised (v := v) rfl rfl rfl 0xFFFFFFFE hpages
  exact ⟨by decide +kernel, hrest 1 (by decide) (by decide), hrest 2 (by decide) (by decide), htotal⟩

/-! ### The older card -/

theorem generatedWord?_crorc_of_pos (pattern : Pattern) (c e : Word) {i : Nat} (hi : i ≠ 0) :
    generatedWord? .crorc pattern c i = generatedWord? .crorc pattern e i := by
  simp [generatedWord?, hi]

/-- Behind the header of a page of the older card the counter does not matter. -/
theorem deviates_crorc_iff (c e : Word) {page : Array Word} {i : Nat} :
    Deviates .crorc pattern c page i ↔ Deviates .crorc pattern e page i := by
  refine and_congr_right fun hchecks => ?_
  have hle : 8 ≤ i := hchecks
  rw [generatedWord?_crorc_of_pos pattern c e (by omega)]

theorem bodyMismatch?_intact (hpattern : pattern ≠ .random) (hpg : Intact .crorc pattern e pg)
    (event : UInt64) (k : Word) : bodyMismatch? .crorc pattern event k pg.words = none := by
  refine (bodyMismatch?_eq_none_iff hpattern).2 fun i hi => ?_
  obtain ⟨-, hlt, hne⟩ := (deviates_crorc_iff k e).1 hi
  exact hne (hpg i hlt)

/-- What is found in the header of a page with the counter `e` if `k` is expected there. -/
def headerFound (pg : PageRead) (k e : Word) : List Mismatch :=
  if k = e ∨ pg.words.size = 0 then [] else [⟨pg.event, 0, k, k, e⟩]

theorem mismatches_intact (hfamily : v.family = .crorc) (hpattern : v.pattern ≠ .random)
    (hpg : Intact .crorc v.pattern e pg) :
    v.mismatches pg.event pg.words = headerFound pg (v.expected pg.words) e := by
  rw [mismatches, hfamily, bodyMismatch?_intact hpattern hpg, headerMismatch?_eq, headerFound,
    Option.toList_none, List.append_nil]
  by_cases hsize : 0 < pg.words.size
  · have hfirst := hpg 0 hsize
    rw [generatedWord?_crorc_zero] at hfirst
    have hget : pg.words.getD 0 0 = e := by
      rw [Array.getD_eq_getD_getElem?, hfirst]
      rfl
    rw [hfirst, hget]
    by_cases hk : v.expected pg.words = e
    · simp [hk]
    · simp [hk, Ne.symm hk, hsize, hsize.ne']
  · simp [Nat.eq_zero_of_not_pos hsize]

/-- An intact page is counted. -/
theorem counter?_after_intact (hfamily : v.family = .crorc) (hpattern : v.pattern ≠ .random)
    (hpg : Intact .crorc v.pattern e pg) :
    (v.after pg).counter? = some (v.expected pg.words + 1) := by
  have hbody : bodyMismatch? v.family v.pattern pg.event (v.expected pg.words) pg.words = none := by
    rw [hfamily, bodyMismatch?_intact hpattern hpg]
  rw [counter?_after, check_of_none hbody]
  rfl

/-- A verifier counts on through intact pages, in step or not: the induction carries its counter and the
pages' own apart. -/
theorem found_intact (hfamily : v.family = .crorc) (hpattern : v.pattern ≠ .random)
    (hk : v.counter? = some k) (hpages : Consecutive (Intact .crorc v.pattern) e pages) :
    v.found pages = (pages.mapIdx fun n pg => headerFound pg (k + n.toUInt32) (e + n.toUInt32)) ∧
      (v.afterAll pages).counter? = some (k + pages.length.toUInt32) := by
  induction pages generalizing v k e with
  | nil => exact ⟨rfl, by rw [afterAll_nil, hk, List.length_nil, add_zero_toUInt32]⟩
  | cons pg pages ih =>
    obtain ⟨hpg, hrest⟩ := consecutive_cons.1 hpages
    have hexpected : v.expected pg.words = k := by rw [expected, hk, Option.getD_some]
    have hnext := counter?_after_intact hfamily hpattern hpg
    rw [hexpected] at hnext
    obtain ⟨hfound, hcounter⟩ := ih (v := v.after pg) hfamily hpattern hnext hrest
    refine ⟨?_, ?_⟩
    · rw [found, mismatches_intact hfamily hpattern hpg, hexpected, hfound, List.mapIdx_cons,
        add_zero_toUInt32, add_zero_toUInt32]
      simp only [add_succ_toUInt32]
    · rw [afterAll_cons, hcounter, List.length_cons, add_succ_toUInt32]

/-- The counter that is expected behind intact pages, also of a verifier that takes it from the first. -/
theorem expected_afterAll (hfamily : v.family = .crorc) (hpattern : v.pattern ≠ .random)
    {before : List PageRead} (bad : PageRead) (hbefore : Consecutive (Intact .crorc v.pattern) c before) :
    (v.afterAll before).expected bad.words =
      v.expected (before.headD bad).words + before.length.toUInt32 := by
  cases before with
  | nil => exact (add_zero_toUInt32 _).symm
  | cons pg before =>
    obtain ⟨hpg, hrest⟩ := consecutive_cons.1 hbefore
    have hnext := counter?_after_intact hfamily hpattern hpg
    obtain ⟨-, hcounter⟩ := found_intact (v := v.after pg) hfamily hpattern hnext hrest
    rw [expected, afterAll_cons, hcounter, Option.getD_some, List.headD_cons, List.length_cons,
      add_succ_toUInt32]

/-- The counter that a verifier keeps from a corrupted page, the `p`-th one of a stream that begins with
the page `first`: the one in its header if a word behind the header deviates, and otherwise the one with
which it came there. -/
def keptCounter (v : Verifier) (first : PageRead) (p : Nat) (e : Word) (bad : PageRead) : Word :=
  if ∃ i, Deviates .crorc v.pattern e bad.words i then leadingCounter .crorc bad.words
  else v.expected first.words + p.toUInt32

theorem counter?_after_corrupted (hfamily : v.family = .crorc) (hresync : v.resync = true)
    (hpattern : v.pattern ≠ .random) {before : List PageRead}
    (hbefore : Consecutive (Intact .crorc v.pattern) c before) (e : Word) (bad : PageRead) :
    ((v.afterAll before).after bad).counter? =
      some (v.keptCounter (before.headD bad) before.length e bad + 1) := by
  have hexpected := expected_afterAll hfamily hpattern bad hbefore
  rw [counter?_after, keptCounter]
  cases hbody : bodyMismatch? (v.afterAll before).family (v.afterAll before).pattern bad.event
      ((v.afterAll before).expected bad.words) bad.words with
  | none =>
    rw [check_of_none hbody, hexpected]
    rw [family_afterAll, pattern_afterAll, hfamily, bodyMismatch?_eq_none_iff hpattern] at hbody
    rw [if_neg (not_exists.2 fun i hi => hbody i ((deviates_crorc_iff _ e).2 hi))]
    rfl
  | some m =>
    rw [check_of_some hbody, resync_afterAll, hresync, if_pos rfl, family_afterAll, hfamily]
    have hchanged : ∃ i, Deviates .crorc v.pattern e bad.words i := by
      by_contra hnone
      rw [family_afterAll, pattern_afterAll, hfamily, (bodyMismatch?_eq_none_iff hpattern).2
        fun i hi => hnone ⟨i, (deviates_crorc_iff _ e).1 hi⟩] at hbody
      cases hbody
    rw [if_pos hchanged]
    rfl

/-- What is found behind a corrupted page: the headers, if the counter that was kept is not the page's. -/
theorem found_behind_corrupted (hfamily : v.family = .crorc) (hresync : v.resync = true)
    (hpattern : v.pattern ≠ .random) {before rest : List PageRead} (bad : PageRead)
    (hbefore : Consecutive (Intact .crorc v.pattern) c before)
    (hrest : Consecutive (Intact .crorc v.pattern) (e + 1) rest) :
    v.found (before ++ bad :: rest) = v.found before ++
      (v.afterAll before).mismatches bad.event bad.words :: rest.mapIdx fun n pg =>
        headerFound pg (v.keptCounter (before.headD bad) before.length e bad + 1 + n.toUInt32)
          (e + 1 + n.toUInt32) := by
  have hkept := counter?_after_corrupted hfamily hresync hpattern hbefore e bad
  obtain ⟨hfound, -⟩ := found_intact (v := (v.afterAll before).after bad)
    (by rw [family_after, family_afterAll, hfamily])
    (by rwa [pattern_after, pattern_afterAll]) hkept
    (by rwa [pattern_after, pattern_afterAll])
  rw [found_append, found, hfound]

theorem add_behind_toUInt32 (c : Word) (p n : Nat) :
    c + (p + 1 + n).toUInt32 = c + p.toUInt32 + 1 + n.toUInt32 := by
  rw [show (p + 1 + n).toUInt32 = (p + 1).toUInt32 + n.toUInt32 from UInt32.ofNat_add (p + 1) n,
    show (p + 1).toUInt32 = p.toUInt32 + 1 from UInt32.ofNat_add p 1, UInt32.add_assoc c,
    ← UInt32.add_assoc c]

theorem getElem?_behind {α : Type} {before rest : List α} {x : α} {p : Nat} (h : before.length = p)
    (n : Nat) : (before ++ x :: rest)[p + 1 + n]? = rest[n]? := by
  rw [List.getElem?_append_right (by omega), show p + 1 + n - before.length = n + 1 by omega,
    List.getElem?_cons_succ]

/-- The pages before one page and those behind it, if all but this one have a property. -/
theorem consecutive_around {P : Word → PageRead → Prop} {p : Nat} {bad : PageRead}
    (hbad : pages[p]? = some bad)
    (h : ∀ (n : Nat) (pg : PageRead), n ≠ p → pages[n]? = some pg → P (c + n.toUInt32) pg) :
    ∃ before rest, pages = before ++ bad :: rest ∧ before.length = p ∧ Consecutive P c before ∧
      Consecutive P (c + p.toUInt32 + 1) rest := by
  obtain ⟨hp, rfl⟩ := List.getElem?_eq_some_iff.1 hbad
  refine ⟨pages.take p, pages.drop (p + 1), ?_, List.length_take_of_le hp.le, fun n pg hpg => ?_,
    fun n pg hpg => ?_⟩
  · rw [List.getElem_cons_drop, List.take_append_drop]
  · rw [List.getElem?_take, Option.ite_none_right_eq_some] at hpg
    exact h n pg hpg.1.ne hpg.2
  · rw [List.getElem?_drop] at hpg
    rw [← add_behind_toUInt32]
    exact h _ pg (by omega) hpg

/-- A page behind a corrupted one has no mismatch if the counter that was kept is right, and one in its
header if not: the distance of the counters stays the same. -/
theorem getElem?_found_behind (hfamily : v.family = .crorc) (hresync : v.resync = true)
    (hpattern : v.pattern ≠ .random) {p : Nat} {bad : PageRead} (hbad : pages[p]? = some bad)
    (hpages : ∀ (n : Nat) (pg : PageRead), n ≠ p → pages[n]? = some pg →
      Intact .crorc v.pattern (c + n.toUInt32) pg) {n : Nat} (hn : p < n) (hpg : pages[n]? = some pg) :
    ∃ k, (k = c + n.toUInt32 ↔
        v.keptCounter (pages.headD bad) p (c + p.toUInt32) bad = c + p.toUInt32) ∧
      (v.found pages)[n]? = some (headerFound pg k (c + n.toUInt32)) := by
  obtain ⟨before, rest, rfl, rfl, hbefore, hrest⟩ := consecutive_around hbad hpages
  have hhead : (before ++ bad :: rest).headD bad = before.headD bad := by cases before <;> rfl
  obtain ⟨m, rfl⟩ : ∃ m, n = before.length + 1 + m := Nat.exists_eq_add_of_le hn
  rw [getElem?_behind rfl] at hpg
  rw [hhead, add_behind_toUInt32]
  refine ⟨v.keptCounter (before.headD bad) before.length (c + before.length.toUInt32) bad + 1 +
    m.toUInt32, ?_, ?_⟩
  · rw [UInt32.add_left_inj, UInt32.add_left_inj]
  · rw [found_behind_corrupted hfamily hresync hpattern bad hbefore hrest,
      getElem?_behind (length_found v before), List.getElem?_mapIdx, hpg, Option.map_some]

/-- A verifier that was in step keeps the right counter from a page with the right header, and from one
with the right words behind it, unless it has to take its first counter there. -/
theorem keptCounter_eq (hfamily : v.family = .crorc) (hstep : v.counter? = none ∨ v.counter? = some c)
    {first bad : PageRead} {p : Nat} (hfirst : first.words[0]? = some c ∨ first = bad ∧ p = 0)
    (hsafe : bad.words[0]? = some (c + p.toUInt32) ∨ (0 < p ∨ v.counter? = some c) ∧
      ∀ i, ¬Deviates .crorc v.pattern (c + p.toUInt32) bad.words i) :
    v.keptCounter first p (c + p.toUInt32) bad = c + p.toUInt32 := by
  unfold keptCounter
  by_cases hchanged : ∃ i, Deviates .crorc v.pattern (c + p.toUInt32) bad.words i
  · have hheader := hsafe.resolve_right fun h => hchanged.elim h.2
    rw [if_pos hchanged, leadingCounter, hheader]
  · rw [if_neg hchanged, UInt32.add_left_inj, expected]
    rcases hstep with hfresh | hc
    · -- its counter is that of the first page, which may be the corrupted one
      have hfirst : first.words[0]? = some c := by
        refine hfirst.elim id ?_
        rintro ⟨rfl, rfl⟩
        have hheader := hsafe.resolve_right fun h => h.1.elim (Nat.lt_irrefl 0) (by simp [hfresh])
        rwa [add_zero_toUInt32] at hheader
      rw [hfresh, Option.getD_none, hfamily, leadingCounter, hfirst]
    · rw [hc, Option.getD_some]

/-- **One corrupted page** on the older card, with a verifier that takes up counters. If the counter that
it keeps from the page is the page's own, no page behind it has a mismatch; if not, all of them have one,
in their headers. A verifier that was in step keeps the right counter if the header is right, and, unless
it had to take its first counter from this page, also if nothing deviates behind it. -/
theorem corrupted_page_confined {v : Verifier} (hfamily : v.family = .crorc)
    (hresync : v.resync = true) (hpattern : v.pattern.verifiable = true) (c : Word)
    {pages : List PageRead} {p : Nat} {bad : PageRead} (hbad : pages[p]? = some bad)
    (hpages : ∀ (n : Nat) (pg : PageRead), n ≠ p → pages[n]? = some pg →
      ∀ i < pg.words.size, pg.words[i]? = generatedWord? .crorc v.pattern (c + n.toUInt32) i) :
    let kept : Word := v.keptCounter (pages.headD bad) p (c + p.toUInt32) bad
    (kept = c + p.toUInt32 → ∀ n, p < n → n < pages.length → (v.returned pages)[n]? = some 0) ∧
      (kept ≠ c + p.toUInt32 → ∀ (n : Nat) (pg : PageRead), p < n → pages[n]? = some pg →
        0 < pg.words.size → (v.returned pages)[n]? = some 1 ∧
          ∃ k, k ≠ c + n.toUInt32 ∧
            (v.found pages)[n]? = some [⟨pg.event, 0, k, k, c + n.toUInt32⟩]) ∧
      (v.counter? = none ∨ v.counter? = some c → 0 < (pages.headD bad).words.size →
        bad.words[0]? = some (c + p.toUInt32) ∨
          (0 < p ∨ v.counter? = some c) ∧
            (∀ i, ¬Deviates .crorc v.pattern (c + p.toUInt32) bad.words i) →
        kept = c + p.toUInt32) := by
  intro kept
  have hrandom := (Pattern.verifiable_iff v.pattern).1 hpattern
  refine ⟨fun hkept n hlt hn => ?_, fun hkept n pg hlt hpg hsize => ?_, fun hstep hsize hsafe => ?_⟩
  · obtain ⟨k, hk, hfound⟩ := getElem?_found_behind hfamily hresync hrandom hbad hpages hlt
      (List.getElem?_eq_getElem hn)
    rw [returned_eq, List.getElem?_map, hfound, hk.2 hkept, headerFound, if_pos (Or.inl rfl)]
    rfl
  · obtain ⟨k, hk, hfound⟩ := getElem?_found_behind hfamily hresync hrandom hbad hpages hlt hpg
    have hne : k ≠ c + n.toUInt32 := hk.not.2 hkept
    rw [headerFound, if_neg (not_or.2 ⟨hne, hsize.ne'⟩)] at hfound
    refine ⟨?_, k, hne, hfound⟩
    rw [returned_eq, List.getElem?_map, hfound]
    rfl
  · refine keptCounter_eq hfamily hstep ?_ hsafe
    rw [List.headD_eq_head?_getD, List.head?_eq_getElem?] at hsize ⊢
    rcases Nat.eq_zero_or_pos p with rfl | hpos
    · exact Or.inr ⟨by rw [hbad, Option.getD_some], rfl⟩
    · have hlength := (List.getElem?_eq_some_iff.1 hbad).1
      have hfirst : pages[0]? = some pages[0] := List.getElem?_eq_getElem (hpos.trans hlength)
      rw [hfirst, Option.getD_some] at hsize ⊢
      have hword := hpages 0 pages[0] hpos.ne hfirst 0 hsize
      rw [generatedWord?_crorc_zero, add_zero_toUInt32] at hword
      exact Or.inl hword

/-- A verifier of the older card that takes up counters, before its first page. -/
def smallFresh : Verifier :=
  ⟨.crorc, .incremental, true, none, { limit := 5 }⟩

/-- A page of the older card with nine words, the `n`-th one counted on from five. -/
def smallGenuine (n : Nat) : PageRead :=
  let g : Generator :=
    { family := .crorc, pattern := .incremental, pageSize := 36, counter := 5 }
  ⟨n.toUInt64, 36 * n, g.pageOf n⟩

/-- Four pages, the second of them any. -/
def smallPages (bad : PageRead) : List PageRead :=
  [smallGenuine 0, bad, smallGenuine 2, smallGenuine 3]

theorem intact_smallPages (bad : PageRead) (n : Nat) (pg : PageRead) (hn : n ≠ 1)
    (hpg : (smallPages bad)[n]? = some pg) : Intact .crorc .incremental (5 + n.toUInt32) pg := by
  match n with
  | 0 | 2 | 3 =>
    obtain rfl := Option.some.inj hpg
    decide +kernel
  | 1 => exact absurd rfl hn
  | n + 4 => exact nomatch hpg

/-- The second page with a changed word behind its header. -/
def smallChanged : PageRead :=
  { smallGenuine 1 with words := (smallGenuine 1).words.set! 8 1 }

/-- The change behind the header is found, and nothing more. -/
theorem corrupted_page_confined_small :
    (smallFresh.returned (smallPages smallChanged))[1]? = some 1 ∧
      ∀ n, 1 < n → n < 4 → (smallFresh.returned (smallPages smallChanged))[n]? = some 0 := by
  obtain ⟨hconfined, -, hkept⟩ := corrupted_page_confined (v := smallFresh) rfl rfl rfl 5 (p := 1) rfl
    (intact_smallPages smallChanged)
  refine ⟨by decide +kernel, hconfined (hkept (Or.inl rfl) (by decide +kernel) (Or.inl ?_))⟩
  decide +kernel

/-- The second page with a wrong counter in its header and a changed word behind it. -/
def smallCorrupted : PageRead :=
  { smallChanged with words := smallChanged.words.set! 0 40 }

/-- One corrupted page may spread to all intact pages behind it: the verifier counts on from the wrong
counter in its header, and an intact page does not bring it back. -/
theorem corruption_spreads :
    ¬∀ (v : Verifier) (c : Word) (pages : List PageRead) (p : Nat) (bad : PageRead),
      v.family = .crorc → v.resync = true → v.pattern.verifiable = true → pages[p]? = some bad →
      (∀ (n : Nat) (pg : PageRead), n ≠ p → pages[n]? = some pg →
        ∀ i < pg.words.size, pg.words[i]? = generatedWord? .crorc v.pattern (c + n.toUInt32) i) →
      ∀ n, p + 1 < n → n < pages.length → (v.returned pages)[n]? = some 0 := by
  intro hclaim
  have hclean := hclaim smallFresh 5 (smallPages smallCorrupted) 1 smallCorrupted rfl rfl rfl rfl
    (intact_smallPages smallCorrupted) 3 (by decide) (by decide)
  have hreturned : (smallFresh.returned (smallPages smallCorrupted))[3]? = some 1 := by
    decide +kernel
  rw [hreturned] at hclean
  exact absurd hclean (by decide)

end Verifier

end DmaReadout
