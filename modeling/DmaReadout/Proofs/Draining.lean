import DmaReadout.Proofs.Consumers
import DmaReadout.Proofs.PageLimit
import DmaReadout.Proofs.Rounds

/-! # Superpages that wait to be read

The reader by itself reads what is on the ready queue, superpage by superpage and page by page, until the
queue is empty or the limit is reached.

* `Layout.queuePosition`, `Plan.due`: where the pages of a queue begin, and how many of them are read.
* `Pipeline.pageOfQueue`: a page as it is read: not overwritten itself, but possibly as a page that was
  read before and began at the same place; `Pipeline.wordAfter`: the memory behind some pages.
* `Loaded`, `CopyFits`: where the reader starts from.
* `Drains`: where it stands after any number of steps; `Drains.read_step`: what one step keeps.
* `Machine.Reads`: from one machine to another by such steps; `Reads.round`: a round takes one superpage;
  `Reads.rounds`: enough rounds lead to the end.
* `Machine.readAll_exact`: the main result. -/

namespace DmaReadout

/-! ### The pages of a queue -/

/-- Where page `i` begins if the superpages of a queue are read one after the other. -/
def Layout.queuePosition (l : Layout) (queue : List Nat) (i : Nat) : Nat :=
  queue.getD (i / l.pagesPerSuperpage) 0 + i % l.pagesPerSuperpage * l.pageSize

/-- Word `j` of the buffer belongs to the page at a position. -/
def Layout.InPage (l : Layout) (position j : Nat) : Prop :=
  position ≤ 4 * j ∧ 4 * j < position + l.pageSize

instance (l : Layout) (position j : Nat) : Decidable (l.InPage position j) :=
  inferInstanceAs (Decidable (_ ∧ _))

/-- The number of pages that are read from `k` superpages if `read` pages were counted before. -/
def Plan.due (plan : Plan) (read : UInt64) (k : Nat) : Nat :=
  match plan.limit? with
  | none => k * plan.layout.pagesPerSuperpage
  | some limit => min (k * plan.layout.pagesPerSuperpage) (limit.toNat - read.toNat)

/-- A copy with a page written to it. -/
def Dump.after (d : Dump) (pg : PageRead) : Dump :=
  (d.writePage pg.event pg.words).2

namespace Pipeline

variable {σ : Type}

/-- Word `j` of the memory once `i` pages of the ready queue were read. -/
def wordAfter (plan : Plan) (p : Pipeline σ) (i j : Nat) : Word :=
  if plan.pageReset ∧ ∃ k < i, plan.layout.InPage (plan.layout.queuePosition p.ready.toList k) j then
    resetWord
  else p.memory.word j

/-- Page `i` of the ready queue as it is read. -/
def pageOfQueue (plan : Plan) (p : Pipeline σ) (i : Nat) : PageRead where
  event := p.stats.read + i.toUInt64
  position := plan.layout.queuePosition p.ready.toList i
  words := Array.ofFn fun k : Fin (plan.layout.pageSize / 4) =>
    p.wordAfter plan i (plan.layout.queuePosition p.ready.toList i / 4 + k)

/-- The first `n` pages of the ready queue as they are read. -/
def pagesOfQueue (plan : Plan) (p : Pipeline σ) (n : Nat) : List PageRead :=
  (List.range n).map (p.pageOfQueue plan)

/-- Superpages of the buffer wait to be read, and there is room for them on the free queue. -/
structure Loaded (plan : Plan) (p : Pipeline σ) : Prop where
  aligned : plan.layout.pageSize % 4 = 0
  addressable : plan.layout.bytes < 2 ^ 64
  holds : plan.layout.bytes ≤ p.memory.size
  ready_mem : ∀ o ∈ p.ready.toList, o ∈ plan.layout.offsets
  room : p.free.toList.length + p.ready.toList.length ≤ p.free.capacity

/-- The copy, if there is one, takes all pages that are to be read. -/
def CopyFits (plan : Plan) (p : Pipeline σ) : Prop :=
  ∀ d, p.dump? = some d → ∀ i < plan.due p.stats.read p.ready.toList.length,
    (((p.pagesOfQueue plan i).foldl Dump.after d).writePage (p.pageOfQueue plan i).event
      (p.pageOfQueue plan i).words).1 = .ok ()

/-- A copy without a limit takes all pages. -/
theorem copyFits_of_unlimited (plan : Plan) {p : Pipeline σ} (h : Unlimited p.dump?) :
    p.CopyFits plan := by
  have hall : ∀ (pages : List PageRead) (d : Dump), Unlimited (some d) →
      Unlimited (some (pages.foldl Dump.after d)) := by
    intro pages
    induction pages with
    | nil => exact fun _ hd => hd
    | cons pg pages ih => exact fun d hd => ih _ (copied_of_unlimited hd pg.event pg.words).2
  intro d hd i _
  exact (copied_of_unlimited (hall _ d (hd ▸ h)) _ _).1

theorem pagesOfQueue_succ (plan : Plan) (p : Pipeline σ) (n : Nat) :
    p.pagesOfQueue plan (n + 1) = p.pagesOfQueue plan n ++ [p.pageOfQueue plan n] := by
  rw [pagesOfQueue, List.range_succ, List.map_append]
  rfl

/-- What one more page changes in the memory. -/
theorem wordAfter_succ (plan : Plan) (p : Pipeline σ) (i j : Nat) :
    p.wordAfter plan (i + 1) j =
      if plan.pageReset ∧ plan.layout.InPage (plan.layout.queuePosition p.ready.toList i) j then
        resetWord
      else p.wordAfter plan i j := by
  unfold wordAfter
  by_cases hi : plan.pageReset ∧ plan.layout.InPage (plan.layout.queuePosition p.ready.toList i) j
  · rw [if_pos hi, if_pos ⟨hi.1, i, Nat.lt_succ_self i, hi.2⟩]
  · rw [if_neg hi]
    refine if_congr ⟨?_, ?_⟩ rfl rfl
    · rintro ⟨hreset, k, hk, hin⟩
      rcases Nat.lt_succ_iff_lt_or_eq.1 hk with hlt | rfl
      · exact ⟨hreset, k, hlt, hin⟩
      · exact absurd ⟨hreset, hin⟩ hi
    · rintro ⟨hreset, k, hk, hin⟩
      exact ⟨hreset, k, Nat.lt_succ_of_lt hk, hin⟩

end Pipeline

/-- The pages of a superpage of the queue follow one another. -/
theorem Layout.queuePosition_eq (l : Layout) {queue : List Nat} {k offset page : Nat}
    (hk : queue[k]? = some offset) (hpage : page < l.pagesPerSuperpage) :
    l.queuePosition queue (k * l.pagesPerSuperpage + page) = offset + page * l.pageSize := by
  obtain ⟨hdiv, hmod⟩ := l.div_mod_page k hpage
  rw [queuePosition, hdiv, hmod, List.getD_eq_getElem?_getD, hk]
  rfl

/-- The pages of a superpage of the buffer can be viewed. -/
theorem Pipeline.Loaded.view {σ : Type} {plan : Plan} {p : Pipeline σ} (h : p.Loaded plan)
    {offset page : Nat} (hoff : offset ∈ p.ready.toList) (hpage : page < plan.layout.pagesPerSuperpage)
    {m : Memory} (hm : m.size = p.memory.size) :
    m.view (offset + page * plan.layout.pageSize) plan.layout.pageSize =
      .ok ⟨(offset + page * plan.layout.pageSize) / 4, plan.layout.pageSize / 4⟩ := by
  obtain ⟨a, ha, rfl⟩ := List.mem_map.1 (h.ready_mem offset hoff)
  have hplace : plan.layout.offset a + page * plan.layout.pageSize =
      plan.layout.position (a * plan.layout.pagesPerSuperpage + page) := by
    rw [plan.layout.position_eq a hpage, Layout.nth, Nat.mod_eq_of_lt (List.mem_range.1 ha)]
  rw [hplace]
  exact plan.layout.view_position h.aligned h.addressable (hm ▸ h.holds) _

/-- The pages of a queue lie on a grid of pages. -/
theorem Pipeline.Loaded.place {σ : Type} {plan : Plan} {p : Pipeline σ} (h : p.Loaded plan) {i : Nat}
    (hi : i < p.ready.toList.length * plan.layout.pagesPerSuperpage) :
    ∃ a, p.ready.toList[i / plan.layout.pagesPerSuperpage]? = some (plan.layout.offset a) ∧
      plan.layout.queuePosition p.ready.toList i =
        (a * plan.layout.pagesPerSuperpage + i % plan.layout.pagesPerSuperpage) *
          plan.layout.pageSize := by
  have hlt : i / plan.layout.pagesPerSuperpage < p.ready.toList.length :=
    (Nat.div_lt_iff_lt_mul plan.layout.pagesPerSuperpage_pos).2 hi
  have hget := List.getElem?_eq_getElem hlt
  obtain ⟨a, -, ha⟩ := List.mem_map.1 (h.ready_mem _ (List.getElem_mem hlt))
  rw [← ha] at hget
  refine ⟨a, hget, ?_⟩
  rw [Layout.queuePosition, List.getD_eq_getElem?_getD, hget, Option.getD_some, Layout.offset,
    ← plan.layout.pagesPerSuperpage_mul, Nat.add_mul, Nat.mul_assoc]

/-- Every superpage is read as it was at first, if none is on the queue twice. -/
theorem Pipeline.Loaded.words_of_nodup {σ : Type} {plan : Plan} {p : Pipeline σ} (h : p.Loaded plan)
    (hnodup : p.ready.toList.Nodup) {i : Nat}
    (hi : i < p.ready.toList.length * plan.layout.pagesPerSuperpage) :
    (p.pageOfQueue plan i).words =
      p.memory.page ⟨plan.layout.queuePosition p.ready.toList i / 4, plan.layout.pageSize / 4⟩ := by
  refine congrArg Array.ofFn (funext fun w => if_neg ?_)
  rintro ⟨-, k, hk, hfrom, hto⟩
  have haligned := h.aligned
  have hw : 4 * (w : Nat) < plan.layout.pageSize := by
    have := w.isLt
    omega
  obtain ⟨a, ha, hplace⟩ := h.place hi
  obtain ⟨b, hb, hplace'⟩ := h.place (hk.trans hi)
  have hwhole : plan.layout.queuePosition p.ready.toList i % 4 = 0 := by
    rw [hplace, Nat.mul_mod, haligned, Nat.mul_zero, Nat.zero_mod]
  -- the two pages overlap, so they are the same page of the grid
  have hgrid : b * plan.layout.pagesPerSuperpage + k % plan.layout.pagesPerSuperpage =
      a * plan.layout.pagesPerSuperpage + i % plan.layout.pagesPerSuperpage := by
    refine Nat.le_antisymm (Nat.le_of_lt_succ (Nat.lt_of_mul_lt_mul_right (a := plan.layout.pageSize) ?_))
      (Nat.le_of_lt_succ (Nat.lt_of_mul_lt_mul_right (a := plan.layout.pageSize) ?_))
    · rw [Nat.succ_mul]
      omega
    · rw [Nat.succ_mul]
      omega
  have hmod := fun e => Nat.mod_lt e plan.layout.pagesPerSuperpage_pos
  obtain ⟨hdiv, hrem⟩ := plan.layout.div_mod_page b (hmod k)
  obtain ⟨hdiv', hrem'⟩ := plan.layout.div_mod_page a (hmod i)
  rw [hgrid] at hdiv hrem
  have hsuperpage : b = a := hdiv.symm.trans hdiv'
  have hpage : k % plan.layout.pagesPerSuperpage = i % plan.layout.pagesPerSuperpage :=
    hrem.symm.trans hrem'
  have hindex : k / plan.layout.pagesPerSuperpage = i / plan.layout.pagesPerSuperpage :=
    (List.getElem?_inj (List.getElem?_eq_some_iff.1 hb).1 hnodup).1 (by rw [hb, ha, hsuperpage])
  have hsame : k = i := by
    rw [← Nat.div_add_mod k plan.layout.pagesPerSuperpage, hindex, hpage, Nat.div_add_mod]
  exact absurd hk (by omega)

/-- A count that has not passed the limit has come up to it when nothing is left. -/
theorem limitReached_add_iff {limit start : UInt64} {c : Nat} (hc : c ≤ limit.toNat - start.toNat) :
    limitReached (some limit) (start + c.toUInt64) = true ↔ limit.toNat - start.toNat ≤ c := by
  have hlimit := limit.toNat_lt
  have hstart := start.toNat_lt
  have hsum : (start + c.toUInt64).toNat = start.toNat + c := by
    have hlt : c < 2 ^ 64 := by omega
    have hcount : c.toUInt64.toNat = c := UInt64.toNat_ofNat_of_lt' hlt
    rw [UInt64.toNat_add, hcount, Nat.mod_eq_of_lt (by omega)]
  rw [limitReached_iff, hsum]
  omega

/-! ### The invariant -/

/-- All pages of the first `k` superpages were read, or those up to the limit, and of the last of these
superpages at least one. -/
def ReadThrough (plan : Plan) (read : UInt64) (n : Ledger) (k : Nat) : Prop :=
  ReadUpTo plan read n k ∧
    k * plan.layout.pagesPerSuperpage < n.read + plan.layout.pagesPerSuperpage

/-- What the reader knows of the queue that it reads from. It never fails. -/
def Reader.Draws (plan : Plan) (queue : List Nat) (read : UInt64) (n : Ledger) : Reader → Prop
  | .poll => ReadThrough plan read n n.returned
  | .take =>
    n.read = n.returned * plan.layout.pagesPerSuperpage ∧ ¬limitReached plan.limit? read = true
  | .reading offset page =>
    queue[n.returned]? = some offset ∧ page ≤ plan.layout.pagesPerSuperpage ∧
      n.read = n.returned * plan.layout.pagesPerSuperpage + page ∧
      (page = 0 → ¬limitReached plan.limit? read = true)
  | .giveBack offset failure? =>
    queue[n.returned]? = some offset ∧ failure? = none ∧ ReadThrough plan read n (n.returned + 1)
  | .done failure? => failure? = none ∧ ReadThrough plan read n n.returned

/-- **Where the reader stands** after some steps from `p₀` on: of the superpages that were on the ready
queue it has put some back, holds one or none, and has left the others there. The ledger counts those it
has put back and the pages it has read. -/
structure Drains {σ : Type} (plan : Plan) (p₀ p : Pipeline σ) (r : Reader) (n : Ledger) : Prop where
  size_eq : p.memory.size = p₀.memory.size
  word_eq : ∀ j, p.memory.word j = p₀.wordAfter plan n.read j
  channel_eq : p.channel = p₀.channel
  free_eq : p.free.toList = p₀.free.toList ++ p₀.ready.toList.take n.returned
  capacity_eq : p.free.capacity = p₀.free.capacity
  ready_eq : p.ready.toList = p₀.ready.toList.drop (n.returned + r.inHand)
  returned_le : n.returned + r.inHand ≤ p₀.ready.toList.length
  read_eq : p.stats.read = p₀.stats.read + n.read.toUInt64
  read_le : ∀ limit, plan.limit? = some limit → n.read ≤ limit.toNat - p₀.stats.read.toNat
  verifier_eq : p.verifier? = p₀.verifier?.map ((p₀.pagesOfQueue plan n.read).foldl Verifier.after)
  dump_eq : p.dump? = p₀.dump?.map ((p₀.pagesOfQueue plan n.read).foldl Dump.after)
  stopped_end : p.stopped = true →
    limitReached plan.limit? p.stats.read = true ∨ p.ready.toList = []
  draws : r.Draws plan p₀.ready.toList p.stats.read n

namespace Drains

variable {σ : Type} {plan : Plan} {p₀ p : Pipeline σ} {r : Reader} {n : Ledger}

/-- Before the first step. -/
theorem start (hgo : p₀.stopped = false) : Drains plan p₀ p₀ .poll {} where
  size_eq := rfl
  word_eq j := (if_neg (by simp)).symm
  channel_eq := rfl
  free_eq := (List.append_nil _).symm
  capacity_eq := rfl
  ready_eq := rfl
  returned_le := Nat.zero_le _
  read_eq := (UInt64.add_zero _).symm
  read_le _ _ := Nat.zero_le _
  verifier_eq := (congrFun Option.map_id _).symm
  dump_eq := (congrFun Option.map_id _).symm
  stopped_end h := absurd h (by simp [hgo])
  draws := ⟨Or.inl (Nat.zero_mul _).symm, by
    rw [Nat.zero_mul, Nat.zero_add]
    exact plan.layout.pagesPerSuperpage_pos⟩

/-- A step of the reader that moves no superpage. -/
theorem goes (h : Drains plan p₀ p r n) (r' : Reader) (hin : r'.inHand = r.inHand)
    (hr : r'.Draws plan p₀.ready.toList p.stats.read n) : Drains plan p₀ p r' n :=
  { h with
    ready_eq := hin ▸ h.ready_eq
    returned_le := hin ▸ h.returned_le
    draws := hr }

theorem pollStep (h : Drains plan p₀ p .poll n) :
    Drains plan p₀ (Reader.pollStep plan p).2 (Reader.pollStep plan p).1 n := by
  have hread : ReadThrough plan p.stats.read n n.returned := h.draws
  unfold Reader.pollStep
  split
  · exact h.goes (.done none) rfl ⟨rfl, hread⟩
  split
  · rename_i hlimit
    exact { h.goes (.done none) rfl ⟨rfl, hread⟩ with stopped_end := fun _ => Or.inl hlimit }
  · rename_i hgo
    exact h.goes .take rfl ⟨hread.1.resolve_right fun hl => hgo hl.1, hgo⟩

theorem takeStep (h : Drains plan p₀ p .take n) :
    Drains plan p₀ (Reader.takeStep p).2 (Reader.takeStep p).1 n := by
  obtain ⟨hread, hgo⟩ := h.draws
  unfold Reader.takeStep
  split
  · refine h.goes .poll rfl ⟨Or.inl hread, ?_⟩
    have := plan.layout.pagesPerSuperpage_pos
    omega
  rename_i offset ready hpop
  have hlist : p₀.ready.toList.drop n.returned = offset :: ready.toList :=
    h.ready_eq.symm.trans (Ring.toList_pop hpop)
  have hnext : p₀.ready.toList[n.returned]? = some offset := by
    rw [← List.head?_drop, hlist]
    rfl
  exact
    { h with
      ready_eq := by
        show ready.toList = p₀.ready.toList.drop (n.returned + 1)
        rw [← List.tail_drop, hlist]
        rfl
      returned_le := (List.getElem?_eq_some_iff.1 hnext).1
      stopped_end := fun hstop => by
        rcases h.stopped_end hstop with hlimit | hnil
        · exact Or.inl hlimit
        · exact absurd (hnil.symm.trans (Ring.toList_pop hpop)) (List.cons_ne_nil _ _).symm
      draws := ⟨hnext, Nat.zero_le _, hread, fun _ => hgo⟩ }

theorem giveBackStep (hload : p₀.Loaded plan) {offset : Nat} {failure? : Option Error}
    (h : Drains plan p₀ p (.giveBack offset failure?) n) :
    Drains plan p₀ (Reader.giveBackStep p offset failure?).2
      (Reader.giveBackStep p offset failure?).1 { n with returned := n.returned + 1 } := by
  obtain ⟨hnext, rfl, hread⟩ := h.draws
  have hle : n.returned + 1 ≤ p₀.ready.toList.length := h.returned_le
  have hroom : p.free.toList.length < p.free.capacity := by
    have := hload.room
    rw [h.free_eq, h.capacity_eq, List.length_append, List.length_take]
    omega
  obtain ⟨free, hoffer, hlist, hcap⟩ := Ring.offer_of_room offset hroom
  unfold Reader.giveBackStep
  rw [Pipeline.offerFree_eq, hoffer]
  exact
    { h with
      free_eq := by
        show free.toList = p₀.free.toList ++ p₀.ready.toList.take (n.returned + 1)
        rw [hlist, h.free_eq, List.take_add_one, hnext, List.append_assoc]
        rfl
      capacity_eq := hcap.trans h.capacity_eq
      draws := hread }

/-! ### Reading a page -/

section Reading

variable {offset page : Nat}

/-- The page that the reader is about to read is the one of the queue that follows those it has read. -/
theorem page_place (h : Drains plan p₀ p (.reading offset page) n)
    (hpage : page < plan.layout.pagesPerSuperpage) :
    offset + page * plan.layout.pageSize = plan.layout.queuePosition p₀.ready.toList n.read := by
  obtain ⟨hnext, -, hread, -⟩ := h.draws
  rw [hread, plan.layout.queuePosition_eq hnext hpage]

theorem view_page (hload : p₀.Loaded plan) (h : Drains plan p₀ p (.reading offset page) n)
    (hpage : page < plan.layout.pagesPerSuperpage) :
    p.memory.view (plan.layout.queuePosition p₀.ready.toList n.read) plan.layout.pageSize =
      .ok ⟨plan.layout.queuePosition p₀.ready.toList n.read / 4, plan.layout.pageSize / 4⟩ := by
  have hmem : offset ∈ p₀.ready.toList := List.mem_of_getElem? h.draws.1
  rw [← h.page_place hpage]
  exact hload.view hmem hpage h.size_eq

/-- The words in the memory are those that the page has when it is read. -/
theorem words_page (h : Drains plan p₀ p r n) :
    p.memory.page ⟨plan.layout.queuePosition p₀.ready.toList n.read / 4, plan.layout.pageSize / 4⟩ =
      (p₀.pageOfQueue plan n.read).words :=
  congrArg Array.ofFn (funext fun _ => h.word_eq _)

/-- Below the limit there is a page left to be read. -/
theorem read_lt_due (h : Drains plan p₀ p (.reading offset page) n)
    (hpage : page < plan.layout.pagesPerSuperpage)
    (hgo : ¬limitReached plan.limit? p.stats.read = true) :
    n.read < plan.due p₀.stats.read p₀.ready.toList.length := by
  obtain ⟨-, -, hread, -⟩ := h.draws
  have hle : n.returned + 1 ≤ p₀.ready.toList.length := h.returned_le
  have hpages := Nat.mul_le_mul_right plan.layout.pagesPerSuperpage hle
  rw [Nat.succ_mul] at hpages
  unfold Plan.due
  cases hl : plan.limit? with
  | none =>
    dsimp only
    omega
  | some limit =>
    rw [hl, h.read_eq, limitReached_add_iff (h.read_le limit hl)] at hgo
    dsimp only
    omega

theorem page?_eq (hload : p₀.Loaded plan) (h : Drains plan p₀ p (.reading offset page) n) :
    Reader.page? plan p (.reading offset page) =
      if page < plan.layout.pagesPerSuperpage && !limitReached plan.limit? p.stats.read then
        some (p₀.pageOfQueue plan n.read)
      else none := by
  rw [Reader.page?]
  split
  · rename_i hgo
    rw [Bool.and_eq_true, decide_eq_true_eq] at hgo
    rw [h.page_place hgo.1, h.view_page hload hgo.1]
    dsimp only
    rw [h.words_page, h.read_eq]
    rfl
  · rfl

/-- The copy of a page that is due does not fail. -/
theorem copied_page (hcopy : p₀.CopyFits plan) (h : Drains plan p₀ p r n)
    (hdue : n.read < plan.due p₀.stats.read p₀.ready.toList.length) :
    Pipeline.copied p.dump? (p₀.pageOfQueue plan n.read).event (p₀.pageOfQueue plan n.read).words =
      (.ok (), p₀.dump?.map ((p₀.pagesOfQueue plan (n.read + 1)).foldl Dump.after)) := by
  rw [h.dump_eq]
  cases hd : p₀.dump? with
  | none => rfl
  | some d =>
    have hok := hcopy d hd n.read hdue
    rw [Pipeline.pagesOfQueue_succ, Option.map_some, Option.map_some, List.foldl_append]
    exact Prod.ext hok rfl

/-- The verifier checks the page and goes on to the next one. -/
theorem verifier_page (h : Drains plan p₀ p r n) :
    (p.afterCheck ⟨plan.layout.queuePosition p₀.ready.toList n.read / 4,
        plan.layout.pageSize / 4⟩).2.map Verifier.advance =
      p₀.verifier?.map ((p₀.pagesOfQueue plan (n.read + 1)).foldl Verifier.after) := by
  have hevent : (p₀.pageOfQueue plan n.read).event = p.stats.read := h.read_eq.symm
  rw [Pipeline.afterCheck, h.words_page, ← hevent, h.verifier_eq, Pipeline.pagesOfQueue_succ]
  cases p₀.verifier? with
  | none => rfl
  | some v =>
    rw [Option.map_some, Option.map_some, List.foldl_append]
    rfl

/-- The words of the page are overwritten, if pages are, and no others. -/
theorem word_page (hload : p₀.Loaded plan) (h : Drains plan p₀ p r n)
    (hplace : plan.layout.queuePosition p₀.ready.toList n.read % 4 = 0) (j : Nat) :
    (if plan.pageReset then p.memory.fill ⟨plan.layout.queuePosition p₀.ready.toList n.read / 4,
        plan.layout.pageSize / 4⟩ resetWord else p.memory).word j =
      p₀.wordAfter plan (n.read + 1) j := by
  have haligned := hload.aligned
  have hin : plan.layout.InPage (plan.layout.queuePosition p₀.ready.toList n.read) j ↔
      plan.layout.queuePosition p₀.ready.toList n.read / 4 ≤ j ∧
        j < plan.layout.queuePosition p₀.ready.toList n.read / 4 + plan.layout.pageSize / 4 := by
    unfold Layout.InPage
    omega
  rw [Pipeline.wordAfter_succ]
  by_cases hreset : plan.pageReset = true
  · rw [if_pos hreset, Memory.word_fill, h.word_eq]
    exact if_congr (hin.symm.trans (iff_and_self.2 fun _ => hreset)) rfl rfl
  · rw [if_neg hreset, if_neg fun hc => hreset hc.1, h.word_eq]

/-- **A page of the queue is read**: it is counted, checked and copied as it is, then possibly
overwritten, and nothing else changes. -/
theorem page_read (hload : p₀.Loaded plan) (hcopy : p₀.CopyFits plan)
    (h : Drains plan p₀ p (.reading offset page) n)
    (hpage : page < plan.layout.pagesPerSuperpage)
    (hgo : ¬limitReached plan.limit? p.stats.read = true) :
    ∃ q, p.readPage plan (offset + page * plan.layout.pageSize) = (none, q) ∧
      Drains plan p₀ q (.reading offset (page + 1)) { n with read := n.read + 1 } := by
  obtain ⟨hnext, -, hread, -⟩ := h.draws
  have hview := h.view_page hload hpage
  have hevent : (p₀.pageOfQueue plan n.read).event = p.stats.read := h.read_eq.symm
  have hcopied := h.copied_page hcopy (h.read_lt_due hpage hgo)
  rw [hevent, ← h.words_page] at hcopied
  obtain ⟨-, -, -, hsize, hcount⟩ := Pipeline.readPage_keeps hview
  rw [Pipeline.readPage_of_view hview, hcopied] at hsize hcount
  rw [h.page_place hpage, Pipeline.readPage_of_view hview, hcopied]
  refine ⟨_, rfl, ?_⟩
  exact
    { size_eq := hsize.trans h.size_eq
      word_eq := h.word_page hload (Memory.view_eq_ok_iff.1 hview).2.2.1
      channel_eq := h.channel_eq
      free_eq := h.free_eq
      capacity_eq := h.capacity_eq
      ready_eq := h.ready_eq
      returned_le := h.returned_le
      read_eq := by
        rw [hcount, h.read_eq, UInt64.add_assoc]
        exact congrArg _ (UInt64.ofNat_add _ _).symm
      read_le := fun limit hl => by
        rw [hl, h.read_eq, limitReached_add_iff (h.read_le limit hl)] at hgo
        exact Nat.lt_of_not_le hgo
      verifier_eq := h.verifier_page
      dump_eq := rfl
      stopped_end := fun hstop => Or.inr ((h.stopped_end hstop).resolve_left hgo)
      draws := ⟨hnext, hpage, congrArg (· + 1) hread, nofun⟩ }

end Reading

/-! ### Steps of the reader -/

theorem readingStep (hload : p₀.Loaded plan) (hcopy : p₀.CopyFits plan) {offset page : Nat}
    (h : Drains plan p₀ p (.reading offset page) n) :
    Drains plan p₀ (Reader.readingStep plan p offset page).2
      (Reader.readingStep plan p offset page).1
      (n.afterRead (Reader.page? plan p (.reading offset page)) (.reading offset page)) := by
  obtain ⟨hnext, hle, hread, hfirst⟩ := h.draws
  rw [h.page?_eq hload]
  unfold Reader.readingStep
  split
  · rename_i hgo
    rw [Bool.and_eq_true, decide_eq_true_eq, Bool.not_eq_true', ← Bool.not_eq_true] at hgo
    obtain ⟨q, hq, hdrains⟩ := h.page_read hload hcopy hgo.1 hgo.2
    rw [hq]
    exact hdrains
  · rename_i hstop
    refine h.goes (.giveBack offset none) rfl ⟨hnext, rfl, ?_, ?_⟩
    -- the reader leaves a superpage behind its last page or at the limit
    · by_cases hpage : page < plan.layout.pagesPerSuperpage
      · refine Or.inr ⟨by simpa [hpage] using hstop, ?_⟩
        rw [Nat.succ_mul]
        omega
      · refine Or.inl ?_
        rw [Nat.succ_mul]
        omega
    · have hsome : 0 < page := by
        refine Nat.pos_of_ne_zero fun hzero => hstop ?_
        rw [hzero, Bool.and_eq_true, decide_eq_true_eq, Bool.not_eq_true', ← Bool.not_eq_true]
        exact ⟨plan.layout.pagesPerSuperpage_pos, hfirst hzero⟩
      rw [Nat.succ_mul]
      omega

/-- **Every step of the reader** goes on with the queue. -/
theorem read_step (hload : p₀.Loaded plan) (hcopy : p₀.CopyFits plan) (h : Drains plan p₀ p r n) :
    Drains plan p₀ (r.step plan p).2 (r.step plan p).1 (n.afterRead (r.page? plan p) r) := by
  cases r with
  | poll => exact h.pollStep
  | take => exact h.takeStep
  | reading offset page => exact h.readingStep hload hcopy
  | giveBack offset failure? => exact h.giveBackStep hload
  | done failure? => exact h

/-- The pages of the journal are those of the queue. -/
theorem pagesOfQueue_afterRead (hload : p₀.Loaded plan) (h : Drains plan p₀ p r n) :
    p₀.pagesOfQueue plan (n.afterRead (r.page? plan p) r).read =
      p₀.pagesOfQueue plan n.read ++ (r.page? plan p).toList := by
  cases r with
  | reading offset page =>
    show p₀.pagesOfQueue plan (n.read + _) = _
    rw [h.page?_eq hload]
    split
    · exact p₀.pagesOfQueue_succ plan n.read
    · exact (List.append_nil _).symm
  | _ => exact (List.append_nil _).symm

/-- Superpages only leave the queue. -/
theorem taken_le_step (plan : Plan) (p : Pipeline σ) (r : Reader) (n : Ledger) :
    n.returned + r.inHand ≤
      (n.afterRead (r.page? plan p) r).returned + (r.step plan p).1.inHand := by
  rcases hstep : r.step plan p with ⟨r', q⟩
  cases Reader.moves hstep with
  | takes => exact Nat.le_succ _
  | _ => exact le_rfl

/-- At its end the reader has read the pages that were due, and has put back the superpages that they
are in. -/
theorem read_eq_due (h : Drains plan p₀ p r n) (hin : r.inHand = 0)
    (hread : ReadThrough plan p.stats.read n n.returned)
    (hend : limitReached plan.limit? p.stats.read = true ∨ p.ready.toList = []) :
    n.read = plan.due p₀.stats.read p₀.ready.toList.length ∧
      n.returned = (n.read + plan.layout.pagesPerSuperpage - 1) / plan.layout.pagesPerSuperpage := by
  have hpos := plan.layout.pagesPerSuperpage_pos
  obtain ⟨hupTo, hlast⟩ := hread
  have hle : n.read ≤ n.returned * plan.layout.pagesPerSuperpage := hupTo.elim le_of_eq And.right
  have hqueue : n.returned ≤ p₀.ready.toList.length := Nat.le_of_add_right_le h.returned_le
  have hpages := Nat.mul_le_mul_right plan.layout.pagesPerSuperpage hqueue
  refine ⟨?_, ?_⟩
  · -- without the limit, all superpages of the queue were read
    have hall : ¬limitReached plan.limit? p.stats.read = true →
        n.read = p₀.ready.toList.length * plan.layout.pagesPerSuperpage := by
      intro hgo
      have hempty := hend.resolve_left hgo
      rw [h.ready_eq, hin, Nat.add_zero, List.drop_eq_nil_iff] at hempty
      rw [hupTo.resolve_right fun hl => hgo hl.1, Nat.le_antisymm hqueue hempty]
    unfold Plan.due
    cases hl : plan.limit? with
    | none => exact hall (by rw [hl]; exact Bool.false_ne_true)
    | some limit =>
      have hlimit := limitReached_add_iff (h.read_le limit hl)
      have hmax := h.read_le limit hl
      rw [hl, h.read_eq] at hall
      dsimp only
      by_cases hreached : limitReached (some limit) (p₀.stats.read + n.read.toUInt64) = true
      · have := hlimit.1 hreached
        omega
      · have := hall hreached
        omega
  · refine (Nat.div_eq_of_lt_le ?_ ?_).symm
    · omega
    · rw [Nat.succ_mul]
      omega

end Drains

/-! ### Runs of the reader -/

namespace Machine

variable {σ : Type} [Channel σ] {plan : Plan} {p₀ : Pipeline σ}

/-- Where the reader of a machine stands. -/
def Drains (plan : Plan) (p₀ : Pipeline σ) (m : Machine σ) (n : Ledger) : Prop :=
  DmaReadout.Drains plan p₀ m.shared m.reader n

theorem pagesRead_append (plan : Plan) (turns more : List Turn) : ∀ m : Machine σ,
    m.pagesRead plan (turns ++ more) =
      m.pagesRead plan turns ++ (m.run plan turns).pagesRead plan more := by
  induction turns with
  | nil => exact fun _ => rfl
  | cons t turns ih =>
    intro m
    rw [List.cons_append, pagesRead_cons, pagesRead_cons, ih, List.append_assoc]
    rfl

/-- From one machine to another without the feeder: the reader goes on with the queue, and superpages
only leave it. -/
structure Reads (plan : Plan) (p₀ : Pipeline σ) (m : Machine σ) (n : Ledger) (m' : Machine σ)
    (n' : Ledger) : Prop where
  turns : ∃ turns : List Turn, (∀ t ∈ turns, t ≠ .feed) ∧ m' = m.run plan turns ∧
    p₀.pagesOfQueue plan n'.read = p₀.pagesOfQueue plan n.read ++ m.pagesRead plan turns
  drains : m'.Drains plan p₀ n'
  taken_le : n.returned + m.reader.inHand ≤ n'.returned + m'.reader.inHand

variable {m m' m'' : Machine σ} {n n' n'' : Ledger}

theorem Reads.refl (h : m.Drains plan p₀ n) : Reads plan p₀ m n m n :=
  ⟨⟨[], List.forall_mem_nil _, rfl, (List.append_nil _).symm⟩, h, le_rfl⟩

theorem Reads.trans (h : Reads plan p₀ m n m' n') (h' : Reads plan p₀ m' n' m'' n'') :
    Reads plan p₀ m n m'' n'' := by
  obtain ⟨turns, hturns, rfl, hpages⟩ := h.turns
  obtain ⟨more, hmore, rfl, hpages'⟩ := h'.turns
  refine ⟨⟨turns ++ more, List.forall_mem_append.2 ⟨hturns, hmore⟩,
    (run_append plan m turns more).symm, ?_⟩, h'.drains, h.taken_le.trans h'.taken_le⟩
  rw [hpages', hpages, pagesRead_append, List.append_assoc]

/-- A step of the reader. -/
theorem Reads.step (hload : p₀.Loaded plan) (hcopy : p₀.CopyFits plan) (h : m.Drains plan p₀ n) :
    Reads plan p₀ m n (m.step plan .read) (n.after plan m .read) where
  turns := ⟨[.read], by simp, rfl, (DmaReadout.Drains.pagesOfQueue_afterRead hload h).trans
    (congrArg _ (List.append_nil _).symm)⟩
  drains := DmaReadout.Drains.read_step hload hcopy h
  taken_le := DmaReadout.Drains.taken_le_step plan m.shared m.reader n

/-- A request to end once the queue is empty. -/
theorem Reads.stop (h : m.Drains plan p₀ n) (hempty : m.shared.ready.toList = []) :
    Reads plan p₀ m n (m.step plan .stop) n where
  turns := ⟨[.stop], by simp, rfl, (List.append_nil _).symm⟩
  drains := { h with stopped_end := fun _ => Or.inr hempty }
  taken_le := le_rfl

theorem Reads.untilRest (hload : p₀.Loaded plan) (hcopy : p₀.CopyFits plan) (fuel : Nat) :
    ∀ {m : Machine σ} {n : Ledger}, m.Drains plan p₀ n →
    ∃ n', Reads plan p₀ m n (readUntilRest plan fuel m) n' := by
  induction fuel with
  | zero => exact fun {m n} h => ⟨n, .refl h⟩
  | succ fuel ih =>
    intro m n h
    have hstep := Reads.step hload hcopy h
    rw [readUntilRest]
    split
    · exact ⟨_, hstep⟩
    · obtain ⟨n', hrest⟩ := ih hstep.drains
      exact ⟨n', hstep.trans hrest⟩

theorem step_of_poll (plan : Plan) (hpoll : m.reader = .poll) :
    (∃ failure?, (m.step plan .read).reader = .done failure?) ∨
      (m.step plan .read).reader = .take ∧ (m.step plan .read).shared = m.shared := by
  obtain ⟨p, f, r⟩ := m
  obtain rfl : r = .poll := hpoll
  show (∃ failure?, (Reader.pollStep plan p).1 = .done failure?) ∨
    (Reader.pollStep plan p).1 = .take ∧ (Reader.pollStep plan p).2 = p
  unfold Reader.pollStep
  split
  · exact Or.inl ⟨_, rfl⟩
  split
  · exact Or.inl ⟨_, rfl⟩
  · exact Or.inr ⟨rfl, rfl⟩

theorem step_of_take (plan : Plan) (htake : m.reader = .take)
    (hready : m.shared.ready.toList ≠ []) :
    ∃ offset, (m.step plan .read).reader = .reading offset 0 := by
  obtain ⟨p, f, r⟩ := m
  obtain rfl : r = .take := htake
  show ∃ offset, (Reader.takeStep p).1 = .reading offset 0
  unfold Reader.takeStep
  split
  · rename_i hpop
    exact absurd ((Ring.pop_eq_none_iff _).1 hpop) hready
  · exact ⟨_, rfl⟩

/-- **A round of the reader** takes a superpage from the queue and puts it back, unless the reader
ends. -/
theorem Reads.round (hload : p₀.Loaded plan) (hcopy : p₀.CopyFits plan) (h : m.Drains plan p₀ n)
    (hpoll : m.reader = .poll) (hready : m.shared.ready.toList ≠ []) :
    ∃ n', Reads plan p₀ m n (m.readRound plan) n' ∧
      ((∃ failure?, (m.readRound plan).reader = .done failure?) ∨
        (m.readRound plan).reader = .poll ∧ n.returned < n'.returned) := by
  have hfirst := Reads.step hload hcopy h
  rw [show n.after plan m .read = n.afterRead _ m.reader from rfl, hpoll] at hfirst
  rcases step_of_poll plan hpoll with ⟨failure?, hdone⟩ | ⟨htake, hshared⟩
  · have hround : m.readRound plan = m.step plan .read := if_pos (by rw [readerRests, hdone])
    rw [hround]
    exact ⟨n, hfirst, Or.inl ⟨failure?, hdone⟩⟩
  · -- two steps lead to the first page of the superpage
    obtain ⟨offset, hreading⟩ := step_of_take plan htake (hshared ▸ hready)
    have hsecond := Reads.step hload hcopy hfirst.drains
    rw [show Ledger.after plan (m.step plan .read) _ .read = Ledger.afterRead _ _
      (m.step plan .read).reader from rfl, htake] at hsecond
    have hround : m.readRound plan = readUntilRest plan (plan.layout.pagesPerSuperpage + 2)
        ((m.step plan .read).step plan .read) := by
      have hmoving₁ : ¬(m.step plan .read).readerRests = true := by
        rw [readerRests, htake]
        exact Bool.false_ne_true
      have hmoving₂ : ¬((m.step plan .read).step plan .read).readerRests = true := by
        rw [readerRests, hreading]
        exact Bool.false_ne_true
      exact (if_neg hmoving₁).trans (if_neg hmoving₂)
    obtain ⟨n', hrest⟩ := Reads.untilRest hload hcopy (plan.layout.pagesPerSuperpage + 2)
      hsecond.drains
    have htaken := hrest.taken_le
    rw [← hround] at hrest htaken
    refine ⟨n', (hfirst.trans hsecond).trans hrest, ?_⟩
    rcases reader_of_rests (readRound_rests plan m) with hrests | hrests
    · rw [hreading, hrests] at htaken
      exact Or.inr ⟨hrests, htaken⟩
    · exact Or.inl hrests

/-- **The reader comes to its end**, after as many rounds as there are superpages at most. -/
theorem Reads.rounds (hload : p₀.Loaded plan) (hcopy : p₀.CopyFits plan) (rounds : Nat) :
    ∀ {m : Machine σ} {n : Ledger}, m.Drains plan p₀ n → m.reader = .poll →
    m.shared.ready.toList.length < rounds →
    ∃ n', Reads plan p₀ m n (readRounds plan rounds m) n' ∧
      ∃ failure?, (readRounds plan rounds m).reader = .done failure? := by
  induction rounds with
  | zero => exact fun _ _ hlt => absurd hlt (Nat.not_lt_zero _)
  | succ rounds ih =>
    intro m n h hpoll hlt
    by_cases hempty : m.shared.ready.isEmpty = true
    · have hstop := Reads.stop h ((Ring.isEmpty_iff _).1 hempty)
      have hlast : (m.step plan .stop).step plan .read = ⟨m.shared.stop, m.feeder, .done none⟩ := by
        obtain ⟨p, f, r⟩ := m
        obtain rfl : r = .poll := hpoll
        rfl
      rw [readRounds, if_pos hempty]
      exact ⟨_, hstop.trans (.step hload hcopy hstop.drains), none, by rw [hlast]⟩
    have hready : m.shared.ready.toList ≠ [] := fun hnil => hempty ((Ring.isEmpty_iff _).2 hnil)
    obtain ⟨n', hround, hend⟩ := Reads.round hload hcopy h hpoll hready
    rcases hend with ⟨failure?, hdone⟩ | ⟨hpoll', htaken⟩
    · have hlast : readRounds plan (rounds + 1) m = m.readRound plan := by
        rw [readRounds, if_neg hempty]
        exact if_pos (by rw [readerDone, hdone])
      rw [hlast]
      exact ⟨n', hround, failure?, hdone⟩
    · have hnext : readRounds plan (rounds + 1) m = readRounds plan rounds (m.readRound plan) := by
        rw [readRounds, if_neg hempty]
        exact if_neg (by rw [readerDone, hpoll']; exact Bool.false_ne_true)
      have hfewer : (m.readRound plan).shared.ready.toList.length < rounds := by
        have hle := hround.drains.returned_le
        rw [h.ready_eq, List.length_drop, hpoll] at hlt
        rw [hround.drains.ready_eq, List.length_drop]
        rw [hpoll'] at hle ⊢
        simp only [Reader.inHand] at hlt hle ⊢
        omega
      obtain ⟨n'', hrest, hdone⟩ := ih hround.drains hpoll' hfewer
      rw [hnext]
      exact ⟨n'', hround.trans hrest, hdone⟩

/-- **The ready queue is read exactly.** Alone and not asked to end, a reader that meets superpages of
the buffer on the ready queue, room for them on the free queue and a copy that takes all their pages
ends without a failure. It has read the pages that were due by the limit, in the order of the queue and
with consecutive numbers; it has put the superpages that they are in, and no others, on the free queue in
their order. The memory is overwritten where these pages are, if pages are, and as before elsewhere; the
verifier and the copy have seen each page as it was when it was read, and so as it was at first, if no
superpage is on the queue twice. -/
theorem readAll_exact {count taken : Nat} (hload : m.shared.Loaded plan)
    (hcopy : m.shared.CopyFits plan) (hstart : m.reader = .poll) (hgo : m.shared.stopped = false)
    (hcount : count = plan.due m.shared.stats.read m.shared.ready.toList.length)
    (htaken : taken =
      (count + plan.layout.pagesPerSuperpage - 1) / plan.layout.pagesPerSuperpage) :
    ∃ turns : List Turn, (∀ t ∈ turns, t ≠ .feed) ∧ m.readAll plan = m.run plan turns ∧
      m.pagesRead plan turns = m.shared.pagesOfQueue plan count ∧
      (m.readAll plan).reader = .done none ∧
      (m.readAll plan).shared.ready.toList = m.shared.ready.toList.drop taken ∧
      (m.readAll plan).shared.free.toList =
        m.shared.free.toList ++ m.shared.ready.toList.take taken ∧
      (m.readAll plan).shared.stats.read = m.shared.stats.read + count.toUInt64 ∧
      (m.readAll plan).shared.memory.size = m.shared.memory.size ∧
      (∀ j, (m.readAll plan).shared.memory.word j = m.shared.wordAfter plan count j) ∧
      (m.readAll plan).shared.channel = m.shared.channel ∧
      (m.readAll plan).shared.verifier? =
        m.shared.verifier?.map ((m.shared.pagesOfQueue plan count).foldl Verifier.after) ∧
      (m.readAll plan).shared.dump? =
        m.shared.dump?.map ((m.shared.pagesOfQueue plan count).foldl Dump.after) ∧
      (m.shared.ready.toList.Nodup → ∀ pg ∈ m.shared.pagesOfQueue plan count,
        pg.words = m.shared.memory.page ⟨pg.position / 4, plan.layout.pageSize / 4⟩) := by
  have hbegin : m.Drains plan m.shared {} := by
    show DmaReadout.Drains plan m.shared m.shared m.reader {}
    rw [hstart]
    exact .start hgo
  have hrounds := Reads.rounds hload hcopy (m.shared.ready.length + 1) hbegin hstart
    (Nat.lt_succ_of_le (Nat.le_of_eq (Ring.length_toList _)))
  obtain ⟨n, hreads, failure?, hdone⟩ := hrounds
  rw [← readAll] at hreads hdone
  have hdrains := hreads.drains
  obtain ⟨turns, hturns, hrun, hpages⟩ := hreads.turns
  have hstopped : (m.readAll plan).shared.stopped = true := by
    rw [hrun] at hdone ⊢
    refine stopped_of_readerDone plan turns (fun hd => ?_) (by rw [readerDone, hdone])
    rw [readerDone, hstart] at hd
    exact absurd hd Bool.false_ne_true
  have hdraws := hdrains.draws
  rw [hdone] at hdraws
  obtain ⟨rfl, hthrough⟩ := hdraws
  have hin : (m.readAll plan).reader.inHand = 0 := by
    rw [hdone]
    rfl
  obtain ⟨hread, hreturned⟩ := hdrains.read_eq_due hin hthrough (hdrains.stopped_end hstopped)
  rw [← hcount] at hread
  rw [hread, ← htaken] at hreturned
  have hready := hdrains.ready_eq
  rw [hin, hreturned, Nat.add_zero] at hready
  refine ⟨turns, hturns, hrun, hread ▸ hpages.symm, hdone, hready, hreturned ▸ hdrains.free_eq,
    hread ▸ hdrains.read_eq, hdrains.size_eq, hread ▸ hdrains.word_eq, hdrains.channel_eq,
    hread ▸ hdrains.verifier_eq, hread ▸ hdrains.dump_eq, fun hnodup pg hpg => ?_⟩
  obtain ⟨i, hi, rfl⟩ := List.mem_map.1 hpg
  refine hload.words_of_nodup hnodup ?_
  have hlt := List.mem_range.1 hi
  rw [hcount, Plan.due] at hlt
  split at hlt
  · exact hlt
  · exact hlt.trans_le (Nat.min_le_left _ _)

/-- The small pipeline with both superpages on the ready queue, the second one first, and seven pages
counted before. -/
def smallWaiting : Pipeline Emulated :=
  { Pipeline.small with
    free := Pipeline.small.ready
    ready := Pipeline.small.ready.pushAll [80, 0]
    stats := { read := 7 } }

/-- With a limit of eight pages the reader reads the first page of the first superpage and overwrites it;
the next page and the other superpage stay as they are. -/
theorem readAll_exact_small :
    ((start smallWaiting).readAll ⟨.small, some 8, true⟩).shared.free.toList = [80] ∧
      ((start smallWaiting).readAll ⟨.small, some 8, true⟩).shared.ready.toList = [0] ∧
      ((start smallWaiting).readAll ⟨.small, some 8, true⟩).shared.memory.word 20 = resetWord ∧
      ((start smallWaiting).readAll ⟨.small, some 8, true⟩).shared.memory.word 30 = 0 := by
  have hload : smallWaiting.Loaded ⟨.small, some 8, true⟩ :=
    ⟨rfl, by decide, by decide, by decide, by decide⟩
  have hcopy : smallWaiting.CopyFits ⟨.small, some 8, true⟩ :=
    Pipeline.copyFits_of_unlimited _ (by rintro _ ⟨⟩; rfl)
  obtain ⟨-, -, -, -, -, hready, hfree, -, -, hword, -⟩ := readAll_exact (m := start smallWaiting)
    hload hcopy rfl rfl (show 1 = _ by decide) (show 1 = _ by decide)
  exact ⟨hfree, hready, (hword 20).trans (by decide), (hword 30).trans (by decide)⟩

end Machine

end DmaReadout
