import DmaReadout.Proofs.Conservation
import DmaReadout.Proofs.Operations

/-! # Where the superpages are

On every channel that accounts for its superpages, and with queues of any capacity, the superpages of a
run are on the two queues, in the channel or in the hand of a task. Only two failures take one out of this
custody: a refusal of the channel, and a free queue without room for what the reader returns.

* `Channel.Accounts`: what the calls do to the superpages in a channel; `Emulated.accounts`,
  `Scripted.accounts`.
* `InCustody`: where the superpages are; `InCustody.feed_step`, `InCustody.read_step`: one step of either
  task; `inCustody_run`: any run in which the feeder has not failed. -/

namespace DmaReadout

/-! ### Channels that account for their superpages -/

/-- A kind of channel whose calls account for the offsets of the superpages in it: a push adds one unless
it is refused, a pop takes the one that it gives, and a fill moves none. -/
structure Channel.Accounts {σ : Type} [Channel σ] (held : σ → List Nat) : Prop where
  push_ok : ∀ {c s}, (Channel.push c s).1 = .ok () → held (Channel.push c s).2 = held c ++ [s.offset]
  push_error : ∀ {c s e}, (Channel.push c s).1 = .error e → held (Channel.push c s).2 = held c
  fill : ∀ c m, held (Channel.fill c m).1 = held c
  pop_some : ∀ {c s}, (Channel.pop c).1 = some s → (held c).Perm (s.offset :: held (Channel.pop c).2)

/-- **Emulated channels** account for their superpages. -/
theorem Emulated.accounts : Channel.Accounts Emulated.offsets where
  push_ok {c s} hok := by
    obtain ⟨-, hpush⟩ := push_of_ok hok
    rw [show (Channel.push c s).2 = _ from hpush]
    simp [offsets, withQueue]
  push_error {c s e} herror := by
    rcases push_cases c s with ⟨-, hc⟩ | ⟨-, e', hc⟩
    · cases (congrArg Prod.fst hc).symm.trans herror
    · exact congrArg offsets (congrArg Prod.snd hc)
  fill c m := by
    cases hrun : c.running with
    | false => exact congrArg (·.1.offsets) (fill_of_stopped hrun m)
    | true => exact (fill_keeps hrun m).2
  pop_some {c s} hs := by
    rcases pop_cases c with ⟨x, hq, hpop⟩ | ⟨hpop, -⟩
    · obtain rfl : x = s := Option.some.inj ((congrArg Prod.fst hpop).symm.trans hs)
      rw [show Channel.pop c = _ from hpop, offsets, hq]
      exact .refl _
    · cases (congrArg Prod.fst hpop).symm.trans hs

namespace Scripted

/-- The superpages in the queue of a channel. -/
def offsets (c : Scripted) : List Nat := c.queue.toList.map (·.offset)

/-- What a pop takes is the oldest superpage or the newest one. -/
theorem pop_offsets {c : Scripted} {s : Superpage} (hs : c.pop.1 = some s) :
    c.offsets.Perm (s.offset :: c.pop.2.offsets) := by
  by_cases hrule : c.popRule ≠ .newest ∨ c.running = false
  · rcases pop_cases hrule with ⟨x, hq, hpop⟩ | ⟨hpop, -⟩
    · obtain rfl : x = s := Option.some.inj ((congrArg Prod.fst hpop).symm.trans hs)
      rw [hpop, offsets, hq]
      exact .refl _
    · cases (congrArg Prod.fst hpop).symm.trans hs
  · obtain ⟨hnewest, hrun⟩ := not_or.1 hrule
    have hpop : c.pop = (c.queue.last?, { c with queue := c.queue.init }) := by
      unfold pop
      rw [if_pos (by simpa using hrun), not_ne_iff.1 hnewest]
    rw [hpop, ← Fifo.last?_toList] at hs
    have hinit : offsets { c with queue := c.queue.init } =
        c.queue.toList.dropLast.map (·.offset) := by
      rw [offsets, Fifo.toList_init]
    rw [hpop, hinit, offsets]
    rcases List.eq_nil_or_concat c.queue.toList with hnil | ⟨front, x, hq⟩
    · rw [hnil] at hs
      cases hs
    · rw [List.concat_eq_append] at hq
      rw [hq, List.getLast?_concat] at hs
      obtain rfl : x = s := Option.some.inj hs
      rw [hq, List.dropLast_concat, List.map_append]
      exact List.perm_append_singleton _ _

/-- **Scripted channels** account for their superpages, whichever they give back first. -/
theorem accounts : Channel.Accounts Scripted.offsets where
  push_ok {c s} hok := by
    rw [show (Channel.push c s).2 = _ from push_of_ok hok]
    simp [offsets]
  push_error {c s e} herror := by
    show offsets (c.push s).2 = offsets c
    replace herror : (c.push s).1 = .error e := herror
    unfold push at herror ⊢
    dsimp only at herror ⊢
    split at herror
    · rename_i hrefused
      rw [if_pos hrefused]
      rfl
    · cases herror
  fill c m := by
    show offsets (c.fill m).1 = offsets c
    rcases fill_cases c m with hfill | ⟨q, hfill, hq⟩
    · rw [hfill]
    · rw [hfill]
      show q.toList.map (·.offset) = _
      rw [hq, Emulated.thread_keeps _ _ fun _ _ => rfl, offsets]
  pop_some hs := pop_offsets hs

end Scripted

/-! ### Full queues -/

namespace Ring

variable {α : Type} {r : Ring α} {v : α}

/-- What is refused leaves a queue as it is, and there was no room for it. -/
theorem offer_eq_false (h : (r.offer v).1 = false) : (r.offer v).2 = r := by
  rcases Nat.lt_or_ge r.toList.length r.capacity with hroom | hfull
  · obtain ⟨s, hs, -⟩ := offer_of_room v hroom
    rw [hs] at h
    cases h
  · rw [offer_of_full v hfull]

theorem offer_eq_true (h : (r.offer v).1 = true) : (r.offer v).2.toList = r.toList ++ [v] := by
  rcases Nat.lt_or_ge r.toList.length r.capacity with hroom | hfull
  · obtain ⟨s, hs, hlist, -⟩ := offer_of_room v hroom
    rw [hs, hlist]
  · rw [offer_of_full v hfull] at h
    cases h

end Ring

/-! ### The custody -/

/-- The superpage that the feeder made ready while the channel still has it. -/
def Feeder.doubled : Feeder → List Nat
  | .collect offset => [offset]
  | _ => []

/-- The superpage that the reader could not give back. -/
def Reader.dropped : Reader → List Nat
  | .done (some (.queue (.returning offset))) => [offset]
  | _ => []

theorem Reader.dropped_of_failure {e : Error} (h : ∀ offset, e ≠ .queue (.returning offset)) :
    Reader.dropped (.done (some e)) = [] := by
  unfold dropped
  split
  · rename_i offset heq
    cases heq
    exact absurd rfl (h offset)
  · rfl

variable {σ : Type} {held : σ → List Nat} {all : List Nat} {plan : Plan} {p q : Pipeline σ}
  {f : Feeder} {r : Reader}

/-- The superpages on the free queue, in the channel and on the ready queue. -/
def Pipeline.custody (held : σ → List Nat) (p : Pipeline σ) : List Nat :=
  p.free.toList ++ held p.channel ++ p.ready.toList

theorem Pipeline.custody_readPage (held : σ → List Nat) (plan : Plan) (p : Pipeline σ) (offset : Nat) :
    (p.readPage plan offset).2.custody held = p.custody held := by
  cases hv : p.memory.view offset plan.layout.pageSize with
  | error e => rw [readPage_of_error hv]
  | ok v =>
    obtain ⟨hchannel, hfree, hready, -⟩ := readPage_keeps hv
    rw [custody, hchannel, hfree, hready, custody]

/-- **The custody.** All superpages are on the queues, in the channel or in the hand of a task, apart from
one that the reader could not give back; the one that the feeder is about to take from the channel is on
the ready queue already. A failure to read a page is none to give a superpage back. -/
structure InCustody (held : σ → List Nat) (all : List Nat) (p : Pipeline σ) (f : Feeder) (r : Reader) :
    Prop where
  places : (p.custody held ++ f.held ++ r.held ++ r.dropped).Perm (all ++ f.doubled)
  spares : ∀ offset e, r = .giveBack offset (some e) → ∀ o, e ≠ .queue (.returning o)

namespace InCustody

theorem start (p : Pipeline σ) : InCustody held (p.custody held) p .poll .poll :=
  ⟨by simp [Feeder.held, Reader.held, Reader.dropped, Feeder.doubled], nofun⟩

theorem readPage_spares {offset : Nat} {e : Error} (h : (p.readPage plan offset).1 = some e) (o : Nat) :
    e ≠ .queue (.returning o) := by
  cases hv : p.memory.view offset plan.layout.pageSize with
  | error e' =>
    rw [Pipeline.readPage_of_error hv] at h
    cases h
    rintro rfl
    unfold Memory.view at hv
    split at hv
    · cases hv
    split at hv
    · cases hv
    split at hv <;> cases hv
  | ok v =>
    obtain ⟨fault, rfl⟩ := Pipeline.readPage_error hv h
    nofun

/-- A step of the reader that moves no superpage. -/
theorem reader_goes (h : InCustody held all p f r) {r' : Reader} (hq : q.custody held = p.custody held)
    (hheld : r'.held = r.held) (hdropped : r'.dropped = r.dropped)
    (hspares : ∀ offset e, r' = .giveBack offset (some e) → ∀ o, e ≠ .queue (.returning o)) :
    InCustody held all q f r' :=
  ⟨by rw [hq, hheld, hdropped]; exact h.places, hspares⟩

/-- **A step of the reader** keeps the superpages in custody. -/
theorem read_step (h : InCustody held all p f r) :
    InCustody held all (r.step plan p).2 f (r.step plan p).1 := by
  rcases hstep : r.step plan p with ⟨r', q⟩
  have hcount := List.perm_iff_count.1 h.places
  cases Reader.moves hstep with
  | ends | reaches | goes | waits => exact h.reader_goes rfl rfl rfl (by rintro _ _ ⟨⟩)
  | takes hpop =>
    have hready := Ring.toList_pop hpop
    refine ⟨List.perm_iff_count.2 fun x => ?_, by rintro _ _ ⟨⟩⟩
    have := hcount x
    simp only [Pipeline.custody, hready, Reader.held, Reader.dropped, List.count_append,
      List.count_cons, List.count_nil] at this ⊢
    omega
  | @reads offset page _ _ hread =>
    have hq := p.custody_readPage held plan (offset + page * plan.layout.pageSize)
    rw [hread] at hq
    exact h.reader_goes hq rfl rfl (by rintro _ _ ⟨⟩)
  | @fails offset page _ _ _ hread =>
    have hq := p.custody_readPage held plan (offset + page * plan.layout.pageSize)
    rw [hread] at hq
    refine h.reader_goes hq rfl rfl ?_
    rintro _ _ ⟨⟩
    exact readPage_spares (congrArg Prod.fst hread)
  | finishes => exact h.reader_goes rfl rfl rfl (by rintro _ _ ⟨⟩)
  | returns hroom =>
    have hfree := Ring.offer_eq_true hroom
    refine ⟨List.perm_iff_count.2 fun x => ?_, by rintro _ _ ⟨⟩⟩
    have := hcount x
    simp only [Pipeline.custody, hfree, Reader.held, Reader.dropped, List.count_append,
      List.count_cons, List.count_nil] at this ⊢
    omega
  | abandons hroom =>
    have hfree := Ring.offer_eq_true hroom
    -- the reader ends, but not with a superpage in its hand
    have hdropped := Reader.dropped_of_failure (h.spares _ _ rfl)
    refine ⟨List.perm_iff_count.2 fun x => ?_, by rintro _ _ ⟨⟩⟩
    have := hcount x
    rw [hdropped]
    simp only [Pipeline.custody, hfree, Reader.held, Reader.dropped, List.count_append,
      List.count_cons, List.count_nil] at this ⊢
    omega
  | crowded hroom =>
    have hfree := Ring.offer_eq_false hroom
    refine ⟨List.perm_iff_count.2 fun x => ?_, by rintro _ _ ⟨⟩⟩
    have := hcount x
    simp only [Pipeline.custody, hfree, Reader.held, Reader.dropped, List.count_append,
      List.count_cons, List.count_nil] at this ⊢
    omega
  | rests => exact h

/-- A step of the feeder that moves no superpage. -/
theorem feeder_goes (h : InCustody held all p f r) {f' : Feeder} (hq : q.custody held = p.custody held)
    (hheld : f'.held = f.held) (hdoubled : f'.doubled = f.doubled) : InCustody held all q f' r :=
  ⟨by rw [hq, hheld, hdoubled]; exact h.places, h.spares⟩

variable [Channel σ]

/-- **A step of the feeder** keeps the superpages in custody, unless the feeder fails. -/
theorem feed_step (ha : Channel.Accounts held) (h : InCustody held all p f r)
    (hgood : ∀ e, (f.step plan p).1 ≠ .done (some e)) :
    InCustody held all (f.step plan p).2 (f.step plan p).1 r := by
  rcases hstep : f.step plan p with ⟨f', q⟩
  rw [hstep] at hgood
  have hcount := List.perm_iff_count.1 h.places
  cases Feeder.moves hstep with
  | ends | goes | pauses | waits | rests => exact h.feeder_goes rfl rfl rfl
  | fills =>
    have hheld := ha.fill p.channel p.memory
    refine h.feeder_goes ?_ rfl rfl
    rw [Pipeline.custody, Pipeline.fill_eq, hheld, Pipeline.custody]
  | takes _ hpop =>
    have hfree := Ring.toList_pop hpop
    refine ⟨List.perm_iff_count.2 fun x => ?_, h.spares⟩
    have := hcount x
    simp only [Pipeline.custody, hfree, Feeder.held, Feeder.doubled, List.count_append,
      List.count_cons, List.count_nil] at this ⊢
    omega
  | pushes hpush =>
    have hheld := ha.push_ok hpush
    refine ⟨List.perm_iff_count.2 fun x => ?_, h.spares⟩
    have := hcount x
    simp only [Pipeline.custody, hheld, Feeder.held, Feeder.doubled, List.count_append,
      List.count_cons, List.count_nil] at this ⊢
    omega
  | crowded _ hroom =>
    have hready := Ring.offer_eq_false hroom
    refine h.feeder_goes ?_ rfl rfl
    rw [Pipeline.custody, hready, Pipeline.custody]
  | offers _ _ hroom =>
    have hready := Ring.offer_eq_true hroom
    refine ⟨List.perm_iff_count.2 fun x => ?_, h.spares⟩
    have := hcount x
    simp only [Pipeline.custody, hready, Feeder.held, Feeder.doubled, List.count_append,
      List.count_cons, List.count_nil] at this ⊢
    omega
  | collects hpop =>
    -- the superpage that leaves the channel is the one that was doubled
    have hheld := List.perm_iff_count.1 (ha.pop_some hpop)
    refine ⟨List.perm_iff_count.2 fun x => ?_, h.spares⟩
    have := hcount x
    have := hheld x
    simp only [Pipeline.custody, Feeder.held, Feeder.doubled, List.count_append,
      List.count_cons, List.count_nil] at *
    omega
  | refused | stuck | differs => exact absurd rfl (hgood _)

end InCustody

/-! ### Runs -/

namespace Machine

variable [Channel σ] {m : Machine σ}

/-- A feeder that has failed stays where it is. -/
theorem feeder_stays {failure? : Option Error} (turns : List Turn) : ∀ {m : Machine σ},
    m.feeder = .done failure? → (m.run plan turns).feeder = .done failure? := by
  induction turns with
  | nil => exact fun h => h
  | cons t turns ih =>
    rintro ⟨p, f, r⟩ rfl
    refine ih ?_
    cases t <;> rfl

/-- **In any run** in which the feeder has not failed, the superpages are in custody. -/
theorem inCustody_run (ha : Channel.Accounts held) (plan : Plan) (turns : List Turn) :
    ∀ {m : Machine σ}, InCustody held all m.shared m.feeder m.reader →
      (∀ e, (m.run plan turns).feeder ≠ .done (some e)) →
      InCustody held all (m.run plan turns).shared (m.run plan turns).feeder
        (m.run plan turns).reader := by
  induction turns with
  | nil => exact fun h _ => h
  | cons t turns ih =>
    rintro ⟨p, f, r⟩ h hgood
    refine ih ?_ hgood
    cases t with
    | feed =>
      refine h.feed_step ha fun e he => hgood e ?_
      exact feeder_stays (m := ⟨(f.step plan p).2, (f.step plan p).1, r⟩) turns he
    | read => exact h.read_step
    | stop => exact ⟨h.places, h.spares⟩

end Machine

end DmaReadout
