import DmaReadout.Proofs.Calls

/-! # What comes back at the end

A shutdown fails if the channel refuses to stop, and if a superpage that comes back finds no room on the
free queue. Both are told by what came back: how many superpages looks at the running channel took, and
how many the stopped channel gave.

* `TakesBack`, `Pipeline.takesBack`: all looks at the running channel.
* `Pipeline.drained`, `returned`, `halted`, `givenBack`, `reclaimed`: the stages of a shutdown.
* `Ending`: what comes back, with the failures that follow from it.
* `Ends`, `Pipeline.ends`: the shutdown. -/

namespace DmaReadout

/-! ### Looks at the running channel -/

/-- Looks at the running channel that took superpages back: each of them went to the free queue, but for
the last one if it did not fit there; then this is the failure. -/
structure TakesBack {σ : Type} (plan : Plan) (pages : Nat) (p : Pipeline (Traced σ))
    (taken : List Superpage) (r : Except Error Nat) (q : Pipeline (Traced σ)) : Prop where
  calls : ∃ looks, q.channel.calls = p.channel.calls ++ looks ∧
    (∀ call ∈ looks, call.looks = true) ∧ looks.filterMap Call.given? = taken
  failure : failureOf r =
    overflow .draining p.free.capacity p.free.toList.length (taken.map (·.offset))
  free : q.free.toList = (p.free.toList ++ taken.map (·.offset)).take p.free.capacity
  capacity : q.free.capacity = p.free.capacity
  ready : q.ready = p.ready
  dump : q.dump? = p.dump?
  pages : ∀ n, r = .ok n → n = pages + (taken.map (Pipeline.receivedPages plan)).sum

namespace TakesBack

variable {σ : Type} {plan : Plan} {pages : Nat} {p p' q : Pipeline (Traced σ)}
  {taken : List Superpage} {r : Except Error Nat}

/-- Looks that took nothing back may come before others. -/
theorem prepend (h : TakesBack plan pages p' taken r q) {looks : List Call}
    (hcalls : p'.channel.calls = p.channel.calls ++ looks) (hlooks : ∀ call ∈ looks, call.looks = true)
    (hnone : looks.filterMap Call.given? = []) (hfree : p'.free = p.free) (hready : p'.ready = p.ready)
    (hdump : p'.dump? = p.dump?) : TakesBack plan pages p taken r q := by
  obtain ⟨more, hmore, hmoreLooks, hgiven⟩ := h.calls
  refine ⟨⟨looks ++ more, ?_, fun call hcall => ?_, ?_⟩, ?_, ?_, ?_, h.ready.trans hready,
    h.dump.trans hdump, h.pages⟩
  · rw [hmore, hcalls, List.append_assoc]
  · exact (List.mem_append.1 hcall).elim (hlooks call) (hmoreLooks call)
  · rw [List.filterMap_append, hnone, hgiven, List.nil_append]
  · rw [h.failure, hfree]
  · rw [h.free, hfree]
  · rw [h.capacity, hfree]

/-- A look that took a superpage back, for which there was room, may come before others. -/
theorem prepend_taken {s : Superpage}
    (h : TakesBack plan (pages + Pipeline.receivedPages plan s) p' taken r q)
    (hcalls : p'.channel.calls = p.channel.calls ++ [.fill, .pop (some s)])
    (hroom : p.free.toList.length < p.free.capacity)
    (hfree : p'.free.toList = p.free.toList ++ [s.offset]) (hcapacity : p'.free.capacity = p.free.capacity)
    (hready : p'.ready = p.ready) (hdump : p'.dump? = p.dump?) :
    TakesBack plan pages p (s :: taken) r q := by
  obtain ⟨more, hmore, hlooks, hgiven⟩ := h.calls
  refine ⟨⟨.fill :: .pop (some s) :: more, ?_, ?_, ?_⟩, ?_, ?_, h.capacity.trans hcapacity,
    h.ready.trans hready, h.dump.trans hdump, fun n hn => ?_⟩
  · rw [hmore, hcalls, List.append_assoc]
    rfl
  · exact List.forall_mem_cons.2 ⟨rfl, List.forall_mem_cons.2 ⟨rfl, hlooks⟩⟩
  · exact congrArg (s :: ·) hgiven
  · rw [h.failure, hfree, hcapacity, List.map_cons, overflow_cons_of_room hroom, List.length_append,
      List.length_singleton]
  · rw [h.free, hfree, hcapacity, List.map_cons, List.append_assoc, List.singleton_append]
  · rw [h.pages n hn, List.map_cons, List.sum_cons, Nat.add_assoc]

/-- What was taken back is on the free queue if nothing failed. -/
theorem free_of_ok (h : TakesBack plan pages p taken r q) {n : Nat} (hr : r = .ok n) :
    q.free.toList = p.free.toList ++ taken.map (·.offset) := by
  have hnone := h.failure
  rw [hr] at hnone
  have hroom := (overflow_eq_none_iff p.free.length_le_capacity).1 hnone.symm
  rw [h.free, List.take_of_length_le (by rwa [List.length_append])]

theorem length_free (h : TakesBack plan pages p taken r q) :
    q.free.toList.length = min (p.free.toList.length + taken.length) p.free.capacity := by
  rw [h.free, List.length_take, List.length_append, List.length_map, Nat.min_comm]

end TakesBack

section Shutdown

variable {σ : Type} [Channel σ]

/-- **All looks** at the running channel. -/
theorem Pipeline.takesBack (plan : Plan) (rounds : Nat) : ∀ (pages : Nat) (p : Pipeline (Traced σ)),
    ∃ taken, TakesBack plan pages p taken (p.drain plan rounds pages).1 (p.drain plan rounds pages).2 := by
  have hends : ∀ (pages : Nat) (p : Pipeline (Traced σ)), TakesBack plan pages p [] (.ok pages) p := by
    intro pages p
    have hle := p.free.length_le_capacity
    refine ⟨⟨[], (List.append_nil _).symm, nofun, rfl⟩, (overflow_of_room hle).symm, ?_, rfl, rfl, rfl,
      ?_⟩
    · rw [List.map_nil, List.append_nil, List.take_of_length_le hle]
    · rintro _ ⟨⟩
      rfl
  induction rounds with
  | zero => exact fun pages p => ⟨[], hends pages p⟩
  | succ rounds ih =>
    intro pages p
    have hpopped : (Channel.pop p.fill.channel).2.calls =
        p.channel.calls ++ [.fill, .pop (Channel.pop p.fill.channel).1] :=
      List.append_assoc _ _ _
    have hlooks := p.looks plan rounds pages
    generalize p.drain plan (rounds + 1) pages = x at hlooks ⊢
    cases hlooks with
    | ends => exact ⟨[], hends pages p⟩
    | nothing =>
      obtain ⟨taken, hrest⟩ := ih pages p.fill
      have hfilled : p.fill.channel.calls = p.channel.calls ++ [.fill] := rfl
      exact ⟨taken, hrest.prepend hfilled (by decide) rfl rfl rfl rfl⟩
    | withheld hpop =>
      obtain ⟨taken, hrest⟩ := ih pages { p.fill with channel := (Channel.pop p.fill.channel).2 }
      rw [hpop] at hpopped
      exact ⟨taken, hrest.prepend hpopped (by decide) rfl rfl rfl rfl⟩
    | @crowded s hpop hroom =>
      rw [hpop] at hpopped
      have hfull : p.free.capacity ≤ p.free.toList.length := by
        refine Nat.not_lt.1 fun hlt => ?_
        obtain ⟨_, hoffer, -⟩ := Ring.offer_of_room s.offset hlt
        rw [hoffer] at hroom
        cases hroom
      rw [Ring.offer_of_full s.offset hfull]
      have hfailure : failureOf (.error (.queue (.draining s.offset)) : Except Error Nat) =
          overflow .draining p.free.capacity p.free.toList.length [s.offset] := by
        rw [overflow_of_full hfull]
        rfl
      refine ⟨[s], ⟨[.fill, .pop (some s)], hpopped, by simp [Call.looks], rfl⟩, hfailure, ?_, rfl, rfl,
        rfl, nofun⟩
      rw [List.take_append_of_le_length hfull, List.take_of_length_le p.free.length_le_capacity]
    | @takes s hpop hroom =>
      rw [hpop] at hpopped
      have hlt : p.free.toList.length < p.free.capacity := by
        refine Nat.not_le.1 fun hfull => ?_
        rw [Ring.offer_of_full s.offset hfull] at hroom
        cases hroom
      obtain ⟨free, hoffer, hlist, hcapacity⟩ := Ring.offer_of_room s.offset hlt
      rw [hoffer]
      obtain ⟨taken, hrest⟩ := ih (pages + receivedPages plan s)
        { p.fill with channel := (Channel.pop p.fill.channel).2, free }
      exact ⟨s :: taken, hrest.prepend_taken hpopped hlt hlist hcapacity rfl rfl⟩

/-! ### The shutdown -/

namespace Pipeline

variable (plan : Plan) (rounds : Nat) (p : Pipeline σ)

/-- The first stage of a shutdown: filled superpages are taken from the running channel. -/
def drained : Except Error Nat × Pipeline σ :=
  p.drain plan rounds 0

/-- The second stage: superpages that are ready go to the free queue. -/
def returned : Except Error Unit × Ring Nat :=
  returnAll .reclaimingReadout (p.drained plan rounds).2.free (p.drained plan rounds).2.ready.toList

/-- The third stage: the channel is stopped. -/
def halted : Except Error Unit × σ :=
  Channel.stop (p.drained plan rounds).2.channel

/-- The superpages that the stopped channel gives back, and the channel after that. -/
def givenBack : Array Superpage × σ :=
  popAll (Channel.held (p.halted plan rounds).2 + 1) #[] (p.halted plan rounds).2

/-- The fourth stage: these superpages go to the free queue. -/
def reclaimed : Except Error Unit × Ring Nat :=
  returnAll .reclaimingChannel (p.returned plan rounds).2
    ((p.givenBack plan rounds).1.toList.map (·.offset))

theorem shutdown_eq : p.shutdown plan rounds =
    (do
      let pages ← (p.drained plan rounds).1
      (p.returned plan rounds).1
      (p.halted plan rounds).1
      (p.reclaimed plan rounds).1
      return {
        pages := pages +
          ((p.givenBack plan rounds).1.toList.map (receivedPages plan)).foldr (· + ·) 0
        offsets := (p.reclaimed plan rounds).2.toList.mergeSort },
    { (p.drained plan rounds).2 with
      channel := (p.givenBack plan rounds).2
      free := (p.reclaimed plan rounds).2.drain.2
      ready := (p.drained plan rounds).2.ready.drain.2 }) := rfl

/-- The stopped channel is popped until it gives nothing. -/
theorem popsAll_givenBack : PopsAll Channel.pop (p.halted plan rounds).2
    (p.givenBack plan rounds).1.toList (p.givenBack plan rounds).2 :=
  popsAll_popAll _

theorem failureOf_shutdown : failureOf (p.shutdown plan rounds).1 =
    [failureOf (p.drained plan rounds).1, failureOf (p.returned plan rounds).1,
      failureOf (p.halted plan rounds).1, failureOf (p.reclaimed plan rounds).1].findSome? id := by
  rw [shutdown_eq]
  cases (p.drained plan rounds).1 with
  | error e => rfl
  | ok pages =>
    cases (p.returned plan rounds).1 with
    | error e => rfl
    | ok _ =>
      cases (p.halted plan rounds).1 with
      | error e => rfl
      | ok _ => cases (p.reclaimed plan rounds).1 <;> rfl

/-- A shutdown that succeeds had no failure in its stages. -/
theorem shutdown_eq_ok {plan : Plan} {rounds : Nat} {p : Pipeline σ} {found : Reclaimed}
    (h : (p.shutdown plan rounds).1 = .ok found) :
    ∃ pages, (p.drained plan rounds).1 = .ok pages ∧ (p.returned plan rounds).1 = .ok () ∧
      (p.halted plan rounds).1 = .ok () ∧ (p.reclaimed plan rounds).1 = .ok () ∧
      found.pages = pages + ((p.givenBack plan rounds).1.toList.map (receivedPages plan)).sum ∧
      found.offsets = (p.reclaimed plan rounds).2.toList.mergeSort := by
  rw [shutdown_eq] at h
  obtain ⟨pages, hdrained, h⟩ := bind_eq_ok h
  obtain ⟨_, hreturned, h⟩ := bind_eq_ok h
  obtain ⟨_, hhalted, h⟩ := bind_eq_ok h
  obtain ⟨_, hreclaimed, h⟩ := bind_eq_ok h
  cases h
  exact ⟨pages, hdrained, hreturned, hhalted, hreclaimed, rfl, rfl⟩

end Pipeline

end Shutdown

/-- What comes back when a run ends, and what the channel answers when it is stopped. -/
structure Ending where
  /-- The superpages that looks at the running channel took back. -/
  drained : List Superpage
  /-- The refusal of the stop, if it was refused. -/
  refusal? : Option Error
  /-- The superpages that the stopped channel gave back. -/
  reclaimed : List Superpage

namespace Ending

variable {σ : Type}

/-- The calls at the end: the channel is stopped once, and then popped until it gives nothing. -/
def calls (x : Ending) : List Call :=
  .stop x.refusal? :: (x.reclaimed.map (Call.pop ∘ some) ++ [.pop none])

theorem mem_calls {x : Ending} {call : Call} (h : call ∈ x.calls) :
    call = .stop x.refusal? ∨ ∃ s?, call = .pop s? := by
  rcases List.mem_cons.1 h with hstop | h
  · exact Or.inl hstop
  rcases List.mem_append.1 h with h | h
  · obtain ⟨s, -, rfl⟩ := List.mem_map.1 h
    exact Or.inr ⟨some s, rfl⟩
  · exact Or.inr ⟨none, List.mem_singleton.1 h⟩

/-- The channel is stopped just once. -/
theorem countP_isStop_calls (x : Ending) : x.calls.countP Call.isStop = 1 := by
  have hpops : (x.reclaimed.map (Call.pop ∘ some)).countP Call.isStop = 0 := by
    refine List.countP_eq_zero.2 fun call hcall => ?_
    obtain ⟨s, -, rfl⟩ := List.mem_map.1 hcall
    exact Bool.false_ne_true
  rw [calls, List.countP_cons_of_pos rfl, List.countP_append, hpops]
  rfl

/-- The offsets that come to the free queue, behind those that are there. -/
def offsets (x : Ending) (p : Pipeline σ) : List Nat :=
  p.free.toList ++ x.drained.map (·.offset) ++ p.ready.toList ++ x.reclaimed.map (·.offset)

/-- The failures of the stages of a shutdown in their order. Three of them are that the free queue takes
no more: neither superpages that are drained, nor those that are ready, nor those that the stopped channel
gives back. -/
def failures (x : Ending) (p : Pipeline σ) : List (Option Error) :=
  let drained := p.free.toList.length + x.drained.length
  [overflow .draining p.free.capacity p.free.toList.length (x.drained.map (·.offset)),
    overflow .reclaimingReadout p.free.capacity drained p.ready.toList,
    x.refusal?,
    overflow .reclaimingChannel p.free.capacity (drained + p.ready.toList.length)
      (x.reclaimed.map (·.offset))]

end Ending

/-- A shutdown in which `x` came back. -/
structure Ends {σ : Type} (plan : Plan) (p : Pipeline (Traced σ)) (x : Ending)
    (r : Except Error Reclaimed) (q : Pipeline (Traced σ)) : Prop where
  calls : ∃ looks, q.channel.calls = p.channel.calls ++ (looks ++ x.calls) ∧
    (∀ call ∈ looks, call.looks = true) ∧ looks.filterMap Call.given? = x.drained
  failure : failureOf r = (x.failures p).findSome? id
  dump : q.dump? = p.dump?
  found : ∀ found, r = .ok found → found.offsets = (x.offsets p).mergeSort ∧
    found.pages = ((x.drained ++ x.reclaimed).map (Pipeline.receivedPages plan)).sum

section Stages

variable {σ : Type} [Channel σ] {plan : Plan} {rounds : Nat} {p : Pipeline (Traced σ)}
  {taken : List Superpage}

/-- What is ready goes to the free queue behind what was taken from the running channel. -/
theorem TakesBack.returned
    (h : TakesBack plan 0 p taken (p.drained plan rounds).1 (p.drained plan rounds).2) :
    failureOf (p.returned plan rounds).1 = overflow .reclaimingReadout p.free.capacity
        (p.free.toList.length + taken.length) p.ready.toList ∧
      (p.returned plan rounds).2.toList.length =
        min (p.free.toList.length + taken.length + p.ready.toList.length) p.free.capacity ∧
      (p.returned plan rounds).2.capacity = p.free.capacity := by
  obtain ⟨hfailure, hall, hsame⟩ := Pipeline.returnAll_eq .reclaimingReadout p.ready.toList
    (p.drained plan rounds).2.free
  rw [h.length_free, h.capacity, overflow_min] at hfailure
  rw [Pipeline.returned, h.ready]
  refine ⟨hfailure, ?_, hsame.trans h.capacity⟩
  rw [hall, List.length_take, List.length_append, h.length_free, h.capacity]
  omega

/-- What the stopped channel gives back goes behind that. -/
theorem TakesBack.reclaimed
    (h : TakesBack plan 0 p taken (p.drained plan rounds).1 (p.drained plan rounds).2) :
    failureOf (p.reclaimed plan rounds).1 = overflow .reclaimingChannel p.free.capacity
      (p.free.toList.length + taken.length + p.ready.toList.length)
        ((p.givenBack plan rounds).1.toList.map (·.offset)) := by
  obtain ⟨-, hlength, hcapacity⟩ := h.returned
  obtain ⟨hfailure, -⟩ := Pipeline.returnAll_eq .reclaimingChannel
    ((p.givenBack plan rounds).1.toList.map (·.offset)) (p.returned plan rounds).2
  rw [hlength, hcapacity, overflow_min] at hfailure
  exact hfailure

/-- **The shutdown.** -/
theorem Pipeline.ends (plan : Plan) (rounds : Nat) (p : Pipeline (Traced σ)) :
    ∃ x, Ends plan p x (p.shutdown plan rounds).1 (p.shutdown plan rounds).2 := by
  obtain ⟨taken, htakes : TakesBack plan 0 p taken (p.drained plan rounds).1 (p.drained plan rounds).2⟩ :=
    p.takesBack plan rounds 0
  obtain ⟨looks, hcalls, hlooks, hgiven⟩ := htakes.calls
  refine ⟨⟨taken, failureOf (p.halted plan rounds).1, (p.givenBack plan rounds).1.toList⟩,
    ⟨looks, ?_, hlooks, hgiven⟩, ?_, htakes.dump, fun found hfound => ?_⟩
  · have hstop : (p.halted plan rounds).2.calls =
        p.channel.calls ++ looks ++ [.stop (failureOf (p.halted plan rounds).1)] :=
      congrArg (· ++ [Call.stop _]) hcalls
    have hpops := Traced.calls_of_popsAll (popsAll_givenBack plan rounds p)
    rw [hstop, List.append_assoc, List.append_assoc, List.singleton_append] at hpops
    exact hpops
  · rw [failureOf_shutdown, htakes.failure, htakes.returned.1, htakes.reclaimed]
    rfl
  · obtain ⟨pages, hdrained, hreturned, -, hreclaimed, hpages, hoffsets⟩ := shutdown_eq_ok hfound
    have hall : (p.reclaimed plan rounds).2.toList =
        (p.returned plan rounds).2.toList ++ (p.givenBack plan rounds).1.toList.map (·.offset) :=
      toList_returnAll hreclaimed
    have hready : (p.returned plan rounds).2.toList =
        (p.drained plan rounds).2.free.toList ++ (p.drained plan rounds).2.ready.toList :=
      toList_returnAll hreturned
    refine ⟨?_, ?_⟩
    · rw [hoffsets, hall, hready, htakes.free_of_ok hdrained, htakes.ready]
      rfl
    · rw [hpages, htakes.pages pages hdrained, List.map_append, List.sum_append, Nat.zero_add]

end Stages

end DmaReadout
