import DmaReadout.Pipeline.Basic

/-! # The end of a run

* `Pipeline.drain`: superpages that the channel still completes go back to the free queue.
* `Pipeline.popAll`: what a stopped channel gives back, until it gives nothing: `popsAll_popAll`.
* `Pipeline.shutdown`: stops the channel and collects all superpages. -/

namespace DmaReadout

/-- What a shutdown found. -/
structure Reclaimed where
  /-- The pages that the channel had received and nobody read. -/
  pages : Nat
  /-- The offsets on the free queue, in rising order. -/
  offsets : List Nat
  deriving Repr, DecidableEq

namespace Pipeline

variable {σ : Type}

/-- The pages that a superpage has received. -/
def receivedPages (plan : Plan) (s : Superpage) : Nat :=
  s.received / plan.layout.pageSize

/-- Takes filled superpages from the running channel, in at most `rounds` looks at it. The number
of their pages is added to `pages`. -/
def drain [Channel σ] (plan : Plan) : (rounds pages : Nat) → Pipeline σ →
    Except Error Nat × Pipeline σ
  | 0, pages, p => (.ok pages, p)
  | rounds + 1, pages, p =>
    if Channel.queued p.channel = 0 then (.ok pages, p)
    else
      let p := p.fill
      if (Channel.head? p.channel).any Superpage.isFilled then
        match p.onChannel Channel.pop with
        | (none, p) => drain plan rounds pages p
        | (some s, p) =>
          match p.offerFree s.offset with
          | (false, p) => (.error (.queue (.draining s.offset)), p)
          | (true, p) => drain plan rounds (pages + receivedPages plan s) p
      else drain plan rounds pages p

/-- Puts offsets on the free queue. Those that do not fit are lost; the last of them is the
failure. -/
def returnAll (fault : Nat → QueueFault) (free : Ring Nat) : List Nat →
    Except Error Unit × Ring Nat
  | [] => (.ok (), free)
  | offset :: offsets =>
    match free.offer offset with
    | (true, free) => returnAll fault free offsets
    | (false, free) =>
      match returnAll fault free offsets with
      | (.ok _, free) => (.error (.queue (fault offset)), free)
      | (.error e, free) => (.error e, free)

/-- The superpages that a channel gives back in at most `fuel` pops, behind those it gave before; and
the channel after that. -/
def popAll [Channel σ] : (fuel : Nat) → Array Superpage → σ → Array Superpage × σ
  | 0, popped, channel => (popped, channel)
  | fuel + 1, popped, channel =>
    match Channel.pop channel with
    | (none, channel) => (popped, channel)
    | (some s, channel) => popAll fuel (popped.push s) channel

/-- Pops are made until the channel gives none, if there is fuel for one more than it gives. -/
theorem popAll_eq [Channel σ] {c c' : σ} {ss : List Superpage} (h : PopsAll Channel.pop c ss c') :
    ∀ {fuel : Nat} (popped : Array Superpage), ss.length < fuel →
      popAll fuel popped c = (popped ++ ss.toArray, c') := by
  induction h with
  | ends h =>
    intro fuel popped hfuel
    obtain ⟨fuel, rfl⟩ := Nat.exists_eq_succ_of_ne_zero (Nat.ne_of_gt hfuel)
    rw [popAll, h]
    simp
  | gives h _ ih =>
    intro fuel popped hfuel
    obtain ⟨fuel, rfl⟩ := Nat.exists_eq_succ_of_ne_zero (Nat.ne_of_gt (Nat.zero_lt_of_lt hfuel))
    rw [popAll, h]
    dsimp only
    rw [ih (popped.push _) (Nat.lt_of_succ_lt_succ hfuel)]
    simp

/-- A stopped channel is popped until it gives none. -/
theorem popsAll_popAll [Channel σ] (c : σ) : PopsAll Channel.pop (Channel.stop c).2
    (popAll (Channel.held (Channel.stop c).2 + 1) #[] (Channel.stop c).2).1.toList
    (popAll (Channel.held (Channel.stop c).2 + 1) #[] (Channel.stop c).2).2 := by
  obtain ⟨ss, c', hall, hle⟩ := Channel.pops_all c
  rw [popAll_eq hall #[] (Nat.lt_succ_of_le hle)]
  simpa using hall

/-- Stops the channel and collects all superpages, of which the channel gets `rounds` looks to
complete some. The channel is stopped whatever fails; the first failure counts. -/
def shutdown [Channel σ] (plan : Plan) (rounds : Nat) (p : Pipeline σ) :
    Except Error Reclaimed × Pipeline σ :=
  match p.drain plan rounds 0 with
  | (drained, p) =>
    match p.ready.drain with
    | (leftover, ready) =>
      match returnAll .reclaimingReadout p.free leftover with
      | (returned, free) =>
        match Channel.stop p.channel with
        | (stopped, channel) =>
          match popAll (Channel.held channel + 1) #[] channel with
          | (popped, channel) =>
            match returnAll .reclaimingChannel free (popped.toList.map (·.offset)) with
            | (reclaimed, free) =>
              match free.drain with
              | (offsets, free) =>
                let result := do
                  let pages ← drained
                  returned
                  stopped
                  reclaimed
                  return {
                    pages := pages + (popped.toList.map (receivedPages plan)).foldr (· + ·) 0
                    offsets := offsets.mergeSort }
                (result, { p with channel, free, ready })

end Pipeline

end DmaReadout
