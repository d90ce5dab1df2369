import DmaReadout.Channel.Bar
import DmaReadout.Fifo
import DmaReadout.Layout
import DmaReadout.Memory

/-! # Channels

* `PopsAll`: pops until nothing is given back.
* `Channel`: what every channel of a card can do. Superpages are pushed, filled in the order of
  pushing, and popped. -/

namespace DmaReadout

/-- Pops that give superpages back, one after the other, and then one that gives none. -/
inductive PopsAll {σ : Type} (pop : σ → Option Superpage × σ) : σ → List Superpage → σ → Prop where
  | ends {c c' : σ} (h : pop c = (none, c')) : PopsAll pop c [] c'
  | gives {c d c' : σ} {s : Superpage} {ss : List Superpage} (h : pop c = (some s, d))
      (hrest : PopsAll pop d ss c') : PopsAll pop c (s :: ss) c'

namespace PopsAll

variable {σ τ : Type} {pop : σ → Option Superpage × σ}

/-- Pops that take the oldest value of a queue empty it. -/
theorem of_queue (queue : σ → Fifo Superpage) (off : σ → Prop)
    (hnone : ∀ c, off c → (queue c).head? = none → pop c = (none, c))
    (hsome : ∀ c s, off c → (queue c).head? = some s →
      ∃ d, pop c = (some s, d) ∧ off d ∧ queue d = (queue c).tail) :
    ∀ {ss : List Superpage} {c : σ}, off c → (queue c).toList = ss →
      ∃ c', PopsAll pop c ss c' ∧ off c' ∧ (queue c').toList = []
  | [], c, hc, hnil => by
    refine ⟨c, .ends (hnone c hc ?_), hc, hnil⟩
    rw [← Fifo.head?_toList, hnil]
    rfl
  | s :: ss, c, hc, hcons => by
    obtain ⟨d, hpop, hd, hqueue⟩ := hsome c s hc (by
      rw [← Fifo.head?_toList, hcons]
      rfl)
    have hlist : (queue d).toList = ss := by
      rw [hqueue, Fifo.toList_tail, hcons]
      rfl
    obtain ⟨c', hrest, hend⟩ := of_queue queue off hnone hsome hd hlist
    exact ⟨c', .gives hpop hrest, hend⟩

/-- Channels within others are popped alike. -/
theorem map {pop' : τ → Option Superpage × τ} (f : σ → τ)
    (hf : ∀ c, pop' (f c) = ((pop c).1, f (pop c).2)) {c c' : σ} {ss : List Superpage}
    (h : PopsAll pop c ss c') : PopsAll pop' (f c) ss (f c') := by
  induction h with
  | ends h => exact .ends (by rw [hf, h])
  | gives h _ ih => exact .gives (by rw [hf, h]) ih

end PopsAll

/-- The channels with states in `σ`. An operation that can fail gives the state that it leaves behind
in both cases. -/
class Channel (σ : Type) where
  /-- The family of the card. -/
  family : σ → Family
  /-- Starts the transfer. -/
  start : σ → Except Error Unit × σ
  /-- Stops the transfer; superpages that are still queued keep what they received. -/
  stop : σ → Except Error Unit × σ
  /-- Resets the channel. -/
  reset : σ → Except Error Unit × σ
  /-- Lets the card make progress on the queued superpages. -/
  fill : σ → Memory → σ × Memory
  /-- The number of superpages that can still be pushed. -/
  available : σ → Nat
  /-- The number of queued superpages. -/
  queued : σ → Nat
  /-- The oldest queued superpage. -/
  head? : σ → Option Superpage
  /-- Queues a superpage. -/
  push : σ → Superpage → Except Error Unit × σ
  /-- Takes the oldest superpage back, if it is complete. -/
  pop : σ → Option Superpage × σ
  /-- The registers of the card. -/
  bar : σ → Bar
  /-- Replaces the registers of the card. -/
  withBar : σ → Bar → σ
  /-- A number of superpages that a channel never exceeds when it gives back all it has. -/
  held : σ → Nat
  /-- A stopped channel gives superpages back one after the other, and comes to an end with it. -/
  pops_all : ∀ c, ∃ ss c', PopsAll pop (stop c).2 ss c' ∧ ss.length ≤ held (stop c).2

namespace Channel

/-- A step of one of two channels. -/
def leftStep {ρ σ τ : Type} (r : ρ × σ) : ρ × (σ ⊕ τ) := (r.1, .inl r.2)

/-- A step of the other of two channels. -/
def rightStep {ρ σ τ : Type} (r : ρ × τ) : ρ × (σ ⊕ τ) := (r.1, .inr r.2)

instance {σ τ : Type} [Channel σ] [Channel τ] : Channel (σ ⊕ τ) where
  family := Sum.elim family family
  start := Sum.elim (fun c => leftStep (start c)) fun c => rightStep (start c)
  stop := Sum.elim (fun c => leftStep (stop c)) fun c => rightStep (stop c)
  reset := Sum.elim (fun c => leftStep (reset c)) fun c => rightStep (reset c)
  fill c m :=
    match c with
    | .inl c => let (c, m) := fill c m; (.inl c, m)
    | .inr c => let (c, m) := fill c m; (.inr c, m)
  available := Sum.elim available available
  queued := Sum.elim queued queued
  head? := Sum.elim head? head?
  push c s :=
    match c with
    | .inl c => leftStep (push c s)
    | .inr c => rightStep (push c s)
  pop := Sum.elim (fun c => leftStep (pop c)) fun c => rightStep (pop c)
  bar := Sum.elim bar bar
  withBar c b := c.elim (fun c => .inl (withBar c b)) fun c => .inr (withBar c b)
  held := Sum.elim held held
  pops_all c := by
    cases c with
    | inl c =>
      obtain ⟨ss, c', hall, hle⟩ := pops_all c
      exact ⟨ss, .inl c', hall.map Sum.inl fun _ => rfl, hle⟩
    | inr c =>
      obtain ⟨ss, c', hall, hle⟩ := pops_all c
      exact ⟨ss, .inr c', hall.map Sum.inr fun _ => rfl, hle⟩

end Channel

end DmaReadout
