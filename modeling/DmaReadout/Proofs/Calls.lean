import DmaReadout.Channel.Scripted
import DmaReadout.Proofs.Reclaim
import DmaReadout.Proofs.Rounds

/-! # The calls made to a channel

A channel together with the calls made to it is a channel again. What is done to the channel in a run can
therefore be read off what its calls are: the tasks move superpages, a look at the running channel fills it
and may take a superpage back, and in the end the channel is stopped and popped until it gives nothing.

* `Call`, `Traced`: a call, and a channel together with the calls made to it.
* `Machine.Reaches.moved`: the calls of the two tasks.
* `Pipeline.Looks`: everything that one look at the running channel can do. -/

namespace DmaReadout

/-! ### Calls -/

/-- A call that changes a channel, with what came of it: the refusal if it was refused, the superpage if
one was given back. -/
inductive Call where
  | start (refusal? : Option Error)
  | stop (refusal? : Option Error)
  | reset (refusal? : Option Error)
  | fill
  | push (refusal? : Option Error)
  | pop (given? : Option Superpage)
  deriving Repr, DecidableEq

namespace Call

/-- The calls by which superpages move. -/
def moves : Call → Bool
  | fill | push _ | pop _ => true
  | _ => false

/-- The calls of a look at the running channel. -/
def looks : Call → Bool
  | fill | pop _ => true
  | _ => false

/-- The calls that end the transfer. -/
def isStop : Call → Bool
  | stop _ => true
  | _ => false

/-- What the channel refused. -/
def refusal? : Call → Option Error
  | start r? | stop r? | reset r? | push r? => r?
  | fill | pop _ => none

/-- What the channel gave back. -/
def given? : Call → Option Superpage
  | pop s? => s?
  | _ => none

theorem refusal?_of_looks {x : Call} (h : x.looks = true) : x.refusal? = none := by
  cases x <;> first | rfl | cases h

theorem moves_of_looks {x : Call} (h : x.looks = true) : x.moves = true := by
  cases x <;> first | rfl | cases h

theorem not_isStop_of_moves {x : Call} (h : x.moves = true) : x.isStop = false := by
  cases x <;> first | rfl | cases h

end Call

/-- A channel together with the calls made to it, the last one at the end. -/
structure Traced (σ : Type) where
  channel : σ
  calls : List Call := []

namespace Traced

variable {σ : Type}

/-- What a call gave, and the channel after it. -/
def after {ρ : Type} (c : Traced σ) (call : ρ → Call) (r : ρ × σ) : ρ × Traced σ :=
  (r.1, ⟨r.2, c.calls ++ [call r.1]⟩)

/-- The pops of a channel are those of the channel with its calls. -/
theorem popsAll {pop : σ → Option Superpage × σ} {c c' : σ} {ss : List Superpage}
    (h : PopsAll pop c ss c') : ∀ calls, PopsAll (fun c : Traced σ => c.after .pop (pop c.channel))
      ⟨c, calls⟩ ss ⟨c', calls ++ (ss.map (Call.pop ∘ some) ++ [.pop none])⟩ := by
  induction h with
  | ends h => exact fun calls => .ends (by rw [after, h]; rfl)
  | @gives _ _ _ s _ h _ ih =>
    intro calls
    refine .gives (by rw [after, h]) ?_
    have hrest := ih (calls ++ [.pop (some s)])
    rw [List.append_assoc] at hrest
    exact hrest

instance [Channel σ] : Channel (Traced σ) where
  family c := Channel.family c.channel
  start c := c.after (.start ∘ failureOf) (Channel.start c.channel)
  stop c := c.after (.stop ∘ failureOf) (Channel.stop c.channel)
  reset c := c.after (.reset ∘ failureOf) (Channel.reset c.channel)
  fill c m := (⟨(Channel.fill c.channel m).1, c.calls ++ [.fill]⟩, (Channel.fill c.channel m).2)
  available c := Channel.available c.channel
  queued c := Channel.queued c.channel
  head? c := Channel.head? c.channel
  push c s := c.after (.push ∘ failureOf) (Channel.push c.channel s)
  pop c := c.after .pop (Channel.pop c.channel)
  bar c := Channel.bar c.channel
  withBar c b := { c with channel := Channel.withBar c.channel b }
  held c := Channel.held c.channel
  pops_all c := by
    obtain ⟨ss, c', hall, hle⟩ := Channel.pops_all c.channel
    exact ⟨ss, _, popsAll hall _, hle⟩

/-- The calls of pops until nothing is given back. -/
theorem calls_of_popsAll [Channel σ] {c c' : Traced σ} {ss : List Superpage}
    (h : PopsAll Channel.pop c ss c') :
    c'.calls = c.calls ++ (ss.map (Call.pop ∘ some) ++ [.pop none]) := by
  induction h with
  | @ends c _ h =>
    obtain ⟨hgiven, rfl⟩ := Prod.ext_iff.1 h
    exact congrArg (c.calls ++ [Call.pop ·]) hgiven
  | @gives c _ _ s _ h _ ih =>
    obtain ⟨hgiven, rfl⟩ := Prod.ext_iff.1 h
    have hcalls : (Channel.pop c).2.calls = c.calls ++ [.pop (some s)] :=
      congrArg (c.calls ++ [Call.pop ·]) hgiven
    rw [ih, hcalls, List.append_assoc]
    rfl

/-- A channel with further calls, all of one kind. -/
def Adds (kind : Call → Prop) (c c' : Traced σ) : Prop :=
  ∃ more, c'.calls = c.calls ++ more ∧ ∀ x ∈ more, kind x

namespace Adds

variable {kind kind' : Call → Prop} {c c₁ c₂ : Traced σ}

theorem refl (kind : Call → Prop) (c : Traced σ) : Adds kind c c :=
  ⟨[], (List.append_nil _).symm, nofun⟩

theorem one (call : Call) (h : kind call) (hcalls : c₁.calls = c.calls ++ [call]) : Adds kind c c₁ :=
  ⟨[call], hcalls, fun _ hx => List.mem_singleton.1 hx ▸ h⟩

theorem trans (h : Adds kind c c₁) (h' : Adds kind c₁ c₂) : Adds kind c c₂ := by
  obtain ⟨more, hcalls, hmore⟩ := h
  obtain ⟨more', hcalls', hmore'⟩ := h'
  refine ⟨more ++ more', by rw [hcalls', hcalls, List.append_assoc], fun x hx => ?_⟩
  rcases List.mem_append.1 hx with hx | hx
  · exact hmore x hx
  · exact hmore' x hx

theorem mono (h : Adds kind c c₁) (hkind : ∀ x, kind x → kind' x) : Adds kind' c c₁ := by
  obtain ⟨more, hcalls, hmore⟩ := h
  exact ⟨more, hcalls, fun x hx => hkind x (hmore x hx)⟩

end Adds

end Traced

section Stages

variable {σ : Type} [Channel σ]

/-! ### The tasks -/

/-- Only a feeder that has a superpage to push pushes one, and it fails if the push is refused. -/
theorem Feeder.adds (plan : Plan) (p : Pipeline (Traced σ)) (f : Feeder) :
    Traced.Adds (fun x => x.looks = true ∨ ∃ offset r?, f = .submit offset ∧ x = .push r? ∧
      ∀ e, r? = some e → (f.step plan p).1 = .done (some e)) p.channel
        (f.step plan p).2.channel := by
  rcases hstep : f.step plan p with ⟨f', q⟩
  cases Feeder.moves hstep with
  | fills => exact .one .fill (Or.inl rfl) rfl
  | @pushes offset hpush =>
    refine .one _ (Or.inr ⟨offset, none, rfl, rfl, nofun⟩)
      (congrArg (fun r => p.channel.calls ++ [Call.push (failureOf r)]) hpush)
  | @refused offset e hpush =>
    refine .one _ (Or.inr ⟨offset, some e, rfl, rfl, ?_⟩)
      (congrArg (fun r => p.channel.calls ++ [Call.push (failureOf r)]) hpush)
    rintro _ ⟨⟩
    rfl
  | collects | stuck | differs => exact .one (.pop _) (Or.inl rfl) rfl
  | _ => exact .refl _ _

namespace Machine

/-- A machine that has moved superpages only, and whose feeder has ended with a push that was refused. -/
def Moved (c : Traced σ) (m : Machine (Traced σ)) : Prop :=
  Traced.Adds (fun x => x.moves = true ∧ ∀ e, x.refusal? = some e → m.feeder = .done (some e)) c
    m.shared.channel

theorem Moved.step {c : Traced σ} {m : Machine (Traced σ)} (h : Moved c m) (plan : Plan) (t : Turn) :
    Moved c (m.step plan t) := by
  obtain ⟨p, f, r⟩ := m
  cases t with
  | feed =>
    -- a feeder that has ended makes no further step, and one that has not has heard of no refusal
    refine Traced.Adds.trans (h.mono fun x hx => ⟨hx.1, fun e he => ?_⟩)
      ((Feeder.adds plan p f).mono fun x hx => ?_)
    · have hdone : f = .done (some e) := hx.2 e he
      show (f.step plan p).1 = .done (some e)
      rw [hdone]
      rfl
    · rcases hx with hlooks | ⟨offset, r?, rfl, rfl, hr⟩
      · refine ⟨Call.moves_of_looks hlooks, fun e he => ?_⟩
        rw [Call.refusal?_of_looks hlooks] at he
        cases he
      · exact ⟨rfl, hr⟩
  | read =>
    have hsame : (Machine.step plan ⟨p, f, r⟩ .read).shared.channel = p.channel :=
      Reader.channel_step plan p r
    unfold Moved
    rw [hsame]
    exact h
  | stop => exact h

theorem Reaches.moved {plan : Plan} {m m' : Machine (Traced σ)} (h : m.Reaches plan m') :
    Moved m.shared.channel m' := by
  obtain ⟨turns, rfl⟩ := h
  suffices hrun : ∀ {c : Traced σ} {m : Machine (Traced σ)}, Moved c m → Moved c (m.run plan turns) from
    hrun (Traced.Adds.refl _ _)
  induction turns with
  | nil => exact fun h => h
  | cons t turns ih => exact fun h => ih (h.step plan t)

end Machine

/-! ### Looks at the running channel -/

/-- **What one look at the running channel does**: it ends the looks, or there are further ones. -/
inductive Pipeline.Looks (plan : Plan) (p : Pipeline σ) (rounds pages : Nat) :
    Except Error Nat × Pipeline σ → Prop where
  | ends : Looks plan p rounds pages (.ok pages, p)
  | nothing : Looks plan p rounds pages (p.fill.drain plan rounds pages)
  | withheld (hpop : (Channel.pop p.fill.channel).1 = none) : Looks plan p rounds pages
    ({ p.fill with channel := (Channel.pop p.fill.channel).2 }.drain plan rounds pages)
  | crowded {s : Superpage} (hpop : (Channel.pop p.fill.channel).1 = some s)
    (hroom : (p.free.offer s.offset).1 = false) :
    Looks plan p rounds pages (.error (.queue (.draining s.offset)), { p.fill with
      channel := (Channel.pop p.fill.channel).2
      free := (p.free.offer s.offset).2 })
  | takes {s : Superpage} (hpop : (Channel.pop p.fill.channel).1 = some s)
    (hroom : (p.free.offer s.offset).1 = true) :
    Looks plan p rounds pages ({ p.fill with
      channel := (Channel.pop p.fill.channel).2
      free := (p.free.offer s.offset).2 }.drain plan rounds (pages + receivedPages plan s))

theorem Pipeline.looks (plan : Plan) (p : Pipeline σ) (rounds pages : Nat) :
    Looks plan p rounds pages (p.drain plan (rounds + 1) pages) := by
  rw [drain]
  split
  · exact .ends
  dsimp only
  split
  · rw [onChannel_eq]
    cases hpop : (Channel.pop p.fill.channel).1 with
    | none => exact .withheld hpop
    | some s =>
      dsimp only
      rw [offerFree_eq]
      cases hroom : (p.fill.free.offer s.offset).1 with
      | false => exact .crowded hpop hroom
      | true => exact .takes hpop hroom
  · exact .nothing

theorem Pipeline.drain_keeps (plan : Plan) (rounds : Nat) : ∀ (pages : Nat) (p : Pipeline σ),
    (p.drain plan rounds pages).2.stats = p.stats ∧
      (p.drain plan rounds pages).2.verifier? = p.verifier? := by
  induction rounds with
  | zero => exact fun _ _ => ⟨rfl, rfl⟩
  | succ rounds ih =>
    intro pages p
    have hlooks := p.looks plan rounds pages
    generalize p.drain plan (rounds + 1) pages = x at hlooks ⊢
    cases hlooks with
    | ends | crowded => exact ⟨rfl, rfl⟩
    | nothing | withheld | takes => exact ih _ _

/-- The shutdown counts no page that is read, and checks none. -/
theorem Pipeline.shutdown_keeps (plan : Plan) (rounds : Nat) (p : Pipeline σ) :
    (p.shutdown plan rounds).2.stats = p.stats ∧ (p.shutdown plan rounds).2.verifier? = p.verifier? :=
  drain_keeps plan rounds 0 p

end Stages

end DmaReadout
