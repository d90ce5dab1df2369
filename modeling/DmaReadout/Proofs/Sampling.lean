import DmaReadout.Random
import Mathlib.Algebra.Ring.Nat

/-! # Numbers of a range

What is drawn from a source of random words lies in the range that it is drawn for.

* `LawfulRandomSource`: the range law of a generator.
* `Source.below_lt`: numbers below a bound.
* `Source.between?_of_lt`, `Source.between?_of_le`: numbers between two ends. -/

namespace DmaReadout

/-- **The range law.** A generator gives a number of every range that holds one, and of no other. -/
class LawfulRandomSource (ρ : Type) [RandomSource ρ] : Prop where
  between?_of_lt (s : ρ) {lo hi : Nat} : hi < lo → RandomSource.between? s lo hi = none
  between?_of_le (s : ρ) {lo hi : Nat} : lo ≤ hi → hi < 2 ^ 64 →
    ∃ n s', RandomSource.between? s lo hi = some (n, s') ∧ lo ≤ n ∧ n ≤ hi

namespace Source

/-- **A number below a bound.** The upper half of the product of a word and the bound is below the bound; it
may grow by one only if the lower half is great, and then it is not the last number below the bound. -/
theorem below_lt (s : Source) {bound : Nat} (hpos : 0 < bound) (hle : bound ≤ 2 ^ 64) :
    (s.below bound).1 < bound := by
  unfold below
  generalize s.next = x
  obtain ⟨w, s'⟩ := x
  have hw : w.toNat ≤ 2 ^ 64 - 1 := Nat.le_sub_one_of_lt w.toNat_lt
  have hproduct : w.toNat * bound ≤ (2 ^ 64 - 1) * bound := Nat.mul_le_mul_right bound hw
  have hhalves := Nat.div_add_mod (w.toNat * bound) (2 ^ 64)
  have hhigh : (w.toNat * bound) >>> 64 = w.toNat * bound / 2 ^ 64 := Nat.shiftRight_eq_div_pow _ _
  dsimp only
  rw [hhigh, show (1 : Nat) <<< 64 = 2 ^ 64 from rfl]
  generalize w.toNat * bound = product at *
  split
  · split
    · show product / 2 ^ 64 + 1 < bound
      omega
    · show product / 2 ^ 64 < bound
      omega
  · show product / 2 ^ 64 < bound
    omega

variable (s : Source) {lo hi : Nat}

theorem between?_of_lt (h : hi < lo) : s.between? lo hi = none :=
  if_pos h

/-- **A number between two ends** that are not the wrong way round. -/
theorem between?_of_le (h : lo ≤ hi) (hhi : hi < 2 ^ 64) :
    ∃ n s', s.between? lo hi = some (n, s') ∧ lo ≤ n ∧ n ≤ hi := by
  have hfull : (1 : Nat) <<< 64 = 2 ^ 64 := rfl
  unfold between?
  rw [if_neg (Nat.not_lt.2 h)]
  split
  · rename_i hall
    have hw := s.next.1.toNat_lt
    exact ⟨s.next.1.toNat, s.next.2, rfl, by omega, by omega⟩
  · have hbelow := s.below_lt (show 0 < hi - lo + 1 by omega) (by omega)
    exact ⟨lo + (s.below (hi - lo + 1)).1, (s.below (hi - lo + 1)).2, rfl, by omega, by omega⟩

instance : LawfulRandomSource Source where
  between?_of_lt s _ _ h := s.between?_of_lt h
  between?_of_le s _ _ h hhi := s.between?_of_le h hhi

end Source

end DmaReadout
