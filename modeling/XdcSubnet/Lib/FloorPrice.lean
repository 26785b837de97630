import Mathlib.Tactic.Linarith
import Mathlib.Tactic.Ring

/-!
# Prices with a fee, rounded down, and their inverses

An amount `q` priced at `p` per `d` and rounded down, `q * p / d`, plus a fee of `f` per `B` of
that, also rounded down, is `gross p d f B q`.  The most a budget `b` pays for at that price is
`grossInverse p d f B b = b * d * B / (B + f) / p`.

* `gross` is monotone (`gross_mono`);
* what the inverse buys, fee included, stays within the budget (`gross_grossInverse_le`);
* a budget short of the gross of `q` buys less than `q` (`grossInverse_lt`);
* so `afford`, all of `q` when the budget covers its gross and what the budget buys otherwise,
  is at most `q`, is `q` exactly when the budget covers it, and what it gives or less stays
  within the budget (`afford_le`, `afford_eq_self_iff`, `gross_le_of_le_afford`);
* between a party paying the gross from one budget and a party paying the quantity itself
  from another, cutting `Q` case by case as the source does is taking the smaller of what each
  affords (`grossFirst_fst`, `grossSecond_fst`), and the second flag of the result marks the
  party with a budget short of its part (`grossFirst_snd`, `grossSecond_snd`).

With no fee (`f = 0`) these are facts about a plain rounded-down price and its inverse.
-/

namespace FloorPrice

/-- `q` at `p` per `d`, rounded down, plus a fee of `f` per `B` of that, rounded down. -/
def gross (p d f B q : ℕ) : ℕ := q * p / d + q * p / d * f / B

/-- The most a budget `b` pays for at `p` per `d` with a fee of `f` per `B`, rounded down. -/
def grossInverse (p d f B b : ℕ) : ℕ := b * d * B / (B + f) / p

variable {p d f B : ℕ}

theorem gross_mono {q q' : ℕ} (h : q ≤ q') : gross p d f B q ≤ gross p d f B q' := by
  have hnet : q * p / d ≤ q' * p / d := Nat.div_le_div_right (Nat.mul_le_mul_right p h)
  have hfee : q * p / d * f / B ≤ q' * p / d * f / B :=
    Nat.div_le_div_right (Nat.mul_le_mul_right f hnet)
  unfold gross
  omega

/-- An amount with its fee fits a budget when `a * (B + f) ≤ b * B`. -/
theorem add_fee_le {a b : ℕ} (hB : 0 < B) (h : a * (B + f) ≤ b * B) : a + a * f / B ≤ b := by
  have hab : a ≤ b := Nat.le_of_mul_le_mul_right (by nlinarith) hB
  have hfee : a * f ≤ B * (b - a) := by
    rw [Nat.mul_sub, Nat.mul_comm B b, Nat.mul_comm B a]
    have : a * (B + f) = a * B + a * f := Nat.mul_add a B f
    omega
  have := Nat.div_le_of_le_mul hfee
  omega

/-- A budget short of an amount with its fee is short by a whole `B`-th of the total. -/
theorem lt_mul_of_lt_add_fee {a b : ℕ} (hB : 0 < B) (h : b < a + a * f / B) :
    b * B < a * (B + f) := by
  have hfee := Nat.div_mul_le_self (a * f) B
  have hlt : (b + 1) * B ≤ (a + a * f / B) * B := Nat.mul_le_mul_right B h
  nlinarith

/-- **What the inverse buys stays within the budget**, fee and roundings included. -/
theorem gross_grossInverse_le (hd : 0 < d) (hB : 0 < B) (b : ℕ) :
    gross p d f B (grossInverse p d f B b) ≤ b := by
  set g := grossInverse p d f B b
  have hg : g * p ≤ b * d * B / (B + f) := Nat.div_mul_le_self _ _
  have hq : b * d * B / (B + f) * (B + f) ≤ b * d * B := Nat.div_mul_le_self _ _
  have ha : g * p / d * d ≤ g * p := Nat.div_mul_le_self _ _
  -- the rounded-down net amount, times the fee factor, is within the budget times `B`
  have hnet : g * p / d * (B + f) ≤ b * B := by
    refine Nat.le_of_mul_le_mul_right ?_ hd
    calc g * p / d * (B + f) * d = g * p / d * d * (B + f) := by ring
      _ ≤ g * p * (B + f) := Nat.mul_le_mul_right _ ha
      _ ≤ b * d * B / (B + f) * (B + f) := Nat.mul_le_mul_right _ hg
      _ ≤ b * d * B := hq
      _ = b * B * d := by ring
  exact add_fee_le hB hnet

/-- **A budget short of the gross of `q` buys less than `q`.** -/
theorem grossInverse_lt (hd : 0 < d) (hB : 0 < B) {b q : ℕ}
    (h : b < gross p d f B q) : grossInverse p d f B b < q := by
  set g := grossInverse p d f B b
  have hshort := lt_mul_of_lt_add_fee hB h
  have hg : g * p ≤ b * d * B / (B + f) := Nat.div_mul_le_self _ _
  have hq : b * d * B / (B + f) * (B + f) ≤ b * d * B := Nat.div_mul_le_self _ _
  have ha : q * p / d * d ≤ q * p := Nat.div_mul_le_self _ _
  have hlt : g * p * (B + f) < q * p * (B + f) :=
    calc g * p * (B + f) ≤ b * d * B / (B + f) * (B + f) := Nat.mul_le_mul_right _ hg
      _ ≤ b * d * B := hq
      _ = b * B * d := by ring
      _ < q * p / d * (B + f) * d := Nat.mul_lt_mul_of_pos_right hshort hd
      _ = q * p / d * d * (B + f) := by ring
      _ ≤ q * p * (B + f) := Nat.mul_le_mul_right _ ha
  exact Nat.lt_of_mul_lt_mul_right (Nat.lt_of_mul_lt_mul_right hlt)

/-- What a budget `b` affords of `q`: all of it when it covers its gross, else what it buys. -/
def afford (p d f B b q : ℕ) : ℕ := if gross p d f B q ≤ b then q else grossInverse p d f B b

section Afford

variable (hd : 0 < d) (hB : 0 < B)
include hd hB

theorem afford_le (b q : ℕ) : afford p d f B b q ≤ q := by
  unfold afford
  split_ifs with h
  · exact le_rfl
  · exact (grossInverse_lt hd hB (Nat.lt_of_not_le h)).le

theorem afford_eq_self_iff {b q : ℕ} : afford p d f B b q = q ↔ gross p d f B q ≤ b := by
  unfold afford
  split_ifs with h
  · exact iff_of_true rfl h
  · exact iff_of_false (grossInverse_lt hd hB (Nat.lt_of_not_le h)).ne h

/-- **What the budget affords, or less, stays within it.** -/
theorem gross_le_of_le_afford {b q q' : ℕ} (h : q' ≤ afford p d f B b q) :
    gross p d f B q' ≤ b := by
  unfold afford at h
  split_ifs at h with hq
  · exact (gross_mono h).trans hq
  · exact (gross_mono h).trans (gross_grossInverse_le hd hB b)

end Afford

/-! ### Two budgets

The cases below are those of a quantity `Q` settled between a party paying the gross `T` from
`b₁`, whose budget buys `inv`, and a party paying `Q` itself from `b₂`; the flag is set when the
cut comes from the party named second in the source's pair. -/

section TwoBudgets

variable {Q T inv b₁ b₂ : ℕ}

theorem grossFirst_fst (hinv : b₁ < T → inv < Q) :
    (if T ≤ b₁ ∧ Q ≤ b₂ then (Q, false) else if b₁ < T ∧ Q ≤ b₂ then (inv, false)
      else if T ≤ b₁ ∧ b₂ < Q then (b₂, true) else if inv ≤ b₂ then (inv, false)
      else (b₂, true)).1 = min (if T ≤ b₁ then Q else inv) (min b₂ Q) := by
  split_ifs <;> dsimp only <;> omega

theorem grossSecond_fst (hinv : b₂ < T → inv < Q) :
    (if Q ≤ b₁ ∧ T ≤ b₂ then (Q, false) else if b₁ < Q ∧ T ≤ b₂ then (b₁, false)
      else if Q ≤ b₁ ∧ b₂ < T then (inv, true) else if inv ≤ b₁ then (inv, true)
      else (b₁, false)).1 = min (min b₁ Q) (if T ≤ b₂ then Q else inv) := by
  split_ifs <;> dsimp only <;> omega

theorem grossFirst_snd
    (h : (if T ≤ b₁ ∧ Q ≤ b₂ then (Q, false) else if b₁ < T ∧ Q ≤ b₂ then (inv, false)
      else if T ≤ b₁ ∧ b₂ < Q then (b₂, true) else if inv ≤ b₂ then (inv, false)
      else (b₂, true)).2 = true) : b₂ < Q := by
  split_ifs at h <;> omega

theorem grossSecond_snd
    (h : (if Q ≤ b₁ ∧ T ≤ b₂ then (Q, false) else if b₁ < Q ∧ T ≤ b₂ then (b₁, false)
      else if Q ≤ b₁ ∧ b₂ < T then (inv, true) else if inv ≤ b₁ then (inv, true)
      else (b₁, false)).2 = true) : b₂ < T := by
  split_ifs at h <;> omega

/-- The smaller of one party's affordable amount and the other's budget is at most `Q`, and is
`Q` exactly when both cover their parts. -/
theorem min_afford_eq_self_iff {A : ℕ} {covers : Prop} (hA : A ≤ Q) (hAQ : A = Q ↔ covers) :
    min A (min b₂ Q) = Q ↔ covers ∧ Q ≤ b₂ := by
  rw [← hAQ]
  omega

end TwoBudgets

end FloorPrice
