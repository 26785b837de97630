import XdcSubnet.XDCx.Settle
import XdcSubnet.Lib.FloorPrice

/-!
# How much of a match the balances afford (`GetTradeQuantity`)

Before a match is settled, `GetTradeQuantity` cuts the quantity to what the taker's and the
maker's balances pay for.  At the maker's price the side that pays in the quote token pays the
quote amount and its fee, both rounded down; the other pays the base quantity
(`settleOutTotals`).  For a short quote side Go inverts that price, rounding down again.

The quantity returned is the smaller of what each side affords (`getTradeQuantity_eq_min`):
at most the quantity asked, all of it exactly when both balances cover it, and settling it stays
within both balances (`getTradeQuantity_affordable`).  The maker is rejected only when its own
balance is short.
-/

namespace XdcSubnet.XDCx

open FloorPrice

/-- `GetTradeQuantity`: the quantity the two balances afford, and whether the maker's balance is
the one that cut it. -/
def getTradeQuantity (takerSide : Side) (takerFeeRate takerBalance makerPrice makerFeeRate
    makerBalance baseTokenDecimal quantityToTrade : ℕ) : ℕ × Bool :=
  if takerSide = .bid then
    let quoteTokenQuantity := quantityToTrade * makerPrice / baseTokenDecimal
    let takerFee := quoteTokenQuantity * takerFeeRate / xdcxBaseFee
    let takerOutTotal := quoteTokenQuantity + takerFee
    let makerOutTotal := quantityToTrade
    let newQuantityTrade :=
      takerBalance * baseTokenDecimal * xdcxBaseFee / (xdcxBaseFee + takerFeeRate) / makerPrice
    if takerOutTotal ≤ takerBalance ∧ makerOutTotal ≤ makerBalance then (quantityToTrade, false)
    else if takerBalance < takerOutTotal ∧ makerOutTotal ≤ makerBalance then
      (newQuantityTrade, false)
    else if takerOutTotal ≤ takerBalance ∧ makerBalance < makerOutTotal then (makerBalance, true)
    else if newQuantityTrade ≤ makerBalance then (newQuantityTrade, false)
    else (makerBalance, true)
  else
    let quoteTokenQuantity := quantityToTrade * makerPrice / baseTokenDecimal
    let makerFee := quoteTokenQuantity * makerFeeRate / xdcxBaseFee
    let takerOutTotal := quantityToTrade
    let makerOutTotal := quoteTokenQuantity + makerFee
    let newQuantityTrade :=
      makerBalance * baseTokenDecimal * xdcxBaseFee / (xdcxBaseFee + makerFeeRate) / makerPrice
    if takerOutTotal ≤ takerBalance ∧ makerOutTotal ≤ makerBalance then (quantityToTrade, false)
    else if takerBalance < takerOutTotal ∧ makerOutTotal ≤ makerBalance then (takerBalance, false)
    else if takerOutTotal ≤ takerBalance ∧ makerBalance < makerOutTotal then
      (newQuantityTrade, true)
    else if newQuantityTrade ≤ takerBalance then (newQuantityTrade, true)
    else (takerBalance, false)

/-- What the taker and the maker each pay to settle `quantity` at the maker's price: the side
paying in the quote token pays the quote amount and its fee, the other the base quantity. -/
def settleOutTotals (takerSide : Side) (takerFeeRate makerPrice makerFeeRate baseTokenDecimal
    quantity : ℕ) : ℕ × ℕ :=
  if takerSide = .bid then
    (gross makerPrice baseTokenDecimal takerFeeRate xdcxBaseFee quantity, quantity)
  else (quantity, gross makerPrice baseTokenDecimal makerFeeRate xdcxBaseFee quantity)

theorem xdcxBaseFee_pos : 0 < xdcxBaseFee := by decide

/-- **The quantity is the smaller of what each side affords**: the quote side what its balance
buys at the price with its fee, the base side its balance. -/
theorem getTradeQuantity_eq_min (takerSide : Side) (takerFeeRate takerBalance makerPrice
    makerFeeRate makerBalance baseTokenDecimal quantityToTrade : ℕ)
    (hd : 0 < baseTokenDecimal) :
    (getTradeQuantity takerSide takerFeeRate takerBalance makerPrice makerFeeRate makerBalance
        baseTokenDecimal quantityToTrade).1 =
      if takerSide = .bid then
        min (afford makerPrice baseTokenDecimal takerFeeRate xdcxBaseFee takerBalance
          quantityToTrade) (min makerBalance quantityToTrade)
      else
        min (min takerBalance quantityToTrade)
          (afford makerPrice baseTokenDecimal makerFeeRate xdcxBaseFee makerBalance
            quantityToTrade) := by
  unfold getTradeQuantity
  by_cases hside : takerSide = .bid
  · rw [if_pos hside, if_pos hside]
    exact grossFirst_fst (grossInverse_lt hd xdcxBaseFee_pos)
  · rw [if_neg hside, if_neg hside]
    exact grossSecond_fst (grossInverse_lt hd xdcxBaseFee_pos)

/-- The quantity is at most the quantity asked. -/
theorem getTradeQuantity_fst_le (takerSide : Side) (takerFeeRate takerBalance makerPrice
    makerFeeRate makerBalance baseTokenDecimal quantityToTrade : ℕ) (hd : 0 < baseTokenDecimal) :
    (getTradeQuantity takerSide takerFeeRate takerBalance makerPrice makerFeeRate makerBalance
      baseTokenDecimal quantityToTrade).1 ≤ quantityToTrade := by
  rw [getTradeQuantity_eq_min _ _ _ _ _ _ _ _ hd]
  split_ifs
  · exact le_trans (min_le_right _ _) (min_le_right _ _)
  · exact le_trans (min_le_left _ _) (min_le_right _ _)

/-- The maker is rejected only when its balance does not cover what it pays. -/
theorem getTradeQuantity_rejectMaker (takerSide : Side) {takerFeeRate takerBalance makerPrice
    makerFeeRate makerBalance baseTokenDecimal quantityToTrade : ℕ}
    (h : (getTradeQuantity takerSide takerFeeRate takerBalance makerPrice makerFeeRate
      makerBalance baseTokenDecimal quantityToTrade).2 = true) :
    makerBalance < (settleOutTotals takerSide takerFeeRate makerPrice makerFeeRate
      baseTokenDecimal quantityToTrade).2 := by
  unfold getTradeQuantity at h
  unfold settleOutTotals
  by_cases hside : takerSide = .bid
  · rw [if_pos hside] at h ⊢
    exact grossFirst_snd h
  · rw [if_neg hside] at h ⊢
    exact grossSecond_snd h

/-- A settlement that passes pays what `settleOutTotals` says, and each side receives something:
the quote side's fee is below the quote amount it is taken from. -/
theorem getSettleBalance_outTotals {quotePrice : Option ℕ} {takerSide : Side}
    {takerFeeRate makerPrice makerFeeRate baseTokenDecimal quoteTokenDecimal q : ℕ}
    {baseToken quoteToken : Hash} {sb : SettleBalance}
    (h : getSettleBalance quotePrice takerSide takerFeeRate baseToken quoteToken makerPrice
      makerFeeRate baseTokenDecimal quoteTokenDecimal q = .ok sb) :
    (sb.taker.outTotal, sb.maker.outTotal) =
        settleOutTotals takerSide takerFeeRate makerPrice makerFeeRate baseTokenDecimal q ∧
      0 < sb.taker.inTotal ∧ 0 < sb.maker.inTotal := by
  unfold getSettleBalance at h
  unfold settleOutTotals
  dsimp only at h
  -- the quote amount is above the fee it pays for, so it and the quantity are positive
  have hpos : ∀ fee, ¬(q * makerPrice / baseTokenDecimal ≤ fee ∨
      q * makerPrice / baseTokenDecimal ≤ q * makerPrice / baseTokenDecimal * defaultFeeRate /
        xdcxBaseFee) → 0 < q ∧ 0 < q * makerPrice / baseTokenDecimal - fee := by
    intro fee hsmall
    refine ⟨Nat.pos_of_ne_zero fun hq => hsmall (.inl ?_), by omega⟩
    simp [hq]
  by_cases hside : takerSide = .bid
  · rw [if_pos hside] at h ⊢
    split_ifs at h with hsmall hfees
    cases h
    exact ⟨rfl, hpos _ hsmall⟩
  · rw [if_neg hside] at h ⊢
    split_ifs at h with hsmall hfees
    cases h
    exact ⟨rfl, (hpos _ hsmall).2, (hpos _ hsmall).1⟩

/-- **The quantity is affordable.**  `GetTradeQuantity` returns at most the quantity asked, all
of it exactly when both balances cover its settlement, and rejects the maker only when the
maker's balance does not; a settlement of what it returns that `GetSettleBalance` passes pays
out no more than either balance, and each side receives something. -/
theorem getTradeQuantity_affordable (takerSide : Side) {takerFeeRate takerBalance makerPrice
    makerFeeRate makerBalance baseTokenDecimal quantityToTrade : ℕ}
    (hd : 0 < baseTokenDecimal) :
    let r := getTradeQuantity takerSide takerFeeRate takerBalance makerPrice makerFeeRate
      makerBalance baseTokenDecimal quantityToTrade
    let out := settleOutTotals takerSide takerFeeRate makerPrice makerFeeRate baseTokenDecimal
    r.1 ≤ quantityToTrade ∧
      (r.1 = quantityToTrade ↔
        (out quantityToTrade).1 ≤ takerBalance ∧ (out quantityToTrade).2 ≤ makerBalance) ∧
      (r.2 = true → makerBalance < (out quantityToTrade).2) ∧
      ∀ quotePrice baseToken quoteToken quoteTokenDecimal sb,
        getSettleBalance quotePrice takerSide takerFeeRate baseToken quoteToken makerPrice
            makerFeeRate baseTokenDecimal quoteTokenDecimal r.1 = .ok sb →
          sb.taker.outTotal ≤ takerBalance ∧ sb.maker.outTotal ≤ makerBalance ∧
            0 < sb.taker.inTotal ∧ 0 < sb.maker.inTotal := by
  dsimp only
  have hmin := getTradeQuantity_eq_min takerSide takerFeeRate takerBalance makerPrice
    makerFeeRate makerBalance baseTokenDecimal quantityToTrade hd
  have hB := xdcxBaseFee_pos
  refine ⟨?_, ?_, getTradeQuantity_rejectMaker takerSide, fun _ _ _ _ sb hsb => ?_⟩
  · rw [hmin]
    split_ifs
    · exact (min_le_right _ _).trans (min_le_right _ _)
    · exact (min_le_left _ _).trans (min_le_right _ _)
  · rw [hmin, settleOutTotals]
    split_ifs
    · exact min_afford_eq_self_iff (afford_le hd hB _ _) (afford_eq_self_iff hd hB)
    · rw [min_comm, min_afford_eq_self_iff (afford_le hd hB _ _) (afford_eq_self_iff hd hB),
        and_comm]
  · -- what is settled is within what each side affords
    obtain ⟨hout, hin⟩ := getSettleBalance_outTotals hsb
    simp only [settleOutTotals, Prod.ext_iff] at hout
    by_cases hside : takerSide = .bid
    · rw [if_pos hside] at hout hmin
      rw [hout.1, hout.2, hmin]
      exact ⟨gross_le_of_le_afford hd hB (min_le_left _ _),
        (min_le_right _ _).trans (min_le_left _ _), hin⟩
    · rw [if_neg hside] at hout hmin
      rw [hout.1, hout.2, hmin]
      exact ⟨(min_le_left _ _).trans (min_le_left _ _),
        gross_le_of_le_afford hd hB (min_le_right _ _), hin⟩

/-- A bid whose taker is short: its `150` quote tokens, with a `0.1%` fee, buy `74` of the `100`
base tokens at `2` per base token. -/
theorem getTradeQuantity_affordable_shortTaker :
    0 < 10 ∧
      (getTradeQuantity .bid 10 150 20 10 1000 10 100).1 ≤ 100 ∧
      ((getTradeQuantity .bid 10 150 20 10 1000 10 100).1 = 100 ↔
        (settleOutTotals .bid 10 20 10 10 100).1 ≤ 150 ∧
          (settleOutTotals .bid 10 20 10 10 100).2 ≤ 1000) ∧
      ((getTradeQuantity .bid 10 150 20 10 1000 10 100).2 = true →
        1000 < (settleOutTotals .bid 10 20 10 10 100).2) ∧
      ∀ quotePrice baseToken quoteToken quoteTokenDecimal sb,
        getSettleBalance quotePrice .bid 10 baseToken quoteToken 20 10 10 quoteTokenDecimal
            (getTradeQuantity .bid 10 150 20 10 1000 10 100).1 = .ok sb →
          sb.taker.outTotal ≤ 150 ∧ sb.maker.outTotal ≤ 1000 ∧
            0 < sb.taker.inTotal ∧ 0 < sb.maker.inTotal :=
  ⟨by decide, getTradeQuantity_affordable .bid (by decide)⟩

example : getTradeQuantity .bid 10 150 20 10 1000 10 100 = (74, false) := by decide

end XdcSubnet.XDCx
