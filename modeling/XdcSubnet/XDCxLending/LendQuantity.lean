import XdcSubnet.XDCx.TradeQuantity

/-!
# How much of a loan the balances afford (`GetLendQuantity`, lending `GetSettleBalance`)

A lending match moves `quantityToLend` lending tokens from the investor to the borrower, and
locks collateral from the borrower: the quantity times the collateral token's decimal and the
deposit rate (a percentage), over the collateral price, rounded down at each division.
`GetLendQuantity` cuts the quantity to what the two balances pay for, inverting the collateral
formula for a short borrower; `GetSettleBalance` then prices the match and takes the borrowing
fee from what the borrower receives.

The collateral formula is the library's price with no fee (`collateral_eq_gross`), so the
quantity is the smaller of what each side affords, and settling it locks exactly the collateral
of that quantity, within the borrower's balance (`getLendQuantity_affordable`).
-/

namespace XdcSubnet.XDCxLending

open FloorPrice
open XdcSubnet.XDCx (Hash TradeResult xdcxBaseFee xdcNativeAddress xdcxBaseFee_pos)

/-- The side of a lending order, `Investing` ("INVEST") or `Borrowing` ("BORROW"); any other
text takes the investing branches. -/
inductive LendingSide
  | investing
  | borrowing
  | unknown
  deriving DecidableEq, Repr

/-- `common.RelayerLendingFee`, 0.01 XDC. -/
def relayerLendingFee : ℕ := 10000000000000000

/-- `lendingstate.DefaultFeeRate`. -/
def defaultFeeRate : ℕ := 100

/-- The errors of lending's `GetSettleBalance`. -/
inductive LendingSettleError
  /-- `ErrQuantityTradeTooSmall`, "quantity trade too small". -/
  | quantityTradeTooSmall
  /-- `ErrInvalidCollateralPrice`, "unable to retrieve price of this collateral. Please try
  another collateral". -/
  | invalidCollateralPrice
  deriving DecidableEq, Repr

/-- `LendingSettleBalance`.  Its `TradeResult` has the fields of the trading one. -/
structure LendingSettleBalance where
  taker : TradeResult
  maker : TradeResult
  collateralLockedAmount : ℕ
  deriving DecidableEq, Repr

/-- The fee check of lending's `GetSettleBalance`: a received fee positive but at most
`RelayerLendingFee`, or a default fee at most that, in XDC at `lendTokenXDCPrice` for a priced
TRC21 lending token, as they are for native XDC, and none for an unpriced TRC21 token.  A nil
`lendTokenXDCPrice` is `0`. -/
def feeTooSmall (lendTokenXDCPrice : ℕ) (lendingToken : Hash) (lendTokenDecimal fee defaultFee : ℕ) :
    Bool :=
  if lendingToken ≠ xdcNativeAddress ∧ 0 < lendTokenXDCPrice then
    let exReceivedFee := fee * lendTokenXDCPrice / lendTokenDecimal
    let defaultFeeInXDC := defaultFee * lendTokenXDCPrice / lendTokenDecimal
    decide ((exReceivedFee ≤ relayerLendingFee ∧ 0 < exReceivedFee) ∨
      defaultFeeInXDC ≤ relayerLendingFee)
  else if lendingToken = xdcNativeAddress then
    decide ((fee ≤ relayerLendingFee ∧ 0 < fee) ∨ defaultFee ≤ relayerLendingFee)
  else false

/-- `lendingstate.GetSettleBalance`.  A nil or non-positive `collateralPrice` is `0`; the three
branches compute the collateral and the fee alike, and differ in who receives what. -/
def getSettleBalance (isXDCXLendingFork : Bool) (takerSide : LendingSide)
    (lendTokenXDCPrice collateralPrice depositRate borrowFeeRate : ℕ)
    (lendingToken collateralToken : Hash)
    (lendTokenDecimal collateralTokenDecimal quantityToLend : ℕ) :
    Except LendingSettleError LendingSettleBalance :=
  if collateralPrice = 0 then .error .invalidCollateralPrice
  else
    let defaultFee := quantityToLend * defaultFeeRate / xdcxBaseFee
    if !isXDCXLendingFork then
      if takerSide = .borrowing then
        let takerOutTotal :=
          quantityToLend * collateralTokenDecimal * depositRate / 100 / collateralPrice
        let takerFee := quantityToLend * borrowFeeRate / xdcxBaseFee
        if quantityToLend ≤ takerFee ∨ quantityToLend ≤ defaultFee then
          .error .quantityTradeTooSmall
        else if feeTooSmall lendTokenXDCPrice lendingToken lendTokenDecimal takerFee defaultFee then
          .error .quantityTradeTooSmall
        else .ok
          { taker := ⟨takerFee, lendingToken, quantityToLend - takerFee, collateralToken,
              takerOutTotal⟩
            maker := ⟨0, 0, 0, lendingToken, quantityToLend⟩
            collateralLockedAmount := takerOutTotal }
      else
        let makerOutTotal :=
          quantityToLend * collateralTokenDecimal * depositRate / 100 / collateralPrice
        let makerFee := quantityToLend * borrowFeeRate / xdcxBaseFee
        if quantityToLend ≤ makerFee ∨ quantityToLend ≤ defaultFee then
          .error .quantityTradeTooSmall
        else if feeTooSmall lendTokenXDCPrice lendingToken lendTokenDecimal makerFee defaultFee then
          .error .quantityTradeTooSmall
        else .ok
          { taker := ⟨0, 0, 0, lendingToken, quantityToLend⟩
            maker := ⟨makerFee, lendingToken, quantityToLend + makerFee, collateralToken,
              makerOutTotal⟩
            collateralLockedAmount := makerOutTotal }
    else
      let collateralQuantity :=
        quantityToLend * collateralTokenDecimal * depositRate / 100 / collateralPrice
      let borrowFee := quantityToLend * borrowFeeRate / xdcxBaseFee
      if quantityToLend ≤ borrowFee ∨ quantityToLend ≤ defaultFee then
        .error .quantityTradeTooSmall
      else if feeTooSmall lendTokenXDCPrice lendingToken lendTokenDecimal borrowFee defaultFee then
        .error .quantityTradeTooSmall
      else
        let borrowerReceivedQuantity := quantityToLend - borrowFee
        let borrowerTradeResult : TradeResult :=
          ⟨borrowFee, lendingToken, borrowerReceivedQuantity, collateralToken, collateralQuantity⟩
        let investorTradeResult : TradeResult := ⟨0, 0, 0, lendingToken, quantityToLend⟩
        if takerSide = .borrowing then
          .ok ⟨borrowerTradeResult, investorTradeResult, collateralQuantity⟩
        else .ok ⟨investorTradeResult, borrowerTradeResult, collateralQuantity⟩

/-- `GetLendQuantity`: the quantity the borrower's collateral and the investor's lending
tokens afford, and whether the maker's balance is the one that cut it. -/
def getLendQuantity (takerSide : LendingSide) (collateralTokenDecimal depositRate collateralPrice
    takerBalance makerBalance quantityToLend : ℕ) : ℕ × Bool :=
  if takerSide = .borrowing then
    let takerOutTotal :=
      quantityToLend * collateralTokenDecimal * depositRate / 100 / collateralPrice
    let makerOutTotal := quantityToLend
    let newQuantityLend := takerBalance * collateralPrice * 100 / depositRate / collateralTokenDecimal
    if takerOutTotal ≤ takerBalance ∧ makerOutTotal ≤ makerBalance then (quantityToLend, false)
    else if takerBalance < takerOutTotal ∧ makerOutTotal ≤ makerBalance then
      (newQuantityLend, false)
    else if takerOutTotal ≤ takerBalance ∧ makerBalance < makerOutTotal then (makerBalance, true)
    else if newQuantityLend ≤ makerBalance then (newQuantityLend, false)
    else (makerBalance, true)
  else
    let makerOutTotal :=
      quantityToLend * collateralTokenDecimal * depositRate / 100 / collateralPrice
    let takerOutTotal := quantityToLend
    let newQuantityLend := makerBalance * collateralPrice * 100 / depositRate / collateralTokenDecimal
    if takerOutTotal ≤ takerBalance ∧ makerOutTotal ≤ makerBalance then (quantityToLend, false)
    else if takerBalance < takerOutTotal ∧ makerOutTotal ≤ makerBalance then (takerBalance, false)
    else if takerOutTotal ≤ takerBalance ∧ makerBalance < makerOutTotal then
      (newQuantityLend, true)
    else if newQuantityLend ≤ takerBalance then (newQuantityLend, true)
    else (takerBalance, false)

/-- The borrower's result in a lending settlement, by the taker's side. -/
def LendingSettleBalance.borrower (sb : LendingSettleBalance) (takerSide : LendingSide) :
    TradeResult :=
  if takerSide = .borrowing then sb.taker else sb.maker

/-- The investor's result in a lending settlement, by the taker's side. -/
def LendingSettleBalance.investor (sb : LendingSettleBalance) (takerSide : LendingSide) :
    TradeResult :=
  if takerSide = .borrowing then sb.maker else sb.taker

/-! ### The collateral formula is a price with no fee -/

theorem collateral_eq_gross (q cd dr cp : ℕ) :
    q * cd * dr / 100 / cp = gross (cd * dr) (100 * cp) 0 1 q := by
  rw [gross, Nat.div_div_eq_div_mul, Nat.mul_assoc]
  simp

theorem newQuantityLend_eq_grossInverse (b cd dr cp : ℕ) :
    b * cp * 100 / dr / cd = grossInverse (cd * dr) (100 * cp) 0 1 b := by
  rw [grossInverse, Nat.div_div_eq_div_mul]
  simp only [Nat.mul_one, Nat.add_zero, Nat.div_one]
  rw [Nat.mul_comm dr cd, Nat.mul_comm 100 cp, Nat.mul_assoc]

/-- **The quantity is the smaller of what each side affords**: the borrower what its collateral
covers, the investor its balance. -/
theorem getLendQuantity_eq_min (takerSide : LendingSide) (collateralTokenDecimal depositRate
    collateralPrice takerBalance makerBalance quantityToLend : ℕ) (hcp : 0 < collateralPrice) :
    (getLendQuantity takerSide collateralTokenDecimal depositRate collateralPrice takerBalance
        makerBalance quantityToLend).1 =
      if takerSide = .borrowing then
        min (afford (collateralTokenDecimal * depositRate) (100 * collateralPrice) 0 1 takerBalance
          quantityToLend) (min makerBalance quantityToLend)
      else
        min (min takerBalance quantityToLend)
          (afford (collateralTokenDecimal * depositRate) (100 * collateralPrice) 0 1 makerBalance
            quantityToLend) := by
  have hd : 0 < 100 * collateralPrice := by omega
  unfold getLendQuantity
  simp only [collateral_eq_gross, newQuantityLend_eq_grossInverse]
  by_cases hside : takerSide = .borrowing
  · rw [if_pos hside, if_pos hside]
    exact grossFirst_fst (grossInverse_lt hd Nat.one_pos)
  · rw [if_neg hside, if_neg hside]
    exact grossSecond_fst (grossInverse_lt hd Nat.one_pos)

/-- The maker is rejected only when its own part is short: the investor's lending tokens, or
the borrower's collateral. -/
theorem getLendQuantity_rejectMaker (takerSide : LendingSide) {collateralTokenDecimal depositRate
    collateralPrice takerBalance makerBalance quantityToLend : ℕ}
    (h : (getLendQuantity takerSide collateralTokenDecimal depositRate collateralPrice takerBalance
      makerBalance quantityToLend).2 = true) :
    if takerSide = .borrowing then makerBalance < quantityToLend
    else makerBalance <
      quantityToLend * collateralTokenDecimal * depositRate / 100 / collateralPrice := by
  unfold getLendQuantity at h
  by_cases hside : takerSide = .borrowing
  · rw [if_pos hside] at h ⊢
    exact grossFirst_snd h
  · rw [if_neg hside] at h ⊢
    exact grossSecond_snd h

/-- A settlement in the lending fork's branch locks the collateral of the quantity, takes it from
the borrower, pays the quantity from the investor, and takes the borrowing fee from what the
borrower receives, below the quantity. -/
theorem getSettleBalance_fork {takerSide : LendingSide}
    {lendTokenXDCPrice collateralPrice depositRate borrowFeeRate lendTokenDecimal
      collateralTokenDecimal q : ℕ} {lendingToken collateralToken : Hash}
    {sb : LendingSettleBalance}
    (h : getSettleBalance true takerSide lendTokenXDCPrice collateralPrice depositRate
      borrowFeeRate lendingToken collateralToken lendTokenDecimal collateralTokenDecimal q = .ok sb) :
    sb.collateralLockedAmount = q * collateralTokenDecimal * depositRate / 100 / collateralPrice ∧
      (sb.borrower takerSide).outTotal = sb.collateralLockedAmount ∧
      (sb.investor takerSide).outTotal = q ∧
      (sb.borrower takerSide).fee = q * borrowFeeRate / xdcxBaseFee ∧
      (sb.borrower takerSide).inTotal + (sb.borrower takerSide).fee = q := by
  unfold getSettleBalance at h
  simp only [Bool.not_true, Bool.false_eq_true, if_false] at h
  split_ifs at h with hcp hsmall hfee hside <;> cases h
  all_goals
    simp only [not_or, not_le] at hsmall
    simp only [LendingSettleBalance.borrower, LendingSettleBalance.investor, hside, if_true,
      if_false, true_and]
    omega

/-- **The lend quantity is affordable and its collateral consistent.**  `GetLendQuantity`
returns at most the quantity asked, all of it exactly when the borrower's collateral balance
covers its collateral and the investor's balance covers it, and rejects the maker only when the
maker's part is short.  A settlement of that quantity in the lending fork's branch locks the
collateral of that quantity, takes no more than the borrower's balance, pays the quantity from
the investor within its balance, and gives the borrower the quantity less the borrowing fee. -/
theorem getLendQuantity_affordable (takerSide : LendingSide) {collateralTokenDecimal depositRate
    collateralPrice takerBalance makerBalance quantityToLend : ℕ} (hcp : 0 < collateralPrice) :
    let r := getLendQuantity takerSide collateralTokenDecimal depositRate collateralPrice
      takerBalance makerBalance quantityToLend
    let collateral := fun q => q * collateralTokenDecimal * depositRate / 100 / collateralPrice
    let borrowerBalance := if takerSide = .borrowing then takerBalance else makerBalance
    let investorBalance := if takerSide = .borrowing then makerBalance else takerBalance
    r.1 ≤ quantityToLend ∧
      (r.1 = quantityToLend ↔
        collateral quantityToLend ≤ borrowerBalance ∧ quantityToLend ≤ investorBalance) ∧
      (r.2 = true → if takerSide = .borrowing then makerBalance < quantityToLend
        else makerBalance < collateral quantityToLend) ∧
      ∀ lendTokenXDCPrice borrowFeeRate lendingToken collateralToken lendTokenDecimal sb,
        getSettleBalance true takerSide lendTokenXDCPrice collateralPrice depositRate
            borrowFeeRate lendingToken collateralToken lendTokenDecimal collateralTokenDecimal
            r.1 = .ok sb →
          sb.collateralLockedAmount = collateral r.1 ∧
            (sb.borrower takerSide).outTotal ≤ borrowerBalance ∧
            (sb.investor takerSide).outTotal = r.1 ∧ r.1 ≤ investorBalance ∧
            (sb.borrower takerSide).fee = r.1 * borrowFeeRate / xdcxBaseFee ∧
            (sb.borrower takerSide).inTotal + (sb.borrower takerSide).fee = r.1 := by
  dsimp only
  have hd : 0 < 100 * collateralPrice := by omega
  have hB : 0 < 1 := Nat.one_pos
  have hmin := getLendQuantity_eq_min takerSide collateralTokenDecimal depositRate collateralPrice
    takerBalance makerBalance quantityToLend hcp
  refine ⟨?_, ?_, getLendQuantity_rejectMaker takerSide, fun _ _ _ _ _ sb hsb => ?_⟩
  · rw [hmin]
    split_ifs
    · exact (min_le_right _ _).trans (min_le_right _ _)
    · exact (min_le_left _ _).trans (min_le_right _ _)
  · rw [hmin, collateral_eq_gross]
    split_ifs
    · exact min_afford_eq_self_iff (afford_le hd hB _ _) (afford_eq_self_iff hd hB)
    · rw [min_comm, min_afford_eq_self_iff (afford_le hd hB _ _) (afford_eq_self_iff hd hB),
        and_comm]
  · -- the settlement takes the collateral of what each side affords
    obtain ⟨hlock, hout, hinv, hfee, hin⟩ := getSettleBalance_fork hsb
    refine ⟨hlock, ?_, hinv, ?_, hfee, hin⟩
    · rw [hout, hlock, collateral_eq_gross, hmin]
      by_cases hside : takerSide = .borrowing
      · simp only [hside, if_true]
        exact gross_le_of_le_afford hd hB (min_le_left _ _)
      · simp only [hside, if_false]
        exact gross_le_of_le_afford hd hB (min_le_right _ _)
    · rw [hmin]
      by_cases hside : takerSide = .borrowing
      · simp only [hside, if_true]
        exact (min_le_right _ _).trans (min_le_left _ _)
      · simp only [hside, if_false]
        exact (min_le_left _ _).trans (min_le_left _ _)

/-- A borrower short of collateral: at a price of `10` and a `150%` deposit rate, its `1000`
collateral tokens cover `66` of the `100` lending tokens asked. -/
theorem getLendQuantity_affordable_shortBorrower :
    0 < 10 ∧
      let r := getLendQuantity .borrowing 100 150 10 1000 500 100
      let collateral := fun q => q * 100 * 150 / 100 / 10
      let borrowerBalance := if LendingSide.borrowing = .borrowing then 1000 else 500
      let investorBalance := if LendingSide.borrowing = .borrowing then 500 else 1000
      r.1 ≤ 100 ∧
        (r.1 = 100 ↔ collateral 100 ≤ borrowerBalance ∧ 100 ≤ investorBalance) ∧
        (r.2 = true → if LendingSide.borrowing = .borrowing then 500 < 100
          else 500 < collateral 100) ∧
        ∀ lendTokenXDCPrice borrowFeeRate lendingToken collateralToken lendTokenDecimal sb,
          getSettleBalance true .borrowing lendTokenXDCPrice 10 150 borrowFeeRate lendingToken
              collateralToken lendTokenDecimal 100 r.1 = .ok sb →
            sb.collateralLockedAmount = collateral r.1 ∧
              (sb.borrower .borrowing).outTotal ≤ borrowerBalance ∧
              (sb.investor .borrowing).outTotal = r.1 ∧ r.1 ≤ investorBalance ∧
              (sb.borrower .borrowing).fee = r.1 * borrowFeeRate / xdcxBaseFee ∧
              (sb.borrower .borrowing).inTotal + (sb.borrower .borrowing).fee = r.1 :=
  ⟨by decide, getLendQuantity_affordable .borrowing (by decide)⟩

example : getLendQuantity .borrowing 100 150 10 1000 500 100 = (66, false) := by decide

end XdcSubnet.XDCxLending
