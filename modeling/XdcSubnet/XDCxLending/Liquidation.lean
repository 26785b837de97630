import XdcSubnet.XDCx.Replay
import XdcSubnet.XDCx.OrderBook
import XdcSubnet.XDCxLending.LiquidationIndex

/-!
# Liquidation by price (`XDCxlending/order_processor.go`, `XDCxlending/XDCxlending.go`)

At every epoch `ProcessLiquidationData` liquidates, for each lending pair, the trades whose
liquidation price is above the collateral price.  It asks the trading state for the highest
liquidation price of the pair's order book and the trades listed there
(`GetHighestLiquidationPriceData`), and handles each of them: a trade that tops up
automatically is given more collateral (`AutoTopUp`, through `ProcessTopUpLendingTrade`) and
spared; any other, and one whose top-up fails, is liquidated (`LiquidationTrade`).  Then it asks
again, until the highest price is at most the collateral price (`liquidateByPrice`).

`AutoTopUp` asks for the deposit that lifts the locked amount to what the price `90%` of the
collateral price needs, rounded down; `ProcessTopUpLendingTrade` then lists the trade again at
`LiquidationPrice · locked / (locked + deposit)`, rounded down.

Model choices:
* the databases are those of the trading model (`StateDB`, `TradingStateDB`) and the lending
  state; `lendingstate.GetTokenBalance`, `AddTokenBalance` and `SubTokenBalance` are the code
  of their `tradingstate` namesakes, whose models are used;
* a Go panic (a `big.Int` division by zero, an update of a missing trade) is `none`;
* Go ranges over the map of lending books in an unspecified order; the model takes the order
  in which `GetHighestLiquidationPriceData` lists them;
* a trade's `Hash`, `Status` and `ExtraData`, and the map `updatedTrades` keyed by the hash, are
  outputs only and left out; every liquidated trade is recorded.
-/

namespace XdcSubnet.XDCxLending

open Loop
open XdcSubnet.XDCx (Hash StateDB TradingStateDB TradingError getTokenBalance addTokenBalance
  subTokenBalance logged getTradingOrderBookHash)

/-- `common.RateTopUp`. -/
def rateTopUp : ℕ := 90

/-- `common.BaseTopUp`. -/
def baseTopUp : ℕ := 100

/-- `common.LendingLockAddress`. -/
def lendingLockAddress : Hash := 0x11

/-- The errors of liquidation, with the values their messages print. -/
inductive LiquidationError
  | emptyLendingTrade (lendingTradeId : Hash)
  | notEnoughBalanceDeposit (lendingTradeId : Hash) (quantity : ℕ) (tokenBalance : ℤ)
  | currentPriceNotBelow (currentPrice liquidationPrice : ℕ)
  | notEnoughBalanceToAutoTopUp (requiredDepositAmount : ℕ) (tokenBalance : ℤ) (token : Hash)
  | lendingTradeIdNotFound (lendingTradeId : ℕ)
  | trading (e : TradingError)
  | lending (e : LendingError)

/-- The databases liquidation reads and writes, and the trades it has topped up and
liquidated so far. -/
structure Liquidating where
  statedb : StateDB
  tradingState : TradingStateDB
  lendingState : LendingStateDB
  autoTopUpTrades : List LendingTrade
  liquidatedTrades : List LendingTrade

namespace Liquidating

/-- `ProcessTopUpLendingTrade`: move `quantity` of collateral from the borrower to the lock, list
the trade again at its new liquidation price, and return it.  The errors of the two transfers
are only logged; the flag Go returns beside the error says whether there is one, and is left
out. -/
def processTopUpLendingTrade (s : Liquidating) (lendingTradeId lendingBook : Hash) (quantity : ℕ) :
    Option (Except LiquidationError LendingTrade × Liquidating) :=
  let lendingTrade := s.lendingState.getLendingTrade lendingBook lendingTradeId
  if lendingTrade = emptyLendingTrade then some (.error (.emptyLendingTrade lendingTradeId), s)
  else
  let tokenBalance := getTokenBalance lendingTrade.borrower lendingTrade.collateralToken s.statedb
  if tokenBalance < quantity then
    some (.error (.notEnoughBalanceDeposit lendingTradeId quantity tokenBalance), s)
  else
  let orderBook := getTradingOrderBookHash lendingTrade.collateralToken lendingTrade.lendingToken
  let (tradingState, r) := s.tradingState.removeLiquidationPrice orderBook
    lendingTrade.liquidationPrice lendingBook lendingTrade.tradeId
  match r with
  | .error e => some (.error (.trading e), { s with tradingState })
  | .ok () =>
  let statedb := logged (subTokenBalance lendingTrade.borrower quantity
    lendingTrade.collateralToken s.statedb) s.statedb
  let statedb := logged (addTokenBalance lendingLockAddress quantity
    lendingTrade.collateralToken statedb) statedb
  let oldLockedAmount := lendingTrade.collateralLockedAmount
  let newLockedAmount := quantity + oldLockedAmount
  if newLockedAmount = 0 then none
  else
  let newLiquidationPrice := lendingTrade.liquidationPrice * oldLockedAmount / newLockedAmount
  (s.lendingState.updateLiquidationPrice lendingBook lendingTrade.tradeId
    newLiquidationPrice).bind fun lendingState =>
  (lendingState.updateCollateralLockedAmount lendingBook lendingTrade.tradeId
    newLockedAmount).map fun lendingState =>
  (.ok { lendingTrade with
      liquidationPrice := newLiquidationPrice
      collateralLockedAmount := newLockedAmount },
    { s with
      statedb
      lendingState
      tradingState := tradingState.insertLiquidationPrice orderBook newLiquidationPrice
        lendingBook lendingTrade.tradeId })

/-- `AutoTopUp`: the deposit that lifts the locked amount to what `90%` of `currentPrice` needs,
topped up when the borrower's balance covers it.  The deposit is a difference of natural numbers
that never goes below zero, since the new price is below the old one (`le_newLockedAmount`). -/
def autoTopUp (s : Liquidating) (lendingBook lendingTradeId : Hash) (currentPrice : ℕ) :
    Option (Except LiquidationError LendingTrade × Liquidating) :=
  let lendingTrade := s.lendingState.getLendingTrade lendingBook lendingTradeId
  if lendingTrade = emptyLendingTrade then some (.error (.emptyLendingTrade lendingTradeId), s)
  else if lendingTrade.liquidationPrice ≤ currentPrice then
    some (.error (.currentPriceNotBelow currentPrice lendingTrade.liquidationPrice), s)
  else
  let newLiquidationPrice := currentPrice * rateTopUp / baseTopUp
  if newLiquidationPrice = 0 then none
  else
  let newLockedAmount :=
    lendingTrade.collateralLockedAmount * lendingTrade.liquidationPrice / newLiquidationPrice
  let requiredDepositAmount := newLockedAmount - lendingTrade.collateralLockedAmount
  let tokenBalance := getTokenBalance lendingTrade.borrower lendingTrade.collateralToken s.statedb
  if tokenBalance < requiredDepositAmount then
    some (.error (.notEnoughBalanceToAutoTopUp requiredDepositAmount tokenBalance
      lendingTrade.collateralToken), s)
  else s.processTopUpLendingTrade lendingTradeId lendingBook requiredDepositAmount

/-- `LiquidationTrade`: the locked collateral goes from the lock to the investor, and the trade
leaves the two indexes and closes.  The errors of the two transfers are only logged. -/
def liquidationTrade (s : Liquidating) (lendingBook : Hash) (lendingTradeId : ℕ) :
    Except LiquidationError LendingTrade × Liquidating :=
  let lendingTrade := s.lendingState.getLendingTrade lendingBook lendingTradeId
  if lendingTrade.tradeId ≠ lendingTradeId then
    (.error (.lendingTradeIdNotFound lendingTradeId), s)
  else
  let statedb := logged (subTokenBalance lendingLockAddress lendingTrade.collateralLockedAmount
    lendingTrade.collateralToken s.statedb) s.statedb
  let statedb := logged (addTokenBalance lendingTrade.investor
    lendingTrade.collateralLockedAmount lendingTrade.collateralToken statedb) statedb
  let (lendingState, r) := s.lendingState.removeLiquidationTime lendingBook lendingTradeId
    lendingTrade.liquidationTime
  let s := { s with statedb, lendingState }
  match r with
  | .error e => (.error (.lending e), s)
  | .ok () =>
  let (tradingState, r) := s.tradingState.removeLiquidationPrice
    (getTradingOrderBookHash lendingTrade.collateralToken lendingTrade.lendingToken)
    lendingTrade.liquidationPrice lendingBook lendingTradeId
  let s := { s with tradingState }
  match r with
  | .error e => (.error (.trading e), s)
  | .ok () =>
  let (lendingState, r) := s.lendingState.cancelLendingTrade lendingBook lendingTradeId
  let s := { s with lendingState }
  match r with
  | .error e => (.error (.lending e), s)
  | .ok () => (.ok lendingTrade, s)

/-- Liquidate a trade and record it. -/
def liquidate (s : Liquidating) (lendingBook : Hash) (tradingIdHash : ℕ) :
    Except LiquidationError Unit × Liquidating :=
  match s.liquidationTrade lendingBook tradingIdHash with
  | (.error e, s) => (.error e, s)
  | (.ok newTrade, s) => (.ok (), { s with liquidatedTrades := s.liquidatedTrades ++ [newTrade] })

/-- The body of the innermost loop: a trade that tops up automatically is topped up and spared
this epoch; any other, and one whose top-up fails, is liquidated. -/
def liquidateListed (collateralPrice : ℕ) (lendingBook tradingIdHash : Hash) (s : Liquidating) :
    Option (Except LiquidationError Unit × Liquidating) :=
  if (s.lendingState.getLendingTrade lendingBook tradingIdHash).autoTopUp then
    (s.autoTopUp lendingBook tradingIdHash collateralPrice).map fun
      | (.ok newTrade, s) => (.ok (), { s with autoTopUpTrades := s.autoTopUpTrades ++ [newTrade] })
      | (.error _, s) => s.liquidate lendingBook tradingIdHash
  else some (s.liquidate lendingBook tradingIdHash)

end Liquidating

/-- The state of the price loop: the databases, and the highest liquidation price with the
trades listed there, by lending book. -/
structure PriceLoop where
  state : Liquidating
  highestLiquidatePrice : ℕ
  liquidationData : List (Hash × List ℕ)

/-- The loop's test and its reading of the highest liquidation price. -/
def PriceLoop.query (orderBook : Hash) (collateralPrice : ℕ) (s : Liquidating) : PriceLoop :=
  let (highestLiquidatePrice, liquidationData) :=
    s.tradingState.getHighestLiquidationPriceData orderBook collateralPrice
  ⟨s, highestLiquidatePrice, liquidationData⟩

/-- A pass of the price loop: every listed trade, by lending book, then the highest price
again. -/
def priceLoopPass (orderBook : Hash) (collateralPrice : ℕ) (p : PriceLoop) :
    Option (Pass LiquidationError PriceLoop) :=
  (each (fun (e : Hash × List ℕ) => each (Liquidating.liquidateListed collateralPrice e.1) e.2)
      p.liquidationData p.state).map fun
    | (.ok (), s) => .next (PriceLoop.query orderBook collateralPrice s)
    | (.error e, s) => .fail e { p with state := s }

/-- The loop's test: the highest liquidation price is positive and above the collateral
price. -/
def PriceLoop.above (collateralPrice : ℕ) (p : PriceLoop) : Bool :=
  decide (0 < p.highestLiquidatePrice ∧ collateralPrice < p.highestLiquidatePrice)

/-- The price loop of `ProcessLiquidationData` for the lending pair of `orderBook`, at
`collateralPrice`: while the highest liquidation price is above the collateral price, handle the
trades listed there. -/
def liquidateByPrice (fuel : ℕ) (orderBook : Hash) (collateralPrice : ℕ) (s : Liquidating) :
    Option (Except (LiquidationError × PriceLoop) PriceLoop) :=
  run (PriceLoop.above collateralPrice) (priceLoopPass orderBook collateralPrice) fuel
    (PriceLoop.query orderBook collateralPrice s)

/-- The new locked amount of a top-up is at least the old: its price is below the old one. -/
theorem le_newLockedAmount {locked liquidationPrice currentPrice : ℕ}
    (hbelow : currentPrice < liquidationPrice) (hpos : 0 < currentPrice * rateTopUp / baseTopUp) :
    locked ≤ locked * liquidationPrice / (currentPrice * rateTopUp / baseTopUp) := by
  have hle : currentPrice * rateTopUp / baseTopUp ≤ liquidationPrice := by
    rw [rateTopUp, baseTopUp]
    omega
  rw [Nat.le_div_iff_mul_le hpos]
  exact Nat.mul_le_mul_left locked hle

end XdcSubnet.XDCxLending
