import XdcSubnet.Lib.Loop
import XdcSubnet.XDCx.TradeQuantity

/-!
# Matching an order (`XDCx/order_processor.go`)

`CommitOrder` applies one order to the trading state and the account state, and reverts both
when `ApplyOrder` fails.  `ApplyOrder` first compares the order's nonce with the user's trading
nonce and, when they agree, sets the next one.  It then rejects, cancels or matches the order
under a second snapshot.  That snapshot is reverted only when matching returns an error, since
only that error is kept in the variable the deferred revert reads.

Matching is two nested loops.  `processMarketOrder` and `processLimitOrder` take the best price
of the other side again and again (`matchBestPrices`).  At each price, `processOrderList` matches
the order against the oldest order listed there (`processOrderListStep`), as far as the balances
allow (`getTradeQuantity`).  Neither loop has a bound; both run with fuel (`Loop.run`).

Model choices:
* an order book holds the orders of one token pair, so a resting order's tokens are the taker's;
  the stored `OrderItem` keeps only the fields the trading state reads;
* what the engine reads outside the two databases is the structure `XDCX`: the token contracts'
  `decimals`, the address an order's signature recovers, the slots of the relayer registration
  contract that matching does not write (resign requests, token pairs, fee rates) and the
  cancellation-fee fork; `VerifyOrder` is built from them as the source builds it, and its
  error texts, which `ApplyOrder` only tests against `nil`, are left out;
* a trade record has no timestamp and no maker order type;
* a native balance below zero, which no account holds, is read as zero by `getTradeQuantity`;
* `none` is a run out of fuel; a revert to an unknown revision, a panic in Go, is `none` too,
  and never happens here.
-/

namespace XdcSubnet.XDCx

open Loop

/-- `common.BasePrice`. -/
def basePrice : ℕ := 1000000000000000000

/-- `common.RelayerLockedFund`. -/
def relayerLockedFund : ℕ := 20000

/-- `common.RelayerCancelFee`. -/
def relayerCancelFee : ℕ := 100000000000000

/-- `common.XDCXBaseCancelFee`. -/
def xdcxBaseCancelFee : ℕ := xdcxBaseFee * 10

/-- `GetTradingOrderBookHash`: the first 16 bytes of the base token's 20-byte address, then the
last 16 of the quote token's. -/
def getTradingOrderBookHash (baseToken quoteToken : Hash) : Hash :=
  baseToken / 2 ^ 32 * 2 ^ 128 + quoteToken % 2 ^ 128

/-- `int64` of a `uint64`: its 64 bits read as a signed number. -/
def int64OfUInt64 (n : ℕ) : ℤ :=
  if n % 2 ^ 64 < 2 ^ 63 then ((n % 2 ^ 64 : ℕ) : ℤ) else ((n % 2 ^ 64 : ℕ) : ℤ) - 2 ^ 64

/-! ### Orders, trades and errors -/

/-- `Type` of an order: `Market = "MO"`, `Limit = "LO"`, or any other text. -/
inductive OrderType
  | market
  | limit
  | unknown
  deriving DecidableEq, Repr

/-- `Status` of an order, as `ApplyOrder` tells them apart: `OrderStatusNew`,
`OrderStatusCancelled`, or any other. -/
inductive OrderStatus
  | new
  | cancelled
  | other
  deriving DecidableEq, Repr

/-- An order as it comes in: its fields, its type and status, and the nonce of the transaction
that carried it (`big.NewInt(int64(tx.Nonce()))`). -/
structure PlacedOrder extends TradedOrder where
  type : OrderType
  status : OrderStatus
  nonce : ℤ
  deriving DecidableEq, Repr

/-- A trade record (`tradeRecord`): the fees are there when settlement returned a result; the
price is the maker's. -/
structure Trade where
  takerOrderHash : Hash
  makerOrderHash : Hash
  quantity : ℕ
  makerExchange : Hash
  maker : Hash
  baseToken : Hash
  quoteToken : Hash
  fees : Option (ℕ × ℕ)
  price : ℕ
  deriving DecidableEq, Repr

/-- The errors that stop matching, with the data their texts print. -/
inductive MatchError
  /-- "Fail to get tokenDecimal. Token: %v . Err: %v". -/
  | tokenDecimal (token : Hash)
  /-- An error of `GetSettleBalance` or `DoSettleBalance`. -/
  | settle (e : SettleError)
  /-- An error of the trading state (`CancelOrder`). -/
  | trading (e : TradingError)
  /-- "order not found. OrderId: %v. Base: %s. Quote: %s". -/
  | orderNotFound (orderId : ℕ) (baseToken quoteToken : Hash)
  deriving DecidableEq, Repr

/-- The errors `ApplyOrder` returns: `ErrNonceTooHigh` and `ErrNonceTooLow`. -/
inductive ApplyError
  | nonceTooHigh
  | nonceTooLow
  deriving DecidableEq, Repr

/-- What the method `getTradeQuantity` returns: the quantity, whether to reject the maker, the
settlement it made and its error. -/
structure MatchQuantity where
  quantity : ℕ
  rejectMaker : Bool
  settleBalance : Option SettleBalance
  err : Option MatchError

/-- The state of a matching loop: the quantity still to trade, the trades and the rejected orders
so far, and the two databases. -/
structure Matching where
  quantityToTrade : ℕ
  trades : List Trade
  rejects : List TradedOrder
  tradingStateDB : TradingStateDB
  statedb : StateDB

/-! ### Reads and writes of the account state -/

/-- `CheckRelayerFee`: the relayer's deposit, less `fee`, still covers the locked fund. -/
def checkRelayerFee (relayer : Hash) (fee : ℕ) (statedb : StateDB) : Bool :=
  decide (((basePrice * relayerLockedFund : ℕ) : ℤ) ≤ (statedb.relayerDeposit relayer : ℤ) - fee)

/-- `SubRelayerFee`. -/
def subRelayerFee (relayer : Hash) (fee : ℕ) (statedb : StateDB) : Except SettleError StateDB :=
  let balance := statedb.relayerDeposit relayer
  if balance < fee then .error (.relayerFeeNotEnough relayer)
  else .ok (setSubRelayerFee relayer (balance - fee) fee statedb)

/-- `AddTokenBalance`. -/
def addTokenBalance (addr : Hash) (value : ℕ) (token : Hash) (statedb : StateDB) :
    Except SettleError StateDB :=
  if token = xdcNativeAddress then .ok (statedb.addBalance addr value)
  else if statedb.exist token then
    .ok (statedb.setTokenState token addr (statedb.tokenBalances token addr + value))
  else .error (.tokenNotExist token)

/-- `SubTokenBalance`. -/
def subTokenBalance (addr : Hash) (value : ℕ) (token : Hash) (statedb : StateDB) :
    Except SettleError StateDB :=
  if token = xdcNativeAddress then
    let balance := statedb.balance addr
    if balance < value then .error (.notEnough addr token balance value)
    else .ok (statedb.subBalance addr value)
  else if statedb.exist token then
    let balance : ℤ := statedb.tokenBalances token addr
    if balance < value then .error (.notEnough addr token balance value)
    else .ok (statedb.setTokenState token addr (balance - value))
  else .error (.tokenNotExist token)

/-- `getCancelFeeV1`: a tenth of the trading fee of the order's quantity, in the token the user
holds. -/
def getCancelFeeV1 (baseTokenDecimal feeRate : ℕ) (order : OrderItem) : ℕ :=
  if order.side = .ask then order.quantity * feeRate / xdcxBaseCancelFee
  else order.quantity * order.price / baseTokenDecimal * feeRate / xdcxBaseCancelFee

/-! ### The engine -/

/-- What the engine reads outside the trading state and the account state it writes: the token
contracts, the signatures, the slots of the registration contract that matching does not write,
and the cancellation-fee fork. -/
structure XDCX where
  /-- `decimals()` of a TRC21 token contract; `none` when the call fails. -/
  decimals : Hash → Option ℕ
  /-- `OrderSender` of the transaction that `verifySignature` rebuilds from an order: the address
  the order's signature recovers. -/
  orderSender : PlacedOrder → Hash
  /-- `RESIGN_REQUESTS[relayer]` of the registration contract is set (`IsResignedRelayer`). -/
  resignRequested : Hash → Bool
  /-- `RELAYER_LIST[relayer]._fromTokens` of the registration contract. -/
  fromTokens : Hash → List Hash
  /-- `RELAYER_LIST[relayer]._toTokens` of the registration contract. -/
  toTokens : Hash → List Hash
  /-- A relayer's `_fee` in the registration contract (`GetExRelayerFee`). -/
  exRelayerFee : Hash → ℕ
  /-- `IsTIPXDCXCancellationFee` at the block's number. -/
  isTIPXDCXCancellationFee : Bool

namespace XDCX

variable (xdcx : XDCX)

/-! ### `VerifyOrder` (`XDCx/tradingstate/orderitem.go`) -/

/-- `verifySignature`: the order's nonce parses as an `int64`, and the signature over the
transaction rebuilt from the order recovers the order's user. -/
def verifySignature (order : PlacedOrder) : Bool :=
  decide (-2 ^ 63 ≤ order.nonce ∧ order.nonce < 2 ^ 63) && xdcx.orderSender order == order.userAddress

/-- `VerifyBasicOrderInfo`: a new order has a positive price when it is a limit order, a positive
quantity, a known side and a known type; the status is new or cancelled; the signature is the
user's. -/
def verifyBasicOrderInfo (order : PlacedOrder) : Bool :=
  (order.status != .new ||
    ((order.type != .limit || decide (0 < order.price)) && decide (0 < order.quantity) &&
      order.side != .unknown && order.type != .unknown)) &&
  (order.status == .new || order.status == .cancelled) && xdcx.verifySignature order

/-- `IsValidRelayer`: the relayer's deposit is above the locked fund, and it has not asked to
resign. -/
def isValidRelayer (statedb : StateDB) (relayer : Hash) : Bool :=
  decide (basePrice * relayerLockedFund < statedb.relayerDeposit relayer) &&
    !xdcx.resignRequested relayer

/-- `VerifyPair`: the relayer's token lists have one length, and at an index where its base
token list holds `baseToken` its quote token list holds `quoteToken`. -/
def verifyPair (exchangeAddress baseToken quoteToken : Hash) : Bool :=
  let baseTokens := xdcx.fromTokens exchangeAddress
  let quoteTokens := xdcx.toTokens exchangeAddress
  baseTokens.length == quoteTokens.length &&
    ((List.range baseTokens.length).filter fun i => baseTokens.getD i 0 == baseToken).any
      fun i => quoteTokens.getD i 0 == quoteToken

/-- `VerifyOrder`: the basic fields, the relayer, and for a new order the pair. -/
def verifyOrder (statedb : StateDB) (order : PlacedOrder) : Bool :=
  xdcx.verifyBasicOrderInfo order && xdcx.isValidRelayer statedb order.exchangeAddress &&
    (order.status != .new ||
      xdcx.verifyPair order.exchangeAddress order.baseToken order.quoteToken)

/-! ### Prices and fees -/

/-- `GetTokenDecimal`: `BasePrice` for XDC, else ten to the contract's `decimals()`. -/
def getTokenDecimal (token : Hash) : Option ℕ :=
  if token = xdcNativeAddress then some basePrice else (xdcx.decimals token).map (10 ^ ·)

/-- `GetAveragePriceLastEpoch`: the pair's average price of the last epoch, else one computed
from the inverse pair's. -/
def getAveragePriceLastEpoch (db : TradingStateDB) (baseToken quoteToken : Hash) :
    Except MatchError (Option ℕ) :=
  let price := db.getMediumPriceBeforeEpoch (getTradingOrderBookHash baseToken quoteToken)
  if 0 < price then .ok (some price) else
  let inversePrice := db.getMediumPriceBeforeEpoch (getTradingOrderBookHash quoteToken baseToken)
  if 0 < inversePrice then
    match xdcx.getTokenDecimal quoteToken with
    | none => .error (.tokenDecimal quoteToken)
    | some quoteTokenDecimal =>
      if quoteTokenDecimal = 0 then .error (.tokenDecimal quoteToken) else
      match xdcx.getTokenDecimal baseToken with
      | none => .error (.tokenDecimal baseToken)
      | some baseTokenDecimal =>
        if baseTokenDecimal = 0 then .error (.tokenDecimal baseToken)
        else .ok (some (baseTokenDecimal * quoteTokenDecimal / inversePrice))
  else .ok none

/-- `ConvertXDCToToken`: an XDC quantity in `token`, with the token's price in XDC. -/
def convertXDCToToken (db : TradingStateDB) (token : Hash) (quantity : ℕ) :
    Except MatchError (ℕ × ℕ) :=
  if token = xdcNativeAddress then .ok (quantity, basePrice) else
  match xdcx.getAveragePriceLastEpoch db token xdcNativeAddress with
  | .error e => .error e
  | .ok none => .ok (0, 0)
  | .ok (some tokenPriceInXDC) =>
    if tokenPriceInXDC = 0 then .ok (0, 0) else
    match xdcx.getTokenDecimal token with
    | none => .error (.tokenDecimal token)
    | some tokenDecimal =>
      if tokenDecimal = 0 then .error (.tokenDecimal token)
      else .ok (quantity * tokenDecimal / tokenPriceInXDC, tokenPriceInXDC)

/-- `getCancelFee`: `RelayerCancelFee` in the token the user holds, with its price in XDC; zero
when the relayer charges no fee or the conversion fails. -/
def getCancelFee (db : TradingStateDB) (order : TradedOrder) (feeRate : ℕ) : ℕ × ℕ :=
  if feeRate = 0 then (0, 0) else
  let token := if order.side = .ask then order.baseToken else order.quoteToken
  match xdcx.convertXDCToToken db token relayerCancelFee with
  | .ok r => r
  | .error _ => (0, 0)

/-- `ProcessCancelOrder`: its error and whether the cancellation is rejected, with the two
databases it leaves.  The errors of the fee transfers are only logged. -/
def processCancelOrder (coinbase : Hash) (db : TradingStateDB) (statedb : StateDB)
    (orderBook : Hash) (order : PlacedOrder) :
    (Option MatchError × Bool) × TradingStateDB × StateDB :=
  if !checkRelayerFee order.exchangeAddress relayerCancelFee statedb then ((none, true), db, statedb)
  else
  match xdcx.getTokenDecimal order.baseToken with
  | none => ((some (.tokenDecimal order.baseToken), false), db, statedb)
  | some baseTokenDecimal =>
  -- a zero decimal returns the nil error of the lookup
  if baseTokenDecimal = 0 then ((none, false), db, statedb) else
  -- `GetOrder` returns the `EmptyOrder` value itself exactly when no item is stored
  match (db.exchanges.get orderBook).bind fun x => x.orders.get order.orderID with
  | none =>
    ((some (.orderNotFound order.orderID order.baseToken order.quoteToken), false), db, statedb)
  | some item =>
  let originOrder : TradedOrder :=
    { toOrderItem := item, baseToken := order.baseToken, quoteToken := order.quoteToken }
  if originOrder.side = .unknown then ((none, false), db, statedb) else
  let token := if originOrder.side = .ask then originOrder.baseToken else originOrder.quoteToken
  let tokenBalance := getTokenBalance originOrder.userAddress token statedb
  let feeRate := xdcx.exRelayerFee originOrder.exchangeAddress
  let tokenCancelFee := if !xdcx.isTIPXDCXCancellationFee then
      getCancelFeeV1 baseTokenDecimal feeRate originOrder.toOrderItem
    else (xdcx.getCancelFee db originOrder feeRate).1
  if tokenBalance < tokenCancelFee then ((none, true), db, statedb) else
  let (db, r) := db.cancelOrder orderBook order.toOrderItem
  match r with
  | .error e => ((some (.trading e), false), db, statedb)
  | .ok () =>
    let statedb :=
      logged (subRelayerFee originOrder.exchangeAddress relayerCancelFee statedb) statedb
    let statedb := statedb.addBalance (statedb.owner coinbase) relayerCancelFee
    let relayerOwner := getRelayerOwner originOrder.exchangeAddress statedb
    let statedb := logged (subTokenBalance originOrder.userAddress tokenCancelFee token statedb)
      statedb
    let statedb := logged (addTokenBalance relayerOwner tokenCancelFee token statedb) statedb
    ((none, false), db, statedb)

/-- The quote token's price in XDC, as `processOrderList` looks it up before each match: its
last price against XDC, else `BasePrice` scaled by the inverse pair's last price, else what
the first lookup gave. -/
def quotePriceOf (db : TradingStateDB) (quoteToken : Hash) : Except MatchError (Option ℕ) :=
  if quoteToken = xdcNativeAddress then .ok (some basePrice) else
  let quotePrice := db.getLastPrice (getTradingOrderBookHash quoteToken xdcNativeAddress)
  if 0 < quotePrice.getD 0 then .ok quotePrice else
  let inversePrice := db.getLastPrice (getTradingOrderBookHash xdcNativeAddress quoteToken)
  match xdcx.getTokenDecimal quoteToken with
  | none => .error (.tokenDecimal quoteToken)
  | some quoteTokenDecimal =>
    if quoteTokenDecimal = 0 then .error (.tokenDecimal quoteToken)
    else if 0 < inversePrice.getD 0 then
      .ok (some (basePrice * quoteTokenDecimal / inversePrice.getD 0))
    else .ok quotePrice

/-- The part of `getTradeQuantity` after the relayers' deposits are checked: the quantity the two
balances afford, settled when it is positive. -/
def settleTradeQuantity (quotePrice : Option ℕ) (coinbase : Hash) (statedb : StateDB)
    (takerOrder makerOrder : TradedOrder) (baseTokenDecimal quoteTokenDecimal quantityToTrade : ℕ) :
    MatchQuantity × StateDB :=
  let takerFeeRate := xdcx.exRelayerFee takerOrder.exchangeAddress
  let makerFeeRate := xdcx.exRelayerFee makerOrder.exchangeAddress
  let (takerBalance, makerBalance) : ℤ × ℤ := match takerOrder.side with
    | .bid => (getTokenBalance takerOrder.userAddress makerOrder.quoteToken statedb,
        getTokenBalance makerOrder.userAddress makerOrder.baseToken statedb)
    | .ask => (getTokenBalance takerOrder.userAddress makerOrder.baseToken statedb,
        getTokenBalance makerOrder.userAddress makerOrder.quoteToken statedb)
    | .unknown => (0, 0)
  let (quantity, rejectMaker) := XDCx.getTradeQuantity takerOrder.side takerFeeRate
    takerBalance.toNat makerOrder.price makerFeeRate makerBalance.toNat baseTokenDecimal
    quantityToTrade
  if 0 < quantity then
    match getSettleBalance quotePrice takerOrder.side takerFeeRate makerOrder.baseToken
        makerOrder.quoteToken makerOrder.price makerFeeRate baseTokenDecimal quoteTokenDecimal
        quantity with
    | .error e => (⟨quantity, rejectMaker, none, some (.settle e)⟩, statedb)
    | .ok settleBalance =>
      match doSettleBalance coinbase takerOrder makerOrder settleBalance statedb with
      | .error e => (⟨quantity, rejectMaker, some settleBalance, some (.settle e)⟩, statedb)
      | .ok statedb' => (⟨quantity, rejectMaker, some settleBalance, none⟩, statedb')
  else (⟨quantity, rejectMaker, none, none⟩, statedb)

/-- The method `getTradeQuantity`: the tokens' decimals, the relayers' deposits, then
`settleTradeQuantity`.  A relayer short of its deposit gives no trade, and rejects the maker
when it is the maker's. -/
def getTradeQuantity (quotePrice : Option ℕ) (coinbase : Hash) (statedb : StateDB)
    (takerOrder makerOrder : TradedOrder) (quantityToTrade : ℕ) : MatchQuantity × StateDB :=
  let fail (token : Hash) : MatchQuantity × StateDB :=
    (⟨0, false, none, some (.tokenDecimal token)⟩, statedb)
  let skip (rejectMaker : Bool) : MatchQuantity × StateDB := (⟨0, rejectMaker, none, none⟩, statedb)
  match xdcx.getTokenDecimal makerOrder.baseToken with
  | none => fail makerOrder.baseToken
  | some baseTokenDecimal =>
  if baseTokenDecimal = 0 then fail makerOrder.baseToken else
  match xdcx.getTokenDecimal makerOrder.quoteToken with
  | none => fail makerOrder.quoteToken
  | some quoteTokenDecimal =>
  if quoteTokenDecimal = 0 then fail makerOrder.quoteToken else
  let quotePrice := if makerOrder.quoteToken = xdcNativeAddress then some quoteTokenDecimal
    else quotePrice
  let settle := xdcx.settleTradeQuantity quotePrice coinbase statedb takerOrder makerOrder
    baseTokenDecimal quoteTokenDecimal quantityToTrade
  if takerOrder.exchangeAddress = makerOrder.exchangeAddress then
    if checkRelayerFee takerOrder.exchangeAddress (relayerFee * 2) statedb then settle
    else skip false
  else if !checkRelayerFee takerOrder.exchangeAddress relayerFee statedb then skip false
  else if !checkRelayerFee makerOrder.exchangeAddress relayerFee statedb then skip true
  else settle

/-- A rejected maker is cancelled; the loop returns the cancellation's error, or else goes round
again, or leaves when `stop`. -/
def cancelMaker (orderBook : Hash) (maker : TradedOrder) (stop : Bool) (s : Matching) :
    Pass MatchError Matching :=
  let (db, r) := s.tradingStateDB.cancelOrder orderBook maker.toOrderItem
  let s := { s with tradingStateDB := db }
  match r with
  | .error e => .fail (.trading e) s
  | .ok () => if stop then .exit s else .next s

/-- A match of `traded` with the maker `orderId`: the quantity and the maker's order lose it, the
book's last and average prices are set, and the trade is recorded. -/
def recordTrade (orderBook orderId price : Hash) (side : Side) (order maker : TradedOrder)
    (traded : ℕ) (settleBalance : Option SettleBalance) (s : Matching) : Matching :=
  -- the error of `SubAmountOrderItem` is only logged
  let db := (s.tradingStateDB.subAmountOrderItem orderBook orderId price traded side).1
  let db := db.setLastPrice orderBook (some price)
  let trade : Trade := ⟨order.hash, maker.hash, traded, maker.exchangeAddress, maker.userAddress,
    maker.baseToken, maker.quoteToken, settleBalance.map fun r => (r.maker.fee, r.taker.fee),
    maker.price⟩
  let (oldAveragePrice, oldTotalQuantity) := db.getMediumPriceAndTotalAmount orderBook
  let (newAveragePrice, newTotalQuantity) :=
    if oldAveragePrice = 0 ∨ oldTotalQuantity = 0 then (price, traded)
    else ((oldAveragePrice * oldTotalQuantity + price * traded) / (oldTotalQuantity + traded),
      oldTotalQuantity + traded)
  { s with
    quantityToTrade := s.quantityToTrade - traded
    trades := s.trades ++ [trade]
    tradingStateDB := db.setMediumPrice orderBook newAveragePrice newTotalQuantity }

/-- One pass of the loop of `processOrderList`, at `price` on the makers' `side`. -/
def processOrderListStep (coinbase : Hash) (side : Side) (orderBook price : Hash)
    (order : TradedOrder) (s : Matching) : Pass MatchError Matching :=
  let db := s.tradingStateDB
  let quantityToTrade := s.quantityToTrade
  -- an error of the lookup gives the empty hash and a zero amount
  let (orderId, amount) := (db.getBestOrderIdAndAmount orderBook price side).toOption.getD (0, 0)
  -- Go's zero `OrderItem` has a nil quantity, so the loop leaves exactly when the amount is zero
  if amount = 0 then .exit s else
  let oldestOrder : TradedOrder :=
    { toOrderItem := db.getOrder orderBook orderId
      baseToken := order.baseToken
      quoteToken := order.quoteToken }
  let maxTradedQuantity := if quantityToTrade ≤ amount then quantityToTrade else amount
  match xdcx.quotePriceOf db order.quoteToken with
  | .error e => .fail e s
  | .ok quotePrice =>
  let (r, statedb) :=
    xdcx.getTradeQuantity quotePrice coinbase s.statedb order oldestOrder maxTradedQuantity
  let s := { s with statedb }
  let rejectTaker : Pass MatchError Matching :=
    .exit { s with rejects := s.rejects ++ [order], quantityToTrade := 0 }
  match r.err with
  | some (.settle .quantityTradeTooSmall) =>
    if r.quantity = maxTradedQuantity then
      if quantityToTrade = amount then
        cancelMaker orderBook oldestOrder true
          { s with rejects := s.rejects ++ [order, oldestOrder], quantityToTrade := 0 }
      else if quantityToTrade < amount then rejectTaker
      else cancelMaker orderBook oldestOrder false { s with rejects := s.rejects ++ [oldestOrder] }
    else if r.rejectMaker then
      cancelMaker orderBook oldestOrder false { s with rejects := s.rejects ++ [oldestOrder] }
    else rejectTaker
  | some e => .fail e s
  | none =>
    if r.quantity = 0 ∧ r.rejectMaker = false then rejectTaker else
    let s := if 0 < r.quantity then
        recordTrade orderBook orderId price side order oldestOrder r.quantity r.settleBalance s
      else s
    if r.rejectMaker then
      cancelMaker orderBook oldestOrder false { s with rejects := s.rejects ++ [oldestOrder] }
    else .next s

/-- `processOrderList`: match `order` against the orders at `price` on the makers' `side`, the
lowest order id first, while quantity is left. -/
def processOrderList (fuel : ℕ) (coinbase : Hash) (side : Side) (orderBook price : Hash)
    (quantityStillToTrade : ℕ) (order : TradedOrder) (tradingStateDB : TradingStateDB)
    (statedb : StateDB) : Option (Except (MatchError × Matching) Matching) :=
  run (fun s => decide (0 < s.quantityToTrade))
    (fun s => some (xdcx.processOrderListStep coinbase side orderBook price order s)) fuel
    ⟨quantityStillToTrade, [], [], tradingStateDB, statedb⟩

/-- The makers' side for a taker's side: asks for a bid, bids for anything else. -/
def makerSide (takerSide : Side) : Side := if takerSide = .bid then .ask else .bid

/-- The best price of the makers' side: the lowest ask for a bid, the highest bid otherwise. -/
def bestMakerPrice (db : TradingStateDB) (orderBook : Hash) (takerSide : Side) : ℕ :=
  if takerSide = .bid then (db.getBestAskPrice orderBook).1 else (db.getBestBidPrice orderBook).1

/-- The loop of `processMarketOrder` and `processLimitOrder`: while quantity is left and the
best price of the makers' side is positive and `crosses` it, match the order at that price and
collect what `processOrderList` returns. -/
def matchBestPrices (fuel : ℕ) (coinbase orderBook : Hash) (order : TradedOrder)
    (crosses : ℕ → Bool) (s : Matching) : Option (Except (MatchError × Matching) Matching) :=
  let best (s : Matching) := bestMakerPrice s.tradingStateDB orderBook order.side
  run (fun s => decide (0 < s.quantityToTrade) && crosses (best s) && decide (0 < best s))
    (fun s => (xdcx.processOrderList fuel coinbase (makerSide order.side) orderBook (best s)
        s.quantityToTrade order s.tradingStateDB s.statedb).map fun
      | .ok r => .next { r with trades := s.trades ++ r.trades, rejects := s.rejects ++ r.rejects }
      | .error (e, r) => .fail e r)
    fuel s

/-- The trades and rejected orders of a matching run, or its error, with the two databases. -/
abbrev Matched := Except MatchError (List Trade × List TradedOrder) × TradingStateDB × StateDB

/-- A finished matching loop as its caller returns it. -/
def matched : Except (MatchError × Matching) Matching → Matched
  | .ok s => (.ok (s.trades, s.rejects), s.tradingStateDB, s.statedb)
  | .error (e, s) => (.error e, s.tradingStateDB, s.statedb)

/-- `processMarketOrder`: match at any price. -/
def processMarketOrder (fuel : ℕ) (coinbase : Hash) (statedb : StateDB)
    (tradingStateDB : TradingStateDB) (orderBook : Hash) (order : TradedOrder) : Option Matched :=
  (xdcx.matchBestPrices fuel coinbase orderBook order (fun _ => true)
    ⟨order.quantity, [], [], tradingStateDB, statedb⟩).map matched

/-- `processLimitOrder`: match at prices no worse than the order's, then list what is left
under the book's next order id. -/
def processLimitOrder (fuel : ℕ) (coinbase : Hash) (statedb : StateDB)
    (tradingStateDB : TradingStateDB) (orderBook : Hash) (order : TradedOrder) : Option Matched :=
  let crosses (best : ℕ) : Bool :=
    if order.side = .bid then decide (best ≤ order.price) else decide (order.price ≤ best)
  (xdcx.matchBestPrices fuel coinbase orderBook order crosses
    ⟨order.quantity, [], [], tradingStateDB, statedb⟩).map fun
    | .ok s =>
      if 0 < s.quantityToTrade then
        let orderID := (s.tradingStateDB.getNonce orderBook + 1) % 2 ^ 64
        let db := s.tradingStateDB.setNonce orderBook orderID
        let db := db.insertOrderItem orderBook orderID
          { order.toOrderItem with orderID, quantity := s.quantityToTrade }
        (.ok (s.trades, s.rejects), db, s.statedb)
      else matched (.ok s)
    | .error r => matched (.error r)

/-- The run of `ApplyOrder`: its result and the two databases. -/
abbrev Applied := Except ApplyError (List Trade × List TradedOrder) × TradingStateDB × StateDB

/-- `ApplyOrder`.  A rejection returns the order with no error, so the deferred revert undoes
only a failed match, back to the state just after the nonce was set. -/
def applyOrder (fuel : ℕ) (coinbase : Hash) (statedb : StateDB) (tradingStateDB : TradingStateDB)
    (orderBook : Hash) (order : PlacedOrder) : Option Applied :=
  let nonce := tradingStateDB.getNonce order.userAddress
  if int64OfUInt64 nonce < order.nonce then some (.error .nonceTooHigh, tradingStateDB, statedb)
  else if order.nonce < int64OfUInt64 nonce then
    some (.error .nonceTooLow, tradingStateDB, statedb)
  else
  let db := tradingStateDB.setNonce order.userAddress ((nonce + 1) % 2 ^ 64)
  let (db, xdcxSnap) := db.snapshot
  let reject : Option Applied := some (.ok ([], [order.toTradedOrder]), db, statedb)
  if !xdcx.verifyOrder statedb order then reject
  else if order.status = .cancelled then
    -- the error of `ProcessCancelOrder` is a new variable, which the deferred revert never sees
    let ((err, rejected), db, statedb) :=
      xdcx.processCancelOrder coinbase db statedb orderBook order
    some (.ok ([], if err.isSome || rejected then [order.toTradedOrder] else []), db, statedb)
  else if order.type ≠ .market ∧ (order.price = 0 ∨ bigToHash order.price ≠ order.price) then
    reject
  else if order.quantity = 0 ∨ bigToHash order.quantity ≠ order.quantity then reject
  else
  let processed := if order.type = .market then
      xdcx.processMarketOrder fuel coinbase statedb db orderBook order.toTradedOrder
    else xdcx.processLimitOrder fuel coinbase statedb db orderBook order.toTradedOrder
  processed.bind fun
    | (.ok r, db', statedb') => some (.ok r, db', statedb')
    | (.error _, db', _) =>
      (db'.revertToSnapshot xdcxSnap).map fun db'' => (.ok ([], [order.toTradedOrder]), db'', statedb)

/-- `CommitOrder`: `ApplyOrder`, with both databases reverted when it fails. -/
def commitOrder (fuel : ℕ) (coinbase : Hash) (statedb : StateDB) (tradingStateDB : TradingStateDB)
    (orderBook : Hash) (order : PlacedOrder) : Option Applied :=
  let (db, xdcxSnap) := tradingStateDB.snapshot
  (xdcx.applyOrder fuel coinbase statedb db orderBook order).bind fun
    | (.ok r, db', statedb') => some (.ok r, db', statedb')
    | (.error e, db', _) => (db'.revertToSnapshot xdcxSnap).map fun db'' => (.error e, db'', statedb)

end XDCX

end XdcSubnet.XDCx
