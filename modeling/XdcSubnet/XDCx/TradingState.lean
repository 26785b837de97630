import XdcSubnet.Lib.WriteBack
import XdcSubnet.Lib.Journal

/-!
# The trading state database (`XDCx/tradingstate`)

`TradingStateDB` keeps one exchange object per order book.  Each exchange holds its scalar
data (nonce, last price, medium prices, lending count) and four tries: the ask and bid price
tries (price ↦ order list), the order trie (order id ↦ order item) and the liquidation-price
trie (price ↦ lending books ↦ trade ids).  Every trie is a write-back store of the library
`WriteBack`: its live objects are changed in memory, marked dirty through one-shot
`onDirty` callbacks, and written back by `Finalise` and `Commit`; the price tries are also
written directly, when an order list or a liquidation price is created (its key is added at
once) and when one becomes empty (its key is deleted at once).  The exchanges themselves are
a write-back store of the database, whose dirty set `Finalise` keeps and `Commit` clears.

Every change records a journal entry; `RevertToSnapshot` undoes the entries newest first by
calling the forward operations again (`undo`).

Model choices:
* hashes, order ids, prices and addresses are numbers (`BigToHash` is the identity);
* an order list's storage trie and its caches are one table of amounts, the keys of which
  are the keys of the list's trie;
* a lending book's trade-id cache and trie are one list of ids;
* reads are pure: a getter that would make an object live (or, through
  `GetOrNewStateExchangeObject`, create an exchange) returns what the Go getter returns and
  keeps the state, since loading changes no later read (`WriteBack.Store.get_load`);
* the database errors that the Go code memoises in `dbErr` do not arise.
-/

namespace XdcSubnet.XDCx

open WriteBack Journal

/-- A hash, order id, price or address, read as a number. -/
abbrev Hash := ℕ

/-- The side of an order (`Ask = "SELL"`, `Bid = "BUY"`); `unknown` is any other text. -/
inductive Side
  | ask
  | bid
  | unknown
  deriving DecidableEq, Repr

/-- The fields of `OrderItem` that the trading state reads. -/
structure OrderItem where
  quantity : ℕ
  price : ℕ
  exchangeAddress : Hash
  userAddress : Hash
  side : Side
  hash : Hash
  orderID : ℕ
  deriving DecidableEq, Repr

/-- `EmptyOrder`: quantity zero, every other field unset. -/
def emptyOrder : OrderItem := ⟨0, 0, 0, 0, .unknown, 0, 0⟩

/-- `stateOrderItem.empty`. -/
def OrderItem.empty (o : OrderItem) : Bool := o.quantity == 0

/-- An order list (`orderList` with its storage trie): the volume and the amount listed for
each order id. -/
structure OrderList where
  volume : ℤ
  amounts : Table Hash ℕ

namespace OrderList

/-- The list `createStateOrderList...Object` makes: volume zero, no order. -/
def new : OrderList := ⟨0, ∅⟩

/-- `stateOrderList.empty`. -/
def empty (l : OrderList) : Bool := l.volume == 0

/-- `GetOrderAmount`: the listed amount, zero when the id is not listed. -/
def getOrderAmount (l : OrderList) (orderId : Hash) : ℕ := (l.amounts.lookup orderId).getD 0

/-- `insertOrderItem` and `setOrderItem`: list `orderId` with `amount`. -/
def insertOrderItem (l : OrderList) (orderId : Hash) (amount : ℕ) : OrderList :=
  { l with amounts := l.amounts.insert orderId amount }

/-- `removeOrderItem`. -/
def removeOrderItem (l : OrderList) (orderId : Hash) : OrderList :=
  { l with amounts := l.amounts.erase orderId }

/-- `AddVolume`. -/
def addVolume (l : OrderList) (amount : ℕ) : OrderList := { l with volume := l.volume + amount }

/-- `subVolume`. -/
def subVolume (l : OrderList) (amount : ℕ) : OrderList := { l with volume := l.volume - amount }

end OrderList

/-- A lending book under a liquidation price (`stateLendingBook`): its volume and trade ids. -/
structure LendingBook where
  volume : ℤ
  tradeIds : List ℕ

/-- `stateLendingBook.Exist`: every branch that does not meet a database error says yes. -/
def LendingBook.exist (_ : LendingBook) (_ : ℕ) : Bool := true

/-- A liquidation price (`liquidationPriceState`): its volume and its lending books. -/
structure LiquidationPrice where
  volume : ℤ
  lendingBooks : Table Hash LendingBook

namespace LiquidationPrice

/-- The price `createStateLiquidationPrice` makes. -/
def new : LiquidationPrice := ⟨0, ∅⟩

/-- `liquidationPriceState.empty`. -/
def empty (p : LiquidationPrice) : Bool := p.volume == 0

/-- `getAllLiquidationData`, keeping the lending books with some trade id (as the getters do):
every lending book of non-zero volume with its trade ids. -/
def liquidationData (p : LiquidationPrice) : List (Hash × List ℕ) :=
  p.lendingBooks.entries.filterMap fun e =>
    if e.2.volume ≠ 0 ∧ e.2.tradeIds ≠ [] then some (e.1, e.2.tradeIds) else none

end LiquidationPrice

/-- An exchange object (`tradingExchanges`): its data and its four tries. -/
structure Exchange where
  nonce : ℕ
  lastPrice : Option ℕ
  mediumPriceBeforeEpoch : ℕ
  mediumPrice : ℕ
  totalQuantity : ℕ
  lendingCount : ℤ
  asks : Store ℕ OrderList
  bids : Store ℕ OrderList
  orders : Store Hash OrderItem
  liquidationPrices : Store ℕ LiquidationPrice

namespace Exchange

/-- The exchange `createExchangeObject` makes: zero counters, no last price, empty tries. -/
def new : Exchange := ⟨0, none, 0, 0, 0, 0, .empty, .empty, .empty, .empty⟩

/-- The price trie of one side (the switch on the side); none for any other side. -/
def orderLists (x : Exchange) : Side → Option (Store ℕ OrderList)
  | .ask => some x.asks
  | .bid => some x.bids
  | .unknown => none

/-- Replace the price trie of one side. -/
def setOrderLists (x : Exchange) : Side → Store ℕ OrderList → Exchange
  | .ask, s => { x with asks := s }
  | .bid, s => { x with bids := s }
  | .unknown, _ => x

/-- `updateAsksRoot`, `updateBidsRoot`, `updateOrdersRoot` and `updateLiquidationPriceRoot`:
write back the dirty objects of the four tries. -/
def flush (x : Exchange) : Exchange :=
  { x with
    asks := x.asks.flush OrderList.empty id id
    bids := x.bids.flush OrderList.empty id id
    orders := x.orders.flush OrderItem.empty id id
    liquidationPrices := x.liquidationPrices.flush LiquidationPrice.empty id id }

/-- The exchange as it is encoded in the state trie: its data and the roots of its tries. -/
def persisted (x : Exchange) : Exchange :=
  { x with
    asks := x.asks.persisted
    bids := x.bids.persisted
    orders := x.orders.persisted
    liquidationPrices := x.liquidationPrices.persisted }

end Exchange

/-- The journal entries (`journal.go`). -/
inductive JournalEntry
  | insertOrder (orderBook orderId : Hash) (order : OrderItem)
  | cancelOrder (orderBook orderId : Hash) (order : OrderItem)
  | subAmountOrder (orderBook orderId : Hash) (order : OrderItem) (amount : ℕ)
  | nonceChange (hash : Hash) (prev : ℕ)
  | lastPriceChange (hash : Hash) (prev : Option ℕ)
  | mediumPriceChange (hash : Hash) (prevPrice prevQuantity : ℕ)
  | mediumPriceBeforeEpochChange (hash : Hash) (prevPrice : ℕ)
  | insertLiquidationPrice (orderBook : Hash) (price : ℕ) (lendingBook : Hash) (tradeId : ℕ)
  | removeLiquidationPrice (orderBook : Hash) (price : ℕ) (lendingBook : Hash) (tradeId : ℕ)

/-- The errors of the trading state's operations, with the values their messages print. -/
inductive TradingError
  | orderTypeNotFound (side : Side)
  | orderListEmpty (orderBook orderId price : Hash)
  | orderItemEmpty (orderBook orderId : Hash)
  | orderAmountNotEnough (orderId current wanted : ℕ)
  | orderSideNotFound (side : Side)
  | userAddressMismatch (orderBook orderId : Hash)
  | invalidOrderHash (got expect : Hash)
  | exchangeAddressMismatch (orderBook orderId : Hash)
  | orderBookNotFound (orderBook : Hash)
  | liquidationPriceNotFound (orderBook price : Hash)
  | lendingBookNotFound (orderBook price lendingBook : Hash)
  | tradeIdNotFound (orderBook price lendingBook : Hash) (tradeId : ℕ)
  | notFoundSide (side : Side)
  | notFoundOrderList (orderBook price : Hash) (side : Side)
  deriving DecidableEq, Repr

/-- `TradingStateDB`: the exchanges (live, stored and dirty) and the journal. -/
structure TradingStateDB where
  exchanges : Store Hash Exchange
  log : Log JournalEntry

namespace TradingStateDB

/-- The state `New` opens on an empty root. -/
def empty : TradingStateDB := ⟨.empty, .empty⟩

/-! ### Exchanges -/

/-- `GetOrNewStateExchangeObject`: the exchange, or a new one.  `createExchangeObject` sets
the nonce of the new object, which fires its callback at once: the new exchange is dirty and
its callback is spent. -/
def getOrNewExchange (db : TradingStateDB) (h : Hash) : TradingStateDB × Exchange :=
  match db.exchanges.get h with
  | some x => (db, x)
  | none => ({ db with exchanges := ((db.exchanges.create h .new).notify h).1 }, .new)

/-- Store a changed exchange; `fired` says whether its callback was called
(`MarkStateExchangeObjectDirty`). -/
def putExchange (db : TradingStateDB) (h : Hash) (x : Exchange) (fired : Bool) : TradingStateDB :=
  let s := db.exchanges.update h x
  { db with exchanges := if fired then (s.notify h).1 else s }

/-- Append a journal entry. -/
def record (db : TradingStateDB) (e : JournalEntry) : TradingStateDB :=
  { db with log := db.log.append e }

/-! ### Scalar setters -/

/-- The body shared by `SetNonce`, `SetLastPrice`, `SetMediumPrice` and
`SetMediumPriceBeforeEpoch`: record the field's previous value, then set it (the setter fires
the exchange's callback). -/
def setExchangeField (entry : Hash → Exchange → JournalEntry) (set : Exchange → Exchange)
    (db : TradingStateDB) (addr : Hash) : TradingStateDB :=
  let (db, x) := db.getOrNewExchange addr
  (db.record (entry addr x)).putExchange addr (set x) true

/-- `SetNonce`. -/
def setNonce (db : TradingStateDB) (addr : Hash) (nonce : ℕ) : TradingStateDB :=
  setExchangeField (fun h x => .nonceChange h x.nonce) (fun x => { x with nonce }) db addr

/-- `SetLastPrice`. -/
def setLastPrice (db : TradingStateDB) (addr : Hash) (price : Option ℕ) : TradingStateDB :=
  setExchangeField (fun h x => .lastPriceChange h x.lastPrice) (fun x => { x with lastPrice := price })
    db addr

/-- `SetMediumPrice`. -/
def setMediumPrice (db : TradingStateDB) (addr : Hash) (price quantity : ℕ) : TradingStateDB :=
  setExchangeField (fun h x => .mediumPriceChange h x.mediumPrice x.totalQuantity)
    (fun x => { x with mediumPrice := price, totalQuantity := quantity }) db addr

/-- `SetMediumPriceBeforeEpoch`. -/
def setMediumPriceBeforeEpoch (db : TradingStateDB) (addr : Hash) (price : ℕ) : TradingStateDB :=
  setExchangeField (fun h x => .mediumPriceBeforeEpochChange h x.mediumPriceBeforeEpoch)
    (fun x => { x with mediumPriceBeforeEpoch := price }) db addr

/-! ### Orders -/

/-- `InsertOrderItem`.  A missing order list is created, and its key written to the price
trie at once; an order list that is live stays as it is, whatever its volume. -/
def insertOrderItem (db : TradingStateDB) (orderBook orderId : Hash) (order : OrderItem) :
    TradingStateDB :=
  let (db, x) := db.getOrNewExchange orderBook
  match x.orderLists order.side with
  | none => db
  | some lists =>
    let (lists, l) := match lists.get order.price with
      | some l => (lists, l)
      | none => ((lists.create order.price .new).write order.price .new, .new)
    let orders := x.orders.create order.orderID order
    let l := (l.insertOrderItem orderId order.quantity).addVolume order.quantity
    let lists := (lists.modify order.price l).1
    -- `createStateOrderObject` calls the exchange's callback itself
    ((db.record (.insertOrder orderBook orderId order)).putExchange orderBook
      { x.setOrderLists order.side lists with orders } true)

/-- `SubAmountOrderItem`: take `amount` off a resting order; the list's key leaves the price
trie at once when the list becomes empty. -/
def subAmountOrderItem (db : TradingStateDB) (orderBook orderId : Hash) (price amount : ℕ)
    (side : Side) : TradingStateDB × Except TradingError Unit :=
  let (db, x) := db.getOrNewExchange orderBook
  match x.orderLists side with
  | none => (db, .error (.orderTypeNotFound side))
  | some lists =>
    match lists.get price with
    | none => (db, .error (.orderListEmpty orderBook orderId price))
    | some l =>
      if l.empty then (db, .error (.orderListEmpty orderBook orderId price)) else
      match x.orders.get orderId with
      | none => (db, .error (.orderItemEmpty orderBook orderId))
      | some item =>
        if item.empty then (db, .error (.orderItemEmpty orderBook orderId)) else
        let currentAmount := l.getOrderAmount orderId
        if currentAmount < amount then
          (db, .error (.orderAmountNotEnough orderId currentAmount amount)) else
        let newAmount := currentAmount - amount
        let (orders, firedItem) := x.orders.modify orderId { item with quantity := newAmount }
        let l := l.subVolume amount
        let l := if newAmount = 0 then l.removeOrderItem orderId else l.insertOrderItem orderId newAmount
        let (lists, firedList) := lists.modify price l
        let lists := if l.empty then lists.delete price else lists
        (((db.record (.subAmountOrder orderBook orderId item amount)).putExchange orderBook
          { x.setOrderLists side lists with orders } (firedItem || firedList)), .ok ())

/-- `CancelOrder`: the order is found by `order.OrderID`, checked against the stored item, and
its amount taken off its list; the list's key leaves the price trie at once when the list
becomes empty, and the item stays, with quantity zero. -/
def cancelOrder (db : TradingStateDB) (orderBook : Hash) (order : OrderItem) :
    TradingStateDB × Except TradingError Unit :=
  let orderIdHash := order.orderID
  let (db, x) := db.getOrNewExchange orderBook
  match x.orders.get orderIdHash with
  | none => (db, .error (.orderItemEmpty orderBook orderIdHash))
  | some item =>
    if item.empty then (db, .error (.orderItemEmpty orderBook orderIdHash)) else
    match x.orderLists item.side with
    | none => (db, .error (.orderSideNotFound order.side))
    | some lists =>
      match lists.get item.price with
      | none => (db, .error (.orderListEmpty orderBook orderIdHash item.price))
      | some l =>
        if l.empty then (db, .error (.orderListEmpty orderBook orderIdHash item.price)) else
        if item.userAddress ≠ order.userAddress then
          (db, .error (.userAddressMismatch orderBook orderIdHash)) else
        if item.hash ≠ order.hash then (db, .error (.invalidOrderHash order.hash item.hash)) else
        if item.exchangeAddress ≠ order.exchangeAddress then
          (db, .error (.exchangeAddressMismatch orderBook orderIdHash)) else
        let currentAmount := l.getOrderAmount orderIdHash
        let (orders, firedItem) := x.orders.modify orderIdHash { item with quantity := 0 }
        let l := (l.subVolume currentAmount).removeOrderItem orderIdHash
        let (lists, firedList) := lists.modify item.price l
        let lists := if l.empty then lists.delete item.price else lists
        (((db.record (.cancelOrder orderBook orderIdHash item)).putExchange orderBook
          { x.setOrderLists item.side lists with orders } (firedItem || firedList)), .ok ())

/-! ### Liquidation prices -/

/-- `InsertLiquidationPrice`: a missing liquidation price is created, and its key written to
the liquidation-price trie at once. -/
def insertLiquidationPrice (db : TradingStateDB) (orderBook : Hash) (price : ℕ)
    (lendingBook : Hash) (tradeId : ℕ) : TradingStateDB :=
  let (db, x) := db.getOrNewExchange orderBook
  let (prices, p) := match x.liquidationPrices.get price with
    | some p => (x.liquidationPrices, p)
    | none => ((x.liquidationPrices.create price .new).write price .new, .new)
  let b := (p.lendingBooks.lookup lendingBook).getD ⟨0, []⟩
  let b : LendingBook := ⟨b.volume + 1, b.tradeIds.insert tradeId⟩
  let p : LiquidationPrice := ⟨p.volume + 1, p.lendingBooks.insert lendingBook b⟩
  let prices := (prices.modify price p).1
  -- `addLendingCount` calls the exchange's callback
  (db.putExchange orderBook { x with liquidationPrices := prices, lendingCount := x.lendingCount + 1 }
    true).record (.insertLiquidationPrice orderBook price lendingBook tradeId)

/-- `RemoveLiquidationPrice`: the price's key leaves the trie at once when its volume reaches
zero. -/
def removeLiquidationPrice (db : TradingStateDB) (orderBook : Hash) (price : ℕ)
    (lendingBook : Hash) (tradeId : ℕ) : TradingStateDB × Except TradingError Unit :=
  match db.exchanges.get orderBook with
  | none => (db, .error (.orderBookNotFound orderBook))
  | some x =>
    match x.liquidationPrices.get price with
    | none => (db, .error (.liquidationPriceNotFound orderBook price))
    | some p =>
      match p.lendingBooks.lookup lendingBook with
      | none => (db, .error (.lendingBookNotFound orderBook price lendingBook))
      | some b =>
        if !b.exist tradeId then (db, .error (.tradeIdNotFound orderBook price lendingBook tradeId))
        else
        let b : LendingBook := ⟨b.volume - 1, b.tradeIds.erase tradeId⟩
        let p : LiquidationPrice := ⟨p.volume - 1, p.lendingBooks.insert lendingBook b⟩
        let prices := (x.liquidationPrices.modify price p).1
        let prices := if p.volume = 0 then prices.delete price else prices
        ((db.putExchange orderBook
          { x with liquidationPrices := prices, lendingCount := x.lendingCount - 1 } true).record
            (.removeLiquidationPrice orderBook price lendingBook tradeId), .ok ())

/-! ### Journal, snapshots, finalisation -/

/-- The hand-written undo of a partial fill: the amount goes back onto the item and its list.
The entry's exchange, list and item are always live; a missing one would stop the node. -/
def undoSubAmount (db : TradingStateDB) (orderBook orderId : Hash) (order : OrderItem)
    (amount : ℕ) : TradingStateDB :=
  match db.exchanges.get orderBook with
  | none => db
  | some x =>
    match x.orderLists order.side with
    | none => db
    | some lists =>
      match lists.get order.price, x.orders.get orderId with
      | some l, some item =>
        let newAmount := item.quantity + amount
        let (orders, firedItem) := x.orders.modify orderId { item with quantity := newAmount }
        let (lists, firedList) :=
          lists.modify order.price ((l.insertOrderItem orderId newAmount).addVolume amount)
        db.putExchange orderBook { x.setOrderLists order.side lists with orders }
          (firedItem || firedList)
      | _, _ => db

/-- `undo` of each journal entry: the forward operations run again. -/
def undo (db : TradingStateDB) : JournalEntry → TradingStateDB
  | .insertOrder orderBook _ order => (db.cancelOrder orderBook order).1
  | .cancelOrder orderBook orderId order => db.insertOrderItem orderBook orderId order
  | .subAmountOrder orderBook orderId order amount => db.undoSubAmount orderBook orderId order amount
  | .nonceChange h prev => db.setNonce h prev
  | .lastPriceChange h prev => db.setLastPrice h prev
  | .mediumPriceChange h price quantity => db.setMediumPrice h price quantity
  | .mediumPriceBeforeEpochChange h price => db.setMediumPriceBeforeEpoch h price
  | .insertLiquidationPrice orderBook price lendingBook tradeId =>
    (db.removeLiquidationPrice orderBook price lendingBook tradeId).1
  | .removeLiquidationPrice orderBook price lendingBook tradeId =>
    db.insertLiquidationPrice orderBook price lendingBook tradeId

/-- `Snapshot`. -/
def snapshot (db : TradingStateDB) : TradingStateDB × ℕ :=
  ({ db with log := db.log.snapshot.1 }, db.log.snapshot.2)

/-- `RevertToSnapshot`: undo the entries recorded since the revision, newest first, then
truncate the journal (which drops the entries the undos recorded) and the snapshot stack;
`none` is the panic on an unknown revision. -/
def revertToSnapshot (db : TradingStateDB) (revid : ℕ) : Option TradingStateDB :=
  match db.log.find revid with
  | none => none
  | some (idx, r) =>
    some { unwind undo (db.log.entries.drop r.journalIndex) db with log := db.log.revert idx r }

/-- `Finalise` (and `IntermediateRoot`): every dirty exchange writes back its tries and is
written to the state trie; the dirty set of exchanges is kept, the journal cleared. -/
def finalise (db : TradingStateDB) : TradingStateDB :=
  ⟨db.exchanges.writeBack (fun _ => false) Exchange.flush Exchange.persisted, db.log.clear⟩

/-- `Commit`: as `Finalise`, and the dirty set of exchanges is cleared. -/
def commit (db : TradingStateDB) : TradingStateDB :=
  ⟨db.exchanges.flush (fun _ => false) Exchange.flush Exchange.persisted, db.log.clear⟩

/-! ### Getters -/

/-- `Exist`. -/
def exist (db : TradingStateDB) (h : Hash) : Bool := (db.exchanges.get h).isSome

/-- `GetNonce`. -/
def getNonce (db : TradingStateDB) (h : Hash) : ℕ := ((db.exchanges.get h).map (·.nonce)).getD 0

/-- `GetLastPrice` (`nil` is `none`). -/
def getLastPrice (db : TradingStateDB) (h : Hash) : Option ℕ := (db.exchanges.get h).bind (·.lastPrice)

/-- `GetMediumPriceBeforeEpoch`. -/
def getMediumPriceBeforeEpoch (db : TradingStateDB) (h : Hash) : ℕ :=
  ((db.exchanges.get h).map (·.mediumPriceBeforeEpoch)).getD 0

/-- `GetMediumPriceAndTotalAmount`. -/
def getMediumPriceAndTotalAmount (db : TradingStateDB) (h : Hash) : ℕ × ℕ :=
  ((db.exchanges.get h).map fun x => (x.mediumPrice, x.totalQuantity)).getD (0, 0)

/-- `GetOrder`: the live or stored item, whatever its quantity, else `EmptyOrder`. -/
def getOrder (db : TradingStateDB) (orderBook orderId : Hash) : OrderItem :=
  ((db.exchanges.get orderBook).bind fun x => x.orders.get orderId).getD emptyOrder

/-- `GetVolume`. -/
def getVolume (db : TradingStateDB) (orderBook : Hash) (price : ℕ) (side : Side) : ℤ :=
  match (db.exchanges.get orderBook).bind fun x => x.orderLists side with
  | none => 0
  | some lists =>
    match lists.get price with
    | some l => if l.empty then 0 else l.volume
    | none => 0

/-- The keys of one side's price trie. -/
def priceKeys (db : TradingStateDB) (orderBook : Hash) (side : Side) : List ℕ :=
  match (db.exchanges.get orderBook).bind fun x => x.orderLists side with
  | some lists => lists.stored.keys
  | none => []

/-- The price at the given end of a price trie with its order list's volume; price zero (the
empty hash) means none. -/
def bestPrice (lists : Store ℕ OrderList) (best : Option ℕ) : ℕ × ℤ :=
  match best with
  | none => (0, 0)
  | some p => if p = 0 then (0, 0) else
    match lists.get p with
    | some l => (p, l.volume)
    | none => (0, 0)

/-- `GetBestAskPrice`: the leftmost key of the ask trie. -/
def getBestAskPrice (db : TradingStateDB) (orderBook : Hash) : ℕ × ℤ :=
  match db.exchanges.get orderBook with
  | some x => bestPrice x.asks x.asks.stored.keys.min?
  | none => (0, 0)

/-- `GetBestBidPrice`: the rightmost key of the bid trie. -/
def getBestBidPrice (db : TradingStateDB) (orderBook : Hash) : ℕ × ℤ :=
  match db.exchanges.get orderBook with
  | some x => bestPrice x.bids x.bids.stored.keys.max?
  | none => (0, 0)

/-- `GetBestOrderIdAndAmount`: the leftmost order id of the list's trie (the empty hash when
there is none) and its amount. -/
def getBestOrderIdAndAmount (db : TradingStateDB) (orderBook : Hash) (price : ℕ) (side : Side) :
    Except TradingError (Hash × ℕ) :=
  let x := ((db.exchanges.get orderBook).getD .new)
  match x.orderLists side with
  | none => .error (.notFoundSide side)
  | some lists =>
    match lists.get price with
    | some l =>
      let orderId := l.amounts.keys.min?.getD 0
      .ok (orderId, l.getOrderAmount orderId)
    | none => .error (.notFoundOrderList orderBook price side)

/-- `GetHighestLiquidationPriceData`: the rightmost liquidation price and, when it is above
`price`, its lending books with their trade ids. -/
def getHighestLiquidationPriceData (db : TradingStateDB) (orderBook : Hash) (price : ℕ) :
    ℕ × List (Hash × List ℕ) :=
  match db.exchanges.get orderBook with
  | none => (0, [])
  | some x =>
    match x.liquidationPrices.stored.keys.max? with
    | none => (0, [])
    | some highest =>
      match x.liquidationPrices.get highest with
      | none => (0, [])
      | some p =>
        if p.empty then (0, []) else
        (highest, if 0 < highest ∧ price < highest then p.liquidationData else [])

end TradingStateDB

end XdcSubnet.XDCx
