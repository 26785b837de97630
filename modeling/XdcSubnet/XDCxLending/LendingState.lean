import XdcSubnet.XDCx.TradingState

/-!
# The lending state database (`XDCxlending/lendingstate`)

`LendingStateDB` keeps one lending exchange object per lending book, with its nonces and,
among its tries, the lending trades (trade id ↦ trade) and the liquidation-time index
(time ↦ the ids of the trades to settle then, with a volume counting them).  As in the
trading state, every trie is a write-back store of the library `WriteBack`, and the index's
keys are also written and deleted directly: a time is written when its entry is created and
deleted at once when its volume reaches zero.

Trades and nonces are journaled; the liquidation-time index is not: `InsertLiquidationTime`
and `RemoveLiquidationTime` record no entry, so `RevertToSnapshot` leaves the index as it
is.  `liquidationTimeState.Exist` answers yes in every branch that meets no database error,
so `RemoveLiquidationTime` of an id that is not listed succeeds and counts the volume down.

Model choices, as for the trading state: numbers for hashes and times, one list for an
index entry's cached and stored ids, pure getters.  The lending order book (investing and
borrowing lists and lending items) is not modelled.
-/

namespace XdcSubnet.XDCxLending

open WriteBack Journal
open XdcSubnet.XDCx (Hash)

/-- The fields of `LendingTrade` that the lending state and its processor read. -/
structure LendingTrade where
  borrower : Hash
  investor : Hash
  lendingToken : Hash
  collateralToken : Hash
  borrowingRelayer : Hash
  term : ℕ
  interest : ℕ
  liquidationPrice : ℕ
  collateralLockedAmount : ℕ
  autoTopUp : Bool
  liquidationTime : ℕ
  amount : ℕ
  tradeId : ℕ
  deriving DecidableEq, Repr

/-- `EmptyLendingTrade`: amount zero, every other field unset. -/
def emptyLendingTrade : LendingTrade := ⟨0, 0, 0, 0, 0, 0, 0, 0, 0, false, 0, 0, 0⟩

/-- `lendingTradeState.empty`: a trade of amount zero is closed. -/
def LendingTrade.empty (t : LendingTrade) : Bool := t.amount == 0

/-- An entry of the liquidation-time index (`liquidationTimeState`): its volume and ids. -/
structure LiquidationTime where
  volume : ℤ
  tradeIds : List ℕ

namespace LiquidationTime

/-- The entry `createLiquidationTime` makes. -/
def new : LiquidationTime := ⟨0, []⟩

/-- `liquidationTimeState.empty`. -/
def empty (l : LiquidationTime) : Bool := l.volume == 0

/-- `liquidationTimeState.Exist`: every branch that meets no database error says yes. -/
def exist (_ : LiquidationTime) (_ : ℕ) : Bool := true

end LiquidationTime

/-- A lending exchange object (`lendingExchangeState`): its nonces, its trades and its
liquidation-time index. -/
structure LendingExchange where
  nonce : ℕ
  tradeNonce : ℕ
  lendingTrades : Store ℕ LendingTrade
  liquidationTimes : Store ℕ LiquidationTime

namespace LendingExchange

/-- The object `createLendingExchangeObject` makes. -/
def new : LendingExchange := ⟨0, 0, .empty, .empty⟩

/-- `updateLendingTradeRoot` and `updateLiquidationTimeRoot`. -/
def flush (x : LendingExchange) : LendingExchange :=
  { x with
    lendingTrades := x.lendingTrades.flush LendingTrade.empty id id
    liquidationTimes := x.liquidationTimes.flush LiquidationTime.empty id id }

/-- `lendingExchangeState.getLowestLiquidationTime`: the leftmost key of the liquidation-time
trie and its entry, unless that entry is empty. -/
def getLowestLiquidationTime (x : LendingExchange) : ℕ × Option LiquidationTime :=
  match x.liquidationTimes.stored.keys.min? with
  | none => (0, none)
  | some lowest =>
    match x.liquidationTimes.get lowest with
    | none => (0, none)
    | some l => if l.empty then (0, none) else (lowest, some l)

/-- The object as the state trie encodes it. -/
def persisted (x : LendingExchange) : LendingExchange :=
  { x with
    lendingTrades := x.lendingTrades.persisted
    liquidationTimes := x.liquidationTimes.persisted }

end LendingExchange

/-- The journal entries of the trades and nonces (`journal.go`). -/
inductive JournalEntry
  | insertTrading (orderBook : Hash) (tradeId : ℕ) (prvTrade : LendingTrade)
  | cancelTrading (orderBook : Hash) (tradeId : ℕ) (order : LendingTrade)
  | nonceChange (hash : Hash) (prev : ℕ)
  | tradeNonceChange (hash : Hash) (prev : ℕ)
  | liquidationPriceChange (orderBook : Hash) (tradeId : ℕ) (prev : ℕ)
  | collateralLockedAmount (orderBook : Hash) (tradeId : ℕ) (prev : ℕ)

/-- The errors of the lending state's operations, with the values their messages print. -/
inductive LendingError
  | lendingBookNotFound (lendingBook : Hash)
  | liquidationTimeNotFound (lendingBook : Hash) (time : ℕ)
  | tradeIdNotExist (lendingBook : Hash) (time tradeId : ℕ)
  | lendingTradeEmpty (orderBook tradeId : Hash)
  deriving DecidableEq, Repr

/-- `LendingStateDB`: the lending exchanges and the journal. -/
structure LendingStateDB where
  exchanges : Store Hash LendingExchange
  log : Log JournalEntry

namespace LendingStateDB

/-- The state `New` opens on an empty root. -/
def empty : LendingStateDB := ⟨.empty, .empty⟩

/-- `GetOrNewLendingExchangeObject`: the object, or a new one, dirty at once. -/
def getOrNewExchange (db : LendingStateDB) (h : Hash) : LendingStateDB × LendingExchange :=
  match db.exchanges.get h with
  | some x => (db, x)
  | none => ({ db with exchanges := ((db.exchanges.create h .new).notify h).1 }, .new)

/-- Store a changed object; `fired` says whether its callback was called. -/
def putExchange (db : LendingStateDB) (h : Hash) (x : LendingExchange) (fired : Bool) :
    LendingStateDB :=
  let s := db.exchanges.update h x
  { db with exchanges := if fired then (s.notify h).1 else s }

/-- Append a journal entry. -/
def record (db : LendingStateDB) (e : JournalEntry) : LendingStateDB :=
  { db with log := db.log.append e }

/-! ### Getters -/

/-- `Exist`. -/
def exist (db : LendingStateDB) (h : Hash) : Bool := (db.exchanges.get h).isSome

/-- `GetNonce`. -/
def getNonce (db : LendingStateDB) (h : Hash) : ℕ := ((db.exchanges.get h).map (·.nonce)).getD 0

/-- `GetTradeNonce`. -/
def getTradeNonce (db : LendingStateDB) (h : Hash) : ℕ :=
  ((db.exchanges.get h).map (·.tradeNonce)).getD 0

/-- `GetLendingTrade`: the trade, or `EmptyLendingTrade` when it is missing or closed. -/
def getLendingTrade (db : LendingStateDB) (orderBook : Hash) (tradeId : ℕ) : LendingTrade :=
  match (db.exchanges.get orderBook).bind fun x => x.lendingTrades.get tradeId with
  | some t => if t.empty then emptyLendingTrade else t
  | none => emptyLendingTrade

/-- `GetLowestLiquidationTime`: the leftmost time of the index and, when it is due by
`time`, the ids listed there. -/
def getLowestLiquidationTime (db : LendingStateDB) (lendingBook : Hash) (time : ℕ) :
    ℕ × List ℕ :=
  match db.exchanges.get lendingBook with
  | none => (0, [])
  | some x =>
    match x.getLowestLiquidationTime with
    | (lowest, some l) => (lowest, if 0 < lowest ∧ lowest ≤ time then l.tradeIds else [])
    | (lowest, none) => (lowest, [])

/-! ### Nonces and trades -/

/-- `SetNonce`. -/
def setNonce (db : LendingStateDB) (addr : Hash) (nonce : ℕ) : LendingStateDB :=
  let (db, x) := db.getOrNewExchange addr
  (db.record (.nonceChange addr x.nonce)).putExchange addr { x with nonce } true

/-- `SetTradeNonce`. -/
def setTradeNonce (db : LendingStateDB) (addr : Hash) (nonce : ℕ) : LendingStateDB :=
  let (db, x) := db.getOrNewExchange addr
  (db.record (.tradeNonceChange addr x.tradeNonce)).putExchange addr
    { x with tradeNonce := nonce } true

/-- `InsertTradingItem`: record the trade held before, then put the new one in its place
(`insertLendingTrade` calls the exchange's callback itself). -/
def insertTradingItem (db : LendingStateDB) (orderBook : Hash) (tradeId : ℕ)
    (order : LendingTrade) : LendingStateDB :=
  let (db, x) := db.getOrNewExchange orderBook
  (db.record (.insertTrading orderBook tradeId (db.getLendingTrade orderBook tradeId))).putExchange
    orderBook { x with lendingTrades := x.lendingTrades.create tradeId order } true

/-- `CancelLendingTrade`: the trade's amount becomes zero.  Its journal entry leaves the trade
id unset. -/
def cancelLendingTrade (db : LendingStateDB) (orderBook : Hash) (tradeId : ℕ) :
    LendingStateDB × Except LendingError Unit :=
  let (db, x) := db.getOrNewExchange orderBook
  match x.lendingTrades.get tradeId with
  | none => (db, .error (.lendingTradeEmpty orderBook tradeId))
  | some t =>
    if t.empty then (db, .error (.lendingTradeEmpty orderBook tradeId)) else
    let (trades, fired) := x.lendingTrades.modify tradeId { t with amount := 0 }
    ((db.record (.cancelTrading orderBook 0 (db.getLendingTrade orderBook tradeId))).putExchange
      orderBook { x with lendingTrades := trades } fired, .ok ())

/-- The body shared by `UpdateLiquidationPrice` and `UpdateCollateralLockedAmount`: record
the field's previous value and set it.  A missing trade stops the node (`none`). -/
def updateTradeField (entry : Hash → ℕ → LendingTrade → JournalEntry)
    (set : LendingTrade → LendingTrade) (db : LendingStateDB) (orderBook : Hash) (tradeId : ℕ) :
    Option LendingStateDB :=
  let (db, x) := db.getOrNewExchange orderBook
  (x.lendingTrades.get tradeId).map fun t =>
    let (trades, fired) := x.lendingTrades.modify tradeId (set t)
    (db.record (entry orderBook tradeId t)).putExchange orderBook
      { x with lendingTrades := trades } fired

/-- `UpdateLiquidationPrice`. -/
def updateLiquidationPrice (db : LendingStateDB) (orderBook : Hash) (tradeId price : ℕ) :
    Option LendingStateDB :=
  updateTradeField (fun ob id t => .liquidationPriceChange ob id t.liquidationPrice)
    (fun t => { t with liquidationPrice := price }) db orderBook tradeId

/-- `UpdateCollateralLockedAmount`. -/
def updateCollateralLockedAmount (db : LendingStateDB) (orderBook : Hash) (tradeId amount : ℕ) :
    Option LendingStateDB :=
  updateTradeField (fun ob id t => .collateralLockedAmount ob id t.collateralLockedAmount)
    (fun t => { t with collateralLockedAmount := amount }) db orderBook tradeId

/-! ### The liquidation-time index -/

/-- `InsertLiquidationTime`: a missing entry is created, and its key written at once; no
journal entry. -/
def insertLiquidationTime (db : LendingStateDB) (lendingBook : Hash) (time tradeId : ℕ) :
    LendingStateDB :=
  let (db, x) := db.getOrNewExchange lendingBook
  let (times, l, created) := match x.liquidationTimes.get time with
    | some l => (x.liquidationTimes, l, false)
    | none => ((x.liquidationTimes.create time .new).write time .new, LiquidationTime.new, true)
  let (times, fired) := times.modify time ⟨l.volume + 1, l.tradeIds.insert tradeId⟩
  db.putExchange lendingBook { x with liquidationTimes := times } (created || fired)

/-- `RemoveLiquidationTime`: the key leaves the trie at once when the volume reaches zero;
no journal entry. -/
def removeLiquidationTime (db : LendingStateDB) (lendingBook : Hash) (tradeId time : ℕ) :
    LendingStateDB × Except LendingError Unit :=
  match db.exchanges.get lendingBook with
  | none => (db, .error (.lendingBookNotFound lendingBook))
  | some x =>
    match x.liquidationTimes.get time with
    | none => (db, .error (.liquidationTimeNotFound lendingBook time))
    | some l =>
      if !l.exist tradeId then (db, .error (.tradeIdNotExist lendingBook time tradeId)) else
      let l : LiquidationTime := ⟨l.volume - 1, l.tradeIds.erase tradeId⟩
      let (times, fired) := x.liquidationTimes.modify time l
      let times := if l.volume = 0 then times.delete time else times
      (db.putExchange lendingBook { x with liquidationTimes := times } fired, .ok ())

/-! ### Journal, snapshots, finalisation -/

/-- The body shared by the undos of the two trade-field entries. -/
def undoTradeField (set : LendingTrade → LendingTrade) (db : LendingStateDB) (orderBook : Hash)
    (tradeId : ℕ) : LendingStateDB :=
  match db.exchanges.get orderBook with
  | none => db
  | some x =>
    match x.lendingTrades.get tradeId with
    | none => db
    | some t =>
      let (trades, fired) := x.lendingTrades.modify tradeId (set t)
      db.putExchange orderBook { x with lendingTrades := trades } fired

/-- `undo` of each journal entry. -/
def undo (db : LendingStateDB) : JournalEntry → LendingStateDB
  | .insertTrading orderBook tradeId prvTrade => db.insertTradingItem orderBook tradeId prvTrade
  | .cancelTrading orderBook tradeId order => db.insertTradingItem orderBook tradeId order
  | .nonceChange h prev => db.setNonce h prev
  | .tradeNonceChange h prev => db.setTradeNonce h prev
  | .liquidationPriceChange orderBook tradeId prev =>
    undoTradeField (fun t => { t with liquidationPrice := prev }) db orderBook tradeId
  | .collateralLockedAmount orderBook tradeId prev =>
    undoTradeField (fun t => { t with collateralLockedAmount := prev }) db orderBook tradeId

/-- `Snapshot`. -/
def snapshot (db : LendingStateDB) : LendingStateDB × ℕ :=
  ({ db with log := db.log.snapshot.1 }, db.log.snapshot.2)

/-- `RevertToSnapshot`; `none` is the panic on an unknown revision. -/
def revertToSnapshot (db : LendingStateDB) (revid : ℕ) : Option LendingStateDB :=
  match db.log.find revid with
  | none => none
  | some (idx, r) =>
    some { unwind undo (db.log.entries.drop r.journalIndex) db with log := db.log.revert idx r }

/-- `Finalise` (and `IntermediateRoot`). -/
def finalise (db : LendingStateDB) : LendingStateDB :=
  ⟨db.exchanges.writeBack (fun _ => false) LendingExchange.flush LendingExchange.persisted,
    db.log.clear⟩

/-- `Commit`. -/
def commit (db : LendingStateDB) : LendingStateDB :=
  ⟨db.exchanges.flush (fun _ => false) LendingExchange.flush LendingExchange.persisted,
    db.log.clear⟩

end LendingStateDB

end XdcSubnet.XDCxLending
