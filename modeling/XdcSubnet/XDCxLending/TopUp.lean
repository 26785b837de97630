import XdcSubnet.XDCxLending.Liquidation

/-!
# A top-up of nothing

`AutoTopUp` asks for the deposit that lifts a trade's locked amount to what `90%` of the
collateral price needs, rounded down.  When that rounds down to the locked amount the trade
has, the deposit is zero, and `ProcessTopUpLendingTrade` then changes nothing a later pass reads:
both transfers move nothing (`logged_subTokenBalance_zero`, `logged_addTokenBalance_zero`), the
two trade fields are written with the values they have (`tradeAt_updateTradeField_of_fixed`),
and the trade is taken off its liquidation price and listed there again (`relist_of_listed`).
When the price keeps some volume without the trade, its key stays in the liquidation-price trie
(`autoTopUp_of_topsUpNothing`, `Relisted`).

The reads are those of the two tries and the trades (`pricesAt`, `tradeAt`); the frame lemmas
say which of them each write changes.
-/

namespace XdcSubnet.XDCxLending

open Loop WriteBack
open XdcSubnet.XDCx (Hash StateDB TradingStateDB LiquidationPrice LendingBook Exchange
  getTokenBalance addTokenBalance subTokenBalance logged getTradingOrderBookHash)

/-! ### Reads of the two indexes -/

/-- The liquidation-price trie of `orderBook`; a missing object reads as an empty one. -/
def pricesAt (db : TradingStateDB) (orderBook : Hash) : Store ℕ LiquidationPrice :=
  ((db.exchanges.get orderBook).map (·.liquidationPrices)).getD .empty

/-- The trade `tradeId` of a lending book, open or closed. -/
def tradeAt (db : LendingStateDB) (lendingBook : Hash) (tradeId : ℕ) : Option LendingTrade :=
  (db.exchanges.get lendingBook).bind fun x => x.lendingTrades.get tradeId

theorem pricesAt_of_get {db : TradingStateDB} {orderBook : Hash} {x : Exchange}
    (hx : db.exchanges.get orderBook = some x) : pricesAt db orderBook = x.liquidationPrices := by
  simp [pricesAt, hx]

/-- An order book that has a liquidation price has an exchange. -/
theorem exists_get_of_pricesAt {db : TradingStateDB} {orderBook : Hash} {price : ℕ}
    {p : LiquidationPrice} (hp : (pricesAt db orderBook).get price = some p) :
    ∃ x, db.exchanges.get orderBook = some x := by
  cases hx : db.exchanges.get orderBook with
  | some x => exact ⟨x, rfl⟩
  | none =>
    rw [pricesAt, hx] at hp
    simp [Store.get, Store.empty] at hp

theorem getLendingTrade_of_tradeAt {db : LendingStateDB} {lendingBook : Hash} {tradeId : ℕ}
    {t : LendingTrade} (ht : tradeAt db lendingBook tradeId = some t) (hopen : t.amount ≠ 0) :
    db.getLendingTrade lendingBook tradeId = t := by
  have hempty : t.empty = false := by simpa [LendingTrade.empty] using hopen
  unfold LendingStateDB.getLendingTrade
  rw [show (db.exchanges.get lendingBook).bind (fun x => x.lendingTrades.get tradeId) = some t
    from ht]
  simp [hempty]

/-- The highest key of the liquidation-price trie, with a non-empty price, is what
`GetHighestLiquidationPriceData` reads. -/
theorem getHighestLiquidationPriceData_of_max {db : TradingStateDB} {orderBook : Hash}
    {price : ℕ} {p : LiquidationPrice} (hmax : (pricesAt db orderBook).stored.keys.max? = some price)
    (hp : (pricesAt db orderBook).get price = some p) (hne : p.empty = false)
    (collateralPrice : ℕ) :
    db.getHighestLiquidationPriceData orderBook collateralPrice =
      (price, if 0 < price ∧ collateralPrice < price then p.liquidationData else []) := by
  obtain ⟨x, hx⟩ := exists_get_of_pricesAt hp
  rw [pricesAt_of_get hx] at hmax hp
  simp only [TradingStateDB.getHighestLiquidationPriceData, hx, hmax, hp, hne]
  rfl

/-! ### Transfers of nothing -/

theorem setTokenState_self (s : StateDB) (token addr : Hash) :
    s.setTokenState token addr (s.tokenBalances token addr) = s := by
  have hslot : XDCx.bigToHash (s.tokenBalances token addr) = s.tokenBalances token addr := by
    rw [XDCx.bigToHash, Int.natAbs_natCast, Nat.mod_eq_of_lt (s.tokenBalances_lt token addr)]
  cases s
  simp only [StateDB.setTokenState] at hslot ⊢
  simp [hslot]

/-- Taking nothing leaves the state as it was, whether or not the transfer fails. -/
@[simp] theorem logged_subTokenBalance_zero (addr token : Hash) (s : StateDB) :
    logged (subTokenBalance addr 0 token s) s = s := by
  simp only [subTokenBalance]
  split_ifs <;> simp [logged, StateDB.subBalance, setTokenState_self]

@[simp] theorem logged_addTokenBalance_zero (addr token : Hash) (s : StateDB) :
    logged (addTokenBalance addr 0 token s) s = s := by
  unfold addTokenBalance
  split_ifs <;> simp [logged, StateDB.addBalance, setTokenState_self]

/-! ### The liquidation-price index at a listed price -/

@[simp] theorem pricesAt_record (db : TradingStateDB) (e : XDCx.JournalEntry) (orderBook : Hash) :
    pricesAt (db.record e) orderBook = pricesAt db orderBook := rfl

theorem pricesAt_putExchange_self (db : TradingStateDB) (orderBook : Hash) (x : Exchange)
    (fired : Bool) : pricesAt (db.putExchange orderBook x fired) orderBook = x.liquidationPrices :=
  pricesAt_of_get (XDCx.TradingStateDB.get_putExchange_self db orderBook x fired)

theorem pricesAt_insertLiquidationPrice_ne (db : TradingStateDB) {orderBook orderBook' : Hash}
    (price : ℕ) (lendingBook : Hash) (tradeId : ℕ) (h : orderBook' ≠ orderBook) :
    pricesAt (db.insertLiquidationPrice orderBook price lendingBook tradeId) orderBook' =
      pricesAt db orderBook' := by
  rw [pricesAt, (XDCx.TradingStateDB.changedAt_insertLiquidationPrice db orderBook price
    lendingBook tradeId).get_ne orderBook' h, pricesAt]

/-- Taking a trade off a price that keeps some volume leaves the price's key in the trie. -/
theorem removeLiquidationPrice_of_listed {db : TradingStateDB} {orderBook : Hash} {price : ℕ}
    {p : LiquidationPrice} {lendingBook : Hash} {b : LendingBook} (tradeId : ℕ)
    (hp : (pricesAt db orderBook).get price = some p)
    (hb : p.lendingBooks.lookup lendingBook = some b) (hkeep : p.volume - 1 ≠ 0) :
    ∃ db', db.removeLiquidationPrice orderBook price lendingBook tradeId = (db', .ok ()) ∧
      (pricesAt db' orderBook).stored = (pricesAt db orderBook).stored ∧
      (pricesAt db' orderBook).get price = some ⟨p.volume - 1,
        p.lendingBooks.insert lendingBook ⟨b.volume - 1, b.tradeIds.erase tradeId⟩⟩ := by
  obtain ⟨x, hx⟩ := exists_get_of_pricesAt hp
  rw [pricesAt_of_get hx] at hp ⊢
  simp [XDCx.TradingStateDB.removeLiquidationPrice, hx, hp, hb, LendingBook.exist, hkeep,
    pricesAt_putExchange_self]

/-- Listing a trade at a price that is already there leaves the price's key in the trie. -/
theorem insertLiquidationPrice_of_listed {db : TradingStateDB} {orderBook : Hash} {price : ℕ}
    {p : LiquidationPrice} {lendingBook : Hash} {b : LendingBook} (tradeId : ℕ)
    (hp : (pricesAt db orderBook).get price = some p)
    (hb : p.lendingBooks.lookup lendingBook = some b) :
    (pricesAt (db.insertLiquidationPrice orderBook price lendingBook tradeId) orderBook).stored =
        (pricesAt db orderBook).stored ∧
      (pricesAt (db.insertLiquidationPrice orderBook price lendingBook tradeId) orderBook).get
        price = some ⟨p.volume + 1,
          p.lendingBooks.insert lendingBook ⟨b.volume + 1, b.tradeIds.insert tradeId⟩⟩ := by
  obtain ⟨x, hx⟩ := exists_get_of_pricesAt hp
  rw [pricesAt_of_get hx] at hp ⊢
  simp [XDCx.TradingStateDB.insertLiquidationPrice, XDCx.TradingStateDB.getOrNewExchange_of_get hx,
    hp, hb, pricesAt_putExchange_self]

/-- Taking a trade off a price that keeps some volume and listing it there again leaves the price
as it was, with the trade's id moved to the front of its lending book. -/
theorem relist_of_listed {db : TradingStateDB} {orderBook : Hash} {price : ℕ}
    {p : LiquidationPrice} {lendingBook : Hash} {b : LendingBook} (tradeId : ℕ)
    (hp : (pricesAt db orderBook).get price = some p)
    (hb : p.lendingBooks.lookup lendingBook = some b) (hkeep : p.volume - 1 ≠ 0) :
    ∃ db', db.removeLiquidationPrice orderBook price lendingBook tradeId = (db', .ok ()) ∧
      (pricesAt (db'.insertLiquidationPrice orderBook price lendingBook tradeId) orderBook).stored =
        (pricesAt db orderBook).stored ∧
      (pricesAt (db'.insertLiquidationPrice orderBook price lendingBook tradeId) orderBook).get
        price = some ⟨p.volume,
          p.lendingBooks.insert lendingBook ⟨b.volume, (b.tradeIds.erase tradeId).insert tradeId⟩⟩ := by
  obtain ⟨db', hrm, hkeys, hp'⟩ := removeLiquidationPrice_of_listed tradeId hp hb hkeep
  obtain ⟨hkeys', hp''⟩ := insertLiquidationPrice_of_listed tradeId hp' (AList.lookup_insert _)
  refine ⟨db', hrm, hkeys'.trans hkeys, ?_⟩
  rw [hp'', AList.insert_insert, sub_add_cancel, sub_add_cancel]

/-! ### Trades of the lending state -/

theorem exchanges_get_putExchange (db : LendingStateDB) (B : Hash) (y : LendingExchange)
    (fired : Bool) (B' : Hash) :
    (db.putExchange B y fired).exchanges.get B' = if B' = B then some y else db.exchanges.get B' := by
  have hget : (db.putExchange B y fired).exchanges.get B' = (db.exchanges.update B y).get B' := by
    unfold LendingStateDB.putExchange
    split <;> simp
  rw [hget, Store.get_update]

theorem getOrNewExchange_of_get {db : LendingStateDB} {B : Hash} {x : LendingExchange}
    (hx : db.exchanges.get B = some x) : db.getOrNewExchange B = (db, x) := by
  simp [LendingStateDB.getOrNewExchange, hx]

theorem exchanges_get_getOrNewExchange (db : LendingStateDB) (B B' : Hash) :
    (db.getOrNewExchange B).1.exchanges.get B' =
      if B' = B then some (db.getOrNewExchange B).2 else db.exchanges.get B' := by
  unfold LendingStateDB.getOrNewExchange
  split
  case h_1 x hx =>
    split
    case isTrue h => rw [h, hx]
    case isFalse => rfl
  case h_2 hx =>
    split
    case isTrue h => simp [h, Store.get_create_self]
    case isFalse h => simp [Store.get_create_ne _ _ h]

theorem tradeAt_getOrNewExchange (db : LendingStateDB) (B : Hash) (i : ℕ) :
    (db.getOrNewExchange B).2.lendingTrades.get i = tradeAt db B i := by
  unfold LendingStateDB.getOrNewExchange tradeAt
  split
  case h_1 x hx => simp [hx]
  case h_2 hx =>
    rw [hx]
    rfl

/-- The shape of every write of a trade: take the object (or a new one), and put it back. -/
theorem tradeAt_putExchange_after_getOrNew {db d d' : LendingStateDB} {B : Hash}
    {x : LendingExchange} (hp : db.getOrNewExchange B = (d, x)) (hd : d'.exchanges = d.exchanges)
    (y : LendingExchange) (fired : Bool) (B' : Hash) (i : ℕ) :
    tradeAt (d'.putExchange B y fired) B' i =
      if B' = B then y.lendingTrades.get i else tradeAt db B' i := by
  have hget := exchanges_get_getOrNewExchange db B B'
  rw [hp] at hget
  simp only [tradeAt, exchanges_get_putExchange, hd, hget]
  split <;> simp

theorem tradeAt_insertTradingItem (db : LendingStateDB) (B : Hash) (tradeId : ℕ)
    (order : LendingTrade) (B' : Hash) (i : ℕ) :
    tradeAt (db.insertTradingItem B tradeId order) B' i =
      if B' = B ∧ i = tradeId then some order else tradeAt db B' i := by
  obtain ⟨⟨d, x⟩, hp⟩ : ∃ p, db.getOrNewExchange B = p := ⟨_, rfl⟩
  have hx := tradeAt_getOrNewExchange db B i
  rw [hp] at hx
  simp only [LendingStateDB.insertTradingItem, hp]
  rw [tradeAt_putExchange_after_getOrNew hp (LendingStateDB.exchanges_record _ _)]
  by_cases hB : B' = B
  · by_cases hi : i = tradeId
    · simp [hB, hi, Store.get_create_self]
    · simp [hB, hi, Store.get_create_ne _ _ hi, hx]
  · simp [hB]

theorem tradeAt_insertLiquidationTime (db : LendingStateDB) (B : Hash) (time tradeId : ℕ)
    (B' : Hash) (i : ℕ) :
    tradeAt (db.insertLiquidationTime B time tradeId) B' i = tradeAt db B' i := by
  obtain ⟨⟨d, x⟩, hp⟩ : ∃ p, db.getOrNewExchange B = p := ⟨_, rfl⟩
  have hx := tradeAt_getOrNewExchange db B i
  rw [hp] at hx
  simp only [LendingStateDB.insertLiquidationTime, hp]
  split <;> simp only [tradeAt_putExchange_after_getOrNew hp rfl] <;> split <;> simp_all

theorem timesAt_insertLiquidationTime_ne (db : LendingStateDB) {B B' : Hash} (time tradeId : ℕ)
    (h : B' ≠ B) : (db.insertLiquidationTime B time tradeId).timesAt B' = db.timesAt B' := by
  obtain ⟨⟨d, x⟩, hp⟩ : ∃ p, db.getOrNewExchange B = p := ⟨_, rfl⟩
  have hframe := LendingStateDB.timesAt_getOrNewExchange db B B'
  rw [hp] at hframe
  simp only [LendingStateDB.insertLiquidationTime, hp]
  split <;> simp only [LendingStateDB.timesAt_putExchange, if_neg h, hframe.1]

/-- Setting a field of a trade changes that trade only. -/
theorem tradeAt_updateTradeField (entry : Hash → ℕ → LendingTrade → JournalEntry)
    (set : LendingTrade → LendingTrade) {db : LendingStateDB} {lendingBook : Hash} {tradeId : ℕ}
    {t : LendingTrade} (ht : tradeAt db lendingBook tradeId = some t) :
    ∃ db', db.updateTradeField entry set lendingBook tradeId = some db' ∧
      ∀ B i, tradeAt db' B i =
        if B = lendingBook ∧ i = tradeId then some (set t) else tradeAt db B i := by
  obtain ⟨x, hx, hxt⟩ := Option.bind_eq_some_iff.1 ht
  simp only [LendingStateDB.updateTradeField, getOrNewExchange_of_get hx, hxt, Option.map_some,
    Option.some.injEq, exists_eq_left']
  intro B i
  by_cases hB : B = lendingBook
  · subst hB
    by_cases hi : i = tradeId
    · subst hi
      simp [tradeAt, exchanges_get_putExchange]
    · simp [tradeAt, exchanges_get_putExchange, hi, Store.get_modify_ne _ _ hi, hx]
  · simp [tradeAt, exchanges_get_putExchange, hB]

/-- Setting a field of a trade to the value it has changes no trade. -/
theorem tradeAt_updateTradeField_of_fixed (entry : Hash → ℕ → LendingTrade → JournalEntry)
    (set : LendingTrade → LendingTrade) {db : LendingStateDB} {lendingBook : Hash} {tradeId : ℕ}
    {t : LendingTrade} (ht : tradeAt db lendingBook tradeId = some t) (hset : set t = t) :
    ∃ db', db.updateTradeField entry set lendingBook tradeId = some db' ∧
      ∀ B i, tradeAt db' B i = tradeAt db B i := by
  obtain ⟨db', hu, ht'⟩ := tradeAt_updateTradeField entry set ht
  refine ⟨db', hu, fun B i => ?_⟩
  rw [ht']
  split
  case isTrue h => rw [h.1, h.2, hset, ht]
  case isFalse => rfl

/-! ### A top-up of nothing -/

/-- `s'` is `s` with trade `tradeId` taken off `price` of `orderBook`, where its lending book
lists it in `b`, and listed there again: the price keeps its volume and the lending book its
volume and ids, with `tradeId` moved to the front; the balances and the trades are as they
were. -/
structure Relisted (orderBook : Hash) (price : ℕ) (p : LiquidationPrice) (lendingBook : Hash)
    (b : LendingBook) (tradeId : ℕ) (s s' : Liquidating) : Prop where
  statedb : s'.statedb = s.statedb
  trades : ∀ B i, tradeAt s'.lendingState B i = tradeAt s.lendingState B i
  keys : (pricesAt s'.tradingState orderBook).stored = (pricesAt s.tradingState orderBook).stored
  listed : (pricesAt s'.tradingState orderBook).get price = some ⟨p.volume,
    p.lendingBooks.insert lendingBook ⟨b.volume, (b.tradeIds.erase tradeId).insert tradeId⟩⟩

/-- `ProcessTopUpLendingTrade` of nothing, for an open trade whose price keeps some volume
without it: the trade is listed again where it was, with its locked amount and price. -/
theorem processTopUpLendingTrade_zero {s : Liquidating} {lendingBook : Hash} {tradeId : ℕ}
    {t : LendingTrade} {p : LiquidationPrice} {b : LendingBook}
    (ht : tradeAt s.lendingState lendingBook tradeId = some t) (hopen : t.amount ≠ 0)
    (hid : t.tradeId = tradeId) (hlocked : t.collateralLockedAmount ≠ 0)
    (hbalance : 0 ≤ getTokenBalance t.borrower t.collateralToken s.statedb)
    (hp : (pricesAt s.tradingState (getTradingOrderBookHash t.collateralToken t.lendingToken)).get
      t.liquidationPrice = some p)
    (hb : p.lendingBooks.lookup lendingBook = some b) (hkeep : p.volume - 1 ≠ 0) :
    ∃ s', s.processTopUpLendingTrade tradeId lendingBook 0 = some (.ok t, s') ∧
      Relisted (getTradingOrderBookHash t.collateralToken t.lendingToken) t.liquidationPrice p
        lendingBook b tradeId s s' := by
  subst hid
  have hget := getLendingTrade_of_tradeAt ht hopen
  have hne : t ≠ emptyLendingTrade := fun h => hopen (by rw [h]; rfl)
  have hcovered : ¬getTokenBalance t.borrower t.collateralToken s.statedb < 0 := not_lt.2 hbalance
  obtain ⟨db', hrm, hkeys, hp'⟩ := relist_of_listed t.tradeId hp hb hkeep
  -- the two updates write the values the trade has
  obtain ⟨l₁, hu₁, ht₁⟩ := tradeAt_updateTradeField_of_fixed
    (fun ob id t => .liquidationPriceChange ob id t.liquidationPrice)
    (fun t' => { t' with liquidationPrice := t.liquidationPrice }) ht rfl
  obtain ⟨l₂, hu₂, ht₂⟩ := tradeAt_updateTradeField_of_fixed
    (fun ob id t => .collateralLockedAmount ob id t.collateralLockedAmount)
    (fun t' => { t' with collateralLockedAmount := t.collateralLockedAmount })
    ((ht₁ _ _).trans ht) rfl
  have hu₁' : s.lendingState.updateLiquidationPrice lendingBook t.tradeId t.liquidationPrice =
    some l₁ := hu₁
  have hu₂' : l₁.updateCollateralLockedAmount lendingBook t.tradeId t.collateralLockedAmount =
    some l₂ := hu₂
  refine ⟨{ s with
      lendingState := l₂
      tradingState := db'.insertLiquidationPrice _ t.liquidationPrice lendingBook t.tradeId },
    ?_, ⟨rfl, fun B i => (ht₂ B i).trans (ht₁ B i), hkeys, hp'⟩⟩
  simp [Liquidating.processTopUpLendingTrade, hget, hne, hcovered, hrm, hlocked, hu₁', hu₂']

/-- An open trade listed as `tradeId` at `price` of `orderBook` that tops up automatically, and
whose `AutoTopUp` at `collateralPrice` asks for nothing: the locked amount that `90%` of the
collateral price needs rounds down to the one it has. -/
structure TopsUpNothing (orderBook : Hash) (price collateralPrice tradeId : ℕ) (t : LendingTrade) :
    Prop where
  amount_ne : t.amount ≠ 0
  tradeId_eq : t.tradeId = tradeId
  autoTopUp_eq : t.autoTopUp = true
  price_eq : t.liquidationPrice = price
  orderBook_eq : getTradingOrderBookHash t.collateralToken t.lendingToken = orderBook
  locked_ne : t.collateralLockedAmount ≠ 0
  deposit_le :
    t.collateralLockedAmount * price / (collateralPrice * rateTopUp / baseTopUp) ≤
      t.collateralLockedAmount

section TopUp

variable {s : Liquidating} {orderBook lendingBook : Hash} {price collateralPrice tradeId : ℕ}
  {t : LendingTrade} {p : LiquidationPrice} {b : LendingBook}

/-- `AutoTopUp` of a trade that it asks nothing of lists the trade again where it was. -/
theorem autoTopUp_of_topsUpNothing (ht : tradeAt s.lendingState lendingBook tradeId = some t)
    (htop : TopsUpNothing orderBook price collateralPrice tradeId t)
    (hbalance : 0 ≤ getTokenBalance t.borrower t.collateralToken s.statedb)
    (hbelow : collateralPrice < price) (hpos : 0 < collateralPrice * rateTopUp / baseTopUp)
    (hp : (pricesAt s.tradingState orderBook).get price = some p)
    (hb : p.lendingBooks.lookup lendingBook = some b) (hkeep : p.volume - 1 ≠ 0) :
    ∃ s', s.autoTopUp lendingBook tradeId collateralPrice = some (.ok t, s') ∧
      Relisted orderBook price p lendingBook b tradeId s s' := by
  have hget := getLendingTrade_of_tradeAt ht htop.amount_ne
  have hne : t ≠ emptyLendingTrade := fun h => htop.amount_ne (by rw [h]; rfl)
  have hnotle : ¬t.liquidationPrice ≤ collateralPrice := by
    rw [htop.price_eq]
    exact Nat.not_le.2 hbelow
  have hdeposit : t.collateralLockedAmount * t.liquidationPrice /
      (collateralPrice * rateTopUp / baseTopUp) - t.collateralLockedAmount = 0 := by
    rw [htop.price_eq]
    exact Nat.sub_eq_zero_of_le htop.deposit_le
  have hcovered : ¬getTokenBalance t.borrower t.collateralToken s.statedb < 0 := not_lt.2 hbalance
  rw [← htop.orderBook_eq, ← htop.price_eq] at hp
  obtain ⟨s', hs', hre⟩ := processTopUpLendingTrade_zero ht htop.amount_ne htop.tradeId_eq
    htop.locked_ne hbalance hp hb hkeep
  rw [htop.orderBook_eq, htop.price_eq] at hre
  refine ⟨s', ?_, hre⟩
  simp [Liquidating.autoTopUp, hget, hne, hnotle, Nat.pos_iff_ne_zero.1 hpos, hdeposit, hcovered,
    hs']

/-- The innermost loop's body on such a trade: it is topped up by nothing, and spared. -/
theorem liquidateListed_of_topsUpNothing (ht : tradeAt s.lendingState lendingBook tradeId = some t)
    (htop : TopsUpNothing orderBook price collateralPrice tradeId t)
    (hbalance : 0 ≤ getTokenBalance t.borrower t.collateralToken s.statedb)
    (hbelow : collateralPrice < price) (hpos : 0 < collateralPrice * rateTopUp / baseTopUp)
    (hp : (pricesAt s.tradingState orderBook).get price = some p)
    (hb : p.lendingBooks.lookup lendingBook = some b) (hkeep : p.volume - 1 ≠ 0) :
    ∃ s', Liquidating.liquidateListed collateralPrice lendingBook tradeId s = some (.ok (), s') ∧
      Relisted orderBook price p lendingBook b tradeId s s' := by
  obtain ⟨s', hs', hre⟩ :=
    autoTopUp_of_topsUpNothing ht htop hbalance hbelow hpos hp hb hkeep
  refine ⟨{ s' with autoTopUpTrades := s'.autoTopUpTrades ++ [t] }, ?_,
    ⟨hre.statedb, hre.trades, hre.keys, hre.listed⟩⟩
  simp [Liquidating.liquidateListed, getLendingTrade_of_tradeAt ht htop.amount_ne,
    htop.autoTopUp_eq, hs']

end TopUp

end XdcSubnet.XDCxLending
