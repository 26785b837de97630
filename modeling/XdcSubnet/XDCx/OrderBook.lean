import XdcSubnet.XDCx.TradingState

/-!
# Price keys of the order book

The ask and bid tries keep a price as a key while its order list holds volume: the key is
written when the list is created, deleted at once when the list becomes empty, and otherwise
written back by `Finalise` for the lists marked dirty.  A list is marked dirty by its
one-shot callback, which fires on its first change only, and `Finalise` clears the dirty
marks.  So once a list has been changed and finalised, it is never marked again: when it later
becomes empty its key is deleted, and a new order at that price goes into the same live list,
which is not created again and not marked dirty, so the key is never written back
(`priceKey_not_restored`).

`priceKey_lost_after_finalise` runs this from the empty state: an ask is placed and
finalised, cancelled, and a second ask is placed at the same price and finalised.  The price
then holds volume but is no key of the ask trie, and `GetBestAskPrice` reports no ask.
-/

namespace XdcSubnet.XDCx.TradingStateDB

open WriteBack

/-! ### One lemma per step -/

@[simp] theorem exchanges_record (db : TradingStateDB) (e : JournalEntry) :
    (db.record e).exchanges = db.exchanges := rfl

theorem getOrNewExchange_of_get {db : TradingStateDB} {h : Hash} {x : Exchange}
    (hx : db.exchanges.get h = some x) : db.getOrNewExchange h = (db, x) := by
  simp [getOrNewExchange, hx]

theorem live_lookup_putExchange_self (db : TradingStateDB) (h : Hash) (x : Exchange) (fired : Bool) :
    (db.putExchange h x fired).exchanges.live.lookup h = some x := by
  unfold putExchange
  split <;> simp [Store.update, AList.lookup_insert]

/-- `InsertOrderItem` at an ask price whose list is there adds the order to that list and
leaves the list's creation alone. -/
theorem insertOrderItem_of_listed {db : TradingStateDB} {orderBook orderId : Hash} {o : OrderItem}
    {x : Exchange} {l : OrderList} (hx : db.exchanges.get orderBook = some x) (hside : o.side = .ask)
    (hl : x.asks.get o.price = some l) :
    db.insertOrderItem orderBook orderId o =
      (db.record (.insertOrder orderBook orderId o)).putExchange orderBook
        { x with
          asks := (x.asks.modify o.price ((l.insertOrderItem orderId o.quantity).addVolume o.quantity)).1
          orders := x.orders.create o.orderID o } true := by
  simp only [insertOrderItem, getOrNewExchange_of_get hx, hside, Exchange.orderLists, hl,
    Exchange.setOrderLists]

/-- `Finalise` replaces a live exchange by its written-back form when it is dirty. -/
theorem get_finalise_of_live {db : TradingStateDB} {h : Hash} {x : Exchange}
    (hx : db.exchanges.live.lookup h = some x) :
    db.finalise.exchanges.get h = some (if h ∈ db.exchanges.dirty then x.flush else x) := by
  have hlive := (Store.lookup_writeBack (fun _ => false) Exchange.flush Exchange.persisted
    db.exchanges h).2
  simp only [finalise, Store.get, hlive, Store.liveAfter, hx, Option.map_some, Option.some_or]
  by_cases hd : h ∈ db.exchanges.dirty <;> simp [hd]

theorem mem_priceKeys_ask {db : TradingStateDB} {h : Hash} {x : Exchange}
    (hx : db.exchanges.get h = some x) (p : ℕ) :
    p ∈ db.priceKeys h .ask ↔ x.asks.stored.lookup p ≠ none := by
  simp [priceKeys, hx, Exchange.orderLists, AList.lookup_eq_none, AList.mem_keys]

/-! ### The lost key -/

/-- **A deleted ask key whose list is spent and clean is not written back.**  Take an exchange
whose ask list at a price is live, its callback spent and not dirty, and whose key has been
deleted from the ask trie.  Placing an ask at that price and finalising leaves the price out
of the ask trie, while the live list at that price holds the new order. -/
theorem priceKey_not_restored {db : TradingStateDB} {orderBook orderId : Hash} {o : OrderItem}
    {x : Exchange} {l : OrderList} (hx : db.exchanges.live.lookup orderBook = some x)
    (hside : o.side = .ask) (hl : x.asks.live.lookup o.price = some l)
    (hspent : o.price ∉ x.asks.armed) (hclean : o.price ∉ x.asks.dirty)
    (hgone : x.asks.stored.lookup o.price = none) :
    let db' := (db.insertOrderItem orderBook orderId o).finalise
    o.price ∉ db'.priceKeys orderBook .ask ∧
      ((db'.exchanges.get orderBook).bind fun x => x.asks.get o.price) =
        some ((l.insertOrderItem orderId o.quantity).addVolume o.quantity) := by
  intro db'
  set l' := (l.insertOrderItem orderId o.quantity).addVolume o.quantity
  set x' : Exchange := { x with
    asks := (x.asks.modify o.price l').1
    orders := x.orders.create o.orderID o }
  -- the order goes into the live list; the ask trie and the dirty marks stay as they were
  have hins : db.insertOrderItem orderBook orderId o =
      (db.record (.insertOrder orderBook orderId o)).putExchange orderBook x' true :=
    insertOrderItem_of_listed (Store.get_of_live hx) hside (Store.get_of_live hl)
  have hstored : x'.asks.stored = x.asks.stored := Store.stored_modify _ _ _
  have hdirty : x'.asks.dirty = x.asks.dirty := Store.dirty_modify_of_not_armed l' hl hspent
  have hfin : db'.exchanges.get orderBook = some (if orderBook ∈
      ((db.record (.insertOrder orderBook orderId o)).putExchange orderBook x' true).exchanges.dirty
      then x'.flush else x') := by
    rw [show db' = _ from congrArg finalise hins]
    exact get_finalise_of_live (live_lookup_putExchange_self _ _ _ _)
  -- whether or not the exchange is flushed, the price keeps its missing key
  have hkey : ∀ y ∈ [x'.flush, x'], y.asks.stored.lookup o.price = none ∧
      y.asks.get o.price = some l' := by
    intro y hy
    rcases List.mem_pair.1 hy with rfl | rfl
    · refine ⟨?_, ?_⟩
      · rw [Exchange.flush, Store.lookup_stored_flush_of_not_dirty _ _ _ (hdirty ▸ hclean), hstored,
          hgone]
      · simp [Exchange.flush, Store.get, Store.lookup_live_flush, Store.liveAfter, x',
          Store.modify, Store.update, AList.lookup_insert]
    · exact ⟨hstored ▸ hgone, Store.get_modify_self _ _ _⟩
  have hy : ∃ y ∈ [x'.flush, x'], db'.exchanges.get orderBook = some y := by
    rw [hfin]; split <;> simp
  obtain ⟨y, hymem, hyget⟩ := hy
  obtain ⟨hnone, hlist⟩ := hkey y hymem
  refine ⟨?_, by rw [hyget]; exact hlist⟩
  rw [mem_priceKeys_ask hyget]
  exact not_not.2 hnone

/-- An ask of 5 at price 10, order id 1, in order book 42. -/
def sampleAsk : OrderItem := ⟨5, 10, 7, 8, .ask, 100, 1⟩

/-- A second ask, of 3 at the same price, order id 2. -/
def sampleAskAgain : OrderItem := ⟨3, 10, 7, 9, .ask, 101, 2⟩

/-- `sampleAsk` placed in book 42 of the empty state, then finalised. -/
def askPlaced : TradingStateDB := (TradingStateDB.empty.insertOrderItem 42 1 sampleAsk).finalise

/-- Then `sampleAsk` cancelled. -/
def askCancelled : TradingStateDB × Except TradingError Unit := askPlaced.cancelOrder 42 sampleAsk

/-- Then `sampleAskAgain` placed at the same price, and the state finalised. -/
def askReplaced : TradingStateDB := (askCancelled.1.insertOrderItem 42 2 sampleAskAgain).finalise

/-- From the empty state: place `sampleAsk` and finalise, cancel it, place `sampleAskAgain`
at the same price and finalise.  Price 10 then holds volume 3 but is no key of the ask trie,
and `GetBestAskPrice` reports no ask. -/
theorem priceKey_lost_after_finalise :
    askPlaced.getBestAskPrice 42 = (10, 5) ∧ askCancelled.2 = .ok () ∧
      askReplaced.getVolume 42 10 .ask = 3 ∧ 10 ∉ askReplaced.priceKeys 42 .ask ∧
      askReplaced.getBestAskPrice 42 = (0, 0) := by
  decide

end XdcSubnet.XDCx.TradingStateDB
