import XdcSubnet.XDCx.BookInvariant

/-!
# One pass of `processOrderList`

A pass reads the level's first order, the lowest id it lists (`bestOrder`).  It asks
`getTradeQuantity` how much of it the two balances afford: no more than the quantity left and
the order's amount.  Then it does one of five things (`processOrderListStep_cases`): it rejects
the taker; it cancels the maker and stops; it trades (possibly nothing) and cancels the maker;
it trades and goes on; or it fails.

Under the order-book invariant the first order is the item stored under its id, on the level's
side and at its price (`bestOrder_item`).  So a cancel of it that succeeds takes one id off the
level, and a pass that goes round again lowers the quantity left plus the number of ids at the
level (`processOrderListStep_next_lt`).
-/

namespace XdcSubnet.XDCx

open WriteBack Loop

/-! ### The first order of a level -/

/-- The order a pass takes: the lowest id listed at the level, with its amount; zero for both
when the lookup fails. -/
def bestOrder (db : TradingStateDB) (orderBook price : Hash) (side : Side) : Hash × ℕ :=
  (db.getBestOrderIdAndAmount orderBook price side).toOption.getD (0, 0)

/-- The maker of a pass: the stored item of the order, with the taker's tokens. -/
def makerOf (db : TradingStateDB) (orderBook orderId : Hash) (order : TradedOrder) :
    TradedOrder :=
  { toOrderItem := db.getOrder orderBook orderId
    baseToken := order.baseToken
    quoteToken := order.quoteToken }

/-- The level at `price` of `side`. -/
def Exchange.level (x : Exchange) (side : Side) (price : ℕ) : Option OrderList :=
  (x.orderLists side).bind fun lists => lists.get price

theorem Exchange.levelIds_eq (x : Exchange) (side : Side) (price : ℕ) :
    x.levelIds side price = ((x.level side price).map fun l => l.amounts.keys).getD [] := rfl

theorem bestOrder_eq (db : TradingStateDB) (orderBook price : Hash) (side : Side) :
    bestOrder db orderBook price side =
      match (db.exchangeAt orderBook).level side price with
      | some l => (l.amounts.keys.min?.getD 0, l.getOrderAmount (l.amounts.keys.min?.getD 0))
      | none => (0, 0) := by
  unfold bestOrder TradingStateDB.getBestOrderIdAndAmount Exchange.level
  rw [← TradingStateDB.exchangeAt]
  dsimp only
  cases (db.exchangeAt orderBook).orderLists side with
  | none => rfl
  | some lists =>
    dsimp only [Option.bind_some]
    cases lists.get price with
    | none => rfl
    | some l => rfl

theorem getOrder_eq (db : TradingStateDB) (orderBook orderId : Hash) :
    db.getOrder orderBook orderId = ((db.exchangeAt orderBook).orders.get orderId).getD emptyOrder := by
  unfold TradingStateDB.getOrder TradingStateDB.exchangeAt
  cases db.exchanges.get orderBook <;> rfl

section Best

variable {db : TradingStateDB} {orderBook price orderId : Hash} {side : Side} {amount : ℕ}

theorem Exchange.level_eq_some {x : Exchange} {l : OrderList} (h : x.level side price = some l) :
    ∃ lists, x.orderLists side = some lists ∧ lists.get price = some l :=
  Option.bind_eq_some_iff.1 h

/-- An order with an amount is listed at the level, before every other id there. -/
theorem bestOrder_mem (h : bestOrder db orderBook price side = (orderId, amount))
    (hpos : 0 < amount) :
    ∃ l, (db.exchangeAt orderBook).level side price = some l ∧
      amount = l.getOrderAmount orderId ∧ orderId ∈ l.amounts.keys ∧
      ∀ k ∈ l.amounts.keys, orderId ≤ k := by
  rw [bestOrder_eq] at h
  split at h
  · next l hl =>
    cases h
    refine ⟨l, hl, rfl, ?_⟩
    cases hmin : l.amounts.keys.min? with
    | none =>
      -- with no id the amount read is that of the empty hash, which is not listed
      rw [hmin, Option.getD_none] at hpos
      have hlookup := OrderList.lookup_of_getOrderAmount_pos hpos
      have hmem : (0 : Hash) ∈ l.amounts.keys :=
        AList.mem_keys.2 (AList.lookup_isSome.1 (by rw [hlookup]; rfl))
      rw [List.min?_eq_none_iff.1 hmin] at hmem
      cases hmem
    | some m => exact List.min?_eq_some_iff.1 hmin
  · cases h
    omega

/-- Under the invariant a level's first order with an amount is the item stored under its id,
on the level's side and at its price, with that amount. -/
theorem bestOrder_item (hc : db.BookConsistent orderBook)
    (h : bestOrder db orderBook price side = (orderId, amount)) (hpos : 0 < amount) :
    ∃ item, (db.exchangeAt orderBook).orders.get orderId = some item ∧ item.quantity = amount ∧
      item.side = side ∧ item.price = price ∧ item.orderID = orderId := by
  obtain ⟨l, hl, rfl, -, -⟩ := bestOrder_mem h hpos
  obtain ⟨lists, hlists, hget⟩ := Exchange.level_eq_some hl
  exact hc.item_of_listed hlists hget hpos

/-- Under the invariant the first order of a level has no amount only when the level lists
nothing. -/
theorem levelIds_eq_nil (hc : db.BookConsistent orderBook)
    (h : bestOrder db orderBook price side = (orderId, 0)) :
    (db.exchangeAt orderBook).levelIds side price = [] := by
  rw [bestOrder_eq] at h
  rw [Exchange.levelIds_eq]
  split at h
  · next l hl =>
    have hzero : l.getOrderAmount (l.amounts.keys.min?.getD 0) = 0 := (Prod.mk.inj h).2
    obtain ⟨lists, hlists, hget⟩ := Exchange.level_eq_some hl
    rw [hl, Option.map_some, Option.getD_some]
    cases hmin : l.amounts.keys.min? with
    | none => exact List.min?_eq_none_iff.1 hmin
    | some m =>
      -- the lowest id is listed, so its amount is positive
      rw [hmin, Option.getD_some] at hzero
      have hm := AList.mem_keys.1 (List.min?_mem hmin)
      obtain ⟨a, ha⟩ := Option.isSome_iff_exists.1 (AList.lookup_isSome.2 hm)
      have hpos := (((hc side lists hlists).level price l hget).listed m a ha).1
      rw [OrderList.getOrderAmount, ha, Option.getD_some] at hzero
      omega
  · rw [‹(db.exchangeAt orderBook).level side price = none›]
    rfl

/-- Under the invariant a price is a key of its trie only when its level lists some order. -/
theorem not_mem_prices (hc : db.BookConsistent orderBook)
    (h : (db.exchangeAt orderBook).levelIds side price = []) :
    price ∉ (db.exchangeAt orderBook).prices side := by
  intro hmem
  unfold Exchange.prices at hmem
  cases hlists : (db.exchangeAt orderBook).orderLists side with
  | none => simp [hlists] at hmem
  | some lists =>
    rw [hlists, Option.map_some, Option.getD_some] at hmem
    obtain ⟨l, hl, hkeys⟩ := (hc side lists hlists).keyed price hmem
    unfold Exchange.levelIds at h
    simp [hlists, hl] at h
    exact hkeys h

end Best

/-! ### The trade quantity, the cancel and the trade of a pass -/

namespace XDCX

variable (xdcx : XDCX)

theorem settleTradeQuantity_quantity_le (quotePrice : Option ℕ) (coinbase : Hash)
    (statedb : StateDB) (takerOrder makerOrder : TradedOrder)
    {baseTokenDecimal : ℕ} (quoteTokenDecimal quantityToTrade : ℕ) (hd : 0 < baseTokenDecimal) :
    (xdcx.settleTradeQuantity quotePrice coinbase statedb takerOrder makerOrder baseTokenDecimal
      quoteTokenDecimal quantityToTrade).1.quantity ≤ quantityToTrade := by
  unfold settleTradeQuantity
  dsimp only
  repeat' split
  all_goals exact getTradeQuantity_fst_le _ _ _ _ _ _ _ _ hd

/-- **The quantity a pass trades is at most what it asks for.** -/
theorem getTradeQuantity_quantity_le (quotePrice : Option ℕ) (coinbase : Hash) (statedb : StateDB)
    (takerOrder makerOrder : TradedOrder) (quantityToTrade : ℕ) :
    (xdcx.getTradeQuantity quotePrice coinbase statedb takerOrder makerOrder quantityToTrade).1.quantity
      ≤ quantityToTrade := by
  unfold getTradeQuantity
  dsimp only
  repeat' split
  all_goals first
    | exact Nat.zero_le _
    | exact settleTradeQuantity_quantity_le xdcx _ _ _ _ _ _ _ (Nat.pos_of_ne_zero ‹_›)

theorem cancelMaker_state (orderBook : Hash) (maker : TradedOrder) (stop : Bool) (s : Matching) :
    (cancelMaker orderBook maker stop s).state =
      { s with tradingStateDB := (s.tradingStateDB.cancelOrder orderBook maker.toOrderItem).1 } := by
  unfold cancelMaker
  dsimp only
  split
  · rfl
  · split <;> rfl

/-- A cancel goes round again only when it succeeds and is not told to stop. -/
theorem cancelMaker_eq_next {orderBook : Hash} {maker : TradedOrder} {stop : Bool} {s s' : Matching}
    (h : cancelMaker orderBook maker stop s = .next s') :
    stop = false ∧ (s.tradingStateDB.cancelOrder orderBook maker.toOrderItem).2 = .ok () ∧
      s' = { s with tradingStateDB := (s.tradingStateDB.cancelOrder orderBook maker.toOrderItem).1 } := by
  unfold cancelMaker at h
  dsimp only at h
  split at h
  · cases h
  · next hok =>
    split at h
    · cases h
    · cases h
      exact ⟨by simpa using ‹¬stop = true›, hok, rfl⟩

/-- A cancel leaves the loop only when told to stop, with the state it was given. -/
theorem cancelMaker_eq_exit {orderBook : Hash} {maker : TradedOrder} {stop : Bool} {s s' : Matching}
    (h : cancelMaker orderBook maker stop s = .exit s') :
    stop = true ∧
      s' = { s with tradingStateDB := (s.tradingStateDB.cancelOrder orderBook maker.toOrderItem).1 } := by
  unfold cancelMaker at h
  dsimp only at h
  split at h
  · cases h
  · split at h
    · cases h
      exact ⟨‹_›, rfl⟩
    · cases h

section RecordTrade

variable (orderBook orderId price : Hash) (side : Side) (order maker : TradedOrder) (traded : ℕ)
  (settleBalance : Option SettleBalance) (s : Matching)

@[simp] theorem recordTrade_quantityToTrade :
    (recordTrade orderBook orderId price side order maker traded settleBalance s).quantityToTrade =
      s.quantityToTrade - traded := by
  simp only [recordTrade]

@[simp] theorem recordTrade_rejects :
    (recordTrade orderBook orderId price side order maker traded settleBalance s).rejects =
      s.rejects := by
  simp only [recordTrade]

@[simp] theorem recordTrade_statedb :
    (recordTrade orderBook orderId price side order maker traded settleBalance s).statedb =
      s.statedb := by
  simp only [recordTrade]

end RecordTrade

/-- **What one pass does.**  With no amount at the level's first order it leaves as it was.
Otherwise it settles through some account state `statedb`, and then it rejects the taker; or it
cancels the maker and stops; or it trades `traded` (nothing when zero), no more than the
quantity left and the maker's amount, and cancels the maker; or it trades a positive `traded`
and goes on; or it fails. -/
theorem processOrderListStep_cases (coinbase : Hash) (side : Side) (orderBook price : Hash)
    (order : TradedOrder) {s : Matching} {orderId : Hash} {amount : ℕ}
    (hbest : bestOrder s.tradingStateDB orderBook price side = (orderId, amount)) :
    let maker := makerOf s.tradingStateDB orderBook orderId order
    let pass := xdcx.processOrderListStep coinbase side orderBook price order s
    amount = 0 ∧ pass = .exit s ∨
    0 < amount ∧ ∃ statedb : StateDB,
      (pass = .exit { s with statedb, rejects := s.rejects ++ [order], quantityToTrade := 0 } ∨
      pass = cancelMaker orderBook maker true
        { s with statedb, rejects := s.rejects ++ [order, maker], quantityToTrade := 0 } ∨
      (∃ traded settleBalance, traded ≤ s.quantityToTrade ∧ traded ≤ amount ∧
        let s₂ := if 0 < traded then
            recordTrade orderBook orderId price side order maker traded settleBalance
              { s with statedb }
          else { s with statedb }
        (pass = cancelMaker orderBook maker false { s₂ with rejects := s₂.rejects ++ [maker] } ∨
          0 < traded ∧ pass = .next s₂)) ∨
      ∃ e, pass = .fail e { s with statedb }) := by
  intro maker pass
  generalize hp : pass = p
  unfold pass processOrderListStep at hp
  simp only [bestOrder] at hbest
  simp only [hbest] at hp
  split at hp
  · exact .inl ⟨‹_›, hp.symm⟩
  refine .inr ⟨Nat.pos_of_ne_zero ‹_›, ?_⟩
  split at hp
  · exact ⟨s.statedb, .inr (.inr (.inr ⟨_, hp.symm⟩))⟩
  rename_i quotePrice _
  have hle := getTradeQuantity_quantity_le xdcx quotePrice coinbase s.statedb order
    { toOrderItem := s.tradingStateDB.getOrder orderBook orderId, baseToken := order.baseToken,
      quoteToken := order.quoteToken }
    (if s.quantityToTrade ≤ amount then s.quantityToTrade else amount)
  generalize xdcx.getTradeQuantity quotePrice coinbase s.statedb order
    { toOrderItem := s.tradingStateDB.getOrder orderBook orderId, baseToken := order.baseToken,
      quoteToken := order.quoteToken }
    (if s.quantityToTrade ≤ amount then s.quantityToTrade else amount) = result at hp hle
  obtain ⟨r, statedb⟩ := result
  dsimp only at hp hle
  refine ⟨statedb, ?_⟩
  split at hp
  · -- the settlement was too small: the taker or the maker is rejected
    split_ifs at hp
    all_goals first
      | exact .inl hp.symm
      | exact .inr (.inl hp.symm)
      | exact .inr (.inr (.inl ⟨0, none, Nat.zero_le _, Nat.zero_le _, .inl hp.symm⟩))
  · exact .inr (.inr (.inr ⟨_, hp.symm⟩))
  · -- no error: the pass trades what the balances afford
    have hbound : r.quantity ≤ s.quantityToTrade ∧ r.quantity ≤ amount := by
      split_ifs at hle <;> omega
    by_cases hnone : r.quantity = 0 ∧ r.rejectMaker = false
    · rw [if_pos hnone] at hp
      exact .inl hp.symm
    rw [if_neg hnone] at hp
    refine .inr (.inr (.inl ⟨r.quantity, r.settleBalance, hbound.1, hbound.2, ?_⟩))
    by_cases hreject : r.rejectMaker = true
    · rw [if_pos hreject] at hp
      exact .inl hp.symm
    · rw [if_neg hreject] at hp
      have hpos : 0 < r.quantity := Nat.pos_of_ne_zero fun h0 => hnone ⟨h0, by simpa using hreject⟩
      exact .inr ⟨hpos, hp.symm⟩

/-- **What a pass that goes round again did**: it traded a positive quantity, no more than was
left, or it left the quantity and took the level's first order off the level. -/
theorem processOrderListStep_next_cases {coinbase : Hash} {side : Side} {orderBook price : Hash}
    {order : TradedOrder} {s s' : Matching} (hc : s.tradingStateDB.BookConsistent orderBook)
    (h : xdcx.processOrderListStep coinbase side orderBook price order s = .next s') :
    (∃ traded, 0 < traded ∧ traded ≤ s.quantityToTrade ∧
        s'.quantityToTrade = s.quantityToTrade - traded) ∨
      s'.quantityToTrade = s.quantityToTrade ∧
        ∃ orderId ∈ (s.tradingStateDB.exchangeAt orderBook).levelIds side price,
          orderId ∉ (s'.tradingStateDB.exchangeAt orderBook).levelIds side price := by
  rcases hbest : bestOrder s.tradingStateDB orderBook price side with ⟨orderId, amount⟩
  rcases processOrderListStep_cases xdcx coinbase side orderBook price order hbest with
    ⟨-, hp⟩ | ⟨hpos, statedb, hp | hp | ⟨traded, sb, hq, -, hp | ⟨htpos, hp⟩⟩ | ⟨e, hp⟩⟩
  · rw [hp] at h
    cases h
  · rw [hp] at h
    cases h
  · rw [hp] at h
    cases (cancelMaker_eq_next h).1
  · obtain ⟨-, hok, rfl⟩ := cancelMaker_eq_next (hp ▸ h)
    set maker := makerOf s.tradingStateDB orderBook orderId order
    by_cases ht : 0 < traded
    · rw [if_pos ht]
      exact .inl ⟨traded, ht, hq, by simp⟩
    · -- no trade: the cancel took the first order off its level
      rw [if_neg ht] at hok ⊢
      dsimp only at hok ⊢
      obtain ⟨item, hitem, -, hside, hprice, hid⟩ := bestOrder_item hc hbest hpos
      have hmaker : maker.toOrderItem = item := by
        simp only [maker, makerOf, getOrder_eq, hitem, Option.getD_some]
      obtain ⟨item', hitem', hgone⟩ := TradingStateDB.cancelOrder_not_mem_levelIds hok
      rw [hmaker, hid, hitem] at hitem'
      cases hitem'
      rw [hmaker, hid, hside, hprice] at hgone
      obtain ⟨l, hl, -, hmem, -⟩ := bestOrder_mem hbest hpos
      have hlisted : orderId ∈ (s.tradingStateDB.exchangeAt orderBook).levelIds side price := by
        rw [Exchange.levelIds_eq, hl]
        exact hmem
      rw [hmaker]
      exact .inr ⟨rfl, orderId, hlisted, hgone⟩
  · rw [hp, if_pos htpos] at h
    cases h
    exact .inl ⟨traded, htpos, hq, by simp⟩
  · rw [hp] at h
    cases h

/-- The measure of the loop of `processOrderList`: the quantity left and the ids at the level. -/
def orderListMeasure (orderBook price : Hash) (side : Side) (s : Matching) : ℕ :=
  s.quantityToTrade + ((s.tradingStateDB.exchangeAt orderBook).levelIds side price).toFinset.card

/-- **A pass that goes round again lowers the measure**, the level only narrowing. -/
theorem processOrderListStep_next_lt {coinbase : Hash} {side : Side} {orderBook price : Hash}
    {order : TradedOrder} {s s' : Matching} (hc : s.tradingStateDB.BookConsistent orderBook)
    (h : xdcx.processOrderListStep coinbase side orderBook price order s = .next s') :
    orderListMeasure orderBook price side s' < orderListMeasure orderBook price side s := by
  have hdb : (s.tradingStateDB.exchangeAt orderBook).Narrows
      (s'.tradingStateDB.exchangeAt orderBook) := by
    have hkept := (keptByMatching_narrows orderBook s.tradingStateDB).processOrderListStep xdcx
      coinbase side price order (Exchange.Narrows.refl _)
    rwa [h] at hkept
  unfold orderListMeasure
  rcases processOrderListStep_next_cases xdcx hc h with
    ⟨traded, htraded, hq, hq'⟩ | ⟨hq', orderId, hmem, hgone⟩
  · have hle := Exchange.card_toFinset_le (hdb.levelIds side price)
    omega
  · have hlt := Exchange.card_toFinset_lt (hdb.levelIds side price) hmem hgone
    omega

end XDCX

end XdcSubnet.XDCx
