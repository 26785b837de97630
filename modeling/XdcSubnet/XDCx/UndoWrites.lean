import XdcSubnet.XDCx.BookRestore

/-!
# The undos of matching, on the book

A revert undoes a cancellation by `InsertOrderItem` and a partial fill by `undoSubAmount`.
`Exchange.insertOrder` and `Exchange.undoSubAmount` are what the two do to the exchange of their
book (`exchangeAt_insertOrderItem`, `exchangeAt_undoSubAmount`).  Both are monotone for
`Restores` (`Restores.insertOrder`, `Restores.undoSubAmount`), and each gives back, up to
`Restores`, the book before the write it undoes, when the order was listed with its quantity
(`restores_insertOrder_cancel`, `restores_undoSubAmount_fill`).

`InsertOrderItem` is also how `processLimitOrder` lists what is left of an order, under the id
after the book's nonce: that keeps the book invariant (`Exchange.Invariant.insertOrder`).
-/

namespace XdcSubnet.XDCx

open WriteBack

namespace Exchange

variable {x y : Exchange}

/-! ### Listing an order -/

/-- What `InsertOrderItem` does to the exchange of its book: the order's item is created, and
the order listed on the level of its side at its price, which is created, and its key written,
when it is missing. -/
def insertOrder (x : Exchange) (orderId : Hash) (order : OrderItem) : Exchange :=
  match x.orderLists order.side with
  | none => x
  | some lists =>
    let (lists, l) := match lists.get order.price with
      | some l => (lists, l)
      | none => ((lists.create order.price .new).write order.price .new, .new)
    let l := (l.insertOrderItem orderId order.quantity).addVolume order.quantity
    { x.setOrderLists order.side (lists.modify order.price l).1 with
      orders := x.orders.create order.orderID order }

theorem insertOrder_of_none {order : OrderItem} (h : x.orderLists order.side = none)
    (orderId : Hash) : x.insertOrder orderId order = x := by
  simp [insertOrder, h]

@[simp] theorem nonce_insertOrder (orderId : Hash) (order : OrderItem) :
    (x.insertOrder orderId order).nonce = x.nonce := by
  unfold insertOrder
  split
  · rfl
  · split
    exact nonce_setOrderLists x _ _

section InsertOrder

variable {order : OrderItem} {lists : Store ℕ OrderList}
  (hlists : x.orderLists order.side = some lists) (orderId : Hash)
include hlists

theorem orders_insertOrder :
    (x.insertOrder orderId order).orders = x.orders.create order.orderID order := by
  unfold insertOrder
  rw [hlists]

theorem level_insertOrder (side : Side) (price : ℕ) :
    (x.insertOrder orderId order).level side price =
      if side = order.side ∧ price = order.price then
        some ((((x.level order.side order.price).getD .new).insertOrderItem orderId
          order.quantity).addVolume order.quantity)
      else x.level side price := by
  rw [level_of_orderLists hlists]
  unfold insertOrder
  rw [hlists]
  dsimp only
  split
  case h_1 l hl =>
    rw [level_replace hlists, Store.get_modify, hl]
    by_cases hside : side = order.side
    · subst hside
      by_cases hp : price = order.price
      · simp [hp]
      · simp [hp, level_of_orderLists hlists]
    · simp [hside]
  case h_2 hl =>
    rw [level_replace hlists, Store.get_modify, hl]
    by_cases hside : side = order.side
    · subst hside
      by_cases hp : price = order.price
      · simp [hp]
      · simp [hp, level_of_orderLists hlists, Store.get_write_ne _ _ hp,
          Store.get_create_ne _ _ hp]
    · simp [hside]

/-- A price key is added only for the order's level, and only when that level is missing. -/
theorem mem_prices_insertOrder {side : Side} {price : ℕ} :
    price ∈ (x.insertOrder orderId order).prices side ↔
      (side = order.side ∧ x.level order.side order.price = none ∧ price = order.price) ∨
        price ∈ x.prices side := by
  rw [level_of_orderLists hlists]
  unfold insertOrder
  rw [hlists]
  dsimp only
  split
  case h_1 l hl =>
    rw [prices_replace hlists]
    split_ifs with hside
    · subst hside
      simp [hl, prices_of_orderLists hlists]
    · simp [hside]
  case h_2 hl =>
    rw [prices_replace hlists]
    split_ifs with hside
    · subst hside
      simp only [Store.stored_modify, Store.stored_write, Store.stored_create, AList.keys_insert,
        List.mem_cons, prices_of_orderLists hlists, hl, true_and]
      rw [lists.stored.keys_nodup.mem_erase_iff]
      by_cases hp : price = order.price <;> simp [hp]
    · simp [hside]

end InsertOrder

/-- **Listing an order is monotone** for `Restores`. -/
theorem Restores.insertOrder (h : x.Restores y) (orderId : Hash) (order : OrderItem) :
    (x.insertOrder orderId order).Restores (y.insertOrder orderId order) := by
  cases hx : x.orderLists order.side with
  | none =>
    have hy : y.orderLists order.side = none := orderLists_eq_none.2 (orderLists_eq_none.1 hx)
    rw [insertOrder_of_none hx, insertOrder_of_none hy]
    exact h
  | some lx =>
    have hside : order.side ≠ .unknown := fun hu => by
      rw [orderLists_eq_none.2 hu] at hx
      cases hx
    obtain ⟨ly, hy⟩ : ∃ lists, y.orderLists order.side = some lists := exists_orderLists hside
    refine ⟨?_, fun j => ?_, fun side price => ?_, fun side p hp => ?_⟩
    · rw [nonce_insertOrder, nonce_insertOrder, h.nonce]
    · rw [orders_insertOrder hy, orders_insertOrder hx, Store.get_create, Store.get_create,
        h.orders j]
    · rw [level_insertOrder hx, level_insertOrder hy]
      split_ifs
      · exact .some (((OrderList.equiv_getD (h.levels _ _)).insertOrderItem _ _).addVolume _)
      · exact h.levels side price
    · rw [mem_prices_insertOrder hx]
      rcases (mem_prices_insertOrder hy _).1 hp with ⟨hs, hnone, hp'⟩ | hp'
      · exact .inl ⟨hs, OrderList.rel_equiv_none_right (hnone ▸ h.levels _ _), hp'⟩
      · exact .inr (h.prices side hp')

/-! ### Giving an amount back -/

/-- What `undoSubAmount` does to the exchange of its book: when the order's level and its item
are there, the amount goes back onto both. -/
def undoSubAmount (x : Exchange) (orderId : Hash) (order : OrderItem) (amount : ℕ) : Exchange :=
  match x.orderLists order.side with
  | none => x
  | some lists =>
    match lists.get order.price, x.orders.get orderId with
    | some l, some item =>
      let newAmount := item.quantity + amount
      { x.setOrderLists order.side
          (lists.modify order.price ((l.insertOrderItem orderId newAmount).addVolume amount)).1 with
        orders := (x.orders.modify orderId { item with quantity := newAmount }).1 }
    | _, _ => x

theorem undoSubAmount_of_level {orderId : Hash} {order : OrderItem} {amount : ℕ}
    (h : x.level order.side order.price = none) : x.undoSubAmount orderId order amount = x := by
  unfold undoSubAmount
  split
  · rfl
  · next lists hlists =>
    rw [level_of_orderLists hlists] at h
    simp [h]

theorem undoSubAmount_of_orders {orderId : Hash} {order : OrderItem} {amount : ℕ}
    (h : x.orders.get orderId = none) : x.undoSubAmount orderId order amount = x := by
  unfold undoSubAmount
  split
  · rfl
  · simp [h]

section UndoSubAmount

variable {orderId : Hash} {order : OrderItem} {amount : ℕ} {lists : Store ℕ OrderList}
  {l : OrderList} {item : OrderItem} (hlists : x.orderLists order.side = some lists)
  (hl : lists.get order.price = some l) (hitem : x.orders.get orderId = some item)
include hlists hl hitem

theorem undoSubAmount_eq : x.undoSubAmount orderId order amount =
    { x.setOrderLists order.side (lists.modify order.price
        ((l.insertOrderItem orderId (item.quantity + amount)).addVolume amount)).1 with
      orders := (x.orders.modify orderId { item with quantity := item.quantity + amount }).1 } := by
  simp only [undoSubAmount, hlists, hl, hitem]

theorem level_undoSubAmount (side : Side) (price : ℕ) :
    (x.undoSubAmount orderId order amount).level side price =
      if side = order.side ∧ price = order.price then
        some ((l.insertOrderItem orderId (item.quantity + amount)).addVolume amount)
      else x.level side price := by
  rw [undoSubAmount_eq hlists hl hitem, level_replace hlists, Store.get_modify]
  by_cases hside : side = order.side
  · subst hside
    by_cases hp : price = order.price
    · simp [hp]
    · simp [hp, level_of_orderLists hlists]
  · simp [hside]

theorem prices_undoSubAmount : (x.undoSubAmount orderId order amount).prices = x.prices := by
  funext side
  rw [undoSubAmount_eq hlists hl hitem, prices_replace hlists]
  split_ifs with hside
  · subst hside
    rw [Store.stored_modify, prices_of_orderLists hlists]
  · rfl

end UndoSubAmount

@[simp] theorem nonce_undoSubAmount (orderId : Hash) (order : OrderItem) (amount : ℕ) :
    (x.undoSubAmount orderId order amount).nonce = x.nonce := by
  unfold undoSubAmount
  split
  · rfl
  · split
    · exact nonce_setOrderLists x _ _
    · rfl

/-- **Giving an amount back is monotone** for `Restores`. -/
theorem Restores.undoSubAmount (h : x.Restores y) (orderId : Hash) (order : OrderItem)
    (amount : ℕ) : (x.undoSubAmount orderId order amount).Restores
      (y.undoSubAmount orderId order amount) := by
  -- both find the level and the item, or neither does
  cases hxl : x.level order.side order.price with
  | none =>
    have hyl := OrderList.rel_equiv_none_left (hxl ▸ h.levels order.side order.price)
    rw [undoSubAmount_of_level hxl, undoSubAmount_of_level hyl]
    exact h
  | some lx =>
    cases hxi : x.orders.get orderId with
    | none =>
      have hyi : y.orders.get orderId = none := by rw [h.orders, hxi]
      rw [undoSubAmount_of_orders hxi, undoSubAmount_of_orders hyi]
      exact h
    | some item =>
      have hyi : y.orders.get orderId = some item := by rw [h.orders, hxi]
      obtain ⟨ly, hyl, hequiv⟩ := h.level_some_left hxl
      obtain ⟨xlists, hxlists, hxget⟩ := level_eq_some hxl
      obtain ⟨ylists, hylists, hyget⟩ := level_eq_some hyl
      refine ⟨?_, fun j => ?_, fun side price => ?_, fun side => ?_⟩
      · rw [nonce_undoSubAmount, nonce_undoSubAmount, h.nonce]
      · rw [undoSubAmount_eq hylists hyget hyi, undoSubAmount_eq hxlists hxget hxi]
        simp only [Store.get_modify, h.orders j]
      · rw [level_undoSubAmount hxlists hxget hxi, level_undoSubAmount hylists hyget hyi]
        split_ifs
        · exact .some ((hequiv.insertOrderItem _ _).addVolume _)
        · exact h.levels side price
      · rw [prices_undoSubAmount hxlists hxget hxi, prices_undoSubAmount hylists hyget hyi]
        exact h.prices side

/-! ### What each undo gives back -/

section Undo

variable {lists : Store ℕ OrderList} {l : OrderList} {orderId : Hash} {item : OrderItem}
  (hlists : x.orderLists item.side = some lists) (hl : lists.get item.price = some l)
  (hitem : x.orders.get orderId = some item)
  (hlookup : l.amounts.lookup orderId = some item.quantity)
include hlists hl hitem hlookup

/-- **Listing a cancelled order again gives the book back**: the order was listed with its
quantity and is listed again with it, the level's entries in another order. -/
theorem restores_insertOrder_cancel (hid : item.orderID = orderId) :
    x.Restores ((x.setOrderAmount item.side lists item.price l orderId item 0).insertOrder
      orderId item) := by
  have hulists := orderLists_setOrderAmount hlists item.price l orderId item 0 item.side
  rw [if_pos rfl] at hulists
  have hulevel := level_setOrderAmount hlists item.price l orderId item 0 item.side item.price
  rw [if_pos ⟨rfl, rfl⟩] at hulevel
  refine ⟨?_, fun j => ?_, fun side price => ?_, fun side p hp => ?_⟩
  · rw [nonce_insertOrder, nonce_setOrderAmount]
  · rw [orders_insertOrder hulists, Store.get_create, hid, orders_setOrderAmount, Store.get_modify]
    split_ifs with hj
    · rw [hj, hitem]
    · rfl
  · rw [level_insertOrder hulists, hulevel, level_setOrderAmount hlists]
    split_ifs with hsame
    · obtain ⟨rfl, rfl⟩ := hsame
      rw [level_of_orderLists hlists, hl, Option.getD_some]
      have hequiv := @OrderList.equiv_setOrderAmount_insert _ _ _ 0 hlookup
      rw [Nat.sub_zero] at hequiv
      exact .some hequiv
    · exact OrderList.rel_equiv_refl _
  · rcases (mem_prices_insertOrder hulists _).1 hp with ⟨-, hnone, -⟩ | hp'
    · rw [hulevel] at hnone
      cases hnone
    · exact prices_setOrderAmount_subset hlists _ _ _ _ _ side hp'

/-- **Giving the amount of a fill back gives the book back.** -/
theorem restores_undoSubAmount_fill {amount : ℕ} (hle : amount ≤ item.quantity) :
    x.Restores ((x.setOrderAmount item.side lists item.price l orderId item
      (item.quantity - amount)).undoSubAmount orderId item amount) := by
  have hulists := orderLists_setOrderAmount hlists item.price l orderId item
    (item.quantity - amount) item.side
  rw [if_pos rfl] at hulists
  have hulevel := level_setOrderAmount hlists item.price l orderId item (item.quantity - amount)
    item.side item.price
  rw [if_pos ⟨rfl, rfl⟩, level_of_orderLists hulists] at hulevel
  have huitem : (x.setOrderAmount item.side lists item.price l orderId item
      (item.quantity - amount)).orders.get orderId =
        some { item with quantity := item.quantity - amount } := by
    rw [orders_setOrderAmount, Store.get_modify_self]
  have hback : item.quantity - amount + amount = item.quantity := by omega
  refine ⟨?_, fun j => ?_, fun side price => ?_, fun side => ?_⟩
  · rw [nonce_undoSubAmount, nonce_setOrderAmount]
  · rw [undoSubAmount_eq hulists hulevel huitem]
    simp only [orders_setOrderAmount, Store.get_modify, hback]
    split_ifs with hj
    · rw [hj, hitem]
    · rfl
  · rw [level_undoSubAmount hulists hulevel huitem, level_setOrderAmount hlists]
    split_ifs with hsame
    · obtain ⟨rfl, rfl⟩ := hsame
      rw [level_of_orderLists hlists, hl]
      have hequiv := @OrderList.equiv_setOrderAmount_insert _ _ _ (item.quantity - amount) hlookup
      rw [Nat.sub_sub_self hle] at hequiv
      exact .some (by simpa only [hback] using hequiv)
    · exact OrderList.rel_equiv_refl _
  · rw [prices_undoSubAmount hulists hulevel huitem]
    exact prices_setOrderAmount_subset hlists _ _ _ _ _ side

end Undo

/-! ### Listing what is left of an order -/

end Exchange

/-- An order listed under an id that its level lacks, with its item stored, keeps the level in
agreement. -/
theorem LevelConsistent.insertOrderItem {orders orders' : Store Hash OrderItem} {side : Side}
    {price : ℕ} {l : OrderList} (hc : LevelConsistent orders side price l) {order : OrderItem}
    (hfresh : order.orderID ∉ l.amounts.keys) (hpos : 0 < order.quantity)
    (hside : order.side = side) (hprice : order.price = price)
    (hget : ∀ j, orders'.get j = if j = order.orderID then some order else orders.get j) :
    LevelConsistent orders' side price
      ((l.insertOrderItem order.orderID order.quantity).addVolume order.quantity) where
  volume_eq := by
    have htotal := Tally.total_insert l.amounts order.orderID order.quantity
    have hzero : Tally.get l.amounts order.orderID = 0 := by
      simp [Tally.get, AList.lookup_eq_none.2 fun h => hfresh (AList.mem_keys.1 h)]
    simp only [OrderList.addVolume, OrderList.insertOrderItem, hc.volume_eq]
    omega
  listed j a hj := by
    by_cases hj' : j = order.orderID
    · subst hj'
      simp only [OrderList.addVolume, OrderList.insertOrderItem, AList.lookup_insert,
        Option.some.injEq] at hj
      subst hj
      exact ⟨hpos, order, by rw [hget, if_pos rfl], rfl, hside, hprice, rfl⟩
    · simp only [OrderList.addVolume, OrderList.insertOrderItem,
        AList.lookup_insert_ne hj'] at hj
      rw [hget, if_neg hj']
      exact hc.listed j a hj

namespace Exchange

variable {x : Exchange} {order : OrderItem} {lists : Store ℕ OrderList}

/-- The level an order is listed on: the one at its side and price, or a new one. -/
theorem levelConsistent_getD (hc : x.Consistent) (side : Side) (price : ℕ) :
    LevelConsistent x.orders side price ((x.level side price).getD .new) := by
  cases hlevel : x.level side price with
  | none => exact ⟨by simp [OrderList.new], by simp [OrderList.new]⟩
  | some l => exact ((consistent_iff x).1 hc).1 side price l hlevel

theorem keys_insertOrderItem_ne_nil (l : OrderList) (orderId : Hash) (amount : ℕ) :
    ((l.insertOrderItem orderId amount).addVolume amount).amounts.keys ≠ [] := by
  simp [OrderList.addVolume, OrderList.insertOrderItem, AList.keys_insert]

theorem Consistent.insertOrder (hc : x.Consistent) (hlists : x.orderLists order.side = some lists)
    (hpos : 0 < order.quantity) (hfresh : ∀ side price, order.orderID ∉ x.levelIds side price) :
    (x.insertOrder order.orderID order).Consistent := by
  obtain ⟨hlevel, hkeyed⟩ := (consistent_iff x).1 hc
  have hget : ∀ j, (x.insertOrder order.orderID order).orders.get j =
      if j = order.orderID then some order else x.orders.get j := fun j => by
    rw [orders_insertOrder hlists, Store.get_create]
  refine (consistent_iff _).2 ⟨fun side price l hl => ?_, fun side price hp => ?_⟩
  · rw [level_insertOrder hlists] at hl
    split_ifs at hl with hsame
    · -- the order's level, with the order added under its fresh id
      obtain ⟨rfl, rfl⟩ := hsame
      cases hl
      refine (levelConsistent_getD hc _ _).insertOrderItem ?_ hpos rfl rfl hget
      intro hmem
      cases hl₀ : x.level order.side order.price with
      | none => simp [hl₀, OrderList.new] at hmem
      | some l₀ =>
        rw [hl₀, Option.getD_some] at hmem
        exact hfresh _ _ (mem_levelIds.2 ⟨l₀, hl₀, hmem⟩)
    · -- another level lists only ids other than the new one
      refine (hlevel side price l hl).congr_orders fun j a hj => ?_
      have hj' : j ≠ order.orderID := fun hjid =>
        hfresh side price (mem_levelIds.2 ⟨l, hl, hjid ▸ AList.mem_keys.1
          (AList.lookup_isSome.1 (by rw [hj]; rfl))⟩)
      rw [hget, if_neg hj']
  · rw [level_insertOrder hlists]
    rcases (mem_prices_insertOrder hlists _).1 hp with ⟨hs, -, hp'⟩ | hp'
    · exact ⟨_, if_pos ⟨hs, hp'⟩, keys_insertOrderItem_ne_nil _ _ _⟩
    · obtain ⟨l, hl, hkeys⟩ := hkeyed side price hp'
      split_ifs
      · exact ⟨_, rfl, keys_insertOrderItem_ne_nil _ _ _⟩
      · exact ⟨l, hl, hkeys⟩

theorem Listed.insertOrder (hlisted : x.Listed) (hlists : x.orderLists order.side = some lists) :
    (x.insertOrder order.orderID order).Listed := by
  intro j item hitem hpos
  rw [orders_insertOrder hlists, Store.get_create] at hitem
  rw [level_insertOrder hlists]
  split_ifs at hitem with hj
  · -- the new item is listed on its level
    cases hitem
    subst hj
    rw [if_pos ⟨rfl, rfl⟩]
    exact ⟨_, rfl, by simp [OrderList.addVolume, OrderList.insertOrderItem]⟩
  · obtain ⟨l, hlevel, hlookup⟩ := hlisted j item hitem hpos
    split_ifs with hsame
    · obtain ⟨hs, hp⟩ := hsame
      rw [hs, hp] at hlevel
      refine ⟨_, rfl, ?_⟩
      simp [hlevel, OrderList.addVolume, OrderList.insertOrderItem, AList.lookup_insert_ne hj,
        hlookup]
    · exact ⟨l, hlevel, hlookup⟩

theorem BelowNonce.insertOrder (hb : x.BelowNonce) (hlists : x.orderLists order.side = some lists)
    (hid : order.orderID ≤ x.nonce) : (x.insertOrder order.orderID order).BelowNonce := by
  intro side price j hj
  rw [nonce_insertOrder]
  obtain ⟨l, hl, hjl⟩ := mem_levelIds.1 hj
  rw [level_insertOrder hlists] at hl
  split_ifs at hl with hsame
  · cases hl
    simp only [OrderList.addVolume, OrderList.insertOrderItem, AList.keys_insert,
      List.mem_cons] at hjl
    rcases hjl with rfl | hjl
    · exact hid
    · -- an id of the level the order joined
      have hjl := List.mem_of_mem_erase hjl
      cases hl₀ : x.level order.side order.price with
      | none => simp [hl₀, OrderList.new] at hjl
      | some l₀ =>
        rw [hl₀, Option.getD_some] at hjl
        exact hb _ _ j (mem_levelIds.2 ⟨l₀, hl₀, hjl⟩)
  · exact hb side price j (mem_levelIds.2 ⟨l, hl, hjl⟩)

/-- Listing an order under an id listed nowhere and at most the nonce keeps the book
invariant. -/
theorem Invariant.insertOrder (hi : x.Invariant) (hpos : 0 < order.quantity)
    (hfresh : ∀ side price, order.orderID ∉ x.levelIds side price)
    (hid : order.orderID ≤ x.nonce) : (x.insertOrder order.orderID order).Invariant := by
  cases hlists : x.orderLists order.side with
  | none =>
    rw [insertOrder_of_none hlists]
    exact hi
  | some lists =>
    exact ⟨hi.consistent.insertOrder hlists hpos hfresh, hi.listed.insertOrder hlists,
      hi.belowNonce.insertOrder hlists hid⟩

/-- Raising the nonce keeps the book invariant. -/
theorem Invariant.raiseNonce (hi : x.Invariant) {nonce : ℕ} (h : x.nonce ≤ nonce) :
    { x with nonce }.Invariant where
  consistent := hi.consistent.of_tries rfl rfl rfl
  listed := hi.listed
  belowNonce side price j hj := (hi.belowNonce side price j hj).trans h

/-- **Listing an order under the id after the nonce**, with the nonce raised to it, keeps the
book invariant. -/
theorem Invariant.insertOrder_next (hi : x.Invariant) (hpos : 0 < order.quantity)
    (hid : order.orderID = x.nonce + 1) :
    ({ x with nonce := x.nonce + 1 }.insertOrder order.orderID order).Invariant :=
  (hi.raiseNonce (Nat.le_succ _)).insertOrder hpos
    (fun side price hmem => by
      have hle : order.orderID ≤ x.nonce := hi.belowNonce side price order.orderID hmem
      omega)
    hid.le

end Exchange

namespace TradingStateDB

/-- `InsertOrderItem` changes the exchange of its book as `Exchange.insertOrder` does. -/
theorem exchangeAt_insertOrderItem (db : TradingStateDB) (orderBook orderId : Hash)
    (order : OrderItem) : (db.insertOrderItem orderBook orderId order).exchangeAt orderBook =
      (db.exchangeAt orderBook).insertOrder orderId order := by
  have hx := getOrNewExchange_snd db orderBook
  have hx₁ := exchangeAt_getOrNewExchange db orderBook
  rcases hg : db.getOrNewExchange orderBook with ⟨db₁, x⟩
  rw [hg] at hx hx₁
  dsimp only at hx hx₁
  subst hx
  simp only [insertOrderItem, hg, Exchange.insertOrder]
  cases hlists : (db.exchangeAt orderBook).orderLists order.side with
  | none => exact hx₁
  | some lists => exact exchangeAt_putExchange_self _ _ _ _

/-- `undoSubAmount` changes the exchange of its book as `Exchange.undoSubAmount` does. -/
theorem exchangeAt_undoSubAmount (db : TradingStateDB) (orderBook orderId : Hash)
    (order : OrderItem) (amount : ℕ) :
    (db.undoSubAmount orderBook orderId order amount).exchangeAt orderBook =
      (db.exchangeAt orderBook).undoSubAmount orderId order amount := by
  cases hx : db.exchanges.get orderBook with
  | none =>
    -- a book never written has no level to give the amount back to
    have hnew : db.exchangeAt orderBook = .new := by simp [exchangeAt, hx]
    simp only [undoSubAmount, hx]
    rw [hnew, Exchange.undoSubAmount_of_level]
    cases order.side <;> simp [Exchange.level, Exchange.orderLists, Exchange.new, Store.get,
      Store.empty]
  | some x =>
    have hxat : db.exchangeAt orderBook = x := by simp [exchangeAt, hx]
    simp only [undoSubAmount, hx, hxat, Exchange.undoSubAmount]
    cases x.orderLists order.side with
    | none => exact hxat
    | some lists =>
      dsimp only
      cases lists.get order.price <;> cases x.orders.get orderId
      case some.some => exact exchangeAt_putExchange_self _ _ _ _
      all_goals exact hxat

end TradingStateDB

end XdcSubnet.XDCx
