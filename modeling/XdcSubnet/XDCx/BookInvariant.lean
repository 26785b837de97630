import XdcSubnet.XDCx.Replay
import XdcSubnet.Lib.Tally

/-!
# The order-book invariant

An order book's price levels agree with its order trie (`Exchange.Consistent`): a level's
volume is the sum of its amounts, every order it lists has a positive amount and is the item
stored under its id, on the level's side and at its price, with that amount as its quantity,
and every key of a price trie has a level that lists some order.

Cancelling an order and taking an amount off it write the same thing: the order's amount is set
(to zero, or to what is left), on its item and on its level, and the level's price leaves the
trie when the level becomes empty (`Exchange.setOrderAmount`).  That write keeps the invariant
(`Exchange.Consistent.setOrderAmount`), and it never adds a price key or a listed id
(`Exchange.Narrows`).  So every write of matching keeps both
(`keptByMatching_bookConsistent`, `keptByMatching_narrows`).
-/

namespace XdcSubnet.XDCx

open WriteBack Loop

namespace TradingStateDB

/-- The exchange the getters read at `orderBook`: the stored one, or the new one that
`GetOrNewStateExchangeObject` makes. -/
def exchangeAt (db : TradingStateDB) (orderBook : Hash) : Exchange :=
  (db.exchanges.get orderBook).getD .new

theorem getOrNewExchange_snd (db : TradingStateDB) (h : Hash) :
    (db.getOrNewExchange h).2 = db.exchangeAt h := by
  unfold getOrNewExchange exchangeAt
  split
  · next x hx => rw [hx, Option.getD_some]
  · next hx => rw [hx, Option.getD_none]

theorem exchangeAt_getOrNewExchange (db : TradingStateDB) (h : Hash) :
    (db.getOrNewExchange h).1.exchangeAt h = db.exchangeAt h := by
  unfold getOrNewExchange exchangeAt
  split
  · rfl
  · next hx => simp [hx, Store.get_create_self]

@[simp] theorem exchangeAt_putExchange_self (db : TradingStateDB) (h : Hash) (x : Exchange)
    (fired : Bool) : (db.putExchange h x fired).exchangeAt h = x := by
  simp [exchangeAt, get_putExchange_self]

@[simp] theorem exchangeAt_record (db : TradingStateDB) (e : JournalEntry) (h : Hash) :
    (db.record e).exchangeAt h = db.exchangeAt h := rfl

theorem exchangeAt_setExchangeField (entry : Hash → Exchange → JournalEntry)
    (set : Exchange → Exchange) (db : TradingStateDB) (h : Hash) :
    (setExchangeField entry set db h).exchangeAt h = set (db.exchangeAt h) := by
  rcases hg : db.getOrNewExchange h with ⟨db₁, x⟩
  have hx : x = db.exchangeAt h := by rw [← getOrNewExchange_snd, hg]
  simp only [setExchangeField, hg, exchangeAt_putExchange_self, hx]

theorem exchangeAt_setLastPrice (db : TradingStateDB) (h : Hash) (price : Option ℕ) :
    (db.setLastPrice h price).exchangeAt h = { db.exchangeAt h with lastPrice := price } :=
  exchangeAt_setExchangeField _ _ db h

theorem exchangeAt_setMediumPrice (db : TradingStateDB) (h : Hash) (price quantity : ℕ) :
    (db.setMediumPrice h price quantity).exchangeAt h =
      { db.exchangeAt h with mediumPrice := price, totalQuantity := quantity } :=
  exchangeAt_setExchangeField _ _ db h

end TradingStateDB

/-! ### Setting one order's amount -/

namespace OrderList

/-- The list with the order `orderId` set to `amount`, taken off at zero; the volume follows. -/
def setOrderAmount (l : OrderList) (orderId : Hash) (amount : ℕ) : OrderList :=
  ⟨l.volume - ((l.getOrderAmount orderId - amount : ℕ) : ℤ),
    if amount = 0 then l.amounts.erase orderId else l.amounts.insert orderId amount⟩

/-- What `CancelOrder` writes to the list is the list with the amount zero. -/
theorem setOrderAmount_zero (l : OrderList) (orderId : Hash) :
    l.setOrderAmount orderId 0 = (l.subVolume (l.getOrderAmount orderId)).removeOrderItem orderId :=
  rfl

/-- What `SubAmountOrderItem` writes to the list is the list with the amount left. -/
theorem setOrderAmount_sub {l : OrderList} {orderId : Hash} {amount : ℕ}
    (h : amount ≤ l.getOrderAmount orderId) :
    l.setOrderAmount orderId (l.getOrderAmount orderId - amount) =
      if l.getOrderAmount orderId - amount = 0 then (l.subVolume amount).removeOrderItem orderId
      else (l.subVolume amount).insertOrderItem orderId (l.getOrderAmount orderId - amount) := by
  have htaken : l.getOrderAmount orderId - (l.getOrderAmount orderId - amount) = amount := by
    omega
  unfold setOrderAmount
  rw [htaken]
  split_ifs <;> rfl

end OrderList

/-- The trie `lists` with its level at `price` replaced by `l`; the price leaves the trie at
once when `l` is empty. -/
def replaceLevel (lists : Store ℕ OrderList) (price : ℕ) (l : OrderList) : Store ℕ OrderList :=
  let lists := (lists.modify price l).1
  if l.empty then lists.delete price else lists

namespace Exchange

/-- The exchange after the order `orderId`, the item `item` listed on `l` at `price` of the
trie `lists` of `side`, is set to `amount`: what `CancelOrder` (amount zero) and
`SubAmountOrderItem` write. -/
def setOrderAmount (x : Exchange) (side : Side) (lists : Store ℕ OrderList) (price : ℕ)
    (l : OrderList) (orderId : Hash) (item : OrderItem) (amount : ℕ) : Exchange :=
  { x.setOrderLists side (replaceLevel lists price (l.setOrderAmount orderId amount)) with
    orders := (x.orders.modify orderId { item with quantity := amount }).1 }

end Exchange

namespace TradingStateDB

/-- **What `CancelOrder` does to the book**: nothing, with an error; or it finds the item under
the order's id, with its level, and sets the order's amount to zero. -/
theorem cancelOrder_cases (db : TradingStateDB) (orderBook : Hash) (order : OrderItem) :
    (db.cancelOrder orderBook order).1.exchangeAt orderBook = db.exchangeAt orderBook ∧
      (db.cancelOrder orderBook order).2 ≠ .ok () ∨
    ∃ item lists l, (db.exchangeAt orderBook).orders.get order.orderID = some item ∧
      (db.exchangeAt orderBook).orderLists item.side = some lists ∧
      lists.get item.price = some l ∧ (db.cancelOrder orderBook order).2 = .ok () ∧
      (db.cancelOrder orderBook order).1.exchangeAt orderBook =
        (db.exchangeAt orderBook).setOrderAmount item.side lists item.price l order.orderID item 0 := by
  have hx := getOrNewExchange_snd db orderBook
  have hx₁ := exchangeAt_getOrNewExchange db orderBook
  rcases hg : db.getOrNewExchange orderBook with ⟨db₁, x⟩
  rw [hg] at hx hx₁
  dsimp only at hx hx₁
  subst hx
  simp only [cancelOrder, hg]
  repeat' split
  all_goals first
    | (refine .inl ⟨?_, fun h => by cases h⟩; with_reducible exact hx₁)
    | refine .inr ⟨_, _, _, ‹_›, ‹_›, ‹_›, rfl, ?_⟩
  all_goals
    rename_i hempty
    simp only [exchangeAt_putExchange_self, Exchange.setOrderAmount, replaceLevel,
      OrderList.setOrderAmount_zero, hempty, ↓reduceIte]
  all_goals rfl

/-- **What `SubAmountOrderItem` does to the book**: nothing, with an error; or it finds the
level at `price` of `side` and the item under `orderId`, the level lists at least `amount` of
the order, and it sets the order's amount to what is left. -/
theorem subAmountOrderItem_cases (db : TradingStateDB) (orderBook orderId : Hash)
    (price amount : ℕ) (side : Side) :
    (db.subAmountOrderItem orderBook orderId price amount side).1.exchangeAt orderBook =
        db.exchangeAt orderBook ∧
      (db.subAmountOrderItem orderBook orderId price amount side).2 ≠ .ok () ∨
    ∃ lists l item, (db.exchangeAt orderBook).orderLists side = some lists ∧
      lists.get price = some l ∧ (db.exchangeAt orderBook).orders.get orderId = some item ∧
      amount ≤ l.getOrderAmount orderId ∧
      (db.subAmountOrderItem orderBook orderId price amount side).2 = .ok () ∧
      (db.subAmountOrderItem orderBook orderId price amount side).1.exchangeAt orderBook =
        (db.exchangeAt orderBook).setOrderAmount side lists price l orderId item
          (l.getOrderAmount orderId - amount) := by
  have hx := getOrNewExchange_snd db orderBook
  have hx₁ := exchangeAt_getOrNewExchange db orderBook
  rcases hg : db.getOrNewExchange orderBook with ⟨db₁, x⟩
  rw [hg] at hx hx₁
  dsimp only at hx hx₁
  subst hx
  simp only [subAmountOrderItem, hg]
  repeat' split
  all_goals first
    | (refine .inl ⟨?_, fun h => by cases h⟩; with_reducible exact hx₁)
    | refine .inr ⟨_, _, _, ‹_›, ‹_›, ‹_›, by omega, rfl, ?_⟩
  all_goals
    rename_i hzero hempty
    simp (disch := omega) only [Exchange.setOrderAmount, replaceLevel,
      OrderList.setOrderAmount_sub]
    simp only [exchangeAt_putExchange_self, hzero, hempty, ↓reduceIte]
  all_goals rfl

end TradingStateDB

/-! ### The invariant -/

/-- A level agrees with the order trie: its volume is the sum of its amounts, and every order it
lists has a positive amount and is the item stored under its id, on `side` and at `price`, with
that amount as its quantity. -/
structure LevelConsistent (orders : Store Hash OrderItem) (side : Side) (price : ℕ)
    (l : OrderList) : Prop where
  volume_eq : l.volume = (Tally.total l.amounts : ℤ)
  listed : ∀ orderId amount, l.amounts.lookup orderId = some amount → 0 < amount ∧
    ∃ item, orders.get orderId = some item ∧ item.quantity = amount ∧ item.side = side ∧
      item.price = price ∧ item.orderID = orderId

/-- A price trie agrees with the order trie: every level agrees, and every price key has a level
that lists some order. -/
structure SideConsistent (orders : Store Hash OrderItem) (side : Side)
    (lists : Store ℕ OrderList) : Prop where
  level : ∀ price l, lists.get price = some l → LevelConsistent orders side price l
  keyed : ∀ price ∈ lists.stored.keys, ∃ l, lists.get price = some l ∧ l.amounts.keys ≠ []

/-- The order-book invariant of an exchange: both price tries agree with its order trie. -/
def Exchange.Consistent (x : Exchange) : Prop :=
  ∀ side lists, x.orderLists side = some lists → SideConsistent x.orders side lists

/-- The order-book invariant at `orderBook`. -/
def TradingStateDB.BookConsistent (db : TradingStateDB) (orderBook : Hash) : Prop :=
  (db.exchangeAt orderBook).Consistent

theorem OrderList.lookup_of_getOrderAmount_pos {l : OrderList} {orderId : Hash}
    (h : 0 < l.getOrderAmount orderId) : l.amounts.lookup orderId = some (l.getOrderAmount orderId) := by
  unfold OrderList.getOrderAmount at *
  cases hl : l.amounts.lookup orderId with
  | none => rw [hl, Option.getD_none] at h; omega
  | some a => rfl

namespace LevelConsistent

variable {orders : Store Hash OrderItem} {side : Side} {price : ℕ} {l : OrderList}

/-- A level agrees with any order trie that keeps the items of the orders it lists. -/
theorem congr_orders (hc : LevelConsistent orders side price l) {orders' : Store Hash OrderItem}
    (h : ∀ orderId amount, l.amounts.lookup orderId = some amount →
      orders'.get orderId = orders.get orderId) :
    LevelConsistent orders' side price l where
  volume_eq := hc.volume_eq
  listed orderId amount hl := by
    rw [h orderId amount hl]
    exact hc.listed orderId amount hl

/-- Setting an order's amount on its level and on its item keeps the level in agreement. -/
theorem setOrderAmount (hc : LevelConsistent orders side price l) {orderId : Hash}
    {item : OrderItem} (hitem : orders.get orderId = some item) (hside : item.side = side)
    (hprice : item.price = price) {amount : ℕ} (hle : amount ≤ l.getOrderAmount orderId) :
    LevelConsistent (orders.modify orderId { item with quantity := amount }).1 side price
      (l.setOrderAmount orderId amount) where
  volume_eq := by
    have hget : l.getOrderAmount orderId = Tally.get l.amounts orderId := rfl
    unfold OrderList.setOrderAmount
    rw [hc.volume_eq]
    split_ifs with hzero
    · have h := Tally.total_erase l.amounts orderId
      dsimp only
      omega
    · have h := Tally.total_insert l.amounts orderId amount
      dsimp only
      omega
  listed j a hj := by
    by_cases hj' : j = orderId
    · subst hj'
      have hpos : amount ≠ 0 := by
        intro hzero
        simp [OrderList.setOrderAmount, hzero] at hj
      have ha : a = amount := by simpa [OrderList.setOrderAmount, hpos] using hj.symm
      -- the order was listed, so its item is the one stored under its id
      have hlisted := OrderList.lookup_of_getOrderAmount_pos (show 0 < l.getOrderAmount j by omega)
      obtain ⟨-, item', hitem', -, -, -, hid⟩ := hc.listed j _ hlisted
      rw [hitem] at hitem'
      cases hitem'
      exact ⟨by omega, _, Store.get_modify_self _ _ _, ha.symm, hside, hprice, hid⟩
    · have hold : l.amounts.lookup j = some a := by
        unfold OrderList.setOrderAmount at hj
        split_ifs at hj
        · simpa [AList.lookup_erase_ne hj'] using hj
        · simpa [AList.lookup_insert_ne hj'] using hj
      rw [Store.get_modify_ne _ _ hj']
      exact hc.listed j a hold

end LevelConsistent

section ReplaceLevel

variable (lists : Store ℕ OrderList) (price : ℕ) (l : OrderList)

theorem get_replaceLevel (p : ℕ) :
    (replaceLevel lists price l).get p = if p = price then some l else lists.get p := by
  unfold replaceLevel
  split_ifs with hempty hp hp
  · subst hp
    exact Store.get_delete_of_live (Store.live_lookup_modify_self _ _ _)
  · rw [Store.get_delete_ne _ hp, Store.get_modify_ne _ _ hp]
  · subst hp
    exact Store.get_modify_self _ _ _
  · exact Store.get_modify_ne _ _ hp

theorem stored_replaceLevel_subset :
    (replaceLevel lists price l).stored.keys ⊆ lists.stored.keys := by
  unfold replaceLevel
  split_ifs
  · simp only [Store.stored_delete, Store.stored_modify, AList.keys_erase]
    exact List.erase_subset
  · simp only [Store.stored_modify, List.Subset.refl]

/-- A price stays a key only when its new level is not empty. -/
theorem not_empty_of_mem_replaceLevel (h : price ∈ (replaceLevel lists price l).stored.keys) :
    l.empty = false := by
  unfold replaceLevel at h
  split_ifs at h with hempty
  · simp only [Store.stored_delete, Store.stored_modify, AList.keys_erase] at h
    exact absurd h (List.Nodup.not_mem_erase lists.stored.keys_nodup)
  · simpa using hempty

end ReplaceLevel

namespace Exchange

variable {x : Exchange} {side : Side} {lists : Store ℕ OrderList}

theorem orderLists_setOrderAmount (hlists : x.orderLists side = some lists) (price : ℕ)
    (l : OrderList) (orderId : Hash) (item : OrderItem) (amount : ℕ) (side' : Side) :
    (x.setOrderAmount side lists price l orderId item amount).orderLists side' =
      if side' = side then some (replaceLevel lists price (l.setOrderAmount orderId amount))
      else x.orderLists side' := by
  cases side <;> cases side' <;> simp_all [setOrderAmount, orderLists, setOrderLists]

/-- The invariant depends on the order trie and the two price tries only. -/
theorem Consistent.of_tries {x' : Exchange} (h : x.Consistent) (horders : x'.orders = x.orders)
    (hasks : x'.asks = x.asks) (hbids : x'.bids = x.bids) : x'.Consistent := by
  intro side lists hlists
  rw [horders]
  cases side with
  | ask => exact h .ask lists (show some x.asks = some lists by rw [← hasks]; exact hlists)
  | bid => exact h .bid lists (show some x.bids = some lists by rw [← hbids]; exact hlists)
  | unknown => cases hlists

/-- **Setting an order's amount keeps the invariant.** -/
theorem Consistent.setOrderAmount (hc : x.Consistent) {l : OrderList} {orderId : Hash}
    {item : OrderItem} {amount : ℕ} (hlists : x.orderLists item.side = some lists)
    (hl : lists.get item.price = some l) (hitem : x.orders.get orderId = some item)
    (hle : amount ≤ l.getOrderAmount orderId) :
    (x.setOrderAmount item.side lists item.price l orderId item amount).Consistent := by
  -- an order is listed on the level of its item's side and price only
  have hother : ∀ side' lists' p l' j a, x.orderLists side' = some lists' →
      lists'.get p = some l' → l'.amounts.lookup j = some a →
      (side' ≠ item.side ∨ p ≠ item.price) → j ≠ orderId := by
    intro side' lists' p l' j a hlists' hl' hj hne hjid
    subst hjid
    obtain ⟨-, item', hitem', -, hside', hprice', -⟩ :=
      ((hc side' lists' hlists').level p l' hl').listed j a hj
    rw [hitem] at hitem'
    cases hitem'
    rcases hne with hne | hne
    · exact hne hside'.symm
    · exact hne hprice'.symm
  have hs := hc item.side lists hlists
  have hlevel := (hs.level _ l hl).setOrderAmount hitem rfl rfl hle
  intro side' lists' hlists'
  rw [orderLists_setOrderAmount hlists] at hlists'
  by_cases hside : side' = item.side
  · subst hside
    rw [if_pos rfl] at hlists'
    cases hlists'
    refine ⟨fun p l' hp => ?_, fun p hp => ?_⟩
    · rw [get_replaceLevel] at hp
      split_ifs at hp with hpp
      · cases hp
        subst hpp
        exact hlevel
      · exact (hs.level p l' hp).congr_orders fun j a hj =>
          Store.get_modify_ne _ _ (hother _ _ p l' j a hlists hp hj (.inr hpp))
    · by_cases hpp : p = item.price
      · subst hpp
        have hne := not_empty_of_mem_replaceLevel _ _ _ hp
        refine ⟨_, by rw [get_replaceLevel, if_pos rfl], fun hkeys => ?_⟩
        -- a level that lists nothing has volume zero
        have htotal := Tally.total_eq_zero_of_keys _ hkeys
        have hv := hlevel.volume_eq
        simp [OrderList.empty, hv, htotal] at hne
      · obtain ⟨l', hl', hkeys⟩ := hs.keyed p (stored_replaceLevel_subset _ _ _ hp)
        exact ⟨l', by rw [get_replaceLevel, if_neg hpp]; exact hl', hkeys⟩
  · rw [if_neg hside] at hlists'
    have hs' := hc side' lists' hlists'
    exact ⟨fun p l' hp => (hs'.level p l' hp).congr_orders fun j a hj =>
      Store.get_modify_ne _ _ (hother side' lists' p l' j a hlists' hp hj (.inl hside)), hs'.keyed⟩

end Exchange

namespace TradingStateDB

variable {db : TradingStateDB} {orderBook : Hash}

theorem BookConsistent.cancelOrder (h : db.BookConsistent orderBook) (order : OrderItem) :
    (db.cancelOrder orderBook order).1.BookConsistent orderBook := by
  unfold BookConsistent
  rcases cancelOrder_cases db orderBook order with ⟨heq, -⟩ | ⟨item, lists, l, hitem, hlists, hl, -, heq⟩
  · rw [heq]
    exact h
  · rw [heq]
    exact h.setOrderAmount hlists hl hitem (Nat.zero_le _)

/-- An order a level lists is stored on the level's side and at its price. -/
theorem BookConsistent.item_of_listed (h : db.BookConsistent orderBook) {side : Side}
    {lists : Store ℕ OrderList} {price : ℕ} {l : OrderList} {orderId : Hash}
    (hlists : (db.exchangeAt orderBook).orderLists side = some lists)
    (hl : lists.get price = some l) (hpos : 0 < l.getOrderAmount orderId) :
    ∃ item, (db.exchangeAt orderBook).orders.get orderId = some item ∧
      item.quantity = l.getOrderAmount orderId ∧ item.side = side ∧ item.price = price ∧
      item.orderID = orderId :=
  (((h side lists hlists).level price l hl).listed orderId _
    (OrderList.lookup_of_getOrderAmount_pos hpos)).2

theorem BookConsistent.subAmountOrderItem (h : db.BookConsistent orderBook) (orderId : Hash)
    (price : ℕ) {amount : ℕ} (hpos : 0 < amount) (side : Side) :
    (db.subAmountOrderItem orderBook orderId price amount side).1.BookConsistent orderBook := by
  unfold BookConsistent
  rcases subAmountOrderItem_cases db orderBook orderId price amount side with
    ⟨heq, -⟩ | ⟨lists, l, item, hlists, hl, hitem, hle, -, heq⟩
  · rw [heq]
    exact h
  · rw [heq]
    -- the amount is positive, so the order is listed and its item is on this side and price
    obtain ⟨item', hitem', -, hside, hprice, -⟩ :=
      h.item_of_listed hlists hl (show 0 < l.getOrderAmount orderId by omega)
    rw [hitem] at hitem'
    cases hitem'
    subst hside hprice
    exact Exchange.Consistent.setOrderAmount h hlists hl hitem (Nat.sub_le _ _)

end TradingStateDB

/-- **Matching keeps the order-book invariant.** -/
theorem keptByMatching_bookConsistent (orderBook : Hash) :
    KeptByMatching orderBook (·.BookConsistent orderBook) where
  cancelOrder _ order h := h.cancelOrder order
  subAmountOrderItem _ orderId price _ side hpos h := h.subAmountOrderItem orderId price hpos side
  setLastPrice db price h := by
    unfold TradingStateDB.BookConsistent
    rw [db.exchangeAt_setLastPrice orderBook price]
    exact h.of_tries rfl rfl rfl
  setMediumPrice db price quantity h := by
    unfold TradingStateDB.BookConsistent
    rw [db.exchangeAt_setMediumPrice orderBook price quantity]
    exact h.of_tries rfl rfl rfl

/-! ### Matching only narrows the book -/

namespace Exchange

/-- The order ids listed at `price` on `side`. -/
def levelIds (x : Exchange) (side : Side) (price : ℕ) : List Hash :=
  (((x.orderLists side).bind fun lists => lists.get price).map fun l => l.amounts.keys).getD []

/-- The price keys of the trie of `side`. -/
def prices (x : Exchange) (side : Side) : List ℕ :=
  ((x.orderLists side).map fun lists => lists.stored.keys).getD []

/-- `x'` has no price key and no listed order that `x` lacks. -/
structure Narrows (x x' : Exchange) : Prop where
  prices : ∀ side, x'.prices side ⊆ x.prices side
  levelIds : ∀ side price, x'.levelIds side price ⊆ x.levelIds side price

theorem Narrows.refl (x : Exchange) : x.Narrows x :=
  ⟨fun _ => List.Subset.refl _, fun _ _ => List.Subset.refl _⟩

theorem Narrows.trans {x₁ x₂ x₃ : Exchange} (h₁ : x₁.Narrows x₂) (h₂ : x₂.Narrows x₃) :
    x₁.Narrows x₃ :=
  ⟨fun side => List.Subset.trans (h₂.prices side) (h₁.prices side),
    fun side price => List.Subset.trans (h₂.levelIds side price) (h₁.levelIds side price)⟩

theorem Narrows.of_tries {x x' : Exchange} (hasks : x'.asks = x.asks) (hbids : x'.bids = x.bids) :
    x.Narrows x' := by
  have h : ∀ side, x'.orderLists side = x.orderLists side := by
    intro side
    cases side <;> simp [orderLists, hasks, hbids]
  refine ⟨fun side => ?_, fun side price => ?_⟩
  · unfold Exchange.prices
    rw [h]
    exact List.Subset.refl _
  · unfold Exchange.levelIds
    rw [h]
    exact List.Subset.refl _

theorem card_toFinset_le {α : Type} [DecidableEq α] {l l' : List α} (h : l' ⊆ l) :
    l'.toFinset.card ≤ l.toFinset.card :=
  Finset.card_le_card fun _ ha => List.mem_toFinset.2 (h (List.mem_toFinset.1 ha))

theorem card_toFinset_lt {α : Type} [DecidableEq α] {l l' : List α} {a : α} (h : l' ⊆ l)
    (hmem : a ∈ l) (hgone : a ∉ l') : l'.toFinset.card < l.toFinset.card := by
  apply Finset.card_lt_card
  rw [Finset.ssubset_iff_of_subset fun _ ha => List.mem_toFinset.2 (h (List.mem_toFinset.1 ha))]
  exact ⟨a, List.mem_toFinset.2 hmem, fun h' => hgone (List.mem_toFinset.1 h')⟩

theorem keys_setOrderAmount_subset {l : OrderList} {orderId : Hash} {amount : ℕ}
    (hle : amount ≤ l.getOrderAmount orderId) :
    (l.setOrderAmount orderId amount).amounts.keys ⊆ l.amounts.keys := by
  unfold OrderList.setOrderAmount
  split_ifs with hzero
  · simp only [AList.keys_erase]
    exact List.erase_subset
  · -- a positive amount is set on an order the list holds
    have hlookup := OrderList.lookup_of_getOrderAmount_pos (show 0 < l.getOrderAmount orderId by omega)
    have hmem : orderId ∈ l.amounts.keys :=
      AList.mem_keys.2 (AList.lookup_isSome.1 (by rw [hlookup]; rfl))
    simp only [AList.keys_insert]
    exact List.cons_subset.2 ⟨hmem, List.erase_subset⟩

variable {x : Exchange} {side : Side} {lists : Store ℕ OrderList}

theorem narrows_setOrderAmount (hlists : x.orderLists side = some lists) {price : ℕ}
    {l : OrderList} (hl : lists.get price = some l) {orderId : Hash} (item : OrderItem)
    {amount : ℕ} (hle : amount ≤ l.getOrderAmount orderId) :
    x.Narrows (x.setOrderAmount side lists price l orderId item amount) where
  prices side' := by
    simp only [prices, orderLists_setOrderAmount hlists]
    split_ifs with h
    · subst h
      simp only [hlists, Option.map_some, Option.getD_some]
      exact stored_replaceLevel_subset _ _ _
    · exact List.Subset.refl _
  levelIds side' p := by
    simp only [levelIds, orderLists_setOrderAmount hlists]
    split_ifs with h
    · subst h
      simp only [hlists, Option.bind_some, get_replaceLevel]
      split_ifs with hp
      · subst hp
        simp only [hl, Option.map_some, Option.getD_some]
        exact keys_setOrderAmount_subset hle
      · exact List.Subset.refl _
    · exact List.Subset.refl _

/-- Setting an order's amount to zero takes it off its level. -/
theorem not_mem_levelIds_setOrderAmount_zero (hlists : x.orderLists side = some lists)
    (price : ℕ) (l : OrderList) (orderId : Hash) (item : OrderItem) :
    orderId ∉ (x.setOrderAmount side lists price l orderId item 0).levelIds side price := by
  simp only [levelIds, orderLists_setOrderAmount hlists, if_pos, Option.bind_some,
    get_replaceLevel, Option.map_some, Option.getD_some, OrderList.setOrderAmount, AList.keys_erase]
  exact List.Nodup.not_mem_erase l.amounts.keys_nodup

end Exchange

namespace TradingStateDB

variable {db : TradingStateDB} {orderBook : Hash}

theorem narrows_cancelOrder (db : TradingStateDB) (orderBook : Hash) (order : OrderItem) :
    (db.exchangeAt orderBook).Narrows ((db.cancelOrder orderBook order).1.exchangeAt orderBook) := by
  rcases cancelOrder_cases db orderBook order with ⟨heq, -⟩ | ⟨item, lists, l, -, hlists, hl, -, heq⟩
  · rw [heq]
    exact .refl _
  · rw [heq]
    exact Exchange.narrows_setOrderAmount hlists hl item (Nat.zero_le _)

/-- A cancel that succeeds takes the order off the level its item names. -/
theorem cancelOrder_not_mem_levelIds {order : OrderItem}
    (h : (db.cancelOrder orderBook order).2 = .ok ()) :
    ∃ item, (db.exchangeAt orderBook).orders.get order.orderID = some item ∧
      order.orderID ∉ ((db.cancelOrder orderBook order).1.exchangeAt orderBook).levelIds item.side
        item.price := by
  rcases cancelOrder_cases db orderBook order with ⟨-, hne⟩ | ⟨item, lists, l, hitem, hlists, -, -, heq⟩
  · exact absurd h hne
  · rw [heq]
    exact ⟨item, hitem, Exchange.not_mem_levelIds_setOrderAmount_zero hlists _ _ _ _⟩

theorem narrows_subAmountOrderItem (db : TradingStateDB) (orderBook orderId : Hash)
    (price amount : ℕ) (side : Side) :
    (db.exchangeAt orderBook).Narrows
      ((db.subAmountOrderItem orderBook orderId price amount side).1.exchangeAt orderBook) := by
  rcases subAmountOrderItem_cases db orderBook orderId price amount side with
    ⟨heq, -⟩ | ⟨lists, l, item, hlists, hl, -, -, -, heq⟩
  · rw [heq]
    exact .refl _
  · rw [heq]
    exact Exchange.narrows_setOrderAmount hlists hl item (Nat.sub_le _ _)

end TradingStateDB

/-- **Matching only narrows the book**: from any state on, the price keys and the listed ids
at `orderBook` only lose members. -/
theorem keptByMatching_narrows (orderBook : Hash) (db₀ : TradingStateDB) :
    KeptByMatching orderBook fun db => (db₀.exchangeAt orderBook).Narrows (db.exchangeAt orderBook) where
  cancelOrder db order h := Exchange.Narrows.trans h (db.narrows_cancelOrder orderBook order)
  subAmountOrderItem db orderId price amount side _ h :=
    Exchange.Narrows.trans h (db.narrows_subAmountOrderItem orderBook orderId price amount side)
  setLastPrice db price h := by
    rw [db.exchangeAt_setLastPrice orderBook price]
    exact Exchange.Narrows.trans h (.of_tries rfl rfl)
  setMediumPrice db price quantity h := by
    rw [db.exchangeAt_setMediumPrice orderBook price quantity]
    exact Exchange.Narrows.trans h (.of_tries rfl rfl)

end XdcSubnet.XDCx
