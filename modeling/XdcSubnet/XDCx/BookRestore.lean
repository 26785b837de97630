import XdcSubnet.XDCx.MatchingTermination

/-!
# The book up to what a revert loses

`RevertToSnapshot` does not give back the exchange it started from
(`revertToSnapshot_misses_restored_ask`): the entries of an order list come back in another
order, and the key of a list that became empty stays out of its price trie.  What comes back is
the book up to these two differences (`Exchange.Restores`): the same nonce and order items, the
same order lists up to the order of their entries (`OrderList.Equiv`), and no price key the
exchange lacked.

The book invariant `Exchange.Invariant` adds two facts to the order-book invariant
`Exchange.Consistent`: every order with a quantity is listed (`Exchange.Listed`), and no listed
id is above the nonce, from which the next order id is drawn (`Exchange.BelowNonce`).  It
depends on nothing that `Restores` changes (`Exchange.Invariant.restores`), and setting an
order's amount, the one write of matching to the tries, keeps it
(`Exchange.Invariant.setOrderAmount`).  So matching keeps it (`keptByMatching_invariant`).
-/

namespace XdcSubnet.XDCx

open WriteBack

/-! ### Order lists up to the order of their entries -/

namespace OrderList

/-- `l'` is `l` up to the order of its entries. -/
structure Equiv (l l' : OrderList) : Prop where
  volume : l'.volume = l.volume
  lookup : ∀ orderId, l'.amounts.lookup orderId = l.amounts.lookup orderId

namespace Equiv

variable {l l' l'' : OrderList}

theorem refl (l : OrderList) : l.Equiv l := ⟨rfl, fun _ => rfl⟩

theorem trans (h : l.Equiv l') (h' : l'.Equiv l'') : l.Equiv l'' :=
  ⟨h'.volume.trans h.volume, fun j => (h'.lookup j).trans (h.lookup j)⟩

theorem perm (h : l.Equiv l') : l.amounts.entries.Perm l'.amounts.entries :=
  List.lookup_ext l.amounts.nodupKeys l'.amounts.nodupKeys fun j a => by
    show a ∈ l.amounts.lookup j ↔ a ∈ l'.amounts.lookup j
    rw [h.lookup j]

theorem total_eq (h : l.Equiv l') : Tally.total l'.amounts = Tally.total l.amounts := by
  unfold Tally.total
  exact ((h.perm.map Sigma.snd).sum_eq).symm

theorem mem_keys (h : l.Equiv l') {orderId : Hash} :
    orderId ∈ l'.amounts.keys ↔ orderId ∈ l.amounts.keys := by
  rw [← AList.mem_keys, ← AList.mem_keys, ← AList.lookup_isSome, ← AList.lookup_isSome, h.lookup]

theorem keys_ne_nil (h : l.Equiv l') (hne : l.amounts.keys ≠ []) : l'.amounts.keys ≠ [] := by
  obtain ⟨j, hj⟩ := List.exists_mem_of_ne_nil _ hne
  exact List.ne_nil_of_mem (h.mem_keys.2 hj)

theorem insertOrderItem (h : l.Equiv l') (orderId : Hash) (amount : ℕ) :
    (l.insertOrderItem orderId amount).Equiv (l'.insertOrderItem orderId amount) where
  volume := h.volume
  lookup j := by
    by_cases hj : j = orderId
    · subst hj
      simp [OrderList.insertOrderItem]
    · simp [OrderList.insertOrderItem, AList.lookup_insert_ne hj, h.lookup j]

theorem addVolume (h : l.Equiv l') (amount : ℕ) :
    (l.addVolume amount).Equiv (l'.addVolume amount) :=
  ⟨by simp [OrderList.addVolume, h.volume], h.lookup⟩

end Equiv

/-- Setting an order's amount down from `a` and listing it again with `a` gives the list back. -/
theorem equiv_setOrderAmount_insert {l : OrderList} {orderId : Hash} {a amount : ℕ}
    (hlookup : l.amounts.lookup orderId = some a) :
    l.Equiv (((l.setOrderAmount orderId amount).insertOrderItem orderId a).addVolume
      (a - amount)) where
  volume := by
    have hget : l.getOrderAmount orderId = a := by simp [getOrderAmount, hlookup]
    simp only [setOrderAmount, insertOrderItem, addVolume, hget]
    omega
  lookup j := by
    by_cases hj : j = orderId
    · subst hj
      simp [insertOrderItem, addVolume, hlookup]
    · simp only [addVolume, insertOrderItem, AList.lookup_insert_ne hj, setOrderAmount]
      split_ifs
      · exact AList.lookup_erase_ne hj
      · exact AList.lookup_insert_ne hj

theorem rel_equiv_refl (o : Option OrderList) : Option.Rel Equiv o o := by
  cases o with
  | none => exact .none
  | some l => exact .some (.refl l)

theorem rel_equiv_trans {o₁ o₂ o₃ : Option OrderList} (h₁ : Option.Rel Equiv o₁ o₂)
    (h₂ : Option.Rel Equiv o₂ o₃) : Option.Rel Equiv o₁ o₃ := by
  cases h₁ with
  | none => exact h₂
  | some h =>
    cases h₂ with
    | some h' => exact .some (h.trans h')

theorem rel_equiv_some_left {o : Option OrderList} {l : OrderList}
    (h : Option.Rel Equiv (some l) o) : ∃ l', o = some l' ∧ l.Equiv l' := by
  cases h with
  | some h => exact ⟨_, rfl, h⟩

theorem rel_equiv_some_right {o : Option OrderList} {l' : OrderList}
    (h : Option.Rel Equiv o (some l')) : ∃ l, o = some l ∧ l.Equiv l' := by
  cases h with
  | some h => exact ⟨_, rfl, h⟩

theorem rel_equiv_none_left {o : Option OrderList} (h : Option.Rel Equiv none o) : o = none := by
  cases h
  rfl

theorem rel_equiv_none_right {o : Option OrderList} (h : Option.Rel Equiv o none) : o = none := by
  cases h
  rfl

theorem equiv_getD {o o' : Option OrderList} (h : Option.Rel Equiv o o') :
    (o.getD new).Equiv (o'.getD new) := by
  cases h with
  | none => exact .refl _
  | some h => exact h

end OrderList

theorem LevelConsistent.equiv {orders : Store Hash OrderItem} {side : Side} {price : ℕ}
    {l l' : OrderList} (hc : LevelConsistent orders side price l) (h : l.Equiv l') :
    LevelConsistent orders side price l' where
  volume_eq := by rw [h.volume, hc.volume_eq, h.total_eq]
  listed j a hj := hc.listed j a (by rw [← h.lookup j]; exact hj)

/-! ### Levels and price keys -/

namespace Exchange

variable {x y z : Exchange}

theorem mem_levelIds {side : Side} {price : ℕ} {orderId : Hash} :
    orderId ∈ x.levelIds side price ↔
      ∃ l, x.level side price = some l ∧ orderId ∈ l.amounts.keys := by
  rw [levelIds_eq]
  cases x.level side price <;> simp

theorem orderLists_eq_none {side : Side} : x.orderLists side = none ↔ side = .unknown := by
  cases side <;> simp [orderLists]

theorem exists_orderLists {side : Side} (h : side ≠ .unknown) :
    ∃ lists, x.orderLists side = some lists :=
  Option.ne_none_iff_exists'.1 fun hnone => h (orderLists_eq_none.1 hnone)

theorem level_of_orderLists {side : Side} {lists : Store ℕ OrderList}
    (hlists : x.orderLists side = some lists) (price : ℕ) : x.level side price = lists.get price := by
  simp [level, hlists]

theorem prices_of_orderLists {side : Side} {lists : Store ℕ OrderList}
    (hlists : x.orderLists side = some lists) : x.prices side = lists.stored.keys := by
  simp [prices, hlists]

/-- The order-book invariant read through the levels and the price keys. -/
theorem consistent_iff (x : Exchange) : x.Consistent ↔
    (∀ side price l, x.level side price = some l → LevelConsistent x.orders side price l) ∧
      ∀ side, ∀ price ∈ x.prices side, ∃ l, x.level side price = some l ∧ l.amounts.keys ≠ [] := by
  constructor
  · intro h
    refine ⟨fun side price l hl => ?_, fun side price hp => ?_⟩
    · obtain ⟨lists, hlists, hget⟩ := level_eq_some hl
      exact (h side lists hlists).level price l hget
    · cases hlists : x.orderLists side with
      | none => simp [prices, hlists] at hp
      | some lists =>
        rw [prices_of_orderLists hlists] at hp
        obtain ⟨l, hl, hkeys⟩ := (h side lists hlists).keyed price hp
        exact ⟨l, by rw [level_of_orderLists hlists, hl], hkeys⟩
  · rintro ⟨hlevel, hkeyed⟩ side lists hlists
    refine ⟨fun price l hl => hlevel side price l (by rw [level_of_orderLists hlists, hl]),
      fun price hp => ?_⟩
    obtain ⟨l, hl, hkeys⟩ := hkeyed side price (by rw [prices_of_orderLists hlists]; exact hp)
    exact ⟨l, by rw [← level_of_orderLists hlists]; exact hl, hkeys⟩

section Replace

variable {side : Side} {lists : Store ℕ OrderList} (hlists : x.orderLists side = some lists)
  (lists' : Store ℕ OrderList) (orders : Store Hash OrderItem)
include hlists

/-- The levels of an exchange whose price trie of one side is replaced. -/
theorem level_replace (side' : Side) (price : ℕ) :
    ({ x.setOrderLists side lists' with orders } : Exchange).level side' price =
      if side' = side then lists'.get price else x.level side' price := by
  cases side <;> cases side' <;> simp_all [level, orderLists, setOrderLists]

theorem prices_replace (side' : Side) :
    ({ x.setOrderLists side lists' with orders } : Exchange).prices side' =
      if side' = side then lists'.stored.keys else x.prices side' := by
  cases side <;> cases side' <;> simp_all [prices, orderLists, setOrderLists]

end Replace

theorem nonce_setOrderLists (x : Exchange) (side : Side) (lists : Store ℕ OrderList) :
    (x.setOrderLists side lists).nonce = x.nonce := by
  cases side <;> rfl

section SetOrderAmount

variable {side : Side} {lists : Store ℕ OrderList} (hlists : x.orderLists side = some lists)
  (price : ℕ) (l : OrderList) (orderId : Hash) (item : OrderItem) (amount : ℕ)

@[simp] theorem nonce_setOrderAmount :
    (x.setOrderAmount side lists price l orderId item amount).nonce = x.nonce :=
  nonce_setOrderLists x side _

@[simp] theorem orders_setOrderAmount :
    (x.setOrderAmount side lists price l orderId item amount).orders =
      (x.orders.modify orderId { item with quantity := amount }).1 := rfl

include hlists

theorem level_setOrderAmount (side' : Side) (p : ℕ) :
    (x.setOrderAmount side lists price l orderId item amount).level side' p =
      if side' = side ∧ p = price then some (l.setOrderAmount orderId amount)
      else x.level side' p := by
  rw [setOrderAmount, level_replace hlists, get_replaceLevel]
  by_cases hside : side' = side
  · subst hside
    by_cases hp : p = price
    · simp [hp]
    · simp [hp, level_of_orderLists hlists]
  · simp [hside]

theorem prices_setOrderAmount_subset (side' : Side) :
    (x.setOrderAmount side lists price l orderId item amount).prices side' ⊆ x.prices side' := by
  rw [setOrderAmount, prices_replace hlists]
  split_ifs with hside
  · subst hside
    rw [prices_of_orderLists hlists]
    exact stored_replaceLevel_subset _ _ _
  · exact List.Subset.refl _

end SetOrderAmount

/-! ### Giving the book back -/

/-- `y` gives back the book of `x`: the same nonce and order items, the same order lists up to
the order of their entries, and no price key that `x` lacks. -/
structure Restores (x y : Exchange) : Prop where
  nonce : y.nonce = x.nonce
  orders : ∀ orderId, y.orders.get orderId = x.orders.get orderId
  levels : ∀ side price, Option.Rel OrderList.Equiv (x.level side price) (y.level side price)
  prices : ∀ side, y.prices side ⊆ x.prices side

namespace Restores

theorem refl (x : Exchange) : x.Restores x :=
  ⟨rfl, fun _ => rfl, fun _ _ => OrderList.rel_equiv_refl _, fun _ => List.Subset.refl _⟩

theorem trans (h : x.Restores y) (h' : y.Restores z) : x.Restores z :=
  ⟨h'.nonce.trans h.nonce, fun j => (h'.orders j).trans (h.orders j),
    fun side price => OrderList.rel_equiv_trans (h.levels side price) (h'.levels side price),
    fun side => List.Subset.trans (h'.prices side) (h.prices side)⟩

/-- A write to the exchange's data alone gives the book back. -/
theorem of_tries (hnonce : y.nonce = x.nonce) (horders : y.orders = x.orders)
    (hasks : y.asks = x.asks) (hbids : y.bids = x.bids) : x.Restores y := by
  have h : ∀ side, y.orderLists side = x.orderLists side := by
    intro side
    cases side <;> simp [orderLists, hasks, hbids]
  refine ⟨hnonce, fun j => by rw [horders], fun side price => ?_, fun side => ?_⟩
  · rw [level, level, h]
    exact OrderList.rel_equiv_refl _
  · rw [Exchange.prices, Exchange.prices, h]
    exact List.Subset.refl _

theorem level_some (h : x.Restores y) {side : Side} {price : ℕ} {l' : OrderList}
    (hl : y.level side price = some l') : ∃ l, x.level side price = some l ∧ l.Equiv l' :=
  OrderList.rel_equiv_some_right (hl ▸ h.levels side price)

theorem level_some_left (h : x.Restores y) {side : Side} {price : ℕ} {l : OrderList}
    (hl : x.level side price = some l) : ∃ l', y.level side price = some l' ∧ l.Equiv l' :=
  OrderList.rel_equiv_some_left (hl ▸ h.levels side price)

end Restores

/-! ### The book invariant -/

/-- Every order with a quantity is listed under its id, at its side and price, with its
quantity. -/
def Listed (x : Exchange) : Prop :=
  ∀ orderId item, x.orders.get orderId = some item → 0 < item.quantity →
    ∃ l, x.level item.side item.price = some l ∧ l.amounts.lookup orderId = some item.quantity

/-- No listed order id is above the nonce. -/
def BelowNonce (x : Exchange) : Prop :=
  ∀ side price, ∀ orderId ∈ x.levelIds side price, orderId ≤ x.nonce

/-- The book invariant: the levels agree with the order items, every order with a quantity is
listed, and every listed id is at most the nonce. -/
structure Invariant (x : Exchange) : Prop where
  consistent : x.Consistent
  listed : x.Listed
  belowNonce : x.BelowNonce

theorem Consistent.restores (hc : x.Consistent) (h : x.Restores y) : y.Consistent := by
  obtain ⟨hlevel, hkeyed⟩ := (consistent_iff x).1 hc
  refine (consistent_iff y).2 ⟨fun side price l' hl' => ?_, fun side price hp => ?_⟩
  · obtain ⟨l, hl, hequiv⟩ := h.level_some hl'
    exact ((hlevel side price l hl).equiv hequiv).congr_orders fun j _ _ => h.orders j
  · obtain ⟨l, hl, hkeys⟩ := hkeyed side price (h.prices side hp)
    obtain ⟨l', hl', hequiv⟩ := h.level_some_left hl
    exact ⟨l', hl', hequiv.keys_ne_nil hkeys⟩

theorem Listed.restores (hl : x.Listed) (h : x.Restores y) : y.Listed := by
  intro j item hitem hpos
  obtain ⟨l, hlevel, hlookup⟩ := hl j item (by rw [← h.orders j]; exact hitem) hpos
  obtain ⟨l', hl', hequiv⟩ := h.level_some_left hlevel
  exact ⟨l', hl', by rw [hequiv.lookup]; exact hlookup⟩

theorem BelowNonce.restores (hb : x.BelowNonce) (h : x.Restores y) : y.BelowNonce := by
  intro side price j hj
  obtain ⟨l', hl', hj'⟩ := mem_levelIds.1 hj
  obtain ⟨l, hl, hequiv⟩ := h.level_some hl'
  rw [h.nonce]
  exact hb side price j (mem_levelIds.2 ⟨l, hl, hequiv.mem_keys.1 hj'⟩)

/-- **A book given back keeps the invariant.** -/
theorem Invariant.restores (hi : x.Invariant) (h : x.Restores y) : y.Invariant :=
  ⟨hi.consistent.restores h, hi.listed.restores h, hi.belowNonce.restores h⟩

section SetOrderAmount

variable {lists : Store ℕ OrderList} {l : OrderList} {orderId : Hash} {item : OrderItem}
  {amount : ℕ}

theorem Listed.setOrderAmount (hlisted : x.Listed) (hlists : x.orderLists item.side = some lists)
    (hl : lists.get item.price = some l) :
    (x.setOrderAmount item.side lists item.price l orderId item amount).Listed := by
  intro j item' hitem' hpos
  rw [orders_setOrderAmount, Store.get_modify] at hitem'
  rw [level_setOrderAmount hlists]
  split_ifs at hitem' with hj
  · -- the order whose amount is set is listed with that amount
    cases hitem'
    subst hj
    have hne : amount ≠ 0 := Nat.pos_iff_ne_zero.1 hpos
    refine ⟨_, if_pos ⟨rfl, rfl⟩, ?_⟩
    simp [OrderList.setOrderAmount, hne]
  · obtain ⟨l', hl', hlookup⟩ := hlisted j item' hitem' hpos
    split_ifs with hsame
    · -- another order of the same level keeps its amount
      obtain ⟨hside, hprice⟩ := hsame
      rw [hside, hprice, level_of_orderLists hlists, hl] at hl'
      cases hl'
      refine ⟨_, rfl, ?_⟩
      unfold OrderList.setOrderAmount
      split_ifs
      · rw [AList.lookup_erase_ne hj, hlookup]
      · rw [AList.lookup_insert_ne hj, hlookup]
    · exact ⟨l', hl', hlookup⟩

/-- **Setting an order's amount keeps the book invariant.** -/
theorem Invariant.setOrderAmount (hi : x.Invariant) (hlists : x.orderLists item.side = some lists)
    (hl : lists.get item.price = some l) (hitem : x.orders.get orderId = some item)
    (hle : amount ≤ l.getOrderAmount orderId) :
    (x.setOrderAmount item.side lists item.price l orderId item amount).Invariant where
  consistent := hi.consistent.setOrderAmount hlists hl hitem hle
  listed := hi.listed.setOrderAmount hlists hl
  belowNonce side price j hj := by
    rw [nonce_setOrderAmount]
    exact hi.belowNonce side price j ((narrows_setOrderAmount hlists hl item hle).levelIds side price hj)

end SetOrderAmount

end Exchange

/-- **Matching keeps the book invariant.** -/
theorem keptByMatching_invariant (orderBook : Hash) :
    KeptByMatching orderBook fun db => (db.exchangeAt orderBook).Invariant where
  cancelOrder db order h := by
    rcases TradingStateDB.cancelOrder_cases db orderBook order with
      ⟨heq, -⟩ | ⟨item, lists, l, hitem, hlists, hl, -, heq⟩
    · rw [heq]
      exact h
    · rw [heq]
      exact h.setOrderAmount hlists hl hitem (Nat.zero_le _)
  subAmountOrderItem db orderId price amount side hpos h := by
    rcases TradingStateDB.subAmountOrderItem_cases db orderBook orderId price amount side with
      ⟨heq, -⟩ | ⟨lists, l, item, hlists, hl, hitem, hle, -, heq⟩
    · rw [heq]
      exact h
    · rw [heq]
      -- the amount is positive, so the order is listed on this side and at this price
      obtain ⟨item', hitem', -, hside, hprice, -⟩ :=
        TradingStateDB.BookConsistent.item_of_listed (show db.BookConsistent orderBook from h.consistent)
          hlists hl
          (show 0 < l.getOrderAmount orderId by omega)
      rw [hitem] at hitem'
      cases hitem'
      subst hside hprice
      exact h.setOrderAmount hlists hl hitem (Nat.sub_le _ _)
  setLastPrice db price h := by
    rw [db.exchangeAt_setLastPrice orderBook price]
    exact h.restores (.of_tries rfl rfl rfl rfl)
  setMediumPrice db price quantity h := by
    rw [db.exchangeAt_setMediumPrice orderBook price quantity]
    exact h.restores (.of_tries rfl rfl rfl rfl)

end XdcSubnet.XDCx
