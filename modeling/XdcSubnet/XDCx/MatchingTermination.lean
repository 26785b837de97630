import XdcSubnet.XDCx.OrderListPass

/-!
# Matching terminates

Under the order-book invariant both loops of matching finish.

* A pass over one price that goes round again traded a positive quantity or took the level's
  first order off it (`processOrderListStep_next_cases`), so fuel above the quantity plus the
  ids at the level finishes `processOrderList` (`processOrderList_isSome`).  A pass that leaves
  leaves no quantity or an empty level (`processOrderListStep_exit`).
* So a finished `processOrderList` at the positive best price leaves no quantity or takes that
  price off the makers' side (`processOrderList_best`), the book only narrowing.  The loop over
  prices lowers the price keys plus one while quantity is left, and its inner runs all fit a
  fuel above the quantity plus the orders listed on the makers' side (`matchBestPrices_isSome`).

`matching_terminates` (in `CommitFuel`) puts these together for the three loops of matching.
-/

namespace XdcSubnet.XDCx

open Loop

/-! ### The best price and the size of a side -/

theorem TradingStateDB.bestPrice_mem {lists : WriteBack.Store ℕ OrderList} {best : Option ℕ}
    (hbest : ∀ p, best = some p → p ∈ lists.stored.keys)
    (h : 0 < (TradingStateDB.bestPrice lists best).1) :
    (TradingStateDB.bestPrice lists best).1 ∈ lists.stored.keys := by
  unfold TradingStateDB.bestPrice at h ⊢
  rcases best with _ | p
  · simp at h
  · dsimp only at h ⊢
    split_ifs at h ⊢
    · simp at h
    · rcases hl : lists.get p with _ | l
      · simp [hl] at h
      · dsimp only
        exact hbest p rfl

/-- The ids listed on one side of a book, price key by price key. -/
def Exchange.listedCount (x : Exchange) (side : Side) : ℕ :=
  ((x.prices side).map fun price => (x.levelIds side price).toFinset.card).sum

theorem Exchange.card_levelIds_le_listedCount {x : Exchange} {side : Side} {price : ℕ}
    (h : price ∈ x.prices side) : (x.levelIds side price).toFinset.card ≤ x.listedCount side :=
  List.le_sum_of_mem (List.mem_map_of_mem h)

/-- The exchange of a book never written has no price key. -/
theorem Exchange.consistent_new : Exchange.new.Consistent := by
  intro side lists hlists
  have hempty : lists = .empty := by
    cases side <;> simp [Exchange.orderLists, Exchange.new] at hlists <;> exact hlists.symm
  subst hempty
  exact ⟨fun price l h => by simp [WriteBack.Store.get, WriteBack.Store.empty] at h,
    fun price h => by simp [WriteBack.Store.empty] at h⟩

namespace XDCX

variable (xdcx : XDCX)

/-- A positive best price of the makers' side is a price key of that side. -/
theorem bestMakerPrice_mem {db : TradingStateDB} {orderBook : Hash} {takerSide : Side}
    (h : 0 < bestMakerPrice db orderBook takerSide) :
    bestMakerPrice db orderBook takerSide ∈ (db.exchangeAt orderBook).prices (makerSide takerSide) := by
  unfold bestMakerPrice at h ⊢
  rcases hx : db.exchanges.get orderBook with _ | x
  · split_ifs at h <;>
      simp [TradingStateDB.getBestAskPrice, TradingStateDB.getBestBidPrice, hx] at h
  · have hex : db.exchangeAt orderBook = x := by simp [TradingStateDB.exchangeAt, hx]
    rw [hex, makerSide]
    -- a bid takes the lowest ask key, anything else the highest bid key
    split_ifs at h ⊢
    · simp only [TradingStateDB.getBestAskPrice, hx] at h ⊢
      exact TradingStateDB.bestPrice_mem (fun p hp => List.min?_mem hp) h
    · simp only [TradingStateDB.getBestBidPrice, hx] at h ⊢
      exact TradingStateDB.bestPrice_mem (fun p hp => List.max?_mem hp) h

/-! ### The loop over one price -/

/-- A pass never raises the quantity left. -/
theorem processOrderListStep_quantity_le (coinbase : Hash) (side : Side) (orderBook price : Hash)
    (order : TradedOrder) (s : Matching) :
    (xdcx.processOrderListStep coinbase side orderBook price order s).state.quantityToTrade ≤
      s.quantityToTrade := by
  rcases hbest : bestOrder s.tradingStateDB orderBook price side with ⟨orderId, amount⟩
  rcases processOrderListStep_cases xdcx coinbase side orderBook price order hbest with
    ⟨-, hp⟩ | ⟨-, statedb, hp | hp | ⟨traded, sb, -, -, hp | ⟨-, hp⟩⟩ | ⟨e, hp⟩⟩
  · rw [hp, Pass.state_exit]
  · rw [hp, Pass.state_exit]
    exact Nat.zero_le _
  · rw [hp, cancelMaker_state]
    exact Nat.zero_le _
  · -- a trade, if any, takes its quantity off
    rw [hp, cancelMaker_state]
    split_ifs <;> simp
  · rw [hp, Pass.state_next]
    split_ifs <;> simp
  · rw [hp, Pass.state_fail]

/-- **What a pass that leaves the loop leaves**: under the invariant, no quantity or a level
with no order listed. -/
theorem processOrderListStep_exit {coinbase : Hash} {side : Side} {orderBook price : Hash}
    {order : TradedOrder} {s s' : Matching} (hc : s.tradingStateDB.BookConsistent orderBook)
    (h : xdcx.processOrderListStep coinbase side orderBook price order s = .exit s') :
    s'.quantityToTrade = 0 ∨ (s'.tradingStateDB.exchangeAt orderBook).levelIds side price = [] := by
  rcases hbest : bestOrder s.tradingStateDB orderBook price side with ⟨orderId, amount⟩
  rcases processOrderListStep_cases xdcx coinbase side orderBook price order hbest with
    ⟨hzero, hp⟩ | ⟨-, statedb, hp | hp | ⟨traded, sb, -, -, hp | ⟨-, hp⟩⟩ | ⟨e, hp⟩⟩
  · -- the level's first order has no amount: the level lists nothing
    rw [hp] at h
    cases h
    rw [hzero] at hbest
    exact .inr (levelIds_eq_nil hc hbest)
  · rw [hp] at h
    cases h
    exact .inl rfl
  · obtain ⟨-, rfl⟩ := cancelMaker_eq_exit (hp ▸ h)
    exact .inl rfl
  · cases (cancelMaker_eq_exit (hp ▸ h)).1
  · rw [hp] at h
    cases h
  · rw [hp] at h
    cases h

section OrderList

variable {coinbase : Hash} {side : Side} {orderBook price : Hash} {order : TradedOrder}

/-- **The loop over one price terminates**: under the invariant, fuel above the quantity plus
the ids at the level is enough. -/
theorem processOrderList_isSome {quantity : ℕ} {db : TradingStateDB} (statedb : StateDB)
    (hc : db.BookConsistent orderBook) {fuel : ℕ}
    (hfuel : quantity + ((db.exchangeAt orderBook).levelIds side price).toFinset.card < fuel) :
    (xdcx.processOrderList fuel coinbase side orderBook price quantity order db statedb).isSome := by
  refine run_isSome (fun s => s.tradingStateDB.BookConsistent orderBook)
    (orderListMeasure orderBook price side) (fun s hs _ => ⟨_, rfl, fun s' hp => ⟨?_, ?_⟩⟩) hc hfuel
  · have hkept := (keptByMatching_bookConsistent orderBook).processOrderListStep xdcx coinbase side
      price order hs
    rwa [hp] at hkept
  · exact processOrderListStep_next_lt xdcx hs hp

/-- What a finished loop over one price leaves, under the invariant: the invariant, a book that
only narrowed, no more quantity than it started with, and no quantity or an empty level. -/
theorem processOrderList_ok {quantity : ℕ} {db : TradingStateDB} {statedb : StateDB} {fuel : ℕ}
    {r : Matching} (hc : db.BookConsistent orderBook)
    (h : xdcx.processOrderList fuel coinbase side orderBook price quantity order db statedb =
      some (.ok r)) :
    r.tradingStateDB.BookConsistent orderBook ∧
      (db.exchangeAt orderBook).Narrows (r.tradingStateDB.exchangeAt orderBook) ∧
      r.quantityToTrade ≤ quantity ∧
      (r.quantityToTrade = 0 ∨ (r.tradingStateDB.exchangeAt orderBook).levelIds side price = []) := by
  let I : Matching → Prop := fun s => s.tradingStateDB.BookConsistent orderBook ∧
    (db.exchangeAt orderBook).Narrows (s.tradingStateDB.exchangeAt orderBook) ∧
    s.quantityToTrade ≤ quantity
  have hkeep : ∀ s, I s → I (xdcx.processOrderListStep coinbase side orderBook price order s).state := by
    rintro s ⟨hcs, hnarrow, hq⟩
    exact ⟨(keptByMatching_bookConsistent orderBook).processOrderListStep xdcx coinbase side price
        order hcs,
      (keptByMatching_narrows orderBook db).processOrderListStep xdcx coinbase side price order hnarrow,
      (processOrderListStep_quantity_le xdcx coinbase side orderBook price order s).trans hq⟩
  have hends := run_rule I
    (fun s => I s ∧ (s.quantityToTrade = 0 ∨
      (s.tradingStateDB.exchangeAt orderBook).levelIds side price = []))
    (fun _ _ => True) (fun s hs hcond => ⟨hs, .inl (by simpa using hcond)⟩)
    (fun s p hs _ hb => ?_) ⟨hc, Exchange.Narrows.refl _, le_rfl⟩ h
  · obtain ⟨⟨hcr, hnarrow, hq⟩, hend⟩ := hends
    exact ⟨hcr, hnarrow, hq, hend⟩
  · -- every pass keeps `I`, and a pass that leaves leaves no quantity or an empty level
    cases hb
    have hI := hkeep s hs
    rcases hp : xdcx.processOrderListStep coinbase side orderBook price order s with s' | s' | ⟨e, s'⟩
    · rw [hp] at hI
      exact ⟨hI, processOrderListStep_exit xdcx hs.1 hp⟩
    · rw [hp] at hI
      exact hI
    · trivial

end OrderList

/-! ### The loop over prices -/

/-- The measure of the loop over prices: the price keys of the makers' side, and one more while
quantity is left. -/
def bestPricesMeasure (orderBook : Hash) (takerSide : Side) (s : Matching) : ℕ :=
  ((s.tradingStateDB.exchangeAt orderBook).prices (makerSide takerSide)).toFinset.card +
    if 0 < s.quantityToTrade then 1 else 0

/-- **A pass over the best price ends the quantity or the price**: under the invariant, a
finished `processOrderList` at a positive best price leaves no quantity, or takes that price off
the makers' side. -/
theorem processOrderList_best {fuel : ℕ} {coinbase orderBook : Hash} {order : TradedOrder}
    {s r : Matching} (hc : s.tradingStateDB.BookConsistent orderBook)
    (hbest : 0 < bestMakerPrice s.tradingStateDB orderBook order.side)
    (h : xdcx.processOrderList fuel coinbase (makerSide order.side) orderBook
      (bestMakerPrice s.tradingStateDB orderBook order.side) s.quantityToTrade order
      s.tradingStateDB s.statedb = some (.ok r)) :
    r.quantityToTrade = 0 ∨
      bestMakerPrice s.tradingStateDB orderBook order.side ∈
          (s.tradingStateDB.exchangeAt orderBook).prices (makerSide order.side) ∧
        bestMakerPrice s.tradingStateDB orderBook order.side ∉
          (r.tradingStateDB.exchangeAt orderBook).prices (makerSide order.side) := by
  obtain ⟨hcr, -, -, hend⟩ := processOrderList_ok xdcx hc h
  rcases hend with hzero | hempty
  · exact .inl hzero
  · exact .inr ⟨bestMakerPrice_mem hbest, not_mem_prices hcr hempty⟩

/-- **The loop over prices terminates**: under the invariant, fuel above the quantity, the ids
listed on the makers' side and its price keys is enough, for every price test. -/
theorem matchBestPrices_isSome {fuel : ℕ} {coinbase orderBook : Hash} {order : TradedOrder}
    {crosses : ℕ → Bool} {s : Matching} (hc : s.tradingStateDB.BookConsistent orderBook)
    (hfuel : s.quantityToTrade +
      (s.tradingStateDB.exchangeAt orderBook).listedCount (makerSide order.side) +
      ((s.tradingStateDB.exchangeAt orderBook).prices (makerSide order.side)).toFinset.card + 1 <
        fuel) :
    (xdcx.matchBestPrices fuel coinbase orderBook order crosses s).isSome := by
  have hstart : bestPricesMeasure orderBook order.side s < fuel := by
    unfold bestPricesMeasure
    split_ifs <;> omega
  set x₀ := s.tradingStateDB.exchangeAt orderBook with hx₀
  -- the invariant of the loop over prices: the book invariant, a book narrowed from the start,
  -- and no more quantity than at the start
  let I : Matching → Prop := fun t => t.tradingStateDB.BookConsistent orderBook ∧
    x₀.Narrows (t.tradingStateDB.exchangeAt orderBook) ∧ t.quantityToTrade ≤ s.quantityToTrade
  unfold matchBestPrices
  refine run_isSome I (bestPricesMeasure orderBook order.side) (fun t ht hcond => ?_)
    ⟨hc, Exchange.Narrows.refl _, le_rfl⟩ hstart
  obtain ⟨hct, hnarrow, hq⟩ := ht
  simp only [Bool.and_eq_true, decide_eq_true_eq] at hcond
  obtain ⟨⟨hqpos, -⟩, hbpos⟩ := hcond
  have hmem := bestMakerPrice_mem hbpos
  -- the inner loop at the best price fits the fuel: its level is one of the start's
  have hcard : ((t.tradingStateDB.exchangeAt orderBook).levelIds (makerSide order.side)
      (bestMakerPrice t.tradingStateDB orderBook order.side)).toFinset.card ≤
        x₀.listedCount (makerSide order.side) :=
    (Exchange.card_toFinset_le (hnarrow.levelIds _ _)).trans
      (Exchange.card_levelIds_le_listedCount (hnarrow.prices _ hmem))
  have hsome : (xdcx.processOrderList fuel coinbase (makerSide order.side) orderBook
      (bestMakerPrice t.tradingStateDB orderBook order.side) t.quantityToTrade order
      t.tradingStateDB t.statedb).isSome :=
    processOrderList_isSome xdcx t.statedb hct (by omega)
  obtain ⟨r, hr⟩ := Option.isSome_iff_exists.1 hsome
  refine ⟨_, by dsimp only; rw [hr]; rfl, fun t' ht' => ?_⟩
  rcases r with ⟨e, r⟩ | r
  · cases ht'
  · cases ht'
    obtain ⟨hcr, hnarrow', hq', -⟩ := processOrderList_ok xdcx hct hr
    refine ⟨⟨hcr, hnarrow.trans hnarrow', hq'.trans hq⟩, ?_⟩
    have hsub := hnarrow'.prices (makerSide order.side)
    unfold bestPricesMeasure
    simp only [if_pos hqpos]
    rcases processOrderList_best xdcx hct hbpos hr with hzero | ⟨hin, hout⟩
    · have hle := Exchange.card_toFinset_le hsub
      simp only [hzero, lt_irrefl, if_false]
      omega
    · have hlt := Exchange.card_toFinset_lt hsub hin hout
      split_ifs <;> omega

end XDCX

end XdcSubnet.XDCx
