import XdcSubnet.XDCx.CommitRuns

/-!
# Fuel: every call of `CommitOrder` returns

Matching runs with fuel.  A call's result does not change with more fuel (`commitOrder_mono`),
and under the book invariant the fuel `matchingFuel` (the order's quantity, the orders and the
prices listed on the makers' side) is enough (`commitOrder_isSome`).  So:

* the three loops of matching finish (`matching_terminates`);
* a run of orders from books with the invariant finishes once given enough fuel
  (`commitOrders_isSome`);
* a call with a wrong nonce is refused and changes nothing, and one with the right nonce returns,
  takes the nonce and sets the next one (`commitOrder_nonce`).
-/

namespace XdcSubnet.XDCx

open WriteBack Journal Loop TradingStateDB

namespace XDCX

variable (xdcx : XDCX) {fuel : ℕ} {coinbase : Hash} {statedb : StateDB} {db : TradingStateDB}
  {orderBook : Hash}

/-! ### Fuel -/

theorem processOrderList_mono {quantity : ℕ} {side : Side} {price : Hash} {order : TradedOrder}
    (k : ℕ) {r : Except (MatchError × Matching) Matching}
    (h : xdcx.processOrderList fuel coinbase side orderBook price quantity order db statedb = some r) :
    xdcx.processOrderList (fuel + k) coinbase side orderBook price quantity order db statedb =
      some r :=
  run_mono (fun _ _ hb => hb) k h

theorem matchBestPrices_mono {order : TradedOrder} {crosses : ℕ → Bool} {s : Matching} (k : ℕ)
    {r : Except (MatchError × Matching) Matching}
    (h : xdcx.matchBestPrices fuel coinbase orderBook order crosses s = some r) :
    xdcx.matchBestPrices (fuel + k) coinbase orderBook order crosses s = some r := by
  unfold matchBestPrices at h ⊢
  -- the passes over prices run the loop over one price with the same fuel
  refine run_mono (fun t p hb => ?_) k h
  obtain ⟨r', hr', rfl⟩ := Option.map_eq_some_iff.1 hb
  rw [xdcx.processOrderList_mono k hr']
  rfl

theorem processMarketOrder_mono {order : TradedOrder} (k : ℕ) {r : Matched}
    (h : xdcx.processMarketOrder fuel coinbase statedb db orderBook order = some r) :
    xdcx.processMarketOrder (fuel + k) coinbase statedb db orderBook order = some r := by
  obtain ⟨r₀, hr₀, rfl⟩ := Option.map_eq_some_iff.1 h
  rw [processMarketOrder, xdcx.matchBestPrices_mono k hr₀]
  rfl

theorem processLimitOrder_mono {order : TradedOrder} (k : ℕ) {r : Matched}
    (h : xdcx.processLimitOrder fuel coinbase statedb db orderBook order = some r) :
    xdcx.processLimitOrder (fuel + k) coinbase statedb db orderBook order = some r := by
  obtain ⟨r₀, hr₀, rfl⟩ := Option.map_eq_some_iff.1 h
  rw [processLimitOrder, xdcx.matchBestPrices_mono k hr₀]
  rfl

theorem applyOrder_mono {order : PlacedOrder} (k : ℕ) {r : Applied}
    (h : xdcx.applyOrder fuel coinbase statedb db orderBook order = some r) :
    xdcx.applyOrder (fuel + k) coinbase statedb db orderBook order = some r := by
  by_cases hlt : int64OfUInt64 (db.getNonce order.userAddress) < order.nonce
  · rw [applyOrder_of_lt xdcx hlt] at h ⊢
    exact h
  by_cases hgt : order.nonce < int64OfUInt64 (db.getNonce order.userAddress)
  · rw [applyOrder_of_gt xdcx hgt] at h ⊢
    exact h
  simp only [applyOrder, hlt, hgt, if_false] at h ⊢
  -- only matching reads the fuel
  split_ifs at h ⊢
  any_goals exact h
  all_goals
    obtain ⟨p, hp, hf⟩ := Option.bind_eq_some_iff.1 h
    first
      | rw [xdcx.processMarketOrder_mono k hp]
      | rw [xdcx.processLimitOrder_mono k hp]
    exact hf

/-- **More fuel gives the same result.** -/
theorem commitOrder_mono {order : PlacedOrder} (k : ℕ) {r : Applied}
    (h : xdcx.commitOrder fuel coinbase statedb db orderBook order = some r) :
    xdcx.commitOrder (fuel + k) coinbase statedb db orderBook order = some r := by
  obtain ⟨r', hr', hf⟩ := Option.bind_eq_some_iff.1 h
  exact Option.bind_eq_some_iff.2 ⟨r', xdcx.applyOrder_mono k hr', hf⟩

/-- The fuel that matching from `db` needs for `order` at `orderBook`: its quantity, the orders
and the prices listed on the other side, and one more for the last pass. -/
def matchingFuel (db : TradingStateDB) (orderBook : Hash) (order : TradedOrder) : ℕ :=
  order.quantity + (db.exchangeAt orderBook).listedCount (makerSide order.side) +
    ((db.exchangeAt orderBook).prices (makerSide order.side)).toFinset.card + 1

theorem processMarketOrder_isSome {order : TradedOrder} (hc : db.BookConsistent orderBook)
    (hfuel : matchingFuel db orderBook order < fuel) :
    (xdcx.processMarketOrder fuel coinbase statedb db orderBook order).isSome := by
  rw [processMarketOrder, Option.isSome_map]
  exact matchBestPrices_isSome xdcx hc hfuel

theorem processLimitOrder_isSome {order : TradedOrder} (hc : db.BookConsistent orderBook)
    (hfuel : matchingFuel db orderBook order < fuel) :
    (xdcx.processLimitOrder fuel coinbase statedb db orderBook order).isSome := by
  rw [processLimitOrder, Option.isSome_map]
  exact matchBestPrices_isSome xdcx hc hfuel

/-- **`ApplyOrder` finishes** with the fuel matching needs, when the book has its invariant and
is not the user's key. -/
theorem applyOrder_isSome {order : PlacedOrder} (hkey : orderBook ≠ order.userAddress)
    (hc : db.BookConsistent orderBook) (hfuel : matchingFuel db orderBook order.toTradedOrder < fuel) :
    (xdcx.applyOrder fuel coinbase statedb db orderBook order).isSome := by
  by_cases hlt : int64OfUInt64 (db.getNonce order.userAddress) < order.nonce
  · rw [applyOrder_of_lt xdcx hlt]
    rfl
  by_cases hgt : order.nonce < int64OfUInt64 (db.getNonce order.userAddress)
  · rw [applyOrder_of_gt xdcx hgt]
    rfl
  set dbS := db.setNonce order.userAddress ((db.getNonce order.userAddress + 1) % 2 ^ 64) with hdbS
  have hS : dbS.exchangeAt orderBook = db.exchangeAt orderBook :=
    (changedAt_setNonce _ _ _).exchangeAt_eq hkey
  -- matching runs from the snapshot, whose book is the one of `db`
  have hcS : dbS.snapshot.1.BookConsistent orderBook := by
    unfold TradingStateDB.BookConsistent
    rw [exchangeAt_snapshot, hS]
    exact hc
  have hfuelS : matchingFuel dbS.snapshot.1 orderBook order.toTradedOrder < fuel := by
    rw [matchingFuel, exchangeAt_snapshot, hS]
    exact hfuel
  simp only [applyOrder, hlt, hgt, if_false, ← hdbS]
  split_ifs
  any_goals rfl
  · -- a market order
    obtain ⟨⟨res, db', statedb'⟩, hp⟩ : ∃ p, xdcx.processMarketOrder fuel coinbase statedb
        dbS.snapshot.1 orderBook order.toTradedOrder = some p :=
      Option.isSome_iff_exists.1 (xdcx.processMarketOrder_isSome hcS hfuelS)
    rw [hp, Option.bind_some]
    rcases res with e | x
    · simpa only [Option.isSome_map] using (xdcx.processMarketOrder_changedAt hp).revertToSnapshot_isSome
    · rfl
  · -- a limit order
    obtain ⟨⟨res, db', statedb'⟩, hp⟩ : ∃ p, xdcx.processLimitOrder fuel coinbase statedb
        dbS.snapshot.1 orderBook order.toTradedOrder = some p :=
      Option.isSome_iff_exists.1 (xdcx.processLimitOrder_isSome hcS hfuelS)
    rw [hp, Option.bind_some]
    rcases res with e | x
    · simpa only [Option.isSome_map] using (xdcx.processLimitOrder_changedAt hp).revertToSnapshot_isSome
    · rfl

/-- **`CommitOrder` finishes** with the fuel matching needs. -/
theorem commitOrder_isSome {order : PlacedOrder} (hkey : orderBook ≠ order.userAddress)
    (hc : db.BookConsistent orderBook) (hfuel : matchingFuel db orderBook order.toTradedOrder < fuel) :
    (xdcx.commitOrder fuel coinbase statedb db orderBook order).isSome := by
  obtain ⟨⟨res, db', statedb'⟩, happly⟩ : ∃ p, xdcx.applyOrder fuel coinbase statedb db.snapshot.1
      orderBook order = some p :=
    Option.isSome_iff_exists.1 (xdcx.applyOrder_isSome hkey
      (show db.snapshot.1.BookConsistent orderBook from hc) hfuel)
  refine Option.isSome_iff_exists.2 ?_
  rcases res with e | x
  · -- a wrong nonce: the revert to the snapshot undoes nothing
    have hdb' : db' = db.snapshot.1 := xdcx.applyOrder_eq_error happly
    subst hdb'
    obtain ⟨db'', hr, -⟩ :=
      revertToSnapshot_snapshot
        (show db.snapshot.1.log.validRevisions = db.snapshot.1.log.validRevisions from rfl)
        (show db.snapshot.1.log.entries = db.log.entries ++ [] from (List.append_nil _).symm)
    refine ⟨(.error e, db'', statedb), Option.bind_eq_some_iff.2 ⟨_, happly, ?_⟩⟩
    show (db.snapshot.1.revertToSnapshot db.snapshot.2).map _ = _
    rw [hr, Option.map_some]
  · exact ⟨_, Option.bind_eq_some_iff.2 ⟨_, happly, rfl⟩⟩

/-- **Matching terminates.**  Under the order-book invariant, a pass of `processOrderList` that
goes round again traded a positive quantity, no more than was left, or took one maker order off
the level; a finished `processOrderList` at the positive best price of the makers' side leaves
no quantity or takes that price off the side; and `processOrderList`, `processLimitOrder` and
`processMarketOrder` all finish once given enough fuel. -/
theorem matching_terminates (coinbase orderBook : Hash) (order : TradedOrder) :
    (∀ (side : Side) (price : Hash) (s s' : Matching),
      s.tradingStateDB.BookConsistent orderBook →
      xdcx.processOrderListStep coinbase side orderBook price order s = .next s' →
      (∃ traded, 0 < traded ∧ traded ≤ s.quantityToTrade ∧
          s'.quantityToTrade = s.quantityToTrade - traded) ∨
        s'.quantityToTrade = s.quantityToTrade ∧
          ∃ orderId ∈ (s.tradingStateDB.exchangeAt orderBook).levelIds side price,
            orderId ∉ (s'.tradingStateDB.exchangeAt orderBook).levelIds side price) ∧
    (∀ (fuel : ℕ) (s r : Matching), s.tradingStateDB.BookConsistent orderBook →
      0 < bestMakerPrice s.tradingStateDB orderBook order.side →
      xdcx.processOrderList fuel coinbase (makerSide order.side) orderBook
          (bestMakerPrice s.tradingStateDB orderBook order.side) s.quantityToTrade order
          s.tradingStateDB s.statedb = some (.ok r) →
      r.quantityToTrade = 0 ∨
        bestMakerPrice s.tradingStateDB orderBook order.side ∈
            (s.tradingStateDB.exchangeAt orderBook).prices (makerSide order.side) ∧
          bestMakerPrice s.tradingStateDB orderBook order.side ∉
            (r.tradingStateDB.exchangeAt orderBook).prices (makerSide order.side)) ∧
    (∀ (side : Side) (price : Hash) (quantity : ℕ) (db : TradingStateDB) (statedb : StateDB),
      db.BookConsistent orderBook → ∃ N, ∀ fuel, N ≤ fuel →
        (xdcx.processOrderList fuel coinbase side orderBook price quantity order db statedb).isSome) ∧
    (∀ (db : TradingStateDB) (statedb : StateDB), db.BookConsistent orderBook → ∃ N, ∀ fuel,
      N ≤ fuel → (xdcx.processLimitOrder fuel coinbase statedb db orderBook order).isSome) ∧
    (∀ (db : TradingStateDB) (statedb : StateDB), db.BookConsistent orderBook → ∃ N, ∀ fuel,
      N ≤ fuel → (xdcx.processMarketOrder fuel coinbase statedb db orderBook order).isSome) := by
  -- both callers run the loop over prices from the order's quantity with nothing matched
  have hprices : ∀ (crosses : ℕ → Bool) (db : TradingStateDB) (statedb : StateDB),
      db.BookConsistent orderBook → ∃ N, ∀ fuel, N ≤ fuel →
        (xdcx.matchBestPrices fuel coinbase orderBook order crosses
          ⟨order.quantity, [], [], db, statedb⟩).isSome := by
    intro crosses db statedb hc
    refine ⟨order.quantity + (db.exchangeAt orderBook).listedCount (makerSide order.side) +
      ((db.exchangeAt orderBook).prices (makerSide order.side)).toFinset.card + 2,
      fun fuel hfuel => matchBestPrices_isSome xdcx hc (by dsimp only; omega)⟩
  refine ⟨fun side price s s' hc h => processOrderListStep_next_cases xdcx hc h,
    fun fuel s r hc hbest h => processOrderList_best xdcx hc hbest h, ?_, ?_, ?_⟩
  · intro side price quantity db statedb hc
    refine ⟨quantity + ((db.exchangeAt orderBook).levelIds side price).toFinset.card + 1,
      fun fuel hfuel => processOrderList_isSome xdcx statedb hc (by omega)⟩
  · intro db statedb hc
    obtain ⟨N, hN⟩ := hprices _ db statedb hc
    exact ⟨N, fun fuel hfuel => by
      rw [processLimitOrder, Option.isSome_map]
      exact hN fuel hfuel⟩
  · intro db statedb hc
    obtain ⟨N, hN⟩ := hprices _ db statedb hc
    exact ⟨N, fun fuel hfuel => by
      rw [processMarketOrder, Option.isSome_map]
      exact hN fuel hfuel⟩

/-- The taker's limit order against the resting maker: matching finishes, with one trade. -/
theorem matching_terminates_resting :
    restingDB.BookConsistent 1 ∧
      (∃ N, ∀ fuel, N ≤ fuel →
        (sampleXDCX.processLimitOrder fuel 40 sampleStateDB restingDB 1 feeTaker).isSome) ∧
      (sampleXDCX.processLimitOrder 5 40 sampleStateDB restingDB 1 feeTaker).bind
        (fun r => r.1.toOption.map fun x => x.1.length) = some 1 :=
  ⟨invariant_restingDB.consistent,
    (matching_terminates sampleXDCX 40 1 feeTaker).2.2.2.1 _ _ invariant_restingDB.consistent,
    by decide⟩

/-! ### Order nonces -/

/-- **Order nonces.**  Take an order book that is not the user's key and has the book invariant,
and a user's nonce below the last `uint64`.  A `CommitOrder` call with a wrong nonce is refused,
on any fuel, with the error the comparison names, and leaves the account state, the exchanges,
the journal and the snapshots as they were; only the counter of snapshot ids moves on.  A call
with the right nonce returns once given enough fuel, whatever becomes of the order (rejected,
cancelled, matched, listed, or a failed match reverted to just after the nonce was set), with no
error and the user's nonce one more. -/
theorem commitOrder_nonce (coinbase : Hash) (statedb : StateDB) (db : TradingStateDB)
    (orderBook : Hash) (order : PlacedOrder) (hkey : orderBook ≠ order.userAddress)
    (hc : db.BookConsistent orderBook) (hnonce : db.getNonce order.userAddress + 1 < 2 ^ 64) :
    (int64OfUInt64 (db.getNonce order.userAddress) ≠ order.nonce → ∀ fuel,
      ∃ db', xdcx.commitOrder fuel coinbase statedb db orderBook order =
          some (.error (if int64OfUInt64 (db.getNonce order.userAddress) < order.nonce then
            .nonceTooHigh else .nonceTooLow), db', statedb) ∧
        db'.exchanges = db.exchanges ∧ db'.log.entries = db.log.entries ∧
        db'.log.validRevisions = db.log.validRevisions) ∧
    (int64OfUInt64 (db.getNonce order.userAddress) = order.nonce → ∃ N, ∀ fuel, N ≤ fuel →
      ∃ r, xdcx.commitOrder fuel coinbase statedb db orderBook order = some r ∧ r.1.isOk ∧
        r.2.1.getNonce order.userAddress = db.getNonce order.userAddress + 1) := by
  refine ⟨fun hne fuel => commitOrder_of_ne xdcx fuel coinbase statedb db orderBook order hne,
    fun heq => ?_⟩
  -- the call with the fuel its matching needs; more fuel gives the same result
  have hsome : (xdcx.commitOrder (matchingFuel db orderBook order.toTradedOrder + 1) coinbase
      statedb db orderBook order).isSome :=
    xdcx.commitOrder_isSome hkey hc (Nat.lt_succ_self _)
  obtain ⟨r, hr⟩ := Option.isSome_iff_exists.1 hsome
  obtain ⟨hok, hnext⟩ := commitOrder_of_eq xdcx hkey heq hr
  refine ⟨matchingFuel db orderBook order.toTradedOrder + 1, fun fuel hfuel => ⟨r, ?_, hok, ?_⟩⟩
  · obtain ⟨k, rfl⟩ := Nat.exists_eq_add_of_le hfuel
    exact xdcx.commitOrder_mono k hr
  · rw [hnext, Nat.mod_eq_of_lt hnonce]

/-- The taker's order on the resting book at the taker's nonce `0`: it is taken, trades once, and
the taker's nonce becomes `1`. -/
theorem commitOrder_nonce_resting :
    (1 : Hash) ≠ takerOrder.userAddress ∧ restingDB.BookConsistent 1 ∧
      restingDB.getNonce takerOrder.userAddress + 1 < 2 ^ 64 ∧
      (int64OfUInt64 (restingDB.getNonce takerOrder.userAddress) ≠ takerOrder.nonce → ∀ fuel,
        ∃ db', sampleXDCX.commitOrder fuel 40 sampleStateDB restingDB 1 takerOrder =
            some (.error (if int64OfUInt64 (restingDB.getNonce takerOrder.userAddress) <
              takerOrder.nonce then .nonceTooHigh else .nonceTooLow), db', sampleStateDB) ∧
          db'.exchanges = restingDB.exchanges ∧ db'.log.entries = restingDB.log.entries ∧
          db'.log.validRevisions = restingDB.log.validRevisions) ∧
      (int64OfUInt64 (restingDB.getNonce takerOrder.userAddress) = takerOrder.nonce →
        ∃ N, ∀ fuel, N ≤ fuel → ∃ r, sampleXDCX.commitOrder fuel 40 sampleStateDB restingDB 1
            takerOrder = some r ∧ r.1.isOk ∧
          r.2.1.getNonce takerOrder.userAddress = restingDB.getNonce takerOrder.userAddress + 1) ∧
      (sampleXDCX.commitOrder 5 40 sampleStateDB restingDB 1 takerOrder).bind
        (fun r => r.1.toOption.map fun x => x.1.length) = some 1 := by
  have hnonce : restingDB.getNonce takerOrder.userAddress + 1 < 2 ^ 64 := by decide
  have hcommit := commitOrder_nonce sampleXDCX 40 sampleStateDB restingDB 1 takerOrder
    (by decide) invariant_restingDB.consistent hnonce
  exact ⟨by decide, invariant_restingDB.consistent, hnonce, hcommit.1, hcommit.2, by decide⟩

end XDCX

end XdcSubnet.XDCx
