import XdcSubnet.XDCx.Matching

/-!
# What matching writes to the trading state

Matching writes the trading state at the order book only, and in four ways: `CancelOrder` of
a maker, and for each trade `SubAmountOrderItem`, `SetLastPrice` and `SetMediumPrice`.
Settlement writes the account state only.  So take a property of the trading state that these
four writes keep (`KeptByMatching`).  Every pass of `processOrderList` keeps it, whatever the
pass does (`KeptByMatching.processOrderListStep`).  Then every finished run of the loop over
one price and of the loop over prices ends in a state that has it
(`KeptByMatching.processOrderList`, `KeptByMatching.matchBestPrices`).
-/

namespace XdcSubnet.XDCx

open Loop

/-- A property of the trading state that the four writes of matching at `orderBook` keep; the
amount a trade takes off a maker is positive. -/
structure KeptByMatching (orderBook : Hash) (P : TradingStateDB → Prop) : Prop where
  cancelOrder : ∀ db order, P db → P (db.cancelOrder orderBook order).1
  subAmountOrderItem : ∀ db orderId price amount side, 0 < amount → P db →
    P (db.subAmountOrderItem orderBook orderId price amount side).1
  setLastPrice : ∀ db price, P db → P (db.setLastPrice orderBook price)
  setMediumPrice : ∀ db price quantity, P db → P (db.setMediumPrice orderBook price quantity)

namespace KeptByMatching

variable {orderBook : Hash} {P : TradingStateDB → Prop} (hP : KeptByMatching orderBook P)
include hP

theorem cancelMaker (maker : TradedOrder) (stop : Bool) {s : Matching}
    (hs : P s.tradingStateDB) : P (XDCX.cancelMaker orderBook maker stop s).state.tradingStateDB := by
  have hc := hP.cancelOrder _ maker.toOrderItem hs
  unfold XDCX.cancelMaker
  rcases hcancel : s.tradingStateDB.cancelOrder orderBook maker.toOrderItem with ⟨db, r⟩
  rw [hcancel] at hc
  cases r with
  | error e => exact hc
  | ok u => cases stop <;> exact hc

theorem recordTrade {orderId price : Hash} {side : Side} {order maker : TradedOrder} {traded : ℕ}
    (settleBalance : Option SettleBalance) (htraded : 0 < traded) {s : Matching}
    (hs : P s.tradingStateDB) :
    P (XDCX.recordTrade orderBook orderId price side order maker traded settleBalance s).tradingStateDB := by
  have hlast := hP.setLastPrice _ (some price) (hP.subAmountOrderItem _ orderId price _ side htraded hs)
  unfold XDCX.recordTrade
  dsimp only
  split <;> exact hP.setMediumPrice _ _ _ hlast

theorem processOrderListStep (xdcx : XDCX) (coinbase : Hash) (side : Side) (price : Hash)
    (order : TradedOrder) {s : Matching} (hs : P s.tradingStateDB) :
    P (xdcx.processOrderListStep coinbase side orderBook price order s).state.tradingStateDB := by
  unfold XDCX.processOrderListStep
  dsimp only
  repeat' split
  all_goals try simp only [Pass.state_exit, Pass.state_next, Pass.state_fail]
  all_goals first
    | with_reducible exact hs
    | with_reducible exact hP.cancelMaker _ _ hs
    | (with_reducible refine hP.cancelMaker _ _ (hP.recordTrade _ ?_ hs)); assumption
    | (with_reducible refine hP.recordTrade _ ?_ hs); assumption

theorem processOrderList (xdcx : XDCX) {fuel : ℕ} {coinbase : Hash} {side : Side}
    {price quantity : ℕ} {order : TradedOrder} {db : TradingStateDB} {statedb : StateDB}
    {r : Except (MatchError × Matching) Matching}
    (h : xdcx.processOrderList fuel coinbase side orderBook price quantity order db statedb = some r)
    (hdb : P db) : P (final r).tradingStateDB := by
  refine run_final (fun s => P s.tradingStateDB) (fun s p hs _ hb => ?_) hdb h
  cases hb
  exact hP.processOrderListStep xdcx coinbase side price order hs

theorem matchBestPrices (xdcx : XDCX) {fuel : ℕ} {coinbase : Hash} {order : TradedOrder}
    {crosses : ℕ → Bool} {s : Matching} {r : Except (MatchError × Matching) Matching}
    (h : xdcx.matchBestPrices fuel coinbase orderBook order crosses s = some r)
    (hs : P s.tradingStateDB) : P (final r).tradingStateDB := by
  refine run_final (fun s => P s.tradingStateDB) (fun s p hs _ hb => ?_) hs h
  obtain ⟨r', hr', rfl⟩ := Option.map_eq_some_iff.1 hb
  have hend := hP.processOrderList xdcx hr' hs
  rcases r' with ⟨e, s'⟩ | s' <;> exact hend

end KeptByMatching

end XdcSubnet.XDCx
