import XdcSubnet.XDCx.OrderBook

/-!
# Reverting the trading state

`RevertToSnapshot` undoes each journal entry by calling a forward operation again: an
insertion is undone by `CancelOrder`, a cancellation by `InsertOrderItem`.  Neither is the
inverse of the other on the state:

* `CancelOrder` leaves the order item, with quantity zero, and the exchange object stays,
  since creating it recorded no entry; so after a snapshot, an insertion and the revert,
  `Exist` holds and `GetOrder` returns the zero-quantity item where it returned
  `EmptyOrder`;
* `CancelOrder` deletes the key of a list it empties from the price trie at once, and the
  `InsertOrderItem` that undoes it finds the list still live, so it neither creates it nor
  writes the key back; `GetBestAskPrice` then misses the restored ask.

`revertToSnapshot_misses_restored_ask` runs both from the empty state.
-/

namespace XdcSubnet.XDCx.TradingStateDB

/-- `sampleAsk` placed in book 42 of the empty state, and a snapshot taken. -/
def askSnapshot : TradingStateDB × ℕ := (TradingStateDB.empty.insertOrderItem 42 1 sampleAsk).snapshot

/-- Then `sampleAsk` cancelled. -/
def askCancelledAfterSnapshot : TradingStateDB × Except TradingError Unit :=
  askSnapshot.1.cancelOrder 42 sampleAsk

/-- A snapshot of the empty state, then `sampleAsk` placed. -/
def askPlacedAfterSnapshot : TradingStateDB :=
  TradingStateDB.empty.snapshot.1.insertOrderItem 42 1 sampleAsk

/-- Two reverts from the empty state.  (1) An ask is placed, a snapshot taken, the ask
cancelled and the snapshot reverted: the volume at its price is back, but `GetBestAskPrice`
reports no ask where it reported it before.  (2) A snapshot is taken, the ask placed and the
snapshot reverted: the order book exists and `GetOrder` returns the ask with quantity zero,
where it reported no order book and `EmptyOrder`. -/
theorem revertToSnapshot_misses_restored_ask :
    (askSnapshot.1.getBestAskPrice 42 = (10, 5) ∧ askCancelledAfterSnapshot.2 = .ok () ∧
      ((askCancelledAfterSnapshot.1.revertToSnapshot askSnapshot.2).map fun db =>
        db.getVolume 42 10 .ask) = some 5 ∧
      ((askCancelledAfterSnapshot.1.revertToSnapshot askSnapshot.2).map fun db =>
        db.getBestAskPrice 42) = some (0, 0)) ∧
    (TradingStateDB.empty.exist 42 = false ∧ TradingStateDB.empty.getOrder 42 1 = emptyOrder ∧
      ((askPlacedAfterSnapshot.revertToSnapshot TradingStateDB.empty.snapshot.2).map fun db =>
        db.exist 42) = some true ∧
      ((askPlacedAfterSnapshot.revertToSnapshot TradingStateDB.empty.snapshot.2).map fun db =>
        db.getOrder 42 1) = some { sampleAsk with quantity := 0 }) := by
  decide

end XdcSubnet.XDCx.TradingStateDB
