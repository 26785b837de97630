import XdcSubnet.XDCxLending.LendingState

/-!
# The liquidation-time index and the trades it indexes

The lending processor finds the trades to liquidate through `GetLowestLiquidationTime`, which
reads only the liquidation-time trie of the lending book.  That trie is kept beside the trades
but not with them:

* every journaled operation (trade insertion and cancellation, nonces, trade fields) leaves
  every lending book's liquidation-time trie as it was (`timesAt_undo` and the frame lemmas
  before it), and the index operations record nothing (`log_insertLiquidationTime`,
  `removeLiquidationTime_of_entry`); so `RevertToSnapshot` never changes what
  `GetLowestLiquidationTime` reports (`getLowestLiquidationTime_revertToSnapshot`);
* `RemoveLiquidationTime` of any id at a listed time succeeds, listed or not, and counts the
  volume down (`removeLiquidationTime_of_entry`).

`liquidationIndex_diverges_from_trades` runs both from the empty state: a removal of an
unlisted id drops the time of an open trade from the index, and a reverted trade stays due.
-/

namespace XdcSubnet.XDCxLending.LendingStateDB

open WriteBack Journal
open XdcSubnet.XDCx (Hash)

/-- The liquidation-time trie of lending book `B`; a missing object reads as an empty one. -/
def timesAt (db : LendingStateDB) (B : Hash) : Store ℕ LiquidationTime :=
  ((db.exchanges.get B).map (·.liquidationTimes)).getD .empty

/-! ### `GetLowestLiquidationTime` reads the trie only -/

theorem LendingExchange.getLowestLiquidationTime_congr {x y : LendingExchange}
    (h : x.liquidationTimes = y.liquidationTimes) :
    x.getLowestLiquidationTime = y.getLowestLiquidationTime := by
  simp only [LendingExchange.getLowestLiquidationTime, h]

theorem LendingExchange.getLowestLiquidationTime_of_empty {x : LendingExchange}
    (h : x.liquidationTimes = .empty) : x.getLowestLiquidationTime = (0, none) := by
  rw [getLowestLiquidationTime_congr (y := .new) h]
  rfl

theorem getLowestLiquidationTime_of_get_empty {db : LendingStateDB} {B : Hash}
    {x : LendingExchange} (hx : db.exchanges.get B = some x) (h : x.liquidationTimes = .empty)
    (t : ℕ) : db.getLowestLiquidationTime B t = (0, []) := by
  simp only [getLowestLiquidationTime, hx, LendingExchange.getLowestLiquidationTime_of_empty h]

theorem getLowestLiquidationTime_of_timesAt_empty {db : LendingStateDB} {B : Hash}
    (h : db.timesAt B = .empty) (t : ℕ) : db.getLowestLiquidationTime B t = (0, []) := by
  cases hx : db.exchanges.get B with
  | none => simp only [getLowestLiquidationTime, hx]
  | some x =>
    have hx' : x.liquidationTimes = .empty := by simpa [timesAt, hx] using h
    exact getLowestLiquidationTime_of_get_empty hx hx' t

/-- Two states whose liquidation-time tries of `B` agree report the same lowest time. -/
theorem getLowestLiquidationTime_congr {db db' : LendingStateDB} {B : Hash}
    (h : db.timesAt B = db'.timesAt B) (t : ℕ) :
    db.getLowestLiquidationTime B t = db'.getLowestLiquidationTime B t := by
  -- a missing object reads as an empty trie, so only two objects present need comparing
  cases hx : db.exchanges.get B with
  | none =>
    have he : db.timesAt B = .empty := by simp [timesAt, hx]
    rw [getLowestLiquidationTime_of_timesAt_empty he,
      getLowestLiquidationTime_of_timesAt_empty (h ▸ he)]
  | some x =>
    cases hx' : db'.exchanges.get B with
    | none =>
      have he : db'.timesAt B = .empty := by simp [timesAt, hx']
      rw [getLowestLiquidationTime_of_timesAt_empty he,
        getLowestLiquidationTime_of_timesAt_empty (h.symm ▸ he)]
    | some x' =>
      have hxx : x.liquidationTimes = x'.liquidationTimes := by simpa [timesAt, hx, hx'] using h
      simp only [getLowestLiquidationTime, hx, hx',
        LendingExchange.getLowestLiquidationTime_congr hxx]

/-! ### Frame lemmas: the journaled operations leave the trie alone -/

@[simp] theorem exchanges_record (db : LendingStateDB) (e : JournalEntry) :
    (db.record e).exchanges = db.exchanges := rfl

theorem timesAt_of_get {db : LendingStateDB} {B : Hash} {x : LendingExchange}
    (hx : db.exchanges.get B = some x) : db.timesAt B = x.liquidationTimes := by
  simp [timesAt, hx]

theorem timesAt_putExchange (db : LendingStateDB) (B : Hash) (y : LendingExchange) (fired : Bool)
    (B' : Hash) :
    (db.putExchange B y fired).timesAt B' = if B' = B then y.liquidationTimes else db.timesAt B' := by
  have hget : (db.putExchange B y fired).exchanges.get B' = (db.exchanges.update B y).get B' := by
    unfold putExchange
    split <;> simp
  rw [timesAt, hget, Store.get_update]
  split <;> rfl

/-- Putting an object back with the trie it had leaves every trie alone. -/
theorem timesAt_putExchange_of_times {db : LendingStateDB} {B : Hash} {y : LendingExchange}
    (hy : y.liquidationTimes = db.timesAt B) (fired : Bool) (B' : Hash) :
    (db.putExchange B y fired).timesAt B' = db.timesAt B' := by
  rw [timesAt_putExchange]
  split
  case isTrue h => rw [h, hy]
  case isFalse => rfl

theorem timesAt_getOrNewExchange (db : LendingStateDB) (B B' : Hash) :
    (db.getOrNewExchange B).1.timesAt B' = db.timesAt B' ∧
      (db.getOrNewExchange B).2.liquidationTimes = db.timesAt B := by
  unfold getOrNewExchange
  split
  case h_1 x hx => exact ⟨rfl, (timesAt_of_get hx).symm⟩
  case h_2 hx =>
    have hnew : db.timesAt B = .empty := by simp [timesAt, hx]
    refine ⟨?_, hnew.symm⟩
    by_cases hB : B' = B
    · subst hB
      rw [hnew]
      simp [timesAt, Store.get_of_live, AList.lookup_insert, LendingExchange.new]
    · simp [timesAt, Store.get, AList.lookup_insert_ne hB]

/-- The shape of every journaled operation: take the object (or a new one), record, and put it
back with its trie unchanged. -/
theorem timesAt_putExchange_after_getOrNew {db d d' : LendingStateDB} {B : Hash}
    {x y : LendingExchange} (hp : db.getOrNewExchange B = (d, x)) (hd : d'.exchanges = d.exchanges)
    (hy : y.liquidationTimes = x.liquidationTimes) (fired : Bool) (B' : Hash) :
    (d'.putExchange B y fired).timesAt B' = db.timesAt B' := by
  have hframe := timesAt_getOrNewExchange db B
  rw [hp] at hframe
  have hd' : ∀ B'', d'.timesAt B'' = d.timesAt B'' := fun B'' => by simp only [timesAt, hd]
  rw [timesAt_putExchange_of_times (by rw [hy, (hframe B).2, hd', (hframe B).1]), hd',
    (hframe B').1]

theorem timesAt_insertTradingItem (db : LendingStateDB) (B : Hash) (tradeId : ℕ)
    (order : LendingTrade) (B' : Hash) :
    (db.insertTradingItem B tradeId order).timesAt B' = db.timesAt B' := by
  obtain ⟨⟨d, x⟩, hp⟩ : ∃ p, db.getOrNewExchange B = p := ⟨_, rfl⟩
  simp only [insertTradingItem, hp]
  apply timesAt_putExchange_after_getOrNew hp <;> rfl

theorem timesAt_setNonce (db : LendingStateDB) (B : Hash) (nonce : ℕ) (B' : Hash) :
    (db.setNonce B nonce).timesAt B' = db.timesAt B' := by
  obtain ⟨⟨d, x⟩, hp⟩ : ∃ p, db.getOrNewExchange B = p := ⟨_, rfl⟩
  simp only [setNonce, hp]
  apply timesAt_putExchange_after_getOrNew hp <;> rfl

theorem timesAt_setTradeNonce (db : LendingStateDB) (B : Hash) (nonce : ℕ) (B' : Hash) :
    (db.setTradeNonce B nonce).timesAt B' = db.timesAt B' := by
  obtain ⟨⟨d, x⟩, hp⟩ : ∃ p, db.getOrNewExchange B = p := ⟨_, rfl⟩
  simp only [setTradeNonce, hp]
  apply timesAt_putExchange_after_getOrNew hp <;> rfl

theorem timesAt_undoTradeField (set : LendingTrade → LendingTrade) (db : LendingStateDB)
    (B : Hash) (tradeId : ℕ) (B' : Hash) :
    (undoTradeField set db B tradeId).timesAt B' = db.timesAt B' := by
  unfold undoTradeField
  split
  case h_1 => rfl
  case h_2 x hx =>
    split
    case h_1 => rfl
    case h_2 =>
      split
      apply timesAt_putExchange_of_times
      exact (timesAt_of_get hx).symm

/-- **No undo touches the liquidation-time index.** -/
theorem timesAt_undo (db : LendingStateDB) (e : JournalEntry) (B : Hash) :
    (db.undo e).timesAt B = db.timesAt B := by
  cases e with
  | insertTrading orderBook tradeId prvTrade => exact timesAt_insertTradingItem _ _ _ _ _
  | cancelTrading orderBook tradeId order => exact timesAt_insertTradingItem _ _ _ _ _
  | nonceChange h prev => exact timesAt_setNonce _ _ _ _
  | tradeNonceChange h prev => exact timesAt_setTradeNonce _ _ _ _
  | liquidationPriceChange orderBook tradeId prev => exact timesAt_undoTradeField _ _ _ _ _
  | collateralLockedAmount orderBook tradeId prev => exact timesAt_undoTradeField _ _ _ _ _

/-- **A revert never changes what `GetLowestLiquidationTime` reports.** -/
theorem getLowestLiquidationTime_revertToSnapshot {db db' : LendingStateDB} {revid : ℕ}
    (h : db.revertToSnapshot revid = some db') (B : Hash) (t : ℕ) :
    db'.getLowestLiquidationTime B t = db.getLowestLiquidationTime B t := by
  unfold revertToSnapshot at h
  split at h
  case h_1 => cases h
  case h_2 idx r _ =>
    cases h
    apply getLowestLiquidationTime_congr
    exact unwind_preserves undo (fun d => d.timesAt B) (fun s e => timesAt_undo s e B) _ db

/-! ### The index operations record nothing -/

theorem log_insertLiquidationTime (db : LendingStateDB) (B : Hash) (time tradeId : ℕ) :
    (db.insertLiquidationTime B time tradeId).log = db.log := by
  obtain ⟨⟨d, x⟩, hp⟩ : ∃ p, db.getOrNewExchange B = p := ⟨_, rfl⟩
  have hlog : d.log = db.log := by
    unfold getOrNewExchange at hp
    split at hp <;> cases hp <;> rfl
  simp only [insertLiquidationTime, hp]
  split <;> exact hlog

/-- `RemoveLiquidationTime` at a time the index lists succeeds for every id, listed or not,
and records nothing. -/
theorem removeLiquidationTime_of_entry {db : LendingStateDB} {B : Hash} {time : ℕ}
    {x : LendingExchange} {l : LiquidationTime} (hx : db.exchanges.get B = some x)
    (hl : x.liquidationTimes.get time = some l) (tradeId : ℕ) :
    (db.removeLiquidationTime B tradeId time).2 = .ok () ∧
      (db.removeLiquidationTime B tradeId time).1.log = db.log := by
  simp only [removeLiquidationTime, hx, hl, LiquidationTime.exist, Bool.not_true]
  exact ⟨rfl, rfl⟩

/-! ### The index and the trades apart -/

/-- A trade of 100 in lending book 7, id 1, to be liquidated at time 50. -/
def sampleTrade : LendingTrade :=
  { emptyLendingTrade with amount := 100, liquidationTime := 50, tradeId := 1 }

/-- `sampleTrade` inserted in the empty state and indexed at its liquidation time. -/
def tradeIndexed : LendingStateDB :=
  (LendingStateDB.empty.insertTradingItem 7 1 sampleTrade).insertLiquidationTime 7 50 1

/-- Then id 2, which is not listed, removed at time 50. -/
def absentRemoved : LendingStateDB × Except LendingError Unit :=
  tradeIndexed.removeLiquidationTime 7 2 50

/-- A snapshot of the empty state. -/
def emptySnapshot : LendingStateDB × ℕ := LendingStateDB.empty.snapshot

/-- After the snapshot, `sampleTrade` inserted and indexed. -/
def tradeIndexedAfterSnapshot : LendingStateDB :=
  (emptySnapshot.1.insertTradingItem 7 1 sampleTrade).insertLiquidationTime 7 50 1

/-- Two runs from the empty state.  (1) A trade due at time 50 is inserted and indexed; the
removal of id 2, which the index does not list, succeeds and empties time 50, so the open trade
is no longer due at any time.  (2) After a snapshot the trade is inserted and indexed and the
snapshot reverted: the trade is gone, and time 50 still lists it as due. -/
theorem liquidationIndex_diverges_from_trades :
    (tradeIndexed.getLendingTrade 7 1 = sampleTrade ∧
      tradeIndexed.getLowestLiquidationTime 7 100 = (50, [1]) ∧
      absentRemoved.2 = .ok () ∧ absentRemoved.1.getLendingTrade 7 1 = sampleTrade ∧
      absentRemoved.1.getLowestLiquidationTime 7 100 = (0, [])) ∧
    (((tradeIndexedAfterSnapshot.revertToSnapshot emptySnapshot.2).map fun db =>
        db.getLendingTrade 7 1) = some emptyLendingTrade ∧
      ((tradeIndexedAfterSnapshot.revertToSnapshot emptySnapshot.2).map fun db =>
        db.getLowestLiquidationTime 7 100) = some (50, [1])) := by
  decide

end XdcSubnet.XDCxLending.LendingStateDB
