import XdcSubnet.XDCx.UndoWrites

/-!
# Reverting a failed match gives the book back

When matching fails, `ApplyOrder` reverts the trading state to the snapshot it took just before.
The revert undoes the journal entries that matching recorded, newest first, each by a forward
operation (`undo`).  It does not give the state back (`revertToSnapshot_misses_restored_ask`),
but it gives the book back up to `Exchange.Restores`:

* every write of matching records one entry, or nothing when it fails, and then it changes
  nothing (`cancelOrder_log`, `subAmountOrderItem_log`, `log_setLastPrice`, `log_setMediumPrice`);
* from a state with the book invariant, the entry a write records undoes it up to `Restores`
  (`undoesUpTo_cancelOrder`, `undoesUpTo_subAmountOrderItem`, `undoesUpTo_setLastPrice`,
  `undoesUpTo_setMediumPrice`);
* so every run of matching keeps the invariant and is recorded up to `Restores`
  (`keptByMatching_unwindable`), and reverting it gives the book back
  (`Unwindable.revertToSnapshot`).
-/

namespace XdcSubnet.XDCx

open WriteBack Journal

namespace TradingStateDB

/-- `b` gives back the book of `a` at `orderBook`. -/
def RestoresAt (orderBook : Hash) (a b : TradingStateDB) : Prop :=
  (a.exchangeAt orderBook).Restores (b.exchangeAt orderBook)

/-! ### What each write records -/

@[simp] theorem log_getOrNewExchange (db : TradingStateDB) (h : Hash) :
    (db.getOrNewExchange h).1.log = db.log := by
  unfold getOrNewExchange
  split <;> rfl

@[simp] theorem log_putExchange (db : TradingStateDB) (h : Hash) (x : Exchange) (fired : Bool) :
    (db.putExchange h x fired).log = db.log := rfl

@[simp] theorem log_record (db : TradingStateDB) (e : JournalEntry) :
    (db.record e).log = db.log.append e := rfl

theorem log_setExchangeField (entry : Hash → Exchange → JournalEntry) (set : Exchange → Exchange)
    (db : TradingStateDB) (h : Hash) :
    (setExchangeField entry set db h).log = db.log.append (entry h (db.exchangeAt h)) := by
  rcases hg : db.getOrNewExchange h with ⟨db₁, x⟩
  have hx : x = db.exchangeAt h := by rw [← getOrNewExchange_snd, hg]
  have hlog : db₁.log = db.log := by rw [← log_getOrNewExchange db h, hg]
  simp only [setExchangeField, hg, log_putExchange, log_record, hx, hlog]

theorem log_setLastPrice (db : TradingStateDB) (h : Hash) (price : Option ℕ) :
    (db.setLastPrice h price).log = db.log.append (.lastPriceChange h (db.exchangeAt h).lastPrice) :=
  log_setExchangeField _ _ db h

theorem log_setMediumPrice (db : TradingStateDB) (h : Hash) (price quantity : ℕ) :
    (db.setMediumPrice h price quantity).log = db.log.append
      (.mediumPriceChange h (db.exchangeAt h).mediumPrice (db.exchangeAt h).totalQuantity) :=
  log_setExchangeField _ _ db h

/-- **What `CancelOrder` records**: nothing, with an error; or the entry of the stored item, which
has a quantity. -/
theorem cancelOrder_log (db : TradingStateDB) (orderBook : Hash) (order : OrderItem) :
    (db.cancelOrder orderBook order).1.log = db.log ∧ (db.cancelOrder orderBook order).2 ≠ .ok () ∨
    ∃ item, (db.exchangeAt orderBook).orders.get order.orderID = some item ∧ 0 < item.quantity ∧
      (db.cancelOrder orderBook order).1.log =
        db.log.append (.cancelOrder orderBook order.orderID item) ∧
      (db.cancelOrder orderBook order).2 = .ok () := by
  have hx := getOrNewExchange_snd db orderBook
  have hlog := log_getOrNewExchange db orderBook
  rcases hg : db.getOrNewExchange orderBook with ⟨db₁, x⟩
  rw [hg] at hx hlog
  dsimp only at hx hlog
  subst hx
  simp only [cancelOrder, hg]
  repeat' split
  all_goals first
    | exact .inl ⟨hlog, fun h => by cases h⟩
    | refine .inr ⟨_, ‹_›, Nat.pos_of_ne_zero fun hzero => ?_, by simp [hlog], rfl⟩
  -- the item passed the emptiness check
  all_goals simp_all [OrderItem.empty]

/-- **What `SubAmountOrderItem` records**: nothing, with an error; or the entry of the stored
item. -/
theorem subAmountOrderItem_log (db : TradingStateDB) (orderBook orderId : Hash) (price amount : ℕ)
    (side : Side) :
    (db.subAmountOrderItem orderBook orderId price amount side).1.log = db.log ∧
      (db.subAmountOrderItem orderBook orderId price amount side).2 ≠ .ok () ∨
    ∃ item, (db.exchangeAt orderBook).orders.get orderId = some item ∧
      (db.subAmountOrderItem orderBook orderId price amount side).1.log =
        db.log.append (.subAmountOrder orderBook orderId item amount) ∧
      (db.subAmountOrderItem orderBook orderId price amount side).2 = .ok () := by
  have hx := getOrNewExchange_snd db orderBook
  have hlog := log_getOrNewExchange db orderBook
  rcases hg : db.getOrNewExchange orderBook with ⟨db₁, x⟩
  rw [hg] at hx hlog
  dsimp only at hx hlog
  subst hx
  simp only [subAmountOrderItem, hg]
  repeat' split
  all_goals first
    | exact .inl ⟨hlog, fun h => by cases h⟩
    | exact .inr ⟨_, ‹_›, by simp [hlog], rfl⟩

/-! ### Each entry undoes its write up to `Restores` -/

variable {db : TradingStateDB} {orderBook : Hash}

theorem undoesUpTo_cancelOrder (hi : (db.exchangeAt orderBook).Invariant) {order item : OrderItem}
    (hitem : (db.exchangeAt orderBook).orders.get order.orderID = some item)
    (hpos : 0 < item.quantity) (hok : (db.cancelOrder orderBook order).2 = .ok ()) :
    UndoesUpTo undo (RestoresAt orderBook) (.cancelOrder orderBook order.orderID item) db
      (db.cancelOrder orderBook order).1 := by
  intro t' ht'
  rcases cancelOrder_cases db orderBook order with
    ⟨-, hne⟩ | ⟨item', lists, l, hitem', hlists, hl, -, heq⟩
  · exact absurd hok hne
  rw [hitem] at hitem'
  cases hitem'
  -- the item has a quantity, so it is listed on its level with it, under its own id
  have hlevel : (db.exchangeAt orderBook).level item.side item.price = some l := by
    rw [Exchange.level_of_orderLists hlists, hl]
  obtain ⟨l', hl', hlookup⟩ := hi.listed _ _ hitem hpos
  rw [hlevel] at hl'
  cases hl'
  obtain ⟨-, item', hitem', -, -, -, hid⟩ :=
    (((Exchange.consistent_iff _).1 hi.consistent).1 _ _ l hlevel).listed _ _ hlookup
  rw [hitem] at hitem'
  cases hitem'
  unfold RestoresAt at ht' ⊢
  rw [heq] at ht'
  show (db.exchangeAt orderBook).Restores
    ((t'.insertOrderItem orderBook order.orderID item).exchangeAt orderBook)
  rw [exchangeAt_insertOrderItem]
  exact (Exchange.restores_insertOrder_cancel hlists hl hitem hlookup hid).trans
    (ht'.insertOrder _ _)

theorem undoesUpTo_subAmountOrderItem (hi : (db.exchangeAt orderBook).Invariant)
    {orderId : Hash} {price amount : ℕ} {side : Side} (hpos : 0 < amount) {item : OrderItem}
    (hitem : (db.exchangeAt orderBook).orders.get orderId = some item)
    (hok : (db.subAmountOrderItem orderBook orderId price amount side).2 = .ok ()) :
    UndoesUpTo undo (RestoresAt orderBook) (.subAmountOrder orderBook orderId item amount) db
      (db.subAmountOrderItem orderBook orderId price amount side).1 := by
  intro t' ht'
  rcases subAmountOrderItem_cases db orderBook orderId price amount side with
    ⟨-, hne⟩ | ⟨lists, l, item', hlists, hl, hitem', hle, -, heq⟩
  · exact absurd hok hne
  rw [hitem] at hitem'
  cases hitem'
  -- the amount is positive, so the order is listed on this side and price, with its quantity
  obtain ⟨item', hitem', hq, hside, hprice, -⟩ :=
    BookConsistent.item_of_listed (show db.BookConsistent orderBook from hi.consistent) hlists hl
      (show 0 < l.getOrderAmount orderId by omega)
  rw [hitem] at hitem'
  cases hitem'
  subst hside hprice
  have hlookup : l.amounts.lookup orderId = some item.quantity := by
    rw [hq]
    exact OrderList.lookup_of_getOrderAmount_pos (by omega)
  unfold RestoresAt at ht' ⊢
  rw [heq, ← hq] at ht'
  show (db.exchangeAt orderBook).Restores
    ((t'.undoSubAmount orderBook orderId item amount).exchangeAt orderBook)
  rw [exchangeAt_undoSubAmount]
  exact (Exchange.restores_undoSubAmount_fill hlists hl hitem hlookup (by omega)).trans
    (ht'.undoSubAmount _ _ _)

theorem undoesUpTo_setLastPrice (db : TradingStateDB) (price : Option ℕ) :
    UndoesUpTo undo (RestoresAt orderBook)
      (.lastPriceChange orderBook (db.exchangeAt orderBook).lastPrice) db
      (db.setLastPrice orderBook price) := by
  intro t' ht'
  unfold RestoresAt at ht' ⊢
  show (db.exchangeAt orderBook).Restores
    ((t'.setLastPrice orderBook (db.exchangeAt orderBook).lastPrice).exchangeAt orderBook)
  rw [exchangeAt_setLastPrice] at ht' ⊢
  have hset : (db.exchangeAt orderBook).Restores { db.exchangeAt orderBook with lastPrice := price } :=
    .of_tries rfl rfl rfl rfl
  have hback : (t'.exchangeAt orderBook).Restores
      { t'.exchangeAt orderBook with lastPrice := (db.exchangeAt orderBook).lastPrice } :=
    .of_tries rfl rfl rfl rfl
  exact hset.trans (ht'.trans hback)

theorem undoesUpTo_setMediumPrice (db : TradingStateDB) (price quantity : ℕ) :
    UndoesUpTo undo (RestoresAt orderBook)
      (.mediumPriceChange orderBook (db.exchangeAt orderBook).mediumPrice
        (db.exchangeAt orderBook).totalQuantity) db
      (db.setMediumPrice orderBook price quantity) := by
  intro t' ht'
  unfold RestoresAt at ht' ⊢
  show (db.exchangeAt orderBook).Restores
    ((t'.setMediumPrice orderBook (db.exchangeAt orderBook).mediumPrice
      (db.exchangeAt orderBook).totalQuantity).exchangeAt orderBook)
  rw [exchangeAt_setMediumPrice] at ht' ⊢
  have hset : (db.exchangeAt orderBook).Restores
      { db.exchangeAt orderBook with mediumPrice := price, totalQuantity := quantity } :=
    .of_tries rfl rfl rfl rfl
  have hback : (t'.exchangeAt orderBook).Restores
      { t'.exchangeAt orderBook with
        mediumPrice := (db.exchangeAt orderBook).mediumPrice
        totalQuantity := (db.exchangeAt orderBook).totalQuantity } :=
    .of_tries rfl rfl rfl rfl
  exact hset.trans (ht'.trans hback)

/-! ### Runs of matching -/

/-- The state of a run of matching from `db₀` at `orderBook`: the book invariant holds, and the
journal has grown by entries that undo the run up to `Restores`. -/
structure Unwindable (orderBook : Hash) (db₀ db : TradingStateDB) : Prop where
  invariant : (db.exchangeAt orderBook).Invariant
  recorded : ∃ es, db.log.entries = db₀.log.entries ++ es ∧
    RecordedUpTo undo (RestoresAt orderBook) db₀ es db

namespace Unwindable

variable {db₀ db' : TradingStateDB}

theorem start (hi : (db₀.exchangeAt orderBook).Invariant) : Unwindable orderBook db₀ db₀ :=
  ⟨hi, [], by simp, .refl⟩

/-- A write that records `e`, which undoes it. -/
theorem step (h : Unwindable orderBook db₀ db) (hi : (db'.exchangeAt orderBook).Invariant)
    {e : JournalEntry} (hlog : db'.log = db.log.append e)
    (hundo : UndoesUpTo undo (RestoresAt orderBook) e db db') : Unwindable orderBook db₀ db' := by
  obtain ⟨es, hes, hrec⟩ := h.recorded
  exact ⟨hi, es ++ [e], by rw [hlog, Log.entries_append, hes, List.append_assoc], hrec.step hundo⟩

/-- A write that records nothing and leaves the book. -/
theorem silent (h : Unwindable orderBook db₀ db) (hlog : db'.log = db.log)
    (hsame : db'.exchangeAt orderBook = db.exchangeAt orderBook) : Unwindable orderBook db₀ db' := by
  obtain ⟨es, hes, hrec⟩ := h.recorded
  refine ⟨hsame ▸ h.invariant, es, by rw [hlog, hes], hrec.silent ?_⟩
  unfold RestoresAt
  rw [hsame]
  exact .refl _

end Unwindable

end TradingStateDB

open TradingStateDB

/-- **Every run of matching is recorded up to `Restores`**, and keeps the book invariant. -/
theorem keptByMatching_unwindable (orderBook : Hash) (db₀ : TradingStateDB) :
    KeptByMatching orderBook (Unwindable orderBook db₀) where
  cancelOrder db order h := by
    rcases cancelOrder_log db orderBook order with ⟨hlog, hne⟩ | ⟨item, hitem, hpos, hlog, hok⟩
    · -- a failed cancel changes nothing
      have hsame := ((cancelOrder_cases db orderBook order).resolve_right
        fun ⟨_, _, _, _, _, _, hok, _⟩ => hne hok).1
      exact h.silent hlog hsame
    · exact h.step ((keptByMatching_invariant orderBook).cancelOrder db order h.invariant) hlog
        (undoesUpTo_cancelOrder h.invariant hitem hpos hok)
  subAmountOrderItem db orderId price amount side hpos h := by
    rcases subAmountOrderItem_log db orderBook orderId price amount side with
      ⟨hlog, hne⟩ | ⟨item, hitem, hlog, hok⟩
    · have hsame := ((subAmountOrderItem_cases db orderBook orderId price amount side).resolve_right
        fun ⟨_, _, _, _, _, _, _, hok, _⟩ => hne hok).1
      exact h.silent hlog hsame
    · exact h.step ((keptByMatching_invariant orderBook).subAmountOrderItem db orderId price amount
        side hpos h.invariant) hlog (undoesUpTo_subAmountOrderItem h.invariant hpos hitem hok)
  setLastPrice db price h :=
    h.step ((keptByMatching_invariant orderBook).setLastPrice db price h.invariant)
      (log_setLastPrice db orderBook price) (undoesUpTo_setLastPrice db price)
  setMediumPrice db price quantity h :=
    h.step ((keptByMatching_invariant orderBook).setMediumPrice db price quantity h.invariant)
      (log_setMediumPrice db orderBook price quantity) (undoesUpTo_setMediumPrice db price quantity)

/-- **Reverting a run of matching gives the book back**: after a run from a snapshot of `db`,
the revert to that snapshot gives back, up to `Restores`, the book of `db`. -/
theorem TradingStateDB.Unwindable.revertToSnapshot {db db' : TradingStateDB} {orderBook : Hash}
    (h : Unwindable orderBook db.snapshot.1 db')
    (hv : db'.log.validRevisions = db.snapshot.1.log.validRevisions) :
    ∃ db'', db'.revertToSnapshot db.snapshot.2 = some db'' ∧ RestoresAt orderBook db db'' := by
  obtain ⟨es, hes, hrec⟩ := h.recorded
  obtain ⟨db'', hr, hx, -, -⟩ := revertToSnapshot_snapshot hv hes
  refine ⟨db'', hr, ?_⟩
  -- the revert undoes the recorded entries from the state the run reached
  have hback := unwind_recordedUpTo undo (RestoresAt orderBook)
    (fun h₁ h₂ => Exchange.Restores.trans h₁ h₂) hrec db' (Exchange.Restores.refl _)
  unfold RestoresAt at hback ⊢
  have hat : db''.exchangeAt orderBook = (unwind undo es db').exchangeAt orderBook := by
    simp [exchangeAt, hx]
  rw [hat]
  exact hback

end XdcSubnet.XDCx
