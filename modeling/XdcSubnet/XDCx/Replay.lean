import XdcSubnet.XDCx.MatchingSteps
import XdcSubnet.XDCx.OrderBook

/-!
# Order nonces (`ApplyOrder`, `CommitOrder`)

A user's trading nonce is the nonce of the exchange object keyed by the user's address.
`ApplyOrder` compares it with the order's nonce, after Go's `uint64` to `int64` conversion, and
on a match sets it to the next `uint64`.  Everything else an order does to the trading state
happens at its order book (`TradingStateDB.ChangedAt`): matching, cancelling, listing what is
left, and reverting a failed match, which undoes entries of the book only.

So for an order book that is not the user's key:
* a wrong nonce is refused with `ErrNonceTooHigh` or `ErrNonceTooLow`, and both databases are
  left as they were, the snapshot counter of the trading state's journal aside
  (`commitOrder_of_ne`);
* the right nonce is taken, whatever becomes of the order, and the user's nonce becomes the next
  one modulo `2 ^ 64` (`commitOrder_of_eq`).
-/

namespace XdcSubnet.XDCx

open WriteBack Journal Loop

/-- The exchange a journal entry belongs to. -/
def JournalEntry.key : JournalEntry → Hash
  | .insertOrder orderBook .. | .cancelOrder orderBook .. | .subAmountOrder orderBook .. => orderBook
  | .nonceChange h _ | .lastPriceChange h _ | .mediumPriceChange h .. => h
  | .mediumPriceBeforeEpochChange h _ => h
  | .insertLiquidationPrice orderBook .. | .removeLiquidationPrice orderBook .. => orderBook

namespace TradingStateDB

/-- `db'` is `db` changed at the exchange `h` only: every other exchange and the snapshots are
as they were, and the journal has grown by entries of `h`. -/
structure ChangedAt (h : Hash) (db db' : TradingStateDB) : Prop where
  get_ne : ∀ u, u ≠ h → db'.exchanges.get u = db.exchanges.get u
  validRevisions : db'.log.validRevisions = db.log.validRevisions
  entries : ∃ es, db'.log.entries = db.log.entries ++ es ∧ ∀ e ∈ es, e.key = h

namespace ChangedAt

variable {h : Hash} {db db₁ db₂ : TradingStateDB}

theorem refl (db : TradingStateDB) : ChangedAt h db db :=
  ⟨fun _ _ => rfl, rfl, ⟨[], by simp, by simp⟩⟩

theorem trans (h₁ : ChangedAt h db db₁) (h₂ : ChangedAt h db₁ db₂) : ChangedAt h db db₂ where
  get_ne u hu := (h₂.get_ne u hu).trans (h₁.get_ne u hu)
  validRevisions := h₂.validRevisions.trans h₁.validRevisions
  entries := by
    obtain ⟨es₁, he₁, hk₁⟩ := h₁.entries
    obtain ⟨es₂, he₂, hk₂⟩ := h₂.entries
    refine ⟨es₁ ++ es₂, by rw [he₂, he₁, List.append_assoc], fun e he => ?_⟩
    rcases List.mem_append.1 he with he | he
    · exact hk₁ e he
    · exact hk₂ e he

theorem getNonce_eq (hc : ChangedAt h db db') {u : Hash} (hu : u ≠ h) :
    db'.getNonce u = db.getNonce u := by
  unfold getNonce
  rw [hc.get_ne u hu]

end ChangedAt

/-! ### Each write is at one exchange -/

theorem changedAt_getOrNewExchange (db : TradingStateDB) (h : Hash) :
    ChangedAt h db (db.getOrNewExchange h).1 := by
  unfold getOrNewExchange
  split
  · exact .refl db
  · refine ⟨fun u hu => ?_, rfl, ⟨[], by simp, by simp⟩⟩
    simp [Store.get_create_ne _ _ hu]

theorem changedAt_putExchange (db : TradingStateDB) (h : Hash) (x : Exchange) (fired : Bool) :
    ChangedAt h db (db.putExchange h x fired) := by
  refine ⟨fun u hu => ?_, rfl, ⟨[], by simp [putExchange], by simp⟩⟩
  unfold putExchange
  split <;> simp [Store.get_update_ne _ _ hu]

theorem changedAt_record (db : TradingStateDB) {h : Hash} {e : JournalEntry} (he : e.key = h) :
    ChangedAt h db (db.record e) :=
  ⟨fun _ _ => rfl, rfl, ⟨[e], rfl, by simpa using he⟩⟩

/-- Reading an exchange, then recording an entry of it and writing it back. -/
theorem changedAt_record_putExchange (db : TradingStateDB) {h : Hash} {e : JournalEntry}
    (he : e.key = h) (x : Exchange) (fired : Bool) :
    ChangedAt h db ((db.record e).putExchange h x fired) :=
  (changedAt_record db he).trans (changedAt_putExchange _ h x fired)

theorem get_putExchange_self (db : TradingStateDB) (h : Hash) (x : Exchange) (fired : Bool) :
    (db.putExchange h x fired).exchanges.get h = some x := by
  unfold putExchange
  split <;> simp

theorem changedAt_setExchangeField {entry : Hash → Exchange → JournalEntry}
    {set : Exchange → Exchange} {h : Hash} (hentry : ∀ x, (entry h x).key = h)
    (db : TradingStateDB) : ChangedAt h db (setExchangeField entry set db h) := by
  have h₁ := changedAt_getOrNewExchange db h
  rcases hg : db.getOrNewExchange h with ⟨db₁, x⟩
  rw [hg] at h₁
  simp only [setExchangeField, hg]
  exact h₁.trans (changedAt_record_putExchange _ (hentry x) _ _)

theorem changedAt_setNonce (db : TradingStateDB) (h : Hash) (nonce : ℕ) :
    ChangedAt h db (db.setNonce h nonce) :=
  changedAt_setExchangeField (fun _ => rfl) db

theorem changedAt_setLastPrice (db : TradingStateDB) (h : Hash) (price : Option ℕ) :
    ChangedAt h db (db.setLastPrice h price) :=
  changedAt_setExchangeField (fun _ => rfl) db

theorem changedAt_setMediumPrice (db : TradingStateDB) (h : Hash) (price quantity : ℕ) :
    ChangedAt h db (db.setMediumPrice h price quantity) :=
  changedAt_setExchangeField (fun _ => rfl) db

theorem changedAt_setMediumPriceBeforeEpoch (db : TradingStateDB) (h : Hash) (price : ℕ) :
    ChangedAt h db (db.setMediumPriceBeforeEpoch h price) :=
  changedAt_setExchangeField (fun _ => rfl) db

theorem getNonce_setNonce (db : TradingStateDB) (h : Hash) (nonce : ℕ) :
    (db.setNonce h nonce).getNonce h = nonce := by
  rcases hg : db.getOrNewExchange h with ⟨db₁, x⟩
  simp only [setNonce, setExchangeField, hg, getNonce, get_putExchange_self, Option.map_some,
    Option.getD_some]

theorem changedAt_insertOrderItem (db : TradingStateDB) (orderBook orderId : Hash)
    (order : OrderItem) : ChangedAt orderBook db (db.insertOrderItem orderBook orderId order) := by
  have h₁ := changedAt_getOrNewExchange db orderBook
  rcases hg : db.getOrNewExchange orderBook with ⟨db₁, x⟩
  rw [hg] at h₁
  simp only [insertOrderItem, hg]
  split
  · exact h₁
  · exact h₁.trans (changedAt_record_putExchange _ (by rfl) _ _)

theorem changedAt_subAmountOrderItem (db : TradingStateDB) (orderBook orderId : Hash)
    (price amount : ℕ) (side : Side) :
    ChangedAt orderBook db (db.subAmountOrderItem orderBook orderId price amount side).1 := by
  have h₁ := changedAt_getOrNewExchange db orderBook
  rcases hg : db.getOrNewExchange orderBook with ⟨db₁, x⟩
  rw [hg] at h₁
  simp only [subAmountOrderItem, hg]
  repeat' split
  all_goals first
    | with_reducible exact h₁
    | (with_reducible refine h₁.trans (changedAt_record_putExchange _ ?_ _ _)); rfl

theorem changedAt_cancelOrder (db : TradingStateDB) (orderBook : Hash) (order : OrderItem) :
    ChangedAt orderBook db (db.cancelOrder orderBook order).1 := by
  have h₁ := changedAt_getOrNewExchange db orderBook
  rcases hg : db.getOrNewExchange orderBook with ⟨db₁, x⟩
  rw [hg] at h₁
  simp only [cancelOrder, hg]
  repeat' split
  all_goals first
    | with_reducible exact h₁
    | (with_reducible refine h₁.trans (changedAt_record_putExchange _ ?_ _ _)); rfl

theorem changedAt_insertLiquidationPrice (db : TradingStateDB) (orderBook : Hash) (price : ℕ)
    (lendingBook : Hash) (tradeId : ℕ) :
    ChangedAt orderBook db (db.insertLiquidationPrice orderBook price lendingBook tradeId) := by
  have h₁ := changedAt_getOrNewExchange db orderBook
  rcases hg : db.getOrNewExchange orderBook with ⟨db₁, x⟩
  rw [hg] at h₁
  simp only [insertLiquidationPrice, hg]
  exact h₁.trans ((changedAt_putExchange _ _ _ _).trans (changedAt_record _ (by rfl)))

theorem changedAt_removeLiquidationPrice (db : TradingStateDB) (orderBook : Hash) (price : ℕ)
    (lendingBook : Hash) (tradeId : ℕ) :
    ChangedAt orderBook db (db.removeLiquidationPrice orderBook price lendingBook tradeId).1 := by
  unfold removeLiquidationPrice
  repeat' split
  all_goals first
    | with_reducible exact .refl db
    | (with_reducible refine (changedAt_putExchange _ _ _ _).trans (changedAt_record _ ?_)); rfl

theorem changedAt_undoSubAmount (db : TradingStateDB) (orderBook orderId : Hash) (order : OrderItem)
    (amount : ℕ) : ChangedAt orderBook db (db.undoSubAmount orderBook orderId order amount) := by
  unfold undoSubAmount
  repeat' split
  all_goals first
    | with_reducible exact .refl db
    | with_reducible exact changedAt_putExchange _ _ _ _

/-- **Every undo is at the exchange of its entry.** -/
theorem changedAt_undo (db : TradingStateDB) (e : JournalEntry) : ChangedAt e.key db (db.undo e) := by
  cases e with
  | insertOrder orderBook orderId order => exact changedAt_cancelOrder db orderBook order
  | cancelOrder orderBook orderId order => exact changedAt_insertOrderItem db orderBook orderId order
  | subAmountOrder orderBook orderId order amount =>
    exact changedAt_undoSubAmount db orderBook orderId order amount
  | nonceChange h prev => exact changedAt_setNonce db h prev
  | lastPriceChange h prev => exact changedAt_setLastPrice db h prev
  | mediumPriceChange h price quantity => exact changedAt_setMediumPrice db h price quantity
  | mediumPriceBeforeEpochChange h price => exact changedAt_setMediumPriceBeforeEpoch db h price
  | insertLiquidationPrice orderBook price lendingBook tradeId =>
    exact changedAt_removeLiquidationPrice db orderBook price lendingBook tradeId
  | removeLiquidationPrice orderBook price lendingBook tradeId =>
    exact changedAt_insertLiquidationPrice db orderBook price lendingBook tradeId

/-- Undoing entries of other exchanges leaves an exchange as it was. -/
theorem get_unwind_of_ne {es : List JournalEntry} {u : Hash} (hes : ∀ e ∈ es, e.key ≠ u)
    (db : TradingStateDB) : (unwind undo es db).exchanges.get u = db.exchanges.get u :=
  unwind_preserves_of_mem undo (fun db => db.exchanges.get u)
    (fun db e he => (changedAt_undo db e).get_ne u (hes e he).symm) db

/-- **Reverting to a snapshot** after entries `es`: the entries are undone, and the journal and
the snapshots are back to where they were when the snapshot was taken. -/
theorem revertToSnapshot_snapshot {db db' : TradingStateDB} {es : List JournalEntry}
    (hv : db'.log.validRevisions = db.snapshot.1.log.validRevisions)
    (he : db'.log.entries = db.log.entries ++ es) :
    ∃ db'', db'.revertToSnapshot db.snapshot.2 = some db'' ∧
      db''.exchanges = (unwind undo es db').exchanges ∧ db''.log.entries = db.log.entries ∧
      db''.log.validRevisions = db.log.validRevisions := by
  have hfind : db'.log.find db.snapshot.2 =
      some (db.log.validRevisions.length, ⟨db.log.nextRevisionId, db.log.entries.length⟩) := by
    rw [Log.find_of_validRevisions_eq hv]
    exact Log.find_snapshot db.log
  unfold revertToSnapshot
  rw [hfind]
  refine ⟨_, rfl, ?_, ?_, ?_⟩
  · simp [he]
  · simp [Log.revert, he]
  · simp only [Log.revert, hv]
    simp [snapshot, Log.snapshot]

end TradingStateDB

/-! ### What an order does to the trading state -/

open TradingStateDB

/-- Being changed at the order book only is kept by the writes of matching. -/
theorem keptByMatching_changedAt (orderBook : Hash) (db₀ : TradingStateDB) :
    KeptByMatching orderBook (ChangedAt orderBook db₀) where
  cancelOrder db order h := h.trans (changedAt_cancelOrder db orderBook order)
  subAmountOrderItem db orderId price amount side _ h :=
    h.trans (changedAt_subAmountOrderItem db orderBook orderId price amount side)
  setLastPrice db price h := h.trans (changedAt_setLastPrice db orderBook price)
  setMediumPrice db price quantity h := h.trans (changedAt_setMediumPrice db orderBook price quantity)

namespace XDCX

variable (xdcx : XDCX) {fuel : ℕ} {coinbase : Hash} {statedb statedb' : StateDB}
  {db db' : TradingStateDB} {orderBook : Hash}

theorem matched_tradingStateDB (r : Except (MatchError × Matching) Matching) :
    (matched r).2.1 = (final r).tradingStateDB := by
  rcases r with ⟨e, s⟩ | s <;> rfl

theorem processMarketOrder_changedAt {order : TradedOrder} {r : Matched}
    (h : xdcx.processMarketOrder fuel coinbase statedb db orderBook order = some r) :
    ChangedAt orderBook db r.2.1 := by
  obtain ⟨r₀, hr₀, rfl⟩ := Option.map_eq_some_iff.1 h
  rw [matched_tradingStateDB]
  exact (keptByMatching_changedAt orderBook db).matchBestPrices xdcx hr₀ (.refl db)

theorem processLimitOrder_changedAt {order : TradedOrder} {r : Matched}
    (h : xdcx.processLimitOrder fuel coinbase statedb db orderBook order = some r) :
    ChangedAt orderBook db r.2.1 := by
  obtain ⟨r₀, hr₀, rfl⟩ := Option.map_eq_some_iff.1 h
  have hmatch := (keptByMatching_changedAt orderBook db).matchBestPrices xdcx hr₀ (.refl db)
  rcases r₀ with ⟨e, s⟩ | s
  · exact hmatch
  · dsimp only
    split
    · exact hmatch.trans ((changedAt_setNonce _ _ _).trans (changedAt_insertOrderItem _ _ _ _))
    · exact hmatch

theorem processCancelOrder_changedAt (order : PlacedOrder) :
    ChangedAt orderBook db (xdcx.processCancelOrder coinbase db statedb orderBook order).2.1 := by
  have h₁ := changedAt_cancelOrder db orderBook order.toOrderItem
  rcases hc : db.cancelOrder orderBook order.toOrderItem with ⟨db₁, r⟩
  rw [hc] at h₁
  unfold processCancelOrder
  simp only [hc]
  repeat' split
  all_goals first
    | with_reducible exact .refl db
    | with_reducible exact h₁

/-- The revert of a failed match keeps every exchange but the book's as it was before the
snapshot. -/
theorem revertToSnapshot_get_ne {db db' : TradingStateDB} {h u : Hash}
    (hc : ChangedAt h db.snapshot.1 db') (hu : u ≠ h) :
    ∃ db'', db'.revertToSnapshot db.snapshot.2 = some db'' ∧
      db''.exchanges.get u = db.exchanges.get u := by
  obtain ⟨es, he, hk⟩ := hc.entries
  obtain ⟨db'', hr, hx, -, -⟩ := revertToSnapshot_snapshot hc.validRevisions he
  refine ⟨db'', hr, ?_⟩
  have hes : ∀ e ∈ es, e.key ≠ u := fun e he' => (hk e he').symm ▸ hu.symm
  rw [hx, get_unwind_of_ne hes, hc.get_ne u hu]
  rfl

theorem applyOrder_of_lt {order : PlacedOrder}
    (h : int64OfUInt64 (db.getNonce order.userAddress) < order.nonce) :
    xdcx.applyOrder fuel coinbase statedb db orderBook order =
      some (.error .nonceTooHigh, db, statedb) := by
  simp [applyOrder, h]

theorem applyOrder_of_gt {order : PlacedOrder}
    (h : order.nonce < int64OfUInt64 (db.getNonce order.userAddress)) :
    xdcx.applyOrder fuel coinbase statedb db orderBook order =
      some (.error .nonceTooLow, db, statedb) := by
  simp [applyOrder, h, not_lt.2 h.le]

/-- **The right nonce is taken**: whatever becomes of the order, `ApplyOrder` returns no error and
the user's nonce is the next `uint64`. -/
theorem applyOrder_of_eq {order : PlacedOrder} (hkey : orderBook ≠ order.userAddress)
    (heq : int64OfUInt64 (db.getNonce order.userAddress) = order.nonce) {r : Applied}
    (h : xdcx.applyOrder fuel coinbase statedb db orderBook order = some r) :
    r.1.isOk ∧ r.2.1.getNonce order.userAddress = (db.getNonce order.userAddress + 1) % 2 ^ 64 := by
  have hu : order.userAddress ≠ orderBook := hkey.symm
  have hnot₁ : ¬ int64OfUInt64 (db.getNonce order.userAddress) < order.nonce := by
    rw [heq]; exact lt_irrefl _
  have hnot₂ : ¬ order.nonce < int64OfUInt64 (db.getNonce order.userAddress) := by
    rw [heq]; exact lt_irrefl _
  -- the state after the nonce is set and the snapshot is taken
  set dbS := db.setNonce order.userAddress ((db.getNonce order.userAddress + 1) % 2 ^ 64) with hdbS
  have hnonce : dbS.snapshot.1.getNonce order.userAddress =
      (db.getNonce order.userAddress + 1) % 2 ^ 64 := getNonce_setNonce _ _ _
  simp only [applyOrder, hnot₁, hnot₂, if_false, ← hdbS] at h
  split_ifs at h
  -- the rejections, and the cancellation, whose error is dropped
  any_goals
    cases h
    refine ⟨rfl, ?_⟩
    first
      | with_reducible exact hnonce
      | exact ((xdcx.processCancelOrder_changedAt order).getNonce_eq hu).trans hnonce
  -- a market or a limit order is matched; a failed match is reverted
  all_goals
    obtain ⟨⟨res, db', statedb'⟩, hp, hf⟩ := Option.bind_eq_some_iff.1 h
    have hc : ChangedAt orderBook dbS.snapshot.1 db' := by
      first
        | exact xdcx.processMarketOrder_changedAt hp
        | exact xdcx.processLimitOrder_changedAt hp
    rcases res with e | x
    · obtain ⟨db'', hr, hget⟩ := revertToSnapshot_get_ne hc hu
      simp only [hr, Option.map_some, Option.some.injEq] at hf
      subst hf
      refine ⟨rfl, ?_⟩
      unfold getNonce
      rw [hget]
      exact hnonce
    · cases hf
      exact ⟨rfl, (hc.getNonce_eq hu).trans hnonce⟩

end XDCX

/-! ### `CommitOrder` -/

/-- **A wrong nonce is refused**, with the error the comparison names, before any write: the
account state, the exchanges, the journal and the snapshots are left as they were, and only the
journal's counter of snapshot ids has moved on. -/
theorem commitOrder_of_ne (xdcx : XDCX) (fuel : ℕ) (coinbase : Hash) (statedb : StateDB)
    (db : TradingStateDB) (orderBook : Hash) (order : PlacedOrder)
    (hne : int64OfUInt64 (db.getNonce order.userAddress) ≠ order.nonce) :
    ∃ db', xdcx.commitOrder fuel coinbase statedb db orderBook order =
        some (.error (if int64OfUInt64 (db.getNonce order.userAddress) < order.nonce then
          .nonceTooHigh else .nonceTooLow), db', statedb) ∧
      db'.exchanges = db.exchanges ∧ db'.log.entries = db.log.entries ∧
      db'.log.validRevisions = db.log.validRevisions := by
  -- the error comes before any write, so the revert undoes nothing
  have happly : xdcx.applyOrder fuel coinbase statedb db.snapshot.1 orderBook order =
      some (.error (if int64OfUInt64 (db.getNonce order.userAddress) < order.nonce then
        .nonceTooHigh else .nonceTooLow), db.snapshot.1, statedb) := by
    split_ifs with hlt
    · exact XDCX.applyOrder_of_lt xdcx hlt
    · exact XDCX.applyOrder_of_gt xdcx (lt_of_le_of_ne (not_lt.1 hlt) (Ne.symm hne))
  obtain ⟨db', hr, hx, hentries, hvalid⟩ :=
    revertToSnapshot_snapshot
      (show db.snapshot.1.log.validRevisions = db.snapshot.1.log.validRevisions from rfl)
      (show db.snapshot.1.log.entries = db.log.entries ++ [] from (List.append_nil _).symm)
  refine ⟨db', ?_, hx, hentries, hvalid⟩
  simp only [XDCX.commitOrder, happly, Option.bind_some, hr, Option.map_some]

/-- **The right nonce is taken**: for an order book that is not the user's key, whatever becomes
of the order, `CommitOrder` returns no error and leaves the user's nonce at the next `uint64`. -/
theorem commitOrder_of_eq (xdcx : XDCX) {fuel : ℕ} {coinbase : Hash} {statedb : StateDB}
    {db : TradingStateDB} {orderBook : Hash} {order : PlacedOrder}
    (hkey : orderBook ≠ order.userAddress)
    (heq : int64OfUInt64 (db.getNonce order.userAddress) = order.nonce) {r : XDCX.Applied}
    (h : xdcx.commitOrder fuel coinbase statedb db orderBook order = some r) :
    r.1.isOk ∧ r.2.1.getNonce order.userAddress = (db.getNonce order.userAddress + 1) % 2 ^ 64 := by
  -- the snapshot leaves the exchanges, and so the nonce, as they were
  have heq' : int64OfUInt64 (db.snapshot.1.getNonce order.userAddress) = order.nonce := heq
  obtain ⟨r', hr', hf⟩ := Option.bind_eq_some_iff.1 h
  obtain ⟨hok, hnonce⟩ := XDCX.applyOrder_of_eq xdcx hkey heq' hr'
  rcases r' with ⟨e | x, db', statedb'⟩
  · cases hok
  · cases hf
    exact ⟨rfl, hnonce⟩

end XdcSubnet.XDCx
