import XdcSubnet.XDCx.RevertMatching

/-!
# Runs of `CommitOrder`

`ProcessOrderPending` calls `CommitOrder` on each order it takes, on the book of the order's
pair.  This module follows the book invariant (`Exchange.Invariant`) through every such run.

* Matching from a snapshot leaves, with a result, a book with the invariant, and with an error a
  state whose revert gives the book back (`processMarketOrder_book`, `processLimitOrder_book`);
  listing what is left of a limit order under the id after the nonce keeps the invariant as long
  as the nonce is below the last `uint64`.
* So `ApplyOrder` and `CommitOrder` keep the invariant at their book, and raise its nonce by at
  most one (`commitOrder_book`), and they leave every other exchange but the user's as it was
  (`commitOrder_get_ne`).
* After any run of matching from a snapshot, the revert to the snapshot gives the book back
  (`matchBestPrices_revert`).
* Over a run of orders (`commitOrders`), the invariant holds at every book that is no order's
  user (`commitOrders_book`).

The samples are the settlement sample's maker and taker as orders of an engine that accepts
them: the maker's order rests on the empty book (`restingDB`), and the taker's matches it.
-/

namespace XdcSubnet.XDCx

open WriteBack Journal Loop TradingStateDB

theorem Exchange.invariant_new : Exchange.new.Invariant where
  consistent := Exchange.consistent_new
  listed _ _ h := by simp [Exchange.new, Store.get, Store.empty] at h
  belowNonce side price j hj := by
    cases side <;> simp [Exchange.levelIds, Exchange.orderLists, Exchange.new, Store.get,
      Store.empty] at hj

namespace TradingStateDB

theorem ChangedAt.exchangeAt_eq {h u : Hash} {db db' : TradingStateDB} (hc : ChangedAt h db db')
    (hu : u ≠ h) : db'.exchangeAt u = db.exchangeAt u := by
  unfold exchangeAt
  rw [hc.get_ne u hu]

@[simp] theorem exchangeAt_snapshot (db : TradingStateDB) (h : Hash) :
    db.snapshot.1.exchangeAt h = db.exchangeAt h := rfl

/-- A revert to a snapshot finds it after any run that only wrote at one book. -/
theorem ChangedAt.revertToSnapshot_isSome {h : Hash} {db db' : TradingStateDB}
    (hc : ChangedAt h db.snapshot.1 db') : (db'.revertToSnapshot db.snapshot.2).isSome := by
  obtain ⟨es, he, -⟩ := hc.entries
  obtain ⟨db'', hr, -⟩ := revertToSnapshot_snapshot hc.validRevisions he
  rw [hr]
  rfl

theorem getNonce_eq (db : TradingStateDB) (h : Hash) : db.getNonce h = (db.exchangeAt h).nonce := by
  unfold getNonce exchangeAt
  cases db.exchanges.get h <;> rfl

theorem exchangeAt_setNonce (db : TradingStateDB) (h : Hash) (nonce : ℕ) :
    (db.setNonce h nonce).exchangeAt h = { db.exchangeAt h with nonce } :=
  exchangeAt_setExchangeField _ _ db h

theorem exchangeAt_empty (orderBook : Hash) : TradingStateDB.empty.exchangeAt orderBook = .new := by
  simp [exchangeAt, TradingStateDB.empty, Store.get, Store.empty]

/-- The empty trading state has the book invariant at every book. -/
theorem invariant_empty (orderBook : Hash) : (TradingStateDB.empty.exchangeAt orderBook).Invariant := by
  rw [exchangeAt_empty]
  exact Exchange.invariant_new

end TradingStateDB

/-! ### Matching from a snapshot -/

/-- A property of the trading state kept by both of two. -/
theorem KeptByMatching.and {orderBook : Hash} {P Q : TradingStateDB → Prop}
    (hP : KeptByMatching orderBook P) (hQ : KeptByMatching orderBook Q) :
    KeptByMatching orderBook fun db => P db ∧ Q db where
  cancelOrder db order h := ⟨hP.cancelOrder db order h.1, hQ.cancelOrder db order h.2⟩
  subAmountOrderItem db orderId price amount side hpos h :=
    ⟨hP.subAmountOrderItem db orderId price amount side hpos h.1,
      hQ.subAmountOrderItem db orderId price amount side hpos h.2⟩
  setLastPrice db price h := ⟨hP.setLastPrice db price h.1, hQ.setLastPrice db price h.2⟩
  setMediumPrice db price quantity h :=
    ⟨hP.setMediumPrice db price quantity h.1, hQ.setMediumPrice db price quantity h.2⟩

/-- Matching never writes the book's nonce. -/
theorem keptByMatching_nonce (orderBook : Hash) (nonce : ℕ) :
    KeptByMatching orderBook fun db => (db.exchangeAt orderBook).nonce = nonce where
  cancelOrder db order h := by
    rcases cancelOrder_cases db orderBook order with ⟨heq, -⟩ | ⟨_, _, _, _, _, _, -, heq⟩
    · rw [heq]
      exact h
    · rw [heq, Exchange.nonce_setOrderAmount]
      exact h
  subAmountOrderItem db orderId price amount side _ h := by
    rcases subAmountOrderItem_cases db orderBook orderId price amount side with
      ⟨heq, -⟩ | ⟨_, _, _, _, _, _, _, -, heq⟩
    · rw [heq]
      exact h
    · rw [heq, Exchange.nonce_setOrderAmount]
      exact h
  setLastPrice db price h := by
    rw [db.exchangeAt_setLastPrice orderBook price]
    exact h
  setMediumPrice db price quantity h := by
    rw [db.exchangeAt_setMediumPrice orderBook price quantity]
    exact h

/-- What a run of matching from a snapshot of `db` keeps at `orderBook`. -/
theorem keptByMatching_run (orderBook : Hash) (db : TradingStateDB) :
    KeptByMatching orderBook fun db' => Unwindable orderBook db.snapshot.1 db' ∧
      ChangedAt orderBook db.snapshot.1 db' ∧
      (db'.exchangeAt orderBook).nonce = (db.exchangeAt orderBook).nonce :=
  (keptByMatching_unwindable orderBook _).and
    ((keptByMatching_changedAt orderBook _).and (keptByMatching_nonce orderBook _))

/-- What a run of matching at `orderBook` from a snapshot of `db` leaves of the book: with a
result, the book invariant, and a nonce at most one above the start's; with an error, a state
whose revert to the snapshot gives the book back. -/
def MatchedBook (orderBook : Hash) (db : TradingStateDB) : XDCX.Matched → Prop
  | (.ok _, db', _) => (db'.exchangeAt orderBook).Invariant ∧
      (db'.exchangeAt orderBook).nonce ≤ (db.exchangeAt orderBook).nonce + 1
  | (.error _, db', _) => ∃ db'', db'.revertToSnapshot db.snapshot.2 = some db'' ∧
      RestoresAt orderBook db db''

namespace XDCX

variable (xdcx : XDCX) {fuel : ℕ} {coinbase : Hash} {statedb : StateDB} {db : TradingStateDB}
  {orderBook : Hash}

/-- The state a finished loop over prices leaves, from a snapshot of a state with the book
invariant. -/
theorem matchBestPrices_run {order : TradedOrder} {crosses : ℕ → Bool} {quantity : ℕ}
    (hi : (db.exchangeAt orderBook).Invariant) {r : Except (MatchError × Matching) Matching}
    (h : xdcx.matchBestPrices fuel coinbase orderBook order crosses
      ⟨quantity, [], [], db.snapshot.1, statedb⟩ = some r) :
    Unwindable orderBook db.snapshot.1 (final r).tradingStateDB ∧
      ChangedAt orderBook db.snapshot.1 (final r).tradingStateDB ∧
      ((final r).tradingStateDB.exchangeAt orderBook).nonce = (db.exchangeAt orderBook).nonce :=
  (keptByMatching_run orderBook db).matchBestPrices xdcx h
    ⟨.start hi, .refl _, rfl⟩

/-- A failed run of matching is reverted to a state that gives the book back. -/
theorem matchedBook_error {db' : TradingStateDB} {e : MatchError} {statedb' : StateDB}
    (hrun : Unwindable orderBook db.snapshot.1 db' ∧ ChangedAt orderBook db.snapshot.1 db' ∧
      (db'.exchangeAt orderBook).nonce = (db.exchangeAt orderBook).nonce) :
    MatchedBook orderBook db (.error e, db', statedb') :=
  hrun.1.revertToSnapshot hrun.2.1.validRevisions

theorem processMarketOrder_book {order : TradedOrder} (hi : (db.exchangeAt orderBook).Invariant)
    {r : Matched} (h : xdcx.processMarketOrder fuel coinbase statedb db.snapshot.1 orderBook order =
      some r) : MatchedBook orderBook db r := by
  obtain ⟨r₀, hr₀, rfl⟩ := Option.map_eq_some_iff.1 h
  have hrun := xdcx.matchBestPrices_run hi hr₀
  rcases r₀ with ⟨e, s⟩ | s
  · exact matchedBook_error hrun
  · exact ⟨hrun.1.invariant, hrun.2.2.le.trans (Nat.le_succ _)⟩

/-- **Matching a limit order keeps the book**: what is left of it is listed under the id after
the nonce, which keeps the invariant while the nonce is below the last `uint64`. -/
theorem processLimitOrder_book {order : TradedOrder} (hi : (db.exchangeAt orderBook).Invariant)
    (hbound : (db.exchangeAt orderBook).nonce + 1 < 2 ^ 64) {r : Matched}
    (h : xdcx.processLimitOrder fuel coinbase statedb db.snapshot.1 orderBook order = some r) :
    MatchedBook orderBook db r := by
  obtain ⟨r₀, hr₀, rfl⟩ := Option.map_eq_some_iff.1 h
  have hrun := xdcx.matchBestPrices_run hi hr₀
  rcases r₀ with ⟨e, s⟩ | s
  · exact matchedBook_error hrun
  · have hinv : (s.tradingStateDB.exchangeAt orderBook).Invariant := hrun.1.invariant
    have hnonce : (s.tradingStateDB.exchangeAt orderBook).nonce = (db.exchangeAt orderBook).nonce :=
      hrun.2.2
    dsimp only
    split
    case isTrue hq =>
      -- the id after the nonce does not wrap
      have hid : (s.tradingStateDB.getNonce orderBook + 1) % 2 ^ 64 =
          (s.tradingStateDB.exchangeAt orderBook).nonce + 1 := by
        rw [getNonce_eq, Nat.mod_eq_of_lt (by omega)]
      simp only [MatchedBook, exchangeAt_insertOrderItem, exchangeAt_setNonce, hid]
      refine ⟨Exchange.Invariant.insertOrder_next hinv hq rfl, ?_⟩
      rw [Exchange.nonce_insertOrder, hnonce]
    case isFalse => exact ⟨hinv, hnonce.le.trans (Nat.le_succ _)⟩

/-- `ProcessCancelOrder` leaves the trading state as it was, or cancels the order. -/
theorem processCancelOrder_db (order : PlacedOrder) :
    (xdcx.processCancelOrder coinbase db statedb orderBook order).2.1 = db ∨
      (xdcx.processCancelOrder coinbase db statedb orderBook order).2.1 =
        (db.cancelOrder orderBook order.toOrderItem).1 := by
  rcases hc : db.cancelOrder orderBook order.toOrderItem with ⟨db₁, r⟩
  unfold processCancelOrder
  simp only [hc]
  repeat' split
  all_goals first
    | exact .inl rfl
    | exact .inr rfl

/-- `ApplyOrder` returns an error only for a wrong nonce, before any write. -/
theorem applyOrder_eq_error {order : PlacedOrder} {e : ApplyError} {db' : TradingStateDB}
    {statedb' : StateDB}
    (h : xdcx.applyOrder fuel coinbase statedb db orderBook order = some (.error e, db', statedb')) :
    db' = db := by
  by_cases hlt : int64OfUInt64 (db.getNonce order.userAddress) < order.nonce
  · rw [applyOrder_of_lt xdcx hlt] at h
    cases h
    rfl
  by_cases hgt : order.nonce < int64OfUInt64 (db.getNonce order.userAddress)
  · rw [applyOrder_of_gt xdcx hgt] at h
    cases h
    rfl
  simp only [applyOrder, hlt, hgt, if_false] at h
  split_ifs at h
  any_goals cases h
  -- a failed match is reverted, and returns no error
  all_goals
    obtain ⟨⟨res, db₁, statedb₁⟩, -, hf⟩ := Option.bind_eq_some_iff.1 h
    rcases res with e' | x
    · obtain ⟨_, -, hf⟩ := Option.map_eq_some_iff.1 hf
      cases hf
    · cases hf

/-- **`ApplyOrder` keeps the book invariant at its book**, and raises its nonce by at most one,
when the book is not the user's key and its nonce is below the last `uint64`. -/
theorem applyOrder_book {order : PlacedOrder} (hkey : orderBook ≠ order.userAddress)
    (hi : (db.exchangeAt orderBook).Invariant) (hbound : (db.exchangeAt orderBook).nonce + 1 < 2 ^ 64)
    {r : Applied} (h : xdcx.applyOrder fuel coinbase statedb db orderBook order = some r) :
    (r.2.1.exchangeAt orderBook).Invariant ∧
      (r.2.1.exchangeAt orderBook).nonce ≤ (db.exchangeAt orderBook).nonce + 1 := by
  by_cases hlt : int64OfUInt64 (db.getNonce order.userAddress) < order.nonce
  · rw [applyOrder_of_lt xdcx hlt] at h
    cases h
    exact ⟨hi, Nat.le_succ _⟩
  by_cases hgt : order.nonce < int64OfUInt64 (db.getNonce order.userAddress)
  · rw [applyOrder_of_gt xdcx hgt] at h
    cases h
    exact ⟨hi, Nat.le_succ _⟩
  -- the user's nonce is set at the user's key, which leaves the book
  set dbS := db.setNonce order.userAddress ((db.getNonce order.userAddress + 1) % 2 ^ 64) with hdbS
  have hS : dbS.exchangeAt orderBook = db.exchangeAt orderBook :=
    (changedAt_setNonce _ _ _).exchangeAt_eq hkey
  have hiS : (dbS.exchangeAt orderBook).Invariant := hS ▸ hi
  have hboundS : (dbS.exchangeAt orderBook).nonce + 1 < 2 ^ 64 := hS ▸ hbound
  simp only [applyOrder, hlt, hgt, if_false, ← hdbS] at h
  split_ifs at h
  -- the rejections, and the cancellation, whose error is dropped
  any_goals
    cases h
    rw [← hS]
    first
      | exact ⟨hiS, Nat.le_succ _⟩
      | rcases @processCancelOrder_db xdcx coinbase statedb dbS.snapshot.1 orderBook order with
            hdb | hdb <;> rw [hdb]
        · exact ⟨hiS, Nat.le_succ _⟩
        · exact ⟨(keptByMatching_invariant orderBook).cancelOrder _ _ hiS,
            ((keptByMatching_nonce orderBook _).cancelOrder _ _ rfl).le.trans (Nat.le_succ _)⟩
  -- a market or a limit order is matched; a failed match is reverted
  all_goals
    obtain ⟨⟨res, db', statedb'⟩, hp, hf⟩ := Option.bind_eq_some_iff.1 h
    have hbook : MatchedBook orderBook dbS (res, db', statedb') := by
      first
        | exact xdcx.processMarketOrder_book hiS hp
        | exact xdcx.processLimitOrder_book hiS hboundS hp
    rw [← hS]
    rcases res with e | x
    · obtain ⟨db'', hr, hrestores⟩ := hbook
      simp only [hr, Option.map_some, Option.some.injEq] at hf
      subst hf
      exact ⟨hiS.restores hrestores, by rw [hrestores.nonce]; exact Nat.le_succ _⟩
    · cases hf
      exact hbook

/-- `CommitOrder` leaves the exchanges as they were, or returns what `ApplyOrder` returns from
the snapshot: its revert follows only a wrong nonce, which comes before any write. -/
theorem commitOrder_cases {order : PlacedOrder} {r : Applied}
    (h : xdcx.commitOrder fuel coinbase statedb db orderBook order = some r) :
    r.2.1.exchanges = db.exchanges ∨
      xdcx.applyOrder fuel coinbase statedb db.snapshot.1 orderBook order = some r := by
  obtain ⟨⟨res, db', statedb'⟩, happly, hf⟩ := Option.bind_eq_some_iff.1 h
  rcases res with e | x
  · have hdb' : db' = db.snapshot.1 := xdcx.applyOrder_eq_error happly
    subst hdb'
    obtain ⟨db'', hr, hx, -, -⟩ :=
      revertToSnapshot_snapshot
        (show db.snapshot.1.log.validRevisions = db.snapshot.1.log.validRevisions from rfl)
        (show db.snapshot.1.log.entries = db.log.entries ++ [] from (List.append_nil _).symm)
    have hf' : (db.snapshot.1.revertToSnapshot db.snapshot.2).map
        (fun db'' => ((.error e : Except ApplyError _), db'', statedb)) = some r := hf
    rw [hr, Option.map_some, Option.some.injEq] at hf'
    subst hf'
    exact .inl hx
  · cases hf
    exact .inr happly

/-- **`CommitOrder` keeps the book invariant at its book.** -/
theorem commitOrder_book {order : PlacedOrder} (hkey : orderBook ≠ order.userAddress)
    (hi : (db.exchangeAt orderBook).Invariant) (hbound : (db.exchangeAt orderBook).nonce + 1 < 2 ^ 64)
    {r : Applied} (h : xdcx.commitOrder fuel coinbase statedb db orderBook order = some r) :
    (r.2.1.exchangeAt orderBook).Invariant ∧
      (r.2.1.exchangeAt orderBook).nonce ≤ (db.exchangeAt orderBook).nonce + 1 := by
  rcases xdcx.commitOrder_cases h with hx | happly
  · rw [exchangeAt, hx]
    exact ⟨hi, Nat.le_succ _⟩
  · exact xdcx.applyOrder_book hkey (show (db.snapshot.1.exchangeAt orderBook).Invariant from hi) hbound
      happly

/-- `ApplyOrder` writes at its book and at the user's key only. -/
theorem applyOrder_get_ne {order : PlacedOrder} {u : Hash} (hu : u ≠ orderBook)
    (hu' : u ≠ order.userAddress) {r : Applied}
    (h : xdcx.applyOrder fuel coinbase statedb db orderBook order = some r) :
    r.2.1.exchanges.get u = db.exchanges.get u := by
  by_cases hlt : int64OfUInt64 (db.getNonce order.userAddress) < order.nonce
  · rw [applyOrder_of_lt xdcx hlt] at h
    cases h
    rfl
  by_cases hgt : order.nonce < int64OfUInt64 (db.getNonce order.userAddress)
  · rw [applyOrder_of_gt xdcx hgt] at h
    cases h
    rfl
  set dbS := db.setNonce order.userAddress ((db.getNonce order.userAddress + 1) % 2 ^ 64) with hdbS
  have hS : dbS.exchanges.get u = db.exchanges.get u := (changedAt_setNonce _ _ _).get_ne u hu'
  simp only [applyOrder, hlt, hgt, if_false, ← hdbS] at h
  split_ifs at h
  any_goals
    cases h
    first
      | exact hS
      | exact ((xdcx.processCancelOrder_changedAt order).get_ne u hu).trans hS
  all_goals
    obtain ⟨⟨res, db', statedb'⟩, hp, hf⟩ := Option.bind_eq_some_iff.1 h
    have hc : ChangedAt orderBook dbS.snapshot.1 db' := by
      first
        | exact xdcx.processMarketOrder_changedAt hp
        | exact xdcx.processLimitOrder_changedAt hp
    rcases res with e | x
    · obtain ⟨db'', hr, hget⟩ := revertToSnapshot_get_ne hc hu
      simp only [hr, Option.map_some, Option.some.injEq] at hf
      subst hf
      exact hget.trans hS
    · cases hf
      exact (hc.get_ne u hu).trans hS

/-- **`CommitOrder` writes at its book and at the user's key only.** -/
theorem commitOrder_get_ne {order : PlacedOrder} {u : Hash} (hu : u ≠ orderBook)
    (hu' : u ≠ order.userAddress) {r : Applied}
    (h : xdcx.commitOrder fuel coinbase statedb db orderBook order = some r) :
    r.2.1.exchanges.get u = db.exchanges.get u := by
  rcases xdcx.commitOrder_cases h with hx | happly
  · rw [hx]
  · have hget := xdcx.applyOrder_get_ne hu hu' happly
    exact hget

/-- `CommitOrder` at any book keeps the invariant at a book that is not the user's key. -/
theorem commitOrder_bookAt {order : PlacedOrder} {B : Hash} (hB : order.userAddress ≠ B)
    (hi : (db.exchangeAt B).Invariant) (hbound : (db.exchangeAt B).nonce + 1 < 2 ^ 64) {r : Applied}
    (h : xdcx.commitOrder fuel coinbase statedb db orderBook order = some r) :
    (r.2.1.exchangeAt B).Invariant ∧ (r.2.1.exchangeAt B).nonce ≤ (db.exchangeAt B).nonce + 1 := by
  by_cases hbook : B = orderBook
  · subst hbook
    exact xdcx.commitOrder_book (Ne.symm hB) hi hbound h
  · have hat : r.2.1.exchangeAt B = db.exchangeAt B := by
      unfold exchangeAt
      rw [xdcx.commitOrder_get_ne hbook (Ne.symm hB) h]
    rw [hat]
    exact ⟨hi, Nat.le_succ _⟩

/-! ### A sample exchange -/

/-- Token `3` of eighteen decimals against XDC, whose book is `1`, through relayers that list the
pair and charge ten in ten thousand; every order's signature is its user's. -/
def sampleXDCX : XDCX where
  decimals token := if token = 3 then some 18 else none
  orderSender order := order.userAddress
  resignRequested _ := false
  fromTokens _ := [3]
  toTokens _ := [xdcNativeAddress]
  exRelayerFee _ := 10
  isTIPXDCXCancellationFee := true

/-- The settlement sample's holders (taker `10` with `2 * 10 ^ 21` XDC, maker `11` with `10 ^ 21`
of token `3`, relayers `20` and `21` owned by `30` and `31`), the relayers with `10 ^ 5` XDC
deposited, above the locked fund. -/
def sampleStateDB : StateDB where
  balance a := if a = 10 then 2 * 10 ^ 21 else if a = relayerRegistrationSMC then 10 ^ 24 else 0
  exist token := token = 3
  tokenBalances token a := if token = 3 ∧ a = 11 then 10 ^ 21 else 0
  relayerOwner r := if r = 20 then 30 else if r = 21 then 31 else 0
  relayerDeposit r := if r = 20 ∨ r = 21 then 10 ^ 23 else 0
  owner c := if c = 40 then 30 else 0
  -- the token balances are those of `feeStateDB`
  tokenBalances_lt := feeStateDB.tokenBalances_lt
  relayerDeposit_lt r := by split_ifs <;> norm_num

/-- The settlement sample's maker, as a new limit order at nonce `0`. -/
def makerOrder : PlacedOrder :=
  { toTradedOrder := feeMaker, type := .limit, status := .new, nonce := 0 }

/-- The settlement sample's taker, as a new limit order at nonce `0`. -/
def takerOrder : PlacedOrder :=
  { toTradedOrder := feeTaker, type := .limit, status := .new, nonce := 0 }

/-- The trading state the maker's order leaves from the empty one: the order rests on the ask
side of book `1`. -/
def restingDB : TradingStateDB :=
  match sampleXDCX.commitOrder 5 40 sampleStateDB .empty 1 makerOrder with
  | some r => r.2.1
  | none => .empty

theorem invariant_restingDB : (restingDB.exchangeAt 1).Invariant := by
  obtain ⟨r, hr⟩ : ∃ r, sampleXDCX.commitOrder 5 40 sampleStateDB .empty 1 makerOrder = some r :=
    Option.isSome_iff_exists.1 (by decide)
  have hbook := sampleXDCX.commitOrder_book (by decide) (invariant_empty 1)
    (by rw [exchangeAt_empty]; decide) hr
  rw [restingDB, hr]
  exact hbook.1

/-! ### Reverting matching -/

/-- **Reverting matching gives the book back.**  After any run of matching from a snapshot of a
state with the book invariant, the revert to that snapshot finds it, and gives back the book:
its nonce and its orders, each price level with the same volume and the same order amounts, and
no price listed that was not listed before. -/
theorem matchBestPrices_revert {order : TradedOrder} {crosses : ℕ → Bool} {quantity : ℕ}
    (hi : (db.exchangeAt orderBook).Invariant) :
    ∀ r, xdcx.matchBestPrices fuel coinbase orderBook order crosses
        ⟨quantity, [], [], db.snapshot.1, statedb⟩ = some r →
      ∃ db'', (final r).tradingStateDB.revertToSnapshot db.snapshot.2 = some db'' ∧
        RestoresAt orderBook db db'' := by
  intro r h
  have hrun := xdcx.matchBestPrices_run hi h
  exact hrun.1.revertToSnapshot hrun.2.1.validRevisions

/-- The taker matched against the resting maker: one trade, and the revert gives the book
back. -/
theorem matchBestPrices_revert_resting :
    (restingDB.exchangeAt 1).Invariant ∧
      (∀ r, sampleXDCX.matchBestPrices 5 40 1 feeTaker (fun _ => true)
          ⟨feeTaker.quantity, [], [], restingDB.snapshot.1, sampleStateDB⟩ = some r →
        ∃ db'', (final r).tradingStateDB.revertToSnapshot restingDB.snapshot.2 = some db'' ∧
          RestoresAt 1 restingDB db'') ∧
      (sampleXDCX.matchBestPrices 5 40 1 feeTaker (fun _ => true)
          ⟨feeTaker.quantity, [], [], restingDB.snapshot.1, sampleStateDB⟩).map
        (fun r => (final r).trades.length) = some 1 :=
  ⟨invariant_restingDB, matchBestPrices_revert sampleXDCX invariant_restingDB, by decide⟩

/-! ### Runs of orders -/

/-- The state after `CommitOrder` is called on each order in turn, on the book of its pair
(`GetTradingOrderBookHash`), as the loop of `ProcessOrderPending` calls it on the orders it
takes; `none` when a call runs out of fuel. -/
def commitOrders (fuel : ℕ) (coinbase : Hash) :
    StateDB → TradingStateDB → List PlacedOrder → Option (StateDB × TradingStateDB)
  | statedb, db, [] => some (statedb, db)
  | statedb, db, order :: orders =>
    (xdcx.commitOrder fuel coinbase statedb db
      (getTradingOrderBookHash order.baseToken order.quoteToken) order).bind fun r =>
      commitOrders fuel coinbase r.2.2 r.2.1 orders

/-- **The book invariant over every run of orders.**  Take a book that is no order's user
address, with a nonce far enough from the last `uint64` for one id per order.  If the book
invariant holds at the start, it holds after every run of `CommitOrder` calls, whatever each
order does, and the nonce has grown by at most one per order. -/
theorem commitOrders_book (fuel : ℕ) (coinbase orderBook : Hash) :
    ∀ (orders : List PlacedOrder) (statedb : StateDB) (db : TradingStateDB),
      (∀ order ∈ orders, order.userAddress ≠ orderBook) →
      (db.exchangeAt orderBook).nonce + orders.length < 2 ^ 64 →
      (db.exchangeAt orderBook).Invariant →
      ∀ r, xdcx.commitOrders fuel coinbase statedb db orders = some r →
        (r.2.exchangeAt orderBook).Invariant ∧
          (r.2.exchangeAt orderBook).nonce ≤ (db.exchangeAt orderBook).nonce + orders.length := by
  intro orders
  induction orders with
  | nil =>
    intro statedb db _ _ hi r h
    cases h
    exact ⟨hi, Nat.le_refl _⟩
  | cons order orders ih =>
    intro statedb db husers hbound hi r h
    simp only [List.length_cons] at hbound ⊢
    obtain ⟨r₁, h₁, hrest⟩ := Option.bind_eq_some_iff.1 h
    -- the first call keeps the invariant and takes at most one id; the rest runs from there
    have hstep := xdcx.commitOrder_bookAt (husers order List.mem_cons_self) hi (by omega) h₁
    have htail := ih r₁.2.2 r₁.2.1 (fun o ho => husers o (List.mem_cons_of_mem _ ho))
      (by omega) hstep.1 r hrest
    exact ⟨htail.1, by omega⟩

end XDCX

end XdcSubnet.XDCx
