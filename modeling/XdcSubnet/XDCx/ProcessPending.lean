import XdcSubnet.XDCx.CommitFuel
import XdcSubnet.Core.OrderTransaction

/-!
# The pending-order loop (`ProcessOrderPending`, `XDCx/XDCx.go`)

`ProcessOrderPending` takes the pending order transactions by nonce
(`NewOrderTransactionByNonce`) and, until none is left or `MaximumTxMatchSize` have been taken,
builds the order of the root transaction and commits it (`CommitOrder`) on the book of its pair.
After a nonce that is too low, or a result, it moves on to the sender's next transaction
(`Shift`); after a nonce that is too high it drops the sender (`Pop`).  A signature value that is
not an `int8` is passed over without a `Shift`.

Model choices: the transaction is the record `OrderTransaction` of the fields the loop reads, and
its sender (`OrderSender`) is the parameter `orderSender`.  `MatchingResult`s are the list of the
orders with their trades and rejections, in the order the loop writes them into its map.  The
order recorded in `txMatches` is the order as built, without the order id that
`processLimitOrder` writes back into it or the extra data; RLP encoding does not fail.
`CommitOrder` returns no other error than the two nonce errors, so the loop's default branch
does not arise.  The loop is `for {}`: each pass takes one from `numberTx`'s room or leaves, so
`MaximumTxMatchSize + 2` passes are enough (`processOrderPending_isSome`).

Over every run, the loop does to both databases what `commitOrders` does on the orders it takes,
each account's in the order of its pending list (`processOrderPending_commits`), so the order
book invariant holds after it (`processOrderPending_invariant`).
-/

open XdcSubnet.Core

namespace XdcSubnet.XDCx

open Loop TradingStateDB

/-- `MaximumTxMatchSize`. -/
def maximumTxMatchSize : ℕ := 1000

/-- An order transaction: the fields of `ordertxdata` that `ProcessOrderPending` reads, the side,
status and type strings read as the engine reads them, and the signature value `V`. -/
structure OrderTransaction where
  accountNonce : ℕ
  quantity : ℕ
  price : ℕ
  exchangeAddress : Hash
  userAddress : Hash
  baseToken : Hash
  quoteToken : Hash
  status : OrderStatus
  side : Side
  type : OrderType
  orderID : ℕ
  v : ℤ
  hash : Hash
  deriving DecidableEq, Repr

instance instInhabitedOrderTransaction : Inhabited OrderTransaction :=
  ⟨⟨0, 0, 0, 0, 0, 0, 0, .other, .unknown, .unknown, 0, 0, 0⟩⟩

/-- The order `ProcessOrderPending` builds from a transaction, with the transaction's nonce as an
`int64`. -/
def orderOfTransaction (tx : OrderTransaction) : PlacedOrder :=
  { toTradedOrder :=
      { toOrderItem :=
          { quantity := tx.quantity
            price := tx.price
            exchangeAddress := tx.exchangeAddress
            userAddress := tx.userAddress
            side := tx.side
            hash := tx.hash
            orderID := tx.orderID }
        baseToken := tx.baseToken
        quoteToken := tx.quoteToken }
    type := tx.type
    status := tx.status
    nonce := int64OfUInt64 tx.accountNonce }

/-- `strconv.ParseInt(V.String(), 10, 8)` succeeds. -/
def parsesInt8 (v : ℤ) : Bool :=
  decide (-128 ≤ v ∧ v ≤ 127)

/-- The state of the loop of `ProcessOrderPending`. -/
structure PendingLoop where
  txs : OrderTransactionByNonce OrderTransaction
  numberTx : ℕ
  statedb : StateDB
  tradingStateDB : TradingStateDB
  txMatches : List PlacedOrder
  matchingResults : List (PlacedOrder × List Trade × List TradedOrder)

namespace XDCX

variable (xdcx : XDCX) (fuel : ℕ) (coinbase : Hash) (orderSender : OrderTransaction → Hash)

/-- The `switch err` of the loop, after `CommitOrder` returned `r` for `order`: the databases
it left, then a `Pop` after a nonce too high, else a `Shift`, with the order and its result
recorded when there is no error. -/
def afterCommit (s : PendingLoop) (order : PlacedOrder) (r : Applied) : PendingLoop :=
  let s := { s with tradingStateDB := r.2.1, statedb := r.2.2 }
  match r.1 with
  | .error .nonceTooLow => { s with txs := s.txs.shift OrderTransaction.accountNonce orderSender }
  | .error .nonceTooHigh => { s with txs := s.txs.pop OrderTransaction.accountNonce }
  | .ok (trades, rejects) =>
    { s with
      txs := s.txs.shift OrderTransaction.accountNonce orderSender
      txMatches := s.txMatches ++ [order]
      matchingResults := s.matchingResults ++ [(order, trades, rejects)] }

/-- A pass of the loop of `ProcessOrderPending`. -/
def processOrderPendingPass (s : PendingLoop) : Option (Pass Empty PendingLoop) :=
  match s.txs.peek with
  | none => some (.exit s)
  | some tx =>
    if maximumTxMatchSize < s.numberTx then some (.exit s) else
    let s := { s with numberTx := s.numberTx + 1 }
    if !parsesInt8 tx.v then some (.next s) else
    let order := orderOfTransaction tx
    (xdcx.commitOrder fuel coinbase s.statedb s.tradingStateDB
      (getTradingOrderBookHash order.baseToken order.quoteToken) order).map fun r =>
      .next (afterCommit orderSender s order r)

/-- `ProcessOrderPending` over the pending map `pending`, ranged over in the order `keys`: the
matched orders, the matching results, and the two databases it leaves. -/
def processOrderPending (keys : List Hash) (pending : Hash → List OrderTransaction)
    (statedb : StateDB) (tradingStateDB : TradingStateDB) :
    Option (List PlacedOrder × List (PlacedOrder × List Trade × List TradedOrder) × StateDB ×
      TradingStateDB) :=
  (run (fun _ => true) (xdcx.processOrderPendingPass fuel coinbase orderSender)
      (maximumTxMatchSize + 2)
      ⟨newOrderTransactionByNonce OrderTransaction.accountNonce orderSender keys pending, 0, statedb,
        tradingStateDB, [], []⟩).map fun r =>
    let s := final r
    (s.txMatches, s.matchingResults, s.statedb, s.tradingStateDB)

/-! ### Every run commits the orders it takes -/

theorem commitOrders_append (statedb : StateDB) (db : TradingStateDB) (orders : List PlacedOrder)
    (order : PlacedOrder) :
    xdcx.commitOrders fuel coinbase statedb db (orders ++ [order]) =
      (xdcx.commitOrders fuel coinbase statedb db orders).bind fun r =>
        (xdcx.commitOrder fuel coinbase r.1 r.2
          (getTradingOrderBookHash order.baseToken order.quoteToken) order).map
          fun r' => (r'.2.2, r'.2.1) := by
  induction orders generalizing statedb db with
  | nil =>
    simp only [List.nil_append, commitOrders, Option.bind_some]
    cases xdcx.commitOrder fuel coinbase statedb db
      (getTradingOrderBookHash order.baseToken order.quoteToken) order <;> rfl
  | cons o orders ih =>
    simp only [List.cons_append, commitOrders, Option.bind_assoc, ih]

/-- What a run of the loop keeps: the transactions it has taken (`calls`) are those `Shift` and
`Pop` took off the heap, the databases are what `commitOrders` leaves after their orders, there
is one call at most per pass and at most `MaximumTxMatchSize + 1` passes, and the orders reported
matched are among the calls' and have their results. -/
def Commits (pending : Hash → List OrderTransaction) (statedb₀ : StateDB) (db₀ : TradingStateDB)
    (s : PendingLoop) : Prop :=
  ∃ calls : List OrderTransaction, Tracks orderSender pending s.txs calls ∧
    xdcx.commitOrders fuel coinbase statedb₀ db₀ (calls.map orderOfTransaction) =
      some (s.statedb, s.tradingStateDB) ∧
    calls.length ≤ s.numberTx ∧ s.numberTx ≤ maximumTxMatchSize + 1 ∧
    s.txMatches.Sublist (calls.map orderOfTransaction) ∧
    s.txMatches = s.matchingResults.map Prod.fst

/-- What `afterCommit` changes: the heap by a `Shift` or a `Pop`, the two databases, and the
orders and results it records. -/
theorem afterCommit_spec (s : PendingLoop) (order : PlacedOrder) (r : Applied) :
    ((afterCommit orderSender s order r).txs = s.txs.shift OrderTransaction.accountNonce orderSender ∨
      (afterCommit orderSender s order r).txs = s.txs.pop OrderTransaction.accountNonce) ∧
    (afterCommit orderSender s order r).numberTx = s.numberTx ∧
    (afterCommit orderSender s order r).statedb = r.2.2 ∧
    (afterCommit orderSender s order r).tradingStateDB = r.2.1 ∧
    ((afterCommit orderSender s order r).txMatches = s.txMatches ∧
        (afterCommit orderSender s order r).matchingResults = s.matchingResults ∨
      ∃ result, (afterCommit orderSender s order r).txMatches = s.txMatches ++ [order] ∧
        (afterCommit orderSender s order r).matchingResults =
          s.matchingResults ++ [(order, result)]) := by
  rcases r with ⟨e | ⟨trades, rejects⟩, db, statedb⟩
  · cases e
    · exact ⟨.inr rfl, rfl, rfl, rfl, .inl ⟨rfl, rfl⟩⟩
    · exact ⟨.inl rfl, rfl, rfl, rfl, .inl ⟨rfl, rfl⟩⟩
  · exact ⟨.inl rfl, rfl, rfl, rfl, .inr ⟨(trades, rejects), rfl, rfl⟩⟩

/-- What a pass does: leave, pass over a transaction whose signature value is no `int8`, or
commit the root's order and go on as `afterCommit` says. -/
theorem processOrderPendingPass_cases {s : PendingLoop} {p : Pass Empty PendingLoop}
    (h : xdcx.processOrderPendingPass fuel coinbase orderSender s = some p) :
    p = .exit s ∨ ∃ tx, s.txs.peek = some tx ∧ s.numberTx ≤ maximumTxMatchSize ∧
      (p = .next { s with numberTx := s.numberTx + 1 } ∨
        ∃ r, xdcx.commitOrder fuel coinbase s.statedb s.tradingStateDB
            (getTradingOrderBookHash tx.baseToken tx.quoteToken) (orderOfTransaction tx) = some r ∧
          p = .next (afterCommit orderSender { s with numberTx := s.numberTx + 1 }
            (orderOfTransaction tx) r)) := by
  unfold processOrderPendingPass at h
  cases hpeek : s.txs.peek with
  | none =>
    rw [hpeek] at h
    cases h
    exact .inl rfl
  | some tx =>
    rw [hpeek] at h
    dsimp only at h
    split_ifs at h with hfull hv
    · cases h
      exact .inl rfl
    · cases h
      exact .inr ⟨tx, rfl, by omega, .inl rfl⟩
    · obtain ⟨r, hr, rfl⟩ := Option.map_eq_some_iff.1 h
      exact .inr ⟨tx, rfl, by omega, .inr ⟨r, hr, rfl⟩⟩

theorem processOrderPendingPass_exit {s : PendingLoop}
    (h : s.txs.peek = none ∨ maximumTxMatchSize < s.numberTx) :
    xdcx.processOrderPendingPass fuel coinbase orderSender s = some (.exit s) := by
  unfold processOrderPendingPass
  rcases h with h | h
  · rw [h]
  · cases s.txs.peek with
    | none => rfl
    | some tx => simp [h]

theorem processOrderPendingPass_skip {s : PendingLoop} {tx : OrderTransaction}
    (hpeek : s.txs.peek = some tx) (hroom : s.numberTx ≤ maximumTxMatchSize)
    (hv : parsesInt8 tx.v = false) :
    xdcx.processOrderPendingPass fuel coinbase orderSender s =
      some (.next { s with numberTx := s.numberTx + 1 }) := by
  simp [processOrderPendingPass, hpeek, hv, not_lt.2 hroom]

theorem processOrderPendingPass_commit {s : PendingLoop} {tx : OrderTransaction} {r : Applied}
    (hpeek : s.txs.peek = some tx) (hroom : s.numberTx ≤ maximumTxMatchSize)
    (hv : parsesInt8 tx.v = true)
    (hr : xdcx.commitOrder fuel coinbase s.statedb s.tradingStateDB
      (getTradingOrderBookHash tx.baseToken tx.quoteToken) (orderOfTransaction tx) = some r) :
    xdcx.processOrderPendingPass fuel coinbase orderSender s =
      some (.next (afterCommit orderSender { s with numberTx := s.numberTx + 1 }
        (orderOfTransaction tx) r)) := by
  simp only [processOrderPendingPass, hpeek, hv, not_lt.2 hroom, if_false, Bool.not_true,
    Bool.false_eq_true]
  simp only [orderOfTransaction] at hr ⊢
  rw [hr, Option.map_some]

variable {orderSender} {pending : Hash → List OrderTransaction} {statedb₀ : StateDB}
  {db₀ : TradingStateDB}

/-- **A pass keeps `Commits`.** -/
theorem Commits.pass (hkeyed : Keyed orderSender pending) {s : PendingLoop}
    {p : Pass Empty PendingLoop} (h : xdcx.Commits fuel coinbase orderSender pending statedb₀ db₀ s)
    (hp : xdcx.processOrderPendingPass fuel coinbase orderSender s = some p) :
    xdcx.Commits fuel coinbase orderSender pending statedb₀ db₀ p.state := by
  obtain ⟨calls, htracks, hcommits, hlen, hmax, hsub, hresults⟩ := h
  rcases processOrderPendingPass_cases xdcx fuel coinbase orderSender hp with
    rfl | ⟨tx, hpeek, hroom, rfl | ⟨r, hr, rfl⟩⟩
  · exact ⟨calls, htracks, hcommits, hlen, hmax, hsub, hresults⟩
  · -- a signature value that is no `int8`: nothing is taken
    rw [Pass.state_next]
    exact ⟨calls, htracks, hcommits, by dsimp only; omega, by dsimp only; omega, hsub, hresults⟩
  · -- the root is taken, and its order committed after the calls before it
    rw [Pass.state_next]
    obtain ⟨htxs, hnumber, hstatedb, hdb, hmatches⟩ :=
      afterCommit_spec orderSender { s with numberTx := s.numberTx + 1 } (orderOfTransaction tx) r
    refine ⟨calls ++ [tx], ?_, ?_, ?_, by rw [hnumber]; dsimp only; omega, ?_, ?_⟩
    · rcases htxs with htxs | htxs <;> rw [htxs]
      · exact htracks.shift hkeyed hpeek
      · exact htracks.pop hpeek
    · rw [hstatedb, hdb, List.map_append, List.map_singleton, commitOrders_append, hcommits,
        Option.bind_some]
      simp only [orderOfTransaction] at hr ⊢
      rw [hr, Option.map_some]
    · rw [hnumber, List.length_append, List.length_singleton]
      dsimp only
      omega
    · rw [List.map_append, List.map_singleton]
      rcases hmatches with ⟨hm, -⟩ | ⟨result, hm, -⟩ <;> rw [hm]
      · exact hsub.trans (List.sublist_append_left _ _)
      · exact hsub.append (List.Sublist.refl _)
    · rcases hmatches with ⟨hm, hres⟩ | ⟨result, hm, hres⟩ <;> rw [hm, hres]
      · exact hresults
      · rw [List.map_append, ← hresults]
        rfl

/-- The loop's state at the start. -/
theorem commits_start (hkeyed : Keyed orderSender pending) {keys : List Hash} (hkeys : keys.Nodup) :
    xdcx.Commits fuel coinbase orderSender pending statedb₀ db₀
      ⟨newOrderTransactionByNonce OrderTransaction.accountNonce orderSender keys pending, 0,
        statedb₀, db₀, [], []⟩ :=
  ⟨[], tracks_new hkeyed hkeys, rfl, le_rfl, Nat.zero_le _, List.Sublist.slnil, rfl⟩

/-- What every run of `ProcessOrderPending` leaves: `Commits` of its final state. -/
theorem processOrderPending_run (hkeyed : Keyed orderSender pending) {keys : List Hash}
    (hkeys : keys.Nodup) {r : Except (Empty × PendingLoop) PendingLoop}
    (h : run (fun _ => true) (xdcx.processOrderPendingPass fuel coinbase orderSender)
      (maximumTxMatchSize + 2)
      ⟨newOrderTransactionByNonce OrderTransaction.accountNonce orderSender keys pending, 0,
        statedb₀, db₀, [], []⟩ = some r) :
    xdcx.Commits fuel coinbase orderSender pending statedb₀ db₀ (final r) :=
  run_final _ (fun _ _ hs _ hp => Commits.pass xdcx fuel coinbase hkeyed hs hp)
    (commits_start xdcx fuel coinbase hkeyed hkeys) h

/-- The sample maker's order as a signed transaction at nonce `0`. -/
def makerTx : OrderTransaction :=
  ⟨0, 10 ^ 21, 10 ^ 18, 21, 11, 3, xdcNativeAddress, .new, .ask, .limit, 2, 27, 101⟩

/-- The sample taker's order as a signed transaction at nonce `0`. -/
def takerTx : OrderTransaction :=
  ⟨0, 10 ^ 21, 10 ^ 18, 20, 10, 3, xdcNativeAddress, .new, .bid, .limit, 1, 27, 100⟩

/-- The pending map of the two transactions, each under its user. -/
def samplePending (a : Hash) : List OrderTransaction :=
  if a = 11 then [makerTx] else if a = 10 then [takerTx] else []

theorem mem_samplePending {a : Hash} {tx : OrderTransaction} (h : tx ∈ samplePending a) :
    tx = makerTx ∧ a = 11 ∨ tx = takerTx ∧ a = 10 := by
  unfold samplePending at h
  split_ifs at h with h₁ h₂
  · exact .inl ⟨List.mem_singleton.1 h, h₁⟩
  · exact .inr ⟨List.mem_singleton.1 h, h₂⟩
  · cases h

theorem keyed_samplePending : Keyed OrderTransaction.userAddress samplePending := by
  intro a tx htx
  rcases mem_samplePending htx with ⟨rfl, rfl⟩ | ⟨rfl, rfl⟩ <;> rfl

/-- **The book invariant after `ProcessOrderPending`.**  At a book that is no pending order's
user, with room in its nonce for one id per pass, the order-book invariant holds after the loop
if it held before. -/
theorem processOrderPending_invariant (keys : List Hash) (pending : Hash → List OrderTransaction)
    (statedb : StateDB) (db : TradingStateDB) (orderBook : Hash)
    (hkeyed : Keyed orderSender pending) (hkeys : keys.Nodup)
    (husers : ∀ a, ∀ tx ∈ pending a, tx.userAddress ≠ orderBook)
    (hbound : (db.exchangeAt orderBook).nonce + (maximumTxMatchSize + 1) < 2 ^ 64)
    (hi : (db.exchangeAt orderBook).Invariant) :
    ∀ r, xdcx.processOrderPending fuel coinbase orderSender keys pending statedb db = some r →
      (r.2.2.2.exchangeAt orderBook).Invariant := by
  intro r h
  obtain ⟨r₀, hr₀, rfl⟩ := Option.map_eq_some_iff.1 h
  obtain ⟨calls, htracks, hcommits, hlen, hmax, -, -⟩ :=
    processOrderPending_run xdcx fuel coinbase hkeyed hkeys hr₀
  -- every order taken is a pending one, so its user is not the book
  have hcalls : ∀ order ∈ calls.map orderOfTransaction, order.userAddress ≠ orderBook := by
    intro order horder
    obtain ⟨tx, htx, rfl⟩ := List.mem_map.1 horder
    have hmem : tx ∈ calls.filter fun tx' => orderSender tx' = orderSender tx :=
      List.mem_filter.2 ⟨htx, by simp⟩
    exact husers _ tx ((htracks.sublist (orderSender tx)).subset hmem)
  exact (xdcx.commitOrders_book fuel coinbase orderBook _ statedb db hcalls
    (by rw [List.length_map]; omega) hi _ hcommits).1

/-- Book `1` after the loop over the two transactions, from the empty trading state. -/
theorem processOrderPending_invariant_sample :
    Keyed OrderTransaction.userAddress samplePending ∧ [11, 10].Nodup ∧
      (∀ a, ∀ tx ∈ samplePending a, tx.userAddress ≠ 1) ∧
      (TradingStateDB.empty.exchangeAt 1).nonce + (maximumTxMatchSize + 1) < 2 ^ 64 ∧
      (TradingStateDB.empty.exchangeAt 1).Invariant ∧
      (∀ r, sampleXDCX.processOrderPending 5 40 OrderTransaction.userAddress [11, 10]
          samplePending sampleStateDB TradingStateDB.empty = some r →
        (r.2.2.2.exchangeAt 1).Invariant) ∧
      (sampleXDCX.processOrderPending 5 40 OrderTransaction.userAddress [11, 10] samplePending
          sampleStateDB TradingStateDB.empty).map
        (fun r => r.2.1.map fun result => result.2.1.length) = some [0, 1] := by
  have husers : ∀ a, ∀ tx ∈ samplePending a, tx.userAddress ≠ 1 := by
    intro a tx htx
    rcases mem_samplePending htx with ⟨rfl, -⟩ | ⟨rfl, -⟩ <;> decide
  have hbound : (TradingStateDB.empty.exchangeAt 1).nonce + (maximumTxMatchSize + 1) < 2 ^ 64 := by
    rw [exchangeAt_empty]
    decide
  exact ⟨keyed_samplePending, by decide, husers, hbound, invariant_empty 1,
    processOrderPending_invariant sampleXDCX 5 40 [11, 10] samplePending sampleStateDB
      TradingStateDB.empty 1 keyed_samplePending (by decide) husers hbound (invariant_empty 1),
    by decide +kernel⟩

/-! ### Every run finishes -/

variable (orderSender) in
/-- What lets the rest of a run finish: the heap tracks the pending map, and at the book of every
pending transaction the invariant holds, with room in its nonce for one id per pass left. -/
structure Ready (pending : Hash → List OrderTransaction) (s : PendingLoop) : Prop where
  tracks : ∃ calls, Tracks orderSender pending s.txs calls
  invariant : ∀ a, ∀ tx ∈ pending a,
    (s.tradingStateDB.exchangeAt (getTradingOrderBookHash tx.baseToken tx.quoteToken)).Invariant
  room : ∀ a, ∀ tx ∈ pending a,
    (s.tradingStateDB.exchangeAt (getTradingOrderBookHash tx.baseToken tx.quoteToken)).nonce +
      (maximumTxMatchSize + 1 - s.numberTx) < 2 ^ 64

/-- A pass over a signature value that is no `int8` keeps `Ready`, with one pass fewer left. -/
theorem Ready.skip {s : PendingLoop} (h : Ready orderSender pending s) :
    Ready orderSender pending { s with numberTx := s.numberTx + 1 } where
  tracks := h.tracks
  invariant := h.invariant
  room a tx htx := by
    have hroom := h.room a tx htx
    dsimp only
    omega

/-- In a `Ready` state the root's order can be committed: its book is no pending user's and has
the invariant, so matching there finishes with fuel enough. -/
theorem Ready.commits (husers : ∀ a, ∀ tx ∈ pending a, ∀ b, ∀ tx' ∈ pending b,
      tx.userAddress ≠ getTradingOrderBookHash tx'.baseToken tx'.quoteToken)
    {s : PendingLoop} {tx : OrderTransaction} (h : Ready orderSender pending s)
    (hpeek : s.txs.peek = some tx) :
    ∃ N r, xdcx.commitOrder N coinbase s.statedb s.tradingStateDB
      (getTradingOrderBookHash tx.baseToken tx.quoteToken) (orderOfTransaction tx) = some r := by
  obtain ⟨calls, htracks⟩ := h.tracks
  have hmem := htracks.head_mem hpeek
  exact ⟨_, Option.isSome_iff_exists.1 (xdcx.commitOrder_isSome
    (Ne.symm (husers _ tx hmem _ tx hmem)) (h.invariant _ tx hmem).consistent
    (Nat.lt_succ_self _))⟩

/-- **A pass that commits keeps `Ready`**: the root is taken, and every book's nonce grows by one
at most, with one pass fewer left. -/
theorem Ready.commit (hkeyed : Keyed orderSender pending)
    (husers : ∀ a, ∀ tx ∈ pending a, ∀ b, ∀ tx' ∈ pending b,
      tx.userAddress ≠ getTradingOrderBookHash tx'.baseToken tx'.quoteToken)
    {s : PendingLoop} {tx : OrderTransaction} {r : Applied} (h : Ready orderSender pending s)
    (hpeek : s.txs.peek = some tx) (hroom : s.numberTx ≤ maximumTxMatchSize)
    (hr : xdcx.commitOrder fuel coinbase s.statedb s.tradingStateDB
      (getTradingOrderBookHash tx.baseToken tx.quoteToken) (orderOfTransaction tx) = some r) :
    Ready orderSender pending
      (afterCommit orderSender { s with numberTx := s.numberTx + 1 } (orderOfTransaction tx) r) := by
  obtain ⟨calls, htracks⟩ := h.tracks
  obtain ⟨htxs, hnumber, -, hdb, -⟩ :=
    afterCommit_spec orderSender { s with numberTx := s.numberTx + 1 } (orderOfTransaction tx) r
  have hmem := htracks.head_mem hpeek
  -- at every pending book, the invariant after the call, and a nonce one more at most
  have hbook : ∀ a, ∀ tx' ∈ pending a,
      (r.2.1.exchangeAt (getTradingOrderBookHash tx'.baseToken tx'.quoteToken)).Invariant ∧
        (r.2.1.exchangeAt (getTradingOrderBookHash tx'.baseToken tx'.quoteToken)).nonce ≤
          (s.tradingStateDB.exchangeAt
            (getTradingOrderBookHash tx'.baseToken tx'.quoteToken)).nonce + 1 := by
    intro a tx' htx'
    have hroom' := h.room a tx' htx'
    exact xdcx.commitOrder_bookAt (husers _ tx hmem a tx' htx') (h.invariant a tx' htx')
      (by omega) hr
  refine ⟨⟨calls ++ [tx], ?_⟩, fun a tx' htx' => ?_, fun a tx' htx' => ?_⟩
  · rcases htxs with htxs | htxs <;> rw [htxs]
    · exact htracks.shift hkeyed hpeek
    · exact htracks.pop hpeek
  · rw [hdb]
    exact (hbook a tx' htx').1
  · rw [hdb, hnumber]
    have hnonce := (hbook a tx' htx').2
    have hroom' := h.room a tx' htx'
    dsimp only
    omega

/-- From a `Ready` state with at most `k` passes of room left, `k + 1` passes finish once the
matching has fuel enough; by induction on `k`, the fuel of the first call and of the rest. -/
theorem Ready.finishes (hkeyed : Keyed orderSender pending)
    (husers : ∀ a, ∀ tx ∈ pending a, ∀ b, ∀ tx' ∈ pending b,
      tx.userAddress ≠ getTradingOrderBookHash tx'.baseToken tx'.quoteToken) :
    ∀ k (s : PendingLoop), Ready orderSender pending s → maximumTxMatchSize + 1 - s.numberTx ≤ k →
      ∃ N, ∀ fuel, N ≤ fuel →
        (run (fun _ => true) (xdcx.processOrderPendingPass fuel coinbase orderSender) (k + 1)
          s).isSome := by
  intro k
  induction k with
  | zero =>
    intro s _ hk
    refine ⟨0, fun fuel _ => ?_⟩
    rw [run_exit _ rfl
      (xdcx.processOrderPendingPass_exit fuel coinbase orderSender (.inr (by omega)))]
    rfl
  | succ k ih =>
    intro s hs hk
    by_cases hexit : s.txs.peek = none ∨ maximumTxMatchSize < s.numberTx
    · refine ⟨0, fun fuel _ => ?_⟩
      rw [run_exit _ rfl (xdcx.processOrderPendingPass_exit fuel coinbase orderSender hexit)]
      rfl
    obtain ⟨tx, hpeek⟩ := Option.ne_none_iff_exists'.1 (not_or.1 hexit).1
    have hroom : s.numberTx ≤ maximumTxMatchSize := not_lt.1 (not_or.1 hexit).2
    cases hv : parsesInt8 tx.v with
    | false =>
      obtain ⟨N, hN⟩ := ih _ hs.skip (by dsimp only; omega)
      refine ⟨N, fun fuel hfuel => ?_⟩
      rw [run_next _ rfl
        (xdcx.processOrderPendingPass_skip fuel coinbase orderSender hpeek hroom hv)]
      exact hN fuel hfuel
    | true =>
      -- the call with the fuel its matching needs, then the rest of the run from its result,
      -- which more fuel does not change
      obtain ⟨N₁, r, hr⟩ := hs.commits xdcx coinbase husers hpeek
      have hnumber := (afterCommit_spec orderSender { s with numberTx := s.numberTx + 1 }
        (orderOfTransaction tx) r).2.1
      obtain ⟨N₂, hN₂⟩ := ih _ (hs.commit xdcx N₁ coinbase hkeyed husers hpeek hroom hr)
        (by rw [hnumber]; dsimp only; omega)
      refine ⟨max N₁ N₂, fun fuel hfuel => ?_⟩
      obtain ⟨j, hj⟩ := Nat.exists_eq_add_of_le (le_of_max_le_left hfuel)
      have hr' := xdcx.commitOrder_mono j hr
      rw [← hj] at hr'
      rw [run_next _ rfl
        (xdcx.processOrderPendingPass_commit fuel coinbase orderSender hpeek hroom hv hr')]
      exact hN₂ fuel (le_of_max_le_right hfuel)

/-- **Every run of `ProcessOrderPending` finishes.**  For a pending map keyed by sender and
ranged over once per key, whose orders' books are no pending user's, satisfy the order-book
invariant and have room in their nonces for one id per pass, the loop returns once the matching
is given enough fuel: `MaximumTxMatchSize + 2` passes are always enough. -/
theorem processOrderPending_isSome (keys : List Hash) (pending : Hash → List OrderTransaction)
    (statedb : StateDB) (db : TradingStateDB) (hkeyed : Keyed orderSender pending)
    (hkeys : keys.Nodup)
    (husers : ∀ a, ∀ tx ∈ pending a, ∀ b, ∀ tx' ∈ pending b,
      tx.userAddress ≠ getTradingOrderBookHash tx'.baseToken tx'.quoteToken)
    (hbound : ∀ a, ∀ tx ∈ pending a,
      (db.exchangeAt (getTradingOrderBookHash tx.baseToken tx.quoteToken)).nonce +
        (maximumTxMatchSize + 1) < 2 ^ 64)
    (hi : ∀ a, ∀ tx ∈ pending a,
      (db.exchangeAt (getTradingOrderBookHash tx.baseToken tx.quoteToken)).Invariant) :
    ∃ N, ∀ fuel, N ≤ fuel →
      (xdcx.processOrderPending fuel coinbase orderSender keys pending statedb db).isSome := by
  have hready : Ready orderSender pending
      ⟨newOrderTransactionByNonce OrderTransaction.accountNonce orderSender keys pending, 0,
        statedb, db, [], []⟩ :=
    ⟨⟨[], tracks_new hkeyed hkeys⟩, hi, hbound⟩
  obtain ⟨N, hN⟩ := Ready.finishes xdcx coinbase hkeyed husers (maximumTxMatchSize + 1) _ hready
    (Nat.sub_le _ _)
  refine ⟨N, fun fuel hfuel => ?_⟩
  rw [processOrderPending, Option.isSome_map]
  exact hN fuel hfuel

/-- The loop over the two transactions finishes, from the empty trading state. -/
theorem processOrderPending_isSome_sample :
    Keyed OrderTransaction.userAddress samplePending ∧ [11, 10].Nodup ∧
      (∀ a, ∀ tx ∈ samplePending a, ∀ b, ∀ tx' ∈ samplePending b,
        tx.userAddress ≠ getTradingOrderBookHash tx'.baseToken tx'.quoteToken) ∧
      (∀ a, ∀ tx ∈ samplePending a,
        (TradingStateDB.empty.exchangeAt (getTradingOrderBookHash tx.baseToken tx.quoteToken)).nonce +
          (maximumTxMatchSize + 1) < 2 ^ 64) ∧
      (∀ a, ∀ tx ∈ samplePending a, (TradingStateDB.empty.exchangeAt
        (getTradingOrderBookHash tx.baseToken tx.quoteToken)).Invariant) ∧
      ∃ N, ∀ fuel, N ≤ fuel → (sampleXDCX.processOrderPending fuel 40
        OrderTransaction.userAddress [11, 10] samplePending sampleStateDB
        TradingStateDB.empty).isSome := by
  have husers : ∀ a, ∀ tx ∈ samplePending a, ∀ b, ∀ tx' ∈ samplePending b,
      tx.userAddress ≠ getTradingOrderBookHash tx'.baseToken tx'.quoteToken := by
    intro a tx htx b tx' htx'
    rcases mem_samplePending htx with ⟨rfl, -⟩ | ⟨rfl, -⟩ <;>
      rcases mem_samplePending htx' with ⟨rfl, -⟩ | ⟨rfl, -⟩ <;> decide
  have hbound : ∀ a, ∀ tx ∈ samplePending a,
      (TradingStateDB.empty.exchangeAt (getTradingOrderBookHash tx.baseToken tx.quoteToken)).nonce +
        (maximumTxMatchSize + 1) < 2 ^ 64 := by
    intro a tx _
    rw [exchangeAt_empty]
    decide
  have hi : ∀ a, ∀ tx ∈ samplePending a, (TradingStateDB.empty.exchangeAt
      (getTradingOrderBookHash tx.baseToken tx.quoteToken)).Invariant :=
    fun _ tx _ => invariant_empty _
  exact ⟨keyed_samplePending, by decide, husers, hbound, hi,
    processOrderPending_isSome sampleXDCX 40 [11, 10] samplePending sampleStateDB
      TradingStateDB.empty keyed_samplePending (by decide) husers hbound hi⟩

end XDCX

end XdcSubnet.XDCx
