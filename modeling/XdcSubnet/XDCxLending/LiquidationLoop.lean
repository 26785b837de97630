import XdcSubnet.XDCxLending.TopUp

/-!
# The price loop of liquidation does not terminate

When two or more trades that top up by nothing are listed at the highest liquidation price,
taking one off never empties the price, so its key stays in the liquidation-price trie and the
price loop of `ProcessLiquidationData` finds it again after every pass (`Relisting`, kept by
`Relisting.pass`).  The loop then goes round for ever (`Relisting.diverges`), and
`liquidateByPrice` gives no result on any fuel.

`relistingInput` is such a state: two trades of one lending book, each with `1` XDC of
collateral locked at the liquidation price `100`, inserted and indexed as matching does.  It
keeps both liquidation indexes with its trades (`LiquidationIndexed`), and at the collateral
price `99` the price loop never ends (`liquidateByPrice_never_ends`).  Their liquidation time is
`1000`, so for a header up to that time the time loop before it handles neither trade.
-/

namespace XdcSubnet.XDCxLending

open Loop WriteBack
open XdcSubnet.XDCx (Hash StateDB TradingStateDB LiquidationPrice LendingBook Exchange
  getTokenBalance addTokenBalance subTokenBalance logged getTradingOrderBookHash)

/-! ### The price loop comes back to the same price -/

/-- The state the price loop comes back to: `price` is the highest liquidation price of
`orderBook`, and lists only lending book `lendingBook`, with the ids `ids₀` in some order; each is
an open trade that `AutoTopUp` at `collateralPrice` asks nothing of, and whose borrower's balance
is not negative. -/
structure Relisting (orderBook : Hash) (price : ℕ) (lendingBook : Hash) (collateralPrice : ℕ)
    (ids₀ : List ℕ) (s : Liquidating) : Prop where
  highest : (pricesAt s.tradingState orderBook).stored.keys.max? = some price
  listed : ∃ ids, ids.Perm ids₀ ∧ (pricesAt s.tradingState orderBook).get price =
    some ⟨ids₀.length, AList.singleton lendingBook ⟨ids₀.length, ids⟩⟩
  trades : ∀ id ∈ ids₀, ∃ t, tradeAt s.lendingState lendingBook id = some t ∧
    TopsUpNothing orderBook price collateralPrice id t ∧
    0 ≤ getTokenBalance t.borrower t.collateralToken s.statedb

section Relisting

variable {s : Liquidating} {orderBook lendingBook : Hash} {price collateralPrice : ℕ}
  {ids₀ : List ℕ}

/-- Moving a listed id to the front keeps the ids a permutation of the listed ones. -/
theorem perm_insert_erase {ids ids₀ : List ℕ} (hperm : ids.Perm ids₀) (hnodup : ids₀.Nodup)
    {id : ℕ} (hid : id ∈ ids₀) : ((ids.erase id).insert id).Perm ids₀ := by
  have hmem : id ∈ ids := hperm.symm.subset hid
  have hnd : ids.Nodup := hperm.nodup_iff.2 hnodup
  rw [List.insert_of_not_mem (List.Nodup.not_mem_erase hnd)]
  exact (List.perm_cons_erase hmem).symm.trans hperm

/-- The step: handling one listed trade keeps the state. -/
theorem Relisting.liquidateListed (h : Relisting orderBook price lendingBook collateralPrice ids₀ s)
    (hbelow : collateralPrice < price) (hpos : 0 < collateralPrice * rateTopUp / baseTopUp)
    (htwo : 2 ≤ ids₀.length) (hnodup : ids₀.Nodup) {id : ℕ} (hid : id ∈ ids₀) :
    ∃ s', Liquidating.liquidateListed collateralPrice lendingBook id s = some (.ok (), s') ∧
      Relisting orderBook price lendingBook collateralPrice ids₀ s' := by
  obtain ⟨t, ht, htop, hbalance⟩ := h.trades id hid
  obtain ⟨ids, hperm, hp⟩ := h.listed
  have hb : (AList.singleton lendingBook ⟨ids₀.length, ids⟩ : Table Hash LendingBook).lookup
      lendingBook = some ⟨ids₀.length, ids⟩ := by
    simp [AList.singleton, AList.lookup]
  -- with a second trade at the price, its volume stays positive
  have hkeep : (ids₀.length : ℤ) - 1 ≠ 0 := by omega
  obtain ⟨s', hs', hre⟩ :=
    liquidateListed_of_topsUpNothing ht htop hbalance hbelow hpos hp hb hkeep
  refine ⟨s', hs', ⟨hre.keys ▸ h.highest, ⟨(ids.erase id).insert id,
    perm_insert_erase hperm hnodup hid, ?_⟩, fun id' hid' => ?_⟩⟩
  · rw [hre.listed, AList.insert_singleton_eq]
  · obtain ⟨t', ht', htop', hbalance'⟩ := h.trades id' hid'
    exact ⟨t', (hre.trades _ _).trans ht', htop', hre.statedb ▸ hbalance'⟩

/-- What the loop reads from such a state: the price, listing the one lending book. -/
theorem Relisting.query_eq (h : Relisting orderBook price lendingBook collateralPrice ids₀ s)
    (hbelow : collateralPrice < price) (htwo : 2 ≤ ids₀.length) :
    ∃ ids, ids.Perm ids₀ ∧
      PriceLoop.query orderBook collateralPrice s = ⟨s, price, [(lendingBook, ids)]⟩ := by
  obtain ⟨ids, hperm, hp⟩ := h.listed
  have hlen : ids.length = ids₀.length := hperm.length_eq
  have hne : LiquidationPrice.empty ⟨ids₀.length, AList.singleton lendingBook ⟨ids₀.length, ids⟩⟩ =
      false := by
    simp only [LiquidationPrice.empty, beq_eq_false_iff_ne]
    omega
  have hdata : (⟨ids₀.length, AList.singleton lendingBook ⟨ids₀.length, ids⟩⟩ :
      LiquidationPrice).liquidationData = [(lendingBook, ids)] := by
    have hids : ids ≠ [] := List.ne_nil_of_length_pos (by omega)
    have hvol : (ids₀.length : ℤ) ≠ 0 := by omega
    simp only [LiquidationPrice.liquidationData, AList.singleton, List.filterMap_cons,
      List.filterMap_nil]
    rw [if_pos ⟨hvol, hids⟩]
  refine ⟨ids, hperm, ?_⟩
  simp [PriceLoop.query, getHighestLiquidationPriceData_of_max h.highest hp hne, hbelow,
    Nat.zero_lt_of_lt hbelow, hdata]

/-- A pass of the price loop from such a state: the loop's test holds, every listed trade is
spared, and the loop reads the same price again. -/
theorem Relisting.pass (h : Relisting orderBook price lendingBook collateralPrice ids₀ s)
    (hbelow : collateralPrice < price) (hpos : 0 < collateralPrice * rateTopUp / baseTopUp)
    (htwo : 2 ≤ ids₀.length) (hnodup : ids₀.Nodup) :
    PriceLoop.above collateralPrice (PriceLoop.query orderBook collateralPrice s) = true ∧
      ∃ s', priceLoopPass orderBook collateralPrice (PriceLoop.query orderBook collateralPrice s) =
          some (.next (PriceLoop.query orderBook collateralPrice s')) ∧
        Relisting orderBook price lendingBook collateralPrice ids₀ s' := by
  obtain ⟨ids, hperm, hquery⟩ := h.query_eq hbelow htwo
  -- the two nested ranges, each keeping the state
  have hbook : ∀ e ∈ [(lendingBook, ids)], ∀ s,
      Relisting orderBook price lendingBook collateralPrice ids₀ s →
      ∃ s', each (Liquidating.liquidateListed collateralPrice e.1) e.2 s = some (.ok (), s') ∧
        Relisting orderBook price lendingBook collateralPrice ids₀ s' := by
    intro e he s hs
    rw [List.mem_singleton.1 he]
    exact each_invariant _ (fun id hid s hs => hs.liquidateListed hbelow hpos htwo hnodup
      (hperm.subset hid)) hs
  obtain ⟨s', heach, hs'⟩ := each_invariant _ hbook h
  refine ⟨by simp [hquery, PriceLoop.above, hbelow, Nat.zero_lt_of_lt hbelow], s', ?_, hs'⟩
  simp [XdcSubnet.XDCxLending.priceLoopPass, hquery, heach]

/-- From such a state the price loop goes round for ever: every pass spares every listed trade
and lists it again at the same price, which stays the highest. -/
theorem Relisting.diverges (h : Relisting orderBook price lendingBook collateralPrice ids₀ s)
    (hbelow : collateralPrice < price) (hpos : 0 < collateralPrice * rateTopUp / baseTopUp)
    (htwo : 2 ≤ ids₀.length) (hnodup : ids₀.Nodup) :
    Diverges (PriceLoop.above collateralPrice) (priceLoopPass orderBook collateralPrice)
      (PriceLoop.query orderBook collateralPrice s) := by
  refine ⟨fun p => ∃ s, p = PriceLoop.query orderBook collateralPrice s ∧
    Relisting orderBook price lendingBook collateralPrice ids₀ s, ⟨s, rfl, h⟩, ?_⟩
  rintro _ ⟨s, rfl, hs⟩
  obtain ⟨habove, s', hpass, hs'⟩ := hs.pass hbelow hpos htwo hnodup
  exact ⟨habove, _, hpass, s', rfl, hs'⟩

/-- So `liquidateByPrice` gives no result on any fuel. -/
theorem liquidateByPrice_of_relisting
    (h : Relisting orderBook price lendingBook collateralPrice ids₀ s)
    (hbelow : collateralPrice < price) (hpos : 0 < collateralPrice * rateTopUp / baseTopUp)
    (htwo : 2 ≤ ids₀.length) (hnodup : ids₀.Nodup) (fuel : ℕ) :
    liquidateByPrice fuel orderBook collateralPrice s = none :=
  (h.diverges hbelow hpos htwo hnodup).run_eq_none fuel

end Relisting

/-! ### The liquidation indexes kept with the trades -/

/-- The ids a lending book lists under a liquidation price or time: the volume counts them, none
twice, and each is an open trade of the lending book with that id, of which `holds` holds. -/
def ListsOpenTrades (lending : LendingStateDB) (lendingBook : Hash) (volume : ℤ) (ids : List ℕ)
    (holds : LendingTrade → Prop) : Prop :=
  volume = ids.length ∧ ids.Nodup ∧ ∀ id ∈ ids, ∃ t, tradeAt lending lendingBook id = some t ∧
    t.amount ≠ 0 ∧ t.tradeId = id ∧ holds t

/-- The two liquidation indexes agree with the trades, as matching a trade (`InsertTradingItem`,
`InsertLiquidationTime`, `InsertLiquidationPrice`) and closing it keep them: every key of a
liquidation-price trie holds a price of non-zero volume, the sum of its lending books' volumes,
each listing open trades at that price and of that order book; every key of a liquidation-time
trie lists open trades due then; and every open trade is listed at its liquidation price and at
its liquidation time. -/
structure LiquidationIndexed (trading : TradingStateDB) (lending : LendingStateDB) : Prop where
  prices : ∀ orderBook, ∀ price ∈ (pricesAt trading orderBook).stored.keys, ∃ p,
    (pricesAt trading orderBook).get price = some p ∧ p.volume ≠ 0 ∧
    p.volume = (p.lendingBooks.entries.map fun e => e.2.volume).sum ∧
    ∀ e ∈ p.lendingBooks.entries, ListsOpenTrades lending e.1 e.2.volume e.2.tradeIds fun t =>
      t.liquidationPrice = price ∧
        getTradingOrderBookHash t.collateralToken t.lendingToken = orderBook
  times : ∀ lendingBook, ∀ time ∈ (lending.timesAt lendingBook).stored.keys, ∃ l,
    (lending.timesAt lendingBook).get time = some l ∧ l.volume ≠ 0 ∧
    ListsOpenTrades lending lendingBook l.volume l.tradeIds fun t => t.liquidationTime = time
  listed : ∀ lendingBook id t, tradeAt lending lendingBook id = some t → t.amount ≠ 0 →
    (∃ p b, t.liquidationPrice ∈
        (pricesAt trading (getTradingOrderBookHash t.collateralToken t.lendingToken)).stored.keys ∧
      (pricesAt trading (getTradingOrderBookHash t.collateralToken t.lendingToken)).get
        t.liquidationPrice = some p ∧
      p.lendingBooks.lookup lendingBook = some b ∧ id ∈ b.tradeIds) ∧
    ∃ l, t.liquidationTime ∈ (lending.timesAt lendingBook).stored.keys ∧
      (lending.timesAt lendingBook).get t.liquidationTime = some l ∧ id ∈ l.tradeIds

/-! ### Two trades the price loop never gets past -/

/-- A chain state with no balances and no token contracts. -/
def emptyStateDB : StateDB where
  balance _ := 0
  exist _ := false
  tokenBalances _ _ := 0
  relayerOwner _ := 0
  relayerDeposit _ := 0
  owner _ := 0
  tokenBalances_lt _ _ := Nat.two_pow_pos 256
  relayerDeposit_lt _ := Nat.two_pow_pos 256

/-- Trade `tradeId` of lending book `3`: `1` of token `2` lent by `6` to `5` against `1` XDC
locked at the liquidation price `100`, topping up automatically, due at time `1000`. -/
def relistedTrade (tradeId : ℕ) : LendingTrade :=
  { emptyLendingTrade with
    borrower := 5, investor := 6, lendingToken := 2, collateralToken := XDCx.xdcNativeAddress,
    liquidationPrice := 100, collateralLockedAmount := 1, autoTopUp := true,
    liquidationTime := 1000, amount := 1, tradeId }

/-- The trades `1` and `2` inserted and indexed, as matching inserts and indexes a trade, in the
empty states.  Their order book is `GetTradingOrderBookHash(XDC, 2) = 2`. -/
def relistingInput : Liquidating where
  statedb := emptyStateDB
  tradingState :=
    (TradingStateDB.empty.insertLiquidationPrice 2 100 3 1).insertLiquidationPrice 2 100 3 2
  lendingState :=
    (((LendingStateDB.empty.insertTradingItem 3 1 (relistedTrade 1)).insertLiquidationTime 3 1000
      1).insertTradingItem 3 2 (relistedTrade 2)).insertLiquidationTime 3 1000 2
  autoTopUpTrades := []
  liquidatedTrades := []

theorem orderBook_relistedTrade (tradeId : ℕ) :
    getTradingOrderBookHash (relistedTrade tradeId).collateralToken
      (relistedTrade tradeId).lendingToken = 2 := by
  show getTradingOrderBookHash XDCx.xdcNativeAddress 2 = 2
  decide

theorem tradeAt_relistingInput (B : Hash) (i : ℕ) :
    tradeAt relistingInput.lendingState B i =
      if B = 3 ∧ i = 2 then some (relistedTrade 2)
      else if B = 3 ∧ i = 1 then some (relistedTrade 1) else none := by
  simp only [relistingInput, tradeAt_insertLiquidationTime, tradeAt_insertTradingItem]
  rfl

theorem pricesAt_relistingInput_ne {orderBook : Hash} (h : orderBook ≠ 2) :
    pricesAt relistingInput.tradingState orderBook = .empty := by
  simp only [relistingInput, pricesAt_insertLiquidationPrice_ne _ _ _ _ h]
  rfl

theorem timesAt_relistingInput_ne {B : Hash} (h : B ≠ 3) :
    relistingInput.lendingState.timesAt B = .empty := by
  simp only [relistingInput, timesAt_insertLiquidationTime_ne _ _ _ h,
    LendingStateDB.timesAt_insertTradingItem]
  rfl

theorem pricesAt_relistingInput :
    (pricesAt relistingInput.tradingState 2).stored.keys = [100] ∧
      (pricesAt relistingInput.tradingState 2).get 100 =
        some ⟨2, AList.singleton 3 ⟨2, [2, 1]⟩⟩ :=
  ⟨by decide, rfl⟩

theorem timesAt_relistingInput :
    (relistingInput.lendingState.timesAt 3).stored.keys = [1000] ∧
      (relistingInput.lendingState.timesAt 3).get 1000 = some ⟨2, [2, 1]⟩ :=
  ⟨by decide, rfl⟩

/-- The two trades, open, listed under lending book `3` as `[2, 1]`. -/
theorem listsOpenTrades_relistingInput {holds : LendingTrade → Prop}
    (hholds : ∀ id ∈ [2, 1], holds (relistedTrade id)) :
    ListsOpenTrades relistingInput.lendingState 3 2 [2, 1] holds := by
  refine ⟨by decide, by decide, fun id hid => ⟨relistedTrade id, ?_, Nat.one_ne_zero, rfl,
    hholds id hid⟩⟩
  simp only [List.mem_cons, List.not_mem_nil, or_false] at hid
  rcases hid with rfl | rfl <;> simp [tradeAt_relistingInput]

/-- The state keeps both liquidation indexes with its trades. -/
theorem relistingInput_indexed :
    LiquidationIndexed relistingInput.tradingState relistingInput.lendingState where
  prices orderBook price hprice := by
    by_cases hob : orderBook = 2
    · subst hob
      obtain ⟨hkeys, hp⟩ := pricesAt_relistingInput
      rw [hkeys, List.mem_singleton] at hprice
      subst hprice
      refine ⟨_, hp, by decide, by decide, fun e he => ?_⟩
      rw [AList.singleton_entries, List.mem_singleton] at he
      subst he
      exact listsOpenTrades_relistingInput fun id _ => ⟨rfl, orderBook_relistedTrade id⟩
    · rw [pricesAt_relistingInput_ne hob] at hprice
      simp [Store.empty] at hprice
  times lendingBook time htime := by
    by_cases hB : lendingBook = 3
    · subst hB
      obtain ⟨hkeys, hl⟩ := timesAt_relistingInput
      rw [hkeys, List.mem_singleton] at htime
      subst htime
      exact ⟨_, hl, by decide, listsOpenTrades_relistingInput fun id _ => rfl⟩
    · rw [timesAt_relistingInput_ne hB] at htime
      simp [Store.empty] at htime
  listed lendingBook id t ht _ := by
    rw [tradeAt_relistingInput] at ht
    -- the two trades, each listed at price `100` and time `1000` of lending book `3`
    have hlisted : ∀ id ∈ [2, 1], (relistedTrade id).liquidationPrice = 100 ∧
        getTradingOrderBookHash (relistedTrade id).collateralToken
          (relistedTrade id).lendingToken = 2 ∧ (relistedTrade id).liquidationTime = 1000 :=
      fun id _ => ⟨rfl, orderBook_relistedTrade id, rfl⟩
    have hcase : lendingBook = 3 ∧ id ∈ [2, 1] ∧ t = relistedTrade id := by
      split_ifs at ht with h₂ h₁
      · exact ⟨h₂.1, by simp [h₂.2], by rw [h₂.2]; exact (Option.some.inj ht).symm⟩
      · exact ⟨h₁.1, by simp [h₁.2], by rw [h₁.2]; exact (Option.some.inj ht).symm⟩
    obtain ⟨rfl, hid, rfl⟩ := hcase
    obtain ⟨hprice, hob, htime⟩ := hlisted id hid
    obtain ⟨hpkeys, hp⟩ := pricesAt_relistingInput
    obtain ⟨htkeys, hl⟩ := timesAt_relistingInput
    rw [hprice, hob, htime]
    exact ⟨⟨_, ⟨2, [2, 1]⟩, by simp [hpkeys], hp, by simp [AList.singleton, AList.lookup], hid⟩,
      _, by simp [htkeys], hl, hid⟩

/-- At the collateral price `99` the top-up price is `99 · 90 / 100 = 89`, and the locked amount
it needs `1 · 100 / 89 = 1`: both trades top up by nothing. -/
theorem relistingInput_relisting : Relisting 2 100 3 99 [1, 2] relistingInput where
  highest := by rw [pricesAt_relistingInput.1]; rfl
  listed := ⟨[2, 1], by decide, pricesAt_relistingInput.2⟩
  trades id hid := by
    have ht : tradeAt relistingInput.lendingState 3 id = some (relistedTrade id) := by
      simp only [List.mem_cons, List.not_mem_nil, or_false] at hid
      rcases hid with rfl | rfl <;> simp [tradeAt_relistingInput]
    refine ⟨relistedTrade id, ht, ⟨Nat.one_ne_zero, rfl, rfl, rfl, orderBook_relistedTrade id,
      Nat.one_ne_zero, ?_⟩, ?_⟩
    · show 1 * 100 / (99 * rateTopUp / baseTopUp) ≤ 1
      decide
    · show 0 ≤ getTokenBalance 5 XDCx.xdcNativeAddress emptyStateDB
      decide

/-- ProcessLiquidationData never leaves its price loop on this state, which keeps both
liquidation indexes with its trades: at the collateral price `99` each trade's top-up asks for
nothing and lists it again at `100`, which stays the highest liquidation price. -/
theorem liquidateByPrice_never_ends :
    LiquidationIndexed relistingInput.tradingState relistingInput.lendingState ∧
      Diverges (PriceLoop.above 99) (priceLoopPass 2 99) (PriceLoop.query 2 99 relistingInput) ∧
      ∀ fuel, liquidateByPrice fuel 2 99 relistingInput = none := by
  have hdiverges := relistingInput_relisting.diverges (by decide) (by decide) (by decide)
    (by decide)
  exact ⟨relistingInput_indexed, hdiverges, hdiverges.run_eq_none⟩

end XdcSubnet.XDCxLending
