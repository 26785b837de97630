import XdcSubnet.Lib.ExceptState
import XdcSubnet.Lib.Staging
import XdcSubnet.XDCx.TradingState

/-!
# Settling a match (`XDCx/order_processor.go`, `XDCx/tradingstate`)

`GetSettleBalance` prices a match of `quantityToTrade` base tokens at the maker's price.  The
taker and the maker each receive one token of the pair and pay the other.  Each also pays its
relayer a fee in the quote token, and the match is rejected when a fee is too small to cover
`RelayerFee`.

`DoSettleBalance` then moves the balances:
* it computes the six new balances through `mapBalances`, a cache by token and holder, so a
  balance changed twice is read back from its first change;
* it checks and charges each relayer's deposit in the registration contract, through a second
  cache;
* it pays the two relayer fees, `2 * RelayerFee`, to the masternode's owner;
* last, it writes the six balances with `SetTokenBalance`.

A TRC21 balance is a storage slot of the token contract.  A native XDC balance is the account
balance, and `SetTokenBalance` is then the absolute `SetBalance`.  The six balances were read
before the owner was paid.  So when the owner is a party paid or charged in XDC, the write
takes the payment back (`doSettleBalance_burns_matching_fee`); the XDC total is kept only as
`finsum_balance_doSettleBalance` says, for instance on a pair of two TRC21 tokens.  Every TRC21
token's total is kept (`finsum_tokenBalances_doSettleBalance`), and each relayer deposit is
charged `RelayerFee` once per side it serves (`doSettleBalance_spec`).

Model choices:
* addresses and amounts are numbers;
* the `*big.Int` amounts of `GetSettleBalance` are natural numbers, and its subtractions are
  guarded;
* native balances are integers, since `SubBalance` may take one below zero;
* storage slots are numbers below `2 ^ 256`, written through `BigToHash`;
* the storage reads of the relayer and validator contracts (`GetRelayerOwner`, `GetOwner`) are
  fields of the state, which settlement does not write.
-/

namespace XdcSubnet.XDCx

open Staging Function ExceptState

/-- `common.RelayerFee`, 0.001 XDC. -/
def relayerFee : ℕ := 1000000000000000

/-- `common.XDCXBaseFee`. -/
def xdcxBaseFee : ℕ := 10000

/-- `tradingstate.DefaultFeeRate`. -/
def defaultFeeRate : ℕ := 10

/-- `common.XDCNativeAddress`, the token address that stands for native XDC. -/
def xdcNativeAddress : Hash := 1

/-- `common.RelayerRegistrationSMC`. -/
def relayerRegistrationSMC : Hash := 0x16c63b79f9C8784168103C0b74E6A59EC2de4a02

/-- `common.BigToHash` read back as a number: the last 32 bytes of the magnitude. -/
def bigToHash (b : ℤ) : ℕ := b.natAbs % 2 ^ 256

theorem bigToHash_lt (b : ℤ) : bigToHash b < 2 ^ 256 := Nat.mod_lt _ (by positivity)

/-- A slot value is kept by `BigToHash`. -/
theorem bigToHash_of_lt {b : ℤ} (h0 : 0 ≤ b) (h : b < 2 ^ 256) : (bigToHash b : ℤ) = b := by
  have hnat : b.natAbs < 2 ^ 256 := by omega
  rw [bigToHash, Nat.mod_eq_of_lt hnat]
  omega

/-- The errors of settlement, with the data their texts print. -/
inductive SettleError
  /-- `ErrQuantityTradeTooSmall`, "quantity trade too small". -/
  | quantityTradeTooSmall
  /-- "Echange owner empty , Taker: %v , maker : %v ". -/
  | exchangeOwnerEmpty (taker maker : Hash)
  /-- "value %s in token %s not enough , have : %s , want : %s  ". -/
  | notEnough (addr token : Hash) (balance : ℤ) (value : ℕ)
  /-- "token %s isn't exist". -/
  | tokenNotExist (token : Hash)
  /-- "Overflow when try add token balance , max is 2^256 , balance : %v , value:%v ". -/
  | overflow (balance : ℤ) (value : ℕ)
  /-- "relayer %s isn't enough XDC fee". -/
  | relayerFeeNotEnough (relayer : Hash)
  deriving DecidableEq, Repr

/-! ### `GetSettleBalance` -/

/-- `TradeResult`: the token a side receives and the one it pays, with the amounts, and its
fee. -/
structure TradeResult where
  fee : ℕ
  inToken : Hash
  inTotal : ℕ
  outToken : Hash
  outTotal : ℕ
  deriving DecidableEq, Repr

/-- `SettleBalance`. -/
structure SettleBalance where
  taker : TradeResult
  maker : TradeResult
  deriving DecidableEq, Repr

/-- A fee received by a relayer is too small: positive but at most `RelayerFee`, or the
default fee is at most `RelayerFee`. -/
def feeTooSmall (receivedFee defaultFee : ℕ) : Bool :=
  decide ((receivedFee ≤ relayerFee ∧ 0 < receivedFee) ∨ defaultFee ≤ relayerFee)

/-- The fee checks of `GetSettleBalance`, the same for both taker sides: in XDC at
`quotePrice` for a priced TRC21 quote token, as they are for native XDC, and none for an
unpriced TRC21 quote token. -/
def feesTooSmall (quotePrice : Option ℕ) (quoteToken : Hash)
    (quoteTokenDecimal makerFee takerFee defaultFee : ℕ) : Bool :=
  if quoteToken ≠ xdcNativeAddress ∧ 0 < quotePrice.getD 0 then
    let quotePrice := quotePrice.getD 0
    let defaultFeeInXDC := defaultFee * quotePrice / quoteTokenDecimal
    feeTooSmall (makerFee * quotePrice / quoteTokenDecimal) defaultFeeInXDC ||
      feeTooSmall (takerFee * quotePrice / quoteTokenDecimal) defaultFeeInXDC
  else if quoteToken = xdcNativeAddress then
    feeTooSmall makerFee defaultFee || feeTooSmall takerFee defaultFee
  else false

/-- `GetSettleBalance`.  A zero `baseTokenDecimal` or `quoteTokenDecimal` would make Go panic;
the callers reject a zero `baseTokenDecimal`, and division by zero is zero here. -/
def getSettleBalance (quotePrice : Option ℕ) (takerSide : Side) (takerFeeRate : ℕ)
    (baseToken quoteToken : Hash)
    (makerPrice makerFeeRate baseTokenDecimal quoteTokenDecimal quantityToTrade : ℕ) :
    Except SettleError SettleBalance :=
  let quoteTokenQuantity := quantityToTrade * makerPrice / baseTokenDecimal
  let makerFee := quoteTokenQuantity * makerFeeRate / xdcxBaseFee
  let takerFee := quoteTokenQuantity * takerFeeRate / xdcxBaseFee
  let defaultFee := quoteTokenQuantity * defaultFeeRate / xdcxBaseFee
  if takerSide = .bid then
    if quoteTokenQuantity ≤ makerFee ∨ quoteTokenQuantity ≤ defaultFee then
      .error .quantityTradeTooSmall
    else if feesTooSmall quotePrice quoteToken quoteTokenDecimal makerFee takerFee defaultFee then
      .error .quantityTradeTooSmall
    else .ok
      { taker := ⟨takerFee, baseToken, quantityToTrade, quoteToken, quoteTokenQuantity + takerFee⟩
        maker := ⟨makerFee, quoteToken, quoteTokenQuantity - makerFee, baseToken,
          quantityToTrade⟩ }
  else
    if quoteTokenQuantity ≤ takerFee ∨ quoteTokenQuantity ≤ defaultFee then
      .error .quantityTradeTooSmall
    else if feesTooSmall quotePrice quoteToken quoteTokenDecimal makerFee takerFee defaultFee then
      .error .quantityTradeTooSmall
    else .ok
      { taker := ⟨takerFee, quoteToken, quoteTokenQuantity - takerFee, baseToken,
          quantityToTrade⟩
        maker := ⟨makerFee, baseToken, quantityToTrade, quoteToken, quoteTokenQuantity + makerFee⟩ }

/-! ### The state settlement reads and writes -/

/-- The parts of `state.StateDB` that settlement reads and writes. -/
structure StateDB where
  /-- `GetBalance`. -/
  balance : Hash → ℤ
  /-- `Exist`, of a token contract. -/
  exist : Hash → Bool
  /-- The `balances` mapping of a token contract, by token and holder. -/
  tokenBalances : Hash → Hash → ℕ
  /-- `RELAYER_LIST[relayer]._owner` of the registration contract. -/
  relayerOwner : Hash → Hash
  /-- `RELAYER_LIST[relayer]._deposit` of the registration contract. -/
  relayerDeposit : Hash → ℕ
  /-- `validatorsState[candidate].owner` of the validator contract. -/
  owner : Hash → Hash
  tokenBalances_lt : ∀ token addr, tokenBalances token addr < 2 ^ 256
  relayerDeposit_lt : ∀ relayer, relayerDeposit relayer < 2 ^ 256

namespace StateDB

/-- `AddBalance`. -/
def addBalance (s : StateDB) (addr : Hash) (amount : ℤ) : StateDB :=
  { s with balance := update s.balance addr (s.balance addr + amount) }

/-- `SubBalance`. -/
def subBalance (s : StateDB) (addr : Hash) (amount : ℤ) : StateDB :=
  { s with balance := update s.balance addr (s.balance addr - amount) }

/-- `SetBalance`. -/
def setBalance (s : StateDB) (addr : Hash) (amount : ℤ) : StateDB :=
  { s with balance := update s.balance addr amount }

/-- `SetState` of the holder's slot in a token's `balances` mapping. -/
def setTokenState (s : StateDB) (token addr : Hash) (b : ℤ) : StateDB :=
  { s with
    tokenBalances := update s.tokenBalances token (update (s.tokenBalances token) addr (bigToHash b))
    tokenBalances_lt := fun t a => by
      by_cases ht : t = token
      · subst ht
        by_cases ha : a = addr
        · subst ha; simpa using bigToHash_lt b
        · simpa [ha] using s.tokenBalances_lt t a
      · simpa [ht] using s.tokenBalances_lt t a }

/-- `SetState` of a relayer's deposit slot in the registration contract. -/
def setRelayerDeposit (s : StateDB) (relayer : Hash) (b : ℤ) : StateDB :=
  { s with
    relayerDeposit := update s.relayerDeposit relayer (bigToHash b)
    relayerDeposit_lt := fun r => by
      by_cases hr : r = relayer
      · subst hr; simpa using bigToHash_lt b
      · simpa [hr] using s.relayerDeposit_lt r }

end StateDB

/-- `GetRelayerOwner`. -/
def getRelayerOwner (relayer : Hash) (statedb : StateDB) : Hash := statedb.relayerOwner relayer

/-- `GetTokenBalance`: the XDC balance, the token's slot, or `0` for a token without a
contract. -/
def getTokenBalance (addr token : Hash) (statedb : StateDB) : ℤ :=
  if token = xdcNativeAddress then statedb.balance addr
  else if statedb.exist token then statedb.tokenBalances token addr
  else 0

/-- `CheckSubTokenBalance`: the balance of `addr` in `token`, read through `mapBalances`, less
`value`. -/
def checkSubTokenBalance (addr : Hash) (value : ℕ) (token : Hash) (statedb : StateDB)
    (mapBalances : Hash × Hash → Option ℤ) : Except SettleError ℤ :=
  if token = xdcNativeAddress then
    let balance := (mapBalances (token, addr)).getD (statedb.balance addr)
    if balance < value then .error (.notEnough addr token balance value)
    else .ok (balance - value)
  else if statedb.exist token then
    let balance := (mapBalances (token, addr)).getD (statedb.tokenBalances token addr)
    if balance < value then .error (.notEnough addr token balance value)
    else .ok (balance - value)
  else .error (.tokenNotExist token)

/-- `CheckAddTokenBalance`: the balance of `addr` in `token`, read through `mapBalances`, plus
`value`; a TRC21 balance must still fit its slot. -/
def checkAddTokenBalance (addr : Hash) (value : ℕ) (token : Hash) (statedb : StateDB)
    (mapBalances : Hash × Hash → Option ℤ) : Except SettleError ℤ :=
  if token = xdcNativeAddress then
    .ok ((mapBalances (token, addr)).getD (statedb.balance addr) + value)
  else if statedb.exist token then
    let balance := (mapBalances (token, addr)).getD (statedb.tokenBalances token addr)
    let newBalance := balance + value
    if (bigToHash newBalance : ℤ) ≠ newBalance then .error (.overflow balance value)
    else .ok newBalance
  else .error (.tokenNotExist token)

/-- `CheckSubRelayerFee`: the deposit of `relayer`, read through `mapBalances`, less `fee`. -/
def checkSubRelayerFee (relayer : Hash) (fee : ℕ) (statedb : StateDB)
    (mapBalances : Hash → Option ℕ) : Except SettleError ℕ :=
  let balance := (mapBalances relayer).getD (statedb.relayerDeposit relayer)
  if balance < fee then .error (.relayerFeeNotEnough relayer) else .ok (balance - fee)

/-- `SetTokenBalance`: an absolute write, of the XDC balance or of the token's slot. -/
def setTokenBalance (addr : Hash) (balance : ℤ) (token : Hash) (statedb : StateDB) :
    Except SettleError StateDB :=
  if token = xdcNativeAddress then .ok (statedb.setBalance addr balance)
  else if statedb.exist token then .ok (statedb.setTokenState token addr balance)
  else .error (.tokenNotExist token)

/-- `SetSubRelayerFee`: the deposit written, and the fee taken from the registration
contract's XDC balance. -/
def setSubRelayerFee (relayer : Hash) (balance fee : ℕ) (statedb : StateDB) : StateDB :=
  (statedb.setRelayerDeposit relayer balance).subBalance relayerRegistrationSMC fee

/-- A call whose error is only logged: the state it leaves. -/
def logged (r : Except SettleError StateDB) (statedb : StateDB) : StateDB :=
  match r with
  | .ok s => s
  | .error _ => statedb

/-! ### `DoSettleBalance` -/

/-- An order as settlement reads it: the fields of `OrderItem`, and its token pair. -/
structure TradedOrder extends OrderItem where
  baseToken : Hash
  quoteToken : Hash
  deriving DecidableEq, Repr

/-- `DoSettleBalance`. -/
def doSettleBalance (coinbase : Hash) (takerOrder makerOrder : TradedOrder)
    (settleBalance : SettleBalance) (statedb : StateDB) : Except SettleError StateDB := do
  let takerExOwner := getRelayerOwner takerOrder.exchangeAddress statedb
  let makerExOwner := getRelayerOwner makerOrder.exchangeAddress statedb
  let matchingFee := 0 + relayerFee + relayerFee
  if takerExOwner = 0 ∨ makerExOwner = 0 then
    throw (.exchangeOwnerEmpty takerExOwner makerExOwner)
  let mapBalances : Hash × Hash → Option ℤ := fun _ => none
  let newTakerInTotal ← checkAddTokenBalance takerOrder.userAddress
    settleBalance.taker.inTotal settleBalance.taker.inToken statedb mapBalances
  let mapBalances :=
    stage mapBalances (settleBalance.taker.inToken, takerOrder.userAddress) newTakerInTotal
  let newTakerOutTotal ← checkSubTokenBalance takerOrder.userAddress
    settleBalance.taker.outTotal settleBalance.taker.outToken statedb mapBalances
  let mapBalances :=
    stage mapBalances (settleBalance.taker.outToken, takerOrder.userAddress) newTakerOutTotal
  let newMakerInTotal ← checkAddTokenBalance makerOrder.userAddress
    settleBalance.maker.inTotal settleBalance.maker.inToken statedb mapBalances
  let mapBalances :=
    stage mapBalances (settleBalance.maker.inToken, makerOrder.userAddress) newMakerInTotal
  let newMakerOutTotal ← checkSubTokenBalance makerOrder.userAddress
    settleBalance.maker.outTotal settleBalance.maker.outToken statedb mapBalances
  let mapBalances :=
    stage mapBalances (settleBalance.maker.outToken, makerOrder.userAddress) newMakerOutTotal
  let newTakerFee ← checkAddTokenBalance takerExOwner settleBalance.taker.fee
    makerOrder.quoteToken statedb mapBalances
  let mapBalances := stage mapBalances (makerOrder.quoteToken, takerExOwner) newTakerFee
  let newMakerFee ← checkAddTokenBalance makerExOwner settleBalance.maker.fee
    makerOrder.quoteToken statedb mapBalances
  let mapRelayerFee : Hash → Option ℕ := fun _ => none
  let newRelayerTakerFee ← checkSubRelayerFee takerOrder.exchangeAddress relayerFee statedb
    mapRelayerFee
  let mapRelayerFee := update mapRelayerFee takerOrder.exchangeAddress (some newRelayerTakerFee)
  let newRelayerMakerFee ← checkSubRelayerFee makerOrder.exchangeAddress relayerFee statedb
    mapRelayerFee
  let statedb := setSubRelayerFee takerOrder.exchangeAddress newRelayerTakerFee relayerFee statedb
  let statedb := setSubRelayerFee makerOrder.exchangeAddress newRelayerMakerFee relayerFee statedb
  let masternodeOwner := statedb.owner coinbase
  let statedb := statedb.addBalance masternodeOwner matchingFee
  let statedb := logged (setTokenBalance takerOrder.userAddress newTakerInTotal
    settleBalance.taker.inToken statedb) statedb
  let statedb := logged (setTokenBalance takerOrder.userAddress newTakerOutTotal
    settleBalance.taker.outToken statedb) statedb
  let statedb := logged (setTokenBalance makerOrder.userAddress newMakerInTotal
    settleBalance.maker.inToken statedb) statedb
  let statedb := logged (setTokenBalance makerOrder.userAddress newMakerOutTotal
    settleBalance.maker.outToken statedb) statedb
  let statedb := logged (setTokenBalance takerExOwner newTakerFee makerOrder.quoteToken statedb)
    statedb
  let statedb := logged (setTokenBalance makerExOwner newMakerFee makerOrder.quoteToken statedb)
    statedb
  return statedb

/-! ### What each step computes -/

/-- The balance of holder `k.2` in token `k.1`, as `GetTokenBalance` reads it. -/
def balanceOf (statedb : StateDB) (k : Hash × Hash) : ℤ := getTokenBalance k.2 k.1 statedb

/-- A write of `v` as a balance of `token` is exact: to an XDC balance, or to the slot of an
existing token contract, which holds it. -/
def Exact (exist : Hash → Bool) (token : Hash) (v : ℤ) : Prop :=
  token = xdcNativeAddress ∨ exist token ∧ (bigToHash v : ℤ) = v

/-- Every TRC21 balance Staging.read through the cache is a slot value. -/
def CacheFits (statedb : StateDB) (mapBalances : Hash × Hash → Option ℤ) : Prop :=
  ∀ k : Hash × Hash, k.1 ≠ xdcNativeAddress →
    0 ≤ Staging.read (balanceOf statedb) mapBalances k ∧ Staging.read (balanceOf statedb) mapBalances k < 2 ^ 256

theorem cacheFits_empty (s : StateDB) : CacheFits s fun _ => none := by
  intro k hk
  simp only [Staging.read, Option.getD_none, balanceOf, getTokenBalance, if_neg hk]
  split_ifs
  · exact ⟨by positivity, by exact_mod_cast s.tokenBalances_lt _ _⟩
  · norm_num

/-- The XDC balance read through the cache. -/
theorem read_balanceOf_native {s : StateDB} {m : Hash × Hash → Option ℤ} {token : Hash}
    (hn : token = xdcNativeAddress) (addr : Hash) :
    (m (token, addr)).getD (s.balance addr) = Staging.read (balanceOf s) m (token, addr) := by
  simp [Staging.read, balanceOf, getTokenBalance, hn]

/-- A token contract's slot read through the cache. -/
theorem read_balanceOf_token {s : StateDB} {m : Hash × Hash → Option ℤ} {token : Hash}
    (hn : token ≠ xdcNativeAddress) (hex : s.exist token) (addr : Hash) :
    (m (token, addr)).getD (s.tokenBalances token addr : ℤ) =
      Staging.read (balanceOf s) m (token, addr) := by
  simp [Staging.read, balanceOf, getTokenBalance, hn, hex]

theorem checkAddTokenBalance_ok {addr token : Hash} {value : ℕ} {s : StateDB}
    {m : Hash × Hash → Option ℤ} {v : ℤ} (h : checkAddTokenBalance addr value token s m = .ok v) :
    v = Staging.read (balanceOf s) m (token, addr) + value ∧ Exact s.exist token v := by
  unfold checkAddTokenBalance at h
  dsimp only at h
  split_ifs at h with hn hex hover
  · cases h
    exact ⟨by rw [read_balanceOf_native hn], .inl hn⟩
  · cases h
    exact ⟨by rw [read_balanceOf_token hn hex], .inr ⟨hex, not_not.1 hover⟩⟩

theorem checkSubTokenBalance_ok {addr token : Hash} {value : ℕ} {s : StateDB}
    {m : Hash × Hash → Option ℤ} {v : ℤ} (h : checkSubTokenBalance addr value token s m = .ok v) :
    v = Staging.read (balanceOf s) m (token, addr) - value ∧
      (value : ℤ) ≤ Staging.read (balanceOf s) m (token, addr) ∧
        (token = xdcNativeAddress ∨ s.exist token) := by
  unfold checkSubTokenBalance at h
  dsimp only at h
  split_ifs at h with hn hlt hex hlt'
  · cases h
    rw [← read_balanceOf_native hn]
    exact ⟨rfl, not_lt.1 hlt, .inl hn⟩
  · cases h
    rw [← read_balanceOf_token hn hex]
    exact ⟨rfl, not_lt.1 hlt', .inr hex⟩

theorem checkSubRelayerFee_ok {relayer : Hash} {fee : ℕ} {s : StateDB} {m : Hash → Option ℕ}
    {r : ℕ} (h : checkSubRelayerFee relayer fee s m = .ok r) :
    r + fee = (m relayer).getD (s.relayerDeposit relayer) := by
  unfold checkSubRelayerFee at h
  dsimp only at h
  split_ifs at h with hlt
  cases h
  omega

/-! ### The staged balances -/

/-- The cache and the queued writes after the checks of the changes `ds`: what the library's
staging gives, with every TRC21 Staging.read a slot value and every queued write exact. -/
structure Staged (s : StateDB) (ds : List ((Hash × Hash) × ℤ)) (m : Hash × Hash → Option ℤ)
    (ws : List ((Hash × Hash) × ℤ)) : Prop where
  eq : stageAll (balanceOf s) ds (fun _ => none, []) = (m, ws)
  fits : CacheFits s m
  exact : ∀ w ∈ ws, Exact s.exist w.1.1 w.2

theorem staged_nil (s : StateDB) : Staged s [] (fun _ => none) [] :=
  ⟨rfl, cacheFits_empty s, by simp⟩

section Staged

variable {s : StateDB} {ds ws : List ((Hash × Hash) × ℤ)} {m : Hash × Hash → Option ℤ}
  {addr token : Hash} {value : ℕ} {v : ℤ}

theorem Staged.exact_append (hs : Staged s ds m ws) (hv : Exact s.exist token v) :
    ∀ w ∈ ws ++ [((token, addr), v)], Exact s.exist w.1.1 w.2 := by
  intro w hw
  rcases List.mem_append.1 hw with hw | hw
  · exact hs.exact w hw
  · rw [List.mem_singleton.1 hw]
    exact hv

/-- `CheckAddTokenBalance` stages the balance plus `value`. -/
theorem Staged.add (hs : Staged s ds m ws)
    (h : checkAddTokenBalance addr value token s m = .ok v) :
    Staged s (ds ++ [((token, addr), (value : ℤ))]) (stage m (token, addr) v)
      (ws ++ [((token, addr), v)]) := by
  obtain ⟨hv, hexact⟩ := checkAddTokenBalance_ok h
  refine ⟨by simp only [stageAll_append_singleton, hs.eq, hv], fun k hk => ?_,
    hs.exact_append hexact⟩
  rw [read_stage]
  split_ifs with hkey
  · subst hkey
    obtain ⟨-, hfit⟩ := hexact.resolve_left hk
    rw [← hfit]
    exact ⟨by positivity, by exact_mod_cast bigToHash_lt v⟩
  · exact hs.fits k hk

/-- `CheckSubTokenBalance` stages the balance less `value`. -/
theorem Staged.sub (hs : Staged s ds m ws)
    (h : checkSubTokenBalance addr value token s m = .ok v) :
    Staged s (ds ++ [((token, addr), -(value : ℤ))]) (stage m (token, addr) v)
      (ws ++ [((token, addr), v)]) := by
  obtain ⟨hv, hle, hkind⟩ := checkSubTokenBalance_ok h
  have hfit : token ≠ xdcNativeAddress → 0 ≤ v ∧ v < 2 ^ 256 := fun hn => by
    have := hs.fits (token, addr) hn
    omega
  have hexact : Exact s.exist token v := by
    by_cases hn : token = xdcNativeAddress
    · exact .inl hn
    · exact .inr ⟨hkind.resolve_left hn, bigToHash_of_lt (hfit hn).1 (hfit hn).2⟩
  refine ⟨by simp only [stageAll_append_singleton, hs.eq, hv, sub_eq_add_neg], fun k hk => ?_,
    hs.exact_append hexact⟩
  rw [read_stage]
  split_ifs with hkey
  · subst hkey
    exact hfit hk
  · exact hs.fits k hk

end Staged

/-! ### The writes -/

/-- The six writes of `DoSettleBalance`, each of a queued balance, as a fold. -/
def writeBalances (ws : List ((Hash × Hash) × ℤ)) (statedb : StateDB) : StateDB :=
  ws.foldl (fun st w => logged (setTokenBalance w.1.2 w.2 w.1.1 st) st) statedb

theorem setTokenBalance_frame (addr token : Hash) (v : ℤ) (s : StateDB) :
    (logged (setTokenBalance addr v token s) s).exist = s.exist ∧
      (logged (setTokenBalance addr v token s) s).relayerDeposit = s.relayerDeposit := by
  unfold setTokenBalance
  split_ifs <;> exact ⟨rfl, rfl⟩

theorem balanceOf_setTokenBalance {addr token : Hash} {v : ℤ} {s : StateDB}
    (hw : Exact s.exist token v) :
    balanceOf (logged (setTokenBalance addr v token s) s) = update (balanceOf s) (token, addr) v := by
  funext k
  obtain ⟨t, a⟩ := k
  by_cases hn : token = xdcNativeAddress
  · simp only [setTokenBalance, if_pos hn, logged]
    by_cases hk : (t, a) = (token, addr)
    · obtain ⟨rfl, rfl⟩ := Prod.mk.inj hk
      simp [balanceOf, getTokenBalance, StateDB.setBalance, hn]
    · rw [update_of_ne hk]
      by_cases ht : t = xdcNativeAddress
      · have ha : a ≠ addr := fun ha => hk (by rw [ha, ht, hn])
        simp [balanceOf, getTokenBalance, StateDB.setBalance, ht, ha]
      · by_cases hex : s.exist t <;> simp [balanceOf, getTokenBalance, StateDB.setBalance, ht, hex]
  · obtain ⟨hex, hv⟩ := hw.resolve_left hn
    simp only [setTokenBalance, if_neg hn, hex, if_true, logged]
    by_cases hk : (t, a) = (token, addr)
    · obtain ⟨rfl, rfl⟩ := Prod.mk.inj hk
      simp [balanceOf, getTokenBalance, StateDB.setTokenState, hn, hex, hv]
    · rw [update_of_ne hk]
      by_cases ht : t = token
      · have ha : a ≠ addr := fun ha => hk (by rw [ha, ht])
        simp [balanceOf, getTokenBalance, StateDB.setTokenState, ht, ha]
      · simp [balanceOf, getTokenBalance, StateDB.setTokenState, ht]

/-- Exact writes of the queued balances are the library's writes. -/
theorem balanceOf_writeBalances :
    ∀ (ws : List ((Hash × Hash) × ℤ)) (s : StateDB), (∀ w ∈ ws, Exact s.exist w.1.1 w.2) →
      balanceOf (writeBalances ws s) = writeAll ws (balanceOf s) ∧
        (writeBalances ws s).exist = s.exist ∧
        (writeBalances ws s).relayerDeposit = s.relayerDeposit
  | [], _, _ => ⟨rfl, rfl, rfl⟩
  | w :: ws, s, hw => by
    obtain ⟨hex, hdep⟩ := setTokenBalance_frame w.1.2 w.1.1 w.2 s
    obtain ⟨ih, ihex, ihdep⟩ := balanceOf_writeBalances ws _
      (fun w' hw' => hex ▸ hw w' (List.mem_cons_of_mem _ hw'))
    refine ⟨?_, ihex.trans hex, ihdep.trans hdep⟩
    rw [writeBalances, List.foldl_cons, ← writeBalances, ih,
      balanceOf_setTokenBalance (hw w List.mem_cons_self)]
    rfl

/-! ### The matching fee -/

/-- The state after the relayer deposits are charged and the owner is paid. -/
def feeState (coinbase : Hash) (takerOrder makerOrder : TradedOrder) (r₁ r₂ : ℕ)
    (statedb : StateDB) : StateDB :=
  let statedb := setSubRelayerFee takerOrder.exchangeAddress r₁ relayerFee statedb
  let statedb := setSubRelayerFee makerOrder.exchangeAddress r₂ relayerFee statedb
  statedb.addBalance (statedb.owner coinbase) (0 + relayerFee + relayerFee : ℕ)

/-- What paying the matching fee does to the balance of `k.2` in token `k.1`: `2 * RelayerFee`
in XDC to the owner, out of the registration contract. -/
def matchingFeeMoves (owner : Hash) (k : Hash × Hash) : ℤ :=
  if k.1 = xdcNativeAddress then
    (if k.2 = owner then 2 * (relayerFee : ℤ) else 0) -
      (if k.2 = relayerRegistrationSMC then 2 * (relayerFee : ℤ) else 0)
  else 0

theorem balanceOf_feeState (coinbase : Hash) (takerOrder makerOrder : TradedOrder) (r₁ r₂ : ℕ)
    (s : StateDB) (k : Hash × Hash) :
    balanceOf (feeState coinbase takerOrder makerOrder r₁ r₂ s) k =
      balanceOf s k + matchingFeeMoves (s.owner coinbase) k := by
  obtain ⟨t, a⟩ := k
  by_cases ht : t = xdcNativeAddress
  · simp only [balanceOf, getTokenBalance, matchingFeeMoves, if_pos ht]
    simp only [feeState, setSubRelayerFee, StateDB.addBalance, StateDB.subBalance,
      StateDB.setRelayerDeposit, update_apply]
    split_ifs <;> simp_all <;> omega
  · simp [balanceOf, getTokenBalance, matchingFeeMoves, ht, feeState, setSubRelayerFee,
      StateDB.addBalance, StateDB.subBalance, StateDB.setRelayerDeposit]

theorem feeState_frame (coinbase : Hash) (takerOrder makerOrder : TradedOrder) (r₁ r₂ : ℕ)
    (s : StateDB) :
    (feeState coinbase takerOrder makerOrder r₁ r₂ s).exist = s.exist ∧
      (feeState coinbase takerOrder makerOrder r₁ r₂ s).relayerDeposit =
        update (update s.relayerDeposit takerOrder.exchangeAddress (bigToHash r₁))
          makerOrder.exchangeAddress (bigToHash r₂) :=
  ⟨rfl, rfl⟩

/-! ### `DoSettleBalance` -/

/-- The six balance changes of a settlement, by token and holder, in the order
`DoSettleBalance` makes them. -/
def settleLegs (takerOrder makerOrder : TradedOrder) (settleBalance : SettleBalance)
    (statedb : StateDB) : List ((Hash × Hash) × ℤ) :=
  [((settleBalance.taker.inToken, takerOrder.userAddress), settleBalance.taker.inTotal),
    ((settleBalance.taker.outToken, takerOrder.userAddress), -settleBalance.taker.outTotal),
    ((settleBalance.maker.inToken, makerOrder.userAddress), settleBalance.maker.inTotal),
    ((settleBalance.maker.outToken, makerOrder.userAddress), -settleBalance.maker.outTotal),
    ((makerOrder.quoteToken, getRelayerOwner takerOrder.exchangeAddress statedb),
      settleBalance.taker.fee),
    ((makerOrder.quoteToken, getRelayerOwner makerOrder.exchangeAddress statedb),
      settleBalance.maker.fee)]

/-- **What a settlement does.**  A staged balance ends at its value before plus its changes, and
every other balance gets what the matching fee moved; each relayer deposit is charged
`RelayerFee` per side its exchange serves. -/
theorem doSettleBalance_spec {coinbase : Hash} {takerOrder makerOrder : TradedOrder}
    {settleBalance : SettleBalance} {s s' : StateDB}
    (h : doSettleBalance coinbase takerOrder makerOrder settleBalance s = .ok s') :
    (∀ k, balanceOf s' k =
      if k ∈ (settleLegs takerOrder makerOrder settleBalance s).map Prod.fst then
        balanceOf s k + sumAt (settleLegs takerOrder makerOrder settleBalance s) k
      else balanceOf s k + matchingFeeMoves (s.owner coinbase) k) ∧
    (∀ r, s'.relayerDeposit r +
      relayerFee * [takerOrder.exchangeAddress, makerOrder.exchangeAddress].count r =
        s.relayerDeposit r) ∧
    s'.exist = s.exist := by
  unfold doSettleBalance at h
  dsimp only at h
  split_ifs at h with hown
  · cases h
  obtain ⟨v₁, h₁, h⟩ := bind_eq_ok.1 h
  obtain ⟨v₂, h₂, h⟩ := bind_eq_ok.1 h
  obtain ⟨v₃, h₃, h⟩ := bind_eq_ok.1 h
  obtain ⟨v₄, h₄, h⟩ := bind_eq_ok.1 h
  obtain ⟨v₅, h₅, h⟩ := bind_eq_ok.1 h
  obtain ⟨v₆, h₆, h⟩ := bind_eq_ok.1 h
  obtain ⟨r₁, hr₁, h⟩ := bind_eq_ok.1 h
  obtain ⟨r₂, hr₂, h⟩ := bind_eq_ok.1 h
  have hstaged : Staged s (settleLegs takerOrder makerOrder settleBalance s) _ _ :=
    (((((staged_nil s).add h₁).sub h₂).add h₃).sub h₄).add h₅ |>.add h₆
  have hs' : s' = writeBalances
      (stageAll (balanceOf s) (settleLegs takerOrder makerOrder settleBalance s)
        (fun _ => none, [])).2 (feeState coinbase takerOrder makerOrder r₁ r₂ s) := by
    rw [hstaged.eq]
    exact (Except.ok.inj h).symm
  obtain ⟨hexist, hdep⟩ := feeState_frame coinbase takerOrder makerOrder r₁ r₂ s
  obtain ⟨hbal, hex', hdep'⟩ := balanceOf_writeBalances
    (stageAll (balanceOf s) (settleLegs takerOrder makerOrder settleBalance s)
      (fun _ => none, [])).2 (feeState coinbase takerOrder makerOrder r₁ r₂ s) (by
    rw [hstaged.eq, hexist]
    exact hstaged.exact)
  subst hs'
  refine ⟨fun k => ?_, fun r => ?_, hex'.trans hexist⟩
  · rw [hbal, writeAll_stageAll_empty, balanceOf_feeState]
    split_ifs <;> rfl
  · have hle₁ := checkSubRelayerFee_ok hr₁
    have hle₂ := checkSubRelayerFee_ok hr₂
    have hlt := s.relayerDeposit_lt
    have hslot : ∀ n : ℕ, n < 2 ^ 256 → bigToHash n = n := fun n hn => by
      rw [bigToHash, Int.natAbs_natCast, Nat.mod_eq_of_lt hn]
    simp only [Option.getD_none, update_apply] at hle₁ hle₂
    have htx := hlt takerOrder.exchangeAddress
    have hmx := hlt makerOrder.exchangeAddress
    rw [hdep', hdep]
    by_cases hsame : makerOrder.exchangeAddress = takerOrder.exchangeAddress
    · rw [if_pos hsame, Option.getD_some] at hle₂
      rw [hslot r₁ (by omega), hslot r₂ (by omega), hsame]
      by_cases ht : r = takerOrder.exchangeAddress
      · rw [ht, update_self, List.count_cons_self, List.count_singleton_self]
        omega
      · simp [ht, Ne.symm ht]
    · rw [if_neg hsame, Option.getD_none] at hle₂
      rw [hslot r₁ (by omega), hslot r₂ (by omega)]
      by_cases hm : r = makerOrder.exchangeAddress
      · subst hm
        simp [Ne.symm hsame, hsame]
        omega
      · by_cases ht : r = takerOrder.exchangeAddress
        · subst ht
          simp [hm]
          omega
        · simp [hm, ht, Ne.symm hm, Ne.symm ht]

/-! ### Sums over all holders -/

theorem balanceOf_native (s : StateDB) (addr : Hash) :
    balanceOf s (xdcNativeAddress, addr) = s.balance addr := by
  simp [balanceOf, getTokenBalance]

theorem balanceOf_token {s : StateDB} {token : Hash} (hn : token ≠ xdcNativeAddress)
    (hex : s.exist token) (addr : Hash) : balanceOf s (token, addr) = s.tokenBalances token addr := by
  simp [balanceOf, getTokenBalance, hn, hex]

section Priced

variable {quotePrice : Option ℕ}
  {takerFeeRate makerFeeRate baseTokenDecimal quoteTokenDecimal quantityToTrade : ℕ}
  {coinbase : Hash} {takerOrder makerOrder : TradedOrder} {settleBalance : SettleBalance}
  {s s' : StateDB}

/-- In a match priced by `GetSettleBalance`, each token's changes sum to zero: what one side pays
in a token, the other side and the two relayers receive. -/
theorem settleLegs_token_sum
    (hsettle : getSettleBalance quotePrice takerOrder.side takerFeeRate makerOrder.baseToken
      makerOrder.quoteToken makerOrder.price makerFeeRate baseTokenDecimal quoteTokenDecimal
      quantityToTrade = .ok settleBalance) (s : StateDB) (T : Hash) :
    (((settleLegs takerOrder makerOrder settleBalance s).filter (·.1.1 = T)).map Prod.snd).sum =
      0 := by
  unfold getSettleBalance at hsettle
  dsimp only at hsettle
  generalize quantityToTrade * makerOrder.price / baseTokenDecimal = q at hsettle
  generalize q * makerFeeRate / xdcxBaseFee = makerFee at hsettle
  generalize q * takerFeeRate / xdcxBaseFee = takerFee at hsettle
  split_ifs at hsettle with hbid hsmall hfee hsmall' hfee' <;> cases hsettle
  · have hle : makerFee ≤ q := by omega
    by_cases hb : makerOrder.baseToken = T <;> by_cases hq : makerOrder.quoteToken = T <;>
      simp [settleLegs, hb, hq, Nat.cast_sub hle]
    all_goals ring
  · have hle : takerFee ≤ q := by omega
    by_cases hb : makerOrder.baseToken = T <;> by_cases hq : makerOrder.quoteToken = T <;>
      simp [settleLegs, hb, hq, Nat.cast_sub hle]
    all_goals ring

/-- **A settlement keeps every TRC21 token's total.**  Over all holders, the balances in a
token contract other than XDC add up after a settlement priced by `GetSettleBalance` to what
they did before. -/
theorem finsum_tokenBalances_doSettleBalance
    (hsettle : getSettleBalance quotePrice takerOrder.side takerFeeRate makerOrder.baseToken
      makerOrder.quoteToken makerOrder.price makerFeeRate baseTokenDecimal quoteTokenDecimal
      quantityToTrade = .ok settleBalance)
    (h : doSettleBalance coinbase takerOrder makerOrder settleBalance s = .ok s') {T : Hash}
    (hT : T ≠ xdcNativeAddress) (hex : s.exist T) :
    ∑ᶠ a, s'.tokenBalances T a = ∑ᶠ a, s.tokenBalances T a := by
  obtain ⟨hbal, -, hexist⟩ := doSettleBalance_spec h
  have hpoint : ∀ a, (s'.tokenBalances T a : ℤ) =
      s.tokenBalances T a + sumAt (settleLegs takerOrder makerOrder settleBalance s) (T, a) := by
    intro a
    rw [← balanceOf_token hT (hexist ▸ hex), ← balanceOf_token hT hex, hbal]
    split_ifs with hk
    · rfl
    · rw [sumAt_eq_zero hk, matchingFeeMoves, if_neg hT]
  apply Nat.cast_injective (R := ℤ)
  rw [natCast_finsum, natCast_finsum, finsum_congr hpoint]
  apply finsum_add_of_finsum_eq_zero (finite_support_sumAt_fiber _ T)
  rw [finsum_sumAt_fiber, settleLegs_token_sum hsettle]

/-- The fee `2 * RelayerFee` at `x` when its XDC balance is not one of those written. -/
def unwrittenFee (keys : List (Hash × Hash)) (x a : Hash) : ℤ :=
  if (xdcNativeAddress, a) ∈ keys then 0 else if a = x then 2 * (relayerFee : ℤ) else 0

theorem finsum_unwrittenFee (keys : List (Hash × Hash)) (x : Hash) :
    ∑ᶠ a, unwrittenFee keys x a =
      if (xdcNativeAddress, x) ∈ keys then 0 else 2 * (relayerFee : ℤ) := by
  rw [finsum_eq_single _ x fun a ha => by simp [unwrittenFee, ha]]
  simp [unwrittenFee]

theorem finite_support_unwrittenFee (keys : List (Hash × Hash)) (x : Hash) :
    (support (unwrittenFee keys x)).Finite :=
  (Set.finite_singleton x).subset fun a ha => by
    by_contra hne
    exact ha (by simp [unwrittenFee, show a ≠ x from hne])

/-- **What a settlement does to the XDC total.**  With finitely many XDC holders, the XDC
balances add up after a settlement priced by `GetSettleBalance` to what they did before, plus
`2 * RelayerFee` unless the owner's balance is one of the six written, less `2 * RelayerFee`
unless the registration contract's is. -/
theorem finsum_balance_doSettleBalance
    (hsettle : getSettleBalance quotePrice takerOrder.side takerFeeRate makerOrder.baseToken
      makerOrder.quoteToken makerOrder.price makerFeeRate baseTokenDecimal quoteTokenDecimal
      quantityToTrade = .ok settleBalance)
    (h : doSettleBalance coinbase takerOrder makerOrder settleBalance s = .ok s')
    (hfin : (support s.balance).Finite) :
    ∑ᶠ a, s'.balance a = ∑ᶠ a, s.balance a +
      (if (xdcNativeAddress, s.owner coinbase) ∈
        (settleLegs takerOrder makerOrder settleBalance s).map Prod.fst then 0
        else 2 * (relayerFee : ℤ)) -
      (if (xdcNativeAddress, relayerRegistrationSMC) ∈
        (settleLegs takerOrder makerOrder settleBalance s).map Prod.fst then 0
        else 2 * (relayerFee : ℤ)) := by
  obtain ⟨hbal, -, -⟩ := doSettleBalance_spec h
  set legs := settleLegs takerOrder makerOrder settleBalance s
  have hpoint : ∀ a, s'.balance a = s.balance a + (sumAt legs (xdcNativeAddress, a) +
      (unwrittenFee (legs.map Prod.fst) (s.owner coinbase) a -
        unwrittenFee (legs.map Prod.fst) relayerRegistrationSMC a)) := by
    intro a
    have := hbal (xdcNativeAddress, a)
    rw [balanceOf_native, balanceOf_native] at this
    rw [this]
    by_cases hk : (xdcNativeAddress, a) ∈ legs.map Prod.fst
    · simp only [if_pos hk, unwrittenFee, sub_zero, add_zero]
    · simp only [if_neg hk, sumAt_eq_zero hk, unwrittenFee, matchingFeeMoves, zero_add, if_true]
  have hsum := settleLegs_token_sum hsettle s xdcNativeAddress
  rw [← finsum_sumAt_fiber] at hsum
  rw [finsum_congr hpoint, finsum_add_distrib hfin, finsum_add_distrib
    (finite_support_sumAt_fiber _ _), finsum_sub_distrib (finite_support_unwrittenFee _ _)
    (finite_support_unwrittenFee _ _), hsum, finsum_unwrittenFee, finsum_unwrittenFee]
  · ring
  · exact ((finite_support_unwrittenFee _ _).union (finite_support_unwrittenFee _ _)).subset
      (support_sub _ _)
  · exact (finite_support_sumAt_fiber _ _).union
      (((finite_support_unwrittenFee _ _).union (finite_support_unwrittenFee _ _)).subset
        (support_sub _ _)) |>.subset (support_add _ _)

/-- The balances a priced settlement writes are in the pair's two tokens. -/
theorem settleLegs_tokens
    (hsettle : getSettleBalance quotePrice takerOrder.side takerFeeRate makerOrder.baseToken
      makerOrder.quoteToken makerOrder.price makerFeeRate baseTokenDecimal quoteTokenDecimal
      quantityToTrade = .ok settleBalance) (s : StateDB) :
    ∀ k ∈ (settleLegs takerOrder makerOrder settleBalance s).map Prod.fst,
      k.1 = makerOrder.baseToken ∨ k.1 = makerOrder.quoteToken := by
  unfold getSettleBalance at hsettle
  dsimp only at hsettle
  split_ifs at hsettle <;> cases hsettle <;> simp [settleLegs]

/-- Settling a pair of two TRC21 tokens keeps the XDC total: the matching fee moves from the
registration contract to the owner, and no XDC balance is written over it. -/
theorem finsum_balance_doSettleBalance_of_trc21
    (hsettle : getSettleBalance quotePrice takerOrder.side takerFeeRate makerOrder.baseToken
      makerOrder.quoteToken makerOrder.price makerFeeRate baseTokenDecimal quoteTokenDecimal
      quantityToTrade = .ok settleBalance)
    (h : doSettleBalance coinbase takerOrder makerOrder settleBalance s = .ok s')
    (hfin : (support s.balance).Finite) (hbase : makerOrder.baseToken ≠ xdcNativeAddress)
    (hquote : makerOrder.quoteToken ≠ xdcNativeAddress) :
    ∑ᶠ a, s'.balance a = ∑ᶠ a, s.balance a := by
  have hnot : ∀ x, (xdcNativeAddress, x) ∉ (settleLegs takerOrder makerOrder settleBalance s).map
      Prod.fst := fun x hx => by
    rcases settleLegs_tokens hsettle s _ hx with h | h
    · exact hbase h.symm
    · exact hquote h.symm
  rw [finsum_balance_doSettleBalance hsettle h hfin, if_neg (hnot _), if_neg (hnot _)]
  ring

end Priced

/-! ### The matching fee written over -/

/-- A match of `10 ^ 21` units of token `3` against XDC at one XDC each: the taker `10` buys
through exchange `20`, whose owner `30` also owns masternode `40`, from the maker `11` through
exchange `21`, owned by `31`. -/
def feeTaker : TradedOrder :=
  { quantity := 10 ^ 21, price := 10 ^ 18, exchangeAddress := 20, userAddress := 10, side := .bid,
    hash := 100, orderID := 1, baseToken := 3, quoteToken := xdcNativeAddress }

def feeMaker : TradedOrder :=
  { quantity := 10 ^ 21, price := 10 ^ 18, exchangeAddress := 21, userAddress := 11, side := .ask,
    hash := 101, orderID := 2, baseToken := 3, quoteToken := xdcNativeAddress }

/-- What `GetSettleBalance` computes for the match at fee rates of ten in ten thousand. -/
def feeSettle : SettleBalance :=
  { taker := ⟨10 ^ 18, 3, 10 ^ 21, xdcNativeAddress, 10 ^ 21 + 10 ^ 18⟩
    maker := ⟨10 ^ 18, xdcNativeAddress, 10 ^ 21 - 10 ^ 18, 3, 10 ^ 21⟩ }

/-- The taker holds `2 * 10 ^ 21` XDC, the maker `10 ^ 21` of token `3`, and the registration
contract one XDC; each relayer has one XDC deposited. -/
def feeStateDB : StateDB where
  balance a := if a = 10 then 2 * 10 ^ 21 else if a = relayerRegistrationSMC then 10 ^ 18 else 0
  exist t := t = 3
  tokenBalances t a := if t = 3 ∧ a = 11 then 10 ^ 21 else 0
  relayerOwner r := if r = 20 then 30 else if r = 21 then 31 else 0
  relayerDeposit r := if r = 20 ∨ r = 21 then 10 ^ 18 else 0
  owner c := if c = 40 then 30 else 0
  tokenBalances_lt t a := by split_ifs <;> norm_num
  relayerDeposit_lt r := by split_ifs <;> norm_num

theorem feeStateDB_balance_finite : (support feeStateDB.balance).Finite :=
  (Set.toFinite {10, relayerRegistrationSMC}).subset fun a ha => by
    by_contra hn
    simp only [Set.mem_insert_iff, Set.mem_singleton_iff, not_or] at hn
    exact ha (by simp [feeStateDB, hn.1, hn.2])

/-- **Settlement burns the matching fee.**  The match is priced by `GetSettleBalance` and
settles, and afterwards the XDC balances add up to `2 * RelayerFee` less than before: the owner
of the masternode is paid before its balance as the taker's relayer is written back. -/
theorem doSettleBalance_burns_matching_fee :
    getSettleBalance none feeTaker.side 10 feeMaker.baseToken feeMaker.quoteToken feeMaker.price 10
        (10 ^ 18) (10 ^ 18) (10 ^ 21) = .ok feeSettle ∧
      (doSettleBalance 40 feeTaker feeMaker feeSettle feeStateDB).map (fun s => ∑ᶠ a, s.balance a) =
        .ok (∑ᶠ a, feeStateDB.balance a - 2 * (relayerFee : ℤ)) := by
  have hsettle : getSettleBalance none feeTaker.side 10 feeMaker.baseToken feeMaker.quoteToken
      feeMaker.price 10 (10 ^ 18) (10 ^ 18) (10 ^ 21) = .ok feeSettle := by decide
  obtain ⟨s', hs'⟩ : ∃ s', doSettleBalance 40 feeTaker feeMaker feeSettle feeStateDB = .ok s' :=
    ⟨_, rfl⟩
  refine ⟨hsettle, ?_⟩
  rw [hs']
  show Except.ok (∑ᶠ a, s'.balance a) = _
  rw [finsum_balance_doSettleBalance hsettle hs' feeStateDB_balance_finite,
    if_pos (by decide), if_neg (by decide), add_zero]

end XdcSubnet.XDCx
