import XdcSubnet.EngineV2.Epoch
import XdcSubnet.EngineV2.Instance
import XdcSubnet.Lib.Tally

/-!
# The epoch reward hook

`HookReward` (`eth/hooks/engine_v2_hooks.go`), which `Finalize` calls at every epoch switch
block, with what it calls: `GetSigningTxCount`, `util.RewardInflation`, and
`CalculateRewardForSigner`, `CalculateRewardForHolders` and `GetRewardBalancesRate` of
`contracts/utils.go`.

`GetSigningTxCount` walks back from the parent of the switch block `H` until the second
earlier epoch switch `S2`, recording every block's hash by number and every signing
transaction by the hash it signs; the first switch met, `S1`, ends the counted range.  It then
counts, for each block of `[S2 + 1, S1 - 1]` whose number is a multiple of `MergeSignRange`,
the distinct masternodes of `S2` that signed it.  `totalSigner` is the sum of the counts
(`getSigningTxCount_total`), and the signers' rewards `⌊R / totalSigner⌋ · count` sum to at
most `R` (`total_calculateRewardForSigner_le`).

Each signer's reward is split by `GetRewardBalancesRate` into a map: the owner's entry is
assigned 90%, the voters' 0% shares are added, and the foundation's entry is then assigned
10%.  The last assignment replaces what the owner's entry held when the foundation wallet owns
the signer (`get_getRewardBalancesRate`), and `HookReward` credits each map as it is
(`hookReward_balance`), so a foundation-owned masternode's 90% is never paid.

Model choices: the validator contract's storage is read through `ValidatorState`; a block body
is its list of transactions, of which the walk keeps the signing ones as the signing
transaction cache does; the Go maps of the walk are functions with the zero value as default,
and the maps the hook iterates are `Tally.Counts`, whose entry order stands for the map's
iteration order, on which nothing below depends.  A missing header or block is a nil
dereference in Go, an error here.
-/

namespace XdcSubnet.Hooks

open XdcSubnet.EngineV2 Tally

/-! ### Constants of `common` -/

/-- `common.RewardMasterPercent`. -/
def rewardMasterPercent : ℕ := 90

/-- `common.RewardVoterPercent`. -/
def rewardVoterPercent : ℕ := 0

/-- `common.RewardFoundationPercent`. -/
def rewardFoundationPercent : ℕ := 10

/-- `common.MergeSignRange`. -/
def mergeSignRange : ℕ := 15

/-- `common.TIP2019Block`. -/
def tip2019Block : ℕ := 1

/-- `common.TIPNoHalvingMNReward`. -/
def tipNoHalvingMNReward : ℕ := 0

/-- `common.BlocksPerYear`. -/
def blocksPerYear : ℕ := 15768000

/-- `params.Ether`. -/
def ether : ℕ := 10 ^ 18

/-! ### Inputs of the hook -/

/-- The configuration `HookReward` reads: the engine's, and `Reward` and
`FoudationWalletAddr` of `params.XDPoSConfig`. -/
structure RewardConfig where
  xdpos : XDPoSConfig
  reward : ℕ
  foudationWalletAddr : Address

/-- The fields of a transaction the walk reads: `IsSigningTransaction`, `From`, and the block
hash in the last 32 bytes of its data. -/
structure Transaction where
  signing : Bool
  sender : Address
  signedHash : Hash
deriving DecidableEq, Repr

/-- The reads of the validator contract in the parent state: `GetCandidateOwner`,
`GetVoters` and `GetVoterCap`. -/
structure ValidatorState where
  candidateOwner : Address → Address
  voters : Address → List Address
  voterCap : Address → Address → ℕ

/-- The errors of the hooks: the two they return ("foundation wallet address is empty",
"parentHeader is nil"), and the nil dereferences of a missing header or block. -/
inductive HookError
  | foundationWalletAddressEmpty
  | parentHeaderNil
  | nilHeader (number : ℕ)
  | nilBlock (number : ℕ)
deriving DecidableEq, Repr

/-! ### `RewardInflation` -/

/-- `util.RewardInflation`: halved from the second year and quartered from the fifth, unless
`TIPNoHalvingMNReward` has passed. -/
def rewardInflation (chainReward number blockPerYear : ℕ) : ℕ :=
  if tipNoHalvingMNReward ≤ number then chainReward else
  let chainReward :=
    if blockPerYear * 2 ≤ number ∧ number < blockPerYear * 5 then chainReward / 2 else chainReward
  if blockPerYear * 5 ≤ number then chainReward / 4 else chainReward

/-- `TIPNoHalvingMNReward` is block `0`, so no reward is ever halved. -/
theorem rewardInflation_eq (chainReward number blockPerYear : ℕ) :
    rewardInflation chainReward number blockPerYear = chainReward := by
  simp [rewardInflation, tipNoHalvingMNReward]

/-! ### `GetSigningTxCount` -/

/-- `rewardEpochCount`: the walk stops at the second epoch switch. -/
def rewardEpochCount : ℕ := 2

/-- `signEpochCount`: the first epoch switch ends the counted range. -/
def signEpochCount : ℕ := 1

/-- The locals of the backward walk. -/
structure SignWalk where
  epochCount : ℕ
  startBlockNumber : ℕ
  endBlockNumber : ℕ
  masternodes : List Address
  mapBlkHash : ℕ → Hash
  data : Hash → List Address

/-- The locals before the walk. -/
def SignWalk.init : SignWalk := ⟨0, 0, 0, [], fun _ => 0, fun _ => []⟩

/-- An epoch switch met by the walk. -/
def SignWalk.countSwitch (w : SignWalk) (header : Header) : SignWalk :=
  let w := { w with epochCount := w.epochCount + 1 }
  let w := if w.epochCount = signEpochCount then { w with endBlockNumber := header.number - 1 }
    else w
  if w.epochCount = rewardEpochCount then
    { w with startBlockNumber := header.number + 1, masternodes := header.validators }
  else w

/-- A block passed by the walk: its hash by number, and the senders of its signing
transactions under the hashes they sign. -/
def SignWalk.recordBlock (w : SignWalk) (i : ℕ) (hash : Hash) (txs : List Transaction) :
    SignWalk :=
  { w with
    mapBlkHash := Function.update w.mapBlkHash i hash
    data := (txs.filter (·.signing)).foldl
      (fun d tx => Function.update d tx.signedHash (d tx.signedHash ++ [tx.sender])) w.data }

/-- The backward loop of `GetSigningTxCount` from block `i`, whose hash is `parentHash`:
`some` at the `break` on the second epoch switch, `none` when it returns at block `0`. -/
def walkSigners (cr : Crypto) (config : XDPoSConfig) (chain : ChainReader)
    (getBlock : Hash → ℕ → Option (List Transaction)) :
    ℕ → Hash → SignWalk → Except HookError (Option SignWalk)
  | i, parentHash, w =>
    match chain.getHeader parentHash i with
    | none => .error (.nilHeader i)
    | some header =>
      -- the first v2 block is not counted as an epoch switch
      let isSwitch := (isEpochSwitch config header).1 && i != config.v2.switchBlock + 1
      let w := if isSwitch then w.countSwitch header else w
      if isSwitch && w.epochCount == rewardEpochCount then .ok (some w) else
      match getBlock (cr.headerHash header) i with
      | none => .error (.nilBlock i)
      | some txs =>
        let w := w.recordBlock i (cr.headerHash header) txs
        match i with
        | 0 => .ok none
        | j + 1 => walkSigners cr config chain getBlock j header.parentHash w

/-- The counting loop at block `i`: every distinct masternode that signed it counts once. -/
def countBlock (w : SignWalk) (acc : Counts Address × ℕ) (i : ℕ) : Counts Address × ℕ :=
  if i % mergeSignRange = 0 then
    let addrs := w.data (w.mapBlkHash i)
    if addrs.isEmpty then acc else
    ((w.masternodes.filter (· ∈ addrs)).dedup).foldl
      (fun acc addr => (add acc.1 addr 1, acc.2 + 1)) acc
  else acc

/-- The counting loop over `[startBlockNumber, endBlockNumber]`: the sign counts and
`totalSigner`. -/
def countSigners (w : SignWalk) : Counts Address × ℕ :=
  (List.range' w.startBlockNumber (w.endBlockNumber + 1 - w.startBlockNumber)).foldl
    (countBlock w) (∅, 0)

/-- `GetSigningTxCount`: the sign count of each signer and `totalSigner`. -/
def getSigningTxCount (cr : Crypto) (config : XDPoSConfig) (chain : ChainReader)
    (getBlock : Hash → ℕ → Option (List Transaction)) (header : Header) :
    Except HookError (Counts Address × ℕ) :=
  if header.number = 0 then .ok (∅, 0) else do
  match ← walkSigners cr config chain getBlock (header.number - 1) header.parentHash .init with
  | none => pure (∅, 0)
  | some w => pure (countSigners w)

/-- One signer counted: the count and the total rise together. -/
theorem total_foldl_count (addrs : List Address) :
    ∀ acc : Counts Address × ℕ, total acc.1 = acc.2 →
      let r := addrs.foldl (fun acc addr => (add acc.1 addr 1, acc.2 + 1)) acc
      total r.1 = r.2 := by
  induction addrs with
  | nil => intro acc h; exact h
  | cons a addrs ih =>
    intro acc h
    apply ih
    rw [total_add, h]

theorem total_countBlock (w : SignWalk) (acc : Counts Address × ℕ) (h : total acc.1 = acc.2)
    (i : ℕ) : total (countBlock w acc i).1 = (countBlock w acc i).2 := by
  dsimp only [countBlock]
  split_ifs
  · exact h
  · exact total_foldl_count _ acc h
  · exact h

/-- **`totalSigner` is the sum of the sign counts.** -/
theorem total_countSigners (w : SignWalk) : total (countSigners w).1 = (countSigners w).2 := by
  unfold countSigners
  -- the counting loop keeps `total signers = totalSigner` at every block
  suffices ∀ (l : List ℕ) (acc : Counts Address × ℕ), total acc.1 = acc.2 →
      total (l.foldl (countBlock w) acc).1 = (l.foldl (countBlock w) acc).2 from
    this _ _ rfl
  intro l
  induction l with
  | nil => intro acc h; exact h
  | cons i l ih => intro acc h; exact ih _ (total_countBlock w acc h i)

theorem getSigningTxCount_total {cr : Crypto} {config : XDPoSConfig} {chain : ChainReader}
    {getBlock : Hash → ℕ → Option (List Transaction)} {header : Header}
    {signers : Counts Address} {totalSigner : ℕ}
    (h : getSigningTxCount cr config chain getBlock header = .ok (signers, totalSigner)) :
    total signers = totalSigner := by
  unfold getSigningTxCount at h
  split at h
  · cases h; rfl
  · cases hw : walkSigners cr config chain getBlock (header.number - 1) header.parentHash .init with
    | error e => rw [hw] at h; cases h
    | ok r =>
      rw [hw] at h
      cases r with
      | none => cases h; rfl
      | some w =>
        simp only [bind, Except.bind, pure, Except.pure, Except.ok.injEq] at h
        have hcount := total_countSigners w
        rwa [h] at hcount

/-! ### Rewards of signers and holders -/

/-- `CalculateRewardForSigner`: `⌊chainReward / totalSigner⌋` per signature. -/
def calculateRewardForSigner (chainReward : ℕ) (signers : Counts Address) (totalSigner : ℕ) :
    Counts Address :=
  if totalSigner > 0 then scale signers (chainReward / totalSigner) else ∅

/-- **The signers' rewards sum to at most the chain reward.** -/
theorem total_calculateRewardForSigner_le (chainReward : ℕ) (signers : Counts Address) :
    total (calculateRewardForSigner chainReward signers (total signers)) ≤ chainReward := by
  unfold calculateRewardForSigner
  split_ifs
  · rw [total_scale]
    exact Nat.div_mul_le_self chainReward (total signers)
  · exact Nat.zero_le _

/-- The voters' capacities, each read once from `TIP2019Block` on, and their sum. -/
def voterCaps (vs : ValidatorState) (masterAddr : Address) (blockNumber : ℕ) :
    Counts Address × ℕ :=
  (vs.voters masterAddr).foldl (fun acc voteAddr =>
    if (acc.1.lookup voteAddr).isSome ∧ tip2019Block ≤ blockNumber then acc else
    let voterCap := vs.voterCap masterAddr voteAddr
    (acc.1.insert voteAddr voterCap, acc.2 + voterCap)) (∅, 0)

/-- The voters' shares of `RewardVoterPercent`, added to `balances` by capacity. -/
def addVoterRewards (totalReward : ℕ) (caps : Counts Address) (totalCap : ℕ)
    (balances : Counts Address) : Counts Address :=
  let totalVoterReward := totalReward * rewardVoterPercent / 100
  if totalCap > 0 then
    caps.entries.foldl (fun b e =>
      if e.2 > 0 then add b e.1 (totalVoterReward * e.2 / totalCap) else b) balances
  else balances

/-- `GetRewardBalancesRate`: the owner's entry is assigned, the voters' shares added, and the
foundation's entry assigned last. -/
def getRewardBalancesRate (foundationWalletAddr : Address) (vs : ValidatorState)
    (masterAddr : Address) (totalReward blockNumber : ℕ) : Counts Address :=
  let owner := vs.candidateOwner masterAddr
  let balances : Counts Address :=
    (∅ : Counts Address).insert owner (totalReward * rewardMasterPercent / 100)
  let voters := vs.voters masterAddr
  let balances := if voters.length > 0 then
      let caps := voterCaps vs masterAddr blockNumber
      addVoterRewards totalReward caps.1 caps.2 balances
    else balances
  balances.insert foundationWalletAddr (totalReward * rewardFoundationPercent / 100)

/-- `CalculateRewardForHolders`. -/
def calculateRewardForHolders (foundationWalletAddr : Address) (vs : ValidatorState)
    (signer : Address) (calcReward blockNumber : ℕ) : Counts Address :=
  getRewardBalancesRate foundationWalletAddr vs signer calcReward blockNumber

/-- `RewardVoterPercent` is `0`: the voters' shares add nothing. -/
theorem get_addVoterRewards (totalReward : ℕ) (caps : Counts Address) (totalCap : ℕ)
    (balances : Counts Address) (a : Address) :
    get (addVoterRewards totalReward caps totalCap balances) a = get balances a := by
  unfold addVoterRewards
  split_ifs
  · -- every share is `0 * cap / totalCap`
    suffices ∀ (l : List (Sigma fun _ : Address => ℕ)) (b : Counts Address),
        get (l.foldl (fun b e => if e.2 > 0 then
          add b e.1 (totalReward * rewardVoterPercent / 100 * e.2 / totalCap) else b) b) a =
          get b a from this _ _
    intro l
    induction l with
    | nil => intro b; rfl
    | cons e l ih =>
      intro b
      rw [List.foldl_cons, ih]
      split_ifs
      · simp [get_add, rewardVoterPercent]
      · rfl
  · rfl

/-- **What each holder receives of one signer's reward**: the foundation wallet 10%, whatever
else it is; the owner 90% unless it is the foundation wallet; every other address nothing. -/
theorem get_getRewardBalancesRate (foundationWalletAddr : Address) (vs : ValidatorState)
    (masterAddr : Address) (totalReward blockNumber : ℕ) (a : Address) :
    get (getRewardBalancesRate foundationWalletAddr vs masterAddr totalReward blockNumber) a =
      if a = foundationWalletAddr then totalReward * rewardFoundationPercent / 100
      else if a = vs.candidateOwner masterAddr then totalReward * rewardMasterPercent / 100
      else 0 := by
  have hvoters : ∀ b : Counts Address,
      get (if (vs.voters masterAddr).length > 0 then
        addVoterRewards totalReward (voterCaps vs masterAddr blockNumber).1
          (voterCaps vs masterAddr blockNumber).2 b else b) a = get b a := by
    intro b
    split_ifs
    · exact get_addVoterRewards _ _ _ _ _
    · rfl
  unfold getRewardBalancesRate
  dsimp only
  rw [get_insert]
  by_cases hf : a = foundationWalletAddr
  · rw [if_pos hf, if_pos hf]
  · rw [if_neg hf, if_neg hf, hvoters, get_insert, get_empty]

/-! ### `HookReward` -/

/-- What `HookReward` returns: the sign counts and each signer's holder map. -/
structure Rewards where
  signers : Counts Address
  rewards : List (Address × Counts Address)

/-- `HookReward` on the balances `balances` of the block's state: the rewards it records, and
the balances after its `AddBalance` calls. -/
def hookReward (cr : Crypto) (cfg : RewardConfig) (chain : ChainReader)
    (getBlock : Hash → ℕ → Option (List Transaction)) (vs : ValidatorState)
    (balances : Address → ℕ) (header : Header) :
    Except HookError (Rewards × (Address → ℕ)) := do
  let number := header.number
  if cfg.foudationWalletAddr = 0 then throw .foundationWalletAddressEmpty
  if number = cfg.xdpos.v2.switchBlock + 1 then return (⟨∅, []⟩, balances)
  let chainReward := rewardInflation (cfg.reward * ether) number blocksPerYear
  let (signers, totalSigner) ← getSigningTxCount cr cfg.xdpos chain getBlock header
  let rewardSigners := calculateRewardForSigner chainReward signers totalSigner
  let holders := rewardSigners.entries.map fun e =>
    (e.1, calculateRewardForHolders cfg.foudationWalletAddr vs e.1 e.2 number)
  let balances := if signers.entries.length > 0 then (holders.map (·.2)).foldl credit balances
    else balances
  return (⟨signers, holders⟩, balances)

/-- The balance a holder receives of one signer's reward. -/
def holderShare (cfg : RewardConfig) (vs : ValidatorState) (signer : Address) (calcReward : ℕ)
    (a : Address) : ℕ :=
  if a = cfg.foudationWalletAddr then calcReward * rewardFoundationPercent / 100
  else if a = vs.candidateOwner signer then calcReward * rewardMasterPercent / 100
  else 0

/-- **`HookReward` adds to each address its share of every signer's reward.**  The shares
are those of `get_getRewardBalancesRate`: the foundation wallet's 10% replaces, rather than
joins, the 90% it would receive as a signer's owner. -/
theorem hookReward_balance {cr : Crypto} {cfg : RewardConfig} {chain : ChainReader}
    {getBlock : Hash → ℕ → Option (List Transaction)} {vs : ValidatorState}
    {balances : Address → ℕ} {header : Header} {r : Rewards} {balances' : Address → ℕ}
    (h : hookReward cr cfg chain getBlock vs balances header = .ok (r, balances')) (a : Address) :
    balances' a = balances a + ((calculateRewardForSigner (cfg.reward * ether) r.signers
      (total r.signers)).entries.map fun e => holderShare cfg vs e.1 e.2 a).sum := by
  unfold hookReward at h
  by_cases hf : cfg.foudationWalletAddr = 0
  · simp only [hf, if_true] at h
    cases h
  by_cases hs : header.number = cfg.xdpos.v2.switchBlock + 1
  · simp only [hf, hs, if_true, if_false] at h
    cases h
    simp [calculateRewardForSigner]
  cases hg : getSigningTxCount cr cfg.xdpos chain getBlock header with
  | error e => simp [hf, hs, hg] at h
  | ok p =>
    obtain ⟨signers, totalSigner⟩ := p
    have htotal := getSigningTxCount_total hg
    simp only [hf, hs, hg, if_false] at h
    cases h
    dsimp only
    rw [rewardInflation_eq, ← htotal]
    split_ifs with hlen
    · rw [foldl_credit_apply, List.map_map, List.map_map]
      congr 2
      apply List.map_congr_left
      intro e _
      exact get_getRewardBalancesRate _ _ _ _ _ _
    · have hnil : signers.entries = [] := List.eq_nil_of_length_eq_zero (by omega)
      simp [calculateRewardForSigner, total, hnil]

/-! ### A foundation-owned masternode -/

/-- Hashes that are block numbers plus one, which tell apart the headers of one chain. -/
def Crypto.byNumber : Crypto := { Crypto.tagged with headerHash := fun h => h.number + 1 }

/-- The header numbered `n` of a chain whose epoch switch blocks list masternode `5`. -/
def lineHeader (n : ℕ) : Header := ⟨n, 0, 0, 1, n, n, .raw [], 0, 0, [], [5], [], []⟩

/-- Blocks `0` to `40`, each filed under `Crypto.byNumber`'s hash. -/
def lineChain : ChainReader where
  getHeaderByHash h := if 0 < h ∧ h ≤ 41 then some (lineHeader (h - 1)) else none
  getHeaderByNumber n := if n ≤ 40 then some (lineHeader n) else none
  currentHeader := lineHeader 40
  config := ⟨none, 0⟩

/-- Block `16` holds the signature of masternode `5` for block `15`. -/
def lineBlocks (_ : Hash) (i : ℕ) : Option (List Transaction) :=
  some (if i = 16 then [⟨true, 5, 16⟩] else [])

/-- Epochs of 20 blocks, a reward of one coin, and foundation wallet `9`. -/
def lineRewardConfig : RewardConfig where
  xdpos :=
    { subnetConfig with
      epoch := 20
      gap := 10
      epoch_pos := by decide
      switchBlock_epoch := by decide }
  reward := 1
  foudationWalletAddr := 9

/-- Masternode `5` is owned by the foundation wallet and has no voters. -/
def foundationOwner : ValidatorState := ⟨fun _ => 9, fun _ => [], fun _ _ => 0⟩

/-- `HookReward` at switch block `40`, from zero balances. -/
def foundationOwnedRun : Except HookError (Rewards × (Address → ℕ)) :=
  hookReward Crypto.byNumber lineRewardConfig lineChain lineBlocks foundationOwner (fun _ => 0)
    (lineHeader 40)

/-- At switch block `40` masternode `5` signed block `15`, the one multiple of
`MergeSignRange` in `[1, 19]`, so it is the only signer, with one signature, and earns the whole
reward.  Its owner is the foundation wallet, which receives 10% of it, not the 90% owed to the
owner and the 10% owed to the foundation. -/
theorem hookReward_drops_foundation_owner_share :
    (foundationOwnedRun.map fun r => (get r.1.signers 5, total r.1.signers, r.2 9)) =
      .ok (1, 1, ether * rewardFoundationPercent / 100) ∧
    ether * rewardFoundationPercent / 100 <
      ether * rewardMasterPercent / 100 + ether * rewardFoundationPercent / 100 := by
  decide +kernel

end XdcSubnet.Hooks
