import XdcSubnet.EngineV2.Utils

/-!
# Extra fields, epochs, gap snapshots and the epoch switch cache

`engine_v2/utils.go` (`getExtraFields`, `GetRoundNumber`), `engine_v2/epochSwitch.go`
(`getEpochSwitchInfo`, `IsEpochSwitch`, `isEpochSwitchAtRound`, `GetCurrentEpochSwitchBlock`),
`engine_v2/gap.go` (`IsGapPlusOneBlock`), `engine_v2/snapshot.go` (`getSnapshot`,
`getSnapshotByHash`) and the masternode getters of `engine_v2/engine.go` (`calcMasternodes`,
`GetMasternodes`, `GetMasternodesByHash`).

In the subnet an epoch switch block is one whose number is a multiple of `Epoch`, and the
masternodes of the next epoch are fixed at its gap block, `Gap` blocks before the switch.  The
expression `n - n % Epoch - Gap`, guarded against underflow, appears inline at five sites of the
source (`getSnapshot`, `verifyQC`, `sendVote` and twice in `sendTimeout`); it is `gapNumberOf`
here, and each site's definition names it.

`getEpochSwitchInfo` recurses along parent hashes until it meets an epoch switch block, with no
bound.  The model bounds the recursion by the starting header's number plus one, which a store
where every parent has the number one less never exceeds (the walk reaches block `0`, an epoch
switch, by then); the bound is `epochSwitchWalkBound`.
-/

namespace XdcSubnet.EngineV2

/-- Lift an `Except` into the engine monad. -/
def fromExcept {α : Type} : Except Err α → EngineM α
  | .ok a => pure a
  | .error e => throw e

/-- `utils.DecodeBytesExtraFields` on a header's extra bytes. -/
def decodeBytesExtraFields : Extra → Except Err ExtraFieldsV2
  | .v2 fields => .ok fields
  | .raw _ => .error .extraNotV2

/-- `decodeMasternodesFromHeaderExtra` (and `ExtractAddressFromBytes` on the same byte range):
the addresses between the vanity and the seal.  On v2 bytes the Go code reads whatever
addresses the RLP happens to spell; the model reads none. -/
def decodeMasternodesFromHeaderExtra (checkpointHeader : Header) : List Address :=
  match checkpointHeader.extra with
  | .raw masternodes => masternodes
  | .v2 _ => []

/-- `GetMasternodesFromEpochSwitchHeader`. -/
def getMasternodesFromEpochSwitchHeader (epochSwitchHeader : Header) : List Address :=
  epochSwitchHeader.validators

/-- `getExtraFields`: the certificate, round and masternodes a header carries.  The last v1
block (the v2 switch block) has no certificate and round `0`. -/
def getExtraFields (config : XDPoSConfig) (header : Header) :
    Except Err (Option QuorumCert × Round × List Address) :=
  if header.number = config.v2.switchBlock then
    .ok (none, 0, decodeMasternodesFromHeaderExtra header)
  else
    let masternodes := getMasternodesFromEpochSwitchHeader header
    match decodeBytesExtraFields header.extra with
    | .error e => .error e
    | .ok decodedExtraField => .ok (some decodedExtraField.quorumCert, decodedExtraField.round,
        masternodes)

/-- `GetRoundNumber`: `0` up to the switch block, the decoded round after it. -/
def getRoundNumber (config : XDPoSConfig) (header : Header) : Except Err Round :=
  if header.number ≤ config.v2.switchBlock then .ok 0
  else (decodeBytesExtraFields header.extra).map (·.round)

/-- `IsEpochSwitch`: a block number divisible by `Epoch`, and the epoch number. -/
def isEpochSwitch (config : XDPoSConfig) (header : Header) : Bool × ℕ :=
  (decide (header.number % config.epoch = 0), header.number / config.epoch)

/-- `isEpochSwitchAtRound`: whether the child of `parentHeader` is an epoch switch block; the
round is not consulted in the subnet. -/
def isEpochSwitchAtRound (config : XDPoSConfig) (_ : Round) (parentHeader : Header) : Bool × ℕ :=
  let blockNum := parentHeader.number + 1
  (decide (blockNum % config.epoch = 0), blockNum / config.epoch)

/-- `GetCurrentEpochSwitchBlock`: the epoch switch number and the epoch of a block number. -/
def getCurrentEpochSwitchBlock (config : XDPoSConfig) (blockNum : ℕ) : ℕ × ℕ :=
  (blockNum - blockNum % config.epoch, blockNum / config.epoch)

/-- `IsGapPlusOneBlock`: the block after a gap block, whose header carries the next epoch's
validators; block `1` is special-cased. -/
def isGapPlusOneBlock (config : XDPoSConfig) (header : Header) : Bool :=
  if header.number = 1 then true
  else decide (header.number % config.epoch = config.epoch - config.gap + 1)

/-- **The block after a gap block**: for `2 ≤ Gap < Epoch`, a block `n ≥ 2` is a gap-plus-one
block exactly when `n - 1` is a gap block, `(n - 1) % Epoch = Epoch - Gap`. -/
theorem isGapPlusOneBlock_iff {config : XDPoSConfig} (hgap : 2 ≤ config.gap)
    (hlt : config.gap < config.epoch) {header : Header} (hn : 2 ≤ header.number) :
    isGapPlusOneBlock config header = true ↔
      (header.number - 1) % config.epoch = config.epoch - config.gap := by
  obtain ⟨m, hm⟩ : ∃ m, header.number = m + 1 := ⟨header.number - 1, by omega⟩
  have hone : 1 % config.epoch = 1 := Nat.mod_eq_of_lt (by omega)
  have hmod : m % config.epoch < config.epoch := Nat.mod_lt _ config.epoch_pos
  unfold isGapPlusOneBlock
  rw [if_neg (by omega), hm, Nat.add_sub_cancel, Nat.add_mod_eq_ite, hone, decide_eq_true_iff]
  split <;> omega

/-- With `Gap = 1` the block after the gap block `899` is the epoch switch block `900`, whose
remainder `0` never equals `Epoch - Gap + 1 = Epoch`. -/
theorem isGapPlusOneBlock_misses_gap_one :
    let config := { subnetConfig with gap := 1 }
    let header := v2Header 0 900 0 0 sampleQC0 0 []
    (header.number - 1) % config.epoch = config.epoch - config.gap ∧
      isGapPlusOneBlock config header = false := by
  decide

/-- `n - n % Epoch - Gap`, `0` when the subtraction would wrap: the gap block of the epoch of
block `n`. -/
def gapNumberOf (config : XDPoSConfig) (n : ℕ) : ℕ :=
  if n - n % config.epoch < config.gap then 0 else n - n % config.epoch - config.gap

theorem sub_mod_eq_div_mul (config : XDPoSConfig) (n : ℕ) :
    n - n % config.epoch = n / config.epoch * config.epoch := by
  have h := Nat.div_add_mod n config.epoch
  rw [Nat.mul_comm] at h
  omega

/-- `gapNumberOf n` is `k * Epoch - Gap` for the epoch `k = n / Epoch` of block `n`, and `0`
when that would be negative. -/
theorem gapNumberOf_eq (config : XDPoSConfig) (n : ℕ) :
    gapNumberOf config n = if n / config.epoch * config.epoch < config.gap then 0
      else n / config.epoch * config.epoch - config.gap := by
  unfold gapNumberOf
  rw [sub_mod_eq_div_mul]

/-- Every block of an epoch has the gap number of the epoch's switch block. -/
theorem gapNumberOf_epochSwitch (config : XDPoSConfig) (n : ℕ) :
    gapNumberOf config (n - n % config.epoch) = gapNumberOf config n := by
  have hzero : (n - n % config.epoch) % config.epoch = 0 :=
    Nat.sub_mod_eq_zero_of_mod_eq (Nat.mod_mod n config.epoch).symm
  unfold gapNumberOf
  rw [hzero, Nat.sub_zero]

/-- A block that is not an epoch switch block has its parent's gap number. -/
theorem gapNumberOf_succ {config : XDPoSConfig} {n : ℕ} (h : (n + 1) % config.epoch ≠ 0) :
    gapNumberOf config (n + 1) = gapNumberOf config n := by
  have hmod : n % config.epoch < config.epoch := Nat.mod_lt _ config.epoch_pos
  have hone : 1 % config.epoch = 1 := by
    rcases Nat.lt_or_ge 1 config.epoch with h1 | h1
    · exact Nat.mod_eq_of_lt h1
    · have : config.epoch = 1 := by have := config.epoch_pos; omega
      exact absurd (by rw [this, Nat.mod_one]) h
  have hsucc : (n + 1) % config.epoch = n % config.epoch + 1 := by
    rw [Nat.add_mod_eq_ite, hone] at h ⊢
    split
    · rename_i hle
      rw [if_pos hle] at h
      omega
    · rfl
  unfold gapNumberOf
  rw [hsucc]
  have : n + 1 - (n % config.epoch + 1) = n - n % config.epoch := by omega
  rw [this]

/-- **Gap numbers are gap blocks**: from the second epoch on (and with `0 < Gap < Epoch`), the
gap number of a block is a block at which canonical insertion runs `UpdateM1`. -/
theorem gapNumberOf_mod {config : XDPoSConfig} (hgap : 0 < config.gap)
    (hlt : config.gap < config.epoch) {n : ℕ} (hn : config.epoch ≤ n) :
    gapNumberOf config n % config.epoch = config.epoch - config.gap := by
  obtain ⟨k, hk⟩ : ∃ k, n / config.epoch = k + 1 :=
    ⟨n / config.epoch - 1, by have := Nat.div_pos hn config.epoch_pos; omega⟩
  have hmul : (k + 1) * config.epoch = k * config.epoch + config.epoch := by
    rw [Nat.add_mul, Nat.one_mul]
  have hsplit : (k + 1) * config.epoch - config.gap =
      k * config.epoch + (config.epoch - config.gap) := by
    omega
  rw [gapNumberOf_eq, hk, if_neg (by omega), hsplit, Nat.mul_add_mod',
    Nat.mod_eq_of_lt (by omega)]

/-- `getSnapshot`: the snapshot stored under the canonical header at the gap number, which is
`number` itself when `isGapNumber`, else the gap block of `number`'s epoch.  A missing canonical
header hashes as the nil header, under which nothing is stored. -/
def getSnapshot (cr : Crypto) (x : XDPoSV2) (chain : ChainReader) (number : ℕ)
    (isGapNumber : Bool) : Except Err SnapshotV2 :=
  let gapBlockNum := if isGapNumber then number else gapNumberOf x.config number
  match chain.getHeaderByNumber gapBlockNum with
  | none => .error (.gapHeaderNotFound gapBlockNum)
  | some gapHeader =>
    match x.snapshots.lookup (cr.headerHash gapHeader) with
    | none => .error (.snapshotNotFound (cr.headerHash gapHeader))
    | some snap => .ok snap

/-- `getSnapshotByHash`. -/
def getSnapshotByHash (x : XDPoSV2) (gapBlockHash : Hash) : Except Err SnapshotV2 :=
  match x.snapshots.lookup gapBlockHash with
  | none => .error (.snapshotNotFound gapBlockHash)
  | some snap => .ok snap

/-- `common.MaxMasternodes`. -/
def maxMasternodes : ℕ := 108

/-- `calcMasternodes`: the gap snapshot's candidates without its penalties, truncated to
`MaxMasternodes`, and the penalties. -/
def calcMasternodes (cr : Crypto) (x : XDPoSV2) (chain : ChainReader) (blockNum : ℕ)
    (_parentHash : Hash) (_round : Round) : Except Err (List Address × List Address) := do
  let snap ← getSnapshot cr x chain blockNum false
  let candidates := snap.nextEpochMasterNodes
  let penalties := snap.nextEpochPenalties
  let masternodes := removeItemFromArray candidates penalties
  return (masternodes.take maxMasternodes, penalties)

/-- The epoch switch info computed from an epoch switch header `h`, recorded under `hash`
(the body of `getEpochSwitchInfo`'s epoch switch branch). -/
def epochSwitchInfoAt (cr : Crypto) (x : XDPoSV2) (chain : ChainReader) (h : Header)
    (hash : Hash) : Except Err EpochSwitchInfo :=
  if h.number = 0 then
    -- genesis: the masternodes are read from the extra bytes
    let masternodes := decodeMasternodesFromHeaderExtra h
    .ok { penalties := [], standbynodes := [], masternodes,
          masternodesLen := masternodes.length,
          epochSwitchBlockInfo := ⟨hash, 0, h.number⟩, epochSwitchParentBlockInfo := none }
  else do
    let (quorumCert, round, masternodes) ← getExtraFields x.config h
    let snap ← getSnapshot cr x chain h.number false
    let candidates := snap.nextEpochMasterNodes
    let penalties := snap.nextEpochPenalties
    let standbynodes :=
      if masternodes.length ≠ candidates.length then
        removeItemFromArray (removeItemFromArray candidates masternodes) penalties
      else []
    return { penalties, standbynodes, masternodes, masternodesLen := masternodes.length,
             epochSwitchBlockInfo := ⟨hash, round, h.number⟩,
             epochSwitchParentBlockInfo := quorumCert.map (·.proposedBlockInfo) }

/-- `getEpochSwitchInfo` with an explicit bound on its recursion: the cache entry of `hash`, or
the info of the first epoch switch block met walking parent hashes from `header` (looked up by
`hash` when absent).  Every header visited gets the result cached under its hash argument. -/
def epochSwitchWalk (cr : Crypto) (chain : ChainReader) :
    ℕ → Option Header → Hash → EngineM EpochSwitchInfo
  | 0, _, _ => throw .walkExhausted
  | fuel + 1, header, hash => do
    let x ← get
    match x.epochSwitches.lookup hash with
    | some e => return e
    | none =>
      let h ← match header with
        | some h => pure h
        | none =>
          match chain.getHeaderByHash hash with
          | some h => pure h
          | none => throw (.epochSwitchHeaderNotFound hash)
      if (isEpochSwitch x.config h).1 then
        let epochSwitchInfo ← fromExcept (epochSwitchInfoAt cr x chain h hash)
        modify fun x => { x with epochSwitches := cacheAdd x.epochSwitches hash epochSwitchInfo }
        return epochSwitchInfo
      else
        let epochSwitchInfo ← epochSwitchWalk cr chain fuel none h.parentHash
        modify fun x => { x with epochSwitches := cacheAdd x.epochSwitches hash epochSwitchInfo }
        return epochSwitchInfo

/-- The recursion bound: one more than the number of the header the walk starts from. -/
def epochSwitchWalkBound (chain : ChainReader) (header : Option Header) (hash : Hash) : ℕ :=
  match header with
  | some h => h.number + 1
  | none => ((chain.getHeaderByHash hash).map (·.number + 1)).getD 1

/-- `getEpochSwitchInfo(chain, header, hash)`. -/
def getEpochSwitchInfo (cr : Crypto) (chain : ChainReader) (header : Option Header)
    (hash : Hash) : EngineM EpochSwitchInfo :=
  epochSwitchWalk cr chain (epochSwitchWalkBound chain header hash) header hash

/-- `GetMasternodes`: the masternodes of a header's epoch, empty on error. -/
def getMasternodes (cr : Crypto) (chain : ChainReader) (header : Header) :
    EngineM (List Address) :=
  tryCatch (do
    let epochSwitchInfo ← getEpochSwitchInfo cr chain (some header) (cr.headerHash header)
    return epochSwitchInfo.masternodes)
    (fun _ => pure [])

/-- `GetMasternodesByHash`. -/
def getMasternodesByHash (cr : Crypto) (chain : ChainReader) (hash : Hash) :
    EngineM (List Address) :=
  tryCatch (do
    let epochSwitchInfo ← getEpochSwitchInfo cr chain none hash
    return epochSwitchInfo.masternodes)
    (fun _ => pure [])

end XdcSubnet.EngineV2
