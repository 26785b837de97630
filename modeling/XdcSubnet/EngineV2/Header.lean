import XdcSubnet.EngineV2.Handlers

/-!
# Header verification and block production

`verifyHeader` of `engine_v2/verifyHeader.go`, `yourturn` of `engine_v2/mining.go`, `YourTurn`,
`Prepare` and `Seal` of `engine_v2/engine.go`, `calcDifficulty` of `engine_v2/difficulty.go` and
`VerifyForkHashes` of `consensus/misc/forks.go`.

The wall clock (`time.Now().Unix()`) is the parameter `now`.  Block numbers are below `2^64`, so
the parent check `parent.Number.Uint64() != number-1` is `parent.number + 1 ≠ number`.
`Seal`'s `stop` channel only abandons the seal; it is not modelled.
-/

namespace XdcSubnet.EngineV2

/-- `misc.VerifyForkHashes` of a non-uncle header: at the EIP-150 block, a configured fork hash
must be the header's. -/
def verifyForkHashes (cr : Crypto) (config : ChainConfig) (header : Header) (uncle : Bool) :
    Except Err Unit :=
  if uncle then .ok ()
  else if config.eip150Block = some header.number ∧ config.eip150Hash ≠ 0 ∧
      config.eip150Hash ≠ cr.headerHash header then .error .forkHashMismatch
  else .ok ()

/-- `calcDifficulty`: every v2 block has difficulty `1`. -/
def calcDifficulty (_chain : ChainReader) (_parent : Header) (_signer : Address) : ℕ := 1

/-- `verifyHeader`: the checks a v2 header passes before it is accepted, in the source's order.
The epoch of a switch block is the one `calcMasternodes` computes; any other block is checked
against the masternodes of its epoch.  An accepted header's hash is cached, and a cached hash is
accepted at once. -/
def verifyHeader (cr : Crypto) (chain : ChainReader) (header : Header) (parents : List Header)
    (fullVerify : Bool) (now : ℕ) : EngineM Unit := do
  let x ← get
  -- If we're running a engine faking, accept any block as valid
  if x.config.v2.skipV2Validation then return ()
  if !x.isInitilised then initial cr chain header
  if cr.headerHash header ∈ (← get).verifiedHeaders then return ()
  if header.validator.isEmpty then throw .noValidatorSignatureV2
  if fullVerify ∧ header.time > now then throw .futureBlock
  let parent := match parents.getLast? with
    | some p => some p
    | none => chain.getHeader header.parentHash (header.number - 1)
  let some parent := parent | throw .unknownAncestor
  if parent.number + 1 ≠ header.number ∨ cr.headerHash parent ≠ header.parentHash then
    throw .unknownAncestor
  let (quorumCert, round, _) ← match getExtraFields x.config header with
    | .error _ => throw .invalidV2Extra
    | .ok fields => pure fields
  let minePeriod := (x.config.v2.config round).minePeriod
  if parent.number > x.config.v2.switchBlock ∧ parent.time + minePeriod > header.time then
    throw .invalidTimestamp
  -- the switch block carries no QC
  let some quorumCert := quorumCert | throw .nilDereference
  if round ≤ quorumCert.proposedBlockInfo.round then throw .roundInvalid
  verifyQC cr chain quorumCert (some parent)
  if header.nonce ≠ nonceAuthVote ∧ header.nonce ≠ nonceDropVote then throw .invalidVote
  if header.mixDigest ≠ 0 then throw .invalidMixDigest
  if header.uncleHash ≠ cr.emptyUncleHash then throw .invalidUncleHash
  if header.difficulty ≠ 1 then throw .invalidDifficulty
  let masterNodes ← if (isEpochSwitch x.config header).1 then do
      if header.nonce ≠ nonceDropVote then throw .invalidCheckpointVote
      if header.validators.isEmpty then throw .emptyEpochSwitchValidators
      let (localMasterNodes, _) ←
        fromExcept (calcMasternodes cr (← get) chain header.number header.parentHash round)
      if !compareSignersLists localMasterNodes header.validators then throw .validatorsNotLegit
      pure localMasterNodes
    else do
      if !header.validators.isEmpty then throw .invalidFieldInNonEpochSwitch
      getMasternodes cr chain header
  if isGapPlusOneBlock x.config header then
    -- this header number == gap + 1, so should use parent hash to get snapshot
    let snapshot ← fromExcept (getSnapshotByHash (← get) header.parentHash)
    if !compareSignersLists snapshot.nextEpochMasterNodes header.nextValidators then
      throw .nextEpochValidatorsNotLegit
    if !compareSignersLists snapshot.nextEpochPenalties header.penalties then
      throw .penaltiesNotLegit
  else
    if !header.nextValidators.isEmpty then throw .invalidFieldInNonGapPlusOneSwitch
    if !header.penalties.isEmpty then throw .invalidFieldInNonGapPlusOneSwitch
  fromExcept (verifyForkHashes cr chain.config header false)
  let (verified, validatorAddress) ←
    fromExcept (verifyMsgSignature cr (cr.sigHash header) header.validator masterNodes)
  if !verified then throw .validatorNotWithinMasternodes
  if validatorAddress ≠ header.coinbase then throw .coinbaseAndValidatorMismatch
  let leaderIndex := round.toNat % x.config.epoch % masterNodes.length
  if masterNodes[leaderIndex]? ≠ some validatorAddress then throw .notItsTurn
  modify fun x => { x with verifiedHeaders := cr.headerHash header :: x.verifiedHeaders }

/-- An unsigned header whose parent is a bogus genesis block listing `[9]`, and whose QC names
`sampleBlock1`, fails verification; its epoch switch lookup has already cached the bogus epoch
under `sampleBlock1`'s hash, and later lookups of that hash return it, although `sampleBlock1`'s
parent is the genesis block listing the four masternodes. -/
theorem verifyHeader_poisons_epoch_switch_cache :
    let bogusParent : Header := { genesisHeader [9] with coinbase := 9 }
    let bogusHeader :=
      sealedV2Header (Crypto.tagged.headerHash bogusParent) 1 20 2 ⟨sampleBlockInfo1, [], 0⟩ 9
    let result := (verifyHeader Crypto.tagged sampleChain bogusHeader [bogusParent] false 100).run.run
      sampleInitialised
    let lookup := (getEpochSwitchInfo Crypto.tagged sampleChain none sampleBlockInfo1.hash).run.run
      result.2
    result.1 = .error .invalidQCSignatures ∧
      lookup.1.toOption.map (fun info => (info.masternodes, info.epochSwitchBlockInfo)) =
        some ([9], ⟨sampleBlockInfo1.hash, 0, 0⟩) ∧
      sampleBlock1.parentHash = Crypto.tagged.headerHash sampleGenesis ∧
      decodeMasternodesFromHeaderExtra sampleGenesis = sampleMasternodes := by
  refine ⟨rfl, by decide, rfl, rfl⟩

/-- `yourturn`: whether `signer` leads `round` on top of `parent`, among the masternodes of the
child's epoch (computed by `calcMasternodes` when the child is an epoch switch block).  Records
the leader in `whosTurn`. -/
def yourturn (cr : Crypto) (chain : ChainReader) (round : Round) (parent : Header)
    (signer : Address) : EngineM Bool := do
  let x ← get
  if round ≤ x.highestSelfMinedRound then throw .alreadyMined
  let (isEpochSwitch, _) := isEpochSwitchAtRound x.config round parent
  let masterNodes ← if isEpochSwitch then do
      let (masterNodes, _) ← fromExcept
        (calcMasternodes cr x chain (parent.number + 1) (cr.headerHash parent) round)
      pure masterNodes
    else
      getMasternodes cr chain parent
  if masterNodes.isEmpty then throw .masternodesNotFound
  if position masterNodes signer = none then return false
  let leaderIndex := round.toNat % x.config.epoch % masterNodes.length
  let whosTurn := masterNodes.getD leaderIndex 0
  modify fun x => { x with whosTurn }
  return decide (whosTurn = signer)

/-- `YourTurn`: after `MinePeriod` of the parent's next round has passed since the parent's
timestamp, whether the signer leads the current round.  A parent whose extra does not decode
counts as round `0`. -/
def yourTurn (cr : Crypto) (chain : ChainReader) (parent : Header) (signer : Address) (now : ℕ) :
    EngineM Bool := do
  if !(← get).isInitilised then initial cr chain parent
  let x ← get
  let waitedTime : ℤ := (now : ℤ) - parent.time
  let parentRound := match getExtraFields x.config parent with
    | .ok (_, parentRound, _) => parentRound
    | .error _ => 0
  -- plus 1 means current block
  let minePeriod := (x.config.v2.config (parentRound + 1)).minePeriod
  if waitedTime < minePeriod then return false
  yourturn cr chain x.currentRound parent signer

/-- `Prepare`: fill the consensus fields of a header on top of the highest QC's block: the
current round and the highest QC in the extra, the masternodes at an epoch switch, the next
epoch's validators and penalties after a gap block, and the timestamp `parent.Time + Period`,
raised to `now`.  The parent is dereferenced before its nil check. -/
def prepare (cr : Crypto) (chain : ChainReader) (header : Header) (now : ℕ) :
    EngineM Header := do
  let x ← get
  let currentRound := x.currentRound
  let highestQC := x.highestQuorumCert
  if header.parentHash ≠ highestQC.proposedBlockInfo.hash then throw .notReadyToPropose
  let header := { header with extra := .v2 ⟨currentRound, highestQC⟩, nonce := 0 }
  let some parent := chain.getHeader header.parentHash (header.number - 1)
    | throw .nilDereference
  let signer := x.signer
  let isMyTurn ← yourturn cr chain currentRound parent signer
  if !isMyTurn then throw .notReadyToMine
  let header := { header with difficulty := calcDifficulty chain parent signer }
  let header ← if (isEpochSwitch x.config header).1 then do
      let (masterNodes, _) ← fromExcept
        (calcMasternodes cr (← get) chain header.number header.parentHash currentRound)
      pure { header with validators := masterNodes }
    else pure header
  let header ← if isGapPlusOneBlock x.config header then do
      let snapshot ← fromExcept (getSnapshotByHash (← get) header.parentHash)
      pure { header with nextValidators := snapshot.nextEpochMasterNodes,
                         penalties := snapshot.nextEpochPenalties }
    else pure header
  let time := parent.time + x.config.period
  let header := { header with mixDigest := 0, time := if time < now then now else time }
  if header.coinbase ≠ signer then throw .coinbaseMismatch
  return header

/-- `Seal` (`seal` is a keyword of Lean): sign the header and record its round as the highest self-mined round. -/
def sealBlock (cr : Crypto) (header : Header) : EngineM Header := do
  -- Sealing the genesis block is not supported
  if header.number = 0 then throw .unknownBlock
  let x ← get
  let some signature := cr.signFn x.signer (cr.sigHash header) | throw .signFailed
  let header := { header with validator := signature }
  let decodedExtraField ← fromExcept (decodeBytesExtraFields header.extra)
  modify fun x => { x with highestSelfMinedRound := decodedExtraField.round }
  return header

/-- A block at round `5` on the genesis block, with timestamp `100`. -/
def blockAtRound5 : Header :=
  sealedV2Header (Crypto.tagged.headerHash sampleGenesis) 1 100 5 sampleQC0 2

/-- The block info of `blockAtRound5`. -/
def blockInfoAtRound5 : BlockInfo := ⟨Crypto.tagged.headerHash blockAtRound5, 5, 1⟩

/-- After timeouts at rounds `5` to `10`, `MinePeriod` is `3` at the current round `11` but `2`
at the parent's round plus one.  `YourTurn` lets masternode `4` mine at time `102`, `Prepare`
stamps `max (100 + Period) 102 = 102`, and `verifyHeader` demands `100 + 3`. -/
theorem prepare_timestamp_rejected_at_config_switch :
    let quorumCert : QuorumCert := ⟨blockInfoAtRound5,
      signaturesBy [1, 2, 3] (Crypto.tagged.voteSigHash ⟨blockInfoAtRound5, 0⟩), 0⟩
    let chain := ChainReader.ofHeaders Crypto.tagged [sampleGenesis, blockAtRound5] blockAtRound5
      ⟨none, 0⟩
    let x : XDPoSV2 := { sampleInitialised with
      currentRound := 11, highestQuorumCert := quorumCert, highestTimeoutCert := ⟨10, [], 0⟩ }
    let template : Header :=
      ⟨Crypto.tagged.headerHash blockAtRound5, 0, 4, 0, 2, 0, .raw [], 0, 0, [], [], [], []⟩
    let turn := (yourTurn Crypto.tagged chain blockAtRound5 4 102).run.run x
    let sealed := (do
        let header ← prepare Crypto.tagged chain template 102
        sealBlock Crypto.tagged header).run.run turn.2
    RoundInvariant x ∧ turn.1 = .ok true ∧
      ∃ header, sealed.1 = .ok header ∧
        ((verifyHeader Crypto.tagged chain header [blockAtRound5] true 102).run.run sealed.2).1 =
          .error .invalidTimestamp := by
  refine ⟨by decide, rfl, _, rfl, rfl⟩

end XdcSubnet.EngineV2
