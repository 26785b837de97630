import XdcSubnet.EngineV2.Certificates
import XdcSubnet.Lib.ParentLinks

/-!
# Message handlers: votes, timeouts, sync info and proposed blocks

The workflows of `engine_v2/vote.go`, `engine_v2/timeout.go` and `engine_v2/engine.go`:

* votes: `sendVote`, `voteHandler`, `verifyVotes`, `onVotePoolThresholdReached`,
  `verifyVotingRule`, `isExtendingFromAncestor` and `VerifyVoteMessage`;
* timeouts: `sendTimeout`, `timeoutHandler`, `onTimeoutPoolThresholdReached`,
  `OnCountdownTimeout` and `VerifyTimeoutMessage`;
* sync info: `VerifySyncInfoMessage` and `SyncInfoHandler`;
* proposed blocks: `ProposedBlockHandler` with `allowedToSend`;
* `initial` and `UpdateMasternodes`.

The exported handlers `VoteHandler`, `TimeoutHandler` and `SyncInfoHandler` only take `x.lock`
around the unexported ones, so each pair is one definition here.  `VerifyVoteMessage` and
`VerifyTimeoutMessage` write the recovered signer into the message (`SetSigner`); here they return
the updated message.  `isExtendingFromAncestor` is the parent walk of `ParentLinks`, instantiated
with the chain's headers; `isExtendingFromAncestor_true` reads its result back as ancestry.
-/

namespace XdcSubnet.EngineV2

/-- `broadcastToBftChannel`. -/
def broadcastToBftChannel (msg : BftMessage) : EngineM Unit :=
  modify fun x => { x with broadcast := x.broadcast ++ [msg] }

/-- `allowedToSend`: the engine's signer is a masternode of the header's epoch. -/
def allowedToSend (cr : Crypto) (chain : ChainReader) (blockHeader : Header)
    (_sendType : String) : EngineM Bool := do
  let signer := (← get).signer
  let masterNodes ← getMasternodes cr chain blockHeader
  return decide (signer ∈ masterNodes)

/-! ### Votes -/

/-- `isExtendingFromAncestor`: walk `currentBlock.Number - ancestorBlock.Number` parents from
`currentBlock` (none when the difference is negative) and compare with `ancestorBlock`'s hash. -/
def isExtendingFromAncestor (chain : ChainReader) (currentBlock ancestorBlock : BlockInfo) :
    Except Err Bool :=
  let blockNumDiff := currentBlock.number - ancestorBlock.number
  match ParentLinks.walk chain.getHeaderByHash Header.parentHash blockNumDiff currentBlock.hash with
  | none => .error (.ancestorNotFound currentBlock.number currentBlock.hash)
  | some nextBlockHash => .ok (decide (nextBlockHash = ancestorBlock.hash))

/-- **A positive answer is real ancestry**: the ancestor's hash is reached from the current
block's hash through stored headers. -/
theorem isExtendingFromAncestor_true {chain : ChainReader} {c a : BlockInfo}
    (h : isExtendingFromAncestor chain c a = .ok true) :
    ParentLinks.AncestorOrSelf chain.getHeaderByHash Header.parentHash a.hash c.hash := by
  unfold isExtendingFromAncestor at h
  cases hwalk : ParentLinks.walk chain.getHeaderByHash Header.parentHash (c.number - a.number)
      c.hash with
  | none => simp [hwalk] at h
  | some next =>
    have heq : next = a.hash := by simpa [hwalk] using h
    exact ParentLinks.walk_ancestorOrSelf (heq ▸ hwalk)

/-- `verifyVotingRule`: the HotStuff voting rule.  Not voted in this round yet, the block is of
the current round, and it either carries a QC newer than the lock or extends the locked
block. -/
def verifyVotingRule (chain : ChainReader) (blockInfo : BlockInfo) (quorumCert : QuorumCert) :
    EngineM Bool := do
  let x ← get
  if x.currentRound ≤ x.highestVotedRound then return false
  if blockInfo.round ≠ x.currentRound then return false
  match x.lockQuorumCert with
  -- XDPoS v1.0 switch to v2.0, the proposed block can always pass voting rule
  | none => return true
  | some lockQuorumCert =>
    if quorumCert.proposedBlockInfo.round > lockQuorumCert.proposedBlockInfo.round then
      return true
    fromExcept (isExtendingFromAncestor chain blockInfo lockQuorumCert.proposedBlockInfo)

/-- `verifyVotes`: give every pooled vote without a signer the masternode that signed it, when
its signature recovers to a masternode of the voted block's epoch.  Votes that already carry a
signer (set by `VerifyVoteMessage`) are skipped. -/
def verifyVotes (cr : Crypto) (chain : ChainReader) (key : Round × ℕ × ℕ × Hash)
    (header : Header) : EngineM Unit := do
  let masternodes ← getMasternodes cr chain header
  let check : Vote → Vote := fun v =>
    if v.signer ≠ 0 then v
    else
      match verifyMsgSignature cr (cr.voteSigHash ⟨v.proposedBlockInfo, v.gapNumber⟩) v.signature
          masternodes with
      | .ok (true, masterNode) => { v with signer := masterNode }
      | _ => v
  modify fun x => { x with votePool := x.votePool.mapGroup key check }

/-- `onVotePoolThresholdReached`: the signatures of the pooled votes that have a signer form a
QC when they reach the threshold of the current head's epoch; the QC is processed. -/
def onVotePoolThresholdReached (cr : Crypto) (chain : ChainReader) (key : Round × ℕ × ℕ × Hash)
    (currentVoteMsg : Vote) (_proposedBlockHeader : Header) : EngineM Unit := do
  let x ← get
  let validSignatures :=
    ((x.votePool.group key).filter (fun e => e.2.signer ≠ 0)).map (·.2.signature)
  let epochInfo ← tryCatch
    (getEpochSwitchInfo cr chain (some chain.currentHeader) (cr.headerHash chain.currentHeader))
    (fun _ => throw .voteHandlerEpochSwitchInfo)
  let certThreshold := (x.config.v2.config currentVoteMsg.proposedBlockInfo.round).certThreshold
  if belowThreshold validSignatures.length epochInfo.masternodesLen certThreshold then return ()
  let quorumCert : QuorumCert :=
    ⟨currentVoteMsg.proposedBlockInfo, validSignatures, currentVoteMsg.gapNumber⟩
  processQC cr chain quorumCert

/-- `voteHandler` (and `VoteHandler`): pool a vote of the current or next round; when its pool
reaches the threshold of the current head's epoch and the voted block is stored, verify the
pooled votes and try to form a QC. -/
def voteHandler (cr : Crypto) (chain : ChainReader) (voteMsg : Vote) : EngineM Unit := do
  let x ← get
  if voteMsg.proposedBlockInfo.round ≠ x.currentRound ∧
      voteMsg.proposedBlockInfo.round ≠ x.currentRound + 1 then
    throw (.incomingMessageRoundTooFarFromCurrentRound "vote" voteMsg.proposedBlockInfo.round
      x.currentRound)
  let ((numberOfVotesInPool, _), votePool) := x.votePool.add voteMsg.poolKey
    (cr.voteHash voteMsg.proposedBlockInfo voteMsg.signature voteMsg.gapNumber) voteMsg
  modify fun x => { x with votePool }
  let epochInfo ← tryCatch
    (getEpochSwitchInfo cr chain (some chain.currentHeader) (cr.headerHash chain.currentHeader))
    (fun _ => throw .voteHandlerEpochSwitchInfo)
  let certThreshold := (x.config.v2.config voteMsg.proposedBlockInfo.round).certThreshold
  if !belowThreshold numberOfVotesInPool epochInfo.masternodesLen certThreshold then
    -- the voted block may not have arrived yet: wait for the next vote
    match chain.getHeaderByHash voteMsg.proposedBlockInfo.hash with
    | none => return ()
    | some proposedBlockHeader =>
      fromExcept (verifyBlockInfo x.config cr chain voteMsg.proposedBlockInfo none)
      verifyVotes cr chain voteMsg.poolKey proposedBlockHeader
      onVotePoolThresholdReached cr chain voteMsg.poolKey voteMsg proposedBlockHeader

/-- `sendVote`: sign a vote for the block with the gap number of its epoch, record the round as
voted, pool the vote and broadcast it. -/
def sendVote (cr : Crypto) (chain : ChainReader) (blockInfo : BlockInfo) : EngineM Unit := do
  let epochSwitchInfo ← getEpochSwitchInfo cr chain none blockInfo.hash
  let x ← get
  let gapNumber := gapNumberOf x.config epochSwitchInfo.epochSwitchBlockInfo.number
  let signedHash ← fromExcept (signSignature cr x.signer (cr.voteSigHash ⟨blockInfo, gapNumber⟩))
  let voteMsg : Vote := ⟨0, blockInfo, signedHash, gapNumber⟩
  modify fun x =>
    { x with highestVotedRound := x.currentRound, signedVotes := x.signedVotes ++ [voteMsg] }
  voteHandler cr chain voteMsg
  broadcastToBftChannel (.vote voteMsg)

/-- `VerifyVoteMessage`: a vote older than the current round is disqualified; otherwise its
signer must be a candidate of the snapshot of its gap number.  Returns the flag and the vote
with its signer set. -/
def verifyVoteMessage (cr : Crypto) (x : XDPoSV2) (chain : ChainReader) (vote : Vote) :
    Except Err (Bool × Vote) := do
  if vote.proposedBlockInfo.round < x.currentRound then return (false, vote)
  let snapshot ← getSnapshot cr x chain vote.gapNumber true
  let (verified, signer) ← verifyMsgSignature cr
    (cr.voteSigHash ⟨vote.proposedBlockInfo, vote.gapNumber⟩) vote.signature
    snapshot.nextEpochMasterNodes
  return (verified, { vote with signer })

/-- A vote of `signer` for `sampleBlock1`, with gap number `0`. -/
def sampleVote (signer : UInt8) : Vote :=
  ⟨0, sampleBlockInfo1, [signer, tag (Crypto.tagged.voteSigHash ⟨sampleBlockInfo1, 0⟩), 0], 0⟩

/-- The gap snapshot lists candidate `5`, penalised, besides the epoch's four masternodes.  Its
vote passes `VerifyVoteMessage` (which checks candidates), is skipped by `verifyVotes` (its
signer is already set) and completes, with two masternodes' votes, the QC that
`onVotePoolThresholdReached` processes; `verifyQC` rejects that QC. -/
theorem onVotePoolThresholdReached_builds_rejected_qc :
    let snapshot : SnapshotV2 :=
      newSnapshot 0 (Crypto.tagged.headerHash sampleGenesis) [1, 2, 3, 4, 5] [5]
    let x₀ : XDPoSV2 :=
      { XDPoSV2.new subnetConfig [(snapshot.hash, snapshot)] 4 with currentRound := 1 }
    let deliver (x : XDPoSV2) (v : Vote) : XDPoSV2 :=
      match verifyVoteMessage Crypto.tagged x sampleChain v with
      | .ok (true, v) => ((voteHandler Crypto.tagged sampleChain v).run.run x).2
      | _ => x
    let x₃ := [sampleVote 2, sampleVote 3, sampleVote 5].foldl deliver x₀
    x₃.highestQuorumCert.proposedBlockInfo = sampleBlockInfo1 ∧
      (sampleVote 5).signature ∈ x₃.highestQuorumCert.signatures ∧
      ((verifyQC Crypto.tagged sampleChain x₃.highestQuorumCert none).run.run x₃).1 =
        .error .qcSignatureMismatch := by
  refine ⟨by decide, by decide, rfl⟩

/-! ### Timeouts -/

/-- `onTimeoutPoolThresholdReached`: every pooled timeout's signature goes into a TC, which is
processed; the new sync info is broadcast. -/
def onTimeoutPoolThresholdReached (key : Round × ℕ) (currentTimeoutMsg : Timeout)
    (gapNumber : ℕ) : EngineM Unit := do
  let x ← get
  let signatures := (x.timeoutPool.group key).map (·.2.signature)
  let timeoutCert : TimeoutCert := ⟨currentTimeoutMsg.round, signatures, gapNumber⟩
  processTC timeoutCert
  let syncInfo := getSyncInfo (← get)
  broadcastToBftChannel (.syncInfo syncInfo)

/-- `timeoutHandler` (and `TimeoutHandler`): pool a timeout of the current round; at the
threshold of the current head's epoch, form and process a TC. -/
def timeoutHandler (cr : Crypto) (chain : ChainReader) (timeout : Timeout) : EngineM Unit := do
  let x ← get
  if timeout.round ≠ x.currentRound then
    throw (.incomingMessageRoundNotEqualCurrentRound "timeout" timeout.round x.currentRound)
  let ((numberOfTimeoutsInPool, _), timeoutPool) := x.timeoutPool.add timeout.poolKey
    (cr.timeoutHash timeout.round timeout.signature timeout.gapNumber) timeout
  modify fun x => { x with timeoutPool }
  let epochInfo ← tryCatch
    (getEpochSwitchInfo cr chain (some chain.currentHeader) (cr.headerHash chain.currentHeader))
    (fun _ => throw .timeoutHandlerEpochSwitchInfo)
  let certThreshold := (x.config.v2.config x.currentRound).certThreshold
  if !belowThreshold numberOfTimeoutsInPool epochInfo.masternodesLen certThreshold then
    onTimeoutPoolThresholdReached timeout.poolKey timeout timeout.gapNumber

/-- `sendTimeout`: sign a timeout for the current round, with the gap number of the head's child
when that child is an epoch switch block and of the head's epoch otherwise; pool it and
broadcast it. -/
def sendTimeout (cr : Crypto) (chain : ChainReader) : EngineM Unit := do
  let x ← get
  let currentBlockHeader := chain.currentHeader
  let (isEpochSwitch, _) := isEpochSwitchAtRound x.config x.currentRound currentBlockHeader
  let gapNumber ← if isEpochSwitch then
      -- this +1 is because we expect a block whose parent is the current header
      pure (gapNumberOf x.config (currentBlockHeader.number + 1))
    else do
      let epochSwitchInfo ← getEpochSwitchInfo cr chain (some currentBlockHeader)
        (cr.headerHash currentBlockHeader)
      pure (gapNumberOf x.config epochSwitchInfo.epochSwitchBlockInfo.number)
  let x ← get
  let signedHash ← fromExcept
    (signSignature cr x.signer (cr.timeoutSigHash ⟨x.currentRound, gapNumber⟩))
  let timeoutMsg : Timeout := ⟨0, x.currentRound, signedHash, gapNumber⟩
  timeoutHandler cr chain timeoutMsg
  broadcastToBftChannel (.timeout timeoutMsg)

/-- `OnCountdownTimeout`: a masternode of the head's epoch sends a timeout, and every
`TimeoutSyncThreshold` timeouts also its sync info. -/
def onCountdownTimeout (cr : Crypto) (chain : ChainReader) : EngineM Unit := do
  let allow ← allowedToSend cr chain chain.currentHeader "timeout"
  if !allow then return ()
  sendTimeout cr chain
  modify fun x => { x with timeoutCount := x.timeoutCount + 1 }
  let x ← get
  if x.timeoutCount % x.config.v2.currentConfig.timeoutSyncThreshold = 0 then
    broadcastToBftChannel (.syncInfo (getSyncInfo x))

/-- `VerifyTimeoutMessage`: the signer must be a candidate of the snapshot of the timeout's gap
number.  Returns the flag and the timeout with its signer set. -/
def verifyTimeoutMessage (cr : Crypto) (x : XDPoSV2) (chain : ChainReader) (timeoutMsg : Timeout) :
    Except Err (Bool × Timeout) := do
  let snap ← getSnapshot cr x chain timeoutMsg.gapNumber true
  if snap.nextEpochMasterNodes.isEmpty then throw .timeoutEmptyMasternodes
  let (verified, signer) ← verifyMsgSignature cr
    (cr.timeoutSigHash ⟨timeoutMsg.round, timeoutMsg.gapNumber⟩) timeoutMsg.signature
    snap.nextEpochMasterNodes
  return (verified, { timeoutMsg with signer })

/-! ### Sync info and proposed blocks -/

/-- `VerifySyncInfoMessage`: skip a sync info that raises neither the highest QC nor the highest
TC; otherwise both its certificates must verify. -/
def verifySyncInfoMessage (cr : Crypto) (chain : ChainReader) (syncInfo : SyncInfo) :
    EngineM Bool := do
  let x ← get
  if x.highestQuorumCert.proposedBlockInfo.round ≥
        syncInfo.highestQuorumCert.proposedBlockInfo.round ∧
      x.highestTimeoutCert.round ≥ syncInfo.highestTimeoutCert.round then
    return false
  verifyQC cr chain syncInfo.highestQuorumCert none
  verifyTC cr chain syncInfo.highestTimeoutCert
  return true

/-- `syncInfoHandler` (and `SyncInfoHandler`): process the QC, then the TC. -/
def syncInfoHandler (cr : Crypto) (chain : ChainReader) (syncInfo : SyncInfo) : EngineM Unit := do
  processQC cr chain syncInfo.highestQuorumCert
  processTC syncInfo.highestTimeoutCert

/-- `ProposedBlockHandler`: process the QC the block carries, then vote for the block when the
engine's signer is a masternode of its epoch and the voting rule holds. -/
def proposedBlockHandler (cr : Crypto) (chain : ChainReader) (blockHeader : Header) :
    EngineM Unit := do
  let x ← get
  let (quorumCert, round, _) ← fromExcept (getExtraFields x.config blockHeader)
  let blockInfo : BlockInfo := ⟨cr.headerHash blockHeader, round, blockHeader.number⟩
  -- the switch block carries no QC: `processQC` dereferences nil
  let some quorumCert := quorumCert | throw .nilDereference
  processQC cr chain quorumCert
  let allow ← allowedToSend cr chain blockHeader "vote"
  if !allow then return ()
  let verified ← verifyVotingRule chain blockInfo quorumCert
  if verified then sendVote cr chain blockInfo

/-! ### Initialisation and snapshots -/

/-- `initial`: unless a QC is already known, start from the switch block (round 1, its round-0
QC) or from the QC of `header`; then make sure the first v2 snapshot exists. -/
def initial (cr : Crypto) (chain : ChainReader) (header : Header) : EngineM Unit := do
  let x ← get
  if x.highestQuorumCert.proposedBlockInfo.hash ≠ 0 then
    modify fun x => { x with isInitilised := true }
    return ()
  if header.number = x.config.v2.switchBlock then
    let blockInfo : BlockInfo := ⟨cr.headerHash header, 0, header.number⟩
    let gapNumber := if header.number < x.config.gap then 0 else header.number - x.config.gap
    -- can not call processQC because round is equal to default
    modify fun x => { x with currentRound := 1, highestQuorumCert := ⟨blockInfo, [], gapNumber⟩ }
  else
    let (quorumCert, _, _) ← fromExcept (getExtraFields x.config header)
    let some quorumCert := quorumCert | throw .nilDereference
    processQC cr chain quorumCert
  let lastGapNum :=
    if x.config.v2.switchBlock < x.config.gap then 0 else x.config.v2.switchBlock - x.config.gap
  let some lastGapHeader := chain.getHeaderByNumber lastGapNum | throw .nilDereference
  if ((← get).snapshots.lookup (cr.headerHash lastGapHeader)).isNone then
    let some checkpointHeader := chain.getHeaderByNumber x.config.v2.switchBlock
      | throw .nilDereference
    let (_, _, masternodes) ← fromExcept (getExtraFields x.config checkpointHeader)
    let snap := newSnapshot lastGapNum (cr.headerHash lastGapHeader) masternodes []
    modify fun x => { x with snapshots := cacheAdd x.snapshots snap.hash snap }
  modify fun x => { x with isInitilised := true }

/-- The sample engine after `initial` at the switch block. -/
def sampleInitialised : XDPoSV2 :=
  ((initial Crypto.tagged sampleChain sampleGenesis).run.run sampleEngine).2

/-- After `initial`, a sync info with the switch block's QC and a TC of round `2^64 - 1` that
masternode `1` alone signed three times, with three nonces, passes `VerifySyncInfoMessage`.
`SyncInfoHandler` then raises the highest TC to round `2^64 - 1` and moves the engine to round
`2^64 - 1 + 1`, which wraps to `0`, below the highest TC. -/
theorem processTC_forged_breaks_round_invariant :
    let timeoutCert : TimeoutCert := ⟨0xffffffffffffffff,
      taggedSignatures 1 (Crypto.tagged.timeoutSigHash ⟨0xffffffffffffffff, 0⟩) 3, 0⟩
    let syncInfo : SyncInfo := ⟨sampleQC0, timeoutCert⟩
    let check := (verifySyncInfoMessage Crypto.tagged sampleChain syncInfo).run.run
      sampleInitialised
    let result := (syncInfoHandler Crypto.tagged sampleChain syncInfo).run.run check.2
    RoundInvariant sampleInitialised ∧
      timeoutCert.signatures.map (Crypto.tagged.ecrecover
        (Crypto.tagged.timeoutSigHash ⟨timeoutCert.round, 0⟩)) = [some 1, some 1, some 1] ∧
      check.1 = .ok true ∧ result.1 = .ok () ∧ result.2.currentRound = 0 ∧
      ¬ RoundInvariant result.2 := by
  refine ⟨by decide, by decide, rfl, rfl, by decide, by decide⟩

/-- After `initial`, a sync info carrying a TC of round `2^64 - 1` moves the engine to round
`2^64 - 1 + 1`, which wraps to `0`. -/
theorem processTC_wraps_current_round :
    let timeoutCert : TimeoutCert := ⟨0xffffffffffffffff, [], 0⟩
    let result := (syncInfoHandler Crypto.tagged sampleChain ⟨sampleQC0, timeoutCert⟩).run.run
      sampleInitialised
    result.1 = .ok () ∧ sampleInitialised.currentRound = 1 ∧ result.2.currentRound = 0 := by
  refine ⟨rfl, by decide, by decide⟩

/-- `HookPenalty`: the penalised candidates at a gap block, computed outside the engine. -/
abbrev HookPenalty := ChainReader → ℕ → Hash → List Address → Except Err (List Address)

/-- `UpdateMasternodes`: at a gap block, store the snapshot of the candidates and their
penalties under the block's hash. -/
def updateMasternodes (cr : Crypto) (hookPenalty : Option HookPenalty) (chain : ChainReader)
    (header : Header) (ms : List Address) : EngineM Unit := do
  let penalties ← match hookPenalty with
    | none => pure []
    | some hook => fromExcept (hook chain header.number header.parentHash ms)
  let snap := newSnapshot header.number (cr.headerHash header) ms penalties
  modify fun x => { x with snapshots := cacheAdd x.snapshots snap.hash snap }

end XdcSubnet.EngineV2
