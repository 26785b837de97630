import XdcSubnet.EngineV2.Epoch

/-!
# Certificates: verification and processing

`VerifyBlockInfo`, `verifyQC`, `processQC`, `setNewRound`, `commitBlocks` and `getSyncInfo` of
`engine_v2/engine.go`, and `verifyTC` and `processTC` of `engine_v2/timeout.go`.

`verifyQC` and `verifyTC` check their signatures in parallel goroutines that race to write one
shared error; `verifySignatures` checks them in list order and reports the error of the first
failing one, which is one of the values the race can leave.  A `QuorumCert` or `TimeoutCert`
reaching these functions has been RLP-decoded (or built locally) and is never nil; the nil checks
at their top are therefore not modelled.
-/

namespace XdcSubnet.EngineV2

/-- The signature loop of `verifyQC` and `verifyTC`: every signature must recover to one of the
masternodes; `onError` when recovery fails, `onMismatch` when the signer is not a
masternode. -/
def verifySignatures (cr : Crypto) (signedHash : Hash) (masternodes : List Address)
    (onError onMismatch : Err) : List Signature → Except Err Unit
  | [] => .ok ()
  | sig :: sigs =>
    match verifyMsgSignature cr signedHash sig masternodes with
    | .error _ => .error onError
    | .ok (false, _) => .error onMismatch
    | .ok (true, _) => verifySignatures cr signedHash masternodes onError onMismatch sigs

/-- **Accepted signatures are masternode signatures**: each one recovers, for the signed hash,
to an address of the list. -/
theorem verifySignatures_eq_ok {cr : Crypto} {h : Hash} {masternodes : List Address}
    {e m : Err} {sigs : List Signature}
    (hv : verifySignatures cr h masternodes e m sigs = .ok ()) :
    ∀ sig ∈ sigs, ∃ a, cr.ecrecover h sig = some a ∧ a ∈ masternodes := by
  induction sigs with
  | nil => simp
  | cons sig sigs ih =>
    unfold verifySignatures at hv
    split at hv
    · cases hv
    · cases hv
    · rename_i signer hsig
      obtain ⟨hrec, hmem⟩ := verifyMsgSignature_eq_ok hsig
      intro s hs
      rcases List.mem_cons.mp hs with rfl | hs
      · exact ⟨signer, hrec, hmem.mp rfl⟩
      · exact ih hv s hs

/-- `VerifyBlockInfo`: the block info names a stored header (or the given one) with the same
hash, number and round; the switch block must have round `0`. -/
def verifyBlockInfo (config : XDPoSConfig) (cr : Crypto) (chain : ChainReader)
    (blockInfo : BlockInfo) (blockHeader : Option Header) : Except Err Unit := do
  let blockHeader ← match blockHeader with
    | none =>
      match chain.getHeaderByHash blockInfo.hash with
      | none => .error (.blockInfoHeaderMissing blockInfo.hash)
      | some h => .ok h
    | some h =>
      if cr.headerHash h ≠ blockInfo.hash then .error .blockInfoHashMismatch else .ok h
  if blockHeader.number ≠ blockInfo.number then
    .error (.blockInfoNumberMismatch blockInfo.hash)
  else if blockInfo.number = config.v2.switchBlock then
    -- the switch block is a v1 block: no extra to decode, its round is 0
    if blockInfo.round ≠ 0 then .error .switchBlockRoundNotZero else .ok ()
  else do
    let (_, round, _) ← getExtraFields config blockHeader
    if round ≠ blockInfo.round then .error (.blockInfoRoundMismatch blockInfo.hash) else .ok ()

/-- `verifyQC`: the certificate's epoch (looked up by the certified hash, starting from
`parentHeader` when given), enough distinct signatures unless the round is `0`, each signature a
masternode's vote for the block and gap number, the gap number of the epoch, and the block info
itself. -/
def verifyQC (cr : Crypto) (chain : ChainReader) (quorumCert : QuorumCert)
    (parentHeader : Option Header) : EngineM Unit := do
  let epochInfo ← tryCatch
    (getEpochSwitchInfo cr chain parentHeader quorumCert.proposedBlockInfo.hash)
    (fun _ => throw .qcEpochSwitchInfo)
  let (signatures, _duplicates) := uniqueSignatures quorumCert.signatures
  let x ← get
  let qcRound := quorumCert.proposedBlockInfo.round
  let certThreshold := (x.config.v2.config qcRound).certThreshold
  -- the first v2 QC (round 0) carries no signatures
  if qcRound > 0 ∧ belowThreshold signatures.length epochInfo.masternodesLen certThreshold then
    throw .invalidQCSignatures
  fromExcept (verifySignatures cr
    (cr.voteSigHash ⟨quorumCert.proposedBlockInfo, quorumCert.gapNumber⟩)
    epochInfo.masternodes .qcSignatureError .qcSignatureMismatch signatures)
  let gapNumber := gapNumberOf x.config epochInfo.epochSwitchBlockInfo.number
  if gapNumber ≠ quorumCert.gapNumber then
    throw (.qcGapNumberMismatch quorumCert.gapNumber gapNumber)
  fromExcept (verifyBlockInfo x.config cr chain quorumCert.proposedBlockInfo parentHeader)

/-- The distinct addresses a list of signatures recovers to for one signed hash. -/
def recoveredSigners (cr : Crypto) (signedHash : Hash) (signatures : List Signature) :
    List Address :=
  (signatures.filterMap (cr.ecrecover signedHash)).dedup

/-- Three signatures of masternode `1` alone, differing only in their nonce, certify
`sampleBlock1`: `verifyQC` accepts the QC, whose one distinct signer is below `0.667` of the four
masternodes. -/
theorem verifyQC_accepts_single_signer :
    let voteSigHash : Hash := Crypto.tagged.voteSigHash ⟨sampleBlockInfo1, 0⟩
    let quorumCert : QuorumCert := ⟨sampleBlockInfo1, taggedSignatures 1 voteSigHash 3, 0⟩
    ((verifyQC Crypto.tagged sampleChain quorumCert none).run.run sampleEngine).1 = .ok () ∧
      recoveredSigners Crypto.tagged voteSigHash quorumCert.signatures = [1] ∧
      belowThreshold 1 sampleMasternodes.length certThreshold667 = true := by
  refine ⟨rfl, by decide, by decide⟩

/-- `verifyTC`: the snapshot of the certificate's gap number lists masternodes, the distinct
signatures reach the threshold of the current head's epoch, and each signature is a snapshot
candidate's timeout for the round and gap number. -/
def verifyTC (cr : Crypto) (chain : ChainReader) (timeoutCert : TimeoutCert) :
    EngineM Unit := do
  let x ← get
  let snap ← match getSnapshot cr x chain timeoutCert.gapNumber true with
    | .error _ => throw .tcSnapshot
    | .ok snap => pure snap
  if snap.nextEpochMasterNodes.isEmpty then throw .tcEmptyMasternodes
  let (signatures, _duplicates) := uniqueSignatures timeoutCert.signatures
  let epochInfo ← tryCatch
    (getEpochSwitchInfo cr chain (some chain.currentHeader) (cr.headerHash chain.currentHeader))
    (fun _ => throw .tcEpochSwitchInfo)
  let certThreshold := (x.config.v2.config timeoutCert.round).certThreshold
  if belowThreshold signatures.length epochInfo.masternodesLen certThreshold then
    throw .invalidTCSignatures
  fromExcept (verifySignatures cr (cr.timeoutSigHash ⟨timeoutCert.round, timeoutCert.gapNumber⟩)
    snap.nextEpochMasterNodes .tcSignatureError .tcSignatureMismatch signatures)

/-- `setNewRound`: move to `round`, reset the timeout count and clear the timeout pool; the vote
pool is kept. -/
def setNewRound (round : Round) : EngineM Unit :=
  modify fun x => { x with currentRound := round, timeoutCount := 0, timeoutPool := .empty }

/-- `commitBlocks`: when the certified block, its parent and its grandparent have consecutive
rounds, commit the grandparent unless an equal or later round, or a higher number, is already
committed. -/
def commitBlocks (cr : Crypto) (chain : ChainReader) (proposedBlockHeader : Header)
    (proposedBlockRound : Round) (_incomingQc : QuorumCert) : EngineM Bool := do
  let x ← get
  -- XDPoS v1.0 switch to v2.0, skip commit
  if proposedBlockHeader.number - 2 ≤ x.config.v2.switchBlock then return false
  let some parentBlock := chain.getHeaderByHash proposedBlockHeader.parentHash
    | throw .nilDereference
  let (_, round, _) ← fromExcept (getExtraFields x.config parentBlock)
  if proposedBlockRound - 1 ≠ round then return false
  let some grandParentBlock := chain.getHeaderByHash parentBlock.parentHash
    | throw .nilDereference
  let (_, round, _) ← fromExcept (getExtraFields x.config grandParentBlock)
  if proposedBlockRound - 2 ≠ round then return false
  if let some highestCommitBlock := x.highestCommitBlock then
    if highestCommitBlock.round ≥ round ∨ highestCommitBlock.number > grandParentBlock.number then
      return false
  let committed : BlockInfo := ⟨cr.headerHash grandParentBlock, round, grandParentBlock.number⟩
  modify fun x => { x with highestCommitBlock := some committed }
  return true

/-- `processQC`: raise the highest QC, lock on the QC inside the certified block, try to commit,
and move to the round after the certificate. -/
def processQC (cr : Crypto) (chain : ChainReader) (incomingQuorumCert : QuorumCert) :
    EngineM Unit := do
  let x ← get
  if incomingQuorumCert.proposedBlockInfo.round > x.highestQuorumCert.proposedBlockInfo.round then
    modify fun x => { x with highestQuorumCert := incomingQuorumCert }
  let some proposedBlockHeader := chain.getHeaderByHash incomingQuorumCert.proposedBlockInfo.hash
    | throw (.qcBlockNotFound incomingQuorumCert.proposedBlockInfo.number
        incomingQuorumCert.proposedBlockInfo.hash)
  if proposedBlockHeader.number > x.config.v2.switchBlock then
    let (proposedBlockQuorumCert, round, _) ← fromExcept (getExtraFields x.config proposedBlockHeader)
    let some proposedBlockQuorumCert := proposedBlockQuorumCert | throw .nilDereference
    let x ← get
    match x.lockQuorumCert with
    | none => modify fun x => { x with lockQuorumCert := some proposedBlockQuorumCert }
    | some lockQuorumCert =>
      if proposedBlockQuorumCert.proposedBlockInfo.round > lockQuorumCert.proposedBlockInfo.round
      then modify fun x => { x with lockQuorumCert := some proposedBlockQuorumCert }
    let _ ← commitBlocks cr chain proposedBlockHeader round incomingQuorumCert
  let x ← get
  if incomingQuorumCert.proposedBlockInfo.round ≥ x.currentRound then
    setNewRound (incomingQuorumCert.proposedBlockInfo.round + 1)

/-- `processTC`: raise the highest TC and move to the round after it. -/
def processTC (timeoutCert : TimeoutCert) : EngineM Unit := do
  let x ← get
  if timeoutCert.round > x.highestTimeoutCert.round then
    modify fun x => { x with highestTimeoutCert := timeoutCert }
  let x ← get
  if timeoutCert.round ≥ x.currentRound then
    setNewRound (timeoutCert.round + 1)

/-- The round invariant: the current round is past the rounds of the highest QC and of the highest
TC. -/
def RoundInvariant (x : XDPoSV2) : Prop :=
  x.highestQuorumCert.proposedBlockInfo.round < x.currentRound ∧
    x.highestTimeoutCert.round < x.currentRound

instance : DecidablePred RoundInvariant := fun _ =>
  inferInstanceAs (Decidable (_ ∧ _))

/-- `getSyncInfo`. -/
def getSyncInfo (x : XDPoSV2) : SyncInfo :=
  ⟨x.highestQuorumCert, x.highestTimeoutCert⟩

end XdcSubnet.EngineV2
