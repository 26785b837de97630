import Mathlib.Data.List.Basic

/-!
# XDPoS 2.0: messages, certificates and headers

The data the v2 consensus engine (`consensus/XDPoS/engines/engine_v2`) reads and writes:
the round, block-info, vote, timeout, certificate and sync-info types of
`core/types/consensus_v2.go`, the header fields of `core/types/block.go` that the engine
inspects, the engine's snapshot (`engine_v2/snapshot.go`), the epoch switch info and the error
values of `consensus/XDPoS/utils/errors.go` and `consensus/errors.go`.

Representation choices, each of which the rest of the development relies on:

* `Hash` and `Address` (fixed-size byte arrays in Go) are natural numbers: the engine only
  compares them for equality, uses them as keys, and sorts addresses byte-wise, which on
  fixed-width big-endian words is the order of `ℕ`.  The zero value `common.Hash{}` /
  `common.Address{}` is `0`.
* `Round` is `uint64` in Go and stays `UInt64`: `round + 1` and `round - 1` wrap.
* Block numbers (`*big.Int`) and gap numbers (`uint64`, only ever computed under an explicit
  overflow guard) are natural numbers.
* The header's `Extra` bytes are modelled by what the two decoders read from them
  (`Extra.v2` for bytes `DecodeBytesExtraFields` accepts, `Extra.raw` for the v1 layout of
  vanity, masternode addresses and seal).
* Nil and empty signature slices are one value: RLP decodes both to an empty slice.
-/

namespace XdcSubnet.EngineV2

/-- `common.Hash`. -/
abbrev Hash := ℕ

/-- `common.Address`. -/
abbrev Address := ℕ

/-- `types.Signature`, a byte slice. -/
abbrev Signature := List UInt8

/-- `types.Round`, a `uint64`. -/
abbrev Round := UInt64

/-- `types.BlockInfo`: the block a vote or certificate is about. -/
structure BlockInfo where
  hash : Hash
  round : Round
  number : ℕ
deriving DecidableEq, Repr

/-- `types.Vote`.  `signer` is the unexported field `SetSigner` fills after verification. -/
structure Vote where
  signer : Address
  proposedBlockInfo : BlockInfo
  signature : Signature
  gapNumber : ℕ
deriving DecidableEq, Repr

/-- `types.Timeout`. -/
structure Timeout where
  signer : Address
  round : Round
  signature : Signature
  gapNumber : ℕ
deriving DecidableEq, Repr

/-- `types.QuorumCert`. -/
structure QuorumCert where
  proposedBlockInfo : BlockInfo
  signatures : List Signature
  gapNumber : ℕ
deriving DecidableEq, Repr

/-- `types.TimeoutCert`. -/
structure TimeoutCert where
  round : Round
  signatures : List Signature
  gapNumber : ℕ
deriving DecidableEq, Repr

/-- `types.SyncInfo`. -/
structure SyncInfo where
  highestQuorumCert : QuorumCert
  highestTimeoutCert : TimeoutCert
deriving DecidableEq, Repr

/-- `types.VoteForSign`: what a vote signature signs. -/
structure VoteForSign where
  proposedBlockInfo : BlockInfo
  gapNumber : ℕ
deriving DecidableEq, Repr

/-- `types.TimeoutForSign`: what a timeout signature signs. -/
structure TimeoutForSign where
  round : Round
  gapNumber : ℕ
deriving DecidableEq, Repr

/-- `types.ExtraFields_v2`: the round and the certificate of the parent, RLP-encoded after the
version byte `2`. -/
structure ExtraFieldsV2 where
  round : Round
  quorumCert : QuorumCert
deriving DecidableEq, Repr

/-- The header's `Extra` bytes, by what the decoders read from them. -/
inductive Extra where
  /-- Version byte `2` followed by the RLP of the fields: `DecodeBytesExtraFields` succeeds. -/
  | v2 (fields : ExtraFieldsV2)
  /-- Any other bytes, in particular the v1 layout: a 32-byte vanity, masternode addresses and
  a 65-byte seal, which is what `decodeMasternodesFromHeaderExtra` and
  `ExtractAddressFromBytes` read. -/
  | raw (masternodes : List Address)
deriving DecidableEq, Repr

/-- The `types.Header` fields the engine reads or writes.  `Root`, `TxHash`, `ReceiptHash`,
`Bloom`, `GasLimit` and `GasUsed` are read by no modelled function except through the header
hashes, which are abstract. -/
structure Header where
  parentHash : Hash
  uncleHash : Hash
  coinbase : Address
  difficulty : ℕ
  number : ℕ
  time : ℕ
  extra : Extra
  mixDigest : Hash
  /-- `BlockNonce`, eight bytes read as one word. -/
  nonce : UInt64
  validator : Signature
  validators : List Address
  nextValidators : List Address
  penalties : List Address
deriving DecidableEq, Repr

/-- `types.EpochSwitchInfo`. -/
structure EpochSwitchInfo where
  penalties : List Address
  standbynodes : List Address
  masternodes : List Address
  masternodesLen : ℕ
  epochSwitchBlockInfo : BlockInfo
  epochSwitchParentBlockInfo : Option BlockInfo
deriving DecidableEq, Repr

/-- `SnapshotV2`: the masternode candidates and penalties recorded at a gap block. -/
structure SnapshotV2 where
  number : ℕ
  hash : Hash
  nextEpochMasterNodes : List Address
  nextEpochPenalties : List Address
deriving DecidableEq, Repr

/-- `newSnapshot`. -/
def newSnapshot (number : ℕ) (hash : Hash) (masternodes penalties : List Address) :
    SnapshotV2 :=
  { number, hash, nextEpochMasterNodes := masternodes, nextEpochPenalties := penalties }

/-- `utils.NonceAuthVote`, `0xffffffffffffffff`. -/
def nonceAuthVote : UInt64 := 0xffffffffffffffff

/-- `utils.NonceDropVote`, `0x0000000000000000`. -/
def nonceDropVote : UInt64 := 0

/-- The error values the modelled functions return.  Each constructor is one `errors.New`
value or one `fmt.Errorf` site; `Err.text` gives its message. -/
inductive Err where
  | unknownBlock
  | unknownAncestor
  | futureBlock
  | noValidatorSignatureV2
  | notReadyToPropose
  | notReadyToMine
  | coinbaseMismatch
  | invalidVote
  | invalidCheckpointVote
  | validatorsNotLegit
  | penaltiesNotLegit
  | nextEpochValidatorsNotLegit
  | invalidMixDigest
  | invalidUncleHash
  | invalidDifficulty
  | invalidTimestamp
  | emptyEpochSwitchValidators
  | invalidV2Extra
  | invalidQC
  | invalidQCSignatures
  | invalidTC
  | invalidTCSignatures
  | invalidFieldInNonEpochSwitch
  | validatorNotWithinMasternodes
  | coinbaseAndValidatorMismatch
  | notItsTurn
  | invalidFieldInNonGapPlusOneSwitch
  | roundInvalid
  | alreadyMined
  /-- `ErrIncomingMessageRoundNotEqualCurrentRound` -/
  | incomingMessageRoundNotEqualCurrentRound (type : String) (incoming current : Round)
  /-- `ErrIncomingMessageRoundTooFarFromCurrentRound` -/
  | incomingMessageRoundTooFarFromCurrentRound (type : String) (incoming current : Round)
  /-- `DecodeBytesExtraFields`: the first byte is not the version `2`. -/
  | extraNotV2
  /-- `verifyMsgSignature` on an empty masternode list. -/
  | emptyMasternodeList
  /-- `crypto.Ecrecover` failed. -/
  | ecrecoverFailed
  /-- `signFn` failed. -/
  | signFailed
  /-- `getEpochSwitchInfo`: no stored header for the hash. -/
  | epochSwitchHeaderNotFound (hash : Hash)
  /-- `verifyQC`: `getEpochSwitchInfo` failed. -/
  | qcEpochSwitchInfo
  /-- `verifyQC`: a signature did not recover or its signer is not a masternode. -/
  | qcSignatureError
  | qcSignatureMismatch
  /-- `verifyQC`: the certificate's gap number is not the one of its epoch. -/
  | qcGapNumberMismatch (got want : ℕ)
  /-- `VerifyBlockInfo` -/
  | blockInfoHeaderMissing (hash : Hash)
  | blockInfoHashMismatch
  | blockInfoNumberMismatch (hash : Hash)
  | switchBlockRoundNotZero
  | blockInfoRoundMismatch (hash : Hash)
  /-- `processQC`: the certified block is not stored. -/
  | qcBlockNotFound (number : ℕ) (hash : Hash)
  /-- `verifyTC` -/
  | tcSnapshot
  | tcEmptyMasternodes
  | tcEpochSwitchInfo
  | tcSignatureError
  | tcSignatureMismatch
  /-- `voteHandler` / `onVotePoolThresholdReached`: `getEpochSwitchInfo` failed. -/
  | voteHandlerEpochSwitchInfo
  /-- `timeoutHandler`: `getEpochSwitchInfo` failed. -/
  | timeoutHandlerEpochSwitchInfo
  /-- `VerifyTimeoutMessage`: the snapshot lists no masternode. -/
  | timeoutEmptyMasternodes
  /-- `getSnapshot` / `getSnapshotByHash`: no snapshot stored for the gap block. -/
  | snapshotNotFound (hash : Hash)
  /-- `getSnapshot`: no canonical header at the gap number; Go hashes the nil header and finds
  no snapshot under that hash. -/
  | gapHeaderNotFound (number : ℕ)
  /-- `isExtendingFromAncestor`: a header on the walk is not stored. -/
  | ancestorNotFound (number : ℕ) (hash : Hash)
  /-- `yourturn`: the masternode list is empty. -/
  | masternodesNotFound
  /-- A nil pointer is dereferenced here: the Go code panics. -/
  | nilDereference
  /-- `getEpochSwitchInfo` did not reach an epoch switch block within its step bound. -/
  | walkExhausted
  /-- `VerifyForkHashes` -/
  | forkHashMismatch
deriving DecidableEq, Repr

/-- The message of each error, as the Go code prints it. -/
def Err.text : Err → String
  | .unknownBlock => "unknown block"
  | .unknownAncestor => "unknown ancestor"
  | .futureBlock => "block in the future"
  | .noValidatorSignatureV2 => "no validator in v2 header"
  | .notReadyToPropose => "not ready to propose, QC is not ready"
  | .notReadyToMine => "Not ready to mine, it's not your turn"
  | .coinbaseMismatch => "Block Coinbase address does not match its wallte address"
  | .invalidVote => "vote nonce not 0x00..0 or 0xff..f"
  | .invalidCheckpointVote => "vote nonce in checkpoint block non-zero"
  | .validatorsNotLegit => "validators does not match what's stored in snapshot"
  | .penaltiesNotLegit => "penalties does not match"
  | .nextEpochValidatorsNotLegit =>
      "next epoch validators does not match what's stored in snapshot"
  | .invalidMixDigest => "non-zero mix digest"
  | .invalidUncleHash => "non empty uncle hash"
  | .invalidDifficulty => "invalid difficulty"
  | .invalidTimestamp => "invalid timestamp"
  | .emptyEpochSwitchValidators => "empty validators list on epoch switch block"
  | .invalidV2Extra => "Invalid v2 extra in the block"
  | .invalidQC => "Invalid QC content"
  | .invalidQCSignatures => "Invalid QC Signatures"
  | .invalidTC => "Invalid TC content"
  | .invalidTCSignatures => "Invalid TC Signatures"
  | .invalidFieldInNonEpochSwitch => "Invalid field exist in a non-epoch swtich block"
  | .validatorNotWithinMasternodes => "Validator address is not in the master node list"
  | .coinbaseAndValidatorMismatch =>
      "Validator and coinbase address in header does not match"
  | .notItsTurn => "Not validator's turn to mine this block"
  | .invalidFieldInNonGapPlusOneSwitch => "invalid field exist in a non-gapPlusOne swtich block"
  | .roundInvalid => "Invalid Round, it shall be bigger than QC round"
  | .alreadyMined => "Already mined"
  | .incomingMessageRoundNotEqualCurrentRound t i c =>
      t ++ " message round number: " ++ toString i ++ " does not match currentRound: " ++
        toString c
  | .incomingMessageRoundTooFarFromCurrentRound t i c =>
      t ++ " message round number: " ++ toString i ++ " is too far away from currentRound: " ++
        toString c
  | .extraNotV2 => "consensus version is not defined, or this block is v1 block"
  | .emptyMasternodeList => "Empty masternode list detected when verifying message signatures"
  | .ecrecoverFailed => "Error while verifying message"
  | .signFailed => "Error while signing hash"
  | .epochSwitchHeaderNotFound _ => "[getEpochSwitchInfo] can not find header from db hash"
  | .qcEpochSwitchInfo => "Fail to verify QC due to failure in getting epoch switch info"
  | .qcSignatureError => "Error while verfying QC message signatures"
  | .qcSignatureMismatch => "Fail to verify QC due to signature mis-match"
  | .qcGapNumberMismatch h w =>
      "gap number mismatch QC Gap " ++ toString h ++ ", should be " ++ toString w
  | .blockInfoHeaderMissing _ =>
      "[VerifyBlockInfo] header doesn't exist for the received blockInfo at hash"
  | .blockInfoHashMismatch =>
      "[VerifyBlockInfo] Provided blockheader does not match what's in the blockInfo"
  | .blockInfoNumberMismatch _ =>
      "[VerifyBlockInfo] chain header number does not match for the received blockInfo at hash"
  | .switchBlockRoundNotZero => "[VerifyBlockInfo] switch block round have to be 0"
  | .blockInfoRoundMismatch _ =>
      "[VerifyBlockInfo] chain block's round does not match from blockInfo at hash"
  | .qcBlockNotFound n _ => "block not found, number: " ++ toString n
  | .tcSnapshot => "[verifyTC] Unable to get snapshot"
  | .tcEmptyMasternodes => "empty master node lists from snapshot"
  | .tcEpochSwitchInfo => "fail on verifyTC due to failure in getting epoch switch info"
  | .tcSignatureError => "error while verifying TC message signatures"
  | .tcSignatureMismatch => "fail to verify TC due to signature mis-match"
  | .voteHandlerEpochSwitchInfo =>
      "Fail on voteHandler due to failure in getting epoch switch info"
  | .timeoutHandlerEpochSwitchInfo =>
      "fail on timeoutHandler due to failure in getting epoch switch info"
  | .timeoutEmptyMasternodes => "Empty master node lists from snapshot"
  | .snapshotNotFound _ => "Cannot find snapshot from last gap block"
  | .gapHeaderNotFound _ => "Cannot find snapshot from last gap block"
  | .ancestorNotFound n _ =>
      "Could not find its parent block when checking whether currentBlock " ++ toString n ++
        " is extending from the ancestorBlock"
  | .masternodesNotFound => "masternodes not found"
  | .nilDereference => "runtime error: invalid memory address or nil pointer dereference"
  | .walkExhausted => "epoch switch block not reached"
  | .forkHashMismatch => "homestead gas reprice fork"

end XdcSubnet.EngineV2
