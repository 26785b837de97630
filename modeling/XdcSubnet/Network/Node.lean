import XdcSubnet.EngineV2.Run

/-!
# A node: block import, the BFT intake and the miner around the engine

A subnet node drives its `XDPoS_v2` engine from three places, each a function of the node and
the wall clock here:

* `Node.insert` (`Fetcher.insert` of `eth/fetcher`): a propagated block whose parent is known is
  verified (`VerifyHeader`, full verification), broadcast, written by `InsertChain` (which
  verifies it again) and handed to `HandleProposedBlock`;
* `Node.vote`, `Node.timeout`, `Node.syncInfo` (`Bfter` of `eth/bft`): a message close enough to
  the head is verified, sent on to `BroadcastCh`, and handled when it verified;
* `Node.commitNewWork` (`worker.commitNewWork`, the agent's `Seal` and `worker.wait` of
  `miner`): on the highest QC's block (`FindParentBlockToAssign`), when `YourTurn` says so,
  `Prepare`, `Seal`, write the block, broadcast it and hand it to `HandleProposedBlock`.

The database is a list of headers with the head of the canonical chain.  A written block becomes
the head when its number is above the head's: every v2 block has difficulty `1`, so the total
difficulty `WriteBlockWithState` compares is the number plus one.  What the engine sends to
`BroadcastCh` stays in its `broadcast` log; the block a node broadcasts is returned with it.

Every entry point keeps the engine's vote log (`voteLog_insert`, `voteLog_vote`,
`voteLog_timeout`, `voteLog_syncInfo`, `voteLog_commitNewWork`, `voteLog_countdown`), because
every engine method it calls does (`preserves_runCall`).
-/

namespace XdcSubnet.Network

open EngineV2 ExceptState

/-- `maxBlockDist` of `eth/bft`: how far from the head a vote's or a sync info's block may be. -/
def maxBlockDist : ℤ := 7

/-- A node: its engine, its database and the miner's memory. -/
structure Node where
  engine : XDPoSV2
  /-- The headers written to the database, oldest first. -/
  headers : List Header
  /-- `CurrentBlock`. -/
  head : Header
  /-- `worker.lastParentBlockCommit`: the parent of the last block the worker committed to. -/
  lastParentBlockCommit : Option Hash

namespace Node

variable (cr : Crypto) (chainConfig : ChainConfig)

/-- The database as the engine reads it. -/
def chain (node : Node) : ChainReader := ChainReader.ofHeaders cr node.headers node.head chainConfig

/-- Run an engine method on the node's engine. -/
def exec {α : Type} (node : Node) (m : EngineM α) : Except Err α × Node :=
  let (r, engine) := m.run.run node.engine
  (r, { node with engine })

/-- `WriteBlockWithState`: store the block under its hash, and make it the head when its number
is above the head's. -/
def writeBlockWithState (node : Node) (block : Header) : Node :=
  { node with
    headers := if node.headers.any (cr.headerHash · = cr.headerHash block) then node.headers
      else node.headers ++ [block]
    head := if node.head.number < block.number then block else node.head }

/-- `Fetcher.insert`: a block whose parent is unknown, or that fails `VerifyHeader`, is
dropped; otherwise it is broadcast, inserted, and handed to `HandleProposedBlock`.  Returns the
node and whether the block was broadcast. -/
def insert (node : Node) (block : Header) (now : ℕ) : Node × Bool :=
  if (node.chain cr chainConfig |>.getHeaderByHash block.parentHash).isNone then (node, false)
  else
    match node.exec (verifyHeader cr (node.chain cr chainConfig) block [] true now) with
    | (.error _, node) => (node, false)
    | (.ok (), node) =>
      -- `InsertChain` verifies the header again before it writes the block
      match node.exec (verifyHeader cr (node.chain cr chainConfig) block [] true now) with
      | (.error _, node) => (node, true)
      | (.ok (), node) =>
        let node := node.writeBlockWithState cr block
        ((node.exec (proposedBlockHandler cr (node.chain cr chainConfig) block)).2, true)

/-- `Bfter.Vote`: a vote for a block within `maxBlockDist` of the head is verified, sent on, and
handled when its signer is a candidate. -/
def vote (node : Node) (vote : Vote) : Node :=
  let dist : ℤ := vote.proposedBlockInfo.number - node.head.number
  if dist < -maxBlockDist ∨ dist > maxBlockDist then node
  else
    match verifyVoteMessage cr node.engine (node.chain cr chainConfig) vote with
    | .error _ => node
    | .ok (verified, vote) =>
      let node := (node.exec (broadcastToBftChannel (.vote vote))).2
      if verified then (node.exec (voteHandler cr (node.chain cr chainConfig) vote)).2 else node

/-- `Bfter.Timeout`: a timeout whose gap number is within three epochs of the head is verified,
sent on, and handled when its signer is a candidate. -/
def timeout (node : Node) (timeout : Timeout) : Node :=
  let dist : ℤ := (timeout.gapNumber : ℤ) - node.head.number
  let epoch : ℤ := node.engine.config.epoch
  if dist < -epoch * 3 ∨ dist > epoch * 3 then node
  else
    match verifyTimeoutMessage cr node.engine (node.chain cr chainConfig) timeout with
    | .error _ => node
    | .ok (verified, timeout) =>
      let node := (node.exec (broadcastToBftChannel (.timeout timeout))).2
      if verified then (node.exec (timeoutHandler cr (node.chain cr chainConfig) timeout)).2
      else node

/-- `Bfter.SyncInfo`: a sync info whose QC is within `maxBlockDist` of the head is verified,
sent on, and handled when it raises a certificate. -/
def syncInfo (node : Node) (syncInfo : SyncInfo) : Node :=
  let dist : ℤ := syncInfo.highestQuorumCert.proposedBlockInfo.number - node.head.number
  if dist < -maxBlockDist ∨ dist > maxBlockDist then node
  else
    match node.exec (verifySyncInfoMessage cr (node.chain cr chainConfig) syncInfo) with
    | (.error _, node) => node
    | (.ok verified, node) =>
      let node := (node.exec (broadcastToBftChannel (.syncInfo syncInfo))).2
      if verified then (node.exec (syncInfoHandler cr (node.chain cr chainConfig) syncInfo)).2
      else node

/-- The header `commitNewWork` starts from: on `parent`, with the miner's coinbase and the
timestamp `now`, or one second after the parent when the parent is not older. -/
def newWorkHeader (parentHash : Hash) (parent : Header) (coinbase : Address) (now : ℕ) :
    Header :=
  ⟨parentHash, 0, coinbase, 0, parent.number + 1,
    if now ≤ parent.time then parent.time + 1 else now, .raw [], 0, 0, [], [], [], []⟩

/-- `commitNewWork`, `Seal` and `wait`: on the highest QC's block, or the head when the node does
not store it, a block that `YourTurn` allows, `Prepare` fills and `Seal` signs is written,
broadcast and handed to `HandleProposedBlock`.  The worker commits to one parent once.  Returns
the node and the block it broadcast. -/
def commitNewWork (node : Node) (now : ℕ) : Node × Option Header :=
  let chain := node.chain cr chainConfig
  let qcBlock := node.engine.highestQuorumCert.proposedBlockInfo
  let parent := (chain.getHeader qcBlock.hash qcBlock.number).getD node.head
  if node.lastParentBlockCommit = some (cr.headerHash parent) then (node, none)
  else
    match node.exec (yourTurn cr chain parent node.engine.signer now) with
    | (.ok true, node) =>
      let header := newWorkHeader (cr.headerHash parent) parent node.engine.signer now
      match node.exec (prepare cr chain header now) with
      | (.ok header, node) =>
        let node := { node with lastParentBlockCommit := some (cr.headerHash parent) }
        -- `Finalize` sets the hash of the empty uncle list
        match node.exec (sealBlock cr { header with uncleHash := cr.emptyUncleHash }) with
        | (.ok block, node) =>
          let node := node.writeBlockWithState cr block
          ((node.exec (proposedBlockHandler cr (node.chain cr chainConfig) block)).2, some block)
        | (.error _, node) => (node, none)
      | (.error _, node) => (node, none)
    | (_, node) => (node, none)

/-- The countdown timer fires `OnCountdownTimeout`. -/
def countdown (node : Node) : Node :=
  (node.exec (onCountdownTimeout cr (node.chain cr chainConfig))).2

/-! ### Every entry point keeps the vote log -/

/-- Every engine call keeps the vote log. -/
theorem preserves_runCall (c : EngineCall) : Preserves VoteLog (runCall cr c) :=
  fun _ hs => hs.step c

theorem preserves_broadcast (msg : BftMessage) : Preserves VoteLog (broadcastToBftChannel msg) :=
  fun _ hs => hs.of_votesKept ⟨rfl, rfl⟩

variable {cr chainConfig}

theorem exec_engine {α : Type} (node : Node) (m : EngineM α) :
    (node.exec m).2.engine = (m.run.run node.engine).2 := rfl

theorem writeBlockWithState_engine (node : Node) (block : Header) :
    (node.writeBlockWithState cr block).engine = node.engine := rfl

/-- An engine method that keeps the vote log keeps the node's. -/
theorem exec_voteLog {α : Type} {m : EngineM α} (hm : Preserves VoteLog m) {node : Node}
    (h : VoteLog node.engine) : VoteLog (node.exec m).2.engine := by
  rw [exec_engine]
  exact hm _ h

/-- The same, for a run whose outcome the caller matched on. -/
theorem exec_eq_voteLog {α : Type} {m : EngineM α} (hm : Preserves VoteLog m) {node node' : Node}
    {r : Except Err α} (he : node.exec m = (r, node')) (h : VoteLog node.engine) :
    VoteLog node'.engine := by
  have hlog := exec_voteLog hm h
  rwa [he] at hlog

theorem voteLog_insert {node : Node} (h : VoteLog node.engine) (block : Header) (now : ℕ) :
    VoteLog (node.insert cr chainConfig block now).1.engine := by
  have hverify := fun chain => preserves_runCall cr (.verifyHeader chain block [] true now)
  unfold insert
  split
  case isTrue => exact h
  case isFalse =>
    split
    case h_1 hfirst => exact exec_eq_voteLog (hverify _) hfirst h
    case h_2 node₁ hfirst =>
      have h₁ := exec_eq_voteLog (hverify _) hfirst h
      split
      case h_1 hsecond => exact exec_eq_voteLog (hverify _) hsecond h₁
      case h_2 node₂ hsecond =>
        have h₂ := exec_eq_voteLog (hverify _) hsecond h₁
        rw [← writeBlockWithState_engine node₂ block] at h₂
        exact exec_voteLog (preserves_runCall cr (.proposedBlock _ block)) h₂

theorem voteLog_vote {node : Node} (h : VoteLog node.engine) (v : Vote) :
    VoteLog (node.vote cr chainConfig v).engine := by
  unfold vote
  dsimp only
  split
  case isTrue => exact h
  case isFalse =>
    split
    case h_1 => exact h
    case h_2 _ v' _ =>
      have hsent := exec_voteLog (preserves_broadcast (.vote v')) h
      split
      case isTrue => exact exec_voteLog (preserves_runCall cr (.vote _ v')) hsent
      case isFalse => exact hsent

theorem voteLog_timeout {node : Node} (h : VoteLog node.engine) (t : Timeout) :
    VoteLog (node.timeout cr chainConfig t).engine := by
  unfold timeout
  dsimp only
  split
  case isTrue => exact h
  case isFalse =>
    split
    case h_1 => exact h
    case h_2 _ t' _ =>
      have hsent := exec_voteLog (preserves_broadcast (.timeout t')) h
      split
      case isTrue => exact exec_voteLog (preserves_runCall cr (.timeout _ t')) hsent
      case isFalse => exact hsent

theorem voteLog_syncInfo {node : Node} (h : VoteLog node.engine) (si : SyncInfo) :
    VoteLog (node.syncInfo cr chainConfig si).engine := by
  have hverify := Preserves.of_discard
    (preserves_runCall cr (.verifySyncInfo (node.chain cr chainConfig) si))
  unfold syncInfo
  dsimp only
  split
  case isTrue => exact h
  case isFalse =>
    split
    case h_1 hverified => exact exec_eq_voteLog hverify hverified h
    case h_2 node₁ hverified =>
      have hsent := exec_voteLog (preserves_broadcast (.syncInfo si))
        (exec_eq_voteLog hverify hverified h)
      split
      case isTrue => exact exec_voteLog (preserves_runCall cr (.syncInfo _ si)) hsent
      case isFalse => exact hsent

theorem voteLog_commitNewWork {node : Node} (h : VoteLog node.engine) (now : ℕ) :
    VoteLog (node.commitNewWork cr chainConfig now).1.engine := by
  -- the miner's methods return values, and keep the log as the calls that drop them do
  have hturn := fun parent signer => Preserves.of_discard
    (preserves_runCall cr (.yourTurn (node.chain cr chainConfig) parent signer now))
  have hprepare := fun header => Preserves.of_discard
    (preserves_runCall cr (.prepare (node.chain cr chainConfig) header now))
  have hseal := fun header => Preserves.of_discard (preserves_runCall cr (.sealBlock header))
  unfold commitNewWork
  dsimp only
  split
  case isTrue => exact h
  case isFalse =>
    split
    case h_1 node₁ hturned =>
      have h₁ := exec_eq_voteLog (hturn _ _) hturned h
      split
      case h_1 node₂ hprepared =>
        have h₂ := exec_eq_voteLog (hprepare _) hprepared h₁
        split
        case h_1 node₃ hsealed =>
          have h₃ := exec_eq_voteLog (hseal _) hsealed h₂
          rw [← writeBlockWithState_engine node₃ _] at h₃
          exact exec_voteLog (preserves_runCall cr (.proposedBlock _ _)) h₃
        case h_2 hsealed => exact exec_eq_voteLog (hseal _) hsealed h₂
      case h_2 hprepared => exact exec_eq_voteLog (hprepare _) hprepared h₁
    case h_2 hturned => exact exec_eq_voteLog (hturn _ _) hturned h

theorem voteLog_countdown {node : Node} (h : VoteLog node.engine) :
    VoteLog (node.countdown cr chainConfig).engine :=
  exec_voteLog (preserves_runCall cr (.countdownTimeout _)) h

end Node

end XdcSubnet.Network
