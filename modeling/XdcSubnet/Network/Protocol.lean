import XdcSubnet.Network.Node

/-!
# The subnet as a protocol: nodes, messages and byzantine signers

The state of the subnet is every node with every message sent so far and the wall clock.  A message
once sent may be delivered to any node, any number of times and in any order.  A step
(`Subnet.Step`) is one of:

* an honest node receives a sent block (`Node.insert`) or BFT message (`Node.vote`,
  `Node.timeout`, `Node.syncInfo`), tries to mine (`Node.commitNewWork`), or its countdown timer
  fires (`Node.countdown`); what it sends joins the sent messages;
* the clock advances;
* the byzantine nodes send a message each of whose signatures is theirs or was already sent
  (`Forgeable`): they may sign anything, but forge nobody's signature.

Results:

* `voteLog_reachable`: along every run, every node's signed votes have strictly increasing
  rounds (the vote safety of one engine, `VoteLog`, lifted to the network);
* `Subnet.takeAll`: runs a schedule of actions and fails at one that is not a step; a schedule
  it runs is a run of the protocol (`steps_of_takeAll`);
* `CommitSafety`: any two blocks honest nodes record as their highest commit block lie on one
  chain of the subnet's blocks.  It fails with one byzantine masternode of four
  (`commitSafety_broken_by_one_byzantine_signer`): the certificate checks count distinct
  signature bytes, so that masternode certifies blocks alone and leads an honest node to commit
  two blocks of one number.
-/

namespace XdcSubnet.Network

open EngineV2 ExceptState

/-- A message on the wire: a block, or what an engine sends to `BroadcastCh`. -/
inductive Message where
  | block (header : Header)
  | bft (msg : BftMessage)
deriving DecidableEq

/-- The whole subnet. -/
structure Subnet where
  nodes : Address → Node
  /-- Every message sent so far, oldest first. -/
  sent : List Message
  now : ℕ

/-! ### What byzantine signers can send -/

/-- The signed hashes and signatures a QC carries. -/
def QuorumCert.signed (cr : Crypto) (qc : QuorumCert) : List (Hash × Signature) :=
  qc.signatures.map fun sig => (cr.voteSigHash ⟨qc.proposedBlockInfo, qc.gapNumber⟩, sig)

/-- The signed hashes and signatures a TC carries. -/
def TimeoutCert.signed (cr : Crypto) (tc : TimeoutCert) : List (Hash × Signature) :=
  tc.signatures.map fun sig => (cr.timeoutSigHash ⟨tc.round, tc.gapNumber⟩, sig)

/-- The signed hashes and signatures a message carries: a block's seal and its QC, a vote's or a
timeout's signature, a sync info's two certificates. -/
def Message.signed (cr : Crypto) : Message → List (Hash × Signature)
  | .block header =>
    (cr.sigHash header, header.validator) ::
      match header.extra with
      | .v2 fields => QuorumCert.signed cr fields.quorumCert
      | .raw _ => []
  | .bft (.vote v) => [(cr.voteSigHash ⟨v.proposedBlockInfo, v.gapNumber⟩, v.signature)]
  | .bft (.timeout t) => [(cr.timeoutSigHash ⟨t.round, t.gapNumber⟩, t.signature)]
  | .bft (.syncInfo si) =>
    QuorumCert.signed cr si.highestQuorumCert ++ TimeoutCert.signed cr si.highestTimeoutCert

/-- A message the byzantine signers can send: each of its signatures recovers to one of them, or
was carried by a message already sent. -/
def Forgeable (cr : Crypto) (byzantine : List Address) (sent : List Message) (m : Message) :
    Prop :=
  ∀ p ∈ m.signed cr,
    (∃ a ∈ byzantine, cr.ecrecover p.1 p.2 = some a) ∨ ∃ m' ∈ sent, p ∈ m'.signed cr

instance (cr : Crypto) (byzantine : List Address) (sent : List Message) (m : Message) :
    Decidable (Forgeable cr byzantine sent m) := by
  unfold Forgeable
  infer_instance

/-! ### Steps -/

namespace Subnet

variable (cr : Crypto) (chainConfig : ChainConfig)

/-- Every node fresh from `New` with signer its address, over the database `db`, with the
genesis block as its chain. -/
def init (config : XDPoSConfig) (db : List (Hash × SnapshotV2)) (genesis : Header) : Subnet where
  nodes i := ⟨XDPoSV2.new config db i, [genesis], genesis, none⟩
  sent := []
  now := 0

/-- Replace node `i`, and put on the wire what it sent: the new entries of its engine's
`BroadcastCh` log and its broadcast blocks. -/
def update (N : Subnet) (i : Address) (node : Node) (blocks : List Header) : Subnet where
  nodes := Function.update N.nodes i node
  sent := N.sent ++ (node.engine.broadcast.drop (N.nodes i).engine.broadcast.length).map .bft ++
    blocks.map .block
  now := N.now

/-- Node `i` receives a message.  The wire drops the unexported signer of votes and
timeouts. -/
def deliver (N : Subnet) (i : Address) : Message → Subnet
  | .block header =>
    let (node, broadcast) := (N.nodes i).insert cr chainConfig header N.now
    N.update i node (if broadcast then [header] else [])
  | .bft (.vote v) => N.update i ((N.nodes i).vote cr chainConfig { v with signer := 0 }) []
  | .bft (.timeout t) =>
    N.update i ((N.nodes i).timeout cr chainConfig { t with signer := 0 }) []
  | .bft (.syncInfo si) => N.update i ((N.nodes i).syncInfo cr chainConfig si) []

/-- Node `i`'s miner tries to commit new work. -/
def mine (N : Subnet) (i : Address) : Subnet :=
  let (node, block) := (N.nodes i).commitNewWork cr chainConfig N.now
  N.update i node block.toList

/-- Node `i`'s countdown timer fires. -/
def countdown (N : Subnet) (i : Address) : Subnet :=
  N.update i ((N.nodes i).countdown cr chainConfig) []

/-- One step of the protocol with the given byzantine signers. -/
inductive Step (byzantine : List Address) : Subnet → Subnet → Prop
  | deliver {N : Subnet} {i : Address} {m : Message} (honest : i ∉ byzantine)
      (is_sent : m ∈ N.sent) : Step byzantine N (N.deliver cr chainConfig i m)
  | mine {N : Subnet} {i : Address} (honest : i ∉ byzantine) :
      Step byzantine N (N.mine cr chainConfig i)
  | countdown {N : Subnet} {i : Address} (honest : i ∉ byzantine) :
      Step byzantine N (N.countdown cr chainConfig i)
  | tick (N : Subnet) (dt : ℕ) : Step byzantine N { N with now := N.now + dt }
  | forge {N : Subnet} {m : Message} (is_forgeable : Forgeable cr byzantine N.sent m) :
      Step byzantine N { N with sent := N.sent ++ [m] }

/-- The runs of the protocol. -/
abbrev Steps (byzantine : List Address) : Subnet → Subnet → Prop :=
  Relation.ReflTransGen (Step cr chainConfig byzantine)

/-! ### The vote log along every run -/

variable {cr chainConfig}

/-- Every node's vote log holds. -/
def VoteLogs (N : Subnet) : Prop := ∀ i, VoteLog (N.nodes i).engine

theorem VoteLogs.update {N : Subnet} (h : N.VoteLogs) {i : Address} {node : Node}
    (hnode : VoteLog node.engine) (blocks : List Header) : (N.update i node blocks).VoteLogs := by
  intro j
  by_cases hj : j = i
  case pos =>
    subst hj
    simpa [Subnet.update] using hnode
  case neg => simpa [Subnet.update, Function.update_of_ne hj] using h j

theorem VoteLogs.deliver {N : Subnet} (h : N.VoteLogs) (i : Address) (m : Message) :
    (N.deliver cr chainConfig i m).VoteLogs := by
  cases m with
  | block header => exact h.update (Node.voteLog_insert (h i) header N.now) _
  | bft msg =>
    cases msg with
    | vote v => exact h.update (Node.voteLog_vote (h i) _) []
    | timeout t => exact h.update (Node.voteLog_timeout (h i) _) []
    | syncInfo si => exact h.update (Node.voteLog_syncInfo (h i) si) []

/-- **Step lemma**: every step keeps every node's vote log. -/
theorem VoteLogs.step {byzantine : List Address} {N N' : Subnet} (h : N.VoteLogs)
    (hstep : Step cr chainConfig byzantine N N') : N'.VoteLogs := by
  cases hstep with
  | deliver _ _ => exact h.deliver _ _
  | mine _ => exact h.update (Node.voteLog_commitNewWork (h _) N.now) _
  | countdown _ => exact h.update (Node.voteLog_countdown (h _)) []
  | tick => exact h
  | forge _ => exact h

theorem voteLogs_init (config : XDPoSConfig) (db : List (Hash × SnapshotV2)) (genesis : Header) :
    (init config db genesis).VoteLogs :=
  fun i => voteLog_new config db i

/-- **Vote safety of every node along every run**: whatever the byzantine signers send and
whatever the schedule, the votes each node signs have strictly increasing rounds, and none is
above its highest voted round. -/
theorem voteLog_reachable {byzantine : List Address} {config : XDPoSConfig}
    {db : List (Hash × SnapshotV2)} {genesis : Header} {N : Subnet}
    (hrun : Steps cr chainConfig byzantine (init config db genesis) N) (i : Address) :
    VoteLog (N.nodes i).engine := by
  -- the run is a chain of steps from the initial subnet, and each keeps every node's log
  have hlogs : N.VoteLogs := by
    induction hrun with
    | refl => exact voteLogs_init config db genesis
    | tail _ hstep ih => exact ih.step hstep
  exact hlogs i

/-! ### Schedules -/

/-- A step, named by what happens in it. -/
inductive Action where
  | deliver (i : Address) (m : Message)
  | mine (i : Address)
  | countdown (i : Address)
  | tick (dt : ℕ)
  | forge (m : Message)

variable (cr chainConfig) (byzantine : List Address)

/-- Take an action when it is a step: its node honest and its message sent, or its message
forgeable. -/
def take (N : Subnet) : Action → Option Subnet
  | .deliver i m => if i ∉ byzantine ∧ m ∈ N.sent then some (N.deliver cr chainConfig i m) else none
  | .mine i => if i ∉ byzantine then some (N.mine cr chainConfig i) else none
  | .countdown i => if i ∉ byzantine then some (N.countdown cr chainConfig i) else none
  | .tick dt => some { N with now := N.now + dt }
  | .forge m =>
    if Forgeable cr byzantine N.sent m then some { N with sent := N.sent ++ [m] } else none

/-- Take the actions of a schedule in turn, failing at the first that is not a step. -/
def takeAll (N : Subnet) : List Action → Option Subnet
  | [] => some N
  | a :: as => (N.take cr chainConfig byzantine a).bind fun N' => N'.takeAll as

variable {cr chainConfig byzantine}

theorem step_of_take {N N' : Subnet} {a : Action} (h : N.take cr chainConfig byzantine a = some N') :
    Step cr chainConfig byzantine N N' := by
  cases a with
  | deliver i m =>
    by_cases hok : i ∉ byzantine ∧ m ∈ N.sent
    case pos =>
      rw [take, if_pos hok] at h
      cases h
      exact .deliver hok.1 hok.2
    case neg => rw [take, if_neg hok] at h; cases h
  | mine i =>
    by_cases hi : i ∉ byzantine
    case pos =>
      rw [take, if_pos hi] at h
      cases h
      exact .mine hi
    case neg => rw [take, if_neg hi] at h; cases h
  | countdown i =>
    by_cases hi : i ∉ byzantine
    case pos =>
      rw [take, if_pos hi] at h
      cases h
      exact .countdown hi
    case neg => rw [take, if_neg hi] at h; cases h
  | tick dt =>
    cases h
    exact .tick N dt
  | forge m =>
    by_cases hm : Forgeable cr byzantine N.sent m
    case pos =>
      rw [take, if_pos hm] at h
      cases h
      exact .forge hm
    case neg => rw [take, if_neg hm] at h; cases h

/-- **A schedule that runs is a run**. -/
theorem steps_of_takeAll {N N' : Subnet} {actions : List Action}
    (h : N.takeAll cr chainConfig byzantine actions = some N') :
    Steps cr chainConfig byzantine N N' := by
  induction actions generalizing N with
  | nil =>
    cases h
    exact .refl
  | cons a actions ih =>
    obtain ⟨N₁, hfirst, hrest⟩ := Option.bind_eq_some_iff.mp h
    exact .head (step_of_take hfirst) (ih hrest)

/-! ### Commit safety -/

/-- The subnet's blocks: the genesis block and every block sent. -/
def blocks (genesis : Header) (N : Subnet) : List Header :=
  genesis :: N.sent.filterMap fun
    | .block header => some header
    | .bft _ => none

/-- The subnet's blocks by hash. -/
def getBlock (cr : Crypto) (genesis : Header) (N : Subnet) (hash : Hash) : Option Header :=
  (N.blocks genesis).find? (cr.headerHash · = hash)

variable (cr chainConfig byzantine)

/-- **Commit safety**: along every run from the initial subnet, any two blocks that honest nodes
record as their highest commit block, at any two points of the run, lie on one chain of the
subnet's blocks. -/
def CommitSafety (config : XDPoSConfig) (db : List (Hash × SnapshotV2)) (genesis : Header) :
    Prop :=
  ∀ N₁ N₂ : Subnet, Steps cr chainConfig byzantine (init config db genesis) N₁ →
    Steps cr chainConfig byzantine N₁ N₂ → ∀ i j, i ∉ byzantine → j ∉ byzantine →
      ∀ b₁ b₂ : BlockInfo, (N₁.nodes i).engine.highestCommitBlock = some b₁ →
        (N₂.nodes j).engine.highestCommitBlock = some b₂ →
        ParentLinks.OnOneChain (N₂.getBlock cr genesis) Header.parentHash b₁.hash b₂.hash

/-! ### One byzantine masternode of four breaks commit safety

On the sample subnet (masternodes `1` to `4`, `CertThreshold` `0.667`) masternode `1` is
byzantine.  Every QC and TC it needs it signs alone, three times with three nonces: the
certificate checks count distinct signature bytes.  It drives masternodes `2`, `3` and `4` with
sync infos: they mine `A1 ← A2 ← A3` on the genesis block at rounds `1` to `3`, and node `4`
commits `A1`.  Then it seals `Z4` on the genesis block at its own round `4`, and the honest
leaders mine `Z5` and `Z6` on it at rounds `5` and `6`; node `4` commits `Z4`, which is numbered
`1` like `A1`. -/

/-- A block's info under the sample crypto. -/
def blockInfoOf (header : Header) : BlockInfo :=
  ⟨Crypto.tagged.headerHash header, header.extra.round, header.number⟩

/-- A QC signed by masternode `1` alone, with three nonces. -/
def forgedQC (info : BlockInfo) : QuorumCert :=
  ⟨info, taggedSignatures 1 (Crypto.tagged.voteSigHash ⟨info, 0⟩) 3, 0⟩

/-- A TC of round `0` signed by masternode `1` alone, with three nonces. -/
def forgedTC : TimeoutCert := ⟨0, taggedSignatures 1 (Crypto.tagged.timeoutSigHash ⟨0, 0⟩) 3, 0⟩

/-- The sync info that certifies a block by a forged QC. -/
def forgedSyncInfo (header : Header) : Message :=
  .bft (.syncInfo ⟨forgedQC (blockInfoOf header), forgedTC⟩)

/-- What `2` mines at round `1` on the genesis block, at time `10`. -/
def blockA1 : Header :=
  { sealedV2Header (Crypto.tagged.headerHash sampleGenesis) 1 10 1 sampleQC0 2 with
    nextValidators := sampleMasternodes }

/-- What `3` mines at round `2` on `blockA1`, at time `12`. -/
def blockA2 : Header :=
  sealedV2Header (Crypto.tagged.headerHash blockA1) 2 12 2 (forgedQC (blockInfoOf blockA1)) 3

/-- What `4` mines at round `3` on `blockA2`, at time `14`. -/
def blockA3 : Header :=
  sealedV2Header (Crypto.tagged.headerHash blockA2) 3 14 3 (forgedQC (blockInfoOf blockA2)) 4

/-- What the byzantine `1` seals at its round `4` on the genesis block. -/
def blockZ4 : Header :=
  { sealedV2Header (Crypto.tagged.headerHash sampleGenesis) 1 14 4 sampleQC0 1 with
    nextValidators := sampleMasternodes }

/-- What `2` mines at round `5` on `blockZ4`, at time `16`. -/
def blockZ5 : Header :=
  sealedV2Header (Crypto.tagged.headerHash blockZ4) 2 16 5 (forgedQC (blockInfoOf blockZ4)) 2

/-- What `3` mines at round `6` on `blockZ5`, at time `18`. -/
def blockZ6 : Header :=
  sealedV2Header (Crypto.tagged.headerHash blockZ5) 3 18 6 (forgedQC (blockInfoOf blockZ5)) 3

/-- Up to node `4`'s commit of `blockA1`.  The first mining attempts of `3` and `4` only
initialise their engines. -/
def scheduleA : List Action :=
  [.tick 10, .mine 3, .mine 4, .mine 2,
   .deliver 3 (.block blockA1), .forge (forgedSyncInfo blockA1),
   .deliver 3 (forgedSyncInfo blockA1), .tick 2, .mine 3,
   .deliver 4 (.block blockA1), .deliver 4 (.block blockA2), .forge (forgedSyncInfo blockA2),
   .deliver 4 (forgedSyncInfo blockA2), .tick 2, .mine 4,
   .forge (forgedSyncInfo blockA3), .deliver 4 (forgedSyncInfo blockA3)]

/-- From there to node `4`'s commit of `blockZ4`. -/
def scheduleZ : List Action :=
  [.forge (.block blockZ4), .deliver 2 (.block blockZ4), .forge (forgedSyncInfo blockZ4),
   .deliver 2 (forgedSyncInfo blockZ4), .tick 2, .mine 2,
   .deliver 3 (.block blockZ4), .deliver 3 (.block blockZ5), .forge (forgedSyncInfo blockZ5),
   .deliver 3 (forgedSyncInfo blockZ5), .tick 2, .mine 3,
   .deliver 4 (.block blockZ4), .deliver 4 (.block blockZ5), .deliver 4 (.block blockZ6),
   .forge (forgedSyncInfo blockZ6), .deliver 4 (forgedSyncInfo blockZ6)]

/-- The two phases run from the initial sample subnet, with `1` byzantine. -/
def forkRun : Option (Subnet × Subnet) :=
  ((init subnetConfig [] sampleGenesis).takeAll Crypto.tagged ⟨none, 0⟩ [1] scheduleA).bind
    fun N₁ => (N₁.takeAll Crypto.tagged ⟨none, 0⟩ [1] scheduleZ).map fun N₂ => (N₁, N₂)

/-- The two phases of the fork run are runs of the protocol. -/
theorem forkRun_steps {N₁ N₂ : Subnet} (h : forkRun = some (N₁, N₂)) :
    Steps Crypto.tagged ⟨none, 0⟩ [1] (init subnetConfig [] sampleGenesis) N₁ ∧
      Steps Crypto.tagged ⟨none, 0⟩ [1] N₁ N₂ := by
  rw [forkRun] at h
  obtain ⟨N₁', hA, hZ⟩ := Option.bind_eq_some_iff.mp h
  obtain ⟨N₂', hZ, hpair⟩ := Option.map_eq_some_iff.mp hZ
  cases hpair
  exact ⟨steps_of_takeAll hA, steps_of_takeAll hZ⟩

/-- What the run shows: node `4`'s highest commit block after each phase, whether the subnet's
blocks are numbered along their parent links, and the numbers of the two committed blocks. -/
def forkFacts (N₁ N₂ : Subnet) : Option BlockInfo × Option BlockInfo × Bool × Option ℕ × Option ℕ :=
  ((N₁.nodes 4).engine.highestCommitBlock, (N₂.nodes 4).engine.highestCommitBlock,
    decide (∀ b ∈ N₂.blocks sampleGenesis, ∀ p ∈ N₂.blocks sampleGenesis,
      Crypto.tagged.headerHash p = b.parentHash → p.number + 1 = b.number),
    (N₂.getBlock Crypto.tagged sampleGenesis (Crypto.tagged.headerHash blockA1)).map (·.number),
    (N₂.getBlock Crypto.tagged sampleGenesis (Crypto.tagged.headerHash blockZ4)).map (·.number))

theorem forkRun_facts :
    forkRun.map (fun runs => forkFacts runs.1 runs.2) =
      some (some ⟨Crypto.tagged.headerHash blockA1, 1, 1⟩,
        some ⟨Crypto.tagged.headerHash blockZ4, 4, 1⟩, true, some 1, some 1) := by
  decide +kernel

/-- **Commit safety fails with one byzantine masternode of four.**  Fewer than a third of the
masternodes are byzantine and every `CertThreshold` is above `2/3`, yet along one run node `4`
commits two blocks numbered `1`: neither is an ancestor of the other. -/
theorem commitSafety_broken_by_one_byzantine_signer :
    [1].length * 3 < sampleMasternodes.length ∧
      (∀ c ∈ subnetConfig.v2.allConfigs, 2 * c.2.certThreshold.den < 3 * c.2.certThreshold.num) ∧
      ¬ CommitSafety Crypto.tagged ⟨none, 0⟩ [1] subnetConfig [] sampleGenesis := by
  refine ⟨by decide, by decide, fun hsafe => ?_⟩
  obtain ⟨⟨N₁, N₂⟩, hrun, hfacts⟩ := Option.map_eq_some_iff.mp forkRun_facts
  obtain ⟨hA, hZ⟩ := forkRun_steps hrun
  simp only [forkFacts, Prod.mk.injEq, decide_eq_true_eq, Option.map_eq_some_iff] at hfacts
  obtain ⟨hcommitA, hcommitZ, hnumbered, ⟨a, ha, hna⟩, ⟨z, hz, hnz⟩⟩ := hfacts
  have hchain := hsafe N₁ N₂ hA hZ 4 4 (by decide)
    (by decide) _ _ hcommitA hcommitZ
  -- both committed blocks are numbered 1, and the subnet's blocks are numbered along their links
  exact ParentLinks.not_onOneChain_of_number_eq (ParentLinks.numbered_find hnumbered)
    (by decide) ha hz (hna.trans hnz.symm) hchain

end Subnet

end XdcSubnet.Network
