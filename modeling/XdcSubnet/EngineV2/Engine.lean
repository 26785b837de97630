import XdcSubnet.EngineV2.Config

/-!
# The engine state, its environment and its monad

`engine_v2/engine.go` keeps its consensus state in the fields of `XDPoS_v2` and mutates them in
place; a method that fails returns an error but keeps every write made before the failure.  The
model is therefore `EngineM := ExceptT Err (StateM XDPoSV2)`: a computation threads the engine
state and may throw, and a throw does not roll the state back.

Outside the engine, and parameters of every function here:

* `Crypto`: Keccak/RLP hashing of headers, votes and timeouts, `crypto.Ecrecover` (followed by
  the Keccak of the public key) and the signer's `signFn`.  These are vendored cryptography;
  they are abstract functions, and a theorem that needs a property of them states it.
* `ChainReader`: the `consensus.ChainReader` interface of the blockchain, reduced to the four
  reads the engine makes.

Left out of the state: the countdown timer and `votePoolCollectionTime` (wall-clock bookkeeping
that no consensus decision reads), the signature cache of `Author`, the forensics processor
(its goroutines only report), and the locks (every handler runs under `x.lock`).  The LRU caches
are unbounded maps: their eviction (at 128 and 4500 entries) only forgets entries.
-/

namespace XdcSubnet.EngineV2

/-- The cryptographic primitives the engine calls. -/
structure Crypto where
  /-- `Header.Hash()`: the Keccak of the RLP of every header field. -/
  headerHash : Header → Hash
  /-- `sigHash`: the header hash without the `Validator` seal, which the proposer signs. -/
  sigHash : Header → Hash
  /-- `types.VoteSigHash`. -/
  voteSigHash : VoteForSign → Hash
  /-- `types.TimeoutSigHash`. -/
  timeoutSigHash : TimeoutForSign → Hash
  /-- `Vote.Hash()`: RLP skips the unexported `signer`, so it hashes the other three fields. -/
  voteHash : BlockInfo → Signature → ℕ → Hash
  /-- `Timeout.Hash()`, likewise without the signer. -/
  timeoutHash : Round → Signature → ℕ → Hash
  /-- `crypto.Ecrecover` then the address of the recovered key; `none` is an error. -/
  ecrecover : Hash → Signature → Option Address
  /-- `signFn` of an account: the signature of a hash, or `none` on failure. -/
  signFn : Address → Hash → Option Signature
  /-- `utils.UncleHash`, the hash of an empty uncle list. -/
  emptyUncleHash : Hash

/-- The reads of `consensus.ChainReader` the engine makes. -/
structure ChainReader where
  getHeaderByHash : Hash → Option Header
  /-- The canonical header at a number. -/
  getHeaderByNumber : ℕ → Option Header
  currentHeader : Header
  config : ChainConfig

/-- `chain.GetHeader(hash, number)`: the stored header with that hash, if it has that
number. -/
def ChainReader.getHeader (chain : ChainReader) (hash : Hash) (number : ℕ) : Option Header :=
  (chain.getHeaderByHash hash).filter (·.number = number)

/-- `utils.Pool`: objects grouped under a pool key, each group a map from the object's hash to
the object.  The groups and the maps are association lists. -/
structure Pool (κ ο : Type) where
  objList : List (κ × List (Hash × ο))
deriving Repr

namespace Pool

variable {κ ο : Type} [DecidableEq κ]

/-- `NewPool` and `Pool.Clear`. -/
def empty : Pool κ ο := ⟨[]⟩

/-- `objListKeyed[hash] = obj`: replace the object under `hash`, or append it. -/
def putObj (objs : List (Hash × ο)) (hash : Hash) (obj : ο) : List (Hash × ο) :=
  if objs.any (·.1 = hash) then objs.map (fun e => if e.1 = hash then (hash, obj) else e)
  else objs ++ [(hash, obj)]

/-- The group under `key`, empty if there is none. -/
def group (p : Pool κ ο) (key : κ) : List (Hash × ο) :=
  (p.objList.lookup key).getD []

/-- `Pool.Add`: insert the object into its group and return the group's size and the group. -/
def add (p : Pool κ ο) (key : κ) (hash : Hash) (obj : ο) :
    (ℕ × List (Hash × ο)) × Pool κ ο :=
  let objs := putObj (p.group key) hash obj
  ((objs.length, objs), ⟨(key, objs) :: p.objList.filter (·.1 ≠ key)⟩)

/-- Apply `f` to every object of the group under `key`: the Go code mutates pooled objects
through the pointers the group holds. -/
def mapGroup (p : Pool κ ο) (key : κ) (f : ο → ο) : Pool κ ο :=
  ⟨p.objList.map fun e => if e.1 = key then (e.1, e.2.map fun o => (o.1, f o.2)) else e⟩

/-- `Pool.ClearByPoolKey`. -/
def clearByPoolKey (p : Pool κ ο) (key : κ) : Pool κ ο :=
  ⟨p.objList.filter (·.1 ≠ key)⟩

end Pool

/-- `Vote.PoolKey()`: `round:gapNumber:number:hash`. -/
def Vote.poolKey (v : Vote) : Round × ℕ × ℕ × Hash :=
  (v.proposedBlockInfo.round, v.gapNumber, v.proposedBlockInfo.number, v.proposedBlockInfo.hash)

/-- `Timeout.PoolKey()`: `round:gapNumber`. -/
def Timeout.poolKey (t : Timeout) : Round × ℕ := (t.round, t.gapNumber)

/-- A message the engine hands to `BroadcastCh`. -/
inductive BftMessage where
  | vote (v : Vote)
  | timeout (t : Timeout)
  | syncInfo (s : SyncInfo)
deriving DecidableEq, Repr

/-- An LRU cache as a map: `Add` replaces the entry of its key. -/
def cacheAdd {α : Type} (c : List (Hash × α)) (key : Hash) (val : α) : List (Hash × α) :=
  (key, val) :: c.filter (·.1 ≠ key)

/-- The fields of `XDPoS_v2` that carry consensus state. -/
structure XDPoSV2 where
  config : XDPoSConfig
  isInitilised : Bool
  whosTurn : Address
  /-- The snapshot cache together with the database entries `XDPoS-V2-<hash>`: every write goes
  to both, and a database read fills the cache under the same key. -/
  snapshots : List (Hash × SnapshotV2)
  epochSwitches : List (Hash × EpochSwitchInfo)
  verifiedHeaders : List Hash
  signer : Address
  timeoutCount : ℕ
  timeoutPool : Pool (Round × ℕ) Timeout
  votePool : Pool (Round × ℕ × ℕ × Hash) Vote
  currentRound : Round
  highestSelfMinedRound : Round
  highestVotedRound : Round
  highestQuorumCert : QuorumCert
  lockQuorumCert : Option QuorumCert
  highestTimeoutCert : TimeoutCert
  highestCommitBlock : Option BlockInfo
  /-- What the engine has sent to `BroadcastCh`, oldest first. -/
  broadcast : List BftMessage
  /-- Ghost state, not a field of `XDPoS_v2`: every vote `sendVote` has signed, oldest first. -/
  signedVotes : List Vote

/-- `engine_v2.New` with `Authorize(signer)`: the state before `initial`, over a database that
already holds the snapshots `db`. -/
def XDPoSV2.new (config : XDPoSConfig) (db : List (Hash × SnapshotV2)) (signer : Address) :
    XDPoSV2 where
  config := { config with v2 := config.v2.buildConfigIndex, switchBlock_epoch := config.switchBlock_epoch }
  isInitilised := false
  whosTurn := 0
  snapshots := db
  epochSwitches := []
  verifiedHeaders := []
  signer := signer
  timeoutCount := 0
  timeoutPool := .empty
  votePool := .empty
  currentRound := 0
  highestSelfMinedRound := 0
  highestVotedRound := 0
  highestQuorumCert := ⟨⟨0, 0, 0⟩, [], 0⟩
  lockQuorumCert := none
  highestTimeoutCert := ⟨0, [], 0⟩
  highestCommitBlock := none
  broadcast := []
  signedVotes := []

/-- The engine monad: state threaded through, errors do not roll it back. -/
abbrev EngineM := ExceptT Err (StateM XDPoSV2)

end XdcSubnet.EngineV2
