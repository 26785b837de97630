import XdcSubnet.EngineV2.Engine
import XdcSubnet.Lib.ParentLinks
import Mathlib.Logic.Equiv.Nat
import Mathlib.Data.List.Nodup

/-!
# A concrete environment: tagged signatures and a header store

The engine takes its cryptography (`Crypto`) and its chain (`ChainReader`) as parameters.  This
module gives both a concrete instance, so that the model runs on explicit inputs:

* `Crypto.tagged`: hashes built with `Nat.pair`, and signatures `[signer, tag, nonce]` whose
  `tag` is the low byte of the signed hash.  Any nonce gives a valid signature
  (`tagged_ecrecover_nonce`), as the choice of the ECDSA nonce and the `s ↔ n - s` symmetry do
  for `crypto.Ecrecover`: one signer has many distinct signatures of one hash
  (`tagged_signatures_ne`).
* `ChainReader.ofHeaders`: a store of headers looked up by hash, whose canonical chain is the
  ancestry of its head (`GetHeaderByNumber` follows parent links down from the head).
* `subnetConfig`: `Epoch` 900, `Gap` 450, `Period` 2, v2 from block 0, with the source's
  `UnitTestV2Configs`; `genesisHeader` and `v2Header` build headers on it.
-/

namespace XdcSubnet.EngineV2

/-- The round a header's extra carries, `0` for v1 extra. -/
def Extra.round : Extra → Round
  | .v2 fields => fields.round
  | .raw _ => 0

/-- The low byte of a hash, which a tagged signature carries. -/
def tag (h : Hash) : UInt8 := UInt8.ofNat h

/-- Signature bytes read as one number. -/
def Signature.toNat (sig : Signature) : ℕ := sig.foldl (fun acc b => acc * 256 + b.toNat) 0

/-- Tagged signatures over `Nat.pair` hashes. -/
def Crypto.tagged : Crypto where
  headerHash h := Nat.pair h.number (Nat.pair h.extra.round.toNat (Nat.pair h.coinbase h.parentHash))
    + 1
  sigHash h := Nat.pair h.number (Nat.pair h.extra.round.toNat (Nat.pair h.coinbase h.parentHash))
    + 1
  voteSigHash v :=
    Nat.pair v.proposedBlockInfo.hash (Nat.pair v.proposedBlockInfo.round.toNat v.gapNumber)
  timeoutSigHash t := Nat.pair t.round.toNat t.gapNumber
  voteHash b sig gap := Nat.pair (Nat.pair b.hash (Nat.pair b.round.toNat gap)) sig.toNat
  timeoutHash r sig gap := Nat.pair (Nat.pair r.toNat gap) sig.toNat
  ecrecover h sig :=
    match sig with
    | [signer, t, _] => if t = tag h then some signer.toNat else none
    | _ => none
  signFn a h := if a < 256 then some [UInt8.ofNat a, tag h, 0] else none
  emptyUncleHash := 0

/-- Every nonce gives a signature that recovers to its signer. -/
theorem tagged_ecrecover_nonce (h : Hash) (signer nonce : UInt8) :
    Crypto.tagged.ecrecover h [signer, tag h, nonce] = some signer.toNat := by
  simp [Crypto.tagged]

/-- The signatures of one signer over one hash differ by their nonce. -/
theorem tagged_signatures_ne {h : Hash} {signer n₁ n₂ : UInt8} (hne : n₁ ≠ n₂) :
    ([signer, tag h, n₁] : Signature) ≠ [signer, tag h, n₂] := by
  simp [hne]

/-- `k` signatures of one signer over one hash, with the nonces `0, …, k - 1`. -/
def taggedSignatures (signer : UInt8) (h : Hash) (k : ℕ) : List Signature :=
  (List.range k).map fun i => [signer, tag h, UInt8.ofNat i]

/-- Up to 256 of them are pairwise distinct byte strings. -/
theorem taggedSignatures_nodup (signer : UInt8) (h : Hash) {k : ℕ} (hk : k ≤ 256) :
    (taggedSignatures signer h k).Nodup := by
  refine List.Nodup.map_on ?_ List.nodup_range
  intro i hi j hj hij
  have hi' : i < 256 := by simp at hi; omega
  have hj' : j < 256 := by simp at hj; omega
  have hbytes : UInt8.ofNat i = UInt8.ofNat j := by simpa using hij
  have hmod : i % 256 = j % 256 := by simpa using congrArg UInt8.toNat hbytes
  rwa [Nat.mod_eq_of_lt hi', Nat.mod_eq_of_lt hj'] at hmod

/-- Every one of them recovers to the signer. -/
theorem tagged_ecrecover_taggedSignatures {signer : UInt8} {h : Hash} {k : ℕ} {sig : Signature}
    (hs : sig ∈ taggedSignatures signer h k) : Crypto.tagged.ecrecover h sig = some signer.toNat := by
  obtain ⟨i, -, rfl⟩ := List.mem_map.mp hs
  exact tagged_ecrecover_nonce h signer _

/-- An honest signature recovers to the account that made it. -/
theorem tagged_ecrecover_signFn {a h : ℕ} {sig : Signature}
    (hs : Crypto.tagged.signFn a h = some sig) : Crypto.tagged.ecrecover h sig = some a := by
  simp only [Crypto.tagged] at hs
  split at hs
  · rename_i ha
    cases hs
    simpa [Crypto.tagged] using ha
  · cases hs

/-- One nonce-`0` signature of each signer over one hash. -/
def signaturesBy (signers : List UInt8) (h : Hash) : List Signature :=
  signers.map fun a => [a, tag h, 0]

/-- A header store: lookups by hash, and the canonical chain as the ancestry of `head`. -/
def ChainReader.ofHeaders (cr : Crypto) (headers : List Header) (head : Header)
    (config : ChainConfig) : ChainReader where
  getHeaderByHash h := headers.find? (cr.headerHash · = h)
  getHeaderByNumber n :=
    if n ≤ head.number then
      (ParentLinks.walk (fun h => headers.find? (cr.headerHash · = h)) Header.parentHash
        (head.number - n) (cr.headerHash head)).bind
        fun h => headers.find? (cr.headerHash · = h)
    else none
  currentHeader := head
  config := config

/-- The subnet parameters of the source's mainnet and mock configs, with v2 from block `0` and
`UnitTestV2Configs`. -/
def subnetConfig : XDPoSConfig where
  period := 2
  epoch := 900
  gap := 450
  v2 := ⟨0, ⟨0, 2, 2, 10, certThreshold667⟩, unitTestV2Configs, [], false⟩
  epoch_pos := by decide
  switchBlock_epoch := by decide

/-- A genesis header whose extra lists the masternodes. -/
def genesisHeader (masternodes : List Address) : Header :=
  ⟨0, 0, 0, 1, 0, 0, .raw masternodes, 0, 0, [], [], [], []⟩

/-- A v2 header with its consensus fields; the others hold what `verifyHeader` requires of a
block that is neither an epoch switch nor after a gap block. -/
def v2Header (parentHash : Hash) (number time : ℕ) (round : Round) (qc : QuorumCert)
    (coinbase : Address) (validator : Signature) : Header :=
  ⟨parentHash, 0, coinbase, 1, number, time, .v2 ⟨round, qc⟩, 0, 0, validator, [], [], []⟩

/-- A v2 header sealed by `signer` with its nonce-`0` tagged signature. -/
def sealedV2Header (parentHash : Hash) (number time : ℕ) (round : Round) (qc : QuorumCert)
    (signer : UInt8) : Header :=
  let header := v2Header parentHash number time round qc signer.toNat []
  { header with validator := [signer, tag (Crypto.tagged.sigHash header), 0] }

/-- The sample subnet's four masternodes. -/
def sampleMasternodes : List Address := [1, 2, 3, 4]

/-- The sample genesis block, which is also the v2 switch block. -/
def sampleGenesis : Header := genesisHeader sampleMasternodes

/-- The QC `initial` builds for the switch block. -/
def sampleQC0 : QuorumCert := ⟨⟨Crypto.tagged.headerHash sampleGenesis, 0, 0⟩, [], 0⟩

/-- Block `1` at round `1`, sealed by its leader `sampleMasternodes[1 % 900 % 4]`. -/
def sampleBlock1 : Header :=
  sealedV2Header (Crypto.tagged.headerHash sampleGenesis) 1 10 1 sampleQC0 2

/-- The block info of `sampleBlock1`. -/
def sampleBlockInfo1 : BlockInfo := ⟨Crypto.tagged.headerHash sampleBlock1, 1, 1⟩

/-- The sample chain `sampleGenesis ← sampleBlock1`, with no fork hash configured. -/
def sampleChain : ChainReader :=
  ChainReader.ofHeaders Crypto.tagged [sampleGenesis, sampleBlock1] sampleBlock1 ⟨none, 0⟩

/-- A QC for `sampleBlock1` signed by three of the four masternodes. -/
def sampleQC1 : QuorumCert :=
  ⟨sampleBlockInfo1, signaturesBy [1, 2, 3] (Crypto.tagged.voteSigHash ⟨sampleBlockInfo1, 0⟩), 0⟩

/-- Block `2` at round `2` on `sampleBlock1`, sealed by its leader `3`. -/
def sampleBlock2 : Header :=
  sealedV2Header (Crypto.tagged.headerHash sampleBlock1) 2 20 2 sampleQC1 3

/-- The block info of `sampleBlock2`. -/
def sampleBlockInfo2 : BlockInfo := ⟨Crypto.tagged.headerHash sampleBlock2, 2, 2⟩

/-- The sample chain grown by `sampleBlock2`. -/
def sampleChain2 : ChainReader :=
  ChainReader.ofHeaders Crypto.tagged [sampleGenesis, sampleBlock1, sampleBlock2] sampleBlock2
    ⟨none, 0⟩

/-- A fresh engine of the sample subnet with signer `4`. -/
def sampleEngine : XDPoSV2 := XDPoSV2.new subnetConfig [] 4

end XdcSubnet.EngineV2
