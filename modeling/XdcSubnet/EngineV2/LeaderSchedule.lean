import XdcSubnet.EngineV2.VerifiedChain

/-!
# Who leads a round, and which snapshot decides it

The leader of a round is `masterNodes[round % Epoch % len]`.  At an epoch switch block
`verifyHeader` computes `masterNodes` itself (`calcMasternodes`: the gap snapshot's candidates
without its penalties) and admits the header's `Validators` when `CompareSignersLists` finds the
two lists equal.  That comparison sorts both lists (`compareSignersLists_iff_perm`): it admits
every permutation of the computed list, and the switch block's own leader is checked in the
computed order (`verifyHeader_switchLeader`).  Every later block of the epoch, in `verifyHeader` and in
`yourturn`, indexes the masternodes `getEpochSwitchInfo` reads back from the switch header's
`Validators`, in the order the switch block's proposer wrote them.

`calcMasternodes` finds its snapshot through `getSnapshot`, which looks the gap block up by number
on the canonical chain, not among the header's own ancestors.

The short-epoch chain below (`Epoch` 5, `Gap` 2) runs both behaviours:

* `leaderSchedule_set_by_switch_block_order`: a switch block listing the masternodes as
  `[2, 1, 3, 4]` is accepted, and so is the next block, sealed by `1` at a round that the
  snapshot order gives to `2`;
* `verifyHeader_reads_canonical_snapshot`: the same switch block is accepted or rejected
  depending on which block numbered `3` is canonical, with the snapshots of both stored.
-/

open Std.Do ExceptState

set_option mvcgen.warning false

namespace XdcSubnet.EngineV2

/-! ### What the epoch switch check admits -/

theorem insertionSort_eq_iff_perm {l₁ l₂ : List Address} :
    l₁.insertionSort (· ≤ ·) = l₂.insertionSort (· ≤ ·) ↔ l₁.Perm l₂ := by
  constructor
  · intro h
    have hperm := List.perm_insertionSort (· ≤ ·) l₂
    rw [← h] at hperm
    exact (List.perm_insertionSort (· ≤ ·) l₁).symm.trans hperm
  · intro h
    apply List.Perm.eq_of_sortedLE List.sortedLE_insertionSort List.sortedLE_insertionSort
    exact (List.perm_insertionSort _ l₁).trans (h.trans (List.perm_insertionSort _ l₂).symm)

/-- **`CompareSignersLists` is permutation equality**: sorting both lists admits every
reordering of the same multiset of addresses. -/
theorem compareSignersLists_iff_perm (l₁ l₂ : List Address) :
    compareSignersLists l₁ l₂ = true ↔ l₁.Perm l₂ := by
  unfold compareSignersLists
  by_cases hnil : l₁.length = 0 ∧ l₂.length = 0
  case pos =>
    obtain ⟨h₁, h₂⟩ := hnil
    rw [List.length_eq_zero_iff] at h₁ h₂
    subst h₁ h₂
    simp
  case neg =>
    rw [if_neg hnil]
    by_cases hlen : l₁.length ≠ l₂.length
    case pos =>
      rw [if_pos hlen, Bool.false_eq_true, false_iff]
      exact fun h => hlen h.length_eq
    case neg =>
      rw [if_neg hlen, decide_eq_true_iff, insertionSort_eq_iff_perm]

theorem calcMasternodes_cacheOnly {cr : Crypto} {chain : ChainReader} {s₀ s : XDPoSV2}
    (h : CacheOnly s₀ s) (n : ℕ) (hash : Hash) (round : Round) :
    calcMasternodes cr s chain n hash round = calcMasternodes cr s₀ chain n hash round :=
  h.congr (f := fun x => calcMasternodes cr x chain n hash round) fun _ => rfl

/-- Extra fields that carry a certificate were decoded from v2 bytes, with their round. -/
theorem getExtraFields_some {config : XDPoSConfig} {header : Header}
    {fields : Option QuorumCert × Round × List Address} {quorumCert : QuorumCert}
    (h : getExtraFields config header = .ok fields) (hqc : fields.1 = some quorumCert) :
    ∃ decoded, decodeBytesExtraFields header.extra = .ok decoded ∧ fields.2.1 = decoded.round := by
  unfold getExtraFields at h
  split at h
  · cases h
    cases hqc
  · split at h
    · cases h
    · rename_i decoded hdec
      cases h
      exact ⟨decoded, hdec, rfl⟩

/-- An epoch switch header has its `Validators` in some order of the computed masternodes, and
its coinbase leads its round in the computed order. -/
def SwitchLeader (cr : Crypto) (s₀ : XDPoSV2) (chain : ChainReader) (header : Header) : Prop :=
  ∃ masterNodes penalties decoded,
    calcMasternodes cr s₀ chain header.number header.parentHash decoded.round =
      .ok (masterNodes, penalties) ∧
    masterNodes.Perm header.validators ∧ decodeBytesExtraFields header.extra = .ok decoded ∧
    masterNodes[decoded.round.toNat % s₀.config.epoch % masterNodes.length]? = some header.coinbase

theorem switchLeader_of_checks {cr : Crypto} {chain : ChainReader} {s₀ s : XDPoSV2}
    {header : Header} {fields : Option QuorumCert × Round × List Address} {quorumCert : QuorumCert}
    {computed : List Address × List Address} {signed : Bool × Address}
    (hextra : getExtraFields s₀.config header = .ok fields) (hqc : fields.1 = some quorumCert)
    (hcache : CacheOnly s₀ s)
    (hcalc : calcMasternodes cr s chain header.number header.parentHash fields.2.1 = .ok computed)
    (hcompare : ¬(!compareSignersLists computed.1 header.validators) = true)
    (hcoinbase : ¬signed.2 ≠ header.coinbase)
    (hleader : ¬computed.1[fields.2.1.toNat % s₀.config.epoch % computed.1.length]? ≠
      some signed.2) :
    SwitchLeader cr s₀ chain header := by
  obtain ⟨decoded, hdec, hround⟩ := getExtraFields_some hextra hqc
  rw [hround] at hcalc hleader
  rw [calcMasternodes_cacheOnly hcache] at hcalc
  rw [Bool.not_eq_true', Bool.not_eq_false, compareSignersLists_iff_perm] at hcompare
  rw [not_not] at hcoinbase hleader
  exact ⟨computed.1, computed.2, decoded, hcalc, hcompare, hdec, hcoinbase ▸ hleader⟩

/-- **An accepted epoch switch header permutes the computed masternodes**: with validation on,
the engine initialised and the header's hash not cached, `verifyHeader` accepts an epoch switch
header only if its `Validators` are a permutation of `calcMasternodes`' list and its coinbase
leads its round in that list's order. -/
theorem verifyHeader_switchLeader (cr : Crypto) (chain : ChainReader) (header : Header)
    (parents : List Header) (fullVerify : Bool) (now : ℕ) (s₀ : XDPoSV2)
    (hskip : s₀.config.v2.skipV2Validation = false) (hinit : s₀.isInitilised = true)
    (hfresh : cr.headerHash header ∉ s₀.verifiedHeaders)
    (hswitch : (isEpochSwitch s₀.config header).1 = true) :
    ⦃fun s => ⌜s = s₀⌝⦄ verifyHeader cr chain header parents fullVerify now
    ⦃post⟨fun _ _ => ⌜SwitchLeader cr s₀ chain header⌝, fun _ _ => ⌜True⌝⟩⦄ := by
  mvcgen [verifyHeader, fromExcept, verifyQC_cacheOnly, getMasternodes_cacheOnly]
  all_goals subst_vars
  -- skipped validation, `initial`, a cached hash and the non-switch branch are ruled out
  case vc1 => simp_all
  case vc2 => simp_all
  case vc3 => exact absurd ‹_ ∈ _› hfresh
  case vc8 | vc9 => simp_all
  -- the two success exits of the switch branch, with and without the gap-plus-one checks
  all_goals exact switchLeader_of_checks ‹_› ‹_› ‹_› ‹_› ‹_› ‹_› ‹_›

/-- The run form of `verifyHeader_switchLeader`: an epoch switch header that `verifyHeader`
accepts fresh lists the computed masternodes and is proposed by its round's leader. -/
theorem switchLeader_of_accepted {cr : Crypto} {chain : ChainReader} {header : Header}
    {parents : List Header} {fullVerify : Bool} {now : ℕ} {s₀ : XDPoSV2}
    (hskip : s₀.config.v2.skipV2Validation = false) (hinit : s₀.isInitilised = true)
    (hfresh : cr.headerHash header ∉ s₀.verifiedHeaders)
    (hswitch : (isEpochSwitch s₀.config header).1 = true)
    (hok : ((verifyHeader cr chain header parents fullVerify now).run.run s₀).1 = .ok ()) :
    SwitchLeader cr s₀ chain header := by
  have hspec := Outcome.of_triple (verifyHeader_switchLeader cr chain header parents fullVerify now
    s₀ hskip hinit hfresh hswitch) rfl
  revert hspec
  rcases hrun : (verifyHeader cr chain header parents fullVerify now).run.run s₀ with ⟨_ | _, _⟩
  case error => simp [hrun] at hok
  case ok => exact id

/-! ### A chain whose epochs are five blocks long -/

/-- The subnet parameters with `Epoch` 5 and `Gap` 2. -/
def shortEpochConfig : XDPoSConfig :=
  { subnetConfig with epoch := 5, gap := 2, epoch_pos := by decide,
                      switchBlock_epoch := by decide }

/-- Block `n` on `parent`, at round `n` and time `10 * n`, sealed by `signer`; the blocks before
the switch block are only stored, so their certificate is the switch block's. -/
def shortBlock (parent : Header) (n : ℕ) (signer : UInt8) : Header :=
  sealedV2Header (Crypto.tagged.headerHash parent) n (10 * n) (UInt64.ofNat n) sampleQC0 signer

def shortBlock1 : Header := shortBlock sampleGenesis 1 2
def shortBlock2 : Header := shortBlock shortBlock1 2 3
/-- The gap block of the first epoch. -/
def shortBlock3 : Header := shortBlock shortBlock2 3 4
def shortBlock4 : Header := shortBlock shortBlock3 4 1

/-- A QC for `shortBlock4` signed by three masternodes, with the gap number `0` of its epoch. -/
def shortQC4 : QuorumCert :=
  let info : BlockInfo := ⟨Crypto.tagged.headerHash shortBlock4, 4, 4⟩
  ⟨info, signaturesBy [1, 2, 3] (Crypto.tagged.voteSigHash ⟨info, 0⟩), 0⟩

/-- The switch block `5` at round `5`, sealed by its leader `1`, listing the masternodes in the
order `[2, 1, 3, 4]`. -/
def shortSwitch : Header :=
  { sealedV2Header (Crypto.tagged.headerHash shortBlock4) 5 50 5 shortQC4 1 with
    validators := [2, 1, 3, 4] }

/-- A QC for `shortSwitch`, with the gap number `3` of its epoch. -/
def shortQC5 : QuorumCert :=
  let info : BlockInfo := ⟨Crypto.tagged.headerHash shortSwitch, 5, 5⟩
  ⟨info, signaturesBy [1, 2, 3] (Crypto.tagged.voteSigHash ⟨info, 3⟩), 3⟩

/-- Block `6` at round `6` on the switch block, sealed by `1`. -/
def shortAfterSwitch : Header :=
  sealedV2Header (Crypto.tagged.headerHash shortSwitch) 6 60 6 shortQC5 1

/-- The short-epoch chain up to block `6`. -/
def shortChain : ChainReader :=
  ChainReader.ofHeaders Crypto.tagged
    [sampleGenesis, shortBlock1, shortBlock2, shortBlock3, shortBlock4, shortSwitch,
      shortAfterSwitch] shortAfterSwitch ⟨none, 0⟩

/-- The snapshot `UpdateM1` stored at the gap block `shortBlock3`: the four masternodes, no
penalties. -/
def shortGapSnapshot : SnapshotV2 :=
  newSnapshot 3 (Crypto.tagged.headerHash shortBlock3) sampleMasternodes []

/-- An engine of the short-epoch subnet over a database holding `snapshots`, after `initial` at
the genesis block. -/
def shortEngine (snapshots : List SnapshotV2) : XDPoSV2 :=
  ((initial Crypto.tagged shortChain sampleGenesis).run.run
    (XDPoSV2.new shortEpochConfig (snapshots.map fun snap => (snap.hash, snap)) 4)).2

/-! ### The leader schedule follows the switch block's order -/

/-- The node's state after `verifyHeader` runs on the switch block. -/
def shortSwitchVerified : Except Err Unit × XDPoSV2 :=
  (verifyHeader Crypto.tagged shortChain shortSwitch [shortBlock4] false 100).run.run
    (shortEngine [shortGapSnapshot])

/-- The node's state after `verifyHeader` then runs on the block after it. -/
def shortAfterSwitchVerified : Except Err Unit × XDPoSV2 :=
  (verifyHeader Crypto.tagged shortChain shortAfterSwitch [shortSwitch] false 100).run.run
    shortSwitchVerified.2

/-- **The proposer of a switch block orders the epoch's leaders**: `verifyHeader` accepts
`shortSwitch`, whose `Validators` are the snapshot's masternodes `L = [1, 2, 3, 4]` as
`[2, 1, 3, 4]`, and then accepts the non-switch block `shortAfterSwitch` on it, sealed by `1` at
round `6`, whose leader in the snapshot order is `L[6 % 5 % 4] = 2`.  `yourturn` at the switch
block also gives round `6` to `1`. -/
theorem leaderSchedule_set_by_switch_block_order :
    shortSwitchVerified.1 = .ok () ∧ shortAfterSwitchVerified.1 = .ok () ∧
      ((yourturn Crypto.tagged shortChain 6 shortSwitch 1).run.run
        shortAfterSwitchVerified.2).1 = .ok true ∧
      calcMasternodes Crypto.tagged (shortEngine [shortGapSnapshot]) shortChain shortSwitch.number
        shortSwitch.parentHash 5 = .ok (sampleMasternodes, []) ∧
      (isEpochSwitch shortEpochConfig shortSwitch).1 = true ∧
      (isEpochSwitch shortEpochConfig shortAfterSwitch).1 = false ∧
      shortAfterSwitch.parentHash = Crypto.tagged.headerHash shortSwitch ∧
      shortSwitch.validators.Perm sampleMasternodes ∧
      sampleMasternodes[6 % shortEpochConfig.epoch % sampleMasternodes.length]? = some 2 ∧
      shortAfterSwitch.coinbase = 1 := by
  refine ⟨rfl, rfl, rfl, rfl, rfl, rfl, rfl, by decide, rfl, rfl⟩

/-! ### The snapshot is found on the canonical chain -/

/-- A fork block numbered `3` on `shortBlock2`, sealed by `1`. -/
def shortForkBlock3 : Header := shortBlock shortBlock2 3 1

/-- The snapshot stored at the fork's gap block, naming other masternodes. -/
def shortForkSnapshot : SnapshotV2 :=
  newSnapshot 3 (Crypto.tagged.headerHash shortForkBlock3) [5, 6, 7, 8] []

/-- The same headers with the fork block, after a reorganisation to the fork: the canonical
block numbered `3` is `shortForkBlock3`. -/
def shortForkChain : ChainReader :=
  ChainReader.ofHeaders Crypto.tagged
    [sampleGenesis, shortBlock1, shortBlock2, shortBlock3, shortForkBlock3, shortBlock4, shortSwitch,
      shortAfterSwitch] shortForkBlock3 ⟨none, 0⟩

/-- One engine state holding both snapshots. -/
def shortBothSnapshots : XDPoSV2 := shortEngine [shortGapSnapshot, shortForkSnapshot]

/-- **Validity follows the canonical chain, not the header's ancestry**: two nodes store every
ancestor of `shortSwitch` and the snapshots of both blocks numbered `3`, and differ only in which
of them is canonical.  `verifyHeader` accepts `shortSwitch` on the first and rejects it on the
second, because `calcMasternodes` reads the snapshot of the canonical block `3`, which on the
second is not `shortSwitch`'s ancestor. -/
theorem verifyHeader_reads_canonical_snapshot :
    (∀ h ∈ [sampleGenesis, shortBlock1, shortBlock2, shortBlock3, shortBlock4],
      shortChain.getHeaderByHash (Crypto.tagged.headerHash h) = some h ∧
        shortForkChain.getHeaderByHash (Crypto.tagged.headerHash h) = some h) ∧
      shortSwitch.parentHash = Crypto.tagged.headerHash shortBlock4 ∧
      shortBlock4.parentHash = Crypto.tagged.headerHash shortBlock3 ∧
      shortChain.getHeaderByNumber 3 = some shortBlock3 ∧
      shortForkChain.getHeaderByNumber 3 = some shortForkBlock3 ∧
      ((verifyHeader Crypto.tagged shortChain shortSwitch [shortBlock4] false 100).run.run
        shortBothSnapshots).1 = .ok () ∧
      ((verifyHeader Crypto.tagged shortForkChain shortSwitch [shortBlock4] false 100).run.run
        shortBothSnapshots).1 = .error .validatorsNotLegit ∧
      calcMasternodes Crypto.tagged shortBothSnapshots shortChain 5 shortSwitch.parentHash 5 =
        .ok (sampleMasternodes, []) ∧
      calcMasternodes Crypto.tagged shortBothSnapshots shortForkChain 5 shortSwitch.parentHash 5 =
        .ok ([5, 6, 7, 8], []) := by
  refine ⟨by decide, rfl, rfl, rfl, rfl, rfl, rfl, rfl, rfl⟩

end XdcSubnet.EngineV2
