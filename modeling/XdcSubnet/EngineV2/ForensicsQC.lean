import XdcSubnet.EngineV2.VerifiedChain
import XdcSubnet.Lib.Loop

/-!
# Forensics: the ancestor QC below a round

`findAncestorQcThroughRound` orders two lists of `NUM_OF_FORENSICS_QC` QCs by the round of
their first QC, then walks the QC chain down from the higher list's first QC (each QC's block
carries the QC of its parent) while the round stays at least the lower list's last round.  Inside
the loop it returns the QC whose block's QC falls below that round; a walk that never starts
falls out of the loop with an error.

Over a store verified by `verifyHeader` (`VerifiedStore`), a QC that certifies a stored block
past round `0` leads to a QC of a lower round that certifies its parent (`Certifies.parent`), so
the walk is a loop of `Lib/Loop` whose pass lowers the round, and fuel above the first round is
enough (`findAncestorQcThroughRound_spec`).

A nil header is dereferenced in Go (`proposedBlock.Extra`) and panics; a list shorter than its
index panics too.  Both are runs without a result here.
-/

namespace XdcSubnet.EngineV2

open Loop

/-- `NUM_OF_FORENSICS_QC`. -/
def numOfForensicsQC : ℕ := 3

/-- The errors of `findAncestorQcThroughRound`. -/
inductive AncestorQcError
  /-- The decoder's error on the extra of a block on the walk, returned as it is. -/
  | decode (err : Err)
  /-- `"[findAncestorQcThroughRound] Could not find ancestor QC"`: the loop ended. -/
  | notFound
deriving DecidableEq, Repr

/-- One pass of the loop at `ancestorQC`: look its block up, decode the block's extra, and stop
at `ancestorQC` if the block's own QC is below `lowest`, else go on to that QC. -/
def ancestorQcPass (chain : ChainReader) (lowest : Round) (ancestorQC : QuorumCert) :
    Option (Pass Err QuorumCert) :=
  match chain.getHeaderByHash ancestorQC.proposedBlockInfo.hash with
  | none => none
  | some proposedBlock =>
    match decodeBytesExtraFields proposedBlock.extra with
    | .error err => some (.fail err ancestorQC)
    | .ok decodedExtraField =>
      if decodedExtraField.quorumCert.proposedBlockInfo.round < lowest then some (.exit ancestorQC)
      else some (.next decodedExtraField.quorumCert)

/-- The two lists ordered by the round of their first QC: `(lowerRoundQCs, higherRoundQCs)`. -/
def reorderByRound (highestCommittedQCs incomingQCandItsParents : List QuorumCert) :
    Option (List QuorumCert × List QuorumCert) := do
  let incoming ← incomingQCandItsParents[0]?
  let highest ← highestCommittedQCs[0]?
  pure <| if incoming.proposedBlockInfo.round < highest.proposedBlockInfo.round then
      (incomingQCandItsParents, highestCommittedQCs)
    else (highestCommittedQCs, incomingQCandItsParents)

/-- `Forensics.findAncestorQcThroughRound`, with `fuel` bounding its loop: the QC it stopped at,
the two ordered lists, and the error.  The loop left from inside exactly when its condition
still held of the QC it returned. -/
def Forensics.findAncestorQcThroughRound (chain : ChainReader) (fuel : ℕ)
    (highestCommittedQCs incomingQCandItsParents : List QuorumCert) :
    Option (QuorumCert × List QuorumCert × List QuorumCert × Option AncestorQcError) := do
  let ordered ← reorderByRound highestCommittedQCs incomingQCandItsParents
  let ancestorQC ← ordered.2[0]?
  let lowest ← ordered.1[numOfForensicsQC - 1]?
  let lowestRound := lowest.proposedBlockInfo.round
  match ← run (fun qc => decide (lowestRound ≤ qc.proposedBlockInfo.round))
      (ancestorQcPass chain lowestRound) fuel ancestorQC with
  | .ok qc => pure (qc, ordered.1, ordered.2,
      if lowestRound ≤ qc.proposedBlockInfo.round then none else some .notFound)
  | .error (err, qc) => pure (qc, ordered.1, ordered.2, some (.decode err))

/-! ### The QC chain of a verified store -/

/-- A header store verified by `verifyHeader`: every stored header past the switch block has its
stored parent as a certified parent, as a run that accepts them establishes
(`verifiedStore_of_run`). -/
def VerifiedStore (cr : Crypto) (config : XDPoSConfig) (chain : ChainReader) : Prop :=
  ∀ hash header, chain.getHeaderByHash hash = some header →
    config.v2.switchBlock < header.number →
      ∃ parent, chain.getHeaderByHash header.parentHash = some parent ∧
        CertifiedParent cr config parent header

/-- **A store of headers accepted in a run is verified**: take a run from a state with an empty
cache and validation on, whose calls pass linked parents among headers of distinct hashes; if it
accepts every stored header past the switch block with its stored parent, the store is
verified. -/
theorem verifiedStore_of_run {cr : Crypto} {chain : ChainReader} {s₀ : XDPoSV2}
    {calls : List EngineCall} (hempty : s₀.verifiedHeaders = [])
    (hskip : s₀.config.v2.skipV2Validation = false) (hlinked : ∀ c ∈ calls, c.Linked cr)
    (hcollision : CollisionFree cr calls)
    (haccepted : ∀ hash header, chain.getHeaderByHash hash = some header →
      s₀.config.v2.switchBlock < header.number →
        ∃ parent, chain.getHeaderByHash header.parentHash = some parent ∧
          AcceptedIn cr s₀ calls parent header) :
    VerifiedStore cr s₀.config chain := by
  intro hash header hget hafter
  obtain ⟨parent, hparent, hacc⟩ := haccepted hash header hget hafter
  exact ⟨parent, hparent, hacc.certifiedParent hempty hskip hlinked hcollision hafter⟩

/-- `qc` names a stored block and that block's round. -/
def Certifies (config : XDPoSConfig) (chain : ChainReader) (qc : QuorumCert) : Prop :=
  ∃ block, chain.getHeaderByHash qc.proposedBlockInfo.hash = some block ∧
    getRoundNumber config block = .ok qc.proposedBlockInfo.round

/-- `parent` is the QC in the extra of the block `qc` names. -/
def ParentQC (chain : ChainReader) (qc parent : QuorumCert) : Prop :=
  ∃ block fields, chain.getHeaderByHash qc.proposedBlockInfo.hash = some block ∧
    decodeBytesExtraFields block.extra = .ok fields ∧ fields.quorumCert = parent

variable {cr : Crypto} {config : XDPoSConfig} {chain : ChainReader}

/-- **One step down the QC chain**: in a verified store, the block a QC past round `0`
certifies decodes, and its own QC has a lower round and certifies the block's parent. -/
theorem Certifies.parent (hchain : VerifiedStore cr config chain) {qc : QuorumCert}
    (hqc : Certifies config chain qc) (hround : qc.proposedBlockInfo.round ≠ 0) :
    ∃ block fields, chain.getHeaderByHash qc.proposedBlockInfo.hash = some block ∧
      decodeBytesExtraFields block.extra = .ok fields ∧
      fields.quorumCert.proposedBlockInfo.round < qc.proposedBlockInfo.round ∧
      Certifies config chain fields.quorumCert := by
  obtain ⟨block, hget, hblockRound⟩ := hqc
  -- a block up to the switch block has round `0`
  have hafter : config.v2.switchBlock < block.number := by
    by_contra hle
    simp only [getRoundNumber, if_pos (Nat.le_of_not_lt hle), Except.ok.injEq] at hblockRound
    exact hround hblockRound.symm
  obtain ⟨parent, hparent, hlink, -, fields, hdec, hhash, -, hparentRound, hlt, -⟩ :=
    hchain _ block hget hafter
  have hfieldsRound : fields.round = qc.proposedBlockInfo.round := by
    rw [getRoundNumber_of_gt hafter, hdec] at hblockRound
    exact Except.ok.inj hblockRound
  refine ⟨block, fields, hget, hdec, hfieldsRound ▸ hlt, parent, ?_, hparentRound⟩
  rw [hhash, hlink]
  exact hparent

/-- What a pass does at a certifying QC at or above `lowest > 0`: it stops there, its block's QC
below `lowest`, or it goes on to that QC, which certifies a block and is lower. -/
theorem ancestorQcPass_of_certifies (hchain : VerifiedStore cr config chain) {lowest : Round}
    (hlowest : lowest ≠ 0) {qc : QuorumCert} (hqc : Certifies config chain qc)
    (hle : lowest ≤ qc.proposedBlockInfo.round) :
    ∃ block fields, chain.getHeaderByHash qc.proposedBlockInfo.hash = some block ∧
      decodeBytesExtraFields block.extra = .ok fields ∧
      (fields.quorumCert.proposedBlockInfo.round < lowest ∧
          ancestorQcPass chain lowest qc = some (.exit qc) ∨
        lowest ≤ fields.quorumCert.proposedBlockInfo.round ∧
          fields.quorumCert.proposedBlockInfo.round < qc.proposedBlockInfo.round ∧
          Certifies config chain fields.quorumCert ∧
          ancestorQcPass chain lowest qc = some (.next fields.quorumCert)) := by
  have hround : qc.proposedBlockInfo.round ≠ 0 := fun h => hlowest (UInt64.le_zero_iff.1 (h ▸ hle))
  obtain ⟨block, fields, hget, hdec, hlt, hparent⟩ := hqc.parent hchain hround
  refine ⟨block, fields, hget, hdec, ?_⟩
  by_cases hbelow : fields.quorumCert.proposedBlockInfo.round < lowest
  · exact .inl ⟨hbelow, by simp [ancestorQcPass, hget, hdec, hbelow]⟩
  · exact .inr ⟨UInt64.not_lt.1 hbelow, hlt, hparent, by simp [ancestorQcPass, hget, hdec, hbelow]⟩

/-- The walk from a certifying QC at or above `lowest > 0`, given fuel above its round, stops
at a QC reached from it, at or above `lowest`, whose block's QC is below `lowest`. -/
theorem ancestorQcWalk_spec (hchain : VerifiedStore cr config chain) {lowest : Round}
    (hlowest : lowest ≠ 0) {start : QuorumCert} (hstart : Certifies config chain start)
    (hle : lowest ≤ start.proposedBlockInfo.round) {fuel : ℕ}
    (hfuel : start.proposedBlockInfo.round.toNat < fuel) :
    ∃ qc, run (fun qc => decide (lowest ≤ qc.proposedBlockInfo.round))
        (ancestorQcPass chain lowest) fuel start = some (.ok qc) ∧
      Relation.ReflTransGen (ParentQC chain) start qc ∧ lowest ≤ qc.proposedBlockInfo.round ∧
      ∃ block fields, chain.getHeaderByHash qc.proposedBlockInfo.hash = some block ∧
        decodeBytesExtraFields block.extra = .ok fields ∧
        fields.quorumCert.proposedBlockInfo.round < lowest := by
  -- the walk keeps certifying QCs reached from `start` at or above `lowest`; rounds fall
  let I : QuorumCert → Prop := fun qc => Certifies config chain qc ∧
    lowest ≤ qc.proposedBlockInfo.round ∧ Relation.ReflTransGen (ParentQC chain) start qc
  let Q : QuorumCert → Prop := fun qc => Relation.ReflTransGen (ParentQC chain) start qc ∧
    lowest ≤ qc.proposedBlockInfo.round ∧
    ∃ block fields, chain.getHeaderByHash qc.proposedBlockInfo.hash = some block ∧
      decodeBytesExtraFields block.extra = .ok fields ∧
      fields.quorumCert.proposedBlockInfo.round < lowest
  have hdone : ∀ qc, I qc → decide (lowest ≤ qc.proposedBlockInfo.round) = false → Q qc := by
    intro qc hI hc
    simp [hI.2.1] at hc
  have hstep : ∀ qc, I qc → decide (lowest ≤ qc.proposedBlockInfo.round) = true →
      ∃ p, ancestorQcPass chain lowest qc = some p ∧
        p.Holds (fun qc' => I qc' ∧ qc'.proposedBlockInfo.round.toNat <
          qc.proposedBlockInfo.round.toNat) Q (fun _ _ => False) := by
    rintro qc ⟨hcert, hqle, hreach⟩ -
    obtain ⟨block, fields, hget, hdec, hpass⟩ := ancestorQcPass_of_certifies hchain hlowest hcert hqle
    rcases hpass with ⟨hbelow, hexit⟩ | ⟨hparentLe, hlt, hparent, hnext⟩
    · exact ⟨_, hexit, hreach, hqle, block, fields, hget, hdec, hbelow⟩
    · refine ⟨_, hnext, ⟨hparent, hparentLe, hreach.tail ⟨block, fields, hget, hdec, rfl⟩⟩, ?_⟩
      exact UInt64.lt_iff_toNat_lt.1 hlt
  obtain ⟨r, hrun, hends⟩ := run_total I Q (fun _ _ => False)
    (fun qc => qc.proposedBlockInfo.round.toNat) hdone hstep
    ⟨hstart, hle, Relation.ReflTransGen.refl⟩ hfuel
  rcases r with ⟨_, _⟩ | qc
  · exact hends.elim
  · exact ⟨qc, hrun, hends⟩

/-- The function around the walk: once the lists are ordered, with the higher list's first QC
certifying a block and the lower list's last round above `0`, fuel above the first round gives
a result, an error exactly when the walk does not start. -/
theorem findAncestorQcThroughRound_of_reorder (hchain : VerifiedStore cr config chain)
    {highestCommittedQCs incomingQCandItsParents lowerRoundQCs higherRoundQCs : List QuorumCert}
    {start last : QuorumCert}
    (hreorder : reorderByRound highestCommittedQCs incomingQCandItsParents =
      some (lowerRoundQCs, higherRoundQCs))
    (hstart : higherRoundQCs[0]? = some start) (hlast : lowerRoundQCs[numOfForensicsQC - 1]? = some last)
    (hcert : Certifies config chain start) (hlowest : last.proposedBlockInfo.round ≠ 0) {fuel : ℕ}
    (hfuel : start.proposedBlockInfo.round.toNat < fuel) :
    let lowest := last.proposedBlockInfo.round
    ∃ qc err, Forensics.findAncestorQcThroughRound chain fuel highestCommittedQCs
        incomingQCandItsParents = some (qc, lowerRoundQCs, higherRoundQCs, err) ∧
      (start.proposedBlockInfo.round < lowest → err = some .notFound) ∧
      (lowest ≤ start.proposedBlockInfo.round → err = none ∧
        Relation.ReflTransGen (ParentQC chain) start qc ∧ lowest ≤ qc.proposedBlockInfo.round ∧
        ∃ block fields, chain.getHeaderByHash qc.proposedBlockInfo.hash = some block ∧
          decodeBytesExtraFields block.extra = .ok fields ∧
          fields.quorumCert.proposedBlockInfo.round < lowest) := by
  intro lowest
  simp only [Forensics.findAncestorQcThroughRound, hreorder, hstart, hlast, Option.bind_eq_bind,
    Option.bind_some]
  by_cases hstarts : lowest ≤ start.proposedBlockInfo.round
  · -- the walk runs and stops inside the loop
    obtain ⟨qc, hrun, hreach, hle, hblock⟩ :=
      ancestorQcWalk_spec hchain hlowest hcert hstarts hfuel
    refine ⟨qc, none, ?_, fun hlt => absurd hstarts (UInt64.not_le.2 hlt), fun _ =>
      ⟨rfl, hreach, hle, hblock⟩⟩
    simp [hrun, hle]
  · -- the loop condition fails at once: the error after the loop
    obtain ⟨n, rfl⟩ : ∃ n, fuel = n + 1 := ⟨fuel - 1, by omega⟩
    have hrun : run (fun qc => decide (lowest ≤ qc.proposedBlockInfo.round))
        (ancestorQcPass chain lowest) (n + 1) start = some (.ok start) :=
      run_done n (by simpa using hstarts)
    refine ⟨start, some .notFound, ?_, fun _ => rfl, fun h => absurd h hstarts⟩
    simp [hrun, lowest, hstarts]

/-- **`findAncestorQcThroughRound` finds the QC whose block's QC falls below the lower list.**
Over a store verified by `verifyHeader`, take two lists of `NUM_OF_FORENSICS_QC` QCs in strictly
ascending round order whose first QCs certify stored blocks.  With fuel above the round of the
higher list's first QC the function returns.  If that round is below the lower list's last
round it returns the error after the loop; otherwise it returns without error a QC reached from
the higher list's first QC down the QC chain, at or above the lower list's last round, whose
block's QC is below it. -/
theorem findAncestorQcThroughRound_spec (hchain : VerifiedStore cr config chain)
    {h₀ h₁ h₂ i₀ i₁ i₂ : QuorumCert}
    (hh : h₀.proposedBlockInfo.round < h₁.proposedBlockInfo.round ∧
      h₁.proposedBlockInfo.round < h₂.proposedBlockInfo.round)
    (hi : i₀.proposedBlockInfo.round < i₁.proposedBlockInfo.round ∧
      i₁.proposedBlockInfo.round < i₂.proposedBlockInfo.round)
    (hh₀ : Certifies config chain h₀) (hi₀ : Certifies config chain i₀) :
    let swapped := i₀.proposedBlockInfo.round < h₀.proposedBlockInfo.round
    let lowerRoundQCs := if swapped then [i₀, i₁, i₂] else [h₀, h₁, h₂]
    let higherRoundQCs := if swapped then [h₀, h₁, h₂] else [i₀, i₁, i₂]
    let start := if swapped then h₀ else i₀
    let lowest := (if swapped then i₂ else h₂).proposedBlockInfo.round
    ∀ fuel, start.proposedBlockInfo.round.toNat < fuel →
      ∃ qc err, Forensics.findAncestorQcThroughRound chain fuel [h₀, h₁, h₂] [i₀, i₁, i₂] =
          some (qc, lowerRoundQCs, higherRoundQCs, err) ∧
        (start.proposedBlockInfo.round < lowest → err = some .notFound) ∧
        (lowest ≤ start.proposedBlockInfo.round → err = none ∧
          Relation.ReflTransGen (ParentQC chain) start qc ∧ lowest ≤ qc.proposedBlockInfo.round ∧
          ∃ block fields, chain.getHeaderByHash qc.proposedBlockInfo.hash = some block ∧
            decodeBytesExtraFields block.extra = .ok fields ∧
            fields.quorumCert.proposedBlockInfo.round < lowest) := by
  intro swapped lowerRoundQCs higherRoundQCs start lowest fuel hfuel
  -- the last of three ascending rounds is above `0`
  have hpos : ∀ {a b c : QuorumCert}, a.proposedBlockInfo.round < b.proposedBlockInfo.round ∧
      b.proposedBlockInfo.round < c.proposedBlockInfo.round → c.proposedBlockInfo.round ≠ 0 := by
    intro a b c habc hc
    have hlt := UInt64.lt_trans habc.1 habc.2
    simp [hc] at hlt
  by_cases hswap : i₀.proposedBlockInfo.round < h₀.proposedBlockInfo.round
  · simp only [lowerRoundQCs, higherRoundQCs, start, lowest, swapped, if_pos hswap] at hfuel ⊢
    exact findAncestorQcThroughRound_of_reorder hchain (by simp [reorderByRound, hswap]) rfl rfl
      hh₀ (hpos hi) hfuel
  · simp only [lowerRoundQCs, higherRoundQCs, start, lowest, swapped, if_neg hswap] at hfuel ⊢
    exact findAncestorQcThroughRound_of_reorder hchain (by simp [reorderByRound, hswap]) rfl rfl
      hi₀ (hpos hh) hfuel

/-- A QC for `sampleBlock3`, and QCs of later rounds whose blocks are not looked at. -/
def sampleQC3 : QuorumCert :=
  ⟨⟨Crypto.tagged.headerHash sampleBlock3, 3, 3⟩,
    signaturesBy [1, 3, 4] (Crypto.tagged.voteSigHash ⟨⟨Crypto.tagged.headerHash sampleBlock3, 3, 3⟩, 0⟩),
    0⟩

def sampleRoundQC (round : Round) : QuorumCert := ⟨⟨0, round, 0⟩, [], 0⟩

/-- The store of `sampleRun` is verified: each of its blocks past the switch block was accepted
with its stored parent. -/
theorem verifiedStore_sampleStore : VerifiedStore Crypto.tagged sampleEngine.config sampleStore := by
  obtain ⟨h01, h12, h23⟩ := sampleRun_accepts
  refine verifiedStore_of_run rfl rfl sampleRun_linked sampleRun_collisionFree
    fun hash header hget hafter => ?_
  have hmem : header ∈ [sampleGenesis, sampleGapBlock1, sampleBlock2, sampleBlock3] := by
    simp only [sampleStore, ChainReader.ofHeaders] at hget
    exact List.mem_of_find?_eq_some hget
  simp only [List.mem_cons, List.not_mem_nil, or_false] at hmem
  rcases hmem with rfl | rfl | rfl | rfl
  · exact absurd hafter (by decide)
  · exact ⟨sampleGenesis, rfl, h01⟩
  · exact ⟨sampleGapBlock1, rfl, h12⟩
  · exact ⟨sampleBlock2, rfl, h23⟩

/-- Over the store of `sampleRun`, with the committed QCs of rounds `0`, `1`, `2` and the
incoming QCs from round `3`: the walk starts at `sampleQC3`, steps to `sampleQC2`, whose block's
QC is of round `1`, below `2`, and returns it. -/
theorem findAncestorQcThroughRound_spec_sampleStore :
    let highest := [sampleQC0, sampleQC1, sampleQC2]
    let incoming := [sampleQC3, sampleRoundQC 4, sampleRoundQC 5]
    VerifiedStore Crypto.tagged sampleEngine.config sampleStore ∧
      Certifies sampleEngine.config sampleStore sampleQC0 ∧
      Certifies sampleEngine.config sampleStore sampleQC3 ∧
      (∀ fuel, sampleQC3.proposedBlockInfo.round.toNat < fuel →
        ∃ qc err, Forensics.findAncestorQcThroughRound sampleStore fuel highest incoming =
            some (qc, highest, incoming, err) ∧
          (sampleQC3.proposedBlockInfo.round < 2 → err = some .notFound) ∧
          (2 ≤ sampleQC3.proposedBlockInfo.round → err = none ∧
            Relation.ReflTransGen (ParentQC sampleStore) sampleQC3 qc ∧
            2 ≤ qc.proposedBlockInfo.round ∧
            ∃ block fields, sampleStore.getHeaderByHash qc.proposedBlockInfo.hash = some block ∧
              decodeBytesExtraFields block.extra = .ok fields ∧
              fields.quorumCert.proposedBlockInfo.round < 2)) ∧
      Forensics.findAncestorQcThroughRound sampleStore 4 highest incoming =
        some (sampleQC2, highest, incoming, none) := by
  intro highest incoming
  have hcert₀ : Certifies sampleEngine.config sampleStore sampleQC0 :=
    ⟨sampleGenesis, by decide +kernel, rfl⟩
  have hcert₃ : Certifies sampleEngine.config sampleStore sampleQC3 :=
    ⟨sampleBlock3, by decide +kernel, rfl⟩
  have hh : sampleQC0.proposedBlockInfo.round < sampleQC1.proposedBlockInfo.round ∧
      sampleQC1.proposedBlockInfo.round < sampleQC2.proposedBlockInfo.round := by decide
  have hi : sampleQC3.proposedBlockInfo.round < (sampleRoundQC 4).proposedBlockInfo.round ∧
      (sampleRoundQC 4).proposedBlockInfo.round < (sampleRoundQC 5).proposedBlockInfo.round := by
    decide
  exact ⟨verifiedStore_sampleStore, hcert₀, hcert₃,
    findAncestorQcThroughRound_spec verifiedStore_sampleStore hh hi hcert₀ hcert₃, by decide +kernel⟩

end XdcSubnet.EngineV2
