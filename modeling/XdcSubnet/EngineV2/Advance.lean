import XdcSubnet.EngineV2.Run

/-!
# What the engine never takes back

Four parts of an engine's state only move forward, whatever is called and whatever the calls
return:

* the lock QC: once set it stays set, and `processQC` replaces it only by a QC of a higher round;
* the highest TC: `processTC` replaces it only by one of a higher round;
* the highest commit block: `commitBlocks` replaces it only when the new block's round is above
  and its number not below the committed one's, so the blocks a node commits have strictly
  increasing rounds;
* once the engine is initialised, the round of the highest QC: `processQC` raises it only to a
  higher round, and `initial`, which resets it at the switch block, runs only before.

`Advances s₀ s` says all four of `s` against `s₀`.  Every function of the engine keeps it (one
specification each, the callees' cited at the caller's start state `s₀`), so it relates the start
and the end state of every run of engine calls (`advances_runAll`).  `Raised` is the order of an
optional value that a write may only raise.
-/

open Std.Do ExceptState

set_option mvcgen.warning false

namespace XdcSubnet.EngineV2

/-- `o` is `o₀` raised under `r`: when `o₀` holds a value, `o` holds one `r`-above it. -/
def Raised {α : Type} (r : α → α → Prop) (o₀ o : Option α) : Prop :=
  ∀ a ∈ o₀, ∃ b ∈ o, r a b

/-! ### Raising an optional value -/

section Raised
variable {α : Type} {r : α → α → Prop}

theorem Raised.refl [Std.Refl r] (o : Option α) : Raised r o o :=
  fun a ha => ⟨a, ha, Std.Refl.refl a⟩

theorem Raised.trans [IsTrans α r] {o₁ o₂ o₃ : Option α} (h₁ : Raised r o₁ o₂)
    (h₂ : Raised r o₂ o₃) : Raised r o₁ o₃ := by
  intro a ha
  obtain ⟨b, hb, hab⟩ := h₁ a ha
  obtain ⟨c, hc, hbc⟩ := h₂ b hb
  exact ⟨c, hc, IsTrans.trans a b c hab hbc⟩

/-- Setting a value above the current one raises it. -/
theorem Raised.some [IsTrans α r] {o₀ o : Option α} (h : Raised r o₀ o) {b : α}
    (hb : ∀ a ∈ o, r a b) : Raised r o₀ (some b) := by
  intro a ha
  obtain ⟨c, hc, hac⟩ := h a ha
  exact ⟨b, rfl, IsTrans.trans a c b hac (hb c hc)⟩

@[simp] theorem raised_none (o : Option α) : Raised r none o :=
  fun _ ha => absurd ha (Option.not_mem_none _)

@[simp] theorem raised_self [Std.Refl r] (o : Option α) : Raised r o o :=
  Raised.refl o

@[simp] theorem raised_some_iff {o : Option α} {b : α} :
    Raised r o (some b) ↔ ∀ a ∈ o, r a b := by
  refine ⟨fun h a ha => ?_, fun h a ha => ⟨b, rfl, h a ha⟩⟩
  obtain ⟨c, hc, hac⟩ := h a ha
  obtain rfl := Option.mem_some_iff.mp hc
  exact hac

end Raised

/-! ### The relation -/

/-- The order of commits: the same block, or one of a later round and no lower number. -/
def BlockInfo.CommitLe (b₀ b : BlockInfo) : Prop :=
  b = b₀ ∨ b₀.round < b.round ∧ b₀.number ≤ b.number

instance BlockInfo.instIsReflCommitLe : Std.Refl BlockInfo.CommitLe :=
  ⟨fun _ => .inl rfl⟩

instance BlockInfo.instIsTransCommitLe : IsTrans BlockInfo BlockInfo.CommitLe := by
  constructor
  rintro b₁ b₂ b₃ (rfl | ⟨hr₁, hn₁⟩) h₂
  · exact h₂
  rcases h₂ with rfl | ⟨hr₂, hn₂⟩
  · exact .inr ⟨hr₁, hn₁⟩
  · exact .inr ⟨UInt64.lt_trans hr₁ hr₂, hn₁.trans hn₂⟩

/-- The lock order: a QC of no lower round. -/
def QuorumCert.RoundLe (q₀ q : QuorumCert) : Prop :=
  q₀.proposedBlockInfo.round ≤ q.proposedBlockInfo.round

instance QuorumCert.instIsReflRoundLe : Std.Refl QuorumCert.RoundLe :=
  ⟨fun _ => UInt64.le_refl _⟩

instance QuorumCert.instIsTransRoundLe : IsTrans QuorumCert QuorumCert.RoundLe :=
  ⟨fun _ _ _ => UInt64.le_trans⟩

/-- `s` is `s₀` or later: the lock QC, the highest TC and the highest commit block are raised or
kept, and once the engine is initialised, so is the highest QC. -/
def Advances (s₀ s : XDPoSV2) : Prop :=
  (s₀.isInitilised = true → s.isInitilised = true ∧
      s₀.highestQuorumCert.proposedBlockInfo.round ≤ s.highestQuorumCert.proposedBlockInfo.round) ∧
    Raised QuorumCert.RoundLe s₀.lockQuorumCert s.lockQuorumCert ∧
    s₀.highestTimeoutCert.round ≤ s.highestTimeoutCert.round ∧
    Raised BlockInfo.CommitLe s₀.highestCommitBlock s.highestCommitBlock

theorem Advances.refl (s : XDPoSV2) : Advances s s :=
  ⟨fun h => ⟨h, UInt64.le_refl _⟩, Raised.refl _, UInt64.le_refl _, Raised.refl _⟩

theorem Advances.trans {s₁ s₂ s₃ : XDPoSV2} (h₁ : Advances s₁ s₂) (h₂ : Advances s₂ s₃) :
    Advances s₁ s₃ := by
  obtain ⟨hqc₁, hlock₁, htc₁, hcommit₁⟩ := h₁
  obtain ⟨hqc₂, hlock₂, htc₂, hcommit₂⟩ := h₂
  refine ⟨fun h => ?_, hlock₁.trans hlock₂, UInt64.le_trans htc₁ htc₂, hcommit₁.trans hcommit₂⟩
  obtain ⟨hinit₂, hr₁⟩ := hqc₁ h
  obtain ⟨hinit₃, hr₂⟩ := hqc₂ hinit₂
  exact ⟨hinit₃, UInt64.le_trans hr₁ hr₂⟩

theorem CacheOnly.advances {s₀ s : XDPoSV2} (h : CacheOnly s₀ s) : Advances s₀ s := by
  -- the relation does not read the cache
  show Advances s₀ s.withoutCache
  rw [h]
  exact Advances.refl s₀

theorem Keeps.advances_of_cacheOnly {α : Type} {m : EngineM α} (h : ∀ s₀, Keeps CacheOnly m s₀)
    (s₀ : XDPoSV2) : Keeps Advances m s₀ :=
  Keeps.weaken h CacheOnly.refl CacheOnly.advances Advances.trans s₀

/-! ### The writes that advance

One lemma for each write of a field the relation reads, under the test the source makes before
it, and one for the writes of the others. -/

namespace Advances

/-- Writes that keep the QCs, the TC and the committed block, and at most mark the engine
initialised. -/
theorem of_kept {s s' : XDPoSV2} (hinit : s.isInitilised = true → s'.isInitilised = true)
    (hqc : s'.highestQuorumCert = s.highestQuorumCert)
    (hlock : s'.lockQuorumCert = s.lockQuorumCert)
    (htc : s'.highestTimeoutCert = s.highestTimeoutCert)
    (hcommit : s'.highestCommitBlock = s.highestCommitBlock) : Advances s s' :=
  ⟨fun h => ⟨hinit h, hqc ▸ UInt64.le_refl _⟩, hlock ▸ Raised.refl _, htc ▸ UInt64.le_refl _,
    hcommit ▸ Raised.refl _⟩

/-- Before the engine is initialised the highest QC is free: writes that keep the lock, the TC
and the committed block. -/
theorem of_not_initialised {s s' : XDPoSV2} (h : s.isInitilised = false)
    (hlock : s'.lockQuorumCert = s.lockQuorumCert)
    (htc : s'.highestTimeoutCert = s.highestTimeoutCert)
    (hcommit : s'.highestCommitBlock = s.highestCommitBlock) : Advances s s' :=
  ⟨fun hi => absurd (h ▸ hi) Bool.false_ne_true, hlock ▸ Raised.refl _, htc ▸ UInt64.le_refl _,
    hcommit ▸ Raised.refl _⟩

/-- `processQC` raises the highest QC to one of a higher round. -/
theorem highestQC {s : XDPoSV2} {qc : QuorumCert}
    (h : qc.proposedBlockInfo.round > s.highestQuorumCert.proposedBlockInfo.round) :
    Advances s { s with highestQuorumCert := qc } :=
  ⟨fun hi => ⟨hi, UInt64.le_of_lt h⟩, Raised.refl _, UInt64.le_refl _, Raised.refl _⟩

/-- `processQC` locks a QC when there is no lock. -/
theorem lock_of_none {s : XDPoSV2} (h : s.lockQuorumCert = none) (qc : QuorumCert) :
    Advances s { s with lockQuorumCert := some qc } :=
  ⟨fun hi => ⟨hi, UInt64.le_refl _⟩, h ▸ raised_none _, UInt64.le_refl _, Raised.refl _⟩

/-- `processQC` moves the lock to a QC of a higher round. -/
theorem lock_of_lt {s : XDPoSV2} {q qc : QuorumCert} (h : s.lockQuorumCert = some q)
    (hlt : qc.proposedBlockInfo.round > q.proposedBlockInfo.round) :
    Advances s { s with lockQuorumCert := some qc } :=
  ⟨fun hi => ⟨hi, UInt64.le_refl _⟩, h ▸ raised_some_iff.2 fun _ hq =>
    Option.some_inj.1 hq ▸ UInt64.le_of_lt hlt, UInt64.le_refl _, Raised.refl _⟩

/-- `processTC` raises the highest TC to one of a higher round. -/
theorem highestTC {s : XDPoSV2} {tc : TimeoutCert} (h : tc.round > s.highestTimeoutCert.round) :
    Advances s { s with highestTimeoutCert := tc } :=
  ⟨fun hi => ⟨hi, UInt64.le_refl _⟩, Raised.refl _, UInt64.le_of_lt h, Raised.refl _⟩

/-- `commitBlocks` commits a block when nothing is committed. -/
theorem commit_of_none {s : XDPoSV2} (h : ∀ b₀, s.highestCommitBlock = some b₀ → False)
    (b : BlockInfo) : Advances s { s with highestCommitBlock := some b } :=
  ⟨fun hi => ⟨hi, UInt64.le_refl _⟩, Raised.refl _, UInt64.le_refl _,
    raised_some_iff.2 fun b₀ hb₀ => (h b₀ hb₀).elim⟩

/-- `commitBlocks` commits a block past the committed one: of a higher round, and no lower
number. -/
theorem commit_of_lt {s : XDPoSV2} {b₀ b : BlockInfo} (h : s.highestCommitBlock = some b₀)
    (hlt : ¬(b₀.round ≥ b.round ∨ b₀.number > b.number)) :
    Advances s { s with highestCommitBlock := some b } := by
  obtain ⟨hround, hnumber⟩ := not_or.1 hlt
  refine ⟨fun hi => ⟨hi, UInt64.le_refl _⟩, Raised.refl _, UInt64.le_refl _, ?_⟩
  rw [h, raised_some_iff]
  intro b' hb'
  obtain rfl := Option.mem_some_iff.1 hb'
  exact .inr ⟨UInt64.not_le.1 hround, Nat.not_lt.1 hnumber⟩

end Advances

/-! ### One specification per function

Each callee's specification is stated at an arbitrary start state `s₀` and cited at the caller's,
so that `mvcgen` chains them without a transitivity step; what is left is the caller's own
writes, each a step `Advances s s'` from the state it writes. -/

section
variable (cr : Crypto) (chain : ChainReader)

theorem getEpochSwitchInfo_advances (s₀ : XDPoSV2) (header : Option Header) (hash : Hash) :
    Keeps Advances (getEpochSwitchInfo cr chain header hash) s₀ :=
  Keeps.advances_of_cacheOnly (getEpochSwitchInfo_cacheOnly cr chain header hash) s₀

theorem getMasternodes_advances (s₀ : XDPoSV2) (header : Header) :
    Keeps Advances (getMasternodes cr chain header) s₀ :=
  Keeps.advances_of_cacheOnly (getMasternodes_cacheOnly cr chain header) s₀

theorem allowedToSend_advances (s₀ : XDPoSV2) (header : Header) (sendType : String) :
    Keeps Advances (allowedToSend cr chain header sendType) s₀ :=
  Keeps.advances_of_cacheOnly (allowedToSend_cacheOnly cr chain header sendType) s₀

theorem verifyQC_advances (s₀ : XDPoSV2) (quorumCert : QuorumCert)
    (parentHeader : Option Header) :
    Keeps Advances (verifyQC cr chain quorumCert parentHeader) s₀ :=
  Keeps.advances_of_cacheOnly (verifyQC_cacheOnly cr chain quorumCert parentHeader) s₀

theorem verifySyncInfoMessage_advances (s₀ : XDPoSV2) (syncInfo : SyncInfo) :
    Keeps Advances (verifySyncInfoMessage cr chain syncInfo) s₀ :=
  Keeps.advances_of_cacheOnly (verifySyncInfoMessage_cacheOnly cr chain syncInfo) s₀

theorem verifyVotingRule_advances (s₀ : XDPoSV2) (blockInfo : BlockInfo)
    (quorumCert : QuorumCert) :
    Keeps Advances (verifyVotingRule chain blockInfo quorumCert) s₀ :=
  Keeps.advances_of_cacheOnly (verifyVotingRule_cacheOnly chain blockInfo quorumCert) s₀

theorem commitBlocks_advances (s₀ : XDPoSV2) (header : Header) (round : Round) (qc : QuorumCert) :
    Keeps Advances (commitBlocks cr chain header round qc) s₀ := by
  mvcgen [commitBlocks, fromExcept]
  -- the one write: a block past the committed one, if any
  all_goals subst_vars
  all_goals refine ‹Advances s₀ _›.trans ?_
  all_goals first
    | exact Advances.commit_of_lt ‹_› ‹_›
    | exact Advances.commit_of_none ‹_› _

theorem processQC_advances (s₀ : XDPoSV2) (quorumCert : QuorumCert) :
    Keeps Advances (processQC cr chain quorumCert) s₀ := by
  have hcommit := commitBlocks_advances cr chain s₀
  mvcgen [processQC, fromExcept, hcommit, setNewRound]
  -- the highest QC, then the lock, each replaced only by a QC of a higher round
  all_goals refine ‹Advances s₀ _›.trans ?_
  all_goals first
    | exact Advances.highestQC ‹_›
    | exact Advances.lock_of_none ‹_› _
    | exact Advances.lock_of_lt ‹_› ‹_›
    | exact (Advances.highestQC ‹_›).trans (Advances.lock_of_none ‹_› _)
    | exact (Advances.highestQC ‹_›).trans (Advances.lock_of_lt ‹_› ‹_›)

theorem processTC_advances (s₀ : XDPoSV2) (timeoutCert : TimeoutCert) :
    Keeps Advances (processTC timeoutCert) s₀ := by
  mvcgen [processTC, setNewRound]
  -- the highest TC is replaced only by one of a higher round
  all_goals refine ‹Advances s₀ _›.trans ?_
  all_goals exact Advances.highestTC ‹_›

theorem voteHandler_advances (s₀ : XDPoSV2) (voteMsg : Vote) :
    Keeps Advances (voteHandler cr chain voteMsg) s₀ := by
  have hepoch := getEpochSwitchInfo_advances cr chain s₀
  have hmasternodes := getMasternodes_advances cr chain s₀
  have hqc := processQC_advances cr chain s₀
  mvcgen [voteHandler, fromExcept, verifyVotes, onVotePoolThresholdReached, hepoch,
    hmasternodes, hqc]

theorem timeoutHandler_advances (s₀ : XDPoSV2) (timeout : Timeout) :
    Keeps Advances (timeoutHandler cr chain timeout) s₀ := by
  have hepoch := getEpochSwitchInfo_advances cr chain s₀
  have htc := processTC_advances s₀
  mvcgen [timeoutHandler, onTimeoutPoolThresholdReached, broadcastToBftChannel, hepoch, htc]

theorem sendTimeout_advances (s₀ : XDPoSV2) : Keeps Advances (sendTimeout cr chain) s₀ := by
  have hepoch := getEpochSwitchInfo_advances cr chain s₀
  have htimeout := timeoutHandler_advances cr chain s₀
  mvcgen [sendTimeout, fromExcept, broadcastToBftChannel, hepoch, htimeout]

theorem onCountdownTimeout_advances (s₀ : XDPoSV2) :
    Keeps Advances (onCountdownTimeout cr chain) s₀ := by
  have hallow := allowedToSend_advances cr chain s₀
  have hsend := sendTimeout_advances cr chain s₀
  mvcgen [onCountdownTimeout, broadcastToBftChannel, hallow, hsend]

theorem syncInfoHandler_advances (s₀ : XDPoSV2) (syncInfo : SyncInfo) :
    Keeps Advances (syncInfoHandler cr chain syncInfo) s₀ := by
  have hqc := processQC_advances cr chain s₀
  have htc := processTC_advances s₀
  mvcgen [syncInfoHandler, hqc, htc]

theorem sendVote_advances (s₀ : XDPoSV2) (blockInfo : BlockInfo) :
    Keeps Advances (sendVote cr chain blockInfo) s₀ := by
  have hepoch := getEpochSwitchInfo_advances cr chain s₀
  have hvote := voteHandler_advances cr chain s₀
  mvcgen [sendVote, fromExcept, broadcastToBftChannel, hepoch, hvote]

theorem proposedBlockHandler_advances (s₀ : XDPoSV2) (header : Header) :
    Keeps Advances (proposedBlockHandler cr chain header) s₀ := by
  have hqc := processQC_advances cr chain s₀
  have hallow := allowedToSend_advances cr chain s₀
  have hrule := verifyVotingRule_advances chain s₀
  have hsend := sendVote_advances cr chain s₀
  mvcgen [proposedBlockHandler, fromExcept, hqc, hallow, hrule, hsend]

theorem initial_advances (s₀ : XDPoSV2) (header : Header) :
    ⦃fun s => ⌜Advances s₀ s ∧ s.isInitilised = false⌝⦄ initial cr chain header
    ⦃post⟨fun _ s => ⌜Advances s₀ s⌝, fun _ s => ⌜Advances s₀ s⌝⟩⦄ := by
  have hqc := processQC_advances cr chain s₀
  mvcgen [initial, fromExcept, hqc]
  -- the highest QC is reset only before the engine is initialised; after `processQC` only the
  -- snapshots and the flag are written
  all_goals first
    | obtain ⟨hadv, hfresh⟩ := ‹Advances s₀ _ ∧ _ = false›
      exact hadv.trans (.of_not_initialised hfresh rfl rfl rfl)
    | refine ‹Advances s₀ _›.trans ?_
      exact .of_kept (fun _ => rfl) rfl rfl rfl rfl

theorem verifyHeader_advances (s₀ : XDPoSV2) (header : Header) (parents : List Header)
    (fullVerify : Bool) (now : ℕ) :
    Keeps Advances (verifyHeader cr chain header parents fullVerify now) s₀ := by
  have hinitial := initial_advances cr chain s₀
  have hverify := verifyQC_advances cr chain s₀
  have hmasternodes := getMasternodes_advances cr chain s₀
  mvcgen [verifyHeader, fromExcept, hinitial, hverify, hmasternodes]
  -- `initial` runs only on an engine that is not initialised yet
  exact ⟨‹_›, by simpa using ‹(!_) = true›⟩

theorem updateMasternodes_advances (s₀ : XDPoSV2) (hookPenalty : Option HookPenalty)
    (header : Header) (ms : List Address) :
    Keeps Advances (updateMasternodes cr hookPenalty chain header ms) s₀ := by
  mvcgen [updateMasternodes, fromExcept]

theorem yourturn_advances (s₀ : XDPoSV2) (round : Round) (parent : Header) (signer : Address) :
    Keeps Advances (yourturn cr chain round parent signer) s₀ := by
  have hmasternodes := getMasternodes_advances cr chain s₀
  mvcgen [yourturn, fromExcept, hmasternodes]

theorem yourTurn_advances (s₀ : XDPoSV2) (parent : Header) (signer : Address) (now : ℕ) :
    Keeps Advances (yourTurn cr chain parent signer now) s₀ := by
  have hinitial := initial_advances cr chain s₀
  have hturn := yourturn_advances cr chain s₀
  mvcgen [yourTurn, hinitial, hturn]
  exact ⟨‹_›, by simpa using ‹(!_) = true›⟩

theorem prepare_advances (s₀ : XDPoSV2) (header : Header) (now : ℕ) :
    Keeps Advances (prepare cr chain header now) s₀ := by
  have hturn := yourturn_advances cr chain s₀
  mvcgen [prepare, fromExcept, hturn]

theorem sealBlock_advances (s₀ : XDPoSV2) (header : Header) :
    Keeps Advances (sealBlock cr header) s₀ := by
  mvcgen [sealBlock, fromExcept]

end

/-! ### Every call, every run -/

/-- A call whose result is dropped keeps what the call keeps. -/
theorem Keeps.discard {α : Type} {R : XDPoSV2 → XDPoSV2 → Prop} {m : EngineM α} {s₀ : XDPoSV2}
    (h : Keeps R m s₀) : Keeps R (do let _ ← m) s₀ := by
  mvcgen [h]

/-- **Step lemma**: every call into the engine keeps `Advances`, on both exits. -/
theorem runCall_advances (cr : Crypto) (s₀ : XDPoSV2) (c : EngineCall) :
    Keeps Advances (runCall cr c) s₀ := by
  cases c with
  | verifyHeader chain header parents fullVerify now =>
    exact verifyHeader_advances cr chain s₀ header parents fullVerify now
  | yourTurn chain parent signer now =>
    exact Keeps.discard (yourTurn_advances cr chain s₀ parent signer now)
  | prepare chain header now => exact Keeps.discard (prepare_advances cr chain s₀ header now)
  | sealBlock header => exact Keeps.discard (sealBlock_advances cr s₀ header)
  | updateMasternodes hookPenalty chain header ms =>
    exact updateMasternodes_advances cr chain s₀ hookPenalty header ms
  | proposedBlock chain header => exact proposedBlockHandler_advances cr chain s₀ header
  | vote chain v => exact voteHandler_advances cr chain s₀ v
  | timeout chain t => exact timeoutHandler_advances cr chain s₀ t
  | verifySyncInfo chain si =>
    exact Keeps.discard (verifySyncInfoMessage_advances cr chain s₀ si)
  | syncInfo chain si => exact syncInfoHandler_advances cr chain s₀ si
  | countdownTimeout chain => exact onCountdownTimeout_advances cr chain s₀

/-- **Run lemma**: over every run of engine calls, from any state and whatever the calls return,
the lock QC and the highest TC are never lowered, the highest commit block moves only to a block
of a higher round and no lower number, and once the engine is initialised the highest QC is never
lowered. -/
theorem advances_runAll (cr : Crypto) (s : XDPoSV2) (calls : List EngineCall) :
    Advances s (runAll (runCall cr) s calls) :=
  runAll_rel (fun c s => runCall_advances cr s c) Advances.refl Advances.trans s calls

end XdcSubnet.EngineV2
