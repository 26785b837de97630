import XdcSubnet.EngineV2.Frame

/-!
# Voting: what `ProposedBlockHandler` signs

The only writer of the vote record (`highestVotedRound` and the signed votes) is `sendVote`, and
its only caller is `ProposedBlockHandler`, after `processQC` of the block's certificate,
`allowedToSend` and `verifyVotingRule`.  This module specifies the three steps:

* `verifyVotingRule_spec`: a `true` answer means `VotingRuleHolds`: the round is past the highest
  voted round, the block is of the current round, and there is no lock, or the block's QC is newer
  than the lock, or the block extends the locked block through stored headers;
* `sendVote_spec`: `sendVote` either leaves the vote record alone or appends one vote for the
  block and sets the highest voted round to the current round;
* `proposedBlockHandler_spec`: a call either keeps the vote record or signs one vote, in a state
  where the voting rule held (`SignedUnderRule`).
-/

open Std.Do ExceptState

set_option mvcgen.warning false

namespace XdcSubnet.EngineV2

/-! ### The voting rule -/

/-- The rule `verifyVotingRule` checks in state `x`, for block `blockInfo` carried by a header with
certificate `quorumCert`. -/
def VotingRuleHolds (chain : ChainReader) (x : XDPoSV2) (blockInfo : BlockInfo)
    (quorumCert : QuorumCert) : Prop :=
  x.highestVotedRound < x.currentRound ∧ blockInfo.round = x.currentRound ∧
    ∀ lock, x.lockQuorumCert = some lock →
      lock.proposedBlockInfo.round < quorumCert.proposedBlockInfo.round ∨
        ParentLinks.AncestorOrSelf chain.getHeaderByHash Header.parentHash
          lock.proposedBlockInfo.hash blockInfo.hash

theorem verifyVotingRule_spec (chain : ChainReader) (blockInfo : BlockInfo)
    (quorumCert : QuorumCert) (s₀ : XDPoSV2) :
    ⦃fun s => ⌜s = s₀⌝⦄ verifyVotingRule chain blockInfo quorumCert
    ⦃post⟨fun r s => ⌜s = s₀ ∧ (r = true → VotingRuleHolds chain s₀ blockInfo quorumCert)⌝,
      fun _ s => ⌜s = s₀⌝⟩⦄ := by
  mvcgen [verifyVotingRule, fromExcept]
  all_goals subst_vars
  case vc1 | vc2 => exact ⟨rfl, by simp⟩
  case vc3 hvoted hround hlock =>
    exact ⟨rfl, UInt64.not_le.mp hvoted, not_not.mp hround, by simp [hlock]⟩
  case vc4 hvoted hround lock hlock hnewer =>
    refine ⟨rfl, UInt64.not_le.mp hvoted, not_not.mp hround, fun l hl => ?_⟩
    rw [hlock, Option.some_inj] at hl
    exact .inl (hl ▸ hnewer)
  case vc5 hvoted hround lock hlock _ result hext =>
    refine ⟨rfl, fun htrue => ⟨UInt64.not_le.mp hvoted, not_not.mp hround, fun l hl => ?_⟩⟩
    rw [hlock, Option.some_inj] at hl
    subst hl htrue
    -- the walk from the block reached the locked block's hash
    exact .inr (isExtendingFromAncestor_true hext)

/-! ### `sendVote` -/

/-- What `sendVote` for `blockInfo` does to the vote record: nothing, or one vote for the block,
with the highest voted round set to the current round. -/
def SendVoteEffect (blockInfo : BlockInfo) (s₀ s : XDPoSV2) : Prop :=
  VotesKept s₀ s ∨ ∃ v : Vote, v.proposedBlockInfo = blockInfo ∧
    s.highestVotedRound = s₀.currentRound ∧ s.signedVotes = s₀.signedVotes ++ [v]

theorem CacheOnly.votesKept {s₀ s : XDPoSV2} (h : CacheOnly s₀ s) : VotesKept s₀ s :=
  h.frame.votesKept

/-- After the epoch switch lookup, the vote is recorded and the rest of `sendVote` keeps the
record. -/
theorem sendVoteEffect_of_signed {s₀ s₁ s : XDPoSV2} {v : Vote} (h₁ : CacheOnly s₀ s₁)
    (h : Frame
      { s₁ with highestVotedRound := s₁.currentRound, signedVotes := s₁.signedVotes ++ [v] } s) :
    SendVoteEffect v.proposedBlockInfo s₀ s := by
  have hround : s₁.currentRound = s₀.currentRound :=
    h₁.congr (f := XDPoSV2.currentRound) fun _ => rfl
  have hvotes : s₁.signedVotes = s₀.signedVotes := h₁.frame.2.2.2.2
  exact .inr ⟨v, rfl, h.2.2.2.1.trans hround, h.2.2.2.2.trans (by rw [hvotes])⟩

theorem sendVote_spec (cr : Crypto) (chain : ChainReader) (blockInfo : BlockInfo)
    (s₀ : XDPoSV2) :
    ⦃fun s => ⌜s = s₀⌝⦄ sendVote cr chain blockInfo
    ⦃post⟨fun _ s => ⌜SendVoteEffect blockInfo s₀ s⌝,
      fun _ s => ⌜SendVoteEffect blockInfo s₀ s⌝⟩⦄ := by
  mvcgen [sendVote, fromExcept, broadcastToBftChannel, getEpochSwitchInfo_cacheOnly,
    voteHandler_frame]
  all_goals intros; subst_vars
  case vc3 | vc4 => exact sendVoteEffect_of_signed ‹_› ‹_›
  case vc5 | vc6 => exact .inl (CacheOnly.votesKept ‹_›)

/-! ### `ProposedBlockHandler` -/

/-- A vote signed by `ProposedBlockHandler(header)` from `s₀`, ending in `s`: the header carries
the certificate `q` and the round `round`; `processQC q` left `t`, `allowedToSend` left `y`, the
state `sendVote` signed in, where the voting rule held for the header's block; the vote `v` for
that block is appended and the highest voted round is the round of `y`. -/
def SignedUnderRule (cr : Crypto) (chain : ChainReader) (header : Header) (s₀ s : XDPoSV2) :
    Prop :=
  ∃ (q : QuorumCert) (round : Round) (masternodes : List Address) (t y : XDPoSV2) (v : Vote),
    getExtraFields s₀.config header = .ok (some q, round, masternodes) ∧
    (processQC cr chain q).run.run s₀ = (.ok (), t) ∧
    (allowedToSend cr chain header "vote").run.run t = (.ok true, y) ∧
    VotingRuleHolds chain y ⟨cr.headerHash header, round, header.number⟩ q ∧
    v.proposedBlockInfo = ⟨cr.headerHash header, round, header.number⟩ ∧
    s.highestVotedRound = y.currentRound ∧ s.signedVotes = y.signedVotes ++ [v]

theorem processQC_run (cr : Crypto) (chain : ChainReader) (q : QuorumCert) (s₀ : XDPoSV2) :
    ⦃fun s => ⌜s = s₀⌝⦄ processQC cr chain q
    ⦃post⟨fun a s => ⌜(processQC cr chain q).run.run s₀ = (.ok a, s)⌝,
      fun e s => ⌜(processQC cr chain q).run.run s₀ = (.error e, s)⌝⟩⦄ :=
  triple_run _ _

theorem allowedToSend_run (cr : Crypto) (chain : ChainReader) (header : Header)
    (sendType : String) (s₀ : XDPoSV2) :
    ⦃fun s => ⌜s = s₀⌝⦄ allowedToSend cr chain header sendType
    ⦃post⟨fun a s => ⌜(allowedToSend cr chain header sendType).run.run s₀ = (.ok a, s)⌝,
      fun e s => ⌜(allowedToSend cr chain header sendType).run.run s₀ = (.error e, s)⌝⟩⦄ :=
  triple_run _ _

theorem frame_of_run {α : Type} {m : EngineM α} (h : ∀ s₀, Keeps Frame m s₀) {s₀ s : XDPoSV2}
    {r : Except Err α} (hrun : m.run.run s₀ = (r, s)) : Frame s₀ s :=
  (h s₀).run_eq (Frame.refl s₀) hrun

/-- Up to the voting rule, `ProposedBlockHandler` keeps the vote record. -/
theorem votesKept_before_rule {cr : Crypto} {chain : ChainReader} {header : Header}
    {q : QuorumCert} {s₀ t y : XDPoSV2} {allow : Except Err Bool}
    (hqc : (processQC cr chain q).run.run s₀ = (.ok (), t))
    (hallow : (allowedToSend cr chain header "vote").run.run t = (allow, y)) :
    VotesKept s₀ y :=
  ((frame_of_run (processQC_frame cr chain q) hqc).trans
    (frame_of_run (allowedToSend_frame cr chain header "vote") hallow)).votesKept

/-- **`ProposedBlockHandler` votes only under the voting rule**: on both exits, the vote record
is unchanged, or one vote was signed in a state where the rule held. -/
theorem proposedBlockHandler_spec (cr : Crypto) (chain : ChainReader) (header : Header)
    (s₀ : XDPoSV2) :
    ⦃fun s => ⌜s = s₀⌝⦄ proposedBlockHandler cr chain header
    ⦃post⟨fun _ s => ⌜VotesKept s₀ s ∨ SignedUnderRule cr chain header s₀ s⌝,
      fun _ s => ⌜VotesKept s₀ s ∨ SignedUnderRule cr chain header s₀ s⌝⟩⦄ := by
  mvcgen [proposedBlockHandler, fromExcept, processQC_run, allowedToSend_run,
    verifyVotingRule_spec, sendVote_spec]
  all_goals intros
  -- no extra, or no certificate: nothing ran
  case vc8 | vc9 => subst_vars; exact .inl ⟨rfl, rfl⟩
  case vc7 s hs _ _ _ _ _ _ _ hqc =>
    subst hs
    exact .inl (frame_of_run (processQC_frame cr chain _) hqc).votesKept
  -- `allowedToSend` threw or said no, or the rule did not hold: no vote
  case vc6 s hs _ _ _ _ _ _ t hqc _ _ hallow =>
    subst hs
    exact .inl (votesKept_before_rule hqc hallow)
  case vc1 s hs _ _ _ _ _ _ t hqc _ _ y hallow =>
    subst hs
    exact .inl (votesKept_before_rule hqc hallow)
  case vc4 s hs _ _ _ _ _ _ t hqc _ _ y hallow _ _ _ hrule =>
    subst hs
    exact .inl (hrule.1 ▸ votesKept_before_rule hqc hallow)
  case vc5 s hs _ _ _ _ _ _ t hqc _ _ y hallow _ _ hstate =>
    subst hs
    exact .inl (hstate ▸ votesKept_before_rule hqc hallow)
  -- `sendVote` ran in the state `y` where the rule held
  case vc2 | vc3 =>
    rename_i s hs fields hextra _ q hq _ t hqc allow hallowed y hallow _ hverified _ hrule _ _
      heff
    subst hs
    obtain ⟨rfl, hholds⟩ := hrule
    obtain rfl : allow = true := by simpa using hallowed
    rcases heff with hkept | ⟨v, hv, hround, hvotes⟩
    · exact .inl ((votesKept_before_rule hqc hallow).trans hkept)
    · obtain ⟨qc, round, masternodes⟩ := fields
      cases hq
      exact .inr ⟨q, round, masternodes, t, _, v, hextra, hqc, hallow, hholds hverified, hv,
        hround, hvotes⟩

end XdcSubnet.EngineV2
