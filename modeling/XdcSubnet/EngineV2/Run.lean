import XdcSubnet.EngineV2.Voting

/-!
# The engine as a state machine, and the vote safety of one node

`EngineCall` lists the entry points through which the rest of the node drives the engine: the
consensus interface (`VerifyHeader`, `YourTurn`, `Prepare`, `Seal`, `UpdateMasternodes`), the BFT
handlers (`ProposedBlockHandler`, `VoteHandler`, `TimeoutHandler`, `VerifySyncInfoMessage`,
`SyncInfoHandler`) and the countdown timer (`OnCountdownTimeout`).  Each call reads the chain as it
is when the call is made.  A run is a sequence of calls, each from the state the last one left,
whatever it returned (`ExceptState.runAll`).  `VerifyVoteMessage` and `VerifyTimeoutMessage` read
the state and write nothing, so they are not calls here; a vote or timeout reaches its handler
whether or not it passed them.

The step lemma `exec_voteStep` says what one call does to the vote record: only
`ProposedBlockHandler` changes it, by one vote signed under the voting rule.  The run lemma
`voteLog_runAll` carries the invariant `VoteLog` (signed votes in strictly increasing rounds, none
above the highest voted round) through every run; `signedVotes_follow_voting_rule` assembles both.
-/

open Std.Do ExceptState

set_option mvcgen.warning false

namespace XdcSubnet.EngineV2

/-- A call into the engine, with the chain it reads. -/
inductive EngineCall where
  | verifyHeader (chain : ChainReader) (header : Header) (parents : List Header)
      (fullVerify : Bool) (now : ℕ)
  | yourTurn (chain : ChainReader) (parent : Header) (signer : Address) (now : ℕ)
  | prepare (chain : ChainReader) (header : Header) (now : ℕ)
  | sealBlock (header : Header)
  | updateMasternodes (hookPenalty : Option HookPenalty) (chain : ChainReader) (header : Header)
      (ms : List Address)
  | proposedBlock (chain : ChainReader) (header : Header)
  | vote (chain : ChainReader) (vote : Vote)
  | timeout (chain : ChainReader) (timeout : Timeout)
  | verifySyncInfo (chain : ChainReader) (syncInfo : SyncInfo)
  | syncInfo (chain : ChainReader) (syncInfo : SyncInfo)
  | countdownTimeout (chain : ChainReader)

/-- Run one call; what it returns is dropped, what it wrote stays. -/
def runCall (cr : Crypto) : EngineCall → EngineM Unit
  | .verifyHeader chain header parents fullVerify now =>
    verifyHeader cr chain header parents fullVerify now
  | .yourTurn chain parent signer now => do let _ ← yourTurn cr chain parent signer now
  | .prepare chain header now => do let _ ← prepare cr chain header now
  | .sealBlock header => do let _ ← sealBlock cr header
  | .updateMasternodes hookPenalty chain header ms =>
    updateMasternodes cr hookPenalty chain header ms
  | .proposedBlock chain header => proposedBlockHandler cr chain header
  | .vote chain v => voteHandler cr chain v
  | .timeout chain t => timeoutHandler cr chain t
  | .verifySyncInfo chain si => do let _ ← verifySyncInfoMessage cr chain si
  | .syncInfo chain si => syncInfoHandler cr chain si
  | .countdownTimeout chain => onCountdownTimeout cr chain

/-! ### One call -/

/-- What one call does to the vote record. -/
def VoteStep (cr : Crypto) : EngineCall → XDPoSV2 → XDPoSV2 → Prop
  | .proposedBlock chain header, s₀, s =>
    VotesKept s₀ s ∨ SignedUnderRule cr chain header s₀ s
  | _, s₀, s => VotesKept s₀ s

theorem VotesKept.refl (s : XDPoSV2) : VotesKept s s := ⟨rfl, rfl⟩

/-- A call that keeps the frame keeps the vote record over its run. -/
theorem votesKept_run {α : Type} {m : EngineM α} (h : ∀ s₀, Keeps Frame m s₀) (s₀ : XDPoSV2) :
    VotesKept s₀ (m.run.run s₀).2 :=
  (Keeps.votesKept_of_frame h s₀).run (VotesKept.refl s₀)

/-- A call whose result is dropped keeps what the call keeps. -/
theorem discard_frame {α : Type} {m : EngineM α} (h : ∀ s₀, Keeps Frame m s₀) (s₀ : XDPoSV2) :
    Keeps Frame (do let _ ← m) s₀ := by
  mvcgen [h]
  all_goals intros
  all_goals exact ‹Frame s₀ _›.trans ‹_›

/-- The calls that keep the frame: all but `verifyHeader`, which caches what it accepts, and
`ProposedBlockHandler`, which votes. -/
def EngineCall.KeepsFrame : EngineCall → Prop
  | .verifyHeader .. | .proposedBlock .. => False
  | _ => True

theorem runCall_frame (cr : Crypto) {c : EngineCall} (hc : c.KeepsFrame) (s₀ : XDPoSV2) :
    Keeps Frame (runCall cr c) s₀ := by
  cases c with
  | verifyHeader | proposedBlock => exact hc.elim
  | yourTurn chain parent signer now =>
    exact discard_frame (yourTurn_frame cr chain parent signer now) s₀
  | prepare chain header now => exact discard_frame (prepare_frame cr chain header now) s₀
  | sealBlock header => exact discard_frame (sealBlock_frame cr header) s₀
  | updateMasternodes hookPenalty chain header ms =>
    exact updateMasternodes_frame cr chain hookPenalty header ms s₀
  | vote chain v => exact voteHandler_frame cr chain v s₀
  | timeout chain t => exact timeoutHandler_frame cr chain t s₀
  | verifySyncInfo chain si => exact discard_frame (verifySyncInfoMessage_frame cr chain si) s₀
  | syncInfo chain si => exact syncInfoHandler_frame cr chain si s₀
  | countdownTimeout chain => exact onCountdownTimeout_frame cr chain s₀

/-- **Step lemma**: only `ProposedBlockHandler` changes the vote record, and only by a vote signed
under the voting rule. -/
theorem exec_voteStep (cr : Crypto) (c : EngineCall) (s₀ : XDPoSV2) :
    VoteStep cr c s₀ ((runCall cr c).run.run s₀).2 := by
  cases c with
  | verifyHeader chain header parents fullVerify now =>
    exact (verifyHeader_votesKept cr chain header parents fullVerify now s₀).run
      (VotesKept.refl s₀)
  | proposedBlock chain header =>
    exact end_of_triple (proposedBlockHandler_spec cr chain header s₀) rfl
  | _ => exact votesKept_run (runCall_frame cr (by trivial)) s₀

/-- A call either leaves the signed votes alone or is a `ProposedBlockHandler` call that signed
under the voting rule. -/
theorem signedVotes_step (cr : Crypto) (c : EngineCall) (s₀ : XDPoSV2) :
    ((runCall cr c).run.run s₀).2.signedVotes = s₀.signedVotes ∨
      ∃ chain header, c = .proposedBlock chain header ∧
        SignedUnderRule cr chain header s₀ ((runCall cr c).run.run s₀).2 := by
  have hstep := exec_voteStep cr c s₀
  cases c with
  | proposedBlock chain header =>
    rcases hstep with hkept | hsigned
    · exact .inl hkept.2
    · exact .inr ⟨chain, header, rfl, hsigned⟩
  | _ => exact .inl hstep.2

/-! ### Whole runs -/

/-- The vote record of a node: its signed votes have strictly increasing rounds, none above its
highest voted round. -/
def VoteLog (x : XDPoSV2) : Prop :=
  (x.signedVotes.map (·.proposedBlockInfo.round)).Pairwise (· < ·) ∧
    ∀ v ∈ x.signedVotes, v.proposedBlockInfo.round ≤ x.highestVotedRound

theorem VoteLog.of_votesKept {s₀ s : XDPoSV2} (hlog : VoteLog s₀) (h : VotesKept s₀ s) :
    VoteLog s := by
  obtain ⟨hvoted, hvotes⟩ := h
  rw [VoteLog, hvoted, hvotes]
  exact hlog

/-- A vote signed under the voting rule is for a round above every earlier vote, and becomes the
highest voted round. -/
theorem VoteLog.of_signed {cr : Crypto} {chain : ChainReader} {header : Header}
    {s₀ s : XDPoSV2} (hlog : VoteLog s₀) (h : SignedUnderRule cr chain header s₀ s) :
    VoteLog s := by
  obtain ⟨q, round, _, t, y, v, _, hqc, hallow, hrule, hv, hround, hvotes⟩ := h
  obtain ⟨hvoted, hvotes₀⟩ := votesKept_before_rule hqc hallow
  obtain ⟨hbelow, hcurrent, _⟩ := hrule
  have hvround : v.proposedBlockInfo.round = y.currentRound := by rw [hv]; exact hcurrent
  -- every earlier vote is at most the old highest voted round, below the current round
  have hearlier : ∀ w ∈ s₀.signedVotes, w.proposedBlockInfo.round < v.proposedBlockInfo.round :=
    fun w hw => hvround ▸ UInt64.lt_of_le_of_lt (hlog.2 w hw) (hvoted ▸ hbelow)
  refine ⟨?_, ?_⟩
  · rw [hvotes, hvotes₀, List.map_append, List.map_singleton, List.pairwise_append]
    refine ⟨hlog.1, List.pairwise_singleton _ _, ?_⟩
    simp only [List.mem_map, List.mem_singleton]
    rintro _ ⟨w, hw, rfl⟩ _ rfl
    exact hearlier w hw
  · intro w hw
    rw [hvotes, hvotes₀] at hw
    rw [hround, ← hvround]
    rcases List.mem_append.mp hw with hw | hw
    · exact UInt64.le_of_lt (hearlier w hw)
    · rw [List.mem_singleton.mp hw]
      exact UInt64.le_refl _

theorem VoteLog.step {cr : Crypto} {s₀ : XDPoSV2} (hlog : VoteLog s₀) (c : EngineCall) :
    VoteLog ((runCall cr c).run.run s₀).2 := by
  have hstep := exec_voteStep cr c s₀
  cases c with
  | proposedBlock chain header =>
    rcases hstep with hkept | hsigned
    · exact hlog.of_votesKept hkept
    · exact hlog.of_signed hsigned
  | _ => exact hlog.of_votesKept hstep

/-- **Run lemma**: the vote log holds after every run from a state where it holds. -/
theorem voteLog_runAll (cr : Crypto) {s₀ : XDPoSV2} (hlog : VoteLog s₀) (calls : List EngineCall) :
    VoteLog (runAll (runCall cr) s₀ calls) :=
  runAll_invariant (fun c _ _ hs => hs.step c) hlog

theorem voteLog_new (config : XDPoSConfig) (db : List (Hash × SnapshotV2)) (signer : Address) :
    VoteLog (XDPoSV2.new config db signer) :=
  ⟨List.Pairwise.nil, fun _ hv => absurd hv List.not_mem_nil⟩

/-- **Vote safety of one node.**  Over every run of engine calls from `New`, the votes the node
signs have strictly increasing rounds; and at every step of every run, a call either signs
nothing or is a `ProposedBlockHandler` call that signed one vote for the header's block, in a
state where the block's round was the current round, above the highest voted round, and the lock
was absent, older than the header's QC, or an ancestor of the block. -/
theorem signedVotes_follow_voting_rule (cr : Crypto) (config : XDPoSConfig)
    (db : List (Hash × SnapshotV2)) (signer : Address) (calls pre : List EngineCall)
    (c : EngineCall) :
    let s₀ : XDPoSV2 := XDPoSV2.new config db signer
    let before : XDPoSV2 := runAll (runCall cr) s₀ pre
    let after : XDPoSV2 := ((runCall cr c).run.run before).2
    ((runAll (runCall cr) s₀ calls).signedVotes.map
        (·.proposedBlockInfo.round)).Pairwise (· < ·) ∧
      (after.signedVotes = before.signedVotes ∨
        ∃ chain header, c = .proposedBlock chain header ∧
          SignedUnderRule cr chain header before after) :=
  ⟨(voteLog_runAll cr (voteLog_new config db signer) calls).1, signedVotes_step cr c _⟩

end XdcSubnet.EngineV2
