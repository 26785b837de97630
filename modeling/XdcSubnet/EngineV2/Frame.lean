import Mathlib
import XdcSubnet.EngineV2.Header
import XdcSubnet.Lib.ExceptState

/-!
# Frame specifications: what each engine function may write

Every function of the engine gets a `Std.Do` specification saying which part of the state it
leaves alone, on both exits; a caller's specification cites its callees' and never unfolds them.
Each proof first specialises its callees' specifications to its own start state `s₀` (the
`have`s), so that every state `mvcgen` meets is related to `s₀` and only the function's own
writes are left, which touch no field of the relation.

* `CacheOnly`: only the epoch switch cache may change.  The lookups (`getEpochSwitchInfo` and the
  masternode getters), the certificate checks (`verifyQC`, `verifyTC`, `VerifySyncInfoMessage`),
  `allowedToSend` and `verifyVotingRule` write nothing else.
* `Frame`: the configuration, the signer, the verified header cache, the highest voted round and
  the signed votes do not change.  Every function keeps it except `sendVote` (and
  `ProposedBlockHandler`, which calls it), which records a vote, and `verifyHeader`, which caches
  the headers it accepts; `verifyHeader` keeps `VotesKept`, the last two fields.
* `HeadersKept`: the configuration and the verified header cache.  `ProposedBlockHandler` keeps
  them too, and `verifyHeader` adds at most the hash of the header it accepts, and only when the
  cache did not hold it (`CachesHeader`, `verifyHeader_cache`).
-/

open Std.Do ExceptState

set_option mvcgen.warning false

namespace XdcSubnet.EngineV2

/-! ### The relations -/

/-- The engine state with its epoch switch cache emptied. -/
def XDPoSV2.withoutCache (x : XDPoSV2) : XDPoSV2 := { x with epochSwitches := [] }

@[simp] theorem XDPoSV2.withoutCache_setCache (x : XDPoSV2) (c : List (Hash × EpochSwitchInfo)) :
    XDPoSV2.withoutCache { x with epochSwitches := c } = x.withoutCache := rfl

/-- Only the epoch switch cache differs. -/
def CacheOnly (s₀ s : XDPoSV2) : Prop := s.withoutCache = s₀.withoutCache

theorem CacheOnly.refl (s : XDPoSV2) : CacheOnly s s := rfl

theorem CacheOnly.trans {s₁ s₂ s₃ : XDPoSV2} (h₁ : CacheOnly s₁ s₂) (h₂ : CacheOnly s₂ s₃) :
    CacheOnly s₁ s₃ :=
  Eq.trans h₂ h₁

/-- A reading of the state that does not look at the cache is the same after a cache write. -/
theorem CacheOnly.congr {β : Type} {f : XDPoSV2 → β} (hf : ∀ x, f x.withoutCache = f x)
    {s₀ s : XDPoSV2} (h : CacheOnly s₀ s) : f s = f s₀ := by
  rw [← hf s, h, hf]

/-- The fields that only `sendVote` and `verifyHeader` write, and those nothing writes. -/
def Frame (s₀ s : XDPoSV2) : Prop :=
  s.config = s₀.config ∧ s.signer = s₀.signer ∧ s.verifiedHeaders = s₀.verifiedHeaders ∧
    s.highestVotedRound = s₀.highestVotedRound ∧ s.signedVotes = s₀.signedVotes

theorem Frame.refl (s : XDPoSV2) : Frame s s := ⟨rfl, rfl, rfl, rfl, rfl⟩

theorem Frame.trans {s₁ s₂ s₃ : XDPoSV2} (h₁ : Frame s₁ s₂) (h₂ : Frame s₂ s₃) : Frame s₁ s₃ :=
  ⟨h₂.1.trans h₁.1, h₂.2.1.trans h₁.2.1, h₂.2.2.1.trans h₁.2.2.1, h₂.2.2.2.1.trans h₁.2.2.2.1,
    h₂.2.2.2.2.trans h₁.2.2.2.2⟩

theorem CacheOnly.frame {s₀ s : XDPoSV2} (h : CacheOnly s₀ s) : Frame s₀ s :=
  ⟨h.congr (f := XDPoSV2.config) fun _ => rfl, h.congr (f := XDPoSV2.signer) fun _ => rfl,
    h.congr (f := XDPoSV2.verifiedHeaders) fun _ => rfl,
    h.congr (f := XDPoSV2.highestVotedRound) fun _ => rfl,
    h.congr (f := XDPoSV2.signedVotes) fun _ => rfl⟩

/-- The vote record: the highest voted round and the signed votes. -/
def VotesKept (s₀ s : XDPoSV2) : Prop :=
  s.highestVotedRound = s₀.highestVotedRound ∧ s.signedVotes = s₀.signedVotes

theorem Frame.votesKept {s₀ s : XDPoSV2} (h : Frame s₀ s) : VotesKept s₀ s :=
  ⟨h.2.2.2.1, h.2.2.2.2⟩

theorem VotesKept.trans {s₁ s₂ s₃ : XDPoSV2} (h₁ : VotesKept s₁ s₂) (h₂ : VotesKept s₂ s₃) :
    VotesKept s₁ s₃ :=
  ⟨h₂.1.trans h₁.1, h₂.2.trans h₁.2⟩

/-- A cache-only function keeps the frame. -/
theorem Keeps.frame_of_cacheOnly {α : Type} {m : EngineM α} (h : ∀ s₀, Keeps CacheOnly m s₀)
    (s₀ : XDPoSV2) : Keeps Frame m s₀ :=
  Keeps.weaken h CacheOnly.refl CacheOnly.frame Frame.trans s₀

/-- A function that keeps the frame keeps the vote record. -/
theorem Keeps.votesKept_of_frame {α : Type} {m : EngineM α} (h : ∀ s₀, Keeps Frame m s₀)
    (s₀ : XDPoSV2) : Keeps VotesKept m s₀ :=
  Keeps.weaken h Frame.refl Frame.votesKept VotesKept.trans s₀

/-! ### Lookups and checks: cache only -/

section
variable (cr : Crypto) (chain : ChainReader)

theorem epochSwitchWalk_cacheOnly (fuel : ℕ) (header : Option Header) (hash : Hash)
    (s₀ : XDPoSV2) :
    Keeps CacheOnly (epochSwitchWalk cr chain fuel header hash) s₀ := by
  -- the walk's recursive call is specified from the same `s₀`
  induction fuel generalizing header hash with
  | zero => mvcgen [epochSwitchWalk]
  | succ fuel ih => mvcgen [epochSwitchWalk, fromExcept, ih]

theorem getEpochSwitchInfo_cacheOnly (header : Option Header) (hash : Hash) (s₀ : XDPoSV2) :
    Keeps CacheOnly (getEpochSwitchInfo cr chain header hash) s₀ :=
  epochSwitchWalk_cacheOnly cr chain _ header hash s₀

theorem getMasternodes_cacheOnly (header : Header) (s₀ : XDPoSV2) :
    Keeps CacheOnly (getMasternodes cr chain header) s₀ := by
  have hinfo := fun header hash => getEpochSwitchInfo_cacheOnly cr chain header hash s₀
  mvcgen [getMasternodes, hinfo]

theorem allowedToSend_cacheOnly (header : Header) (sendType : String) (s₀ : XDPoSV2) :
    Keeps CacheOnly (allowedToSend cr chain header sendType) s₀ := by
  have hms := fun header => getMasternodes_cacheOnly cr chain header s₀
  mvcgen [allowedToSend, hms]

theorem verifyQC_cacheOnly (quorumCert : QuorumCert) (parentHeader : Option Header)
    (s₀ : XDPoSV2) :
    Keeps CacheOnly (verifyQC cr chain quorumCert parentHeader) s₀ := by
  have hinfo := fun header hash => getEpochSwitchInfo_cacheOnly cr chain header hash s₀
  mvcgen [verifyQC, fromExcept, hinfo]

theorem verifyTC_cacheOnly (timeoutCert : TimeoutCert) (s₀ : XDPoSV2) :
    Keeps CacheOnly (verifyTC cr chain timeoutCert) s₀ := by
  have hinfo := fun header hash => getEpochSwitchInfo_cacheOnly cr chain header hash s₀
  mvcgen [verifyTC, fromExcept, hinfo]

theorem verifySyncInfoMessage_cacheOnly (syncInfo : SyncInfo) (s₀ : XDPoSV2) :
    Keeps CacheOnly (verifySyncInfoMessage cr chain syncInfo) s₀ := by
  have hqc := fun quorumCert parentHeader => verifyQC_cacheOnly cr chain quorumCert parentHeader s₀
  have htc := fun timeoutCert => verifyTC_cacheOnly cr chain timeoutCert s₀
  mvcgen [verifySyncInfoMessage, hqc, htc]

theorem verifyVotingRule_cacheOnly (blockInfo : BlockInfo) (quorumCert : QuorumCert)
    (s₀ : XDPoSV2) :
    Keeps CacheOnly (verifyVotingRule chain blockInfo quorumCert) s₀ := by
  mvcgen [verifyVotingRule, fromExcept]

end

/-! ### Handlers: the frame -/

section
variable (cr : Crypto) (chain : ChainReader)

theorem getEpochSwitchInfo_frame (header : Option Header) (hash : Hash) (s₀ : XDPoSV2) :
    Keeps Frame (getEpochSwitchInfo cr chain header hash) s₀ :=
  Keeps.frame_of_cacheOnly (getEpochSwitchInfo_cacheOnly cr chain header hash) s₀

theorem getMasternodes_frame (header : Header) (s₀ : XDPoSV2) :
    Keeps Frame (getMasternodes cr chain header) s₀ :=
  Keeps.frame_of_cacheOnly (getMasternodes_cacheOnly cr chain header) s₀

theorem allowedToSend_frame (header : Header) (sendType : String) (s₀ : XDPoSV2) :
    Keeps Frame (allowedToSend cr chain header sendType) s₀ :=
  Keeps.frame_of_cacheOnly (allowedToSend_cacheOnly cr chain header sendType) s₀

theorem verifyQC_frame (quorumCert : QuorumCert) (parentHeader : Option Header) (s₀ : XDPoSV2) :
    Keeps Frame (verifyQC cr chain quorumCert parentHeader) s₀ :=
  Keeps.frame_of_cacheOnly (verifyQC_cacheOnly cr chain quorumCert parentHeader) s₀

theorem verifySyncInfoMessage_frame (syncInfo : SyncInfo) (s₀ : XDPoSV2) :
    Keeps Frame (verifySyncInfoMessage cr chain syncInfo) s₀ :=
  Keeps.frame_of_cacheOnly (verifySyncInfoMessage_cacheOnly cr chain syncInfo) s₀

theorem processQC_frame (quorumCert : QuorumCert) (s₀ : XDPoSV2) :
    Keeps Frame (processQC cr chain quorumCert) s₀ := by
  mvcgen [processQC, fromExcept, commitBlocks, setNewRound]

theorem processTC_frame (timeoutCert : TimeoutCert) (s₀ : XDPoSV2) :
    Keeps Frame (processTC timeoutCert) s₀ := by
  mvcgen [processTC, setNewRound]

theorem voteHandler_frame (voteMsg : Vote) (s₀ : XDPoSV2) :
    Keeps Frame (voteHandler cr chain voteMsg) s₀ := by
  have hinfo := fun header hash => getEpochSwitchInfo_frame cr chain header hash s₀
  have hms := fun header => getMasternodes_frame cr chain header s₀
  have hqc := fun quorumCert => processQC_frame cr chain quorumCert s₀
  mvcgen [voteHandler, fromExcept, verifyVotes, onVotePoolThresholdReached, hinfo, hms, hqc]

theorem timeoutHandler_frame (timeout : Timeout) (s₀ : XDPoSV2) :
    Keeps Frame (timeoutHandler cr chain timeout) s₀ := by
  have hinfo := fun header hash => getEpochSwitchInfo_frame cr chain header hash s₀
  have htc := fun timeoutCert => processTC_frame timeoutCert s₀
  mvcgen [timeoutHandler, onTimeoutPoolThresholdReached, broadcastToBftChannel, hinfo, htc]

theorem sendTimeout_frame (s₀ : XDPoSV2) : Keeps Frame (sendTimeout cr chain) s₀ := by
  have hinfo := fun header hash => getEpochSwitchInfo_frame cr chain header hash s₀
  have htimeout := fun timeout => timeoutHandler_frame cr chain timeout s₀
  mvcgen [sendTimeout, fromExcept, broadcastToBftChannel, hinfo, htimeout]

theorem onCountdownTimeout_frame (s₀ : XDPoSV2) :
    Keeps Frame (onCountdownTimeout cr chain) s₀ := by
  have hallow := fun header sendType => allowedToSend_frame cr chain header sendType s₀
  have hsend := sendTimeout_frame cr chain s₀
  mvcgen [onCountdownTimeout, broadcastToBftChannel, hallow, hsend]

theorem syncInfoHandler_frame (syncInfo : SyncInfo) (s₀ : XDPoSV2) :
    Keeps Frame (syncInfoHandler cr chain syncInfo) s₀ := by
  have hqc := fun quorumCert => processQC_frame cr chain quorumCert s₀
  have htc := fun timeoutCert => processTC_frame timeoutCert s₀
  mvcgen [syncInfoHandler, hqc, htc]

theorem initial_frame (header : Header) (s₀ : XDPoSV2) :
    Keeps Frame (initial cr chain header) s₀ := by
  have hqc := fun quorumCert => processQC_frame cr chain quorumCert s₀
  mvcgen [initial, fromExcept, hqc]

theorem updateMasternodes_frame (hookPenalty : Option HookPenalty) (header : Header)
    (ms : List Address) (s₀ : XDPoSV2) :
    Keeps Frame (updateMasternodes cr hookPenalty chain header ms) s₀ := by
  mvcgen [updateMasternodes, fromExcept]

theorem yourturn_frame (round : Round) (parent : Header) (signer : Address) (s₀ : XDPoSV2) :
    Keeps Frame (yourturn cr chain round parent signer) s₀ := by
  have hms := fun header => getMasternodes_frame cr chain header s₀
  mvcgen [yourturn, fromExcept, hms]

theorem yourTurn_frame (parent : Header) (signer : Address) (now : ℕ) (s₀ : XDPoSV2) :
    Keeps Frame (yourTurn cr chain parent signer now) s₀ := by
  have hinit := fun header => initial_frame cr chain header s₀
  have hturn := fun round parent signer => yourturn_frame cr chain round parent signer s₀
  mvcgen [yourTurn, hinit, hturn]

theorem prepare_frame (header : Header) (now : ℕ) (s₀ : XDPoSV2) :
    Keeps Frame (prepare cr chain header now) s₀ := by
  have hturn := fun round parent signer => yourturn_frame cr chain round parent signer s₀
  mvcgen [prepare, fromExcept, hturn]

theorem sealBlock_frame (header : Header) (s₀ : XDPoSV2) :
    Keeps Frame (sealBlock cr header) s₀ := by
  mvcgen [sealBlock, fromExcept]

end

/-! ### `verifyHeader`: the vote record -/

section
variable (cr : Crypto) (chain : ChainReader)

theorem initial_votesKept (header : Header) (s₀ : XDPoSV2) :
    Keeps VotesKept (initial cr chain header) s₀ :=
  Keeps.votesKept_of_frame (initial_frame cr chain header) s₀

theorem verifyQC_votesKept (quorumCert : QuorumCert) (parentHeader : Option Header)
    (s₀ : XDPoSV2) : Keeps VotesKept (verifyQC cr chain quorumCert parentHeader) s₀ :=
  Keeps.votesKept_of_frame (verifyQC_frame cr chain quorumCert parentHeader) s₀

theorem getMasternodes_votesKept (header : Header) (s₀ : XDPoSV2) :
    Keeps VotesKept (getMasternodes cr chain header) s₀ :=
  Keeps.votesKept_of_frame (getMasternodes_frame cr chain header) s₀

theorem verifyHeader_votesKept (header : Header) (parents : List Header) (fullVerify : Bool)
    (now : ℕ) (s₀ : XDPoSV2) :
    Keeps VotesKept (verifyHeader cr chain header parents fullVerify now) s₀ := by
  mvcgen [verifyHeader, fromExcept, initial_votesKept, verifyQC_votesKept,
    getMasternodes_votesKept]
  -- every exit follows a chain of at most three callees from the start state
  all_goals intros
  all_goals first
    | exact ‹VotesKept s₀ _›.trans ‹_›
    | exact (‹VotesKept s₀ _›.trans ‹_›).trans ‹_›
    | exact ((‹VotesKept s₀ _›.trans ‹_›).trans ‹_›).trans ‹_›

end

/-! ### The configuration and the verified header cache -/

/-- The configuration and the verified header cache are unchanged. -/
def HeadersKept (s₀ s : XDPoSV2) : Prop :=
  s.config = s₀.config ∧ s.verifiedHeaders = s₀.verifiedHeaders

theorem HeadersKept.trans {s₁ s₂ s₃ : XDPoSV2} (h₁ : HeadersKept s₁ s₂)
    (h₂ : HeadersKept s₂ s₃) : HeadersKept s₁ s₃ :=
  ⟨h₂.1.trans h₁.1, h₂.2.trans h₁.2⟩

theorem Frame.headersKept {s₀ s : XDPoSV2} (h : Frame s₀ s) : HeadersKept s₀ s :=
  ⟨h.1, h.2.2.1⟩

/-- A function that keeps the frame keeps the configuration and the cache. -/
theorem Keeps.headersKept_of_frame {α : Type} {m : EngineM α} (h : ∀ s₀, Keeps Frame m s₀)
    (s₀ : XDPoSV2) : Keeps HeadersKept m s₀ :=
  Keeps.weaken h Frame.refl Frame.headersKept HeadersKept.trans s₀

/-- What `verifyHeader` of a header hashed `hash` may do: keep the configuration, and keep the
cache or add `hash` to it when it was not there. -/
def CachesHeader (hash : Hash) (s₀ s : XDPoSV2) : Prop :=
  s.config = s₀.config ∧ (s.verifiedHeaders = s₀.verifiedHeaders ∨
    hash ∉ s₀.verifiedHeaders ∧ s.verifiedHeaders = hash :: s₀.verifiedHeaders)

theorem Frame.cachesHeader {hash : Hash} {s₀ s : XDPoSV2} (h : Frame s₀ s) :
    CachesHeader hash s₀ s :=
  ⟨h.1, .inl h.2.2.1⟩

/-- Caching a hash found absent at a state within the frame. -/
theorem Frame.cachesHeader_cons {hash : Hash} {s₀ s₁ s : XDPoSV2}
    (hfresh : hash ∉ s₁.verifiedHeaders) (h₁ : Frame s₀ s₁) (h : Frame s₀ s) :
    CachesHeader hash s₀ { s with verifiedHeaders := hash :: s.verifiedHeaders } :=
  ⟨h.1, .inr ⟨h₁.2.2.1 ▸ hfresh, by rw [h.2.2.1]⟩⟩

section
variable (cr : Crypto) (chain : ChainReader)

/-- **`verifyHeader` caches only a fresh hash**: a success keeps the cache or adds the header's
hash, absent before; a failure keeps it. -/
theorem verifyHeader_cache (header : Header) (parents : List Header) (fullVerify : Bool)
    (now : ℕ) (s₀ : XDPoSV2) :
    ⦃fun s => ⌜Frame s₀ s⌝⦄ verifyHeader cr chain header parents fullVerify now
    ⦃post⟨fun _ s => ⌜CachesHeader (cr.headerHash header) s₀ s⌝,
      fun _ s => ⌜HeadersKept s₀ s⌝⟩⦄ := by
  -- the callees keep the frame from `s₀` itself, so every exit state is within it
  have hinit := initial_frame cr chain header s₀
  have hqc := fun quorumCert parent => verifyQC_frame cr chain quorumCert parent s₀
  have hms := getMasternodes_frame cr chain header s₀
  mvcgen [verifyHeader, fromExcept, hinit, hqc, hms]
  all_goals intros
  all_goals first
    | apply Frame.headersKept; assumption
    | apply Frame.cachesHeader; assumption
    -- the accepting exit, past the check that the hash was not cached
    | apply Frame.cachesHeader_cons <;> assumption

/-- Recording a vote writes neither the configuration nor the cache. -/
theorem sendVote_headersKept (blockInfo : BlockInfo) (s₀ : XDPoSV2) :
    Keeps HeadersKept (sendVote cr chain blockInfo) s₀ := by
  have hlookup := fun header hash =>
    Keeps.headersKept_of_frame (getEpochSwitchInfo_frame cr chain header hash) s₀
  have hvote := fun v => Keeps.headersKept_of_frame (voteHandler_frame cr chain v) s₀
  mvcgen [sendVote, fromExcept, broadcastToBftChannel, hlookup, hvote]

theorem proposedBlockHandler_headersKept (header : Header) (s₀ : XDPoSV2) :
    Keeps HeadersKept (proposedBlockHandler cr chain header) s₀ := by
  have hqc := fun quorumCert =>
    Keeps.headersKept_of_frame (processQC_frame cr chain quorumCert) s₀
  have hallow := fun header sendType =>
    Keeps.headersKept_of_frame (allowedToSend_frame cr chain header sendType) s₀
  have hrule := fun blockInfo quorumCert => Keeps.headersKept_of_frame
    (Keeps.frame_of_cacheOnly (verifyVotingRule_cacheOnly chain blockInfo quorumCert)) s₀
  have hsend := fun blockInfo => sendVote_headersKept cr chain blockInfo s₀
  mvcgen [proposedBlockHandler, fromExcept, hqc, hallow, hrule, hsend]

end

end XdcSubnet.EngineV2
