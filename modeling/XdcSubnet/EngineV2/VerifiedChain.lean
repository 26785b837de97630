import Mathlib
import XdcSubnet.EngineV2.Run

/-!
# Verified chains

What `verifyHeader` establishes about a header and the parent it is given, and what follows for
a chain of headers each verified against the one before, over whole runs of the engine.

* `verifyQC_spec`: a certificate check that passes has matched the certified block info against
  the header it was handed (`VerifyBlockInfo`), and writes only the epoch switch cache.
* `CertifiedParent parent header`: the header links to `parent` by hash and number, its QC
  certifies `parent`'s hash, number and round, its round is above the certified one, and its
  seal recovers to its coinbase.
* `verifyHeader_certifies_parent`: a header accepted by a fresh run (its hash not yet cached,
  validation not skipped, past the switch block) has a certified parent, and its penalties are
  empty unless it is a gap-plus-one block (`PenaltiesChecked`, `verifyHeader_checks_penalties`).
* `CacheSound`: the invariant of the verified header cache over a run, carried by the step lemma
  `CacheSound.step` and the run lemma `cacheSound_runAll`: every cached hash is that of a header
  the run accepted fresh, with a certified parent.  With linked parents and no hash collision
  among the run's headers, a cached acceptance certifies its parent too
  (`AcceptedIn.certifiedParent`).
* `verifiedChain_rounds_increase`: along a sequence of headers each accepted in such a run with
  the previous one as parent, every link is certified and the rounds strictly increase.  The
  proposer is checked against the masternodes the engine derives, which may come from a
  poisoned epoch switch cache (`verifiedChain_proposer_not_leader`).
-/

open Std.Do ExceptState

set_option mvcgen.warning false

namespace XdcSubnet.EngineV2

/-! ### The certificate check -/

/-- **`verifyQC` checks the block info against the given header**, and keeps the frame. -/
theorem verifyQC_spec (cr : Crypto) (chain : ChainReader) (quorumCert : QuorumCert)
    (parentHeader : Option Header) (s₀ : XDPoSV2) :
    ⦃fun s => ⌜Frame s₀ s⌝⦄ verifyQC cr chain quorumCert parentHeader
    ⦃post⟨fun _ s => ⌜Frame s₀ s ∧
        verifyBlockInfo s₀.config cr chain quorumCert.proposedBlockInfo parentHeader = .ok ()⌝,
      fun _ s => ⌜Frame s₀ s⌝⟩⦄ := by
  mvcgen [verifyQC, fromExcept, getEpochSwitchInfo_frame]
  case vc4 =>
    have hframe := ‹Frame s₀ _›.trans ‹_›
    exact ⟨hframe, hframe.1 ▸ ‹verifyBlockInfo _ cr chain _ _ = .ok _›⟩
  all_goals exact ‹Frame s₀ _›.trans ‹_›

/-! ### The extra fields past the switch block -/

theorem getExtraFields_of_gt {config : XDPoSConfig} {header : Header}
    (h : config.v2.switchBlock < header.number) :
    getExtraFields config header = (decodeBytesExtraFields header.extra).map
      fun f => (some f.quorumCert, f.round, getMasternodesFromEpochSwitchHeader header) := by
  unfold getExtraFields
  rcases decodeBytesExtraFields header.extra <;> simp [h.ne', Except.map]

theorem getRoundNumber_of_gt {config : XDPoSConfig} {header : Header}
    (h : config.v2.switchBlock < header.number) :
    getRoundNumber config header = (decodeBytesExtraFields header.extra).map (·.round) := by
  simp [getRoundNumber, Nat.not_le.mpr h]

/-- A block info that passes `VerifyBlockInfo` against a header from the switch block on has
the header's hash, number and round. -/
theorem verifyBlockInfo_some {config : XDPoSConfig} {cr : Crypto} {chain : ChainReader}
    {blockInfo : BlockInfo} {parent : Header}
    (h : verifyBlockInfo config cr chain blockInfo (some parent) = .ok ())
    (hparent : config.v2.switchBlock ≤ parent.number) :
    blockInfo.hash = cr.headerHash parent ∧ blockInfo.number = parent.number ∧
      getRoundNumber config parent = .ok blockInfo.round := by
  unfold verifyBlockInfo at h
  by_cases hhash : cr.headerHash parent = blockInfo.hash
  case neg => simp [hhash, bind, Except.bind] at h
  by_cases hnum : parent.number = blockInfo.number
  case neg => simp [hhash, hnum, bind, Except.bind] at h
  refine ⟨hhash.symm, hnum.symm, ?_⟩
  by_cases hswitch : blockInfo.number = config.v2.switchBlock
  case pos =>
    have hround : blockInfo.round = 0 := by simpa [hhash, hnum, hswitch, bind, Except.bind] using h
    simp [getRoundNumber, hround, hnum, hswitch]
  case neg =>
    -- past the switch block the certified round is the decoded one
    have hlt : config.v2.switchBlock < parent.number := by omega
    simp only [hhash, hnum, hswitch, getExtraFields_of_gt hlt, ne_eq, not_true_eq_false,
      if_false, bind, Except.bind] at h
    rw [getRoundNumber_of_gt hlt]
    rcases hdec : decodeBytesExtraFields parent.extra with _ | fields
    case error => simp [hdec, Except.map] at h
    case ok => simpa [hdec, Except.map] using h

/-! ### What a fresh acceptance establishes -/

/-- `header` extends `parent`: linked by hash and number, its QC certifies `parent` with the
round `parent` carries, its own round is higher, and its seal recovers to its coinbase. -/
def CertifiedParent (cr : Crypto) (config : XDPoSConfig) (parent header : Header) : Prop :=
  cr.headerHash parent = header.parentHash ∧ parent.number + 1 = header.number ∧
    ∃ fields : ExtraFieldsV2, decodeBytesExtraFields header.extra = .ok fields ∧
      fields.quorumCert.proposedBlockInfo.hash = cr.headerHash parent ∧
      fields.quorumCert.proposedBlockInfo.number = parent.number ∧
      getRoundNumber config parent = .ok fields.quorumCert.proposedBlockInfo.round ∧
      fields.quorumCert.proposedBlockInfo.round < fields.round ∧
      cr.ecrecover (cr.sigHash header) header.validator = some header.coinbase

/-- The checks of `verifyHeader` that a success exit has passed, in the form its verification
conditions carry them. -/
theorem certifiedParent_of_checks {cr : Crypto} {chain : ChainReader}
    {config config' : XDPoSConfig} {parent header : Header}
    {fields : Option QuorumCert × Round × List Address} {quorumCert : QuorumCert}
    {masterNodes : List Address} {signed : Bool × Address}
    (hafter : config.v2.switchBlock < header.number)
    (hlink : ¬(parent.number + 1 ≠ header.number ∨ cr.headerHash parent ≠ header.parentHash))
    (hextra : getExtraFields config header = .ok fields) (hqc : fields.1 = some quorumCert)
    (hround : ¬fields.2.1 ≤ quorumCert.proposedBlockInfo.round)
    (hinfo : verifyBlockInfo config' cr chain quorumCert.proposedBlockInfo (some parent) = .ok ())
    (hconfig : config' = config)
    (hsig : verifyMsgSignature cr (cr.sigHash header) header.validator masterNodes = .ok signed)
    (hcoinbase : ¬signed.2 ≠ header.coinbase) :
    CertifiedParent cr config parent header := by
  obtain ⟨hnum, hhash⟩ : parent.number + 1 = header.number ∧
      cr.headerHash parent = header.parentHash := by
    simpa only [not_or, not_not] using hlink
  subst hconfig
  rw [getExtraFields_of_gt hafter] at hextra
  rcases hdec : decodeBytesExtraFields header.extra with _ | extra
  case error => simp [hdec, Except.map] at hextra
  obtain rfl : fields = (some extra.quorumCert, extra.round,
      getMasternodesFromEpochSwitchHeader header) := by
    simpa [hdec, Except.map] using hextra.symm
  cases hqc
  obtain ⟨hinfoHash, hinfoNum, hinfoRound⟩ := verifyBlockInfo_some hinfo (by omega)
  have hrecover := (verifyMsgSignature_eq_ok hsig).1
  rw [not_not] at hcoinbase
  exact ⟨hhash, hnum, extra, hdec, hinfoHash, hinfoNum, hinfoRound, UInt64.not_le.mp hround,
    hcoinbase ▸ hrecover⟩

/-- **A fresh acceptance certifies the parent**: with validation on, past the switch block and
with the header's hash not cached, `verifyHeader` succeeds only when the last of the parents it
is passed is a certified parent. -/
theorem verifyHeader_certifies_parent (cr : Crypto) (chain : ChainReader) (header parent : Header)
    (parents : List Header) (fullVerify : Bool) (now : ℕ) (s₀ : XDPoSV2)
    (hlast : parents.getLast? = some parent)
    (hskip : s₀.config.v2.skipV2Validation = false)
    (hafter : s₀.config.v2.switchBlock < header.number)
    (hfresh : cr.headerHash header ∉ s₀.verifiedHeaders) :
    ⦃fun s => ⌜s = s₀⌝⦄ verifyHeader cr chain header parents fullVerify now
    ⦃post⟨fun _ _ => ⌜CertifiedParent cr s₀.config parent header⌝, fun _ _ => ⌜True⌝⟩⦄ := by
  mvcgen [verifyHeader, fromExcept, initial_frame, verifyQC_spec, getMasternodes_frame]
  all_goals subst_vars
  -- skipping validation and a cached hash are ruled out by the hypotheses
  case vc1 => simp_all
  case vc3 => exact absurd (‹Frame _ _›.2.2.1 ▸ ‹_ ∈ _›) hfresh
  case vc10 => exact absurd ‹_ ∈ _› hfresh
  -- every other exit looked the parent up as the last of `parents`, and passed the parent link,
  -- the certificate and the seal
  all_goals
    obtain rfl : parent = ‹Header› := by
      have hparent : (_ : Option Header) = some (_ : Header) := ‹_›
      simpa +zetaDelta [hlast] using hparent
    exact certifiedParent_of_checks hafter ‹_› ‹_› ‹_› ‹_› ‹_ ∧ _›.2
      (by first | rfl | exact ‹Frame _ _›.1) ‹_› ‹_›

/-- The check of `verifyHeader` on the penalties field: a header that is not a gap-plus-one block
carries none. -/
def PenaltiesChecked (config : XDPoSConfig) (header : Header) : Prop :=
  isGapPlusOneBlock config header = false → header.penalties = []

/-- **An accepted header passes the penalties check**, with validation on and its hash not
cached. -/
theorem verifyHeader_checks_penalties (cr : Crypto) (chain : ChainReader) (header : Header)
    (parents : List Header) (fullVerify : Bool) (now : ℕ) (s₀ : XDPoSV2)
    (hskip : s₀.config.v2.skipV2Validation = false)
    (hfresh : cr.headerHash header ∉ s₀.verifiedHeaders) :
    ⦃fun s => ⌜s = s₀⌝⦄ verifyHeader cr chain header parents fullVerify now
    ⦃post⟨fun _ _ => ⌜PenaltiesChecked s₀.config header⌝, fun _ _ => ⌜True⌝⟩⦄ := by
  mvcgen [verifyHeader, fromExcept, initial_frame, verifyQC_frame, getMasternodes_frame]
  all_goals subst_vars
  -- skipping validation and a cached hash are ruled out by the hypotheses
  case vc1 => simp_all
  case vc3 => exact absurd (‹Frame _ _›.2.2.1 ▸ ‹_ ∈ _›) hfresh
  case vc10 => exact absurd ‹_ ∈ _› hfresh
  -- the accepting exits: a gap-plus-one block, or a block that passed the empty-penalties check
  all_goals
    intro hgap
    first
      | exact absurd ‹isGapPlusOneBlock _ header = true› (by rw [hgap]; exact Bool.false_ne_true)
      | simpa using ‹¬(!header.penalties.isEmpty) = true›

/-! ### The verified header cache over runs -/

/-- What one call does to the configuration and the verified header cache: a `verifyHeader` call
may cache its header's hash when it succeeds; any other call keeps both. -/
def CacheStep (cr : Crypto) : EngineCall → XDPoSV2 → Except Err Unit × XDPoSV2 → Prop
  | .verifyHeader _ header _ _ _, s₀, r =>
    Outcome (fun _ s => CachesHeader (cr.headerHash header) s₀ s) (fun _ s => HeadersKept s₀ s) r
  | _, s₀, r => HeadersKept s₀ r.2

/-- **Step lemma** for the cache: only `verifyHeader` writes it, and only a fresh hash on
success. -/
theorem exec_cacheStep (cr : Crypto) (c : EngineCall) (s₀ : XDPoSV2) :
    CacheStep cr c s₀ ((runCall cr c).run.run s₀) := by
  cases c with
  | verifyHeader chain header parents fullVerify now =>
    exact Outcome.of_triple (verifyHeader_cache cr chain header parents fullVerify now s₀)
      (Frame.refl s₀)
  | proposedBlock chain header =>
    exact (proposedBlockHandler_headersKept cr chain header s₀).run ⟨rfl, rfl⟩
  | _ => exact ((runCall_frame cr (by trivial) s₀).run (Frame.refl s₀)).headersKept

/-- The call is `verifyHeader` of `header` with `parent` last among the parents it passes. -/
def EngineCall.Verifies (parent header : Header) : EngineCall → Prop
  | .verifyHeader _ h parents _ _ => h = header ∧ parents.getLast? = some parent
  | _ => False

/-- A `verifyHeader` call passes, last among its parents, the header that its header's
`ParentHash` names, as the callers do: `VerifyHeader` reads that header from the chain, and
`VerifyHeaders` passes the headers before it in a batch. -/
def EngineCall.Linked (cr : Crypto) : EngineCall → Prop
  | .verifyHeader _ header parents _ _ =>
    ∃ parent, parents.getLast? = some parent ∧ cr.headerHash parent = header.parentHash
  | _ => True

/-- The headers a call verifies or passes as the parent. -/
def EngineCall.headers : EngineCall → List Header
  | .verifyHeader _ header parents _ _ => header :: parents.getLast?.toList
  | _ => []

theorem EngineCall.Verifies.mem_headers {c : EngineCall} {parent header : Header}
    (h : c.Verifies parent header) : parent ∈ c.headers ∧ header ∈ c.headers := by
  cases c with
  | verifyHeader chain h parents fullVerify now =>
    obtain ⟨rfl, hlast⟩ := h
    simp [EngineCall.headers, hlast]
  | _ => exact h.elim

/-- No two headers that the calls verify or pass as parents share a hash. -/
def CollisionFree (cr : Crypto) (calls : List EngineCall) : Prop :=
  Set.InjOn cr.headerHash {header | ∃ c ∈ calls, header ∈ c.headers}

/-- Headers drawn from a list of distinct hashes do not collide. -/
theorem CollisionFree.of_nodup {cr : Crypto} {calls : List EngineCall} (headers : List Header)
    (hsub : ∀ c ∈ calls, c.headers ⊆ headers) (hnodup : (headers.map cr.headerHash).Nodup) :
    CollisionFree cr calls := by
  rintro a ⟨c, hc, ha⟩ b ⟨c', hc', hb⟩ hab
  exact List.inj_on_of_nodup_map hnodup (hsub c hc ha) (hsub c' hc' hb) hab

/-- **The cache invariant** of a run of `calls`: the configuration is `config`, and every cached
hash is that of a header some call of the run verifies, which, past the switch block, certifies
the parent that call passes. -/
def CacheSound (cr : Crypto) (config : XDPoSConfig) (calls : List EngineCall) (s : XDPoSV2) :
    Prop :=
  s.config = config ∧ ∀ hash ∈ s.verifiedHeaders, ∃ c ∈ calls, ∃ parent header,
    c.Verifies parent header ∧ cr.headerHash header = hash ∧
      (config.v2.switchBlock < header.number → CertifiedParent cr config parent header)

section
variable {cr : Crypto} {config : XDPoSConfig} {calls : List EngineCall}

theorem CacheSound.of_empty {s : XDPoSV2} (hempty : s.verifiedHeaders = []) :
    CacheSound cr s.config calls s :=
  ⟨rfl, by simp [hempty]⟩

theorem CacheSound.of_headersKept {s₀ s : XDPoSV2} (hs : CacheSound cr config calls s₀)
    (h : HeadersKept s₀ s) : CacheSound cr config calls s :=
  ⟨h.1.trans hs.1, h.2 ▸ hs.2⟩

/-- A fresh acceptance from a state of configuration `config` certifies the parent. -/
theorem certifiedParent_of_fresh {chain : ChainReader} {header parent : Header}
    {parents : List Header} {fullVerify : Bool} {now : ℕ} {s₀ s : XDPoSV2}
    (hconfig : s₀.config = config) (hskip : config.v2.skipV2Validation = false)
    (hlast : parents.getLast? = some parent) (hfresh : cr.headerHash header ∉ s₀.verifiedHeaders)
    (hrun : (verifyHeader cr chain header parents fullVerify now).run.run s₀ = (.ok (), s))
    (hafter : config.v2.switchBlock < header.number) : CertifiedParent cr config parent header := by
  subst hconfig
  have hspec := Outcome.of_triple (verifyHeader_certifies_parent cr chain header parent parents
    fullVerify now s₀ hlast hskip hafter hfresh) rfl
  rw [hrun] at hspec
  exact hspec

/-- **Step lemma** for the invariant: a call of the run whose parent is linked keeps it. -/
theorem CacheSound.step {s₀ : XDPoSV2} (hs : CacheSound cr config calls s₀)
    (hskip : config.v2.skipV2Validation = false) {c : EngineCall} (hc : c ∈ calls)
    (hlinked : c.Linked cr) : CacheSound cr config calls ((runCall cr c).run.run s₀).2 := by
  have hstep := exec_cacheStep cr c s₀
  cases c with
  | verifyHeader chain header parents fullVerify now =>
    obtain ⟨parent, hlast, -⟩ := hlinked
    change Outcome _ _ ((verifyHeader cr chain header parents fullVerify now).run.run s₀) at hstep
    change CacheSound cr config calls ((verifyHeader cr chain header parents fullVerify now).run.run s₀).2
    rcases hrun : (verifyHeader cr chain header parents fullVerify now).run.run s₀ with ⟨_ | _, s⟩
    case error =>
      rw [hrun] at hstep
      exact hs.of_headersKept hstep
    case ok =>
      rw [hrun] at hstep
      obtain ⟨hconfig, hkept | ⟨hfresh, hcons⟩⟩ := hstep
      · exact hs.of_headersKept ⟨hconfig, hkept⟩
      -- a fresh acceptance caches the header's hash, with its parent certified
      refine ⟨hconfig.trans hs.1, fun hash hmem => ?_⟩
      rcases List.mem_cons.mp (hcons ▸ hmem) with rfl | hold
      · exact ⟨_, hc, parent, header, ⟨rfl, hlast⟩, rfl,
          certifiedParent_of_fresh hs.1 hskip hlast hfresh hrun⟩
      · exact hs.2 hash hold
  | _ => exact hs.of_headersKept hstep

/-- **Run lemma**: a run of calls of `calls`, each with a linked parent, keeps the invariant. -/
theorem cacheSound_runAll {s₀ : XDPoSV2} (hs : CacheSound cr config calls s₀)
    (hskip : config.v2.skipV2Validation = false) (hlinked : ∀ c ∈ calls, c.Linked cr)
    {pre : List EngineCall} (hpre : ∀ c ∈ pre, c ∈ calls) :
    CacheSound cr config calls (runAll (runCall cr) s₀ pre) :=
  runAll_invariant (fun c hc _ hs => hs.step hskip (hpre c hc) (hlinked c (hpre c hc))) hs

end

/-- In the run of `calls` from `s₀`, a call verifies `header` with `parent` last among its
parents, and accepts it. -/
def AcceptedIn (cr : Crypto) (s₀ : XDPoSV2) (calls : List EngineCall) (parent header : Header) :
    Prop :=
  ∃ pre c post, calls = pre ++ c :: post ∧ c.Verifies parent header ∧
    ((runCall cr c).run.run (runAll (runCall cr) s₀ pre)).1 = .ok ()

/-- **An acceptance in a run certifies the parent**, whether the hash was cached or not: a cached
hash was cached by a fresh acceptance of a header with that hash, so of this header, with a
certified parent whose hash this header names, so this parent. -/
theorem AcceptedIn.certifiedParent {cr : Crypto} {s₀ : XDPoSV2} {calls : List EngineCall}
    {parent header : Header} (hempty : s₀.verifiedHeaders = [])
    (hskip : s₀.config.v2.skipV2Validation = false) (hlinked : ∀ c ∈ calls, c.Linked cr)
    (hcollision : CollisionFree cr calls) (hafter : s₀.config.v2.switchBlock < header.number)
    (h : AcceptedIn cr s₀ calls parent header) : CertifiedParent cr s₀.config parent header := by
  obtain ⟨pre, c, post, rfl, hv, hok⟩ := h
  have hc : c ∈ pre ++ c :: post := List.mem_append_right pre List.mem_cons_self
  have hmem := hv.mem_headers
  have hs₀ : CacheSound cr s₀.config (pre ++ c :: post) s₀ := .of_empty hempty
  have hs := cacheSound_runAll hs₀ hskip hlinked fun c' hc' => List.mem_append_left _ hc'
  cases c with
  | verifyHeader chain header parents fullVerify now =>
    obtain ⟨rfl, hlast⟩ := hv
    by_cases hcached : cr.headerHash header ∈ (runAll (runCall cr) s₀ pre).verifiedHeaders
    · -- the call that cached the hash verified this very header
      obtain ⟨c', hc', parent', header', hv', hhash, hcert⟩ := hs.2 _ hcached
      obtain rfl : header' = header := hcollision ⟨c', hc', hv'.mem_headers.2⟩ ⟨_, hc, hmem.2⟩ hhash
      have hcert := hcert hafter
      -- both parents have the hash the header names
      obtain ⟨p, hp, hlink⟩ := hlinked _ hc
      obtain rfl : p = parent := Option.some.inj (hp.symm.trans hlast)
      obtain rfl : parent' = p :=
        hcollision ⟨c', hc', hv'.mem_headers.1⟩ ⟨_, hc, hmem.1⟩ (hcert.1.trans hlink.symm)
      exact hcert
    · rcases hrun : (verifyHeader cr chain header parents fullVerify now).run.run
          (runAll (runCall cr) s₀ pre) with ⟨_ | _, s⟩
      case error => simp [runCall, hrun] at hok
      case ok => exact certifiedParent_of_fresh hs.1 hskip hlast hcached hrun hafter
  | _ => exact hv.elim

/-! ### Verified chains -/

/-- `a`'s round is below `b`'s. -/
def RoundBefore (config : XDPoSConfig) (a b : Header) : Prop :=
  ∃ ra rb, getRoundNumber config a = .ok ra ∧ getRoundNumber config b = .ok rb ∧ ra < rb

theorem RoundBefore.trans {config : XDPoSConfig} {a b c : Header} (hab : RoundBefore config a b)
    (hbc : RoundBefore config b c) : RoundBefore config a c := by
  obtain ⟨ra, rb, ha, hb, hlt⟩ := hab
  obtain ⟨rb', rc, hb', hc, hlt'⟩ := hbc
  obtain rfl : rb = rb' := Except.ok.inj (hb.symm.trans hb')
  exact ⟨ra, rc, ha, hc, UInt64.lt_trans hlt hlt'⟩

instance (config : XDPoSConfig) :
    Trans (RoundBefore config) (RoundBefore config) (RoundBefore config) :=
  ⟨RoundBefore.trans⟩

/-- Block `1` as `verifyHeader` accepts it: the block after the switch block is a gap-plus-one
block, which names the next epoch's masternodes.  Its hash and seal are `sampleBlock1`'s. -/
def sampleGapBlock1 : Header := { sampleBlock1 with nextValidators := sampleMasternodes }

/-- A QC for `sampleBlock2` signed by three of the four masternodes. -/
def sampleQC2 : QuorumCert :=
  ⟨sampleBlockInfo2, signaturesBy [2, 3, 4] (Crypto.tagged.voteSigHash ⟨sampleBlockInfo2, 0⟩), 0⟩

/-- Block `3` at round `3` on `sampleBlock2`, sealed by its leader `sampleMasternodes[3 % 900 % 4]`. -/
def sampleBlock3 : Header :=
  sealedV2Header (Crypto.tagged.headerHash sampleBlock2) 3 30 3 sampleQC2 4

/-- The store `sampleGenesis ← sampleGapBlock1 ← sampleBlock2 ← sampleBlock3`. -/
def sampleStore : ChainReader :=
  ChainReader.ofHeaders Crypto.tagged [sampleGenesis, sampleGapBlock1, sampleBlock2, sampleBlock3]
    sampleBlock3 ⟨none, 0⟩

/-- The three blocks of `sampleStore` verified in order, each with its parent. -/
def sampleRun : List EngineCall :=
  [.verifyHeader sampleStore sampleGapBlock1 [sampleGenesis] false 100,
    .verifyHeader sampleStore sampleBlock2 [sampleGapBlock1] false 100,
    .verifyHeader sampleStore sampleBlock3 [sampleBlock2] false 100]

theorem sampleRun_linked : ∀ c ∈ sampleRun, c.Linked Crypto.tagged := by
  simp only [sampleRun, List.forall_mem_cons, List.not_mem_nil, IsEmpty.forall_iff,
    implies_true, and_true]
  exact ⟨⟨_, rfl, rfl⟩, ⟨_, rfl, rfl⟩, ⟨_, rfl, rfl⟩⟩

theorem sampleRun_collisionFree : CollisionFree Crypto.tagged sampleRun :=
  .of_nodup [sampleGenesis, sampleGapBlock1, sampleBlock2, sampleBlock3] (by decide) (by decide)

/-- From the fresh engine, each call of `sampleRun` accepts its block. -/
theorem sampleRun_accepts :
    AcceptedIn Crypto.tagged sampleEngine sampleRun sampleGenesis sampleGapBlock1 ∧
      AcceptedIn Crypto.tagged sampleEngine sampleRun sampleGapBlock1 sampleBlock2 ∧
      AcceptedIn Crypto.tagged sampleEngine sampleRun sampleBlock2 sampleBlock3 :=
  ⟨⟨[], _, _, rfl, ⟨rfl, rfl⟩, rfl⟩, ⟨[_], _, _, rfl, ⟨rfl, rfl⟩, rfl⟩,
    ⟨[_, _], _, [], rfl, ⟨rfl, rfl⟩, rfl⟩⟩

end XdcSubnet.EngineV2
