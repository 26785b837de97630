import XdcSubnet.Network.Protocol
import XdcSubnet.EngineV2.Advance

/-!
# Along every run of the subnet, no node takes back a certificate or a commit

A node drives its engine only through engine calls (`runCall`) and `broadcastToBftChannel`, so
a preorder on engines that each of those keeps (`EngineOrder`) relates a node's engine before
and after each of its entry points (`insert`, `vote`, `timeout`, `syncInfo`, `commitNewWork`,
`countdown`), and so every node's engine at any two points of a run of the subnet
(`EngineOrder.steps`), whatever the byzantine signers send.

`Advances` is such an order (`engineOrder_advances`): along every run, no node lowers its lock
QC or its highest TC, each node's highest commit block moves only to a block of a higher round
and no lower number, and an initialised node never lowers its highest QC
(`advances_of_steps`).
-/

namespace XdcSubnet.Network

open EngineV2 ExceptState

/-- A preorder on engine states that every engine call and every broadcast keeps. -/
structure EngineOrder (cr : Crypto) (R : XDPoSV2 → XDPoSV2 → Prop) : Prop where
  refl : ∀ s, R s s
  trans : ∀ {s₁ s₂ s₃}, R s₁ s₂ → R s₂ s₃ → R s₁ s₃
  call : ∀ c s, R s ((runCall cr c).run.run s).2
  broadcast : ∀ msg s, R s ((broadcastToBftChannel msg).run.run s).2

namespace EngineOrder

variable {cr : Crypto} {chainConfig : ChainConfig} {R : XDPoSV2 → XDPoSV2 → Prop}

/-- A method whose result the node uses relates the engines as the call that drops it does. -/
theorem of_discard {α : Type} {m : EngineM α}
    (hm : ∀ s, R s (((do let _ ← m : EngineM Unit)).run.run s).2) (s : XDPoSV2) :
    R s (m.run.run s).2 :=
  run_discard m s ▸ hm s

/-- An engine method the order holds across, run by a node whose outcome the caller matched on. -/
theorem exec_eq {α : Type} {m : EngineM α} (hm : ∀ s, R s (m.run.run s).2) {node node' : Node}
    {r : Except Err α} (he : node.exec m = (r, node')) : R node.engine node'.engine := by
  have hrel := hm node.engine
  rwa [← Node.exec_engine, he] at hrel

theorem insert (h : EngineOrder cr R) (node : Node) (block : Header) (now : ℕ) :
    R node.engine (node.insert cr chainConfig block now).1.engine := by
  have hverify := fun chain => h.call (.verifyHeader chain block [] true now)
  unfold Node.insert
  split
  case isTrue => exact h.refl _
  case isFalse =>
    split
    case h_1 hfirst => exact exec_eq (hverify _) hfirst
    case h_2 node₁ hfirst =>
      have h₁ := exec_eq (hverify _) hfirst
      split
      case h_1 hsecond => exact h.trans h₁ (exec_eq (hverify _) hsecond)
      case h_2 node₂ hsecond =>
        have h₂ := h.trans h₁ (exec_eq (hverify _) hsecond)
        -- writing the block leaves the engine alone
        rw [← Node.writeBlockWithState_engine node₂ block] at h₂
        exact h.trans h₂ (h.call (.proposedBlock _ block) _)

theorem vote (h : EngineOrder cr R) (node : Node) (v : Vote) :
    R node.engine (node.vote cr chainConfig v).engine := by
  unfold Node.vote
  dsimp only
  split
  case isTrue => exact h.refl _
  case isFalse =>
    split
    case h_1 => exact h.refl _
    case h_2 _ v' _ =>
      have hsent := h.broadcast (.vote v') node.engine
      split
      case isTrue => exact h.trans hsent (h.call (.vote _ v') _)
      case isFalse => exact hsent

theorem timeout (h : EngineOrder cr R) (node : Node) (t : Timeout) :
    R node.engine (node.timeout cr chainConfig t).engine := by
  unfold Node.timeout
  dsimp only
  split
  case isTrue => exact h.refl _
  case isFalse =>
    split
    case h_1 => exact h.refl _
    case h_2 _ t' _ =>
      have hsent := h.broadcast (.timeout t') node.engine
      split
      case isTrue => exact h.trans hsent (h.call (.timeout _ t') _)
      case isFalse => exact hsent

theorem syncInfo (h : EngineOrder cr R) (node : Node) (si : SyncInfo) :
    R node.engine (node.syncInfo cr chainConfig si).engine := by
  have hverify := of_discard (h.call (.verifySyncInfo (node.chain cr chainConfig) si))
  unfold Node.syncInfo
  dsimp only
  split
  case isTrue => exact h.refl _
  case isFalse =>
    split
    case h_1 hverified => exact exec_eq hverify hverified
    case h_2 node₁ hverified =>
      have hsent := h.trans (exec_eq hverify hverified) (h.broadcast (.syncInfo si) _)
      split
      case isTrue => exact h.trans hsent (h.call (.syncInfo _ si) _)
      case isFalse => exact hsent

theorem commitNewWork (h : EngineOrder cr R) (node : Node) (now : ℕ) :
    R node.engine (node.commitNewWork cr chainConfig now).1.engine := by
  -- the miner's methods return values, and keep the order as the calls that drop them do
  have hturn := fun parent signer =>
    of_discard (h.call (.yourTurn (node.chain cr chainConfig) parent signer now))
  have hprepare := fun header =>
    of_discard (h.call (.prepare (node.chain cr chainConfig) header now))
  have hseal := fun header => of_discard (h.call (.sealBlock header))
  unfold Node.commitNewWork
  dsimp only
  split
  case isTrue => exact h.refl _
  case isFalse =>
    split
    case h_1 node₁ hturned =>
      have h₁ := exec_eq (hturn _ _) hturned
      split
      case h_1 node₂ hprepared =>
        have h₂ := h.trans h₁ (exec_eq (hprepare _) hprepared)
        -- the worker records the parent before sealing, which leaves the engine alone
        split
        case h_1 node₃ hsealed =>
          have hs := exec_eq (hseal _) hsealed
          have h₃ := h.trans h₂ hs
          rw [← Node.writeBlockWithState_engine node₃ _] at h₃
          exact h.trans h₃ (h.call (.proposedBlock _ _) _)
        case h_2 hsealed =>
          have hs := exec_eq (hseal _) hsealed
          exact h.trans h₂ hs
      case h_2 hprepared => exact h.trans h₁ (exec_eq (hprepare _) hprepared)
    case h_2 hturned => exact exec_eq (hturn _ _) hturned

theorem countdown (h : EngineOrder cr R) (node : Node) :
    R node.engine (node.countdown cr chainConfig).engine :=
  h.call (.countdownTimeout _) _

/-- Replacing node `i` by `node` keeps the order at every node when `node` is above node `i`. -/
theorem update (h : EngineOrder cr R) {N : Subnet} {i : Address} {node : Node}
    (hnode : R (N.nodes i).engine node.engine) (blocks : List Header) (j : Address) :
    R (N.nodes j).engine ((N.update i node blocks).nodes j).engine := by
  by_cases hj : j = i
  case pos =>
    subst hj
    simpa [Subnet.update] using hnode
  case neg => simpa [Subnet.update, Function.update_of_ne hj] using h.refl _

theorem deliver (h : EngineOrder cr R) (N : Subnet) (i : Address) (m : Message) (j : Address) :
    R (N.nodes j).engine ((N.deliver cr chainConfig i m).nodes j).engine := by
  cases m with
  | block header => exact h.update (h.insert _ header N.now) _ j
  | bft msg =>
    cases msg with
    | vote v => exact h.update (h.vote _ _) [] j
    | timeout t => exact h.update (h.timeout _ _) [] j
    | syncInfo si => exact h.update (h.syncInfo _ si) [] j

/-- **Step lemma**: every step of the subnet keeps the order at every node. -/
theorem step (h : EngineOrder cr R) {byzantine : List Address} {N N' : Subnet}
    (hstep : Subnet.Step cr chainConfig byzantine N N') (j : Address) :
    R (N.nodes j).engine (N'.nodes j).engine := by
  cases hstep with
  | deliver _ _ => exact h.deliver N _ _ j
  | mine _ => exact h.update (h.commitNewWork _ N.now) _ j
  | countdown _ => exact h.update (h.countdown _) [] j
  | tick => exact h.refl _
  | forge _ => exact h.refl _

/-- **Run lemma**: along every run of the subnet, the order relates every node's engine at the
start and at the end. -/
theorem steps (h : EngineOrder cr R) {byzantine : List Address} {N₁ N₂ : Subnet}
    (hrun : Subnet.Steps cr chainConfig byzantine N₁ N₂) (j : Address) :
    R (N₁.nodes j).engine (N₂.nodes j).engine := by
  induction hrun with
  | refl => exact h.refl _
  | tail _ hstep ih => exact h.trans ih (h.step hstep j)

end EngineOrder

theorem engineOrder_advances (cr : Crypto) : EngineOrder cr Advances where
  refl := Advances.refl
  trans := Advances.trans
  call c s := (runCall_advances cr s c).run (Advances.refl s)
  -- a broadcast only appends to the log
  broadcast _ s := Advances.refl s

/-- **No node takes back a certificate or a commit.**  Along every run of the subnet, whatever
the byzantine signers send, every node's lock QC and highest TC are never lowered, its highest
commit block moves only to a block of a higher round and no lower number, and once its engine is
initialised its highest QC is never lowered. -/
theorem advances_of_steps {cr : Crypto} {chainConfig : ChainConfig} {byzantine : List Address}
    {N₁ N₂ : Subnet} (hrun : Subnet.Steps cr chainConfig byzantine N₁ N₂) (i : Address) :
    Advances (N₁.nodes i).engine (N₂.nodes i).engine :=
  (engineOrder_advances cr).steps hrun i

/-- On the sample subnet with `1` byzantine, the clock advances to `10` and node `2` mines: its
engine advances. -/
theorem advances_of_steps_mine :
    let N₀ := Subnet.init subnetConfig [] sampleGenesis
    let N₁ : Subnet := { N₀ with now := N₀.now + 10 }
    Advances (N₀.nodes 2).engine ((N₁.mine Crypto.tagged ⟨none, 0⟩ 2).nodes 2).engine :=
  advances_of_steps
    (Relation.ReflTransGen.single (Subnet.Step.tick _ 10) |>.tail (Subnet.Step.mine (by decide)) :
      Subnet.Steps Crypto.tagged ⟨none, 0⟩ [1] _ _) 2

end XdcSubnet.Network
