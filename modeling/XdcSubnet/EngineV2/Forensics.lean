import XdcSubnet.EngineV2.Handlers
import XdcSubnet.Lib.CommonAncestor

/-!
# Forensics: ancestor checks and the common ancestor of two blocks

The block walks of `engine_v2/forensics.go`:

* `Forensics.isExtendingFromAncestor` is the same code as the engine's `isExtendingFromAncestor`
  in `vote.go`.  Over headers numbered one above their parents, and block infos naming stored
  headers of their numbers, both answer `true` exactly for ancestry, `false` when the walk
  stays on stored headers and ends elsewhere, and fail only at a missing header
  (`isExtendingFromAncestor_exact`);
* `FindAncestorBlockHash` walks the higher of two blocks down to the lower one's number
  (`climb`), then both down together until they meet (`descend`), and returns where they met
  with the two logged walks, reversed in place by `reverse`.  When the two blocks have a stored
  common ancestor it returns their lowest common ancestor and a path from it to each block, in
  argument order (`findAncestorBlockHash_lowestCommonAncestor`).

Paths are lists of hashes; Go logs each as its `Hex()` string, one to one with the hash.
-/

namespace XdcSubnet.EngineV2

open ParentLinks

/-- `Forensics.isExtendingFromAncestor`: the forensics copy of the engine's walk, line for
line. -/
def Forensics.isExtendingFromAncestor (blockChainReader : ChainReader)
    (currentBlock ancestorBlock : BlockInfo) : Except Err Bool :=
  EngineV2.isExtendingFromAncestor blockChainReader currentBlock ancestorBlock

/-- The answer is the hash the walk of the numbers' difference ends at, compared with the
ancestor's; the walk failing is the error. -/
theorem isExtendingFromAncestor_eq_ok {chain : ChainReader} {c a : BlockInfo} {r : Bool} :
    isExtendingFromAncestor chain c a = .ok r ↔
      ∃ y, walk chain.getHeaderByHash Header.parentHash (c.number - a.number) c.hash = some y ∧
        r = decide (y = a.hash) := by
  unfold isExtendingFromAncestor
  dsimp only
  cases walk chain.getHeaderByHash Header.parentHash (c.number - a.number) c.hash with
  | none => simp
  | some y => simp [eq_comm]

theorem isExtendingFromAncestor_eq_error {chain : ChainReader} {c a : BlockInfo} {e : Err}
    (h : isExtendingFromAncestor chain c a = .error e) :
    walk chain.getHeaderByHash Header.parentHash (c.number - a.number) c.hash = none := by
  unfold isExtendingFromAncestor at h
  dsimp only at h
  cases hw : walk chain.getHeaderByHash Header.parentHash (c.number - a.number) c.hash with
  | none => rfl
  | some y => rw [hw] at h; cases h

/-- **Ancestor checks are exact**, in both copies.  Over headers numbered one above their
parents, with both block infos naming stored headers of their numbers, the answer is `true`
exactly for ancestry; it is `false` for a non-ancestor whenever the walk stays on stored headers;
and an error means the walk met a missing header. -/
theorem isExtendingFromAncestor_exact {chain : ChainReader}
    (hn : Numbered chain.getHeaderByHash Header.parentHash Header.number) {c a : BlockInfo}
    {hc ha : Header} (hcs : chain.getHeaderByHash c.hash = some hc) (hcn : hc.number = c.number)
    (has : chain.getHeaderByHash a.hash = some ha) (han : ha.number = a.number) :
    Forensics.isExtendingFromAncestor chain c a = isExtendingFromAncestor chain c a ∧
      (isExtendingFromAncestor chain c a = .ok true ↔
        AncestorOrSelf chain.getHeaderByHash Header.parentHash a.hash c.hash) ∧
      ((∀ i < c.number - a.number, ∀ x,
          walk chain.getHeaderByHash Header.parentHash i c.hash = some x →
            (chain.getHeaderByHash x).isSome) →
        ¬AncestorOrSelf chain.getHeaderByHash Header.parentHash a.hash c.hash →
          isExtendingFromAncestor chain c a = .ok false) ∧
      (∀ e, isExtendingFromAncestor chain c a = .error e →
        ∃ i < c.number - a.number, ∃ x,
          walk chain.getHeaderByHash Header.parentHash i c.hash = some x ∧
            chain.getHeaderByHash x = none) := by
  refine ⟨rfl, ⟨isExtendingFromAncestor_true, fun hanc => ?_⟩, fun hstored hnot => ?_,
    fun e he => walk_eq_none_iff.1 (isExtendingFromAncestor_eq_error he)⟩
  · have hwalk := hanc.walk_eq hn has hcs
    rw [hcn, han] at hwalk
    exact isExtendingFromAncestor_eq_ok.2 ⟨a.hash, hwalk, by simp⟩
  · -- the walk cannot fail, and where it ends is not the ancestor
    cases hw : walk chain.getHeaderByHash Header.parentHash (c.number - a.number) c.hash with
    | none =>
      obtain ⟨i, hi, x, hx, hmiss⟩ := walk_eq_none_iff.1 hw
      have hsome := hstored i hi x hx
      rw [hmiss] at hsome
      cases hsome
    | some y =>
      have hne : y ≠ a.hash := fun hy => hnot (walk_ancestorOrSelf (hy ▸ hw))
      exact isExtendingFromAncestor_eq_ok.2 ⟨y, hw, by simp [hne]⟩

/-- A block `1` on the sample genesis block beside `sampleBlock1`, sealed by `3`. -/
def forkBlock1 : Header :=
  sealedV2Header (Crypto.tagged.headerHash sampleGenesis) 1 11 1 sampleQC0 3

/-- The block info of `forkBlock1`. -/
def forkBlockInfo1 : BlockInfo := ⟨Crypto.tagged.headerHash forkBlock1, 1, 1⟩

/-- The sample chain up to `sampleBlock2`, with `forkBlock1` forked off its genesis block. -/
def forkedChain : ChainReader :=
  ChainReader.ofHeaders Crypto.tagged [sampleGenesis, sampleBlock1, sampleBlock2, forkBlock1]
    sampleBlock2 ⟨none, 0⟩

theorem forkedChain_numbered :
    Numbered forkedChain.getHeaderByHash Header.parentHash Header.number :=
  numbered_find (by decide +kernel)

theorem isExtendingFromAncestor_exact_forked :
    Numbered forkedChain.getHeaderByHash Header.parentHash Header.number ∧
      forkedChain.getHeaderByHash sampleBlockInfo2.hash = some sampleBlock2 ∧
      sampleBlock2.number = sampleBlockInfo2.number ∧
      forkedChain.getHeaderByHash forkBlockInfo1.hash = some forkBlock1 ∧
      forkBlock1.number = forkBlockInfo1.number ∧
      (Forensics.isExtendingFromAncestor forkedChain sampleBlockInfo2 forkBlockInfo1 =
          isExtendingFromAncestor forkedChain sampleBlockInfo2 forkBlockInfo1 ∧
        (isExtendingFromAncestor forkedChain sampleBlockInfo2 forkBlockInfo1 = .ok true ↔
          AncestorOrSelf forkedChain.getHeaderByHash Header.parentHash forkBlockInfo1.hash
            sampleBlockInfo2.hash) ∧
        ((∀ i < sampleBlockInfo2.number - forkBlockInfo1.number, ∀ x,
            walk forkedChain.getHeaderByHash Header.parentHash i sampleBlockInfo2.hash = some x →
              (forkedChain.getHeaderByHash x).isSome) →
          ¬AncestorOrSelf forkedChain.getHeaderByHash Header.parentHash forkBlockInfo1.hash
            sampleBlockInfo2.hash →
            isExtendingFromAncestor forkedChain sampleBlockInfo2 forkBlockInfo1 = .ok false) ∧
        (∀ e, isExtendingFromAncestor forkedChain sampleBlockInfo2 forkBlockInfo1 = .error e →
          ∃ i < sampleBlockInfo2.number - forkBlockInfo1.number, ∃ x,
            walk forkedChain.getHeaderByHash Header.parentHash i sampleBlockInfo2.hash = some x ∧
              forkedChain.getHeaderByHash x = none)) := by
  have h2 : forkedChain.getHeaderByHash sampleBlockInfo2.hash = some sampleBlock2 := by
    decide +kernel
  have hf : forkedChain.getHeaderByHash forkBlockInfo1.hash = some forkBlock1 := by
    decide +kernel
  exact ⟨forkedChain_numbered, h2, rfl, hf, rfl,
    isExtendingFromAncestor_exact forkedChain_numbered h2 rfl hf rfl⟩

/-! ### The common ancestor of two blocks -/

/-- The errors of `FindAncestorBlockHash`. -/
inductive FindAncestorError
  /-- The height-equalising walk met a missing header. -/
  | parentNotFound (hash : Hash)
  /-- The joint walk looked up a missing header: Go dereferences the nil header and panics. -/
  | nilDereference
  /-- The joint walk did not meet within its round bound; Go loops on. -/
  | loopExhausted
deriving DecidableEq, Repr

/-- The message of each error, as the Go code prints it. -/
def FindAncestorError.text : FindAncestorError → String
  | .parentNotFound h => "unable to find parent block of hash " ++ toString h
  | .nilDereference => "runtime error: invalid memory address or nil pointer dereference"
  | .loopExhausted => "common ancestor not reached"

section Reverse

variable {α : Type}

/-- `l` is `ss` with its first `k` and last `k` entries mirrored. -/
def Mirrored (ss l : List α) (k : ℕ) : Prop :=
  l.length = ss.length ∧ ∀ p, l[p]? = if p < k ∨ ss.length - k ≤ p then ss.reverse[p]? else ss[p]?

theorem mirrored_zero (ss : List α) : Mirrored ss ss 0 := by
  refine ⟨rfl, fun p => ?_⟩
  split_ifs with hp
  · rw [List.getElem?_eq_none (by omega), List.getElem?_eq_none (by simp; omega)]
  · rfl

variable [Inhabited α]

/-- `reverse`: swap `ss[i]` and `ss[last - i]` for every `i < len(ss) / 2`, in place. -/
def reverse {α : Type} [Inhabited α] (ss : List α) : List α :=
  let last := ss.length - 1
  (List.range (ss.length / 2)).foldl
    (fun ss i => (ss.set i (ss.getD (last - i) default)).set (last - i) (ss.getD i default)) ss

/-- One swap of `reverse` exchanges two entries and keeps the others. -/
theorem getElem?_swap {l : List α} {i j : ℕ} (hi : i < l.length) (hj : j < l.length) (hij : i ≠ j)
    (p : ℕ) : ((l.set i (l.getD j default)).set j (l.getD i default))[p]? =
      if p = i then l[j]? else if p = j then l[i]? else l[p]? := by
  simp only [List.getElem?_set, List.length_set, List.getD_eq_getElem?_getD]
  by_cases hpj : p = j
  · subst hpj; simp [hj, Ne.symm hij, List.getElem?_eq_getElem hi]
  · by_cases hpi : p = i
    · subst hpi; simp [hi, Ne.symm hpj, List.getElem?_eq_getElem hj]
    · simp [Ne.symm hpj, Ne.symm hpi, hpi, hpj]

/-- The next swap mirrors one more entry at each end. -/
theorem Mirrored.swap {ss l : List α} {k : ℕ} (h : Mirrored ss l k) (hk : k + 1 ≤ ss.length / 2) :
    Mirrored ss ((l.set k (l.getD (ss.length - 1 - k) default)).set (ss.length - 1 - k)
      (l.getD k default)) (k + 1) := by
  obtain ⟨hlen, hget⟩ := h
  refine ⟨by simp [hlen], fun p => ?_⟩
  rw [getElem?_swap (by omega) (by omega) (by omega), hget, hget, hget]
  by_cases hpk : p = k
  · subst hpk
    rw [if_pos rfl, if_neg (by omega), if_pos (by omega), List.getElem?_reverse (by omega)]
  · by_cases hpm : p = ss.length - 1 - k
    · subst hpm
      rw [if_neg hpk, if_pos rfl, if_neg (by omega), if_pos (by omega),
        List.getElem?_reverse (by omega), show ss.length - 1 - (ss.length - 1 - k) = k by omega]
    · rw [if_neg hpk, if_neg hpm]
      by_cases hc : p < k ∨ ss.length - k ≤ p
      · rw [if_pos hc, if_pos (by omega)]
      · rw [if_neg hc, if_neg (by omega)]

/-- **The in-place swaps reverse the list**: after the `len / 2` swaps the two halves are
mirrored, and an odd list's middle entry is its own mirror. -/
theorem reverse_eq (ss : List α) : reverse ss = ss.reverse := by
  have hloop : ∀ k ≤ ss.length / 2, Mirrored ss ((List.range k).foldl (fun l i =>
      (l.set i (l.getD (ss.length - 1 - i) default)).set (ss.length - 1 - i)
        (l.getD i default)) ss) k := by
    intro k hk
    induction k with
    | zero => exact mirrored_zero ss
    | succ k ih =>
      rw [List.range_succ, List.foldl_append, List.foldl_cons, List.foldl_nil]
      exact (ih (by omega)).swap hk
  obtain ⟨-, hget⟩ := hloop _ le_rfl
  apply List.ext_getElem?
  intro p
  rw [reverse, hget]
  split_ifs with hp
  · rfl
  · rw [List.getElem?_reverse (by omega), show ss.length - 1 - p = p by omega]

end Reverse

/-- The first loop of `FindAncestorBlockHash`: step `higherBlockNumberHash` to its parent `i`
times, logging each parent. -/
def climb (chain : ChainReader) :
    ℕ → Hash → List Hash → Except FindAncestorError (Hash × List Hash)
  | 0, higherBlockNumberHash, higherPath => .ok (higherBlockNumberHash, higherPath)
  | i + 1, higherBlockNumberHash, higherPath =>
    match chain.getHeaderByHash higherBlockNumberHash with
    | none => .error (.parentNotFound higherBlockNumberHash)
    | some ph => climb chain i ph.parentHash (higherPath ++ [ph.parentHash])

/-- The second loop of `FindAncestorBlockHash`: step both hashes to their parents, logging
each, until they are equal.  Go has no bound on the rounds; `fuel` is one. -/
def descend (chain : ChainReader) : ℕ → Hash → Hash → List Hash → List Hash →
    Except FindAncestorError (Hash × List Hash × List Hash)
  | fuel, lowerBlockNumHash, higherBlockNumberHash, lowerPath, higherPath =>
    if lowerBlockNumHash = higherBlockNumberHash then
      .ok (lowerBlockNumHash, lowerPath, higherPath)
    else
      match fuel, chain.getHeaderByHash lowerBlockNumHash,
          chain.getHeaderByHash higherBlockNumberHash with
      | 0, _, _ => .error .loopExhausted
      | fuel + 1, some lower, some higher =>
        descend chain fuel lower.parentHash higher.parentHash (lowerPath ++ [lower.parentHash])
          (higherPath ++ [higher.parentHash])
      | _ + 1, _, _ => .error .nilDereference

/-- `Forensics.FindAncestorBlockHash`: the common ancestor of two blocks and the hash paths from
it to each, in argument order.  The joint walk gets the lower block's number plus one rounds,
as many as a chain numbered down to `0` has. -/
def Forensics.findAncestorBlockHash (chain : ChainReader) (firstBlockInfo secondBlockInfo : BlockInfo) :
    Except FindAncestorError (Hash × List Hash × List Hash) := do
  -- Re-arrange by block number
  let orderSwapped := decide (secondBlockInfo.number < firstBlockInfo.number)
  let lower := if orderSwapped then secondBlockInfo else firstBlockInfo
  let higher := if orderSwapped then firstBlockInfo else secondBlockInfo
  -- First, make their block number the same to start with
  let (higherBlockNumberHash, higherPath) ←
    climb chain (higher.number - lower.number) higher.hash [higher.hash]
  -- Now, they are on the same starting line, we try find the common ancestor
  let (lowerBlockNumHash, lowerPath, higherPath) ←
    descend chain (lower.number + 1) lower.hash higherBlockNumberHash [lower.hash] higherPath
  -- Reverse the list order as it's from ancestor to X block path
  let ancestorToLowerBlockNumHashPath := reverse lowerPath
  let ancestorToHigherBlockNumHashPath := reverse higherPath
  -- Swap back the order
  if orderSwapped then
    return (lowerBlockNumHash, ancestorToHigherBlockNumHashPath, ancestorToLowerBlockNumHashPath)
  return (lowerBlockNumHash, ancestorToLowerBlockNumHashPath, ancestorToHigherBlockNumHashPath)

section Loops

variable {chain : ChainReader}

/-- A successful walk is the first loop: it ends where the walk ends, having logged the walk's
trail. -/
theorem climb_of_walk {k : ℕ} {c y : Hash}
    (h : walk chain.getHeaderByHash Header.parentHash k c = some y) (path : List Hash) :
    climb chain k c path =
      .ok (y, path ++ (trail chain.getHeaderByHash Header.parentHash k c).tail) := by
  induction k generalizing c path with
  | zero =>
    cases h
    simp [climb, trail]
  | succ k ih =>
    rw [walk_succ] at h
    cases hc : chain.getHeaderByHash c with
    | none => rw [hc] at h; cases h
    | some ph =>
      rw [hc, Option.bind_some] at h
      simp only [climb, hc]
      rw [ih h, trail_succ_of_get hc, List.tail_cons, List.append_assoc, List.singleton_append,
        ← trail_eq_cons]

/-- **The joint loop stops where the two walks first meet**, having logged both trails, given
the rounds to get there. -/
theorem descend_of_meet {j : ℕ} {x y w : Hash}
    (hx : walk chain.getHeaderByHash Header.parentHash j x = some w)
    (hy : walk chain.getHeaderByHash Header.parentHash j y = some w)
    (hfirst : ∀ i < j, walk chain.getHeaderByHash Header.parentHash i x ≠
      walk chain.getHeaderByHash Header.parentHash i y)
    {fuel : ℕ} (hj : j ≤ fuel) (lowerPath higherPath : List Hash) :
    descend chain fuel x y lowerPath higherPath =
      .ok (w, lowerPath ++ (trail chain.getHeaderByHash Header.parentHash j x).tail,
        higherPath ++ (trail chain.getHeaderByHash Header.parentHash j y).tail) := by
  induction j generalizing x y fuel lowerPath higherPath with
  | zero =>
    cases hx
    cases hy
    unfold descend
    rw [if_pos rfl]
    simp [trail]
  | succ j ih =>
    have hne : x ≠ y := fun hxy => hfirst 0 (Nat.succ_pos j) (by rw [hxy])
    rw [walk_succ] at hx hy
    obtain ⟨bx, hbx, hx⟩ := Option.bind_eq_some_iff.1 hx
    obtain ⟨by', hby, hy⟩ := Option.bind_eq_some_iff.1 hy
    obtain ⟨fuel, rfl⟩ := Nat.exists_eq_succ_of_ne_zero (by omega : fuel ≠ 0)
    have hfirst' : ∀ i < j, walk chain.getHeaderByHash Header.parentHash i bx.parentHash ≠
        walk chain.getHeaderByHash Header.parentHash i by'.parentHash := fun i hi heq =>
      hfirst (i + 1) (Nat.succ_lt_succ hi) (by rw [walk_succ, walk_succ, hbx, hby]; exact heq)
    unfold descend
    rw [if_neg hne]
    simp only [hbx, hby]
    rw [ih hx hy hfirst' (by omega), trail_succ_of_get hbx, trail_succ_of_get hby, List.tail_cons,
      List.tail_cons, List.append_assoc, List.append_assoc, List.singleton_append,
      List.singleton_append, ← trail_eq_cons, ← trail_eq_cons]

variable (hn : Numbered chain.getHeaderByHash Header.parentHash Header.number)
include hn

/-- **Ordered by number, the two loops end at the lowest common ancestor**, with the trails of
the two walks to it. -/
theorem climb_descend_of_le {lo hi : BlockInfo} {hL hH : Header}
    (hls : chain.getHeaderByHash lo.hash = some hL) (hln : hL.number = lo.number)
    (hhs : chain.getHeaderByHash hi.hash = some hH) (hhn : hH.number = hi.number)
    (hle : lo.number ≤ hi.number)
    (hz : ∃ z, (chain.getHeaderByHash z).isSome ∧
      AncestorOrSelf chain.getHeaderByHash Header.parentHash z lo.hash ∧
      AncestorOrSelf chain.getHeaderByHash Header.parentHash z hi.hash) :
    ∃ A j y, climb chain (hi.number - lo.number) hi.hash [hi.hash] =
        .ok (y, trail chain.getHeaderByHash Header.parentHash (hi.number - lo.number) hi.hash) ∧
      descend chain (lo.number + 1) lo.hash y [lo.hash]
          (trail chain.getHeaderByHash Header.parentHash (hi.number - lo.number) hi.hash) =
        .ok (A, trail chain.getHeaderByHash Header.parentHash j lo.hash,
          trail chain.getHeaderByHash Header.parentHash (hi.number - lo.number + j) hi.hash) ∧
      walk chain.getHeaderByHash Header.parentHash j lo.hash = some A ∧
      walk chain.getHeaderByHash Header.parentHash (hi.number - lo.number + j) hi.hash = some A ∧
      IsLowestCommonAncestor chain.getHeaderByHash Header.parentHash A lo.hash hi.hash := by
  have hxy : hL.number + (hi.number - lo.number) = hH.number := by omega
  obtain ⟨j, A, hj, hlo, hhi, hfirst⟩ := exists_first_meet hn hls hhs hxy hz
  -- the first loop ends at `y`, from where the higher walk goes on as the lower one's partner
  rw [walk_add] at hhi
  obtain ⟨y, hy, hyA⟩ := Option.bind_eq_some_iff.1 hhi
  have hfirst' : ∀ i < j, walk chain.getHeaderByHash Header.parentHash i lo.hash ≠
      walk chain.getHeaderByHash Header.parentHash i y := fun i hi heq =>
    hfirst i hi (by rw [heq, walk_add, hy, Option.bind_some])
  refine ⟨A, j, y, ?_, ?_, hlo, by rw [walk_add, hy, Option.bind_some, hyA], ?_⟩
  · rw [climb_of_walk hy, List.singleton_append, ← trail_eq_cons]
  · rw [descend_of_meet hlo hyA hfirst' (by omega), List.singleton_append, ← trail_eq_cons,
      trail_add hy]
  · exact isLowestCommonAncestor_of_first_meet hn hls hhs hxy hlo
      (by rw [walk_add, hy, Option.bind_some, hyA]) hfirst

end Loops

/-- **`FindAncestorBlockHash` finds the lowest common ancestor and both paths.**  Over headers
numbered one above their parents, for two block infos naming stored headers of their numbers
with a stored common ancestor, it returns their lowest common ancestor and, in argument order,
the hash paths from it to each block. -/
theorem findAncestorBlockHash_lowestCommonAncestor {chain : ChainReader}
    (hn : Numbered chain.getHeaderByHash Header.parentHash Header.number)
    {first second : BlockInfo} {h1 h2 : Header}
    (h1s : chain.getHeaderByHash first.hash = some h1) (h1n : h1.number = first.number)
    (h2s : chain.getHeaderByHash second.hash = some h2) (h2n : h2.number = second.number)
    (hz : ∃ z, (chain.getHeaderByHash z).isSome ∧
      AncestorOrSelf chain.getHeaderByHash Header.parentHash z first.hash ∧
      AncestorOrSelf chain.getHeaderByHash Header.parentHash z second.hash) :
    ∃ A p1 p2, Forensics.findAncestorBlockHash chain first second = .ok (A, p1, p2) ∧
      IsLowestCommonAncestor chain.getHeaderByHash Header.parentHash A first.hash second.hash ∧
      IsPath chain.getHeaderByHash Header.parentHash p1 A first.hash ∧
      IsPath chain.getHeaderByHash Header.parentHash p2 A second.hash := by
  by_cases hs : second.number < first.number
  · -- the second block is the lower one: the paths come back swapped
    obtain ⟨A, j, y, hclimb, hdescend, hlo, hhi, hlca⟩ := climb_descend_of_le hn h2s h2n h1s h1n
      hs.le ⟨hz.choose, hz.choose_spec.1, hz.choose_spec.2.2, hz.choose_spec.2.1⟩
    refine ⟨A, _, _, ?_, hlca.symm, isPath_reverse_trail hhi, isPath_reverse_trail hlo⟩
    simp only [Forensics.findAncestorBlockHash, decide_eq_true hs, if_true, hclimb, bind,
      Except.bind, hdescend, reverse_eq]
    rfl
  · obtain ⟨A, j, y, hclimb, hdescend, hlo, hhi, hlca⟩ := climb_descend_of_le hn h1s h1n h2s h2n
      (Nat.le_of_not_lt hs) hz
    refine ⟨A, _, _, ?_, hlca, isPath_reverse_trail hlo, isPath_reverse_trail hhi⟩
    simp only [Forensics.findAncestorBlockHash, decide_eq_false hs, Bool.false_eq_true, if_false,
      hclimb, bind, Except.bind, hdescend, reverse_eq]
    rfl

theorem findAncestorBlockHash_lowestCommonAncestor_forked :
    Numbered forkedChain.getHeaderByHash Header.parentHash Header.number ∧
      forkedChain.getHeaderByHash sampleBlockInfo2.hash = some sampleBlock2 ∧
      sampleBlock2.number = sampleBlockInfo2.number ∧
      forkedChain.getHeaderByHash forkBlockInfo1.hash = some forkBlock1 ∧
      forkBlock1.number = forkBlockInfo1.number ∧
      (∃ z, (forkedChain.getHeaderByHash z).isSome ∧
        AncestorOrSelf forkedChain.getHeaderByHash Header.parentHash z sampleBlockInfo2.hash ∧
        AncestorOrSelf forkedChain.getHeaderByHash Header.parentHash z forkBlockInfo1.hash) ∧
      ∃ A p1 p2, Forensics.findAncestorBlockHash forkedChain sampleBlockInfo2 forkBlockInfo1 =
          .ok (A, p1, p2) ∧
        IsLowestCommonAncestor forkedChain.getHeaderByHash Header.parentHash A
          sampleBlockInfo2.hash forkBlockInfo1.hash ∧
        IsPath forkedChain.getHeaderByHash Header.parentHash p1 A sampleBlockInfo2.hash ∧
        IsPath forkedChain.getHeaderByHash Header.parentHash p2 A forkBlockInfo1.hash := by
  have h2 : forkedChain.getHeaderByHash sampleBlockInfo2.hash = some sampleBlock2 := by
    decide +kernel
  have hf : forkedChain.getHeaderByHash forkBlockInfo1.hash = some forkBlock1 := by
    decide +kernel
  -- the genesis block is below both
  have hz : ∃ z, (forkedChain.getHeaderByHash z).isSome ∧
      AncestorOrSelf forkedChain.getHeaderByHash Header.parentHash z sampleBlockInfo2.hash ∧
      AncestorOrSelf forkedChain.getHeaderByHash Header.parentHash z forkBlockInfo1.hash :=
    ⟨Crypto.tagged.headerHash sampleGenesis, by decide +kernel,
      walk_ancestorOrSelf (k := 2) (by decide +kernel),
      walk_ancestorOrSelf (k := 1) (by decide +kernel)⟩
  exact ⟨forkedChain_numbered, h2, rfl, hf, rfl, hz,
    findAncestorBlockHash_lowestCommonAncestor forkedChain_numbered h2 rfl hf rfl hz⟩

example : Forensics.findAncestorBlockHash forkedChain sampleBlockInfo2 forkBlockInfo1 =
    .ok (Crypto.tagged.headerHash sampleGenesis,
      [Crypto.tagged.headerHash sampleGenesis, Crypto.tagged.headerHash sampleBlock1,
        sampleBlockInfo2.hash],
      [Crypto.tagged.headerHash sampleGenesis, forkBlockInfo1.hash]) := by
  decide +kernel

end XdcSubnet.EngineV2
