import XdcSubnet.Core.OrderTxList

/-!
# The loops of the nonce-sorted map

`Forward` and `Ready` pop the heap's least nonce on every pass.  The least nonce is the heap's
root, and popping it leaves the rest of the sorted nonces (`BinaryHeap.insertionSort_eq_pop`):
so the nonces the loop has taken, and then the heap sorted, are the sorted nonces it started
from (`Taken`).  `Cap` sorts the heap and drops the items at its positions from the last down
(`Dropped`).  Each loop is run by `Loop.run_total`, with the heap's length or `size` as its
measure, and read off the items sorted by nonce (`KeyedMap.sortedValues`):

* `forward_spec`: `Forward(t)` returns the items of nonce below `t`, in increasing order, and
  keeps the rest;
* `cap_spec`: `Cap(n)` returns the items past the `n` of least nonce, from the greatest nonce
  down, and keeps those `n`;
* `ready_spec`: `Ready(start)` returns nothing when the least nonce is past `start`, and else the
  run of consecutive nonces from the least (`readyRun`), and keeps the rest.

Each keeps the invariant, and so every map that the functions reach has it
(`Reachable.inv`).
-/

namespace XdcSubnet.Core

open Loop KeyedMap

namespace OrdertxSortedMap

variable {τ : Type} {txNonce : τ → ℕ}

/-! ### Taking the least nonces -/

/-- What the loops of `Forward` and `Ready` keep, having taken the nonces `P` out of the map
`items₀`: the heap is a heap of the nonces left, `P` and then the heap sorted are the nonces at
the start, the map is the start's off `P`, and the items taken are `P`'s. -/
structure Taken (items₀ : AList fun _ : ℕ => τ) (P : List ℕ) (s : Taking τ) : Prop where
  heap : BinaryHeap.IsHeap 0 s.index
  index_perm : s.index.Perm s.items.keys
  split : P ++ s.index.insertionSort (· ≤ ·) = sortedKeys items₀
  lookup : ∀ k, s.items.lookup k = if k ∈ P then none else items₀.lookup k
  taken : s.taken = P.map items₀.lookup

section Taken

variable {items₀ : AList fun _ : ℕ => τ} {P : List ℕ} {s : Taking τ}

theorem Taken.start {m : OrdertxSortedMap τ} (hm : Inv txNonce m) :
    Taken m.items [] ⟨m.index, m.items, []⟩ where
  heap := hm.heap
  index_perm := hm.index_perm
  split := insertionSort_eq_sortedKeys hm.index_perm
  lookup := by simp
  taken := rfl

/-- **A pass that pops the least nonce** takes it next, and shortens the heap. -/
theorem Taken.popLeast (h : Taken items₀ P s) (hne : 0 < s.index.length) :
    Taken items₀ (P ++ [s.index.getD 0 0]) s.popLeast ∧
      s.popLeast.index.length < s.index.length := by
  have hne' : s.index ≠ [] := List.ne_nil_of_length_pos hne
  obtain ⟨hheap, hroot, hperm⟩ := BinaryHeap.isHeap_pop h.heap hne'
  have hsorted := BinaryHeap.insertionSort_eq_pop h.heap hne'
  set x := (BinaryHeap.pop 0 s.index).1 with hx
  have hpass : s.popLeast =
      ⟨(BinaryHeap.pop 0 s.index).2, s.items.erase x, s.taken ++ [s.items.lookup x]⟩ := rfl
  have hxkey : x ∈ s.items.keys := h.index_perm.subset (hperm.subset (List.mem_cons_self ..))
  -- the popped nonce was not taken before: the nonces at the start are distinct
  have hxP : x ∉ P := by
    have hnodup := (sortedKeys_pairwise items₀).nodup
    rw [← h.split, hsorted, List.nodup_append] at hnodup
    exact fun hxP => hnodup.2.2 x hxP x (List.mem_cons_self ..) rfl
  rw [← hroot, hpass]
  refine ⟨⟨hheap, ?_, ?_, fun k => ?_, ?_⟩, ?_⟩
  · rw [AList.keys_erase]
    exact ((hperm.trans h.index_perm).trans (List.perm_cons_erase hxkey)).cons_inv
  · rw [List.append_assoc, List.singleton_append, ← hsorted]
    exact h.split
  · by_cases hk : k = x
    · rw [hk, AList.lookup_erase, if_pos (List.mem_append_right _ (List.mem_singleton_self _))]
    · rw [AList.lookup_erase_ne hk, h.lookup k]
      simp [hk]
  · rw [h.taken, List.map_append, h.lookup x, if_neg hxP]
    rfl
  · have := hperm.length_eq
    simp only [List.length_cons] at this
    show (BinaryHeap.pop 0 s.index).2.length < s.index.length
    omega

/-- `Ready`'s pass at the heap's least nonce is `Forward`'s. -/
theorem Taking.takeNext_eq (h : BinaryHeap.IsHeap 0 s.index) (hne : 0 < s.index.length) :
    s.takeNext (s.index.getD 0 0) = s.popLeast := by
  obtain ⟨-, hroot, -⟩ := BinaryHeap.isHeap_pop h (List.ne_nil_of_length_pos hne)
  unfold Taking.takeNext Taking.popLeast
  dsimp only
  rw [hroot]

theorem Taken.sortedKeys_eq (h : Taken items₀ P s) : P ++ sortedKeys s.items = sortedKeys items₀ := by
  rw [← insertionSort_eq_sortedKeys h.index_perm]
  exact h.split

/-- The items sorted by nonce at the start are those taken, then those left. -/
theorem Taken.sortedValues_start (h : Taken items₀ P s) :
    sortedValues items₀ = P.filterMap items₀.lookup ++ sortedValues s.items := by
  rw [sortedValues_append h.sortedKeys_eq.symm, sortedValues_of_lookup h.lookup]

theorem Taken.length_filterMap (h : Taken items₀ P s) : (P.filterMap items₀.lookup).length = P.length :=
  length_filterMap_lookup fun _ hk => mem_sortedKeys.1
    (h.sortedKeys_eq ▸ List.mem_append_left _ hk)

/-- The map a loop leaves, with its heap and a cache that is its items sorted, keeps the
invariant. -/
theorem Taken.inv {m : OrdertxSortedMap τ} (h : Taken m.items P s) (hm : Inv txNonce m)
    {cache : Option (List τ)} (hcache : ∀ c, cache = some c → c = sortedValues s.items) :
    Inv txNonce ⟨s.items, s.index, cache⟩ where
  heap := h.heap
  index_perm := h.index_perm
  keyed := Keyed.of_lookup hm.keyed h.lookup
  cache := hcache

/-- The root is at most every nonce left. -/
theorem Taken.root_le (h : Taken items₀ P s) {k : ℕ}
    (hk : k ∈ s.items.keys) : s.index.getD 0 0 ≤ k :=
  h.heap.root_le (h.index_perm.symm.subset hk)

/-- The least nonce left is the heap's root. -/
theorem Taken.sortedKeys_head (h : Taken items₀ P s) (hne : 0 < s.index.length) :
    (sortedKeys s.items).head? = some (s.index.getD 0 0) := by
  obtain ⟨-, hroot, -⟩ := BinaryHeap.isHeap_pop h.heap (List.ne_nil_of_length_pos hne)
  rw [← insertionSort_eq_sortedKeys h.index_perm, BinaryHeap.insertionSort_eq_pop h.heap
    (List.ne_nil_of_length_pos hne), hroot]
  rfl

theorem Taken.sortedKeys_eq_nil (h : Taken items₀ P s) (hempty : s.index.length = 0) :
    sortedKeys s.items = [] := by
  rw [← insertionSort_eq_sortedKeys h.index_perm, List.eq_nil_of_length_eq_zero hempty]
  rfl

end Taken

variable {m : OrdertxSortedMap τ}

/-- Filtering the sorted values by nonce filters their nonces. -/
theorem map_nonce_filter (l : List τ) (p : ℕ → Bool) :
    (l.filter fun tx => p (txNonce tx)).map txNonce = (l.map txNonce).filter p := by
  rw [List.filter_map]
  rfl

/-! ### `Forward` -/

/-- **`Forward`'s loop finishes**, having taken the nonces below `threshold` and left those at or
above it. -/
theorem forward_run (hm : Inv txNonce m) (threshold : ℕ) :
    ∃ s P, run (fun s : Taking τ => decide (0 < s.index.length) && decide (s.index.getD 0 0 < threshold))
        (fun s => (some (.next s.popLeast) : Option (Pass Empty (Taking τ))))
        (m.index.length + 1) ⟨m.index, m.items, []⟩ = some (.ok s) ∧
      Taken m.items P s ∧ (∀ k ∈ P, k < threshold) ∧ ∀ k ∈ s.items.keys, threshold ≤ k := by
  let I : Taking τ → Prop := fun s => ∃ P, Taken m.items P s ∧ ∀ k ∈ P, k < threshold
  let Q : Taking τ → Prop := fun s => I s ∧ ∀ k ∈ s.items.keys, threshold ≤ k
  -- the loop stops at an empty heap, or at a least nonce at or above `threshold`
  have hdone : ∀ s : Taking τ, I s →
      (decide (0 < s.index.length) && decide (s.index.getD 0 0 < threshold)) = false → Q s := by
    rintro s ⟨P, htaken, hbelow⟩ hc
    refine ⟨⟨P, htaken, hbelow⟩, fun k hk => ?_⟩
    simp only [Bool.and_eq_false_iff, decide_eq_false_iff_not, not_lt] at hc
    rcases hc with hempty | hge
    · have := htaken.sortedKeys_eq_nil (by omega)
      rw [← mem_sortedKeys, this] at hk
      cases hk
    · exact hge.trans (htaken.root_le hk)
  -- a pass pops a nonce below `threshold`, shortening the heap
  have hstep : ∀ s : Taking τ, I s →
      (decide (0 < s.index.length) && decide (s.index.getD 0 0 < threshold)) = true →
      ∃ p, (some (.next s.popLeast) : Option (Pass Empty (Taking τ))) = some p ∧
        p.Holds (fun s' => I s' ∧ s'.index.length < s.index.length) Q fun _ _ => False := by
    rintro s ⟨P, htaken, hbelow⟩ hc
    simp only [Bool.and_eq_true, decide_eq_true_eq] at hc
    obtain ⟨hpass, hshorter⟩ := htaken.popLeast hc.1
    refine ⟨_, rfl, ⟨P ++ [s.index.getD 0 0], hpass, fun k hk => ?_⟩, hshorter⟩
    rcases List.mem_append.1 hk with hk | hk
    · exact hbelow k hk
    · rw [List.mem_singleton.1 hk]
      exact hc.2
  obtain ⟨r, hrun, hend⟩ := run_total I Q (fun _ _ => False) (fun s => s.index.length) hdone
    hstep ⟨[], Taken.start hm, by simp⟩ (Nat.lt_succ_self _)
  rcases r with ⟨e, _⟩ | s
  · exact e.elim
  · obtain ⟨⟨P, htaken, hbelow⟩, habove⟩ := hend
    exact ⟨s, P, hrun, htaken, hbelow, habove⟩

/-- **`Forward(threshold)` returns the items of nonce below `threshold`, in increasing order of
nonce**, and keeps the rest and the invariant. -/
theorem forward_spec (hm : Inv txNonce m) (threshold : ℕ) :
    ∃ m', m.forward threshold =
        some (((sortedValues m.items).filter fun tx => txNonce tx < threshold).map some, m') ∧
      Inv txNonce m' ∧
      sortedValues m'.items = (sortedValues m.items).filter fun tx => threshold ≤ txNonce tx := by
  obtain ⟨s, P, hrun, htaken, hbelow, habove⟩ := forward_run hm threshold
  have hA : (sortedValues m.items).map txNonce = P ++ sortedKeys s.items := by
    rw [sortedValues_map_key hm.keyed, htaken.sortedKeys_eq]
  have hmem : ∀ (q : τ → Bool), ∀ tx ∈ (sortedValues m.items).filter q,
      tx ∈ sortedValues m.items := fun _ _ h => List.mem_of_mem_filter h
  -- the nonces taken are those below `threshold`, the nonces left those at or above it
  have hP : P = ((sortedValues m.items).filter fun tx => txNonce tx < threshold).map txNonce := by
    rw [map_nonce_filter _ fun k => decide (k < threshold), hA, List.filter_append,
      List.filter_eq_self.2 fun k hk => decide_eq_true (hbelow k hk),
      List.filter_eq_nil_iff.2 fun k hk => by simpa using habove k (mem_sortedKeys.1 hk),
      List.append_nil]
  have hR : sortedKeys s.items =
      ((sortedValues m.items).filter fun tx => threshold ≤ txNonce tx).map txNonce := by
    rw [map_nonce_filter _ fun k => decide (threshold ≤ k), hA, List.filter_append,
      List.filter_eq_nil_iff.2 fun k hk => by simpa using hbelow k hk,
      List.filter_eq_self.2 fun k hk => decide_eq_true (habove k (mem_sortedKeys.1 hk)),
      List.nil_append]
  refine ⟨⟨s.items, s.index, m.cache.map (·.drop s.taken.length)⟩, ?_, htaken.inv hm ?_, ?_⟩
  · simp only [OrdertxSortedMap.forward, hrun, Option.map_some, final]
    rw [htaken.taken, hP, map_lookup_map_key hm.keyed (hmem _)]
  · -- the cache loses as many items off its front as were taken
    intro c hc
    obtain ⟨c₀, hc₀, rfl⟩ := Option.map_eq_some_iff.1 hc
    rw [hm.cache c₀ hc₀, htaken.sortedValues_start, htaken.taken, List.length_map,
      ← htaken.length_filterMap, List.drop_left]
  · rw [sortedValues_of_lookup htaken.lookup, hR, filterMap_lookup_map_key hm.keyed (hmem _)]

/-! ### `Ready` -/

variable (txNonce) in
/-- What `Ready(start)` takes, read off the items sorted by nonce: nothing when the least nonce is
past `start`, else the run of consecutive nonces from the least. -/
def readyRun (start : ℕ) : List τ → List τ
  | [] => []
  | tx :: txs => if start < txNonce tx then [] else leadingRun txNonce (txNonce tx) (tx :: txs)

/-- **`Ready`'s loop finishes** from the least nonce `first`, having taken the nonces from `first`
on up to the first one missing. -/
theorem ready_run (hm : Inv txNonce m) :
    let first := m.index.getD 0 0
    ∃ next s, run (fun s : ℕ × Taking τ =>
          decide (0 < s.2.index.length) && decide (s.2.index.getD 0 0 = s.1))
        (fun s => (some (.next (s.1 + 1, s.2.takeNext s.1)) : Option (Pass Empty (ℕ × Taking τ))))
        (m.index.length + 1) (first, ⟨m.index, m.items, []⟩) = some (.ok (next, s)) ∧
      first ≤ next ∧ Taken m.items (List.range' first (next - first)) s ∧
      ∀ k ∈ (sortedKeys s.items).head?, k ≠ next := by
  intro first
  let I : ℕ × Taking τ → Prop := fun s =>
    first ≤ s.1 ∧ Taken m.items (List.range' first (s.1 - first)) s.2
  let Q : ℕ × Taking τ → Prop := fun s => I s ∧ ∀ k ∈ (sortedKeys s.2.items).head?, k ≠ s.1
  -- the loop stops at an empty heap, or at a least nonce that is not the next one
  have hdone : ∀ s : ℕ × Taking τ, I s →
      (decide (0 < s.2.index.length) && decide (s.2.index.getD 0 0 = s.1)) = false → Q s := by
    rintro ⟨next, s⟩ ⟨hle, htaken⟩ hc
    refine ⟨⟨hle, htaken⟩, fun k hk => ?_⟩
    dsimp only at hc hk htaken ⊢
    simp only [Bool.and_eq_false_iff, decide_eq_false_iff_not, not_lt] at hc
    rcases hc with hempty | hne'
    · rw [htaken.sortedKeys_eq_nil (by omega)] at hk
      cases hk
    · rw [htaken.sortedKeys_head (by
        rcases Nat.eq_zero_or_pos s.index.length with h0 | h0
        · rw [htaken.sortedKeys_eq_nil h0] at hk
          cases hk
        · exact h0)] at hk
      rw [← Option.mem_some_iff.1 hk]
      exact hne'
  -- a pass takes the next nonce, which is the heap's least
  have hstep : ∀ s : ℕ × Taking τ, I s →
      (decide (0 < s.2.index.length) && decide (s.2.index.getD 0 0 = s.1)) = true →
      ∃ p, (some (.next (s.1 + 1, s.2.takeNext s.1)) : Option (Pass Empty (ℕ × Taking τ))) =
          some p ∧
        p.Holds (fun s' => I s' ∧ s'.2.index.length < s.2.index.length) Q fun _ _ => False := by
    rintro ⟨next, s⟩ ⟨hle, htaken⟩ hc
    simp only [Bool.and_eq_true, decide_eq_true_eq] at hc
    obtain ⟨hpass, hshorter⟩ := htaken.popLeast hc.1
    have hnext : s.takeNext next = s.popLeast := by
      rw [← hc.2]
      exact Taking.takeNext_eq htaken.heap hc.1
    refine ⟨_, rfl, ⟨Nat.le_succ_of_le hle, ?_⟩, by rw [hnext]; exact hshorter⟩
    have hrange : List.range' first (next + 1 - first) =
        List.range' first (next - first) ++ [s.index.getD 0 0] := by
      rw [show next + 1 - first = next - first + 1 by omega, List.range'_concat, hc.2]
      congr 2
      omega
    rw [hnext, hrange]
    exact hpass
  have hinit : I (first, ⟨m.index, m.items, []⟩) := ⟨le_rfl, by simpa using Taken.start hm⟩
  obtain ⟨r, hrun, hend⟩ := run_total I Q (fun _ _ => False) (fun s => s.2.index.length) hdone
    hstep hinit (Nat.lt_succ_self _)
  rcases r with ⟨e, _⟩ | ⟨next, s⟩
  · exact e.elim
  · obtain ⟨⟨hle, htaken⟩, hhead⟩ := hend
    exact ⟨next, s, hrun, hle, htaken, hhead⟩

/-- The item of least nonce heads the items sorted by nonce. -/
theorem sortedValues_head (hm : Inv txNonce m) (hne : 0 < m.index.length) :
    ∃ tx txs, sortedValues m.items = tx :: txs ∧ txNonce tx = m.index.getD 0 0 := by
  have hhead := (Taken.start hm).sortedKeys_head hne
  rw [← sortedValues_map_key hm.keyed] at hhead
  rcases hvals : sortedValues m.items with _ | ⟨tx, txs⟩
  · rw [hvals] at hhead
    cases hhead
  · rw [hvals] at hhead
    exact ⟨tx, txs, rfl, Option.some.inj hhead⟩

/-- **`Ready(start)` returns nothing when the least nonce is past `start`, and else the run of
consecutive nonces from the least**, keeping the rest and the invariant. -/
theorem ready_spec (hm : Inv txNonce m) (start : ℕ) :
    ∃ m', m.ready start = some ((readyRun txNonce start (sortedValues m.items)).map some, m') ∧
      Inv txNonce m' ∧
      sortedValues m'.items =
        (sortedValues m.items).drop (readyRun txNonce start (sortedValues m.items)).length := by
  have hA : (sortedValues m.items).map txNonce = sortedKeys m.items := sortedValues_map_key hm.keyed
  by_cases hearly : m.index.length = 0 ∨ start < m.index.getD 0 0
  · -- nothing is ready: the map is left as it was
    have hnone : readyRun txNonce start (sortedValues m.items) = [] := by
      rcases hearly with hempty | hpast
      · have hnil := (Taken.start hm).sortedKeys_eq_nil hempty
        rw [← hA, List.map_eq_nil_iff] at hnil
        rw [hnil]
        rfl
      · have hne : 0 < m.index.length := by
          rcases Nat.eq_zero_or_pos m.index.length with h0 | h0
          · simp [List.eq_nil_of_length_eq_zero h0] at hpast
          · exact h0
        obtain ⟨tx, txs, hvals, htx⟩ := sortedValues_head hm hne
        rw [hvals, readyRun, if_pos (htx ▸ hpast)]
    refine ⟨m, ?_, hm, by rw [hnone]; rfl⟩
    rw [hnone, OrdertxSortedMap.ready, if_pos hearly]
    rfl
  · -- the loop runs from the least nonce
    have hne : 0 < m.index.length := by omega
    have hle : m.index.getD 0 0 ≤ start := by omega
    obtain ⟨next, s, hrun, hfirst, htaken, hhead⟩ := ready_run hm
    set first := m.index.getD 0 0 with hfirst_eq
    set P := List.range' first (next - first) with hP
    have hkeys : P ++ sortedKeys s.items = sortedKeys m.items := htaken.sortedKeys_eq
    -- the nonces taken are the leading run from the least
    have hrun_keys : leadingRun id first (sortedKeys m.items) = P := by
      rw [← hkeys]
      exact leadingRun_range'_append first (next - first) fun k hk => by
        rw [Nat.add_sub_cancel' hfirst]
        exact hhead k hk
    obtain ⟨tx, txs, hvals, htx⟩ := sortedValues_head hm hne
    have hready : readyRun txNonce start (sortedValues m.items) =
        leadingRun txNonce first (sortedValues m.items) := by
      rw [hvals, readyRun, if_neg (by omega), htx]
    have hPrun : P = (leadingRun txNonce first (sortedValues m.items)).map txNonce := by
      rw [← leadingRun_map, hA, hrun_keys]
    have hmem : ∀ v ∈ leadingRun txNonce first (sortedValues m.items), v ∈ sortedValues m.items :=
      fun v hv => (leadingRun_isPrefix first _).subset hv
    refine ⟨⟨s.items, s.index, none⟩, ?_, htaken.inv hm (fun c h => by cases h), ?_⟩
    · rw [OrdertxSortedMap.ready, if_neg hearly, hrun]
      simp only [Option.map_some, final]
      rw [hready, htaken.taken, hPrun, map_lookup_map_key hm.keyed hmem]
    · show sortedValues s.items = _
      rw [hready, ← List.length_map txNonce, ← hPrun, htaken.sortedValues_start,
        ← htaken.length_filterMap, List.drop_left]

/-! ### `Cap` -/

/-- What `Cap`'s loop keeps, having dropped the items at the positions from `k` on of the sorted
nonces `S` out of the map `items₀`: `size` is `k`, the map is the start's off those nonces, and
the drops are their items from the last down. -/
structure Dropped (items₀ : AList fun _ : ℕ => τ) (S : List ℕ) (k : ℕ) (s : Capping τ) : Prop where
  size_eq : s.size = k
  le_length : k ≤ S.length
  lookup : ∀ n, s.items.lookup n = if n ∈ S.drop k then none else items₀.lookup n
  drops : s.drops = (S.drop k).reverse.map items₀.lookup

section Dropped

variable {items₀ : AList fun _ : ℕ => τ} {S : List ℕ} {k : ℕ} {s : Capping τ}

theorem Dropped.start {len : ℕ} (hlen : S.length = len) :
    Dropped items₀ S len ⟨len, items₀, []⟩ where
  size_eq := rfl
  le_length := hlen.ge
  lookup := by simp [← hlen]
  drops := by simp [← hlen]

/-- **A pass of `Cap`'s loop drops the item at the next position down.** -/
theorem Dropped.dropLast (h : Dropped items₀ S (k + 1) s) (hS : S.Nodup) :
    ∃ s', s.dropLast S = some s' ∧ Dropped items₀ S k s' := by
  have hk : k < S.length := h.le_length
  have hdrop : S.drop k = S[k] :: S.drop (k + 1) := List.drop_eq_getElem_cons hk
  -- the nonce dropped was not dropped before: the sorted nonces are distinct
  have hnew : S[k] ∉ S.drop (k + 1) := by
    have hnodup := hS.sublist (List.drop_sublist k S)
    rw [hdrop] at hnodup
    exact (List.nodup_cons.1 hnodup).1
  refine ⟨⟨s.size - 1, s.items.erase S[k], s.drops ++ [s.items.lookup S[k]]⟩, ?_, ?_⟩
  · have hpos : ¬s.size ≤ 0 := by
      rw [h.size_eq]
      omega
    have hidx : (s.size - 1).toNat = k := by
      rw [h.size_eq]
      omega
    rw [Capping.dropLast, if_neg hpos, hidx, List.getElem?_eq_getElem hk, Option.map_some]
  refine ⟨?_, hk.le, fun n => ?_, ?_⟩
  · show s.size - 1 = k
    rw [h.size_eq]
    omega
  · rw [hdrop]
    by_cases hn : n = S[k]
    · rw [hn, AList.lookup_erase, if_pos (List.mem_cons_self ..)]
    · rw [AList.lookup_erase_ne hn, h.lookup n]
      simp only [List.mem_cons, hn, false_or]
  · rw [h.drops, hdrop, List.reverse_cons, List.map_append, h.lookup, if_neg hnew]
    rfl

end Dropped

/-- **`Cap`'s loop finishes**, having dropped the items past the first `n` sorted nonces. -/
theorem cap_run (n : ℕ) (hn : n ≤ m.len) :
    ∃ s, run (fun s : Capping τ => decide ((n : ℤ) < s.size))
        (fun s => (s.dropLast (sortedKeys m.items)).map
          (Pass.next : Capping τ → Pass Empty (Capping τ)))
        (m.len + 1) ⟨m.len, m.items, []⟩ = some (.ok s) ∧
      Dropped m.items (sortedKeys m.items) n s := by
  let I : Capping τ → Prop := fun s => ∃ k, n ≤ k ∧ Dropped m.items (sortedKeys m.items) k s
  let Q : Capping τ → Prop := Dropped m.items (sortedKeys m.items) n
  -- the loop stops with `size` down to `n`
  have hdone : ∀ s : Capping τ, I s → decide ((n : ℤ) < s.size) = false → Q s := by
    rintro s ⟨k, hnk, hdrop⟩ hc
    have hsize := hdrop.size_eq
    simp only [decide_eq_false_iff_not, not_lt] at hc
    have hk : k = n := by omega
    show Dropped m.items (sortedKeys m.items) n s
    rw [← hk]
    exact hdrop
  -- a pass drops the item at position `size - 1`, lowering `size`
  have hstep : ∀ s : Capping τ, I s → decide ((n : ℤ) < s.size) = true →
      ∃ p, (s.dropLast (sortedKeys m.items)).map
          (Pass.next : Capping τ → Pass Empty (Capping τ)) = some p ∧
        p.Holds (fun s' => I s' ∧ s'.size.toNat < s.size.toNat) Q fun _ _ => False := by
    rintro s ⟨k, hnk, hdrop⟩ hc
    have hsize := hdrop.size_eq
    simp only [decide_eq_true_eq] at hc
    obtain ⟨k, rfl⟩ : ∃ k', k = k' + 1 := ⟨k - 1, by omega⟩
    obtain ⟨s', hs', hdrop'⟩ := hdrop.dropLast (sortedKeys_pairwise m.items).nodup
    refine ⟨.next s', by rw [hs', Option.map_some], ⟨⟨k, by omega, hdrop'⟩, ?_⟩⟩
    rw [hsize, hdrop'.size_eq]
    omega
  have hlen : (sortedKeys m.items).length = m.len := (sortedKeys_perm m.items).length_eq
  obtain ⟨r, hrun, hend⟩ := run_total I Q (fun _ _ => False) (fun s => s.size.toNat) hdone
    hstep ⟨m.len, hn, Dropped.start hlen⟩ (show (m.len : ℤ).toNat < m.len + 1 by simp)
  rcases r with ⟨e, _⟩ | s
  · exact e.elim
  · exact ⟨s, hrun, hend⟩

section Dropped

variable {n : ℕ} {s : Capping τ}

/-- The items left are the first `n` sorted by nonce. -/
theorem Dropped.sortedValues_eq (h : Dropped m.items (sortedKeys m.items) n s)
    (hm : Inv txNonce m) : sortedValues s.items = (sortedValues m.items).take n := by
  rw [sortedValues_of_lookup h.lookup, sortedKeys_of_lookup_drop h.lookup,
    ← sortedValues_map_key hm.keyed, ← List.map_take,
    filterMap_lookup_map_key hm.keyed fun _ hv => List.mem_of_mem_take hv]

/-- The drops are the items past the first `n` sorted by nonce, from the last down. -/
theorem Dropped.drops_eq (h : Dropped m.items (sortedKeys m.items) n s) (hm : Inv txNonce m) :
    s.drops = ((sortedValues m.items).drop n).reverse.map some := by
  rw [h.drops, ← sortedValues_map_key hm.keyed, ← List.map_drop, ← List.map_reverse,
    map_lookup_map_key hm.keyed fun _ hv => List.mem_of_mem_drop (List.mem_reverse.1 hv)]

/-- The map `Cap`'s loop leaves, with the first `n` sorted nonces as its heap and a cache that is
its items sorted, keeps the invariant. -/
theorem Dropped.inv (h : Dropped m.items (sortedKeys m.items) n s) (hm : Inv txNonce m)
    {cache : Option (List τ)} (hcache : ∀ c, cache = some c → c = sortedValues s.items) :
    Inv txNonce ⟨s.items, BinaryHeap.init 0 ((sortedKeys m.items).take n), cache⟩ where
  heap := (BinaryHeap.isHeap_init _).1
  index_perm := by
    refine (BinaryHeap.isHeap_init _).2.trans ?_
    rw [← sortedKeys_of_lookup_drop h.lookup]
    exact sortedKeys_perm s.items
  keyed := Keyed.of_lookup hm.keyed h.lookup
  cache := hcache

end Dropped

/-- **`Cap(n)` returns the items past the `n` of least nonce, from the greatest nonce down**, and
keeps those `n` and the invariant. -/
theorem cap_spec (hm : Inv txNonce m) (n : ℕ) :
    ∃ m', m.cap n = some ((((sortedValues m.items).drop n).reverse).map some, m') ∧
      Inv txNonce m' ∧ sortedValues m'.items = (sortedValues m.items).take n := by
  have hlen : (sortedValues m.items).length = m.len := by
    rw [← List.length_map txNonce, sortedValues_map_key hm.keyed,
      (sortedKeys_perm m.items).length_eq]
    rfl
  by_cases hsmall : (m.len : ℤ) ≤ n
  · -- at most `n` items: nothing is dropped
    refine ⟨m, ?_, hm, (List.take_of_length_le (by omega)).symm⟩
    rw [OrdertxSortedMap.cap, if_pos hsmall, List.drop_eq_nil_of_le (by omega)]
    rfl
  have hn : n ≤ m.len := by omega
  obtain ⟨s, hrun, hdrop⟩ := cap_run n hn
  have hvals := hdrop.sortedValues_eq hm
  have hdrops := hdrop.drops_eq hm
  refine ⟨⟨s.items, BinaryHeap.init 0 ((sortedKeys m.items).take n),
    m.cache.map fun c => c.take (c.length - s.drops.length)⟩, ?_, hdrop.inv hm ?_, hvals⟩
  · rw [OrdertxSortedMap.cap, if_neg hsmall]
    dsimp only
    rw [insertionSort_eq_sortedKeys hm.index_perm, hrun, Int.toNat_natCast]
    simp only [Option.map_some, final, hdrops]
  · -- the cache loses as many items off its back as were dropped
    intro c hc
    obtain ⟨c₀, hc₀, rfl⟩ := Option.map_eq_some_iff.1 hc
    rw [hm.cache c₀ hc₀, hvals, hdrops, List.length_map, List.length_reverse, List.length_drop,
      hlen]
    congr 1
    omega

/-- `Cap` with a negative `threshold` panics: its loop reaches position `-1`. -/
theorem cap_of_neg {threshold : ℤ} (h : threshold < 0) : m.cap threshold = none := by
  have hlarge : ¬(m.len : ℤ) ≤ threshold := by omega
  -- `size` never falls below zero, so the loop's test holds on every pass
  have hstuck : ∀ s : Capping τ, 0 ≤ s.size → decide (threshold < s.size) = true ∧
      ∀ p, (s.dropLast (m.index.insertionSort (· ≤ ·))).map
          (Pass.next : Capping τ → Pass Empty (Capping τ)) = some p →
        ∃ s', p = .next s' ∧ 0 ≤ s'.size := by
    intro s hs
    refine ⟨decide_eq_true (by omega), fun p hp => ?_⟩
    obtain ⟨s', hs', rfl⟩ := Option.map_eq_some_iff.1 hp
    unfold Capping.dropLast at hs'
    split_ifs at hs' with hpos
    obtain ⟨nonce, -, rfl⟩ := Option.map_eq_some_iff.1 hs'
    exact ⟨_, rfl, by dsimp only; omega⟩
  rw [OrdertxSortedMap.cap, if_neg hlarge]
  dsimp only
  rw [run_eq_none (fun s : Capping τ => 0 ≤ s.size) hstuck (Int.natCast_nonneg _)]
  rfl

/-! ### Reachable maps -/

/-- **Every call keeps the invariant.** -/
theorem Inv.step {m' : OrdertxSortedMap τ} (hm : Inv txNonce m) (h : Step txNonce m m') :
    Inv txNonce m' := by
  cases h with
  | put tx => exact hm.put tx
  | forward threshold hres =>
    obtain ⟨m'', hm'', hinv, -⟩ := forward_spec hm threshold
    obtain ⟨-, rfl⟩ := Prod.mk.inj (Option.some.inj (hres.symm.trans hm''))
    exact hinv
  | filter filter order _ _ hrebuild => exact hm.filter filter order hrebuild
  | cap threshold hres =>
    -- a negative `threshold` panics, so the call returned with one at least zero
    rcases lt_or_ge threshold 0 with hneg | hnonneg
    · rw [cap_of_neg hneg] at hres
      cases hres
    · obtain ⟨m'', hm'', hinv, -⟩ := cap_spec hm threshold.toNat
      rw [Int.toNat_of_nonneg hnonneg] at hm''
      obtain ⟨-, rfl⟩ := Prod.mk.inj (Option.some.inj (hres.symm.trans hm''))
      exact hinv
  | remove nonce => exact hm.remove nonce
  | ready start hres =>
    obtain ⟨m'', hm'', hinv, -⟩ := ready_spec hm start
    obtain ⟨-, rfl⟩ := Prod.mk.inj (Option.some.inj (hres.symm.trans hm''))
    exact hinv
  | flatten order horder => exact hm.flatten horder

theorem Reachable.inv (h : Reachable txNonce m) : Inv txNonce m := by
  induction h with
  | refl => exact inv_new
  | tail _ hstep ih => exact ih.step hstep

/-- **The representation invariant of the nonce-sorted map, and what it gives.**  In every map
that `Put`, `Forward`, `Filter`, `Cap`, `Remove`, `Ready` and `Flatten` reach, the heap is a heap
of exactly the map's nonces, each once, and the cache, when there is one, is the items sorted by
nonce.  `Forward(t)` returns the items of nonce below `t` in increasing order; `Cap(n)` returns
those past the `n` of least nonce and keeps those `n`; `Ready(start)` returns the run of
consecutive nonces from the least, or nothing when the least is past `start`, and keeps the
rest; `Flatten` returns the items sorted by nonce. -/
theorem ordertxSortedMap_invariant (m : OrdertxSortedMap τ) (h : Reachable txNonce m) :
    (BinaryHeap.IsHeap 0 m.index ∧ m.index.Perm m.items.keys ∧ m.index.Nodup ∧
      (∀ c, m.cache = some c → c = sortedValues m.items) ∧
      (sortedValues m.items).Perm (m.items.entries.map Sigma.snd) ∧
      (sortedValues m.items).Pairwise fun a b => txNonce a < txNonce b) ∧
    (∀ threshold : ℕ, ∃ m', m.forward threshold =
        some (((sortedValues m.items).filter fun tx => txNonce tx < threshold).map some, m') ∧
      sortedValues m'.items = (sortedValues m.items).filter fun tx => threshold ≤ txNonce tx) ∧
    (∀ n : ℕ, ∃ m', m.cap n = some (((sortedValues m.items).drop n).reverse.map some, m') ∧
      sortedValues m'.items = (sortedValues m.items).take n) ∧
    (∀ start : ℕ, ∃ m', m.ready start =
        some ((readyRun txNonce start (sortedValues m.items)).map some, m') ∧
      sortedValues m'.items =
        (sortedValues m.items).drop (readyRun txNonce start (sortedValues m.items)).length) ∧
    ∀ order : List (Σ _ : ℕ, τ), order.Perm m.items.entries →
      (m.flatten txNonce order).1 = sortedValues m.items := by
  have hm := h.inv
  refine ⟨⟨hm.heap, hm.index_perm, hm.index_perm.nodup_iff.2 m.items.keys_nodup, hm.cache,
    sortedValues_perm m.items, sortedValues_pairwise hm.keyed⟩, fun threshold => ?_, fun n => ?_,
    fun start => ?_, fun order horder => flatten_sorted hm horder⟩
  · obtain ⟨m', hres, -, hvals⟩ := forward_spec hm threshold
    exact ⟨m', hres, hvals⟩
  · obtain ⟨m', hres, -, hvals⟩ := cap_spec hm n
    exact ⟨m', hres, hvals⟩
  · obtain ⟨m', hres, -, hvals⟩ := ready_spec hm start
    exact ⟨m', hres, hvals⟩

/-- Two nonces put into a new map, `3` and then `1`: `Ready(1)` takes the item of nonce `1`
alone, as `2` is missing. -/
theorem ordertxSortedMap_invariant_ready :
    Reachable id ((newOrderTxSortedMap.put id 3).put id 1) ∧
      ∃ m', ((newOrderTxSortedMap.put id 3).put id 1).ready 1 = some ([some 1], m') := by
  have hreach : Reachable id ((newOrderTxSortedMap.put id 3).put id 1) :=
    .tail (.single (.put _ 3)) (.put _ 1)
  obtain ⟨m', hres, -⟩ := (ordertxSortedMap_invariant _ hreach).2.2.2.1 1
  have hrun : readyRun id 1 (sortedValues ((newOrderTxSortedMap.put id 3).put id 1).items) = [1] := by
    decide
  refine ⟨hreach, m', ?_⟩
  rw [hres, hrun]
  rfl

end OrdertxSortedMap

end XdcSubnet.Core
