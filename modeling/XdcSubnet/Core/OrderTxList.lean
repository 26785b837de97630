import XdcSubnet.Lib.BinaryHeap
import XdcSubnet.Lib.KeyedMap
import XdcSubnet.Lib.Loop

/-!
# The nonce-sorted map of an account's order transactions

`ordertxSortedMap` keeps an account's order transactions by nonce: the map `items`, a min-heap
`index` of its nonces kept by `container/heap` (`Lib/BinaryHeap`), and `cache`, the items sorted
by nonce or `nil`.  Transactions are a type `τ` read only through `txNonce`, the model of
`tx.Nonce()`.  Nonces are `ℕ`: the `uint64` counter of `Ready` cannot wrap, since a run that
reaches the last nonce has taken every item.  Go's map iteration order is an argument of the
two functions that range over the map, `Filter` and `Flatten`; every statement holds for every
order.  Sorting (`sort.Sort`) is insertion sort, the one result there is on distinct nonces.

The representation invariant `Inv` says what the three views have in common: the heap holds
exactly the map's nonces, every item sits under its nonce, and the cache, when there is one, is
the items sorted by nonce (`KeyedMap.sortedValues`).  This module proves that `Put`, `Remove`,
`Filter` and `Flatten` keep it; the three loops are in `Core/OrderTxRuns`.
-/

namespace XdcSubnet.Core

open Loop KeyedMap

variable {τ : Type} (txNonce : τ → ℕ)

/-- `ordertxSortedMap`: the transactions by nonce, the heap of their nonces, and the cache of
the transactions sorted by nonce, `nil` being `none`. -/
structure OrdertxSortedMap (τ : Type) where
  items : AList fun _ : ℕ => τ
  index : List ℕ
  cache : Option (List τ)

/-- `newOrderTxSortedMap`. -/
def newOrderTxSortedMap : OrdertxSortedMap τ :=
  ⟨∅, [], none⟩

namespace OrdertxSortedMap

/-- `Get`. -/
def get (m : OrdertxSortedMap τ) (nonce : ℕ) : Option τ :=
  m.items.lookup nonce

/-- `Len`. -/
def len (m : OrdertxSortedMap τ) : ℕ :=
  m.items.keys.length

/-- `Put`: store `tx` under its nonce, pushing the nonce on the heap when it is new, and drop
the cache. -/
def put (m : OrdertxSortedMap τ) (tx : τ) : OrdertxSortedMap τ :=
  let nonce := txNonce tx
  { items := m.items.insert nonce tx
    index := if m.items.lookup nonce = none then BinaryHeap.push 0 m.index nonce else m.index
    cache := none }

/-- The state of the loops of `Forward` and `Ready`: the heap, the map, and the items taken
out. -/
structure Taking (τ : Type) where
  index : List ℕ
  items : AList fun _ : ℕ => τ
  taken : List (Option τ)

/-- A pass of `Forward`'s loop: pop the least nonce, take its item and delete it. -/
def Taking.popLeast (s : Taking τ) : Taking τ :=
  let popped := BinaryHeap.pop 0 s.index
  ⟨popped.2, s.items.erase popped.1, s.taken ++ [s.items.lookup popped.1]⟩

/-- A pass of `Ready`'s loop at `next`: take the item at `next`, delete it, and pop the heap. -/
def Taking.takeNext (next : ℕ) (s : Taking τ) : Taking τ :=
  ⟨(BinaryHeap.pop 0 s.index).2, s.items.erase next, s.taken ++ [s.items.lookup next]⟩

/-- `Forward`: pop and take out items while the heap's least nonce is below `threshold`, then
cut as many items off the front of the cache.  The loop pops one nonce a pass, so the heap's
length bounds it. -/
def forward (m : OrdertxSortedMap τ) (threshold : ℕ) :
    Option (List (Option τ) × OrdertxSortedMap τ) :=
  (run (fun s : Taking τ => decide (0 < s.index.length) && decide (s.index.getD 0 0 < threshold))
      (fun s => (some (.next s.popLeast) : Option (Pass Empty (Taking τ))))
      (m.index.length + 1) ⟨m.index, m.items, []⟩).map fun r =>
    let s := final r
    (s.taken, { items := s.items, index := s.index, cache := m.cache.map (·.drop s.taken.length) })

/-- The first loop of `Filter`, ranging over the map in the order `order`: delete every item
that `filter` holds of, collecting it. -/
def filterItems (m : OrdertxSortedMap τ) (filter : τ → Bool) (order : List (Σ _ : ℕ, τ)) :
    (AList fun _ : ℕ => τ) × List τ :=
  order.foldl (fun acc e => if filter e.2 then (acc.1.erase e.1, acc.2 ++ [e.2]) else acc)
    (m.items, [])

/-- `Filter`: delete the items `filter` holds of; when there are some, rebuild the heap from the
nonces left, ranged over in the order `rebuild`, and drop the cache. -/
def filter (m : OrdertxSortedMap τ) (filter : τ → Bool) (order : List (Σ _ : ℕ, τ))
    (rebuild : List ℕ) : List τ × OrdertxSortedMap τ :=
  let (items, removed) := m.filterItems filter order
  if 0 < removed.length then (removed, { items, index := BinaryHeap.init 0 rebuild, cache := none })
  else (removed, { m with items })

/-- The state of `Cap`'s loop: `size`, the map, and the items dropped. -/
structure Capping (τ : Type) where
  size : ℤ
  items : AList fun _ : ℕ => τ
  drops : List (Option τ)

/-- A pass of `Cap`'s loop over the sorted heap `index`: drop the item at `index[size - 1]`; a
position outside the slice panics. -/
def Capping.dropLast (index : List ℕ) (s : Capping τ) : Option (Capping τ) :=
  if s.size ≤ 0 then none
  else index[(s.size - 1).toNat]?.map fun nonce =>
    ⟨s.size - 1, s.items.erase nonce, s.drops ++ [s.items.lookup nonce]⟩

/-- `Cap`: with more than `threshold` items, sort the heap, drop the items at its positions from
the last down to `threshold`, keep its first `threshold` nonces as the heap, and cut as many
items off the back of the cache.  The loop drops one item a pass; a negative `threshold`
panics when the loop reaches position `-1`. -/
def cap (m : OrdertxSortedMap τ) (threshold : ℤ) : Option (List (Option τ) × OrdertxSortedMap τ) :=
  if (m.len : ℤ) ≤ threshold then some ([], m)
  else
    let index := m.index.insertionSort (· ≤ ·)
    (run (fun s : Capping τ => decide (threshold < s.size))
        (fun s => (s.dropLast index).map (Pass.next : Capping τ → Pass Empty (Capping τ)))
        (m.len + 1) ⟨m.len, m.items, []⟩).map fun r =>
      let s := final r
      (s.drops,
        { items := s.items
          index := BinaryHeap.init 0 (index.take threshold.toNat)
          cache := m.cache.map fun c => c.take (c.length - s.drops.length) })

/-- `Remove`: false when no item has the nonce; else delete it, remove its first position from
the heap, and drop the cache. -/
def remove (m : OrdertxSortedMap τ) (nonce : ℕ) : Bool × OrdertxSortedMap τ :=
  if m.items.lookup nonce = none then (false, m)
  else
    let index :=
      match m.index.findIdx? (· == nonce) with
      | some i => (BinaryHeap.remove 0 m.index i).2
      | none => m.index
    (true, { items := m.items.erase nonce, index, cache := none })

/-- `Ready`: nothing when the heap is empty or its least nonce is past `start`; else take out the
item at the least nonce and at each next nonce while the heap's least is that nonce, and drop
the cache.  The loop pops one nonce a pass. -/
def ready (m : OrdertxSortedMap τ) (start : ℕ) : Option (List (Option τ) × OrdertxSortedMap τ) :=
  if m.index.length = 0 ∨ start < m.index.getD 0 0 then some ([], m)
  else
    (run (fun s : ℕ × Taking τ => decide (0 < s.2.index.length) && decide (s.2.index.getD 0 0 = s.1))
        (fun s => (some (.next (s.1 + 1, s.2.takeNext s.1)) : Option (Pass Empty (ℕ × Taking τ))))
        (m.index.length + 1) (m.index.getD 0 0, ⟨m.index, m.items, []⟩)).map fun r =>
      let s := (final r).2
      (s.taken, { items := s.items, index := s.index, cache := none })

/-- `Flatten`, ranging over the map in the order `order`: the cache, made when there is none by
sorting the items by nonce. -/
def flatten (m : OrdertxSortedMap τ) (order : List (Σ _ : ℕ, τ)) : List τ × OrdertxSortedMap τ :=
  let cache := m.cache.getD ((order.map Sigma.snd).insertionSort fun a b => txNonce a ≤ txNonce b)
  (cache, { m with cache := some cache })

/-! ### The invariant -/

/-- The representation invariant: the heap is a heap of exactly the map's nonces, every item
sits under its nonce, and the cache, when there is one, is the items sorted by nonce. -/
structure Inv (m : OrdertxSortedMap τ) : Prop where
  heap : BinaryHeap.IsHeap 0 m.index
  index_perm : m.index.Perm m.items.keys
  keyed : Keyed txNonce m.items
  cache : ∀ c, m.cache = some c → c = sortedValues m.items

/-- One call of a function that changes the map; `order` and `rebuild` range over the map as Go
may. -/
inductive Step : OrdertxSortedMap τ → OrdertxSortedMap τ → Prop
  | put (m : OrdertxSortedMap τ) (tx : τ) : Step m (m.put txNonce tx)
  | forward (m : OrdertxSortedMap τ) (threshold : ℕ) {removed : List (Option τ)}
      {m' : OrdertxSortedMap τ} : m.forward threshold = some (removed, m') → Step m m'
  | filter (m : OrdertxSortedMap τ) (filter : τ → Bool) (order : List (Σ _ : ℕ, τ))
      (rebuild : List ℕ) : order.Perm m.items.entries →
      rebuild.Perm (m.filterItems filter order).1.keys → Step m (m.filter filter order rebuild).2
  | cap (m : OrdertxSortedMap τ) (threshold : ℤ) {drops : List (Option τ)}
      {m' : OrdertxSortedMap τ} : m.cap threshold = some (drops, m') → Step m m'
  | remove (m : OrdertxSortedMap τ) (nonce : ℕ) : Step m (m.remove nonce).2
  | ready (m : OrdertxSortedMap τ) (start : ℕ) {ready : List (Option τ)}
      {m' : OrdertxSortedMap τ} : m.ready start = some (ready, m') → Step m m'
  | flatten (m : OrdertxSortedMap τ) (order : List (Σ _ : ℕ, τ)) :
      order.Perm m.items.entries → Step m (m.flatten txNonce order).2

/-- The maps a new map becomes. -/
def Reachable (m : OrdertxSortedMap τ) : Prop :=
  Relation.ReflTransGen (Step txNonce) newOrderTxSortedMap m

variable {txNonce}

theorem inv_new : Inv txNonce (newOrderTxSortedMap : OrdertxSortedMap τ) where
  heap := BinaryHeap.isHeap_nil
  index_perm := by simp [newOrderTxSortedMap]
  keyed k v h := by simp [newOrderTxSortedMap] at h
  cache c h := by simp [newOrderTxSortedMap] at h

/-- **`Put` keeps the invariant.** -/
theorem Inv.put {m : OrdertxSortedMap τ} (hm : Inv txNonce m) (tx : τ) :
    Inv txNonce (m.put txNonce tx) := by
  refine ⟨?_, ?_, ?_, fun c h => by simp [OrdertxSortedMap.put] at h⟩
  · simp only [OrdertxSortedMap.put]
    split_ifs
    · exact (BinaryHeap.isHeap_push hm.heap _).1
    · exact hm.heap
  · simp only [OrdertxSortedMap.put, AList.keys_insert]
    split_ifs with hnew
    · -- a new nonce: pushed on the heap, added to the keys
      have hnot : txNonce tx ∉ m.items.keys := by
        rw [mem_keys_iff_lookup, hnew]
        exact Bool.false_ne_true
      rw [List.erase_of_not_mem hnot]
      exact (BinaryHeap.isHeap_push hm.heap _).2.trans
        ((List.perm_append_singleton _ _).trans (hm.index_perm.cons _))
    · -- an old nonce: the heap already holds it
      have hmem : txNonce tx ∈ m.items.keys := by
        rw [mem_keys_iff_lookup]
        exact Option.ne_none_iff_isSome.1 hnew
      exact hm.index_perm.trans (List.perm_cons_erase hmem)
  · exact Keyed.insert hm.keyed tx

/-- **`Remove` keeps the invariant.** -/
theorem Inv.remove {m : OrdertxSortedMap τ} (hm : Inv txNonce m) (nonce : ℕ) :
    Inv txNonce (m.remove nonce).2 := by
  unfold OrdertxSortedMap.remove
  split_ifs with hnone
  · exact hm
  have hmem : nonce ∈ m.index := hm.index_perm.mem_iff.2
    (mem_keys_iff_lookup.2 (Option.ne_none_iff_isSome.1 hnone))
  -- the heap holds the nonce: its first position is found
  obtain ⟨i, hi⟩ : ∃ i, m.index.findIdx? (· == nonce) = some i := by
    rcases h : m.index.findIdx? (· == nonce) with _ | i
    · rw [List.findIdx?_eq_none_iff] at h
      simpa using h nonce hmem
    · exact ⟨i, rfl⟩
  obtain ⟨hil, hat, -⟩ := List.findIdx?_eq_some_iff_getElem.1 hi
  have hnonce : m.index.getD i 0 = nonce := by
    rw [List.getD_eq_getElem _ _ hil]
    simpa using hat
  obtain ⟨hheap, hfirst, hperm⟩ := BinaryHeap.isHeap_remove hm.heap hil
  rw [hfirst, hnonce] at hperm
  refine ⟨?_, ?_, Keyed.erase hm.keyed nonce, fun c h => by simp at h⟩
  · simp only [hi]
    exact hheap
  · -- what is left of the heap is its nonces but the one removed
    have hrest : (BinaryHeap.remove 0 m.index i).2.Perm (m.index.erase nonce) :=
      (hperm.trans (List.perm_cons_erase hmem)).cons_inv
    simp only [hi, AList.keys_erase]
    exact hrest.trans (hm.index_perm.erase nonce)

/-- The fold of `Filter` only deletes: every item it keeps is the start's, it collects more as
it goes, and it deletes nothing while it collects nothing. -/
theorem filterItems_foldl (filter : τ → Bool) (order : List (Σ _ : ℕ, τ))
    (acc : (AList fun _ : ℕ => τ) × List τ) :
    let r := order.foldl
      (fun acc e => if filter e.2 then (acc.1.erase e.1, acc.2 ++ [e.2]) else acc) acc
    (∀ k v, r.1.lookup k = some v → acc.1.lookup k = some v) ∧ acc.2.length ≤ r.2.length ∧
      (r.2.length = acc.2.length → r.1 = acc.1) := by
  induction order generalizing acc with
  | nil => exact ⟨fun _ _ h => h, le_rfl, fun _ => rfl⟩
  | cons e order ih =>
    simp only [List.foldl_cons]
    split_ifs with hf
    · -- the item is collected and deleted
      obtain ⟨hsub, hlen, -⟩ := ih (acc.1.erase e.1, acc.2 ++ [e.2])
      refine ⟨fun k v h => ?_, by simp at hlen; omega, fun h => by simp at hlen; omega⟩
      have h' := hsub k v h
      by_cases hk : k = e.1
      · rw [hk, AList.lookup_erase] at h'
        cases h'
      · rwa [AList.lookup_erase_ne hk] at h'
    · exact ih acc

/-- **`Filter` keeps the invariant**, whatever order it rebuilds the heap in. -/
theorem Inv.filter {m : OrdertxSortedMap τ} (hm : Inv txNonce m) (filter : τ → Bool)
    (order : List (Σ _ : ℕ, τ)) {rebuild : List ℕ}
    (hrebuild : rebuild.Perm (m.filterItems filter order).1.keys) :
    Inv txNonce (m.filter filter order rebuild).2 := by
  obtain ⟨hsub, -, hsame⟩ := filterItems_foldl filter order (m.items, [])
  have hkeyed : Keyed txNonce (m.filterItems filter order).1 := fun k v h =>
    hm.keyed k v (hsub k v h)
  unfold OrdertxSortedMap.filter
  rcases hr : m.filterItems filter order with ⟨items, removed⟩
  rw [hr] at hrebuild hkeyed
  have hitems : removed.length = 0 → items = m.items := fun h0 => by
    have := hsame (by rw [← OrdertxSortedMap.filterItems, hr]; simpa using h0)
    rwa [← OrdertxSortedMap.filterItems, hr] at this
  dsimp only
  split_ifs with hpos
  · -- something was deleted: the heap is rebuilt from the nonces left
    obtain ⟨hheap, hperm⟩ := BinaryHeap.isHeap_init (d := 0) rebuild
    exact ⟨hheap, hperm.trans hrebuild, hkeyed, fun c h => by simp at h⟩
  · rw [hitems (by omega)]
    exact hm

/-- **`Flatten` returns the items sorted by nonce**, whatever order it ranges over the map in. -/
theorem flatten_sorted {m : OrdertxSortedMap τ} (hm : Inv txNonce m) {order : List (Σ _ : ℕ, τ)}
    (horder : order.Perm m.items.entries) : (m.flatten txNonce order).1 = sortedValues m.items := by
  unfold OrdertxSortedMap.flatten
  rcases hc : m.cache with _ | c
  · -- no cache: the items are sorted by nonce
    have htotal : Std.Total fun a b : τ => txNonce a ≤ txNonce b := ⟨fun a b => le_total _ _⟩
    have htrans : IsTrans τ fun a b : τ => txNonce a ≤ txNonce b := ⟨fun _ _ _ => le_trans⟩
    exact eq_sortedValues hm.keyed ((List.perm_insertionSort _ _).trans (horder.map _))
      (List.pairwise_insertionSort _ _)
  · exact hm.cache c hc

/-- **`Flatten` keeps the invariant.** -/
theorem Inv.flatten {m : OrdertxSortedMap τ} (hm : Inv txNonce m) {order : List (Σ _ : ℕ, τ)}
    (horder : order.Perm m.items.entries) : Inv txNonce (m.flatten txNonce order).2 :=
  ⟨hm.heap, hm.index_perm, hm.keyed, fun c h => by
    have hc : c = (m.flatten txNonce order).1 := (Option.some.inj h).symm
    rw [hc]
    exact flatten_sorted hm horder⟩

end OrdertxSortedMap

end XdcSubnet.Core
