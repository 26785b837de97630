import Mathlib.Data.List.AList
import Mathlib.Data.List.Sort

/-!
# Maps whose values carry their key

A map from natural numbers to values that are stored under their own key (`Keyed`), seen
through its values in increasing order of key (`sortedValues`).  The sorted values are a
permutation of the map's values (`sortedValues_perm`), strictly increasing in key
(`sortedValues_pairwise`), and the only such list (`eq_sortedValues`).  Cut the sorted keys
into pieces and the sorted values are cut the same way (`sortedValues_append`); a map that
agrees with another off a set of keys reads its sorted values there (`sortedValues_of_lookup`).
Read back at their keys, lists of sorted values give themselves (`map_lookup_map_key`,
`filterMap_lookup_map_key`).

`leadingRun` is the longest prefix of a list whose keys count up by one from a start.
-/

namespace KeyedMap

variable {β : Type*} (key : β → ℕ)

/-- The keys in increasing order. -/
def sortedKeys (s : AList fun _ : ℕ => β) : List ℕ :=
  s.keys.insertionSort (· ≤ ·)

/-- The values in increasing order of their keys. -/
def sortedValues (s : AList fun _ : ℕ => β) : List β :=
  (sortedKeys s).filterMap s.lookup

/-- Every value is stored under its own key. -/
def Keyed (s : AList fun _ : ℕ => β) : Prop :=
  ∀ k v, s.lookup k = some v → key v = k

/-- The longest prefix whose keys are `n`, `n + 1`, and so on. -/
def leadingRun : ℕ → List β → List β
  | _, [] => []
  | n, v :: vs => if key v = n then v :: leadingRun (n + 1) vs else []

variable {key}

/-! ### Sorted keys -/

section Keys

variable {s : AList fun _ : ℕ => β}

theorem sortedKeys_perm (s : AList fun _ : ℕ => β) : (sortedKeys s).Perm s.keys :=
  List.perm_insertionSort _ _

theorem mem_sortedKeys {k : ℕ} : k ∈ sortedKeys s ↔ k ∈ s.keys :=
  (sortedKeys_perm s).mem_iff

theorem mem_keys_iff_lookup {k : ℕ} : k ∈ s.keys ↔ (s.lookup k).isSome := by
  rw [AList.lookup_isSome, AList.mem_keys]

theorem sortedKeys_pairwise (s : AList fun _ : ℕ => β) : (sortedKeys s).Pairwise (· < ·) :=
  (List.sortedLE_insertionSort.sortedLT_of_nodup
    ((sortedKeys_perm s).nodup_iff.2 s.keys_nodup)).pairwise

/-- Any list of the keys, sorted, is the sorted keys. -/
theorem insertionSort_eq_sortedKeys {l : List ℕ} (h : l.Perm s.keys) :
    l.insertionSort (· ≤ ·) = sortedKeys s :=
  List.Perm.eq_of_sortedLE List.sortedLE_insertionSort List.sortedLE_insertionSort
    ((List.perm_insertionSort _ _).trans (h.trans (List.perm_insertionSort _ _).symm))

/-- Each key's value, in the order of the keys, is the list of values. -/
theorem keys_filterMap_lookup (s : AList fun _ : ℕ => β) :
    s.keys.filterMap s.lookup = s.entries.map Sigma.snd := by
  obtain ⟨l, hl⟩ := s
  show l.keys.filterMap (fun k => l.dlookup k) = l.map Sigma.snd
  induction l with
  | nil => rfl
  | cons e l ih =>
    obtain ⟨hnot, hl'⟩ := List.nodupKeys_cons.1 hl
    -- the head key is read at the head; every later key is read past it
    have hrest : l.keys.filterMap (fun k => (e :: l).dlookup k) =
        l.keys.filterMap (fun k => l.dlookup k) := by
      refine List.filterMap_congr fun k hk => List.dlookup_cons_ne l e ?_
      rintro rfl
      exact hnot hk
    obtain ⟨a, b⟩ := e
    rw [List.keys_cons, List.filterMap_cons, List.dlookup_cons_eq, hrest, ih hl']
    rfl

end Keys

/-! ### Sorted values -/

section Values

variable {s t : AList fun _ : ℕ => β}

theorem sortedValues_perm (s : AList fun _ : ℕ => β) :
    (sortedValues s).Perm (s.entries.map Sigma.snd) := by
  rw [← keys_filterMap_lookup]
  exact (sortedKeys_perm s).filterMap _

theorem sortedValues_append {l₁ l₂ : List ℕ} (h : sortedKeys s = l₁ ++ l₂) :
    sortedValues s = l₁.filterMap s.lookup ++ l₂.filterMap s.lookup := by
  rw [sortedValues, h, List.filterMap_append]

/-- Reading a map's keys misses none of them. -/
theorem length_filterMap_lookup {l : List ℕ} (h : ∀ k ∈ l, k ∈ s.keys) :
    (l.filterMap s.lookup).length = l.length := by
  induction l with
  | nil => rfl
  | cons k l ih =>
    obtain ⟨v, hv⟩ := Option.isSome_iff_exists.1 (mem_keys_iff_lookup.1 (h k (by simp)))
    rw [List.filterMap_cons, hv, List.length_cons, List.length_cons,
      ih fun k' hk' => h k' (List.mem_cons_of_mem _ hk')]

/-- A map that agrees with `s` off the keys `P` reads its sorted values from `s`. -/
theorem sortedValues_of_lookup {P : List ℕ}
    (h : ∀ k, t.lookup k = if k ∈ P then none else s.lookup k) :
    sortedValues t = (sortedKeys t).filterMap s.lookup := by
  refine List.filterMap_congr fun k hk => ?_
  have hsome := mem_keys_iff_lookup.1 (mem_sortedKeys.1 hk)
  rw [h k] at hsome ⊢
  split_ifs at hsome ⊢ with hP
  · simp at hsome
  · rfl

theorem mem_keys_of_lookup {P : List ℕ} (h : ∀ k, t.lookup k = if k ∈ P then none else s.lookup k)
    {k : ℕ} : k ∈ t.keys ↔ k ∉ P ∧ k ∈ s.keys := by
  rw [mem_keys_iff_lookup, mem_keys_iff_lookup, h k]
  split_ifs with hP <;> simp [hP]

/-- A map that is `s` off the sorted keys past the first `n` has the first `n` as its sorted
keys. -/
theorem sortedKeys_of_lookup_drop {n : ℕ}
    (h : ∀ k, t.lookup k = if k ∈ (sortedKeys s).drop n then none else s.lookup k) :
    sortedKeys t = (sortedKeys s).take n := by
  have hnodup := (sortedKeys_pairwise s).nodup
  have hperm : ((sortedKeys s).take n).Perm t.keys := by
    refine (List.perm_ext_iff_of_nodup (hnodup.sublist (List.take_sublist _ _))
      t.keys_nodup).2 fun k => ?_
    rw [mem_keys_of_lookup h, ← mem_sortedKeys]
    constructor
    · intro hk
      exact ⟨List.disjoint_take_drop hnodup le_rfl hk, List.mem_of_mem_take hk⟩
    · rintro ⟨hdrop, hk⟩
      rw [← List.take_append_drop n (sortedKeys s), List.mem_append] at hk
      exact hk.resolve_right hdrop
  rw [← insertionSort_eq_sortedKeys hperm]
  exact ((sortedKeys_pairwise s).imp le_of_lt).take.insertionSort_eq

end Values

/-! ### Keyed maps -/

section Keyed

variable {s : AList fun _ : ℕ => β} (hs : Keyed key s)
include hs

/-- Deleting a key keeps every other value under its key. -/
theorem Keyed.erase (k : ℕ) : Keyed key (s.erase k) := by
  intro k' v h
  by_cases hk : k' = k
  · rw [hk, AList.lookup_erase] at h
    cases h
  · rw [AList.lookup_erase_ne hk] at h
    exact hs k' v h

/-- Storing a value under its key keeps the map keyed. -/
theorem Keyed.insert (v : β) : Keyed key (s.insert (key v) v) := by
  intro k' v' h
  by_cases hk : k' = key v
  · rw [hk, AList.lookup_insert] at h
    cases h
    exact hk.symm
  · rw [AList.lookup_insert_ne hk] at h
    exact hs k' v' h

/-- A map that is `s` off some keys is keyed with it. -/
theorem Keyed.of_lookup {t : AList fun _ : ℕ => β} {P : List ℕ}
    (h : ∀ k, t.lookup k = if k ∈ P then none else s.lookup k) : Keyed key t := by
  intro k v hv
  rw [h k] at hv
  split_ifs at hv
  exact hs k v hv

theorem map_key_filterMap_lookup {l : List ℕ} (hl : ∀ k ∈ l, k ∈ s.keys) :
    (l.filterMap s.lookup).map key = l := by
  induction l with
  | nil => rfl
  | cons k l ih =>
    obtain ⟨v, hv⟩ := Option.isSome_iff_exists.1 (mem_keys_iff_lookup.1 (hl k (by simp)))
    rw [List.filterMap_cons, hv, List.map_cons, hs k v hv,
      ih fun k' hk' => hl k' (List.mem_cons_of_mem _ hk')]

/-- The keys of the sorted values are the sorted keys. -/
theorem sortedValues_map_key : (sortedValues s).map key = sortedKeys s :=
  map_key_filterMap_lookup hs fun _ hk => mem_sortedKeys.1 hk

theorem lookup_key_of_mem {v : β} (hv : v ∈ sortedValues s) : s.lookup (key v) = some v := by
  obtain ⟨k, -, hk⟩ := List.mem_filterMap.1 hv
  rw [hs k v hk]
  exact hk

/-- Lists of sorted values, read back at their keys, give themselves. -/
theorem map_lookup_map_key {l : List β} (hl : ∀ v ∈ l, v ∈ sortedValues s) :
    (l.map key).map s.lookup = l.map some := by
  rw [List.map_map]
  exact List.map_congr_left fun v hv => lookup_key_of_mem hs (hl v hv)

theorem filterMap_lookup_map_key {l : List β} (hl : ∀ v ∈ l, v ∈ sortedValues s) :
    (l.map key).filterMap s.lookup = l := by
  induction l with
  | nil => rfl
  | cons v l ih =>
    rw [List.map_cons, List.filterMap_cons, lookup_key_of_mem hs (hl v (by simp)),
      ih fun w hw => hl w (List.mem_cons_of_mem _ hw)]

/-- **The sorted values are strictly increasing in key.** -/
theorem sortedValues_pairwise : (sortedValues s).Pairwise fun v w => key v < key w := by
  have h := sortedKeys_pairwise s
  rw [← sortedValues_map_key hs, List.pairwise_map] at h
  exact h

/-- A value of the map is stored under its key. -/
theorem lookup_key_of_mem_values {v : β} (hv : v ∈ s.entries.map Sigma.snd) :
    s.lookup (key v) = some v := by
  obtain ⟨⟨k, v'⟩, he, rfl⟩ := List.mem_map.1 hv
  have hk : s.lookup k = some v' := AList.mem_lookup_iff.2 he
  rw [hs k v' hk]
  exact hk

/-- **The sorted values are the only list of the values ordered by key.** -/
theorem eq_sortedValues {l : List β} (hperm : l.Perm (s.entries.map Sigma.snd))
    (hsorted : l.Pairwise fun v w => key v ≤ key w) : l = sortedValues s := by
  refine List.Perm.eq_of_pairwise (fun v w hv hw hvw hwv => ?_) hsorted
    ((sortedValues_pairwise hs).imp le_of_lt) (hperm.trans (sortedValues_perm s).symm)
  -- two values with one key are the value stored under it
  have hv' := lookup_key_of_mem_values hs (hperm.subset hv)
  have hw' := lookup_key_of_mem_values hs ((sortedValues_perm s).subset hw)
  rw [le_antisymm hvw hwv, hw'] at hv'
  exact (Option.some.inj hv').symm

end Keyed

/-! ### Runs of consecutive keys -/

theorem leadingRun_map (f : β → ℕ) (n : ℕ) (l : List β) :
    leadingRun id n (l.map f) = (leadingRun f n l).map f := by
  induction l generalizing n with
  | nil => rfl
  | cons v l ih =>
    simp only [List.map_cons, leadingRun, id]
    split_ifs <;> simp [ih]

theorem leadingRun_isPrefix (n : ℕ) (l : List β) : leadingRun key n l <+: l := by
  induction l generalizing n with
  | nil => exact List.prefix_refl _
  | cons v l ih =>
    unfold leadingRun
    split_ifs
    · exact List.cons_prefix_cons.2 ⟨rfl, ih (n + 1)⟩
    · exact List.nil_prefix

/-- A run of consecutive keys followed by nothing or by a break in the count is the leading
run. -/
theorem leadingRun_range'_append (n m : ℕ) {l : List ℕ} (hl : ∀ k ∈ l.head?, k ≠ n + m) :
    leadingRun id n (List.range' n m ++ l) = List.range' n m := by
  induction m generalizing n with
  | zero =>
    cases l with
    | nil => rfl
    | cons k l =>
      have hk : k ≠ n := hl k rfl
      simp [leadingRun, hk]
  | succ m ih =>
    have hrest := ih (n + 1) fun k hk => by
      have := hl k hk
      omega
    simp [List.range'_succ, leadingRun, hrest]

end KeyedMap
