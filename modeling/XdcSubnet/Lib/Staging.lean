import Mathlib.Algebra.BigOperators.Finprod

/-!
# Staged updates

A batch of additive updates computed through a cache in front of a store, then written back
one absolute value per update, in the order they were staged: a map of pending balances in
front of a state database.

* `read f c k` is the value staged at `k`, or the stored `f k`; `stage c k v` stages `v`;
* `stageAll f ds` stages the deltas `ds` in turn, each added to the value read at its key, and
  queues each new value for writing.  Afterwards the value read at a key is the stored one plus
  the key's deltas `sumAt ds k` (`read_stageAll`);
* `writeAll ws h` writes the queued values into `h`, whatever `h` holds by then: a staged key
  ends at its stored value plus its deltas, and every other key keeps `h`
  (`writeAll_stageAll_empty`).  A change made to a staged key between the reads and the writes
  is lost;
* over all the keys `(t, i)` of one `t`, the deltas add up to those staged at `t`
  (`finsum_sumAt_fiber`), and adding to a function a finitely supported one of sum zero keeps
  its sum, even when its support is infinite (`finsum_add_of_finsum_eq_zero`); a sum of
  natural numbers reads the same in the integers (`natCast_finsum`).
-/

namespace Staging

open Function

section Cache

variable {κ α : Type} [DecidableEq κ]

/-- The value staged at `k`, or the stored one. -/
def read (f : κ → α) (c : κ → Option α) (k : κ) : α := (c k).getD (f k)

/-- Stage `v` at `k`. -/
def stage (c : κ → Option α) (k : κ) (v : α) : κ → Option α := update c k (some v)

/-- Write the queued values in order. -/
def writeAll (ws : List (κ × α)) (h : κ → α) : κ → α :=
  ws.foldl (fun h w => update h w.1 w.2) h

theorem read_stage (f : κ → α) (c : κ → Option α) (k j : κ) (v : α) :
    read f (stage c k v) j = if j = k then v else read f c j := by
  by_cases h : j = k
  · subst h; simp [read, stage]
  · simp [read, stage, h]

@[simp] theorem writeAll_append_singleton (ws : List (κ × α)) (k : κ) (v : α) (h : κ → α) :
    writeAll (ws ++ [(k, v)]) h = update (writeAll ws h) k v := by
  simp [writeAll, List.foldl_append]

variable [AddCommMonoid α]

/-- The deltas staged at `k`. -/
def sumAt (ds : List (κ × α)) (k : κ) : α := ((ds.filter (·.1 = k)).map Prod.snd).sum

/-- Stage each delta on the value read at its key, queueing the new value. -/
def stageAll (f : κ → α) : List (κ × α) → (κ → Option α) × List (κ × α) →
    (κ → Option α) × List (κ × α)
  | [], acc => acc
  | (k, d) :: ds, (c, ws) =>
    let v := read f c k + d
    stageAll f ds (stage c k v, ws ++ [(k, v)])

@[simp] theorem sumAt_nil (k : κ) : sumAt ([] : List (κ × α)) k = 0 := rfl

theorem sumAt_cons (k j : κ) (d : α) (ds : List (κ × α)) :
    sumAt ((k, d) :: ds) j = (if j = k then d else 0) + sumAt ds j := by
  by_cases h : j = k
  · subst h; simp [sumAt]
  · simp [sumAt, Ne.symm h, h]

theorem sumAt_eq_zero {ds : List (κ × α)} {k : κ} (hk : k ∉ ds.map Prod.fst) :
    sumAt ds k = 0 := by
  induction ds with
  | nil => rfl
  | cons d ds ih =>
    obtain ⟨k', d⟩ := d
    have hne : k ≠ k' := fun h => hk (by simp [h])
    rw [sumAt_cons, if_neg hne, ih (fun h => hk (List.mem_cons_of_mem _ h)), add_zero]

/-- Staging one more delta: the value read at its key plus the delta, staged and queued. -/
theorem stageAll_append_singleton (f : κ → α) (k : κ) (d : α) (ds : List (κ × α)) :
    ∀ (c : κ → Option α) (ws : List (κ × α)), stageAll f (ds ++ [(k, d)]) (c, ws) =
      (stage (stageAll f ds (c, ws)).1 k (read f (stageAll f ds (c, ws)).1 k + d),
        (stageAll f ds (c, ws)).2 ++ [(k, read f (stageAll f ds (c, ws)).1 k + d)]) := by
  induction ds with
  | nil => intro c ws; rfl
  | cons d' ds ih =>
    obtain ⟨k', d'⟩ := d'
    intro c ws
    exact ih _ _

/-- The deltas are added to what is read. -/
theorem read_stageAll (f : κ → α) (ds : List (κ × α)) :
    ∀ (c : κ → Option α) (ws : List (κ × α)) (j : κ),
      read f (stageAll f ds (c, ws)).1 j = read f c j + sumAt ds j := by
  induction ds with
  | nil => intro c ws j; simp [stageAll]
  | cons d ds ih =>
    obtain ⟨k, d⟩ := d
    intro c ws j
    rw [stageAll, ih, read_stage, sumAt_cons]
    split_ifs with h
    · rw [h, add_assoc]
    · rw [zero_add]

/-- A key is staged once a delta names it. -/
theorem isSome_stageAll (f : κ → α) (ds : List (κ × α)) :
    ∀ (c : κ → Option α) (ws : List (κ × α)) (j : κ),
      ((stageAll f ds (c, ws)).1 j).isSome ↔ (c j).isSome ∨ j ∈ ds.map Prod.fst := by
  induction ds with
  | nil => intro c ws j; simp [stageAll]
  | cons d ds ih =>
    obtain ⟨k, d⟩ := d
    intro c ws j
    rw [stageAll, ih]
    by_cases h : j = k
    · subst h; simp [stage]
    · simp [stage, h]

/-- The queued writes agree with the cache: each key written last holds its staged value. -/
theorem writeAll_stageAll (f : κ → α) (h : κ → α) (ds : List (κ × α)) :
    ∀ (c : κ → Option α) (ws : List (κ × α)), (∀ j, writeAll ws h j = (c j).getD (h j)) →
      ∀ j, writeAll (stageAll f ds (c, ws)).2 h j = ((stageAll f ds (c, ws)).1 j).getD (h j) := by
  induction ds with
  | nil => intro c ws hw; simpa [stageAll] using hw
  | cons d ds ih =>
    obtain ⟨k, d⟩ := d
    intro c ws hw
    apply ih
    intro j
    rw [writeAll_append_singleton]
    by_cases hj : j = k
    · subst hj; simp [stage]
    · simp [stage, update_of_ne hj, hw j]

/-- **Staged writes land whatever the store holds by then.**  Staged from an empty cache, every
staged key ends at its stored value plus its deltas, and every other key keeps `h`. -/
theorem writeAll_stageAll_empty (f h : κ → α) (ds : List (κ × α)) (j : κ) :
    writeAll (stageAll f ds (fun _ => none, [])).2 h j =
      if j ∈ ds.map Prod.fst then f j + sumAt ds j else h j := by
  have hw := writeAll_stageAll f h ds (fun _ => none) [] (fun _ => rfl) j
  have hread := read_stageAll f ds (fun _ => none) [] j
  have hsome := isSome_stageAll f ds (fun _ => none) [] j
  simp only [Option.isSome_none, Bool.false_eq_true, false_or] at hsome
  rw [hw]
  split_ifs with hj
  · obtain ⟨v, hv⟩ := Option.isSome_iff_exists.1 (hsome.2 hj)
    simpa [read, hv] using hread
  · rw [Option.not_isSome_iff_eq_none.1 (fun h => hj (hsome.1 h)), Option.getD_none]

end Cache

section Sums

variable {τ ι α : Type}

/-- Adding a finitely supported function of sum zero keeps the sum, even an infinite one's. -/
theorem finsum_add_of_finsum_eq_zero [AddCommGroup α] {f δ : ι → α}
    (hδ : (support δ).Finite) (h0 : ∑ᶠ i, δ i = 0) : ∑ᶠ i, (f i + δ i) = ∑ᶠ i, f i := by
  by_cases hf : (support f).Finite
  · rw [finsum_add_distrib hf hδ, h0, add_zero]
  · have hsum : ¬(support fun i => f i + δ i).Finite := fun hs =>
      hf ((hs.union hδ).subset fun i hi => by
        by_contra hn
        simp only [Set.mem_union, mem_support, not_or, not_not] at hn
        exact hi (by simpa [hn.2] using hn.1))
    rw [finsum_of_infinite_support hf, finsum_of_infinite_support hsum]

/-- A sum of natural numbers read in the integers, even an infinite one's. -/
theorem natCast_finsum (f : ι → ℕ) : ((∑ᶠ i, f i : ℕ) : ℤ) = ∑ᶠ i, (f i : ℤ) :=
  (Nat.castAddMonoidHom ℤ).map_finsum_of_injective Nat.cast_injective f

variable [DecidableEq τ] [DecidableEq ι]

variable [AddCommMonoid α]

/-- Only the keys of the deltas hold any, so a fibre's deltas are finitely supported. -/
theorem finite_support_sumAt_fiber (ds : List ((τ × ι) × α)) (t : τ) :
    (support fun i => sumAt ds (t, i)).Finite := by
  refine (ds.map fun d => d.1.2).finite_toSet.subset fun i hi => ?_
  by_contra hn
  refine hi (sumAt_eq_zero fun hm => hn ?_)
  obtain ⟨d, hd, hdi⟩ := List.mem_map.1 hm
  exact List.mem_map.2 ⟨d, hd, by rw [hdi]⟩

/-- Over the keys `(t, i)` of one `t`, the deltas add up to those staged at `t`. -/
theorem finsum_sumAt_fiber (ds : List ((τ × ι) × α)) (t : τ) :
    ∑ᶠ i, sumAt ds (t, i) = ((ds.filter (·.1.1 = t)).map Prod.snd).sum := by
  induction ds with
  | nil => simp
  | cons d ds ih =>
    obtain ⟨⟨t', i'⟩, d⟩ := d
    have hone : ∑ᶠ i, (if (t, i) = (t', i') then d else 0) = if t' = t then d else 0 := by
      rw [finsum_eq_single _ i' fun i hi => if_neg fun h => hi (Prod.mk.inj h).2]
      by_cases ht : t' = t
      · simp [ht]
      · simp [ht, Ne.symm ht]
    simp only [sumAt_cons]
    rw [finsum_add_distrib ((Set.finite_singleton i').subset fun i hi => ?_)
      (finite_support_sumAt_fiber ds t), hone, ih]
    · by_cases ht : t' = t <;> simp [ht]
    · by_contra hne
      exact hi (if_neg fun h => hne (Prod.mk.inj h).2)

end Sums

end Staging
