import Mathlib.Data.List.GetD
import Mathlib.Data.List.Sort

/-!
# Go's `container/heap` over a slice with any `Less`

`container/heap` runs over a slice type through its `Less`, `Swap`, `Push` and `Pop`.  Here the
slice is a list, `Swap` exchanges two entries, `Push` appends and `Pop` takes the last entry off,
and `Less` is any boolean relation `less`: it need not be a strict order, and entries that are
not `less` either way are left where they are.  `up` and `down` are the two repair loops;
`init`, `fix` and `pop` are `Init`, `Fix` and `Pop`.

Whatever `less` is, the repairs only swap entries within the slice, so each operation permutes
it (`init_perm`, `fix_perm`), and `pop` returns the entry at the root with the rest
(`pop_perm`).  `BinaryHeap` is the case of a linear order's `<`, where the heap order is proved
too; a `Less` that compares transactions by nonce alone is no linear order on them, and of its
heap only these permutations are used.
-/

namespace SliceHeap

variable {α : Type*} (less : α → α → Bool) (d : α)

/-- The parent of position `j`, `(j - 1) / 2`; the root is its own. -/
def parent (j : ℕ) : ℕ := (j - 1) / 2

theorem parent_le (j : ℕ) : parent j ≤ j := by
  unfold parent
  omega

/-- `Swap(i, j)`. -/
def swap (l : List α) (i j : ℕ) : List α :=
  (l.set i (l.getD j d)).set j (l.getD i d)

/-- `up(h, j)`: swap the entry at `j` with its parent while it is `less`. -/
def up (l : List α) (j : ℕ) : List α :=
  if parent j = j ∨ !less (l.getD j d) (l.getD (parent j) d) then l
  else up (swap d l (parent j) j) (parent j)
termination_by j
decreasing_by exact lt_of_le_of_ne (parent_le j) (not_or.1 ‹_›).1

/-- The child `down` compares with: the right one below `n` when it is `less` than the left. -/
def lesserChild (l : List α) (n i : ℕ) : ℕ :=
  if 2 * i + 2 < n ∧ less (l.getD (2 * i + 2) d) (l.getD (2 * i + 1) d) then 2 * i + 2
  else 2 * i + 1

/-- The loop of `down(h, i0, n)`, from `i`: swap the entry at `i` with its lesser child below `n`
while that child is `less`.  The slice, and the position where the entry stopped. -/
def downFrom (l : List α) (n i : ℕ) : List α × ℕ :=
  if n ≤ 2 * i + 1 then (l, i)
  else if less (l.getD (lesserChild less d l n i) d) (l.getD i d) then
    downFrom (swap d l i (lesserChild less d l n i)) n (lesserChild less d l n i)
  else (l, i)
termination_by n - i
decreasing_by
  unfold lesserChild
  split <;> omega

/-- `down(h, i0, n)`: the slice, and whether the entry at `i0` moved. -/
def down (l : List α) (i0 n : ℕ) : List α × Bool :=
  ((downFrom less d l n i0).1, decide (i0 < (downFrom less d l n i0).2))

/-- `heap.Init`: `down` from the last parent back to the root. -/
def init (l : List α) : List α :=
  (List.range (l.length / 2)).reverse.foldl (fun h i => (down less d h i l.length).1) l

/-- `heap.Fix(h, i)`: `down` from `i`, and `up` when the entry did not move. -/
def fix (l : List α) (i : ℕ) : List α :=
  let moved := down less d l i l.length
  if moved.2 then moved.1 else up less d moved.1 i

/-- `heap.Pop`: swap the root with the last entry, `down` the root below the last position, and
take the last entry off. -/
def pop (l : List α) : α × List α :=
  let n := l.length - 1
  let h := (down less d (swap d l 0 n) 0 n).1
  (h.getD n d, h.take n)

variable {less d}

/-! ### Swaps -/

@[simp] theorem swap_length (l : List α) (i j : ℕ) : (swap d l i j).length = l.length := by
  simp [swap]

theorem getD_swap_of_ne (l : List α) {i j k : ℕ} (hi : k ≠ i) (hj : k ≠ j) :
    (swap d l i j).getD k d = l.getD k d := by
  simp [swap, List.getD_eq_getElem?_getD, Ne.symm hi, Ne.symm hj]

theorem getD_swap_right {l : List α} {i j : ℕ} (hj : j < l.length) :
    (swap d l i j).getD j d = l.getD i d := by
  simp [swap, List.getD_eq_getElem?_getD, hj]

theorem swap_perm {l : List α} {i j : ℕ} (hi : i < l.length) (hj : j < l.length) :
    (swap d l i j).Perm l := by
  unfold swap
  rw [List.getD_eq_getElem _ _ hi, List.getD_eq_getElem _ _ hj]
  exact List.set_set_perm hi hj

/-! ### The repairs permute the slice -/

theorem up_perm {l : List α} {j : ℕ} (hj : j < l.length) : (up less d l j).Perm l := by
  fun_induction up less d l j with
  | case1 => exact List.Perm.refl _
  | case2 l j _ ih =>
    have hp : parent j < l.length := (parent_le j).trans_lt hj
    exact (ih (by simpa using hp)).trans (swap_perm hp hj)

theorem lesserChild_gt (l : List α) (n i : ℕ) : i < lesserChild less d l n i := by
  unfold lesserChild
  split <;> omega

theorem lesserChild_lt {l : List α} {n i : ℕ} (h : 2 * i + 1 < n) :
    lesserChild less d l n i < n := by
  unfold lesserChild
  split <;> omega

theorem downFrom_perm {l : List α} {n i : ℕ} (hn : n ≤ l.length) :
    (downFrom less d l n i).1.Perm l := by
  fun_induction downFrom less d l n i with
  | case1 => exact List.Perm.refl _
  | case2 l i hchild _ ih =>
    have hj : lesserChild less d l n i < l.length := (lesserChild_lt (by omega)).trans_le hn
    exact (ih (by simpa using hn)).trans (swap_perm ((lesserChild_gt l n i).trans hj) hj)
  | case3 => exact List.Perm.refl _

/-- `down` moves nothing from `n` on. -/
theorem downFrom_getD_of_le {l : List α} {n i k : ℕ} (hk : n ≤ k) :
    (downFrom less d l n i).1.getD k d = l.getD k d := by
  fun_induction downFrom less d l n i with
  | case1 => rfl
  | case2 l i hchild _ ih =>
    have hj : lesserChild less d l n i < n := lesserChild_lt (by omega)
    have hgt : i < lesserChild less d l n i := lesserChild_gt l n i
    rw [ih]
    exact getD_swap_of_ne l (by omega) (by omega)
  | case3 => rfl

theorem init_loop {n : ℕ} :
    ∀ m (l : List α), l.length = n →
      ((List.range m).reverse.foldl (fun h i => (down less d h i n).1) l).Perm l := by
  intro m
  induction m with
  | zero =>
    intro l _
    exact List.Perm.refl _
  | succ m ih =>
    intro l hl
    rw [List.range_succ, List.reverse_append, List.reverse_singleton, List.singleton_append,
      List.foldl_cons]
    have hperm : (downFrom less d l n m).1.Perm l := downFrom_perm hl.ge
    exact (ih _ (by rw [down, hperm.length_eq, hl])).trans hperm

/-- **`Init` permutes the slice.** -/
theorem init_perm (l : List α) : (init less d l).Perm l :=
  init_loop (l.length / 2) l rfl

/-- **`Fix` permutes the slice.** -/
theorem fix_perm {l : List α} {i : ℕ} (hi : i < l.length) : (fix less d l i).Perm l := by
  have hdown : (down less d l i l.length).1.Perm l := downFrom_perm le_rfl
  unfold fix
  dsimp only
  split
  · exact hdown
  · exact (up_perm (by rw [hdown.length_eq]; exact hi)).trans hdown

/-- **`Pop` takes the root off**, leaving the rest of the slice. -/
theorem pop_perm {l : List α} (hl : l ≠ []) :
    (pop less d l).1 = l.getD 0 d ∧ ((pop less d l).1 :: (pop less d l).2).Perm l := by
  have hpos : 0 < l.length := List.length_pos_iff.2 hl
  set n := l.length - 1 with hn
  have hnl : n < l.length := by omega
  have hswap : (swap d l 0 n).Perm l := swap_perm hpos hnl
  have hlen : n ≤ (swap d l 0 n).length := by
    rw [swap_length]
    omega
  set h₂ := (downFrom less d (swap d l 0 n) n 0).1 with hh₂
  have hpop : pop less d l = (h₂.getD n d, h₂.take n) := rfl
  have hperm : h₂.Perm l := (downFrom_perm hlen).trans hswap
  -- the root was swapped to the last position, which `down` below it leaves
  have hlast : h₂.getD n d = l.getD 0 d := by
    rw [hh₂, downFrom_getD_of_le le_rfl, getD_swap_right hnl]
  have hsplit : h₂ = h₂.take n ++ [h₂.getD n d] := by
    have hlen₂ : h₂.length = n + 1 := by
      rw [hperm.length_eq]
      omega
    rw [List.getD_eq_getElem _ _ (by omega)]
    conv_lhs => rw [← List.take_append_drop n h₂]
    rw [List.drop_eq_getElem_cons (by omega), List.drop_eq_nil_of_le (by omega)]
  rw [hpop]
  refine ⟨hlast, ?_⟩
  have hcons : (h₂.getD n d :: h₂.take n).Perm (h₂.take n ++ [h₂.getD n d]) :=
    (List.perm_append_singleton _ _).symm
  rw [← hsplit] at hcons
  exact hcons.trans hperm

/-- After `Pop` of a slice whose root is `x`, the rest of the slice is left. -/
theorem pop_snd_perm {l rest : List α} {x : α} (hl : l = x :: rest) :
    (pop less d l).2.Perm rest := by
  have h : (pop less d l).1 = l.getD 0 d ∧ ((pop less d l).1 :: (pop less d l).2).Perm l :=
    pop_perm (by simp [hl])
  obtain ⟨hroot, hperm⟩ := h
  subst hl
  rw [hroot, List.getD_cons_zero] at hperm
  exact (List.perm_cons x).1 hperm

/-- After `Fix` of the root set to `y`, the slice is `y` and the rest. -/
theorem fix_set_perm {l rest : List α} {x y : α} (hl : l = x :: rest) :
    (fix less d (l.set 0 y) 0).Perm (y :: rest) := by
  refine (fix_perm ?_).trans ?_
  · simp [hl]
  · rw [hl]
    exact List.Perm.refl _

end SliceHeap
