import Mathlib.Data.List.Sort
import Mathlib.Data.List.GetD

/-!
# Go's `container/heap` over a slice

A min-heap kept in a slice ordered by `<`, as `container/heap` runs it over a slice type whose
`Less` is `<`, whose `Push` appends and whose `Pop` takes the last entry off.  `up` and `down`
are its two repair loops; `init`, `push`, `pop` and `remove` are `Init`, `Push`, `Pop` and
`Remove`.

`Ordered l n lo` says that below `n` every entry whose parent is at least `lo` is at least its
parent.  `up` repairs a slice whose only bad edge enters one position (`UpReady`), `down` one
whose only bad edges leave one position (`DownReady`); each swap keeps the precondition and the
stop condition gives the order (`UpReady.move`, `UpReady.ordered` and the same for `down`).
Both loops only permute the slice.  So `init` builds a heap (`isHeap_init`), `push`, `pop` and
`remove` keep one, `pop` returns the least entry, and what it leaves sorts to the rest of the
sorted slice (`insertionSort_eq_pop`).

The slice is read with `getD` at a default `d`; every read these loops make is within its
length.  `pop` and `remove` are modelled on a non-empty heap and a position of it, which their
callers check.
-/

namespace BinaryHeap

variable {α : Type*} [LinearOrder α] (d : α)

/-- The parent of position `j`, `(j - 1) / 2`; the root is its own. -/
def parent (j : ℕ) : ℕ := (j - 1) / 2

theorem parent_le (j : ℕ) : parent j ≤ j := by
  unfold parent
  omega

theorem parent_lt {j : ℕ} (hj : 0 < j) : parent j < j := by
  unfold parent
  omega

theorem parent_eq_iff {c i : ℕ} (hc : 0 < c) : parent c = i ↔ c = 2 * i + 1 ∨ c = 2 * i + 2 := by
  unfold parent
  omega

/-- `Swap(i, j)`. -/
def swap (l : List α) (i j : ℕ) : List α :=
  (l.set i (l.getD j d)).set j (l.getD i d)

/-- `up(h, j)`: swap the entry at `j` with its parent while it is less. -/
def up (l : List α) (j : ℕ) : List α :=
  if parent j = j ∨ ¬l.getD j d < l.getD (parent j) d then l
  else up (swap d l (parent j) j) (parent j)
termination_by j
decreasing_by exact lt_of_le_of_ne (parent_le j) (not_or.1 ‹_›).1

/-- The lesser child of `i` below `n`, the left one on a tie. -/
def lesserChild (l : List α) (n i : ℕ) : ℕ :=
  if 2 * i + 2 < n ∧ l.getD (2 * i + 2) d < l.getD (2 * i + 1) d then 2 * i + 2 else 2 * i + 1

/-- The loop of `down(h, i0, n)`, from `i`: swap the entry at `i` with its lesser child below `n`
while that child is less.  The slice, and the position where the entry stopped. -/
def downFrom (l : List α) (n i : ℕ) : List α × ℕ :=
  if n ≤ 2 * i + 1 then (l, i)
  else if l.getD (lesserChild d l n i) d < l.getD i d then
    downFrom (swap d l i (lesserChild d l n i)) n (lesserChild d l n i)
  else (l, i)
termination_by n - i
decreasing_by
  unfold lesserChild
  split <;> omega

/-- `down(h, i0, n)`: the slice, and whether the entry at `i0` moved. -/
def down (l : List α) (i0 n : ℕ) : List α × Bool :=
  ((downFrom d l n i0).1, decide (i0 < (downFrom d l n i0).2))

/-- `heap.Init`: `down` from the last parent back to the root. -/
def init (l : List α) : List α :=
  (List.range (l.length / 2)).reverse.foldl (fun h i => (down d h i l.length).1) l

/-- `heap.Push`: append `x`, then `up` from the last position. -/
def push (l : List α) (x : α) : List α :=
  up d (l ++ [x]) l.length

/-- `heap.Pop`: swap the root with the last entry, `down` the root below the last position, and
take the last entry off. -/
def pop (l : List α) : α × List α :=
  let n := l.length - 1
  let h := (down d (swap d l 0 n) 0 n).1
  (h.getD n d, h.take n)

/-- `heap.Remove(h, i)`: move the last entry to `i`, repair with `down` or else `up`, and take
the last entry off. -/
def remove (l : List α) (i : ℕ) : α × List α :=
  let n := l.length - 1
  let h :=
    if n ≠ i then
      let moved := down d (swap d l i n) i n
      if moved.2 then moved.1 else up d moved.1 i
    else l
  (h.getD n d, h.take n)

/-! ### The order -/

/-- Below `n`, every entry whose parent is at least `lo` is at least its parent. -/
def Ordered (l : List α) (n lo : ℕ) : Prop :=
  ∀ c, 0 < c → c < n → lo ≤ parent c → l.getD (parent c) d ≤ l.getD c d

/-- A heap: every entry is at least its parent. -/
def IsHeap (l : List α) : Prop :=
  Ordered d l l.length 0

/-- What `up` from `j` needs: below `n`, every edge but the one entering `j` is ordered, and
`j`'s parent is at most `j`'s children. -/
structure UpReady (l : List α) (n j : ℕ) : Prop where
  lt : j < n
  ordered_except : ∀ c, 0 < c → c < n → c ≠ j → l.getD (parent c) d ≤ l.getD c d
  grand : ∀ c, 0 < c → c < n → parent c = j → 0 < j → l.getD (parent j) d ≤ l.getD c d

/-- What `down` from `i` needs, over the edges below `n` whose parent is at least `lo`: every
such edge but those leaving `i` is ordered, and `i`'s parent is at most `i`'s children. -/
structure DownReady (l : List α) (n lo i : ℕ) : Prop where
  lo_le : lo ≤ i
  ordered_except : ∀ c, 0 < c → c < n → lo ≤ parent c → parent c ≠ i →
    l.getD (parent c) d ≤ l.getD c d
  grand : ∀ c, 0 < c → c < n → parent c = i → 0 < i → lo ≤ parent i →
    l.getD (parent i) d ≤ l.getD c d

variable {d}

/-! ### Swaps -/

section Swap

omit [LinearOrder α]

@[simp] theorem swap_length (l : List α) (i j : ℕ) : (swap d l i j).length = l.length := by
  simp [swap]

theorem getD_swap_of_ne (l : List α) {i j k : ℕ} (hi : k ≠ i) (hj : k ≠ j) :
    (swap d l i j).getD k d = l.getD k d := by
  simp [swap, List.getD_eq_getElem?_getD, Ne.symm hi, Ne.symm hj]

theorem getD_swap_left {l : List α} {i j : ℕ} (hi : i < l.length) (hj : j < l.length) :
    (swap d l i j).getD i d = l.getD j d := by
  by_cases hij : i = j
  · subst hij
    simp [swap, List.getD_eq_getElem?_getD, hi]
  · simp only [swap, List.getD_eq_getElem?_getD]
    rw [List.getElem?_set_ne (Ne.symm hij), List.getElem?_set_self hi, Option.getD_some]

theorem getD_swap_right {l : List α} {i j : ℕ} (hj : j < l.length) :
    (swap d l i j).getD j d = l.getD i d := by
  simp [swap, List.getD_eq_getElem?_getD, hj]

theorem getD_take_of_lt (l : List α) {n i : ℕ} (h : i < n) : (l.take n).getD i d = l.getD i d := by
  simp [List.getD_eq_getElem?_getD, h]

theorem swap_perm {l : List α} {i j : ℕ} (hi : i < l.length) (hj : j < l.length) :
    (swap d l i j).Perm l := by
  unfold swap
  rw [List.getD_eq_getElem _ _ hi, List.getD_eq_getElem _ _ hj]
  exact List.set_set_perm hi hj

end Swap

/-! ### `up` -/

@[simp] theorem up_length (l : List α) (j : ℕ) : (up d l j).length = l.length := by
  fun_induction up d l j with
  | case1 => rfl
  | case2 l j _ ih => rw [ih, swap_length]

theorem up_perm {l : List α} {j : ℕ} (hj : j < l.length) : (up d l j).Perm l := by
  fun_induction up d l j with
  | case1 => exact List.Perm.refl _
  | case2 l j _ ih =>
    have hp : parent j < l.length := (parent_le j).trans_lt hj
    exact (ih (by simpa using hp)).trans (swap_perm hp hj)

/-- `up` from `j` moves nothing after `j`. -/
theorem up_getD_of_lt {l : List α} {j k : ℕ} (hk : j < k) : (up d l j).getD k d = l.getD k d := by
  fun_induction up d l j with
  | case1 => rfl
  | case2 l j _ ih =>
    rw [ih ((parent_le j).trans_lt hk)]
    exact getD_swap_of_ne l (by have := parent_le j; omega) (by omega)

/-- One swap of `up` keeps its precondition, one position up. -/
theorem UpReady.move {l : List α} {n j : ℕ} (h : UpReady d l n j) (hn : n ≤ l.length)
    (hj : 0 < j) (hlt : l.getD j d < l.getD (parent j) d) :
    UpReady d (swap d l (parent j) j) n (parent j) := by
  have hpj : parent j < j := parent_lt hj
  have hjl : j < l.length := h.lt.trans_le hn
  have hpl : parent j < l.length := hpj.trans hjl
  have hleft : (swap d l (parent j) j).getD (parent j) d = l.getD j d := getD_swap_left hpl hjl
  have hright : (swap d l (parent j) j).getD j d = l.getD (parent j) d := getD_swap_right hjl
  refine ⟨hpj.trans h.lt, fun c hc hcn hcp => ?_, fun c hc hcn hparent hp0 => ?_⟩
  · by_cases hcj : c = j
    · -- the swapped edge
      subst hcj
      rw [hleft, hright]
      exact hlt.le
    have hcl : (swap d l (parent j) j).getD c d = l.getD c d := getD_swap_of_ne l hcp hcj
    rw [hcl]
    by_cases hparent : parent c = j
    · -- a child of `j` now sits below `j`'s old parent
      rw [hparent, hright]
      exact h.grand c hc hcn hparent hj
    by_cases hsib : parent c = parent j
    · -- `j`'s sibling sits below the entry that moved up
      rw [hsib, hleft]
      exact hlt.le.trans (hsib ▸ h.ordered_except c hc hcn hcj)
    · rw [getD_swap_of_ne l hsib hparent]
      exact h.ordered_except c hc hcn hcj
  · -- the new position's parent is at most both its children
    have hpp : parent (parent j) < parent j := parent_lt hp0
    have habove : l.getD (parent (parent j)) d ≤ l.getD (parent j) d :=
      h.ordered_except (parent j) hp0 (hpj.trans h.lt) hpj.ne
    rw [getD_swap_of_ne l hpp.ne (by omega)]
    by_cases hcj : c = j
    · subst hcj
      rw [hright]
      exact habove
    · have hcp : c ≠ parent j := by
        have := parent_lt hc
        omega
      rw [getD_swap_of_ne l hcp hcj]
      exact habove.trans (hparent ▸ h.ordered_except c hc hcn hcj)

/-- Where `up` stops, the slice is ordered. -/
theorem UpReady.ordered {l : List α} {n j : ℕ} (h : UpReady d l n j)
    (hstop : parent j = j ∨ ¬l.getD j d < l.getD (parent j) d) : Ordered d l n 0 := by
  intro c hc hcn _
  by_cases hcj : c = j
  · subst hcj
    rcases hstop with hroot | hnlt
    · have := parent_lt hc
      omega
    · exact not_lt.1 hnlt
  · exact h.ordered_except c hc hcn hcj

/-- **`up` repairs its precondition.** -/
theorem up_ordered {l : List α} {n j : ℕ} (h : UpReady d l n j) (hn : n ≤ l.length) :
    Ordered d (up d l j) n 0 := by
  fun_induction up d l j with
  | case1 l j hstop =>
    exact h.ordered hstop
  | case2 l j hgo ih =>
    have hj : 0 < j := by
      by_contra h0
      exact hgo (.inl (by unfold parent; omega))
    exact ih (h.move hn hj (not_not.1 (not_or.1 hgo).2)) (by simpa using hn)

/-- An ordered slice is ready for `up` from any of its positions. -/
theorem Ordered.upReady {l : List α} {n j : ℕ} (h : Ordered d l n 0) (hj : j < n) :
    UpReady d l n j where
  lt := hj
  ordered_except c hc hcn _ := h c hc hcn (Nat.zero_le _)
  grand c hc hcn hparent hj0 :=
    (h j hj0 hj (Nat.zero_le _)).trans (hparent ▸ h c hc hcn (Nat.zero_le _))

/-! ### `down` -/

theorem lesserChild_parent (l : List α) (n i : ℕ) : parent (lesserChild d l n i) = i := by
  unfold lesserChild parent
  split <;> omega

theorem lesserChild_gt (l : List α) (n i : ℕ) : i < lesserChild d l n i := by
  unfold lesserChild
  split <;> omega

theorem lesserChild_lt {l : List α} {n i : ℕ} (h : 2 * i + 1 < n) : lesserChild d l n i < n := by
  unfold lesserChild
  split <;> omega

/-- The lesser child is at most every child below `n`. -/
theorem lesserChild_le {l : List α} {n i c : ℕ} (hc : 0 < c) (hcn : c < n) (hparent : parent c = i) :
    l.getD (lesserChild d l n i) d ≤ l.getD c d := by
  rcases (parent_eq_iff hc).1 hparent with rfl | rfl
  · unfold lesserChild
    split_ifs with h
    · exact h.2.le
    · exact le_rfl
  · unfold lesserChild
    split_ifs with h
    · exact le_rfl
    · exact not_lt.1 fun hlt => h ⟨hcn, hlt⟩

theorem downFrom_eq (l : List α) (n i : ℕ) :
    downFrom d l n i =
      if n ≤ 2 * i + 1 then (l, i)
      else if l.getD (lesserChild d l n i) d < l.getD i d then
        downFrom d (swap d l i (lesserChild d l n i)) n (lesserChild d l n i)
      else (l, i) := by
  rw [downFrom]

@[simp] theorem downFrom_length (l : List α) (n i : ℕ) : (downFrom d l n i).1.length = l.length := by
  fun_induction downFrom d l n i with
  | case1 => rfl
  | case2 l i _ _ ih => rw [ih, swap_length]
  | case3 => rfl

theorem downFrom_perm {l : List α} {n i : ℕ} (hn : n ≤ l.length) : (downFrom d l n i).1.Perm l := by
  fun_induction downFrom d l n i with
  | case1 => exact List.Perm.refl _
  | case2 l i hchild _ ih =>
    have hj : lesserChild d l n i < l.length := (lesserChild_lt (by omega)).trans_le hn
    exact (ih (by simpa using hn)).trans (swap_perm ((lesserChild_gt l n i).trans hj) hj)
  | case3 => exact List.Perm.refl _

/-- `down` moves nothing from `n` on. -/
theorem downFrom_getD_of_le {l : List α} {n i k : ℕ} (hk : n ≤ k) :
    (downFrom d l n i).1.getD k d = l.getD k d := by
  fun_induction downFrom d l n i with
  | case1 => rfl
  | case2 l i hchild _ ih =>
    have hj := lesserChild_lt (d := d) (l := l) (show 2 * i + 1 < n by omega)
    rw [ih]
    exact getD_swap_of_ne l (by have := lesserChild_gt (d := d) l n i; omega) (by omega)
  | case3 => rfl

/-- The entry only moves down. -/
theorem le_downFrom_snd (l : List α) (n i : ℕ) : i ≤ (downFrom d l n i).2 := by
  fun_induction downFrom d l n i with
  | case1 => exact le_rfl
  | case2 l i _ _ ih => exact (lesserChild_gt l n i).le.trans ih
  | case3 => exact le_rfl

/-- `down` leaves the slice as it was when the entry does not move. -/
theorem downFrom_fst_of_snd {l : List α} {n i : ℕ} (h : (downFrom d l n i).2 ≤ i) :
    (downFrom d l n i).1 = l := by
  rw [downFrom_eq] at h ⊢
  split_ifs at h ⊢ with hleaf hlt
  · rfl
  · have := le_downFrom_snd (d := d) (swap d l i (lesserChild d l n i)) n (lesserChild d l n i)
    have := lesserChild_gt (d := d) l n i
    omega
  · rfl

/-- An entry at most its children below `n` does not move. -/
theorem downFrom_of_le_children {l : List α} {n i : ℕ}
    (h : ∀ c, 0 < c → c < n → parent c = i → l.getD i d ≤ l.getD c d) :
    downFrom d l n i = (l, i) := by
  rw [downFrom_eq]
  split_ifs with hn hlt
  · rfl
  · have hj : lesserChild d l n i < n := lesserChild_lt (by omega)
    have := h _ (by have := lesserChild_gt (d := d) l n i; omega) hj (lesserChild_parent l n i)
    exact absurd hlt (not_lt.2 this)
  · rfl

/-- One swap of `down` keeps its precondition, one position down. -/
theorem DownReady.move {l : List α} {n lo i : ℕ} (h : DownReady d l n lo i) (hn : n ≤ l.length)
    (hchild : 2 * i + 1 < n) (hlt : l.getD (lesserChild d l n i) d < l.getD i d) :
    DownReady d (swap d l i (lesserChild d l n i)) n lo (lesserChild d l n i) := by
  set j := lesserChild d l n i with hj
  have hij : i < j := lesserChild_gt l n i
  have hjn : j < n := lesserChild_lt hchild
  have hjl : j < l.length := hjn.trans_le hn
  have hpj : parent j = i := lesserChild_parent l n i
  have hleft : (swap d l i j).getD i d = l.getD j d := getD_swap_left (hij.trans hjl) hjl
  have hright : (swap d l i j).getD j d = l.getD i d := getD_swap_right hjl
  refine ⟨h.lo_le.trans hij.le, fun c hc hcn hlo hcp => ?_, fun c hc hcn hparent _ hlo => ?_⟩
  · by_cases hcj : c = j
    · -- the swapped edge
      rw [hcj, hpj, hleft, hright]
      exact hlt.le
    by_cases hci : c = i
    · -- `i`'s parent is at most the child that moved up
      subst hci
      have hpi : parent c < c := parent_lt hc
      rw [getD_swap_of_ne l hpi.ne (by omega), hleft]
      exact h.grand j (by omega) hjn hpj hc hlo
    rw [getD_swap_of_ne l hci hcj]
    by_cases hparent : parent c = i
    · -- `j`'s sibling is at least the lesser child
      rw [hparent, hleft]
      exact lesserChild_le hc hcn hparent
    · rw [getD_swap_of_ne l hparent hcp]
      exact h.ordered_except c hc hcn hlo hparent
  · -- the entry that moved down is at most `j`'s children
    have hcj : j < c := hparent ▸ parent_lt hc
    rw [hpj, hleft, getD_swap_of_ne l (by omega) (by omega)]
    have hord := h.ordered_except c hc hcn (by rw [hparent]; exact h.lo_le.trans hij.le) (by omega)
    rwa [hparent] at hord

/-- Where `down` stops, the edges over `lo` are ordered. -/
theorem DownReady.ordered {l : List α} {n lo i : ℕ} (h : DownReady d l n lo i)
    (hstop : n ≤ 2 * i + 1 ∨ ¬l.getD (lesserChild d l n i) d < l.getD i d) : Ordered d l n lo := by
  intro c hc hcn hlo
  by_cases hparent : parent c = i
  · rcases hstop with hleaf | hnlt
    · have := (parent_eq_iff hc).1 hparent
      omega
    · rw [hparent]
      exact (not_lt.1 hnlt).trans (lesserChild_le hc hcn hparent)
  · exact h.ordered_except c hc hcn hlo hparent

/-- **`down` repairs its precondition.** -/
theorem downFrom_ordered {l : List α} {n lo i : ℕ} (h : DownReady d l n lo i) (hn : n ≤ l.length) :
    Ordered d (downFrom d l n i).1 n lo := by
  fun_induction downFrom d l n i with
  | case1 l i hleaf => exact h.ordered (.inl hleaf)
  | case2 l i hchild hlt ih => exact ih (h.move hn (by omega) hlt) (by simpa using hn)
  | case3 l i hchild hnlt => exact h.ordered (.inr hnlt)

/-! ### Heaps -/

/-- The root of an ordered slice is its least entry below `n`. -/
theorem Ordered.root_le {l : List α} {n : ℕ} (h : Ordered d l n 0) {k : ℕ} (hk : k < n) :
    l.getD 0 d ≤ l.getD k d := by
  induction k using Nat.strong_induction_on with
  | _ k ih =>
    rcases Nat.eq_zero_or_pos k with rfl | hk0
    · exact le_rfl
    · exact (ih (parent k) (parent_lt hk0) ((parent_lt hk0).trans hk)).trans
        (h k hk0 hk (Nat.zero_le _))

theorem IsHeap.root_le {l : List α} (h : IsHeap d l) {x : α} (hx : x ∈ l) : l.getD 0 d ≤ x := by
  obtain ⟨k, hk, rfl⟩ := List.getElem_of_mem hx
  rw [← List.getD_eq_getElem _ d hk]
  exact Ordered.root_le h hk

/-- The first `n` entries of a slice ordered below `n` are a heap. -/
theorem Ordered.isHeap_take {l : List α} {n : ℕ} (h : Ordered d l n 0) (hn : n ≤ l.length) :
    IsHeap d (l.take n) := by
  intro c hc hcn _
  have hcn' : c < n := by simpa [hn] using hcn
  rw [getD_take_of_lt l ((parent_lt hc).trans hcn'), getD_take_of_lt l hcn']
  exact h c hc hcn' (Nat.zero_le _)

theorem isHeap_nil : IsHeap d ([] : List α) := by
  intro c _ hc
  simp at hc

theorem init_loop {n : ℕ} :
    ∀ m (l : List α), l.length = n → m ≤ n / 2 → Ordered d l n m →
      Ordered d ((List.range m).reverse.foldl (fun h i => (down d h i n).1) l) n 0 ∧
        ((List.range m).reverse.foldl (fun h i => (down d h i n).1) l).Perm l := by
  intro m
  induction m with
  | zero =>
    intro l _ _ h
    exact ⟨h, List.Perm.refl _⟩
  | succ m ih =>
    intro l hl hm h
    rw [List.range_succ, List.reverse_append, List.reverse_singleton, List.singleton_append,
      List.foldl_cons]
    -- the edges over `m + 1` are ordered: `down` from `m` orders those over `m`
    have hready : DownReady d l n m m := by
      refine ⟨le_rfl, fun c hc hcn hlo hne => h c hc hcn (by omega), fun c _ _ _ hm0 hlo => ?_⟩
      have := parent_lt hm0
      omega
    have hdown := downFrom_ordered hready hl.ge
    have hperm := downFrom_perm (d := d) (i := m) hl.ge
    obtain ⟨hord, hperm'⟩ := ih (down d l m n).1 (by simp [down, hl]) (by omega) hdown
    exact ⟨hord, hperm'.trans hperm⟩

/-- **`Init` builds a heap** out of any slice, by permuting it. -/
theorem isHeap_init (l : List α) : IsHeap d (init d l) ∧ (init d l).Perm l := by
  obtain ⟨hord, hperm⟩ := init_loop (d := d) (l.length / 2) l rfl le_rfl (fun c hc hcn hlo => by
    unfold parent at hlo
    omega)
  have hlen : (init d l).length = l.length := hperm.length_eq
  refine ⟨?_, hperm⟩
  unfold IsHeap
  rw [hlen]
  exact hord

/-- **`Push` keeps a heap**, adding its entry. -/
theorem isHeap_push {l : List α} (h : IsHeap d l) (x : α) :
    IsHeap d (push d l x) ∧ (push d l x).Perm (l ++ [x]) := by
  have hlen : (l ++ [x]).length = l.length + 1 := by simp
  have hready : UpReady d (l ++ [x]) (l.length + 1) l.length := by
    refine ⟨Nat.lt_succ_self _, fun c hc hcn hne => ?_, fun c hc _ hparent hl => ?_⟩
    · have hcl : c < l.length := by omega
      rw [List.getD_append _ _ _ _ ((parent_lt hc).trans hcl), List.getD_append _ _ _ _ hcl]
      exact h c hc hcl (Nat.zero_le _)
    · have := (parent_eq_iff hc).1 hparent
      omega
  refine ⟨?_, up_perm (by simp)⟩
  unfold IsHeap push
  rw [up_length, hlen]
  exact up_ordered hready hlen.ge

omit [LinearOrder α] in
/-- What `pop` and `remove` take off: the last entry of a slice one longer than the heap. -/
theorem take_append_getD {h : List α} {n : ℕ} (hn : h.length = n + 1) :
    h.take n ++ [h.getD n d] = h := by
  rw [List.getD_eq_getElem _ _ (by omega)]
  conv_rhs => rw [← List.take_append_drop n h]
  rw [List.drop_eq_getElem_cons (by omega), List.drop_eq_nil_of_le (by omega)]

/-- Taking the last entry off a slice ordered below its last position leaves a heap. -/
theorem isHeap_take_of_ordered {h l : List α} {n : ℕ} (hord : Ordered d h n 0) (hperm : h.Perm l)
    (hlen : l.length = n + 1) : IsHeap d (h.take n) ∧ (h.getD n d :: h.take n).Perm l := by
  have hlen' : h.length = n + 1 := hperm.length_eq.trans hlen
  refine ⟨hord.isHeap_take (by omega), (List.perm_append_singleton _ _).symm.trans ?_⟩
  rw [take_append_getD hlen']
  exact hperm

/-- **`Pop` takes the root off a heap**, keeping the rest a heap. -/
theorem isHeap_pop {l : List α} (h : IsHeap d l) (hl : l ≠ []) :
    IsHeap d (pop d l).2 ∧ (pop d l).1 = l.getD 0 d ∧ ((pop d l).1 :: (pop d l).2).Perm l := by
  have hpos : 0 < l.length := List.length_pos_iff.2 hl
  set n := l.length - 1 with hn
  have hnl : n < l.length := by omega
  set l₁ := swap d l 0 n with hl₁
  -- the last entry at the root: only the edges leaving the root may be out of order
  have hready : DownReady d l₁ n 0 0 := by
    refine ⟨le_rfl, fun c hc hcn _ hp0 => ?_, fun c _ _ _ h0 => absurd h0 (lt_irrefl 0)⟩
    rw [hl₁, getD_swap_of_ne l hp0 (by have := parent_lt hc; omega),
      getD_swap_of_ne l (by omega) (by omega)]
    exact h c hc (hcn.trans hnl) (Nat.zero_le _)
  have hl₁len : n ≤ l₁.length := by
    rw [hl₁, swap_length]
    omega
  set h₂ := (downFrom d l₁ n 0).1 with hh₂
  have hpop : pop d l = (h₂.getD n d, h₂.take n) := rfl
  have hlast : h₂.getD n d = l.getD 0 d := by
    rw [hh₂, downFrom_getD_of_le le_rfl, hl₁, getD_swap_right hnl]
  obtain ⟨hheap, hperm⟩ := isHeap_take_of_ordered (downFrom_ordered hready hl₁len)
    ((downFrom_perm hl₁len).trans (swap_perm hpos hnl)) (by omega)
  rw [hpop]
  exact ⟨hheap, hlast, hperm⟩

/-- **Popping a heap sorts it**: the sorted slice is the popped entry before the sorted rest. -/
theorem insertionSort_eq_pop {l : List α} (h : IsHeap d l) (hl : l ≠ []) :
    l.insertionSort (· ≤ ·) = (pop d l).1 :: (pop d l).2.insertionSort (· ≤ ·) := by
  obtain ⟨-, hroot, hperm⟩ := isHeap_pop h hl
  -- the popped root is at most everything left
  have hle : ∀ y ∈ (pop d l).2, (pop d l).1 ≤ y := by
    intro y hy
    rw [hroot]
    exact h.root_le (hperm.subset (List.mem_cons_of_mem _ hy))
  rw [← List.insertionSort_cons_of_forall_rel (fun x y : α => x ≤ y) hle]
  exact List.Perm.eq_of_sortedLE List.sortedLE_insertionSort List.sortedLE_insertionSort
    ((List.perm_insertionSort _ _).trans (hperm.symm.trans (List.perm_insertionSort _ _).symm))

/-- **Repairing a heap after moving its last entry to `i`**: `down` from `i`, and `up` from `i`
when `down` left the entry in place, orders the slice before the old last position, which now
holds the entry that was at `i`. -/
theorem repair_ordered {l : List α} (h : IsHeap d l) {i n : ℕ} (hn : n = l.length - 1)
    (hin : i < n) :
    Ordered d (if (down d (swap d l i n) i n).2 then (down d (swap d l i n) i n).1
      else up d (down d (swap d l i n) i n).1 i) n 0 ∧
    (if (down d (swap d l i n) i n).2 then (down d (swap d l i n) i n).1
      else up d (down d (swap d l i n) i n).1 i).Perm l ∧
    (if (down d (swap d l i n) i n).2 then (down d (swap d l i n) i n).1
      else up d (down d (swap d l i n) i n).1 i).getD n d = l.getD i d := by
  have hnl : n < l.length := by omega
  have hi : i < l.length := by omega
  have hheap : ∀ c, 0 < c → c < n → l.getD (parent c) d ≤ l.getD c d :=
    fun c hc hcn => h c hc (by omega) (Nat.zero_le _)
  set l₁ := swap d l i n with hl₁
  have hl₁len : n ≤ l₁.length := by
    rw [hl₁, swap_length]
    omega
  have hl₁i : l₁.getD i d = l.getD n d := getD_swap_left hi hnl
  have hl₁c : ∀ c, c ≠ i → c < n → l₁.getD c d = l.getD c d :=
    fun c hci hcn => getD_swap_of_ne l hci (by omega)
  -- `i`'s old parent is at most `i`'s children
  have hgrand : ∀ c, 0 < c → c < n → parent c = i → 0 < i →
      l₁.getD (parent i) d ≤ l₁.getD c d := by
    intro c hc hcn hparent hi0
    have hic : i < c := hparent ▸ parent_lt hc
    rw [hl₁c _ (parent_lt hi0).ne ((parent_lt hi0).trans hin), hl₁c c (by omega) hcn]
    exact (hheap i hi0 hin).trans (hparent ▸ hheap c hc hcn)
  have hperm₁ : l₁.Perm l := swap_perm hi hnl
  have hlast₁ : l₁.getD n d = l.getD i d := getD_swap_right hnl
  -- what `up` from `i` leaves, once the slice is ready for it
  have hup : UpReady d l₁ n i → Ordered d (up d l₁ i) n 0 ∧ (up d l₁ i).Perm l ∧
      (up d l₁ i).getD n d = l.getD i d := fun hready =>
    ⟨up_ordered hready hl₁len, (up_perm (by omega)).trans hperm₁,
      (up_getD_of_lt hin).trans hlast₁⟩
  by_cases hbelow : 0 < i ∧ l.getD n d < l.getD (parent i) d
  · -- the moved entry is less than `i`'s parent: `down` leaves it, `up` lifts it
    have hstay : downFrom d l₁ n i = (l₁, i) := by
      refine downFrom_of_le_children fun c hc hcn hparent => ?_
      rw [hl₁i]
      exact (hgrand c hc hcn hparent hbelow.1).trans' (by
        rw [hl₁c _ (parent_lt hbelow.1).ne ((parent_lt hbelow.1).trans hin)]
        exact hbelow.2.le)
    have hmoved : down d l₁ i n = (l₁, false) := by
      simp [down, hstay]
    rw [hmoved]
    refine hup ⟨hin, fun c hc hcn hci => ?_, hgrand⟩
    rw [hl₁c c hci hcn]
    by_cases hparent : parent c = i
    · rw [hparent, hl₁i]
      exact hbelow.2.le.trans ((hheap i hbelow.1 hin).trans (hparent ▸ hheap c hc hcn))
    · rw [hl₁c _ hparent ((parent_lt hc).trans hcn)]
      exact hheap c hc hcn
  · -- the moved entry is at least `i`'s parent: only the edges leaving `i` may be out of order
    have hready : DownReady d l₁ n 0 i := by
      refine ⟨Nat.zero_le _, fun c hc hcn _ hparent => ?_, fun c hc hcn hp hi0 _ =>
        hgrand c hc hcn hp hi0⟩
      rw [hl₁c _ hparent ((parent_lt hc).trans hcn)]
      by_cases hci : c = i
      · subst hci
        rw [hl₁i]
        exact not_lt.1 fun hlt => hbelow ⟨hc, hlt⟩
      · rw [hl₁c c hci hcn]
        exact hheap c hc hcn
    have hord := downFrom_ordered hready hl₁len
    have hperm₂ : (downFrom d l₁ n i).1.Perm l := (downFrom_perm hl₁len).trans hperm₁
    have hlast₂ : (downFrom d l₁ n i).1.getD n d = l.getD i d :=
      (downFrom_getD_of_le le_rfl).trans hlast₁
    by_cases hmove : i < (downFrom d l₁ n i).2
    · have hmoved : (down d l₁ i n).2 = true := by simp [down, hmove]
      rw [if_pos hmoved]
      exact ⟨hord, hperm₂, hlast₂⟩
    · have hmoved : (down d l₁ i n).2 = false := by simp [down, hmove]
      have hsame : (downFrom d l₁ n i).1 = l₁ := downFrom_fst_of_snd (not_lt.1 hmove)
      have hsame' : (down d l₁ i n).1 = l₁ := hsame
      rw [if_neg (by simp [hmoved]), hsame']
      rw [hsame] at hord
      exact hup (hord.upReady hin)

/-- **`Remove` takes the entry at `i` off a heap**, keeping the rest a heap. -/
theorem isHeap_remove {l : List α} (h : IsHeap d l) {i : ℕ} (hi : i < l.length) :
    IsHeap d (remove d l i).2 ∧ (remove d l i).1 = l.getD i d ∧
      ((remove d l i).1 :: (remove d l i).2).Perm l := by
  set n := l.length - 1 with hn
  set h' := if n ≠ i then
      if (down d (swap d l i n) i n).2 then (down d (swap d l i n) i n).1
      else up d (down d (swap d l i n) i n).1 i
    else l with hh'
  have hrem : remove d l i = (h'.getD n d, h'.take n) := rfl
  have hrepair : Ordered d h' n 0 ∧ h'.Perm l ∧ h'.getD n d = l.getD i d := by
    by_cases hni : n = i
    · -- the last position: nothing to repair
      rw [hh', if_neg (not_not.2 hni)]
      exact ⟨fun c hc hcn _ => h c hc (by omega) (Nat.zero_le _), List.Perm.refl _, by rw [hni]⟩
    rw [hh', if_pos hni]
    exact repair_ordered h hn (by omega)
  obtain ⟨hord, hperm, hlast⟩ := hrepair
  obtain ⟨hheap', hperm'⟩ := isHeap_take_of_ordered hord hperm (by omega)
  rw [hrem]
  exact ⟨hheap', hlast, hperm'⟩

end BinaryHeap
