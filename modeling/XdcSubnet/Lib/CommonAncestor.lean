import XdcSubnet.Lib.ParentLinks
import Mathlib.Data.List.Chain
import Mathlib.Data.Nat.Find

/-!
# Walks, paths and lowest common ancestors in a keyed store

Continues `ParentLinks` with what a walk of a given length says about ancestry in a numbered
store, and with the meeting point of two walks.

* a walk of `i + k` links is one of `i` links and then one of `k` (`walk_add`); it fails
  exactly when it reaches a missing node within its length (`walk_eq_none_iff`);
* in a `Numbered` store a walk between stored nodes descends by its length (`walk_number`), so
  a stored ancestor-or-self is reached by the walk of the numbers' difference
  (`AncestorOrSelf.walk_eq`);
* `trail k c` lists the keys a walk visits; reversed, it is a path from where the walk ends
  to `c`, each key the stored parent of the next (`isPath_reverse_trail`);
* two stored nodes, below which a stored common ancestor lies, are first joined by their walks
  (the higher one first walked down to the lower one's number) somewhere (`exists_first_meet`),
  and where they first meet is their lowest common ancestor
  (`isLowestCommonAncestor_of_first_meet`).
-/

namespace ParentLinks

variable {κ β : Type} {get : κ → Option β} {parent : β → κ}

theorem walk_add (i k : ℕ) (c : κ) :
    walk get parent (i + k) c = (walk get parent i c).bind (walk get parent k) := by
  induction i generalizing c with
  | zero => simp
  | succ i ih =>
    rw [Nat.add_right_comm, walk_succ, walk_succ, Option.bind_assoc]
    simp only [ih]

/-- A walk that gets further than `c` went through a stored `c`. -/
theorem get_isSome_of_walk {k : ℕ} {c a : κ} (hk : 0 < k) (h : walk get parent k c = some a) :
    (get c).isSome := by
  obtain ⟨k, rfl⟩ := Nat.exists_eq_add_of_lt hk
  rw [Nat.zero_add, walk_succ] at h
  cases hc : get c with
  | none => rw [hc] at h; cases h
  | some _ => rfl

/-- **A walk fails exactly at a missing node on its way.** -/
theorem walk_eq_none_iff {k : ℕ} {c : κ} :
    walk get parent k c = none ↔ ∃ i < k, ∃ x, walk get parent i c = some x ∧ get x = none := by
  constructor
  · intro h
    induction k generalizing c with
    | zero => cases h
    | succ k ih =>
      rw [walk_succ] at h
      cases hc : get c with
      | none => exact ⟨0, Nat.succ_pos k, c, rfl, hc⟩
      | some b =>
        rw [hc, Option.bind_some] at h
        obtain ⟨i, hi, x, hx, hgx⟩ := ih h
        exact ⟨i + 1, Nat.succ_lt_succ hi, x, by rw [walk_succ, hc, Option.bind_some, hx], hgx⟩
  · rintro ⟨i, hi, x, hx, hgx⟩
    obtain ⟨j, rfl⟩ := Nat.exists_eq_add_of_lt hi
    rw [Nat.add_assoc, walk_add, hx, Option.bind_some, walk_succ, hgx, Option.bind_none]

theorem AncestorOrSelf.exists_walk {a c : κ} (h : AncestorOrSelf get parent a c) :
    ∃ k, walk get parent k c = some a := by
  induction h with
  | refl => exact ⟨0, rfl⟩
  | step hc _ ih =>
    obtain ⟨k, hk⟩ := ih
    exact ⟨k + 1, by rw [walk_succ, hc, Option.bind_some, hk]⟩

theorem ancestorOrSelf_iff_walk {a c : κ} :
    AncestorOrSelf get parent a c ↔ ∃ k, walk get parent k c = some a :=
  ⟨AncestorOrSelf.exists_walk, fun ⟨_, h⟩ => walk_ancestorOrSelf h⟩

theorem AncestorOrSelf.trans {a b c : κ} (hab : AncestorOrSelf get parent a b)
    (hbc : AncestorOrSelf get parent b c) : AncestorOrSelf get parent a c := by
  obtain ⟨i, hi⟩ := hbc.exists_walk
  obtain ⟨k, hk⟩ := hab.exists_walk
  exact walk_ancestorOrSelf (k := i + k) (by rw [walk_add, hi, Option.bind_some, hk])

/-- Two ancestors of one key lie on one chain. -/
theorem AncestorOrSelf.total {a b c : κ} (ha : AncestorOrSelf get parent a c)
    (hb : AncestorOrSelf get parent b c) : AncestorOrSelf get parent a b ∨
      AncestorOrSelf get parent b a := by
  obtain ⟨i, hi⟩ := ha.exists_walk
  obtain ⟨j, hj⟩ := hb.exists_walk
  rcases le_total i j with hij | hji
  · obtain ⟨d, rfl⟩ := Nat.exists_eq_add_of_le hij
    rw [walk_add, hi, Option.bind_some] at hj
    exact .inr (walk_ancestorOrSelf hj)
  · obtain ⟨d, rfl⟩ := Nat.exists_eq_add_of_le hji
    rw [walk_add, hj, Option.bind_some] at hi
    exact .inl (walk_ancestorOrSelf hi)

section Numbered

variable {number : β → ℕ}

/-- **A walk descends by its length** between stored nodes of a numbered store. -/
theorem walk_number (hn : Numbered get parent number) {k : ℕ} {c y : κ} {bc by' : β}
    (h : walk get parent k c = some y) (hc : get c = some bc) (hy : get y = some by') :
    number by' + k = number bc := by
  induction k generalizing c bc with
  | zero =>
    cases h
    rw [hc] at hy
    cases hy
    rfl
  | succ k ih =>
    rw [walk_succ, hc, Option.bind_some] at h
    obtain ⟨p, hp⟩ := (walk_ancestorOrSelf h).get_isSome hy
    have hstep := hn c bc hc p hp
    have := ih h hp
    omega

/-- **A stored ancestor-or-self is reached by the walk of the numbers' difference.** -/
theorem AncestorOrSelf.walk_eq (hn : Numbered get parent number) {a c : κ} {ba bc : β}
    (h : AncestorOrSelf get parent a c) (ha : get a = some ba) (hc : get c = some bc) :
    walk get parent (number bc - number ba) c = some a := by
  obtain ⟨k, hk⟩ := h.exists_walk
  have := walk_number hn hk hc ha
  rwa [show number bc - number ba = k by omega]

end Numbered

variable (get parent)

/-- The keys a walk of `k` links from `c` visits, `c` first; cut short at a missing node. -/
def trail : ℕ → κ → List κ
  | 0, c => [c]
  | k + 1, c => c :: ((get c).map fun b => trail k (parent b)).getD []

/-- `l` runs from `a` to `c`, each key the parent of the next one's stored node. -/
def IsPath (l : List κ) (a c : κ) : Prop :=
  l.head? = some a ∧ l.getLast? = some c ∧
    l.IsChain fun p k => ∃ b, get k = some b ∧ parent b = p

/-- `w` is an ancestor-or-self of both `x` and `y`, and every such key is one of `w`. -/
def IsLowestCommonAncestor (w x y : κ) : Prop :=
  AncestorOrSelf get parent w x ∧ AncestorOrSelf get parent w y ∧
    ∀ v, AncestorOrSelf get parent v x → AncestorOrSelf get parent v y →
      AncestorOrSelf get parent v w

variable {get parent}

theorem IsLowestCommonAncestor.symm {w x y : κ} (h : IsLowestCommonAncestor get parent w x y) :
    IsLowestCommonAncestor get parent w y x :=
  ⟨h.2.1, h.1, fun v hvy hvx => h.2.2 v hvx hvy⟩

theorem trail_succ_of_get {k : ℕ} {c : κ} {b : β} (hc : get c = some b) :
    trail get parent (k + 1) c = c :: trail get parent k (parent b) := by
  rw [trail, hc, Option.map_some, Option.getD_some]

theorem trail_eq_cons (k : ℕ) (c : κ) : trail get parent k c = c :: (trail get parent k c).tail := by
  cases k <;> rfl

/-- A trail of `i + k` links is the trail of `i` links continued by the one of `k` from where it
ends. -/
theorem trail_add {i : ℕ} {c y : κ} (h : walk get parent i c = some y) (k : ℕ) :
    trail get parent (i + k) c = trail get parent i c ++ (trail get parent k y).tail := by
  induction i generalizing c with
  | zero =>
    cases h
    rw [Nat.zero_add, trail, List.singleton_append, ← trail_eq_cons]
  | succ i ih =>
    rw [walk_succ] at h
    cases hc : get c with
    | none => rw [hc] at h; cases h
    | some b =>
      rw [hc, Option.bind_some] at h
      rw [Nat.add_right_comm, trail_succ_of_get hc, trail_succ_of_get hc, ih h, List.cons_append]

/-- **A walk leaves a path behind it**: its trail, reversed, runs from where it ends to where it
started. -/
theorem isPath_reverse_trail {k : ℕ} {c a : κ} (h : walk get parent k c = some a) :
    IsPath get parent (trail get parent k c).reverse a c := by
  induction k generalizing c with
  | zero =>
    cases h
    exact ⟨rfl, rfl, List.isChain_singleton _⟩
  | succ k ih =>
    rw [walk_succ] at h
    cases hc : get c with
    | none => rw [hc] at h; cases h
    | some b =>
      rw [hc, Option.bind_some] at h
      obtain ⟨hhead, hlast, hchain⟩ := ih h
      have hne : (trail get parent k (parent b)).reverse ≠ [] := by
        rw [trail_eq_cons]
        simp
      rw [trail_succ_of_get hc, List.reverse_cons]
      refine ⟨by rw [List.head?_append_of_ne_nil _ hne, hhead], List.getLast?_concat, ?_⟩
      refine List.isChain_append.2 ⟨hchain, List.isChain_singleton _, ?_⟩
      intro x hx y hy
      rw [hlast, Option.mem_some_iff] at hx
      rw [List.head?_singleton, Option.mem_some_iff] at hy
      exact ⟨b, hy ▸ hc, hx⟩

section Meet

variable {number : β → ℕ} (hn : Numbered get parent number)
include hn

/-- **Two walks that reach a stored common ancestor first meet somewhere**: from `x`, and from
`y` numbered `d` higher after its first `d` links, within `x`'s number of links. -/
theorem exists_first_meet [DecidableEq κ] {x y : κ} {bx by' : β} (hx : get x = some bx)
    (hy : get y = some by') {d : ℕ} (hxy : number bx + d = number by')
    (hz : ∃ z, (get z).isSome ∧ AncestorOrSelf get parent z x ∧ AncestorOrSelf get parent z y) :
    ∃ j w, j ≤ number bx ∧ walk get parent j x = some w ∧ walk get parent (d + j) y = some w ∧
      ∀ i < j, walk get parent i x ≠ walk get parent (d + i) y := by
  obtain ⟨z, hzs, hzx, hzy⟩ := hz
  obtain ⟨bz, hbz⟩ := Option.isSome_iff_exists.1 hzs
  have hle := (hzx.number_le hn hbz bx hx).1
  have hzj : walk get parent (number bx - number bz) x =
      walk get parent (d + (number bx - number bz)) y ∧
      (walk get parent (number bx - number bz) x).isSome := by
    rw [hzx.walk_eq hn hbz hx, show d + (number bx - number bz) = number by' - number bz by omega,
      hzy.walk_eq hn hbz hy]
    exact ⟨rfl, rfl⟩
  have hmeet : ∃ j, walk get parent j x = walk get parent (d + j) y ∧
      (walk get parent j x).isSome := ⟨_, hzj⟩
  obtain ⟨w, hw⟩ := Option.isSome_iff_exists.1 (Nat.find_spec hmeet).2
  refine ⟨Nat.find hmeet, w, ?_, hw, (Nat.find_spec hmeet).1 ▸ hw, fun i hi heq => ?_⟩
  · exact (Nat.find_min' hmeet hzj).trans (Nat.sub_le _ _)
  · -- an earlier meeting would be on the walk to `w`, so it is not a failed one
    obtain ⟨e, he⟩ := Nat.exists_eq_add_of_lt hi
    have hsome : (walk get parent i x).isSome := by
      cases hix : walk get parent i x with
      | none => rw [he, Nat.add_assoc, walk_add, hix, Option.bind_none] at hw; cases hw
      | some _ => rfl
    exact Nat.find_min hmeet hi ⟨heq, hsome⟩

/-- **Where two walks first meet is the lowest common ancestor.**  A common ancestor below the
meeting point is on the walk beyond it; one above it would be stored, so its numbers would put
it on both walks at the same offset, an earlier meeting. -/
theorem isLowestCommonAncestor_of_first_meet {x y w : κ} {bx by' : β} (hx : get x = some bx)
    (hy : get y = some by') {d : ℕ} (hxy : number bx + d = number by') {j : ℕ}
    (hwx : walk get parent j x = some w) (hwy : walk get parent (d + j) y = some w)
    (hfirst : ∀ i < j, walk get parent i x ≠ walk get parent (d + i) y) :
    IsLowestCommonAncestor get parent w x y := by
  refine ⟨walk_ancestorOrSelf hwx, walk_ancestorOrSelf hwy, fun v hvx hvy => ?_⟩
  obtain ⟨kx, hkx⟩ := hvx.exists_walk
  obtain ⟨ky, hky⟩ := hvy.exists_walk
  rcases le_or_gt j kx with hle | hlt
  · obtain ⟨e, rfl⟩ := Nat.exists_eq_add_of_le hle
    rw [walk_add, hwx, Option.bind_some] at hkx
    exact walk_ancestorOrSelf hkx
  · exfalso
    obtain ⟨e, he⟩ := Nat.exists_eq_add_of_lt hlt
    have hvw : walk get parent (e + 1) v = some w := by
      rwa [he, Nat.add_assoc, walk_add, hkx, Option.bind_some] at hwx
    obtain ⟨bv, hbv⟩ := Option.isSome_iff_exists.1 (get_isSome_of_walk (Nat.succ_pos e) hvw)
    have hnx := walk_number hn hkx hx hbv
    have hny := walk_number hn hky hy hbv
    have hk : ky = d + kx := by omega
    exact hfirst kx hlt (by rw [hkx, ← hk, hky])

end Meet

end ParentLinks
