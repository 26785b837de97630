import Mathlib.Order.Basic
import Mathlib.Data.Option.Basic

/-!
# Parent links in a keyed store

A store maps keys to nodes (`get : κ → Option β`) and every node names the key of its parent
(`parent : β → κ`).  This is the shape of any block store: headers filed under their hashes,
each naming its parent's hash.

* `walk k c` follows `k` parent links from the key `c`, failing at the first missing node;
* `AncestorOrSelf a c`: `a` is reached from `c` through stored nodes (`walk_ancestorOrSelf`:
  a successful walk witnesses it);
* `OnOneChain a c`: one of the two is an ancestor-or-self of the other;
* with a numbering in which every stored parent is numbered one less than its child
  (`Numbered`), an ancestor is numbered no more than its descendant and only the node itself
  has the same number (`AncestorOrSelf.number_le`); so two distinct stored keys of equal
  number are not on one chain (`not_onOneChain_of_number_eq`).  A store read from a list is
  numbered when every listed node's listed parent is (`numbered_find`).
-/

namespace ParentLinks

variable {κ β : Type} (get : κ → Option β) (parent : β → κ)

/-- Follow `k` parent links from `c`. -/
def walk : ℕ → κ → Option κ
  | 0, c => some c
  | k + 1, c => (get c).bind fun b => walk k (parent b)

@[simp] theorem walk_zero (c : κ) : walk get parent 0 c = some c := rfl

theorem walk_succ (k : ℕ) (c : κ) :
    walk get parent (k + 1) c = (get c).bind fun b => walk get parent k (parent b) := rfl

/-- `a` is `c` or is reached from `c` through stored nodes. -/
inductive AncestorOrSelf (a : κ) : κ → Prop
  | refl : AncestorOrSelf a a
  | step {c : κ} {b : β} : get c = some b → AncestorOrSelf a (parent b) → AncestorOrSelf a c

/-- The two keys lie on a single chain. -/
def OnOneChain (a c : κ) : Prop :=
  AncestorOrSelf get parent a c ∨ AncestorOrSelf get parent c a

/-- Every stored node's stored parent is numbered one less. -/
def Numbered (number : β → ℕ) : Prop :=
  ∀ c b, get c = some b → ∀ p, get (parent b) = some p → number p + 1 = number b

variable {get parent}

/-- A store read from a list, by the first node of each key, is numbered when every listed node's
listed parent is numbered one less. -/
theorem numbered_find [DecidableEq κ] {key : β → κ} {number : β → ℕ} {L : List β}
    (h : ∀ b ∈ L, ∀ p ∈ L, key p = parent b → number p + 1 = number b) :
    Numbered (fun k => L.find? (key · = k)) parent number := by
  intro c b hb p hp
  have hkey : key p = parent b := by simpa using List.find?_some hp
  exact h b (List.mem_of_find?_eq_some hb) p (List.mem_of_find?_eq_some hp) hkey

/-- **A successful walk ends at an ancestor-or-self.** -/
theorem walk_ancestorOrSelf {k : ℕ} {a c : κ} (h : walk get parent k c = some a) :
    AncestorOrSelf get parent a c := by
  induction k generalizing c with
  | zero =>
    cases h
    exact .refl
  | succ k ih =>
    rw [walk_succ] at h
    cases hc : get c with
    | none => rw [hc] at h; cases h
    | some b =>
      rw [hc, Option.bind_some] at h
      exact .step hc (ih h)

/-- A stored ancestor has a stored descendant. -/
theorem AncestorOrSelf.get_isSome {a c : κ} {ba : β} (h : AncestorOrSelf get parent a c)
    (ha : get a = some ba) : ∃ bc, get c = some bc := by
  cases h with
  | refl => exact ⟨ba, ha⟩
  | step hc _ => exact ⟨_, hc⟩

/-- **Ancestors are numbered lower**: under a `Numbered` store, an ancestor-or-self has a
number no larger, and equal only when it is the node itself. -/
theorem AncestorOrSelf.number_le {number : β → ℕ} (hn : Numbered get parent number) {a c : κ}
    {ba : β} (h : AncestorOrSelf get parent a c) (ha : get a = some ba) :
    ∀ bc, get c = some bc → number ba ≤ number bc ∧ (number ba = number bc → a = c) := by
  induction h with
  | refl =>
    intro bc hc
    rw [ha] at hc
    cases hc
    exact ⟨Nat.le_refl _, fun _ => rfl⟩
  | @step c b hcb hpar ih =>
    intro bc hc
    rw [hcb] at hc
    cases hc
    obtain ⟨p, hp⟩ := hpar.get_isSome ha
    have hpb : number p + 1 = number b := hn c b hcb p hp
    have hle := (ih p hp).1
    refine ⟨by omega, fun heq => ?_⟩
    omega

/-- **Distinct keys of equal number are not on one chain.** -/
theorem not_onOneChain_of_number_eq {number : β → ℕ} (hn : Numbered get parent number)
    {a c : κ} {ba bc : β} (hne : a ≠ c) (ha : get a = some ba) (hc : get c = some bc)
    (heq : number ba = number bc) : ¬ OnOneChain get parent a c := by
  rintro (h | h)
  · exact hne ((h.number_le hn ha bc hc).2 heq)
  · exact hne ((h.number_le hn hc ba ha).2 heq.symm).symm

end ParentLinks
