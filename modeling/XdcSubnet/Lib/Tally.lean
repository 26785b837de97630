import Mathlib.Data.List.AList
import Mathlib.Algebra.BigOperators.Ring.List
import Mathlib.Algebra.Ring.Nat

/-!
# Tallies: maps of amounts

A map from keys to amounts into which a loop adds (a Go `map[K]*big.Int` or a map of counters),
and the loop that adds every entry of such a map to a balance function, as association lists of
natural numbers.

* `get` reads a missing key as `0`, the zero value;
* `add m k n` adds `n` at `k`, creating the entry (`get_add`);
* `total` sums the entries: `add` raises it by `n` (`total_add`), an assignment replaces the
  key's share (`total_insert`), erasing a key takes its share away (`total_erase`), `scale`
  multiplies it (`total_scale`);
* `credit bal m` adds every entry of `m` to `bal`, and each key receives exactly its entry
  (`credit_apply`); crediting a list of maps in turn adds the sum of their entries
  (`foldl_credit_apply`).
-/

namespace Tally

/-- A map of amounts. -/
abbrev Counts (κ : Type) := AList (fun _ : κ => ℕ)

variable {κ : Type}

/-- The sum of the amounts. -/
def total (m : Counts κ) : ℕ := (m.entries.map Sigma.snd).sum

@[simp] theorem total_empty : total (∅ : Counts κ) = 0 := rfl

/-- Every amount multiplied by `c`. -/
def scale (m : Counts κ) (c : ℕ) : Counts κ :=
  ⟨m.entries.map fun e => ⟨e.1, c * e.2⟩, by
    simpa [List.NodupKeys, List.keys, Function.comp_def] using m.nodupKeys⟩

theorem total_scale (m : Counts κ) (c : ℕ) : total (scale m c) = c * total m := by
  simp only [total, scale, List.map_map, Function.comp_def]
  exact List.sum_map_mul_left m.entries Sigma.snd c

/-- A map with no key totals zero. -/
theorem total_eq_zero_of_keys (m : Counts κ) (h : m.keys = []) : total m = 0 := by
  have hentries : m.entries = [] := List.map_eq_nil_iff.1 h
  simp [total, hentries]

variable [DecidableEq κ]

/-- The amount at a key, `0` when the key is missing. -/
def get (m : Counts κ) (k : κ) : ℕ := (m.lookup k).getD 0

/-- Add `n` at `k`. -/
def add (m : Counts κ) (k : κ) (n : ℕ) : Counts κ := m.insert k (get m k + n)

/-- Add every entry of `m` to `bal`, in the order of the entries. -/
def credit (bal : κ → ℕ) (m : Counts κ) : κ → ℕ :=
  m.entries.foldl (fun b e => Function.update b e.1 (b e.1 + e.2)) bal

@[simp] theorem get_empty (k : κ) : get (∅ : Counts κ) k = 0 := rfl

theorem get_insert (m : Counts κ) (k j : κ) (n : ℕ) :
    get (m.insert k n) j = if j = k then n else get m j := by
  by_cases h : j = k
  · subst h; simp [get]
  · simp [get, AList.lookup_insert_ne h, h]

theorem get_add (m : Counts κ) (k j : κ) (n : ℕ) :
    get (add m k n) j = get m j + if j = k then n else 0 := by
  rw [add, get_insert]
  split_ifs with h
  · rw [h]
  · rfl

/-- Erasing a key takes away exactly its amount. -/
theorem sum_kerase_add_dlookup (k : κ) (l : List (Sigma fun _ : κ => ℕ)) :
    ((l.kerase k).map Sigma.snd).sum + (l.dlookup k).getD 0 = (l.map Sigma.snd).sum := by
  induction l with
  | nil => rfl
  | cons e l ih =>
    obtain ⟨k', v⟩ := e
    by_cases h : k = k'
    · subst h
      simp [List.kerase_cons_eq, List.dlookup_cons_eq, Nat.add_comm]
    · rw [List.kerase_cons_ne h, List.dlookup_cons_ne _ _ h]
      simp only [List.map_cons, List.sum_cons]
      omega

theorem total_insert (m : Counts κ) (k : κ) (n : ℕ) :
    total (m.insert k n) + get m k = total m + n := by
  have herase := sum_kerase_add_dlookup k m.entries
  simp only [total, get, AList.entries_insert, List.map_cons, List.sum_cons, AList.lookup] at *
  omega

theorem total_erase (m : Counts κ) (k : κ) : total (m.erase k) + get m k = total m :=
  sum_kerase_add_dlookup k m.entries

theorem get_le_total (m : Counts κ) (k : κ) : get m k ≤ total m := by
  have h := total_erase m k
  omega

theorem total_add (m : Counts κ) (k : κ) (n : ℕ) : total (add m k n) = total m + n := by
  have h := total_insert m k (get m k + n)
  rw [← add] at h
  omega

/-- Crediting a list with distinct keys adds to each key its amount. -/
theorem foldl_update_apply (a : κ) :
    ∀ (l : List (Sigma fun _ : κ => ℕ)), l.NodupKeys → ∀ bal : κ → ℕ,
      l.foldl (fun b e => Function.update b e.1 (b e.1 + e.2)) bal a = bal a + (l.dlookup a).getD 0
  | [], _, bal => rfl
  | ⟨k, v⟩ :: l, hnd, bal => by
    obtain ⟨hk, hl⟩ := List.nodupKeys_cons.1 hnd
    rw [List.foldl_cons, foldl_update_apply a l hl]
    by_cases h : a = k
    · subst h
      simp [List.dlookup_eq_none.2 hk]
    · simp [Function.update_of_ne h, List.dlookup_cons_ne l ⟨k, v⟩ h]

theorem credit_apply (bal : κ → ℕ) (m : Counts κ) (a : κ) : credit bal m a = bal a + get m a :=
  foldl_update_apply a m.entries m.nodupKeys bal

/-- Crediting maps in turn adds, at each key, the sum of their amounts there. -/
theorem foldl_credit_apply (a : κ) :
    ∀ (ms : List (Counts κ)) (bal : κ → ℕ), ms.foldl credit bal a = bal a + (ms.map (get · a)).sum
  | [], _ => rfl
  | m :: ms, bal => by
    rw [List.foldl_cons, foldl_credit_apply a ms, credit_apply, List.map_cons, List.sum_cons]
    omega

end Tally
