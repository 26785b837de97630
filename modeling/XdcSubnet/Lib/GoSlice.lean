import Mathlib.Data.List.Sort

/-!
# Go slices over a memory of arrays

A slice is a window onto a backing array: the array it points into (none for a nil slice), an
offset and a length.  A memory lists the arrays by identity.  `make` allocates a fresh array of
zero values; `copy` writes as many entries of its source as fit into its destination's window,
reading the source first; an in-place sort rewrites a window with its entries in order; and
`reflect.DeepEqual` on two slices compares their nil-ness and their entries.

Allocation appends to the memory, so a run that writes only into arrays it allocated keeps
every earlier array as it was (`Extends`), and every slice a caller holds reads the same after
it (`read_of_extends`).  A write into one array leaves the slices of every other array as they
were (`read_write_of_ne`).
-/

namespace GoSlice

/-- A slice header. -/
structure Slice where
  array : Option ℕ
  offset : ℕ
  len : ℕ
deriving DecidableEq, Repr

/-- The nil slice. -/
def Slice.nil : Slice := ⟨none, 0, 0⟩

/-- The backing arrays, by identity. -/
structure Mem (α : Type*) where
  arrays : List (List α)

namespace Mem

variable {α : Type*}

/-- The array of identity `a`. -/
def array (m : Mem α) (a : ℕ) : List α := m.arrays.getD a []

/-- The entries a slice shows. -/
def read (m : Mem α) (s : Slice) : List α :=
  match s.array with
  | none => []
  | some a => ((m.array a).drop s.offset).take s.len

/-- A slice the runtime can hold: a nil slice is empty, any other lies within an allocated
array. -/
def Valid (m : Mem α) (s : Slice) : Prop :=
  match s.array with
  | none => s.len = 0
  | some a => a < m.arrays.length ∧ s.offset + s.len ≤ (m.array a).length

/-- `make([]T, n)`: a fresh array of `n` zero values and the slice over all of it. -/
def make (m : Mem α) (zero : α) (n : ℕ) : Mem α × Slice :=
  (⟨m.arrays ++ [List.replicate n zero]⟩, ⟨some m.arrays.length, 0, n⟩)

/-- Overwrite a slice's window from its start. -/
def write (m : Mem α) (s : Slice) (xs : List α) : Mem α :=
  match s.array with
  | none => m
  | some a =>
    ⟨m.arrays.modify a fun arr => arr.take s.offset ++ xs ++ arr.drop (s.offset + xs.length)⟩

/-- `copy(dst, src)`: the first `min(len(dst), len(src))` entries of `src`, read before any is
written. -/
def copy (m : Mem α) (dst src : Slice) : Mem α :=
  m.write dst ((m.read src).take dst.len)

/-- An in-place sort of a slice's window into ascending order. -/
def sortSlice [LinearOrder α] (m : Mem α) (s : Slice) : Mem α :=
  m.write s ((m.read s).insertionSort (· ≤ ·))

/-- `reflect.DeepEqual` on two slices: both nil or both not, with equal entries. -/
def deepEqual [DecidableEq α] (m : Mem α) (s t : Slice) : Bool :=
  s.array.isSome == t.array.isSome && decide (m.read s = m.read t)

/-- `m'` keeps every array of `m` as it was. -/
def Extends (m m' : Mem α) : Prop := m.arrays <+: m'.arrays

/-- `s` points into no array of `m`. -/
def Fresh (m : Mem α) (s : Slice) : Prop := ∀ a, s.array = some a → m.arrays.length ≤ a

@[simp] theorem read_nil (m : Mem α) : m.read Slice.nil = [] := rfl

theorem Extends.refl (m : Mem α) : m.Extends m := List.prefix_refl _

theorem Extends.trans {m₁ m₂ m₃ : Mem α} (h₁ : m₁.Extends m₂) (h₂ : m₂.Extends m₃) :
    m₁.Extends m₃ :=
  List.IsPrefix.trans h₁ h₂

theorem Extends.array {m m' : Mem α} (h : m.Extends m') {a : ℕ} (ha : a < m.arrays.length) :
    m'.array a = m.array a := by
  simp only [Mem.array, List.getD_eq_getElem?_getD, List.prefix_iff_getElem?.1 h a ha,
    List.getElem?_eq_getElem ha]

theorem Extends.length_le {m m' : Mem α} (h : m.Extends m') : m.arrays.length ≤ m'.arrays.length :=
  List.IsPrefix.length_le h

theorem Extends.valid {m m' : Mem α} (h : m.Extends m') {s : Slice} (hs : m.Valid s) :
    m'.Valid s := by
  unfold Valid at hs ⊢
  rcases ha : s.array with _ | a
  · simpa [ha] using hs
  · simp only [ha] at hs ⊢
    rw [h.array hs.1]
    exact ⟨lt_of_lt_of_le hs.1 h.length_le, hs.2⟩

/-- **A caller's slices read the same in a memory that extends theirs.** -/
theorem read_of_extends {m m' : Mem α} (h : m.Extends m') {s : Slice} (hs : m.Valid s) :
    m'.read s = m.read s := by
  unfold read
  unfold Valid at hs
  rcases ha : s.array with _ | a
  · rfl
  · simp only [ha] at hs ⊢
    rw [h.array hs.1]

theorem length_read {m : Mem α} {s : Slice} (hs : m.Valid s) : (m.read s).length = s.len := by
  unfold read
  unfold Valid at hs
  rcases ha : s.array with _ | a
  · simp only [ha] at hs
    simp [hs]
  · simp only [ha] at hs ⊢
    simp only [List.length_take, List.length_drop]
    omega

/-! ### `make` -/

theorem make_extends (m : Mem α) (zero : α) (n : ℕ) : m.Extends (m.make zero n).1 :=
  List.prefix_append _ _

theorem make_fresh (m : Mem α) (zero : α) (n : ℕ) : m.Fresh (m.make zero n).2 := by
  rintro a ⟨⟩
  exact le_rfl

theorem make_valid (m : Mem α) (zero : α) (n : ℕ) : (m.make zero n).1.Valid (m.make zero n).2 := by
  simp [make, Valid, Mem.array]

@[simp] theorem make_len (m : Mem α) (zero : α) (n : ℕ) : (m.make zero n).2.len = n := rfl

@[simp] theorem make_isSome (m : Mem α) (zero : α) (n : ℕ) : (m.make zero n).2.array.isSome := rfl

theorem Fresh.of_extends {m m' : Mem α} (h : m.Extends m') {s : Slice} (hs : m'.Fresh s) :
    m.Fresh s :=
  fun a ha => le_trans h.length_le (hs a ha)

/-- A fresh slice's array differs from every array of a valid slice of a memory it extends. -/
theorem Fresh.array_ne {m : Mem α} {s t : Slice} (hs : m.Fresh s) (ht : m.Valid t)
    (hst : s.array.isSome) : s.array ≠ t.array := by
  intro heq
  obtain ⟨a, ha⟩ := Option.isSome_iff_exists.1 hst
  unfold Valid at ht
  rw [← heq, ha] at ht
  exact absurd ht.1 (not_lt.2 (hs a ha))

/-! ### Writes -/

theorem array_write_of_ne (m : Mem α) {s : Slice} (xs : List α) {b : ℕ} (hb : s.array ≠ some b) :
    (m.write s xs).array b = m.array b := by
  unfold write
  split
  · rfl
  · rename_i a ha
    have hab : a ≠ b := fun h => hb (h ▸ ha)
    simp only [Mem.array, List.getD_eq_getElem?_getD, List.getElem?_modify, if_neg hab]
    cases m.arrays[b]? <;> rfl

/-- A write into one array leaves every slice of another as it was. -/
theorem read_write_of_ne (m : Mem α) {s t : Slice} (xs : List α) (h : s.array ≠ t.array) :
    (m.write s xs).read t = m.read t := by
  unfold read
  split
  · rfl
  · rename_i b hb
    rw [array_write_of_ne m xs (hb ▸ h)]

theorem write_length (m : Mem α) (s : Slice) (xs : List α) :
    (m.write s xs).arrays.length = m.arrays.length := by
  unfold write
  split <;> simp

theorem array_write_self {m : Mem α} {s : Slice} {a : ℕ} (ha : s.array = some a)
    (hlt : a < m.arrays.length) (xs : List α) :
    (m.write s xs).array a =
      (m.array a).take s.offset ++ xs ++ (m.array a).drop (s.offset + xs.length) := by
  simp [write, ha, Mem.array, List.getD_eq_getElem?_getD, List.getElem?_eq_getElem hlt]

/-- A write of at most a valid window's length keeps every array's length. -/
theorem array_length_write {m : Mem α} {s : Slice} (hs : m.Valid s) {xs : List α}
    (hx : xs.length ≤ s.len) (b : ℕ) : ((m.write s xs).array b).length = (m.array b).length := by
  by_cases hb : s.array = some b
  · unfold Valid at hs
    simp only [hb] at hs
    rw [array_write_self hb hs.1]
    simp only [List.length_append, List.length_take, List.length_drop]
    omega
  · rw [array_write_of_ne m xs hb]

theorem write_valid {m : Mem α} {s : Slice} (hs : m.Valid s) {xs : List α}
    (hx : xs.length ≤ s.len) {t : Slice} (ht : m.Valid t) : (m.write s xs).Valid t := by
  unfold Valid at ht ⊢
  rcases ha : t.array with _ | a
  · simpa [ha] using ht
  · simp only [ha] at ht ⊢
    rw [array_length_write hs hx, write_length]
    exact ht

/-- A write of exactly a valid window's length is what the window then shows. -/
theorem read_write_self {m : Mem α} {s : Slice} (hs : m.Valid s) {xs : List α}
    (hx : xs.length = s.len) : (m.write s xs).read s = xs := by
  unfold Valid at hs
  unfold read
  rcases ha : s.array with _ | a
  · simp only [ha] at hs
    exact (List.eq_nil_of_length_eq_zero (hx.trans hs)).symm
  · simp only [ha] at hs ⊢
    have hoff : ((m.array a).take s.offset).length = s.offset := by
      simp only [List.length_take]
      omega
    rw [array_write_self ha hs.1, List.append_assoc, List.drop_left' hoff, ← hx]
    exact List.take_left' rfl

theorem write_extends {m₀ m : Mem α} (h : m₀.Extends m) {s : Slice} (hs : m₀.Fresh s)
    (xs : List α) : m₀.Extends (m.write s xs) := by
  unfold write
  split
  · exact h
  · rename_i a ha
    rw [Extends, List.prefix_iff_eq_take, List.take_modify, ← List.prefix_iff_eq_take.1 h]
    exact (List.modify_eq_self (hs a ha)).symm

/-! ### `copy` and the in-place sort -/

theorem copy_valid {m : Mem α} {dst : Slice} (hdst : m.Valid dst) (src : Slice) {t : Slice}
    (ht : m.Valid t) : (m.copy dst src).Valid t :=
  write_valid hdst (by simp) ht

/-- A copy between windows of one length makes the destination show the source. -/
theorem copy_read_self {m : Mem α} {dst src : Slice} (hdst : m.Valid dst) (hsrc : m.Valid src)
    (hlen : dst.len = src.len) : (m.copy dst src).read dst = m.read src := by
  have hread : (m.read src).take dst.len = m.read src :=
    List.take_of_length_le (by rw [length_read hsrc, hlen])
  rw [copy, read_write_self hdst (by rw [hread, length_read hsrc, hlen]), hread]

theorem read_copy_of_ne (m : Mem α) {dst t : Slice} (src : Slice) (h : dst.array ≠ t.array) :
    (m.copy dst src).read t = m.read t :=
  read_write_of_ne m _ h

theorem copy_extends {m₀ m : Mem α} (h : m₀.Extends m) {dst : Slice} (hf : m₀.Fresh dst)
    (src : Slice) : m₀.Extends (m.copy dst src) :=
  write_extends h hf _

variable [LinearOrder α]

theorem sortSlice_valid {m : Mem α} {s : Slice} (hs : m.Valid s) {t : Slice} (ht : m.Valid t) :
    (m.sortSlice s).Valid t :=
  write_valid hs (by rw [List.length_insertionSort, length_read hs]) ht

theorem sortSlice_read_self {m : Mem α} {s : Slice} (hs : m.Valid s) :
    (m.sortSlice s).read s = (m.read s).insertionSort (· ≤ ·) :=
  read_write_self hs (by rw [List.length_insertionSort, length_read hs])

theorem read_sortSlice_of_ne (m : Mem α) {s t : Slice} (h : s.array ≠ t.array) :
    (m.sortSlice s).read t = m.read t :=
  read_write_of_ne m _ h

theorem sortSlice_extends {m₀ m : Mem α} (h : m₀.Extends m) {s : Slice} (hf : m₀.Fresh s) :
    m₀.Extends (m.sortSlice s) :=
  write_extends h hf _

end Mem

end GoSlice
