import XdcSubnet.EngineV2.LeaderSchedule
import XdcSubnet.Lib.GoSlice

/-!
# Comparing signer lists without touching them

`utils.CompareSignersLists` run over the slices it is passed, in the slice memory of
`Lib/GoSlice`: it copies both slices into arrays it allocates, sorts the copies in place and
compares them with `reflect.DeepEqual`.  Its answer is that of the list model
`compareSignersLists` on the entries the two slices show, so it holds exactly for permutations,
a nil and an empty slice both showing no entry; and every array that existed before the call,
the callers' included, is as it was after it (`compareSignersListsInMemory_spec`).
-/

namespace XdcSubnet.EngineV2

open GoSlice

/-- `utils.CompareSignersLists` over the memory the two slices live in. -/
def compareSignersListsInMemory (m : Mem Address) (list1 list2 : Slice) : Mem Address × Bool :=
  let made1 := m.make 0 list1.len
  let made2 := made1.1.make 0 list2.len
  let l1 := made1.2
  let l2 := made2.2
  let copied := (made2.1.copy l1 list1).copy l2 list2
  if l1.len = 0 ∧ l2.len = 0 then (copied, true)
  else if l1.len ≠ l2.len then (copied, false)
  else
    let sorted := (copied.sortSlice l1).sortSlice l2
    (sorted, sorted.deepEqual l1 l2)

section Run

variable {m : Mem Address} {list1 list2 : Slice}

/-- What the allocations and copies leave: the two copies show the arguments' entries, sit in
distinct fresh arrays, and every earlier array is unchanged. -/
theorem compareSignersListsInMemory_copies (h1 : m.Valid list1) (h2 : m.Valid list2) :
    let made1 := m.make 0 list1.len
    let made2 := made1.1.make 0 list2.len
    let copied := (made2.1.copy made1.2 list1).copy made2.2 list2
    m.Extends copied ∧ m.Fresh made1.2 ∧ m.Fresh made2.2 ∧ made1.2.array ≠ made2.2.array ∧
      copied.Valid made1.2 ∧ copied.Valid made2.2 ∧
      copied.read made1.2 = m.read list1 ∧ copied.read made2.2 = m.read list2 := by
  intro made1 made2 copied
  have hext1 : m.Extends made1.1 := Mem.make_extends m 0 _
  have hext2 : made1.1.Extends made2.1 := Mem.make_extends _ 0 _
  have hfresh1 : m.Fresh made1.2 := Mem.make_fresh m 0 _
  have hfresh2 : made1.1.Fresh made2.2 := Mem.make_fresh _ 0 _
  have hvalid1 : made2.1.Valid made1.2 := hext2.valid (Mem.make_valid m 0 _)
  have hvalid2 : made2.1.Valid made2.2 := Mem.make_valid _ 0 _
  have hne : made1.2.array ≠ made2.2.array :=
    (hfresh2.array_ne (Mem.make_valid m 0 _) (Mem.make_isSome _ 0 _)).symm
  have hext : m.Extends made2.1 := hext1.trans hext2
  have h1' : made2.1.Valid list1 := hext.valid h1
  have h2' : made2.1.Valid list2 := hext.valid h2
  -- the first copy, then the second, into the fresh arrays
  set once := made2.1.copy made1.2 list1 with honce
  have hextOnce : m.Extends once := Mem.copy_extends hext hfresh1 list1
  have hreadOnce : once.read made1.2 = m.read list1 := by
    rw [honce, Mem.copy_read_self hvalid1 h1' rfl, Mem.read_of_extends hext h1]
  have hvalidOnce : once.Valid made2.2 := Mem.copy_valid hvalid1 list1 hvalid2
  refine ⟨Mem.copy_extends hextOnce (hfresh2.of_extends hext1) list2, hfresh1,
    hfresh2.of_extends hext1, hne, ?_, Mem.copy_valid hvalidOnce list2 hvalidOnce, ?_, ?_⟩
  · exact Mem.copy_valid hvalidOnce list2 (Mem.copy_valid hvalid1 list1 hvalid1)
  · rw [Mem.read_copy_of_ne once list2 hne.symm, hreadOnce]
  · rw [Mem.copy_read_self hvalidOnce (hextOnce.valid h2) rfl, Mem.read_of_extends hextOnce h2]

/-- **`CompareSignersLists` compares multisets and leaves its arguments alone.**  Over valid
slices its answer is the list model's on the entries they show, which holds exactly when those
entries are a permutation of each other (a nil and an empty slice both show none), and every
array allocated before the call, the two arguments' included, is unchanged. -/
theorem compareSignersListsInMemory_spec (h1 : m.Valid list1) (h2 : m.Valid list2) :
    let result := compareSignersListsInMemory m list1 list2
    (result.2 = true ↔ (m.read list1).Perm (m.read list2)) ∧
      result.2 = compareSignersLists (m.read list1) (m.read list2) ∧
      m.Extends result.1 ∧ result.1.read list1 = m.read list1 ∧
      result.1.read list2 = m.read list2 := by
  intro result
  obtain ⟨hext, hfresh1, hfresh2, hne, hvalid1, hvalid2, hread1, hread2⟩ :=
    compareSignersListsInMemory_copies h1 h2
  set made1 := m.make 0 list1.len
  set made2 := made1.1.make 0 list2.len
  set copied := (made2.1.copy made1.2 list1).copy made2.2 list2
  set sorted := (copied.sortSlice made1.2).sortSlice made2.2
  -- the length tests read the arguments' lengths, which the copies share
  have hresult : result = if list1.len = 0 ∧ list2.len = 0 then (copied, true)
      else if list1.len ≠ list2.len then (copied, false)
      else (sorted, sorted.deepEqual made1.2 made2.2) := rfl
  have hlen1 : (m.read list1).length = list1.len := Mem.length_read h1
  have hlen2 : (m.read list2).length = list2.len := Mem.length_read h2
  have hanswer : result.2 = compareSignersLists (m.read list1) (m.read list2) := by
    rw [hresult, compareSignersLists, hlen1, hlen2]
    split_ifs
    · rfl
    · rfl
    · rw [Mem.deepEqual, Mem.sortSlice_read_self (Mem.sortSlice_valid hvalid1 hvalid2),
        Mem.read_sortSlice_of_ne _ hne.symm, Mem.read_sortSlice_of_ne _ hne,
        Mem.sortSlice_read_self hvalid1, hread1, hread2]
      have hsome1 : made1.2.array.isSome = true := Mem.make_isSome _ _ _
      have hsome2 : made2.2.array.isSome = true := Mem.make_isSome _ _ _
      simp [hsome1, hsome2]
  -- the run writes only into the arrays it allocated
  have hframe : m.Extends result.1 := by
    rw [hresult]
    split_ifs
    · exact hext
    · exact hext
    · exact Mem.sortSlice_extends (Mem.sortSlice_extends hext hfresh1) hfresh2
  refine ⟨hanswer ▸ compareSignersLists_iff_perm _ _, hanswer, hframe,
    Mem.read_of_extends hframe h1, Mem.read_of_extends hframe h2⟩

end Run

/-- Two slices of the test's addresses in two arrays, one the other's permutation. -/
theorem compareSignersListsInMemory_spec_sample :
    let m : Mem Address := ⟨[[10, 11, 12, 13], [12, 10, 13, 11]]⟩
    let list1 : Slice := ⟨some 0, 0, 4⟩
    let list2 : Slice := ⟨some 1, 0, 4⟩
    m.Valid list1 ∧ m.Valid list2 ∧
      let result := compareSignersListsInMemory m list1 list2
      (result.2 = true ↔ (m.read list1).Perm (m.read list2)) ∧
        result.2 = compareSignersLists (m.read list1) (m.read list2) ∧
        m.Extends result.1 ∧ result.1.read list1 = m.read list1 ∧
        result.1.read list2 = m.read list2 := by
  intro m list1 list2
  have h1 : m.Valid list1 := by simp [m, list1, Mem.Valid, Mem.array]
  have h2 : m.Valid list2 := by simp [m, list2, Mem.Valid, Mem.array]
  exact ⟨h1, h2, compareSignersListsInMemory_spec h1 h2⟩

end XdcSubnet.EngineV2
