import Mathlib.Data.List.AList
import Mathlib.Data.Finset.Basic

/-!
# Write-back stores with one-shot dirty callbacks

A write-back store keeps a backing table (`stored`, a trie of encoded objects) and a set of
live objects (`live`) read from it or created in memory.  Changes go to the live objects;
the keys of changed objects are collected in `dirty`, and a flush writes the dirty objects
back to the table.  An object is marked dirty through a callback it carries, and the
callback is one-shot: it fires on the object's first change and is then dropped (`armed`
lists the objects whose callback is still there).  Besides the flush, a store may also write
or delete a key of its table directly.

* `Store.get` reads the live object, else the stored one; `Store.load` makes a stored
  object live without changing what `get` reads (`get_load`);
* `Store.notify` fires an object's callback once (`notify_of_not_armed`: an object whose
  callback has fired is never marked again);
* `Store.flush` writes back the dirty objects and only those: the stored entry of a key
  that is not dirty is left as it is (`lookup_stored_flush`), whatever its live object holds.

The invariant that only live objects are dirty or armed is carried by the structure.
-/

namespace WriteBack

/-- A keyed table with one value type. -/
abbrev Table (κ α : Type) := AList (fun _ : κ => α)

/-- A write-back store: the backing table, the live objects, the dirty keys and the keys
whose one-shot callback has not fired yet. -/
structure Store (κ α : Type) where
  stored : Table κ α
  live : Table κ α
  dirty : Finset κ
  armed : Finset κ
  dirty_live : ∀ k ∈ dirty, k ∈ live
  armed_live : ∀ k ∈ armed, k ∈ live

namespace Store

variable {κ α : Type} [DecidableEq κ]

/-- The empty store. -/
def empty : Store κ α := ⟨∅, ∅, ∅, ∅, by simp, by simp⟩

/-- The store as a later session opens it: the backing table only. -/
def persisted (s : Store κ α) : Store κ α := ⟨s.stored, ∅, ∅, ∅, by simp, by simp⟩

/-- Read an object: the live one if there is one, else the stored one. -/
def get (s : Store κ α) (k : κ) : Option α := (s.live.lookup k).or (s.stored.lookup k)

/-- Make the stored object at `k` live, with its callback armed and not dirty. -/
def load (s : Store κ α) (k : κ) : Store κ α :=
  match hl : s.live.lookup k, hs : s.stored.lookup k with
  | none, some a =>
    ⟨s.stored, s.live.insert k a, s.dirty, insert k s.armed,
      fun j hj => AList.mem_insert _ |>.2 (.inr (s.dirty_live j hj)),
      fun j hj => by
        rcases Finset.mem_insert.1 hj with rfl | hj
        · exact AList.mem_insert _ |>.2 (.inl rfl)
        · exact AList.mem_insert _ |>.2 (.inr (s.armed_live j hj))⟩
  | _, _ => s

/-- A new live object: dirty, with its callback armed. -/
def create (s : Store κ α) (k : κ) (a : α) : Store κ α :=
  ⟨s.stored, s.live.insert k a, insert k s.dirty, insert k s.armed,
    fun j hj => by
      rcases Finset.mem_insert.1 hj with rfl | hj
      · exact AList.mem_insert _ |>.2 (.inl rfl)
      · exact AList.mem_insert _ |>.2 (.inr (s.dirty_live j hj)),
    fun j hj => by
      rcases Finset.mem_insert.1 hj with rfl | hj
      · exact AList.mem_insert _ |>.2 (.inl rfl)
      · exact AList.mem_insert _ |>.2 (.inr (s.armed_live j hj))⟩

/-- Replace the data of the live object at `k`; no callback fires. -/
def put (s : Store κ α) (k : κ) (a : α) : Store κ α :=
  ⟨s.stored, s.live.insert k a, s.dirty, s.armed,
    fun j hj => AList.mem_insert _ |>.2 (.inr (s.dirty_live j hj)),
    fun j hj => AList.mem_insert _ |>.2 (.inr (s.armed_live j hj))⟩

/-- Fire the callback of the object at `k`: the first time, it marks `k` dirty and is dropped.
The flag says whether it fired, for the owner's own callback. -/
def notify (s : Store κ α) (k : κ) : Store κ α × Bool :=
  if hk : k ∈ s.armed then
    (⟨s.stored, s.live, insert k s.dirty, s.armed.erase k,
      fun j hj => by
        rcases Finset.mem_insert.1 hj with rfl | hj
        · exact s.armed_live j hk
        · exact s.dirty_live j hj,
      fun j hj => s.armed_live j (Finset.mem_of_mem_erase hj)⟩, true)
  else (s, false)

/-- Change the object at `k`, loading it first if it is only stored; no callback fires. -/
def update (s : Store κ α) (k : κ) (a : α) : Store κ α := (s.load k).put k a

/-- A changed object: its new data, then its callback. -/
def modify (s : Store κ α) (k : κ) (a : α) : Store κ α × Bool := (s.update k a).notify k

/-- Write an entry of the backing table directly. -/
def write (s : Store κ α) (k : κ) (a : α) : Store κ α :=
  { s with stored := s.stored.insert k a }

/-- Delete a key of the backing table directly. -/
def delete (s : Store κ α) (k : κ) : Store κ α :=
  { s with stored := s.stored.erase k }

section Flush

variable (empty : α → Bool) (prepare encode : α → α)

/-- Write back the object at `k` if it is dirty: an empty object's key is deleted, any other
is prepared (its own tries written) and its encoding stored. -/
def flushKey (s : Store κ α) (k : κ) : Store κ α :=
  if k ∈ s.dirty then
    match s.live.lookup k with
    | some a => if empty a then s.delete k else (s.put k (prepare a)).write k (encode (prepare a))
    | none => s
  else s

/-- Write back every dirty live object, keeping the dirty keys. -/
def writeBack (s : Store κ α) : Store κ α := s.live.keys.foldl (flushKey empty prepare encode) s

/-- Write back every dirty live object and clear the dirty keys. -/
def flush (s : Store κ α) : Store κ α :=
  let t := s.writeBack empty prepare encode
  ⟨t.stored, t.live, ∅, t.armed, by simp, t.armed_live⟩

end Flush

/-! ### One lemma per field and operation -/

@[simp] theorem stored_put (s : Store κ α) (k : κ) (a : α) : (s.put k a).stored = s.stored := rfl
@[simp] theorem live_put (s : Store κ α) (k : κ) (a : α) : (s.put k a).live = s.live.insert k a :=
  rfl
@[simp] theorem dirty_put (s : Store κ α) (k : κ) (a : α) : (s.put k a).dirty = s.dirty := rfl
@[simp] theorem armed_put (s : Store κ α) (k : κ) (a : α) : (s.put k a).armed = s.armed := rfl

@[simp] theorem stored_create (s : Store κ α) (k : κ) (a : α) : (s.create k a).stored = s.stored :=
  rfl
@[simp] theorem live_create (s : Store κ α) (k : κ) (a : α) :
    (s.create k a).live = s.live.insert k a := rfl
@[simp] theorem dirty_create (s : Store κ α) (k : κ) (a : α) :
    (s.create k a).dirty = insert k s.dirty := rfl
@[simp] theorem armed_create (s : Store κ α) (k : κ) (a : α) :
    (s.create k a).armed = insert k s.armed := rfl

@[simp] theorem stored_write (s : Store κ α) (k : κ) (a : α) :
    (s.write k a).stored = s.stored.insert k a := rfl
@[simp] theorem live_write (s : Store κ α) (k : κ) (a : α) : (s.write k a).live = s.live := rfl
@[simp] theorem dirty_write (s : Store κ α) (k : κ) (a : α) : (s.write k a).dirty = s.dirty := rfl
@[simp] theorem armed_write (s : Store κ α) (k : κ) (a : α) : (s.write k a).armed = s.armed := rfl

@[simp] theorem stored_delete (s : Store κ α) (k : κ) : (s.delete k).stored = s.stored.erase k :=
  rfl
@[simp] theorem live_delete (s : Store κ α) (k : κ) : (s.delete k).live = s.live := rfl
@[simp] theorem dirty_delete (s : Store κ α) (k : κ) : (s.delete k).dirty = s.dirty := rfl
@[simp] theorem armed_delete (s : Store κ α) (k : κ) : (s.delete k).armed = s.armed := rfl

@[simp] theorem stored_notify (s : Store κ α) (k : κ) : (s.notify k).1.stored = s.stored := by
  unfold notify; split <;> rfl
@[simp] theorem live_notify (s : Store κ α) (k : κ) : (s.notify k).1.live = s.live := by
  unfold notify; split <;> rfl

theorem notify_of_armed {s : Store κ α} {k : κ} (hk : k ∈ s.armed) :
    (s.notify k).2 = true ∧ (s.notify k).1.dirty = insert k s.dirty ∧
      (s.notify k).1.armed = s.armed.erase k := by
  simp [notify, hk]

/-- A callback that has fired never fires again. -/
theorem notify_of_not_armed {s : Store κ α} {k : κ} (hk : k ∉ s.armed) : s.notify k = (s, false) :=
  dif_neg hk

@[simp] theorem stored_load (s : Store κ α) (k : κ) : (s.load k).stored = s.stored := by
  unfold load; split <;> rfl

@[simp] theorem stored_update (s : Store κ α) (k : κ) (a : α) :
    (s.update k a).stored = s.stored := by simp [update]
@[simp] theorem stored_modify (s : Store κ α) (k : κ) (a : α) :
    (s.modify k a).1.stored = s.stored := by simp [modify]

/-! ### Reading -/

theorem get_of_live {s : Store κ α} {k : κ} {a : α} (h : s.live.lookup k = some a) :
    s.get k = some a := by
  simp [get, h]

theorem get_of_not_live {s : Store κ α} {k : κ} (h : s.live.lookup k = none) :
    s.get k = s.stored.lookup k := by
  simp [get, h]

/-- Loading is not seen by a read. -/
theorem get_load (s : Store κ α) (k j : κ) : (s.load k).get j = s.get j := by
  unfold load
  split
  case h_1 a hl hs =>
    by_cases hj : j = k
    · subst hj; simp [get, AList.lookup_insert, hl, hs]
    · simp [get, AList.lookup_insert_ne hj]
  case h_2 => rfl

/-- After a load the object is live when it is stored. -/
theorem live_lookup_load (s : Store κ α) (k : κ) : (s.load k).live.lookup k = s.get k := by
  unfold load
  split
  case h_1 a hl hs => simp [get, AList.lookup_insert, hl, hs]
  case h_2 hne =>
    cases hl : s.live.lookup k with
    | some a => simp [get, hl]
    | none =>
      cases hs : s.stored.lookup k with
      | none => simp [get, hl, hs]
      | some a => exact absurd hs (hne a hl)

theorem get_put_self (s : Store κ α) (k : κ) (a : α) : (s.put k a).get k = some a := by
  simp [get, AList.lookup_insert]

theorem get_put_ne (s : Store κ α) {k j : κ} (a : α) (h : j ≠ k) : (s.put k a).get j = s.get j := by
  simp [get, AList.lookup_insert_ne h]

theorem get_create_self (s : Store κ α) (k : κ) (a : α) : (s.create k a).get k = some a := by
  simp [get, AList.lookup_insert]

theorem get_create_ne (s : Store κ α) {k j : κ} (a : α) (h : j ≠ k) :
    (s.create k a).get j = s.get j := by
  simp [get, AList.lookup_insert_ne h]

@[simp] theorem get_update_self (s : Store κ α) (k : κ) (a : α) : (s.update k a).get k = some a :=
  get_put_self _ k a

theorem get_update_ne (s : Store κ α) {k j : κ} (a : α) (h : j ≠ k) :
    (s.update k a).get j = s.get j := by
  rw [update, get_put_ne _ a h, get_load]

theorem get_update (s : Store κ α) (k j : κ) (a : α) :
    (s.update k a).get j = if j = k then some a else s.get j := by
  split_ifs with h
  · rw [h, get_update_self]
  · exact get_update_ne s a h

@[simp] theorem get_notify (s : Store κ α) (k j : κ) : (s.notify k).1.get j = s.get j := by
  simp [get]

@[simp] theorem get_modify_self (s : Store κ α) (k : κ) (a : α) : (s.modify k a).1.get k = some a := by
  simp [modify]

theorem get_modify_ne (s : Store κ α) {k j : κ} (a : α) (h : j ≠ k) :
    (s.modify k a).1.get j = s.get j := by
  rw [modify, get_notify, get_update_ne _ a h]

theorem get_modify (s : Store κ α) (k j : κ) (a : α) :
    (s.modify k a).1.get j = if j = k then some a else s.get j := by
  split_ifs with h
  · rw [h, get_modify_self]
  · exact get_modify_ne s a h

theorem get_create (s : Store κ α) (k j : κ) (a : α) :
    (s.create k a).get j = if j = k then some a else s.get j := by
  split_ifs with h
  · rw [h, get_create_self]
  · exact get_create_ne s a h

theorem get_write_ne (s : Store κ α) {k j : κ} (a : α) (h : j ≠ k) :
    (s.write k a).get j = s.get j := by
  simp [get, write, AList.lookup_insert_ne h]

theorem live_lookup_modify_self (s : Store κ α) (k : κ) (a : α) :
    (s.modify k a).1.live.lookup k = some a := by
  simp [modify, update, AList.lookup_insert]

theorem get_delete_ne (s : Store κ α) {k j : κ} (h : j ≠ k) : (s.delete k).get j = s.get j := by
  simp [get, AList.lookup_erase_ne h]

/-- Deleting a key from the backing table is not seen while the object is live. -/
theorem get_delete_of_live {s : Store κ α} {k : κ} {a : α} (h : s.live.lookup k = some a) :
    (s.delete k).get k = some a :=
  get_of_live h

theorem load_of_lookup {s : Store κ α} {k : κ} {a : α} (h : s.live.lookup k = some a) :
    s.load k = s := by
  unfold load; split
  · simp_all
  · rfl

/-- A live object whose callback has fired is changed without marking anything dirty. -/
theorem dirty_modify_of_not_armed {s : Store κ α} {k : κ} {b : α} (a : α)
    (hl : s.live.lookup k = some b) (hk : k ∉ s.armed) : (s.modify k a).1.dirty = s.dirty := by
  rw [modify, update, load_of_lookup hl, notify_of_not_armed (show k ∉ (s.put k a).armed from hk)]
  rfl

/-! ### The flush writes back exactly the dirty keys -/

section Flush

variable (empty : α → Bool) (prepare encode : α → α)

@[simp] theorem dirty_flushKey (s : Store κ α) (k : κ) :
    (s.flushKey empty prepare encode k).dirty = s.dirty := by
  unfold flushKey; split
  · split
    · split <;> rfl
    · rfl
  · rfl

theorem lookup_flushKey_ne (s : Store κ α) {k j : κ} (h : j ≠ k) :
    (s.flushKey empty prepare encode k).stored.lookup j = s.stored.lookup j ∧
      (s.flushKey empty prepare encode k).live.lookup j = s.live.lookup j := by
  unfold flushKey
  split
  · split
    · split
      · simp [AList.lookup_erase_ne h]
      · simp [AList.lookup_insert_ne h]
    · simp
  · simp

/-- The stored entry at `k` once `k` has been visited. -/
def writtenBack (s : Store κ α) (k : κ) : Option α :=
  match s.live.lookup k with
  | some a => if k ∈ s.dirty then (if empty a then none else some (encode (prepare a)))
      else s.stored.lookup k
  | none => s.stored.lookup k

/-- The live object at `k` once `k` has been visited. -/
def liveAfter (s : Store κ α) (k : κ) : Option α :=
  (s.live.lookup k).map fun a => if k ∈ s.dirty ∧ empty a = false then prepare a else a

theorem lookup_flushKey_self (s : Store κ α) (k : κ) :
    (s.flushKey empty prepare encode k).stored.lookup k = writtenBack empty prepare encode s k ∧
      (s.flushKey empty prepare encode k).live.lookup k = liveAfter empty prepare s k := by
  unfold flushKey writtenBack liveAfter
  by_cases hd : k ∈ s.dirty
  · cases hl : s.live.lookup k with
    | none => simp [hd, hl]
    | some a =>
      by_cases he : empty a
      · simp [hd, hl, he, AList.lookup_erase]
      · simp [hd, he, AList.lookup_insert]
  · cases hl : s.live.lookup k <;> simp [hd, hl]

/-- Visiting keys other than `k` leaves the entries at `k` as they are. -/
theorem lookup_foldl_flushKey_of_not_mem (s : Store κ α) (k : κ) :
    ∀ (keys : List κ), k ∉ keys →
      (keys.foldl (flushKey empty prepare encode) s).stored.lookup k = s.stored.lookup k ∧
        (keys.foldl (flushKey empty prepare encode) s).live.lookup k = s.live.lookup k
  | [], _ => ⟨rfl, rfl⟩
  | j :: keys, hk => by
    have hkj : k ≠ j := fun h => hk (h ▸ List.mem_cons_self)
    obtain ⟨hs, hl⟩ := lookup_flushKey_ne empty prepare encode s hkj
    obtain ⟨ihs, ihl⟩ := lookup_foldl_flushKey_of_not_mem (s.flushKey empty prepare encode j) k
      keys (fun h => hk (List.mem_cons_of_mem _ h))
    exact ⟨ihs.trans hs, ihl.trans hl⟩

/-- Visiting each key of a duplicate-free list once writes back exactly those keys. -/
theorem lookup_foldl_flushKey (s : Store κ α) (k : κ) :
    ∀ (keys : List κ), keys.Nodup → k ∈ keys →
      (keys.foldl (flushKey empty prepare encode) s).stored.lookup k =
          writtenBack empty prepare encode s k ∧
        (keys.foldl (flushKey empty prepare encode) s).live.lookup k = liveAfter empty prepare s k
  | [], _, hk => absurd hk List.not_mem_nil
  | j :: keys, hnd, hk => by
    obtain ⟨hj, hnd⟩ := List.nodup_cons.1 hnd
    by_cases hkj : k = j
    · -- `k` is visited first; the later keys leave it alone
      subst hkj
      obtain ⟨ihs, ihl⟩ := lookup_foldl_flushKey_of_not_mem empty prepare encode
        (s.flushKey empty prepare encode k) k keys hj
      obtain ⟨hs, hl⟩ := lookup_flushKey_self empty prepare encode s k
      exact ⟨ihs.trans hs, ihl.trans hl⟩
    · -- `j` is visited first and does not touch `k`
      have hk' : k ∈ keys := (List.mem_cons.1 hk).resolve_left hkj
      obtain ⟨ihs, ihl⟩ := lookup_foldl_flushKey (s.flushKey empty prepare encode j) k keys hnd hk'
      obtain ⟨hs, hl⟩ := lookup_flushKey_ne empty prepare encode s hkj
      have hd := dirty_flushKey empty prepare encode s j
      refine ⟨ihs.trans ?_, ihl.trans ?_⟩
      · unfold writtenBack; rw [hs, hl, hd]
      · unfold liveAfter; rw [hl, hd]

theorem lookup_writeBack (s : Store κ α) (k : κ) :
    (s.writeBack empty prepare encode).stored.lookup k = writtenBack empty prepare encode s k ∧
      (s.writeBack empty prepare encode).live.lookup k = liveAfter empty prepare s k := by
  by_cases hk : k ∈ s.live.keys
  · exact lookup_foldl_flushKey empty prepare encode s k _ (AList.keys_nodup s.live) hk
  · -- a key with no live object is neither visited nor changed
    have hl : s.live.lookup k = none := AList.lookup_eq_none.2 (fun h => hk (AList.mem_keys.1 h))
    obtain ⟨hs, hl'⟩ := lookup_foldl_flushKey_of_not_mem empty prepare encode s k _ hk
    unfold writeBack
    exact ⟨by rw [hs]; simp [writtenBack, hl], by rw [hl']; simp [liveAfter, hl]⟩

/-- **The flush writes back the dirty keys and only those.** -/
theorem lookup_stored_flush (s : Store κ α) (k : κ) :
    (s.flush empty prepare encode).stored.lookup k = writtenBack empty prepare encode s k :=
  (lookup_writeBack empty prepare encode s k).1

theorem lookup_live_flush (s : Store κ α) (k : κ) :
    (s.flush empty prepare encode).live.lookup k = liveAfter empty prepare s k :=
  (lookup_writeBack empty prepare encode s k).2

@[simp] theorem dirty_flush (s : Store κ α) : (s.flush empty prepare encode).dirty = ∅ := rfl

/-- A key that is not dirty keeps its stored entry through a flush. -/
theorem lookup_stored_flush_of_not_dirty {s : Store κ α} {k : κ} (hk : k ∉ s.dirty) :
    (s.flush empty prepare encode).stored.lookup k = s.stored.lookup k := by
  rw [lookup_stored_flush]
  unfold writtenBack
  split <;> simp [hk]

end Flush

end Store

end WriteBack
