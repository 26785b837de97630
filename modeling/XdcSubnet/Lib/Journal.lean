import Mathlib.Data.List.Basic
import Mathlib.Order.Basic

/-!
# Undo journals with numbered snapshots

A state database that supports nested snapshots records, for every change, an entry that
knows how to undo it.  A snapshot is a revision number paired with the journal length at
the time it was taken; reverting to it undoes the later entries newest first and truncates
the journal and the list of valid revisions.

* `Log` carries the journal, the valid revisions and the next revision number, with the
  invariant that every valid revision is numbered below the next one;
* `Log.snapshot` and `Log.find`: a revision just taken is found again after any number of
  further entries (`find_snapshot`, `find_of_validRevisions_eq`);
* `unwind undo es s` undoes the entries `es` newest first;
* `Recorded`: a run whose every entry undoes its own step as an observation sees it;
  unwinding such a run restores the observation (`unwind_recorded`);
* what no undo changes, no unwinding changes (`unwind_preserves`, and
  `unwind_preserves_of_mem` for the entries of one run);
* `RecordedUpTo`: the same up to a preorder, for undos that give back a state only up to it;
  unwinding such a run from any state the preorder puts below its end gives a state below its
  start (`unwind_recordedUpTo`).
-/

namespace Journal

/-- A snapshot: its number and the journal length when it was taken. -/
structure Revision where
  id : ℕ
  journalIndex : ℕ
  deriving DecidableEq, Repr

/-- The journal of a state database and its stack of valid snapshots. -/
structure Log (ε : Type) where
  entries : List ε
  validRevisions : List Revision
  nextRevisionId : ℕ
  lt_next : ∀ r ∈ validRevisions, r.id < nextRevisionId

namespace Log

variable {ε : Type}

/-- The empty journal. -/
def empty : Log ε := ⟨[], [], 0, by simp⟩

/-- Record one more entry. -/
def append (l : Log ε) (e : ε) : Log ε := { l with entries := l.entries ++ [e] }

/-- Forget the journal and the snapshots (the revision counter keeps counting). -/
def clear (l : Log ε) : Log ε := ⟨[], [], l.nextRevisionId, by simp⟩

/-- Take a snapshot: a fresh revision number at the current journal length. -/
def snapshot (l : Log ε) : Log ε × ℕ :=
  (⟨l.entries, l.validRevisions ++ [⟨l.nextRevisionId, l.entries.length⟩], l.nextRevisionId + 1,
    fun r hr => by
      rcases List.mem_append.1 hr with hr | hr
      · exact Nat.lt_succ_of_lt (l.lt_next r hr)
      · rw [List.mem_singleton.1 hr]; exact Nat.lt_succ_self _⟩, l.nextRevisionId)

/-- The position and revision a revert to `revid` uses: the first valid revision numbered
`revid` or more, which must be numbered `revid`. -/
def find (l : Log ε) (revid : ℕ) : Option (ℕ × Revision) :=
  let idx := l.validRevisions.findIdx fun r => decide (revid ≤ r.id)
  match l.validRevisions[idx]? with
  | some r => if r.id = revid then some (idx, r) else none
  | none => none

/-- Truncate the journal and the snapshot stack to a revision found at position `idx`. -/
def revert (l : Log ε) (idx : ℕ) (r : Revision) : Log ε :=
  ⟨l.entries.take r.journalIndex, l.validRevisions.take idx, l.nextRevisionId,
    fun q hq => l.lt_next q (List.mem_of_mem_take hq)⟩

@[simp] theorem entries_append (l : Log ε) (e : ε) : (l.append e).entries = l.entries ++ [e] := rfl
@[simp] theorem validRevisions_append (l : Log ε) (e : ε) :
    (l.append e).validRevisions = l.validRevisions := rfl
@[simp] theorem entries_snapshot (l : Log ε) : l.snapshot.1.entries = l.entries := rfl

/-- Recording entries does not move a snapshot. -/
theorem find_of_validRevisions_eq {l l' : Log ε} (h : l'.validRevisions = l.validRevisions)
    (revid : ℕ) : l'.find revid = l.find revid := by
  simp only [find, h]

/-- A snapshot just taken is found again, at the end of the stack. -/
theorem find_snapshot (l : Log ε) :
    l.snapshot.1.find l.snapshot.2 =
      some (l.validRevisions.length, ⟨l.nextRevisionId, l.entries.length⟩) := by
  have hbefore : ∀ r ∈ l.validRevisions, ¬ (l.nextRevisionId ≤ r.id) :=
    fun r hr => Nat.not_le.2 (l.lt_next r hr)
  have hidx : (l.validRevisions ++ [(⟨l.nextRevisionId, l.entries.length⟩ : Revision)]).findIdx
      (fun r => decide (l.nextRevisionId ≤ r.id)) = l.validRevisions.length := by
    rw [List.findIdx_append, List.findIdx_eq_length_of_false (by simpa using hbefore)]
    simp
  unfold find snapshot
  dsimp only
  rw [hidx]
  simp

end Log

section Unwind

variable {σ ε ω : Type} (undo : σ → ε → σ)

/-- Undo the entries newest first. -/
def unwind (es : List ε) (s : σ) : σ := es.foldr (fun e t => undo t e) s

@[simp] theorem unwind_nil (s : σ) : unwind undo [] s = s := rfl

theorem unwind_append_singleton (es : List ε) (e : ε) (s : σ) :
    unwind undo (es ++ [e]) s = unwind undo es (undo s e) := by
  simp [unwind, List.foldr_append]

variable (obs : σ → ω)

/-- The entry `e` undoes the step from `s` to `t` as `obs` sees it: undoing it from any state
`obs` cannot tell from `t` gives a state `obs` cannot tell from `s`. -/
def Undoes (e : ε) (s t : σ) : Prop := ∀ t', obs t' = obs t → obs (undo t' e) = obs s

/-- A run from `s` to `t` that recorded `es`: each step records one entry undoing it, or
records nothing and changes nothing `obs` sees. -/
inductive Recorded (s : σ) : List ε → σ → Prop
  | refl : Recorded s [] s
  | step {es : List ε} {t u : σ} {e : ε} : Recorded s es t → Undoes undo obs e t u →
      Recorded s (es ++ [e]) u
  | silent {es : List ε} {t u : σ} : Recorded s es t → obs u = obs t → Recorded s es u

/-- **Unwinding a recorded run restores what `obs` sees.** -/
theorem unwind_recorded {s t : σ} {es : List ε} (h : Recorded undo obs s es t) :
    ∀ t', obs t' = obs t → obs (unwind undo es t') = obs s := by
  induction h with
  | refl => intro t' ht; exact ht
  | step _ hundo ih =>
    intro t' ht
    rw [unwind_append_singleton]
    exact ih _ (hundo t' ht)
  | silent _ hsame ih =>
    intro t' ht
    exact ih t' (ht.trans hsame)

/-- Entries whose undo never changes what `obs` sees leave it unchanged however many are
unwound. -/
theorem unwind_preserves (h : ∀ s e, obs (undo s e) = obs s) (es : List ε) (s : σ) :
    obs (unwind undo es s) = obs s := by
  induction es with
  | nil => rfl
  | cons e es ih =>
    show obs (undo (unwind undo es s) e) = obs s
    rw [h, ih]

/-- The same for the entries of one run, each of whose undos leaves `obs` unchanged. -/
theorem unwind_preserves_of_mem {es : List ε} (h : ∀ s, ∀ e ∈ es, obs (undo s e) = obs s)
    (s : σ) : obs (unwind undo es s) = obs s := by
  induction es with
  | nil => rfl
  | cons e es ih =>
    show obs (undo (unwind undo es s) e) = obs s
    rw [h _ e List.mem_cons_self, ih fun s e he => h s e (List.mem_cons_of_mem _ he)]

end Unwind

section UnwindUpTo

variable {σ ε : Type} (undo : σ → ε → σ) (r : σ → σ → Prop)

/-- The entry `e` undoes the step from `s` to `t` up to `r`: undoing it from any state that `r`
puts below `t` gives a state below `s`. -/
def UndoesUpTo (e : ε) (s t : σ) : Prop := ∀ t', r t t' → r s (undo t' e)

/-- A run from `s` to `t` that recorded `es`, up to `r`: each step records one entry undoing it
up to `r`, or records nothing and goes below. -/
inductive RecordedUpTo (s : σ) : List ε → σ → Prop
  | refl : RecordedUpTo s [] s
  | step {es : List ε} {t u : σ} {e : ε} : RecordedUpTo s es t → UndoesUpTo undo r e t u →
      RecordedUpTo s (es ++ [e]) u
  | silent {es : List ε} {t u : σ} : RecordedUpTo s es t → r t u → RecordedUpTo s es u

/-- **Unwinding a run recorded up to a transitive `r`**, from any state below its end, gives a
state below its start. -/
theorem unwind_recordedUpTo (htrans : ∀ {a b c : σ}, r a b → r b c → r a c) {s t : σ}
    {es : List ε} (h : RecordedUpTo undo r s es t) : ∀ t', r t t' → r s (unwind undo es t') := by
  induction h with
  | refl => intro t' ht; exact ht
  | step _ hundo ih =>
    intro t' ht
    rw [unwind_append_singleton]
    exact ih _ (hundo t' ht)
  | silent _ hbelow ih =>
    intro t' ht
    exact ih t' (htrans hbelow ht)

end UnwindUpTo

end Journal
