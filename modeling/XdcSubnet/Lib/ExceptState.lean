import Mathlib

/-!
# Programs that thread a state and may throw

A program of `ExceptT ε (StateM σ)` threads a state and may throw, and a throw keeps the state
reached so far.  This module says what a `Std.Do` triple about such a program means for its runs,
and gives the forms of specification that proofs about such programs are assembled from:

* `wp_apply`: the weakest precondition of a program is its postcondition at the outcome of the
  run, so a triple is a statement about every run (`triple_iff`, `Outcome.of_triple`);
* `Keeps R m s₀`: started in a state `R`-related to `s₀`, the program ends in one, whether it
  returns or throws.  For a reflexive `R` it relates the start and the end state of every run
  (`Keeps.run`), and a relation a program keeps is kept under every weaker preorder
  (`Keeps.weaken`);
* `triple_run`: the strongest specification, the run itself, which a caller cites where it needs
  the exact state a callee leaves.

`runAll` runs a sequence of calls, each from the state the last one left, whatever they return;
what every call keeps holds after every run (`runAll_invariant`, `runAll_rel`).  `Preserves I m`
says the same of one program and a state predicate, whatever the program returns; dropping the
result does not change it (`Preserves.of_discard`).

For a plain `Except` computation, `bind_eq_ok` peels a successful step off a run.
-/

open Std.Do

namespace ExceptState

variable {σ ε α β : Type}

/-- What a postcondition says of the outcome of a run: `Q` of the value and the final state when
it returns, `E` of the error and the final state when it throws. -/
def Outcome (Q : α → σ → Prop) (E : ε → σ → Prop) : Except ε α × σ → Prop
  | (.ok a, s) => Q a s
  | (.error e, s) => E e s

@[simp] theorem outcome_ok {Q : α → σ → Prop} {E : ε → σ → Prop} {a : α} {s : σ} :
    Outcome Q E (.ok a, s) = Q a s := rfl

@[simp] theorem outcome_error {Q : α → σ → Prop} {E : ε → σ → Prop} {e : ε} {s : σ} :
    Outcome Q E (.error e, s) = E e s := rfl

/-- **The weakest precondition is the postcondition at the outcome of the run.** -/
theorem wp_apply (m : ExceptT ε (StateM σ) α) (Q : α → σ → Prop) (E : ε → σ → Prop) (s : σ) :
    (wp⟦m⟧ post⟨fun a s => ⌜Q a s⌝, fun e s => ⌜E e s⌝⟩ s).down ↔ Outcome Q E (m.run.run s) := by
  simp only [WP.wp, PredTrans.apply_pushExcept, PredTrans.apply_pushArg]
  generalize m.run.run s = r
  rcases r with ⟨_ | _, s'⟩ <;> exact Iff.rfl

/-- A triple with a precondition `P` is a statement about every run started in `P`. -/
theorem triple_iff {m : ExceptT ε (StateM σ) α} {P : σ → Prop} {Q : α → σ → Prop}
    {E : ε → σ → Prop} :
    ⦃fun s => ⌜P s⌝⦄ m ⦃post⟨fun a s => ⌜Q a s⌝, fun e s => ⌜E e s⌝⟩⦄ ↔
      ∀ s, P s → Outcome Q E (m.run.run s) := by
  refine ⟨fun h s hs => (wp_apply m Q E s).mp (h s hs), fun h s hs => ?_⟩
  exact (wp_apply m Q E s).mpr (h s hs)

theorem Outcome.of_triple {m : ExceptT ε (StateM σ) α} {P : σ → Prop} {Q : α → σ → Prop}
    {E : ε → σ → Prop} (h : ⦃fun s => ⌜P s⌝⦄ m ⦃post⟨fun a s => ⌜Q a s⌝, fun e s => ⌜E e s⌝⟩⦄)
    {s : σ} (hs : P s) : Outcome Q E (m.run.run s) :=
  triple_iff.mp h s hs

/-- A triple whose two postconditions agree is a statement about the end state of every run. -/
theorem end_of_triple {m : ExceptT ε (StateM σ) α} {P R : σ → Prop}
    (h : ⦃fun s => ⌜P s⌝⦄ m ⦃post⟨fun _ s => ⌜R s⌝, fun _ s => ⌜R s⌝⟩⦄) {s : σ} (hs : P s) :
    R (m.run.run s).2 := by
  have hout := Outcome.of_triple h hs
  revert hout
  generalize m.run.run s = r
  rcases r with ⟨_ | _, s'⟩ <;> exact id

/-- **The run as a specification**: from `s₀`, a program returns or throws exactly what its run
does. -/
theorem triple_run (m : ExceptT ε (StateM σ) α) (s₀ : σ) :
    ⦃fun s => ⌜s = s₀⌝⦄ m
    ⦃post⟨fun a s => ⌜m.run.run s₀ = (.ok a, s)⌝, fun e s => ⌜m.run.run s₀ = (.error e, s)⌝⟩⦄ := by
  refine triple_iff.mpr fun s hs => ?_
  subst hs
  generalize m.run.run s = r
  rcases r with ⟨_ | _, s'⟩ <;> rfl

/-- `m` keeps the relation `R` from `s₀`: started in a state `R`-related to `s₀`, it ends in one,
whether it returns or throws. -/
abbrev Keeps (R : σ → σ → Prop) (m : ExceptT ε (StateM σ) α) (s₀ : σ) : Prop :=
  ⦃fun s => ⌜R s₀ s⌝⦄ m ⦃post⟨fun _ s => ⌜R s₀ s⌝, fun _ s => ⌜R s₀ s⌝⟩⦄

/-- The end state of a run is `R`-related to its start state. -/
theorem Keeps.run {R : σ → σ → Prop} {m : ExceptT ε (StateM σ) α} {s : σ} (h : Keeps R m s)
    (hR : R s s) : R s (m.run.run s).2 :=
  end_of_triple h hR

/-- The same, for a run whose outcome is known. -/
theorem Keeps.run_eq {R : σ → σ → Prop} {m : ExceptT ε (StateM σ) α} {s s' : σ}
    {r : Except ε α} (h : Keeps R m s) (hR : R s s) (hrun : m.run.run s = (r, s')) : R s s' := by
  have hkeep := h.run hR
  rwa [hrun] at hkeep

/-- **Weakening**: a program that keeps a reflexive `R` from every state keeps every preorder
`R'` that `R` implies. -/
theorem Keeps.weaken {R R' : σ → σ → Prop} {m : ExceptT ε (StateM σ) α}
    (h : ∀ s₀, Keeps R m s₀) (hrefl : ∀ s, R s s) (himp : ∀ {s s'}, R s s' → R' s s')
    (htrans : ∀ {s₁ s₂ s₃}, R' s₁ s₂ → R' s₂ s₃ → R' s₁ s₃) (s₀ : σ) : Keeps R' m s₀ := by
  refine triple_iff.mpr fun s hs => ?_
  have hrun := himp ((h s).run (hrefl s))
  revert hrun
  generalize m.run.run s = r
  rcases r with ⟨_ | _, s'⟩ <;> exact htrans hs

/-- Run the calls one after another, each from the state the last one left, whatever it
returned. -/
def runAll (exec : β → ExceptT ε (StateM σ) α) (s : σ) (calls : List β) : σ :=
  calls.foldl (fun s c => ((exec c).run.run s).2) s

@[simp] theorem runAll_nil (exec : β → ExceptT ε (StateM σ) α) (s : σ) :
    runAll exec s [] = s := rfl

@[simp] theorem runAll_cons (exec : β → ExceptT ε (StateM σ) α) (s : σ) (c : β)
    (calls : List β) : runAll exec s (c :: calls) = runAll exec ((exec c).run.run s).2 calls :=
  rfl

/-- **Run lemma for invariants**: an invariant every call of the run keeps holds after the
run. -/
theorem runAll_invariant {exec : β → ExceptT ε (StateM σ) α} {I : σ → Prop} {calls : List β}
    (hstep : ∀ c ∈ calls, ∀ s, I s → I ((exec c).run.run s).2) {s : σ} (hs : I s) :
    I (runAll exec s calls) := by
  induction calls generalizing s with
  | nil => exact hs
  | cons c calls ih =>
    exact ih (fun c' hc' => hstep c' (List.mem_cons_of_mem c hc'))
      (hstep c List.mem_cons_self s hs)

/-- **Run lemma for relations**: a preorder every call keeps from its start state relates the
start and the end state of every run. -/
theorem runAll_rel {exec : β → ExceptT ε (StateM σ) α} {R : σ → σ → Prop}
    (hstep : ∀ c s, Keeps R (exec c) s) (hrefl : ∀ s, R s s)
    (htrans : ∀ {s₁ s₂ s₃}, R s₁ s₂ → R s₂ s₃ → R s₁ s₃) (s : σ) (calls : List β) :
    R s (runAll exec s calls) := by
  induction calls generalizing s with
  | nil => exact hrefl s
  | cons c calls ih => exact htrans ((hstep c s).run (hrefl s)) (ih _)

/-- `m` keeps the state predicate `I`: from a state satisfying it, every run ends in one, whatever
it returns. -/
def Preserves (I : σ → Prop) (m : ExceptT ε (StateM σ) α) : Prop :=
  ∀ s, I s → I (m.run.run s).2

/-- Dropping a program's result leaves its end state as it was. -/
theorem run_discard (m : ExceptT ε (StateM σ) α) (s : σ) :
    ((do let _ ← m : ExceptT ε (StateM σ) PUnit).run.run s).2 = (m.run.run s).2 := by
  simp only [ExceptT.run_bind, StateT.run_bind]
  generalize m.run.run s = r
  rcases r with ⟨_ | _, s'⟩ <;> rfl

theorem Preserves.of_discard {I : σ → Prop} {m : ExceptT ε (StateM σ) α}
    (h : Preserves I (do let _ ← m : ExceptT ε (StateM σ) PUnit)) : Preserves I m :=
  fun s hs => run_discard m s ▸ h s hs

/-- A bind of `Except` succeeds when its first step does and the rest succeeds from there. -/
theorem bind_eq_ok {x : Except ε α} {f : α → Except ε β} {b : β} :
    x >>= f = .ok b ↔ ∃ a, x = .ok a ∧ f a = .ok b := by
  cases x <;> simp [bind, Except.bind]

end ExceptState
