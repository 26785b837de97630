import Mathlib.Order.Basic

/-!
# Loops run with fuel

The loop `for cond s { body }` is `Loop.run cond body fuel s`.  Its body may leave the loop
(`break`), go round again, or return an error.  The run is `none` when the fuel runs out before
the loop ends.  Otherwise it is the state the loop left with, or the error and the state reached
by then.  The body is partial too (`none`), so a loop whose body runs an inner loop with fuel is
again a loop of this form.

* `run_mono`: more fuel, for the loop and for its body, gives the same result;
* `run_rule`: the while rule.  Suppose an invariant holds on entry and every pass keeps it.
  Then what holds on leaving, and what holds on an error, holds of every result;
* `run_final`: a property every pass keeps holds of the state every finished run reaches;
* `run_isSome`, a variant rule.  Suppose the body always finishes, and every pass that goes
  round again keeps an invariant and lowers a measure.  Then fuel above the measure is enough;
* `run_total`, the two together: fuel above the measure gives a result, and the result is what
  the while rule says;
* `run_eq_none`: a loop whose condition keeps holding and whose passes never leave it gives no
  result, on any fuel;
* `Diverges`: from a state, the loop goes round for ever with no pass stopping, so it gives no
  result on any fuel (`Diverges.run_eq_none`).

`each f as` is `for _, a := range as { f(a) }` for a body that returns an error or stops;
`each_invariant` is its rule: a property every call keeps holds after the loop.
-/

namespace Loop

/-- What one pass of a loop's body does: leave the loop, go round again, or return an error,
each with the state it reached. -/
inductive Pass (ε σ : Type)
  | exit (s : σ)
  | next (s : σ)
  | fail (e : ε) (s : σ)

variable {ε σ : Type}

/-- `for cond s { body }`, run with fuel. -/
def run (cond : σ → Bool) (body : σ → Option (Pass ε σ)) : ℕ → σ → Option (Except (ε × σ) σ)
  | 0, _ => none
  | n + 1, s =>
    if cond s then
      match body s with
      | none => none
      | some (.exit s') => some (.ok s')
      | some (.next s') => run cond body n s'
      | some (.fail e s') => some (.error (e, s'))
    else some (.ok s)

/-- The state a pass reached. -/
def Pass.state : Pass ε σ → σ
  | .exit s | .next s | .fail _ s => s

@[simp] theorem Pass.state_exit (s : σ) : (Pass.exit s : Pass ε σ).state = s := rfl
@[simp] theorem Pass.state_next (s : σ) : (Pass.next s : Pass ε σ).state = s := rfl
@[simp] theorem Pass.state_fail (e : ε) (s : σ) : (Pass.fail e s).state = s := rfl

/-- The state a finished loop reached, whether it left or failed. -/
def final : Except (ε × σ) σ → σ
  | .ok s | .error (_, s) => s

/-- What a pass leads to: `Q` when it leaves the loop, the invariant `I` when it goes round
again, `E` of its error. -/
def Pass.Holds (I Q : σ → Prop) (E : ε → σ → Prop) : Pass ε σ → Prop
  | .exit s => Q s
  | .next s => I s
  | .fail e s => E e s

/-- What a finished loop gives: `Q` of the state it left with, `E` of its error. -/
def Ends (Q : σ → Prop) (E : ε → σ → Prop) : Except (ε × σ) σ → Prop
  | .ok s => Q s
  | .error (e, s) => E e s

section Equations

variable {cond : σ → Bool} {body : σ → Option (Pass ε σ)} (n : ℕ) {s s' : σ}

@[simp] theorem run_zero (s : σ) : run cond body 0 s = none := rfl

theorem run_done (h : cond s = false) : run cond body (n + 1) s = some (.ok s) := by
  simp [run, h]

theorem run_stuck (h : cond s = true) (hb : body s = none) : run cond body (n + 1) s = none := by
  simp [run, h, hb]

theorem run_exit (h : cond s = true) (hb : body s = some (.exit s')) :
    run cond body (n + 1) s = some (.ok s') := by
  simp [run, h, hb]

theorem run_next (h : cond s = true) (hb : body s = some (.next s')) :
    run cond body (n + 1) s = run cond body n s' := by
  simp [run, h, hb]

theorem run_fail {e : ε} (h : cond s = true) (hb : body s = some (.fail e s')) :
    run cond body (n + 1) s = some (.error (e, s')) := by
  simp [run, h, hb]

end Equations

variable {cond : σ → Bool} {body body' : σ → Option (Pass ε σ)}

/-- **Fuel monotonicity**: a loop that finishes finishes with the same result on more fuel, also
when its body is given more fuel. -/
theorem run_mono (hb : ∀ s p, body s = some p → body' s = some p) {n : ℕ} (k : ℕ) {s : σ}
    {r : Except (ε × σ) σ} (h : run cond body n s = some r) : run cond body' (n + k) s = some r := by
  induction n generalizing s with
  | zero => cases h
  | succ n ih =>
    rw [Nat.add_right_comm]
    cases hc : cond s with
    | false => rwa [run_done _ hc] at h ⊢
    | true =>
      cases hbs : body s with
      | none => rw [run_stuck _ hc hbs] at h; cases h
      | some p =>
        cases p with
        | exit s' => rwa [run_exit _ hc hbs, ← run_exit (n + k) hc (hb _ _ hbs)] at h
        | next s' => rw [run_next _ hc hbs] at h; rw [run_next _ hc (hb _ _ hbs)]; exact ih h
        | fail e s' => rwa [run_fail _ hc hbs, ← run_fail (n + k) hc (hb _ _ hbs)] at h

/-- **The while rule.** -/
theorem run_rule (I Q : σ → Prop) (E : ε → σ → Prop) (hdone : ∀ s, I s → cond s = false → Q s)
    (hstep : ∀ s p, I s → cond s = true → body s = some p → p.Holds I Q E) {n : ℕ} {s : σ}
    {r : Except (ε × σ) σ} (hs : I s) (h : run cond body n s = some r) : Ends Q E r := by
  induction n generalizing s with
  | zero => cases h
  | succ n ih =>
    cases hc : cond s with
    | false => rw [run_done _ hc] at h; cases h; exact hdone s hs hc
    | true =>
      cases hbs : body s with
      | none => rw [run_stuck _ hc hbs] at h; cases h
      | some p =>
        have hp := hstep s p hs hc hbs
        cases p with
        | exit s' => rw [run_exit _ hc hbs] at h; cases h; exact hp
        | next s' => rw [run_next _ hc hbs] at h; exact ih hp h
        | fail e s' => rw [run_fail _ hc hbs] at h; cases h; exact hp

/-- **The invariant rule**: a property every pass keeps holds of the state every finished run
reaches. -/
theorem run_final (P : σ → Prop) (hstep : ∀ s p, P s → cond s = true → body s = some p → P p.state)
    {n : ℕ} {s : σ} {r : Except (ε × σ) σ} (hs : P s) (h : run cond body n s = some r) :
    P (final r) := by
  have hends : Ends P (fun _ => P) r := by
    refine run_rule P P (fun _ => P) (fun s hs _ => hs) (fun s p hs hc hb => ?_) hs h
    have hp := hstep s p hs hc hb
    cases p <;> exact hp
  rcases r with ⟨e, s'⟩ | s' <;> exact hends

/-- **The variant rule**: fuel above the measure is enough. -/
theorem run_isSome (I : σ → Prop) (μ : σ → ℕ)
    (hstep : ∀ s, I s → cond s = true →
      ∃ p, body s = some p ∧ ∀ s', p = .next s' → I s' ∧ μ s' < μ s)
    {n : ℕ} {s : σ} (hs : I s) (hn : μ s < n) : (run cond body n s).isSome := by
  induction n generalizing s with
  | zero => omega
  | succ n ih =>
    cases hc : cond s with
    | false => rw [run_done _ hc]; rfl
    | true =>
      obtain ⟨p, hbs, hnext⟩ := hstep s hs hc
      cases p with
      | exit s' => rw [run_exit _ hc hbs]; rfl
      | next s' =>
        obtain ⟨hs', hμ⟩ := hnext s' rfl
        rw [run_next _ hc hbs]
        exact ih hs' (by omega)
      | fail e s' => rw [run_fail _ hc hbs]; rfl

/-- **Total correctness**: fuel above the measure gives a result, and it satisfies what the
while rule gives. -/
theorem run_total (I Q : σ → Prop) (E : ε → σ → Prop) (μ : σ → ℕ)
    (hdone : ∀ s, I s → cond s = false → Q s)
    (hstep : ∀ s, I s → cond s = true →
      ∃ p, body s = some p ∧ p.Holds (fun s' => I s' ∧ μ s' < μ s) Q E)
    {n : ℕ} {s : σ} (hs : I s) (hn : μ s < n) : ∃ r, run cond body n s = some r ∧ Ends Q E r := by
  induction n generalizing s with
  | zero => omega
  | succ n ih =>
    cases hc : cond s with
    | false => exact ⟨_, run_done _ hc, hdone s hs hc⟩
    | true =>
      obtain ⟨p, hbs, hp⟩ := hstep s hs hc
      cases p with
      | exit s' => exact ⟨_, run_exit _ hc hbs, hp⟩
      | next s' =>
        obtain ⟨hs', hμ⟩ := hp
        rw [run_next _ hc hbs]
        exact ih hs' (by omega)
      | fail e s' => exact ⟨_, run_fail _ hc hbs, hp⟩

/-- **A loop that never leaves** gives no result: when the condition holds and every pass that
finishes goes round again, keeping an invariant, the run is `none` on any fuel. -/
theorem run_eq_none (I : σ → Prop)
    (hstep : ∀ s, I s → cond s = true ∧ ∀ p, body s = some p → ∃ s', p = .next s' ∧ I s')
    {n : ℕ} {s : σ} (hs : I s) : run cond body n s = none := by
  induction n generalizing s with
  | zero => rfl
  | succ n ih =>
    obtain ⟨hc, hnext⟩ := hstep s hs
    cases hbs : body s with
    | none => exact run_stuck _ hc hbs
    | some p =>
      obtain ⟨s', rfl, hs'⟩ := hnext p hbs
      rw [run_next _ hc hbs]
      exact ih hs'

/-- The loop never ends from `s`, and none of its passes stops: an invariant holds at `s`, and at
every state where it holds the condition holds and the pass goes round again to a state where it
holds. -/
def Diverges (cond : σ → Bool) (body : σ → Option (Pass ε σ)) (s : σ) : Prop :=
  ∃ I : σ → Prop, I s ∧ ∀ s, I s → cond s = true ∧ ∃ s', body s = some (.next s') ∧ I s'

/-- A diverging loop gives no result on any fuel. -/
theorem Diverges.run_eq_none {s : σ} (h : Diverges cond body s) (n : ℕ) :
    run cond body n s = none := by
  obtain ⟨I, hs, hstep⟩ := h
  refine Loop.run_eq_none I (fun s hI => ⟨(hstep s hI).1, fun p hp => ?_⟩) hs
  obtain ⟨s', hbs, hs'⟩ := (hstep s hI).2
  exact ⟨s', Option.some.inj (hp.symm.trans hbs), hs'⟩

/-! ### Loops over a list -/

section Each

variable {α : Type}

/-- `for _, a := range as { f(a) }`, for a body that may return an error, which leaves the loop,
or stop (`none`). -/
def each (f : α → σ → Option (Except ε Unit × σ)) : List α → σ → Option (Except ε Unit × σ)
  | [], s => some (.ok (), s)
  | a :: as, s =>
    match f a s with
    | none => none
    | some (.ok (), s') => each f as s'
    | some (.error e, s') => some (.error e, s')

/-- A property that every call keeps, each returning, holds after the loop. -/
theorem each_invariant {f : α → σ → Option (Except ε Unit × σ)} (P : σ → Prop) {as : List α}
    (hf : ∀ a ∈ as, ∀ s, P s → ∃ s', f a s = some (.ok (), s') ∧ P s') {s : σ} (hs : P s) :
    ∃ s', each f as s = some (.ok (), s') ∧ P s' := by
  induction as generalizing s with
  | nil => exact ⟨s, rfl, hs⟩
  | cons a as ih =>
    obtain ⟨s', hfa, hs'⟩ := hf a (List.mem_cons_self ..) s hs
    rw [each, hfa]
    exact ih (fun b hb => hf b (List.mem_cons_of_mem _ hb)) hs'

end Each

end Loop
