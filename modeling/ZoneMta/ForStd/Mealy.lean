import Mathlib

/-!
# Machines with output

A machine with output is given by a step function `σ → ε → Option (σ × List ω)`: the state
after an event and what the machine puts out, or `none` where the event cannot happen.

## Key results

- `exec_concat`: a run seen from its last step
- `exec_invariant`: the induction rule for invariants that speak about the history of a run
- `outputs_eq_of_simulates`: states that simulate each other put out the same
-/

namespace ForStd

variable {σ ε ω α : Type*}

/-- The state after the events and all that was put out. -/
def exec (step : σ → ε → Option (σ × List ω)) : σ → List ε → Option (σ × List ω)
  | s, [] => some (s, [])
  | s, e :: es => (step s e).bind fun r => (exec step r.1 es).map fun t => (t.1, r.2 ++ t.2)

/-- What is put out in a run, `none` if an event cannot happen. -/
def outputs (step : σ → ε → Option (σ × List ω)) (s : σ) (es : List ε) : Option (List ω) :=
  (exec step s es).map Prod.snd

/-- What a run adds to its history: what each of its steps adds. -/
def history (step : σ → ε → Option (σ × List ω)) (adds : σ → ε → List α) : σ → List ε → List α
  | _, [] => []
  | s, e :: es =>
    adds s e ++
      match step s e with
      | some r => history step adds r.1 es
      | none => []

variable {step : σ → ε → Option (σ × List ω)} {adds : σ → ε → List α}

@[simp] theorem exec_nil (s : σ) : exec step s [] = some (s, []) := rfl

theorem exec_cons_eq_some {s s' : σ} {e : ε} {es : List ε} {out : List ω} :
    exec step s (e :: es) = some (s', out) ↔ ∃ t o os, step s e = some (t, o) ∧
      exec step t es = some (s', os) ∧ out = o ++ os := by
  simp only [exec, Option.bind_eq_some_iff, Option.map_eq_some_iff, Prod.exists, Prod.mk.injEq]
  constructor
  · rintro ⟨t, o, ht, u, os, hu, rfl, rfl⟩
    exact ⟨t, o, os, ht, hu, rfl⟩
  · rintro ⟨t, o, os, ht, hu, rfl⟩
    exact ⟨t, o, ht, s', os, hu, rfl, rfl⟩

theorem exec_append_eq_some {s s' : σ} {es es' : List ε} {out : List ω} :
    exec step s (es ++ es') = some (s', out) ↔ ∃ t o os, exec step s es = some (t, o) ∧
      exec step t es' = some (s', os) ∧ out = o ++ os := by
  induction es generalizing s out with
  | nil =>
    constructor
    · intro h
      exact ⟨s, [], out, rfl, h, rfl⟩
    · rintro ⟨t, o, os, ht, hs', rfl⟩
      obtain ⟨rfl, rfl⟩ := Prod.mk.inj (Option.some.inj ht)
      exact hs'
  | cons e es ih =>
    simp only [List.cons_append, exec_cons_eq_some, ih]
    constructor
    · rintro ⟨t, o, -, ht, ⟨u, o', os, hu, hs', rfl⟩, rfl⟩
      exact ⟨u, o ++ o', os, ⟨t, o, o', ht, hu, rfl⟩, hs', (List.append_assoc _ _ _).symm⟩
    · rintro ⟨u, -, os, ⟨t, o, o', ht, hu, rfl⟩, hs', rfl⟩
      exact ⟨t, o, o' ++ os, ht, ⟨u, o', os, hu, hs', rfl⟩, List.append_assoc _ _ _⟩

/-- A run seen from its last step. -/
theorem exec_concat {s s' : σ} {es : List ε} {e : ε} {out : List ω} :
    exec step s (es ++ [e]) = some (s', out) ↔ ∃ t o os, exec step s es = some (t, o) ∧
      step t e = some (s', os) ∧ out = o ++ os := by
  simp only [exec_append_eq_some, exec_cons_eq_some, exec_nil, Option.some.injEq, Prod.mk.injEq]
  constructor
  · rintro ⟨t, o, -, ht, ⟨u, os, -, hu, ⟨rfl, rfl⟩, rfl⟩, rfl⟩
    exact ⟨t, o, os, ht, hu, by rw [List.append_nil]⟩
  · rintro ⟨t, o, os, ht, hs', rfl⟩
    exact ⟨t, o, os, ht, ⟨s', os, [], hs', ⟨rfl, rfl⟩, (List.append_nil _).symm⟩, rfl⟩

theorem history_append {s t : σ} {es : List ε} {out : List ω} (h : exec step s es = some (t, out))
    (es' : List ε) :
    history step adds s (es ++ es') = history step adds s es ++ history step adds t es' := by
  induction es generalizing s out with
  | nil =>
    obtain ⟨rfl, -⟩ := Prod.mk.inj (Option.some.inj h)
    rfl
  | cons e es ih =>
    obtain ⟨u, o, os, hu, ht, -⟩ := exec_cons_eq_some.mp h
    simp only [List.cons_append, history, hu, ih ht, List.append_assoc]

/-- The history after one more step. -/
theorem history_concat {s t t' : σ} {es : List ε} {out o : List ω} {e : ε}
    (h : exec step s es = some (t, out)) (hstep : step t e = some (t', o)) :
    history step adds s (es ++ [e]) = history step adds s es ++ adds t e := by
  rw [history_append h]
  simp only [history, hstep, List.append_nil]

/-- What every step keeps, with what it adds to the history, holds after every run. -/
theorem exec_invariant {I : σ → List α → Prop}
    (hstep : ∀ s e s' o past, I s past → step s e = some (s', o) → I s' (past ++ adds s e))
    {s s' : σ} {es : List ε} {out : List ω} (h : I s []) (hrun : exec step s es = some (s', out)) :
    I s' (history step adds s es) := by
  induction es using List.reverseRecOn generalizing s' out with
  | nil =>
    obtain ⟨rfl, -⟩ := Prod.mk.inj (Option.some.inj hrun)
    exact h
  | append_singleton es e ih =>
    obtain ⟨t, o, os, ht, hs', -⟩ := exec_concat.mp hrun
    rw [history_concat ht hs']
    exact hstep t e s' os _ (ih ht) hs'

/-- Related states do the same in every step, and stay related. -/
def Simulates (step : σ → ε → Option (σ × List ω)) (R : σ → σ → Prop) : Prop :=
  ∀ s t e, R s t → (step s e = none ∧ step t e = none) ∨
    ∃ s' t' o, step s e = some (s', o) ∧ step t e = some (t', o) ∧ R s' t'

/-- Related states put out the same in every run. -/
theorem outputs_eq_of_simulates {R : σ → σ → Prop} (hR : Simulates step R) {s t : σ} (h : R s t)
    (es : List ε) : outputs step s es = outputs step t es := by
  unfold outputs
  induction es generalizing s t with
  | nil => rfl
  | cons e es ih =>
    cases hR s t e h with
    | inl hnone => rw [exec, exec, hnone.1, hnone.2]
    | inr hsome =>
      obtain ⟨s', t', o, hs', ht', hst⟩ := hsome
      have hrest := congrArg (Option.map (o ++ ·)) (ih hst)
      simp only [Option.map_map] at hrest
      simp only [exec, hs', ht', Option.bind_some, Option.map_map]
      exact hrest

end ForStd
