import Mathlib

/-!
# Transition systems

A machine is given by a step function `σ → ε → Option σ`: the state after an event, or
`none` where the event cannot happen. `run` takes a list of events in their order. The
induction rules lift what one step keeps to whole runs, also to runs whose steps all
satisfy a condition, or do not.

## Key results

- `run_concat`: a run seen from its last step
- `run_invariant`: the induction rule for invariants
- `run_invariant_along`: the induction rule for runs under a condition
- `run_of_not_along`: the induction rule for runs that break the condition
- `Along.throughout`: the states of a run under a condition
- `Along.imp`: a condition that follows from another one
- `along_congr`, `along_congr_of_along`: two conditions on the steps of a run
- `Along.of_append`: the condition at a step of the run
- `run_history`: the induction rule for what holds of the events so far and the state
- `throughout_iff_along`: the runs under a condition are those whose states are fine
- `throughout_iff_along_of_along`, `throughout_iff_along_of_forall`: the same for runs under another
  condition, and for runs of events of a kind
- `Once`: what held in a state of a run
- `countP_add_rank_le`: how often it can be the turn of someone who waits
-/

namespace ForStd

variable {σ ε : Type*}

/-- The state after the events, `none` if one of them could not happen. -/
def run (step : σ → ε → Option σ) : σ → List ε → Option σ
  | s, [] => some s
  | s, e :: es => (step s e).bind fun s' => run step s' es

/-- Every step of the run satisfies the condition `p` on the state before it and the event. -/
def Along (step : σ → ε → Option σ) (p : σ → ε → Prop) : σ → List ε → Prop
  | _, [] => True
  | s, e :: es => p s e ∧ ∀ s', step s e = some s' → Along step p s' es

/-- Every state that the run reaches satisfies `ok`. -/
def Throughout (step : σ → ε → Option σ) (ok : σ → Prop) : σ → List ε → Prop
  | s, [] => ok s
  | s, e :: es => ok s ∧ ∀ s', step s e = some s' → Throughout step ok s' es

/-- A condition on the steps of a run can be decided along with the steps. -/
instance decidableAlong (step : σ → ε → Option σ) (p : σ → ε → Prop) [∀ s e, Decidable (p s e)] :
    (s : σ) → (es : List ε) → Decidable (Along step p s es)
  | _, [] => isTrue trivial
  | s, e :: es =>
    match h : step s e with
    | none => decidable_of_iff (p s e)
        ⟨fun hp => ⟨hp, fun _ ht => nomatch h.symm.trans ht⟩, fun hp => hp.1⟩
    | some t =>
      have := decidableAlong step p t es
      decidable_of_iff (p s e ∧ Along step p t es)
        ⟨fun hp => ⟨hp.1, fun _ ht => Option.some.inj (h.symm.trans ht) ▸ hp.2⟩,
          fun hp => ⟨hp.1, hp.2 t h⟩⟩

variable {step : σ → ε → Option σ}

@[simp] theorem run_nil (s : σ) : run step s [] = some s := rfl

theorem run_cons_eq_some {s s' : σ} {e : ε} {es : List ε} :
    run step s (e :: es) = some s' ↔ ∃ t, step s e = some t ∧ run step t es = some s' :=
  Option.bind_eq_some_iff

theorem run_append (s : σ) (es es' : List ε) :
    run step s (es ++ es') = (run step s es).bind fun t => run step t es' := by
  induction es generalizing s with
  | nil => rfl
  | cons e es ih =>
    simp only [List.cons_append, run, Option.bind_assoc]
    exact congrArg _ (funext fun t => ih t)

/-- A run seen from its last step. -/
theorem run_concat {s s' : σ} {es : List ε} {e : ε} :
    run step s (es ++ [e]) = some s' ↔ ∃ t, run step s es = some t ∧ step t e = some s' := by
  rw [run_append, Option.bind_eq_some_iff]
  simp only [run_cons_eq_some, run_nil, Option.some.injEq, exists_eq_right]

/-- What every step keeps holds after every run. -/
theorem run_invariant {I : σ → Prop} (hstep : ∀ s e s', I s → step s e = some s' → I s')
    {s s' : σ} {es : List ε} (h : I s) (hrun : run step s es = some s') : I s' := by
  induction es generalizing s with
  | nil => exact Option.some.inj hrun ▸ h
  | cons e es ih =>
    obtain ⟨t, ht, hrun⟩ := run_cons_eq_some.mp hrun
    exact ih (hstep s e t h ht) hrun

/-- What every step under the condition keeps holds after every run of such steps. -/
theorem run_invariant_along {p : σ → ε → Prop} {I : σ → Prop}
    (hstep : ∀ s e s', I s → p s e → step s e = some s' → I s')
    {s s' : σ} {es : List ε} (h : I s) (hp : Along step p s es)
    (hrun : run step s es = some s') : I s' := by
  induction es generalizing s with
  | nil => exact Option.some.inj hrun ▸ h
  | cons e es ih =>
    obtain ⟨t, ht, hrun⟩ := run_cons_eq_some.mp hrun
    exact ih (hstep s e t h hp.1 ht) (hp.2 t ht) hrun

/-- What a step against the condition makes true, and every step keeps, holds after every run
    with such a step. -/
theorem run_of_not_along {p : σ → ε → Prop} {I B : σ → Prop}
    (hstep : ∀ s e s', I s → step s e = some s' → I s')
    (hbreak : ∀ s e s', I s → ¬p s e → step s e = some s' → B s')
    (hkeep : ∀ s e s', I s → B s → step s e = some s' → B s')
    {s s' : σ} {es : List ε} (h : I s) (hp : ¬Along step p s es)
    (hrun : run step s es = some s') : B s' := by
  induction es generalizing s with
  | nil => exact absurd trivial hp
  | cons e es ih =>
    obtain ⟨t, ht, hrun⟩ := run_cons_eq_some.mp hrun
    by_cases hpe : p s e
    · refine ih (hstep s e t h ht) (fun hes => hp ⟨hpe, fun t' ht' => ?_⟩) hrun
      rw [ht] at ht'
      exact Option.some.inj ht' ▸ hes
    · have hboth : I s' ∧ B s' := run_invariant (I := fun s => I s ∧ B s)
        (fun s e s' h hs => ⟨hstep s e s' h.1 hs, hkeep s e s' h.1 h.2 hs⟩)
        ⟨hstep s e t h ht, hbreak s e t h hpe ht⟩ hrun
      exact hboth.2

/-- A run of events that satisfy the condition in every state. -/
theorem along_of_forall {p : σ → ε → Prop} {es : List ε} (hp : ∀ e ∈ es, ∀ s, p s e) (s : σ) :
    Along step p s es := by
  induction es generalizing s with
  | nil => trivial
  | cons e es ih =>
    have hes : ∀ e' ∈ es, ∀ s, p s e' := fun e' he' => hp e' (List.mem_cons_of_mem e he')
    exact ⟨hp e List.mem_cons_self s, fun t _ => ih hes t⟩

/-- A run under a condition `r` satisfies the condition `p` if and only if all its states are fine,
    when steps under both keep an invariant and a step against `p` leads to a state that is not
    fine. -/
theorem throughout_iff_along_of_along {r p : σ → ε → Prop} {I ok : σ → Prop}
    (hstep : ∀ s e s', I s → r s e → p s e → step s e = some s' → I s')
    (hbreak : ∀ s e s', I s → r s e → ¬p s e → step s e = some s' → ¬ok s')
    (hok : ∀ s, I s → ok s) {s s' : σ} {es : List ε} (h : I s) (hr : Along step r s es)
    (hrun : run step s es = some s') : Throughout step ok s es ↔ Along step p s es := by
  induction es generalizing s with
  | nil => exact ⟨fun _ => trivial, fun _ => hok s h⟩
  | cons e es ih =>
    obtain ⟨t, ht, hrun⟩ := run_cons_eq_some.mp hrun
    have hnext : ∀ t', step s e = some t' → t' = t := by
      intro t' ht'
      rw [ht] at ht'
      exact (Option.some.inj ht').symm
    constructor
    · intro hall
      have hpe : p s e := by
        by_contra hpe
        have hbad := hbreak s e t h hr.1 hpe ht
        -- the first state of the rest of the run
        have hfirst := hall.2 t ht
        cases es with
        | nil => exact hbad hfirst
        | cons e' es => exact hbad hfirst.1
      refine ⟨hpe, fun t' ht' => ?_⟩
      rw [hnext t' ht']
      exact (ih (hstep s e t h hr.1 hpe ht) (hr.2 t ht) hrun).mp (hall.2 t ht)
    · intro hes
      refine ⟨hok s h, fun t' ht' => ?_⟩
      rw [hnext t' ht']
      exact (ih (hstep s e t h hr.1 hes.1 ht) (hr.2 t ht) hrun).mpr (hes.2 t ht)

/-- The same for a run of events of a kind. -/
theorem throughout_iff_along_of_forall {E : ε → Prop} {p : σ → ε → Prop} {I ok : σ → Prop}
    (hstep : ∀ s e s', E e → I s → p s e → step s e = some s' → I s')
    (hbreak : ∀ s e s', E e → I s → ¬p s e → step s e = some s' → ¬ok s')
    (hok : ∀ s, I s → ok s) {s s' : σ} {es : List ε} (hes : ∀ e ∈ es, E e) (h : I s)
    (hrun : run step s es = some s') : Throughout step ok s es ↔ Along step p s es :=
  throughout_iff_along_of_along (r := fun _ => E) (fun s e s' h he => hstep s e s' he h)
    (fun s e s' h he => hbreak s e s' he h) hok h (along_of_forall (fun e he _ => hes e he) s) hrun

/-- A run satisfies the condition if and only if all its states are fine, when steps under the
    condition keep an invariant and a step against it leads to a state that is not fine. -/
theorem throughout_iff_along {p : σ → ε → Prop} {I ok : σ → Prop}
    (hstep : ∀ s e s', I s → p s e → step s e = some s' → I s')
    (hbreak : ∀ s e s', I s → ¬p s e → step s e = some s' → ¬ok s')
    (hok : ∀ s, I s → ok s) {s s' : σ} {es : List ε} (h : I s)
    (hrun : run step s es = some s') : Throughout step ok s es ↔ Along step p s es :=
  throughout_iff_along_of_forall (E := fun _ => True) (fun s e s' _ => hstep s e s')
    (fun s e s' _ => hbreak s e s') hok (fun _ _ => trivial) h hrun

/-- The states of a run under a condition are fine, when steps under the condition keep an
    invariant that makes them so. -/
theorem Along.throughout {p : σ → ε → Prop} {I ok : σ → Prop}
    (hstep : ∀ s e s', I s → p s e → step s e = some s' → I s') (hok : ∀ s, I s → ok s)
    {s : σ} {es : List ε} (h : I s) (hp : Along step p s es) : Throughout step ok s es := by
  induction es generalizing s with
  | nil => exact hok s h
  | cons e es ih =>
    have hnext : ∀ t, step s e = some t → Throughout step ok t es := by
      intro t ht
      exact ih (hstep s e t h hp.1 ht) (hp.2 t ht)
    exact ⟨hok s h, hnext⟩

/-- The last state of a run is one of its states. -/
theorem Throughout.last {ok : σ → Prop} {s s' : σ} {es : List ε} (h : Throughout step ok s es)
    (hrun : run step s es = some s') : ok s' := by
  induction es generalizing s with
  | nil => exact Option.some.inj hrun ▸ h
  | cons e es ih =>
    obtain ⟨t, ht, hrun⟩ := run_cons_eq_some.mp hrun
    exact ih (h.2 t ht) hrun

/-- A run under a condition satisfies another one, when steps under the first keep an invariant that
    gives the second. -/
theorem Along.imp {p q : σ → ε → Prop} {I : σ → Prop}
    (hstep : ∀ s e s', I s → p s e → step s e = some s' → I s')
    (hpq : ∀ s e, I s → p s e → q s e) {s : σ} {es : List ε} (h : I s) (hp : Along step p s es) :
    Along step q s es := by
  induction es generalizing s with
  | nil => trivial
  | cons e es ih =>
    exact ⟨hpq s e h hp.1, fun t ht => ih (hstep s e t h hp.1 ht) (hp.2 t ht)⟩

/-- Two conditions agree on the runs under a third one, when they agree where an invariant holds
    and steps under the third and the first keep it. -/
theorem along_congr_of_along {r p q : σ → ε → Prop} {I : σ → Prop}
    (hstep : ∀ s e s', I s → r s e → p s e → step s e = some s' → I s')
    (hpq : ∀ s e s', I s → r s e → step s e = some s' → (p s e ↔ q s e)) {s s' : σ} {es : List ε}
    (h : I s) (hr : Along step r s es) (hrun : run step s es = some s') :
    Along step p s es ↔ Along step q s es := by
  induction es generalizing s with
  | nil => exact Iff.rfl
  | cons e es ih =>
    obtain ⟨t, ht, hrun⟩ := run_cons_eq_some.mp hrun
    have hfirst := hpq s e t h hr.1 ht
    have hrest : p s e → (Along step p t es ↔ Along step q t es) := fun hp =>
      ih (hstep s e t h hr.1 hp ht) (hr.2 t ht) hrun
    constructor
    · intro hes
      refine ⟨hfirst.mp hes.1, fun u hu => ?_⟩
      obtain rfl := Option.some.inj (ht.symm.trans hu)
      exact (hrest hes.1).mp (hes.2 t ht)
    · intro hes
      have hp := hfirst.mpr hes.1
      refine ⟨hp, fun u hu => ?_⟩
      obtain rfl := Option.some.inj (ht.symm.trans hu)
      exact (hrest hp).mpr (hes.2 t ht)

/-- Two conditions that agree where an invariant holds agree on the runs. -/
theorem along_congr {p q : σ → ε → Prop} {I : σ → Prop}
    (hstep : ∀ s e s', I s → step s e = some s' → I s')
    (hpq : ∀ s e s', I s → step s e = some s' → (p s e ↔ q s e)) {s s' : σ} {es : List ε}
    (h : I s) (hrun : run step s es = some s') : Along step p s es ↔ Along step q s es :=
  along_congr_of_along (r := fun _ _ => True) (fun s e s' h _ _ => hstep s e s' h)
    (fun s e s' h _ => hpq s e s' h) h (along_of_forall (fun _ _ _ => trivial) s) hrun

/-- The condition holds at every step of the run. -/
theorem Along.of_append {p : σ → ε → Prop} {s t : σ} {es es' : List ε} {e : ε}
    (h : Along step p s (es ++ e :: es')) (hrun : run step s es = some t) :
    p t e ∧ ∀ t', step t e = some t' → Along step p t' es' := by
  induction es generalizing s with
  | nil => exact Option.some.inj hrun ▸ h
  | cons d es ih =>
    obtain ⟨u, hu, hrun⟩ := run_cons_eq_some.mp hrun
    exact ih (h.2 u hu) hrun

/-- The part of the run up to a step. -/
theorem Along.append_left {p : σ → ε → Prop} {s : σ} {es es' : List ε}
    (h : Along step p s (es ++ es')) : Along step p s es := by
  induction es generalizing s with
  | nil => trivial
  | cons d es ih => exact ⟨h.1, fun t ht => ih (h.2 t ht)⟩

/-- The part of the run from a state. -/
theorem Along.append_right {p : σ → ε → Prop} {s t : σ} {es es' : List ε}
    (h : Along step p s (es ++ es')) (hrun : run step s es = some t) : Along step p t es' := by
  induction es generalizing s with
  | nil => exact Option.some.inj hrun ▸ h
  | cons d es ih =>
    obtain ⟨u, hu, hrun⟩ := run_cons_eq_some.mp hrun
    exact ih (h.2 u hu) hrun

theorem Along.and {p q : σ → ε → Prop} {s : σ} {es : List ε} (hp : Along step p s es)
    (hq : Along step q s es) : Along step (fun s e => p s e ∧ q s e) s es := by
  induction es generalizing s with
  | nil => trivial
  | cons d es ih => exact ⟨⟨hp.1, hq.1⟩, fun t ht => ih (hp.2 t ht) (hq.2 t ht)⟩

/-- A run under a condition seen from its last step. -/
theorem along_concat {p : σ → ε → Prop} {s t : σ} {es : List ε} {e : ε}
    (hrun : run step s es = some t) : Along step p s (es ++ [e]) ↔ Along step p s es ∧ p t e := by
  constructor
  · intro h
    exact ⟨h.append_left, (h.of_append hrun).1⟩
  · induction es generalizing s with
    | nil =>
      obtain rfl := Option.some.inj hrun
      exact fun h => ⟨h.2, fun _ _ => trivial⟩
    | cons d es ih =>
      intro h
      refine ⟨h.1.1, fun u hu => ?_⟩
      obtain ⟨v, hv, hrun⟩ := run_cons_eq_some.mp hrun
      obtain rfl := Option.some.inj (hv.symm.trans hu)
      exact ih hrun ⟨h.1.2 v hv, h.2⟩

/-- What every step keeps of the events so far and the state, where `a` says whether the run
    satisfied the condition so far. -/
theorem run_history {p : σ → ε → Prop} {I : Prop → List ε → σ → Prop} {s₀ s : σ} {es : List ε}
    (h : I True [] s₀)
    (hstep : ∀ a es s e s', I a es s → step s e = some s' → I (a ∧ p s e) (es ++ [e]) s')
    (hrun : run step s₀ es = some s) : I (Along step p s₀ es) es s := by
  have hpre : ∀ es' es s, run step s₀ es = some s → I (Along step p s₀ es) es s →
      ∀ s', run step s es' = some s' → I (Along step p s₀ (es ++ es')) (es ++ es') s' := by
    intro es'
    induction es' with
    | nil =>
      intro es s _ hI s' hrun'
      obtain rfl := Option.some.inj hrun'
      rwa [List.append_nil]
    | cons e es' ih =>
      intro es s hrun hI s' hrun'
      obtain ⟨t, ht, hrun'⟩ := run_cons_eq_some.mp hrun'
      rw [List.append_cons]
      apply ih (es ++ [e]) t (run_concat.mpr ⟨s, hrun, ht⟩) _ s' hrun'
      rw [propext (along_concat hrun)]
      exact hstep _ es s e t hI ht
  exact hpre es [] s₀ rfl h s hrun

/-- An event of a run happens in a state of it. -/
theorem exists_run_of_mem {s s' : σ} {es : List ε} (hrun : run step s es = some s') {e : ε}
    (he : e ∈ es) : ∃ es₁ es₂ t, es = es₁ ++ e :: es₂ ∧ run step s es₁ = some t := by
  obtain ⟨es₁, es₂, rfl⟩ := List.append_of_mem he
  rw [run_append, Option.bind_eq_some_iff] at hrun
  obtain ⟨t, ht, -⟩ := hrun
  exact ⟨es₁, es₂, t, rfl, ht⟩

/-! ## What has been the case -/

/-- The run of the events was in a state with the property. -/
def Once (step : σ → ε → Option σ) (s₀ : σ) (es : List ε) (p : σ → Prop) : Prop :=
  ∃ es₁ s, es₁ <+: es ∧ run step s₀ es₁ = some s ∧ p s

theorem once_of_run {step : σ → ε → Option σ} {s₀ s : σ} {es : List ε} {p : σ → Prop}
    (hrun : run step s₀ es = some s) (h : p s) : Once step s₀ es p :=
  ⟨es, s, List.prefix_rfl, hrun, h⟩

/-- It has still been the case after more events. -/
theorem Once.append {step : σ → ε → Option σ} {s₀ : σ} {es : List ε} {p : σ → Prop}
    (h : Once step s₀ es p) (es' : List ε) : Once step s₀ (es ++ es') p := by
  obtain ⟨es₁, s, hprefix, hrun, hp⟩ := h
  exact ⟨es₁, s, hprefix.trans (List.prefix_append es es'), hrun, hp⟩

/-! ## Turns -/

/-- What the steps of a run cost. -/
def totalCost (step : σ → ε → Option σ) (cost : σ → σ → Nat) : σ → List ε → Nat
  | _, [] => 0
  | s, e :: es => (step s e).elim 0 fun t => cost s t + totalCost step cost t es

theorem totalCost_cons {step : σ → ε → Option σ} (cost : σ → σ → Nat) {s t : σ} {e : ε}
    (ht : step s e = some t) (es : List ε) :
    totalCost step cost s (e :: es) = cost s t + totalCost step cost t es := by
  rw [totalCost, ht]
  rfl

@[simp] theorem totalCost_zero (step : σ → ε → Option σ) (s : σ) (es : List ε) :
    totalCost step (fun _ _ => 0) s es = 0 := by
  induction es generalizing s with
  | nil => rfl
  | cons e es ih =>
    rw [totalCost]
    cases step s e with
    | none => rfl
    | some t => exact (Nat.zero_add _).trans (ih t)

theorem totalCost_const_mul (step : σ → ε → Option σ) (k : Nat) (cost : σ → σ → Nat) (s : σ)
    (es : List ε) :
    totalCost step (fun s t => k * cost s t) s es = k * totalCost step cost s es := by
  induction es generalizing s with
  | nil => rfl
  | cons e es ih =>
    rw [totalCost, totalCost]
    cases step s e with
    | none => rfl
    | some t => exact (congrArg (k * cost s t + ·) (ih t)).trans (Nat.mul_add _ _ _).symm

/-- Someone waits, and does not wait again once it is over. -/
theorem waits_of_run {step : σ → ε → Option σ} {I : σ → Prop} (waits : σ → Prop)
    (hstep : ∀ s e s', I s → step s e = some s' → I s')
    (hback : ∀ s e s', I s → step s e = some s' → waits s' → waits s) {s s' : σ} {es : List ε}
    (h : I s) (hrun : run step s es = some s') (hwaits : waits s') : waits s := by
  induction es generalizing s with
  | nil => exact Option.some.inj hrun ▸ hwaits
  | cons e es ih =>
    obtain ⟨t, ht, hrun⟩ := run_cons_eq_some.mp hrun
    exact hback s e t h ht (ih (hstep s e t h ht) hrun)

/-- Every turn of someone who waits takes its rank down by one, up to what the step costs, and so
    it has a turn at most as often as its rank and the costs say. -/
theorem countP_add_rank_le {step : σ → ε → Option σ} {I : σ → Prop} (waits : σ → Prop)
    (turn : ε → Bool) (rank : σ → Nat) (cost : σ → σ → Nat)
    (hstep : ∀ s e s', I s → step s e = some s' → I s')
    (hback : ∀ s e s', I s → step s e = some s' → waits s' → waits s)
    (hrank : ∀ s e s', I s → waits s → waits s' → step s e = some s' →
      rank s' + (if turn e = true then 1 else 0) ≤ rank s + cost s s')
    {s s' : σ} {es : List ε} (h : I s) (hrun : run step s es = some s') (hwaits : waits s') :
    es.countP turn + rank s' ≤ rank s + totalCost step cost s es := by
  induction es generalizing s with
  | nil =>
    obtain rfl := Option.some.inj hrun
    exact Nat.le_of_eq (Nat.zero_add _)
  | cons e es ih =>
    have hfirst := waits_of_run waits hstep hback h hrun hwaits
    obtain ⟨t, ht, hrun⟩ := run_cons_eq_some.mp hrun
    have hI := hstep s e t h ht
    have hle := hrank s e t h hfirst (waits_of_run waits hstep hback hI hrun hwaits) ht
    have hrest := ih hI hrun
    rw [List.countP_cons, totalCost_cons cost ht]
    omega

end ForStd
