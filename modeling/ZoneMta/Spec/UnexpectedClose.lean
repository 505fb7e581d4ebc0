import ZoneMta.Native.SenderErrors
import ZoneMta.Spec.Attempt

/-!
# A connection that is closed unexpectedly

The timer of the `end` event makes an error that defers the delivery. It makes it from the `err` of
the callback of `getConnectionWithCache`, which is not set when there is a connection: so the timer
throws whenever it finds the delivery neither sent nor failed.

## Key results

- `state_step`: without the errors, the steps are those of `Sender.step`
- `inv_step`: `err` is not set while the connection is listened to
- `reports_iff`: the runs in which the timer does what it is for
- `throws_closed`: a connection that is closed while the message is sent
-/

namespace ZoneMta

namespace Sender

namespace Scope

open ForStd (run Along)

/-! ## What the timer is for -/

/-- The timer reports a delivery that is neither sent nor failed, with an error that defers it. -/
def Reports (config : SenderConfig) (w : Scope) (e : Event) : Prop :=
  e = .endTimer → w.state.connectionDone = false → ∀ w', step config w e = some w' →
    w'.state.crashed = false ∧ ∃ err, w'.handled = w.handled ++ [some err] ∧
      err.category = "network" ∧ err.temporary = true ∧
      (bounceFor config w'.state.delivery err).action = "defer"

/-- The message was sent, or the connection has failed, before the timer. -/
def InTime (w : Scope) (e : Event) : Prop := e = .endTimer → w.state.connectionDone = true

instance (w : Scope) (e : Event) : Decidable (InTime w e) :=
  inferInstanceAs (Decidable (_ → _))

/-- `err` is not set once there is a connection, and the delivery is handed to `handleError` if
    and only if it counts as answered. -/
structure Inv (w : Scope) : Prop where
  state : Sender.Inv w.state
  err : w.state.endListener = true ∨ w.state.endTimer = true → w.err = none
  handled : w.state.responseSent = true ↔ w.handled ≠ []

variable {config : SenderConfig} {w w' : Scope} {e : Event}

/-! ## One callback -/

/-- The timer, or a callback without an error of its own to make. -/
theorem step_cases (h : step config w e = some w') :
    (e = .endTimer ∧ w.state.crashed = false ∧ w.state.endTimer = true ∧
      w' = { w with state := { w.state with endTimer := false } }.endTimer) ∨
    (¬(e = .other e.plain ∧ Event.reserved e.plain = true) ∧ e ≠ .endTimer ∧
      ∃ state, Sender.step config w.state e.plain = some state ∧
        w' = { w.assign e with state := state, handled := w.handled ++ w.passes e }) := by
  by_cases he : e = .endTimer
  · subst he
    simp only [step, Option.ite_none_left_eq_some, not_or, Bool.not_eq_true, Bool.not_eq_false,
      Option.some.injEq] at h
    exact Or.inl ⟨rfl, h.1.1, h.1.2, h.2.symm⟩
  · have hstep : step config w e =
        if e = .other e.plain ∧ Event.reserved e.plain then none
        else (Sender.step config w.state e.plain).map fun state =>
          { w.assign e with state := state, handled := w.handled ++ w.passes e } := by
      cases e <;> first | rfl | exact absurd rfl he
    rw [hstep, Option.ite_none_left_eq_some, Option.map_eq_some_iff] at h
    obtain ⟨hplain, state, hstate, hw'⟩ := h
    exact Or.inr ⟨hplain, he, state, hstate, hw'.symm⟩

/-- The connection is listened to from the callback of `getConnectionWithCache` on. -/
theorem listens_step {s s' : State} {e : Sender.Event} (h : Sender.step config s e = some s')
    (hlistens : s'.endListener = true ∨ s'.endTimer = true) :
    e = .getConnection false false ∨ s.endListener = true ∨ s.endTimer = true := by
  obtain ⟨-, hgoes⟩ := goes_of_step h
  cases hgoes with
  | @connected http =>
    cases http with
    | false => exact Or.inl rfl
    | true => exact Or.inr (hlistens.imp_left nofun)
  | lateEnd hlistener | connectionEnd hlistener => exact Or.inr (Or.inl hlistener)
  | lateTimer htimer | timerThrows htimer => exact Or.inr (Or.inr htimer)
  | _ => exact Or.inr (by simpa [handleError_eq, sendCommand, continueSending_eq] using hlistens)

/-- A callback calls `handleError` with what it passes. -/
theorem response_step {state : State} (h : Sender.step config w.state e.plain = some state)
    (hplain : ¬(e = .other e.plain ∧ Event.reserved e.plain = true)) (he : e ≠ .endTimer) :
    state.responseSent = true ↔ w.state.responseSent = true ∨ w.passes e ≠ [] := by
  obtain ⟨-, hgoes⟩ := goes_of_step h
  cases e with
  | get reply domain => cases hgoes <;> simp [passes]
  | fetchHook err delivery =>
    cases err <;> cases hgoes <;> simp [passes, handleError_eq, sendCommand]
  | getConnection err connection =>
    cases err <;> cases hgoes <;> simp [passes, handleError_eq]
  | connectionError err =>
    cases hgoes with
    | lateError hlistener hdone => simp [passes, hdone]
    | connectionError hlistener hdone => simp [passes, hdone, handleError_eq]
  | endTimer => exact absurd rfl he
  | headersHook err delivery =>
    cases err with
    | none => cases hgoes; simp [passes]
    | some err =>
      cases hgoes with
      | headersFail hmain hhttp => simp [passes, hhttp, handleError_eq]
      | closeThrows hmain hhttp => simp [passes, hhttp]
  | send err rejected =>
    cases hgoes with
    | sendFails hmain herr =>
      cases err <;> cases rejected <;> simp_all [passes, handleError_eq]
    | sends hmain herr =>
      cases err <;> cases rejected <;> simp_all [passes, sendCommand]
  | other e =>
    have hreserved : Event.reserved e = false := by simpa [Event.plain] using hplain
    simp only [Event.plain] at hgoes
    cases hgoes <;>
      first
      | simp [passes, sendCommand, continueSending_eq]; done
      | simp [Event.reserved] at hreserved

/-- The timer throws unless the connection is done with: `err` is not set. -/
theorem endTimer_eq (herr : w.err = none) : w.endTimer =
    if w.state.connectionDone then w
    else { w with state := { w.state with connectionDone := true, crashed := true } } := by
  simp only [endTimer, closedError, herr, Option.map_none]

/-- Without the errors, the steps are those of `Sender.step`. -/
theorem state_step (h : Inv w) (hstep : step config w e = some w') :
    Sender.step config w.state e.plain = some w'.state := by
  rcases step_cases hstep with ⟨rfl, hcrashed, htimer, rfl⟩ | ⟨-, -, state, hstate, rfl⟩
  · rw [endTimer_eq (by exact h.err (Or.inr htimer))]
    simp only [Event.plain, Sender.step, hcrashed, htimer, Sender.endTimer, Bool.false_eq_true,
      not_true_eq_false, if_false]
    split <;> rfl
  · exact hstate

/-- One callback keeps the invariant. -/
theorem inv_step (h : Inv w) (hstep : step config w e = some w') : Inv w' := by
  have hstate := state_step h hstep
  have hinv := Sender.inv_step h.state hstate
  rcases step_cases hstep with ⟨rfl, hcrashed, htimer, rfl⟩ | ⟨hplain, he, state, hplainStep, rfl⟩
  · have herr := h.err (Or.inr htimer)
    refine ⟨hinv, fun _ => ?_, ?_⟩
    · rw [endTimer_eq (by exact herr)]
      split <;> exact herr
    · rw [endTimer_eq (by exact herr)]
      split <;> exact h.handled
  · refine ⟨hinv, fun hlistens => ?_, ?_⟩
    · rcases listens_step hplainStep hlistens with hconnected | hbefore
      · cases e with
        | getConnection err connection =>
          simp only [Event.plain, Sender.Event.getConnection.injEq, Option.isSome_eq_false_iff,
            Option.isNone_iff_eq_none] at hconnected
          exact hconnected.1
        | other e =>
          simp only [Event.plain] at hconnected
          exact absurd ⟨rfl, by rw [Event.plain, hconnected]; rfl⟩ hplain
        | _ => exact nomatch hconnected
      · have herr := h.err hbefore
        cases e with
        | getConnection err connection =>
          -- no connection is listened to yet
          obtain ⟨-, hgoes⟩ := goes_of_step hplainStep
          have hmain : w.state.main = .getConnection := by
            generalize hisSome : err.isSome = isSome at hgoes
            simp only [Event.plain, hisSome] at hgoes
            cases hgoes <;> assumption
          have hdeaf := (h.state.early (by rw [hmain]; rfl)).2.2.2
          rw [hdeaf.2.1, hdeaf.2.2] at hbefore
          exact (hbefore.elim nofun nofun)
        | _ => exact herr
    · rw [response_step hplainStep hplain he, h.handled, ← not_and_or, ← List.append_eq_nil_iff]

theorem inv_start : Inv {} where
  state := inv_sendNext
  err := fun _ => rfl
  handled := ⟨nofun, fun h => absurd rfl h⟩

/-! ## Runs -/

/-- The timer does what it is for if and only if it has nothing to do. -/
theorem reports_iff_inTime (h : Inv w) (hstep : step config w e = some w') :
    Reports config w e ↔ InTime w e := by
  constructor
  · intro hreports he
    by_contra hdone
    have hdone : w.state.connectionDone = false := by simpa using hdone
    have halive := (hreports he hdone w' hstep).1
    rcases step_cases hstep with ⟨-, -, htimer, rfl⟩ | ⟨-, hne, -⟩
    · rw [endTimer_eq (by exact h.err (Or.inr htimer)), if_neg (by simp [hdone])] at halive
      exact nomatch halive
    · exact hne he
  · intro htime he hdone
    exact nomatch hdone.symm.trans (htime he)

/-- In time, the timer does not throw. -/
theorem crashed_step (h : Inv w) (htime : InTime w e) (hstep : step config w e = some w') :
    w'.state.crashed = false := by
  obtain ⟨hcrashed, hgoes⟩ := goes_of_step (state_step h hstep)
  generalize hplain : e.plain = plain at hgoes
  generalize hstate : w'.state = state at hgoes
  cases hgoes with
  | timerThrows htimer hdone =>
    rcases step_cases hstep with ⟨rfl, -⟩ | ⟨hreserved, hne, -⟩
    · exact nomatch hdone.symm.trans (htime rfl)
    · cases e with
      | endTimer => exact absurd rfl hne
      | other e =>
        simp only [Event.plain] at hplain
        exact absurd ⟨rfl, by rw [Event.plain, hplain]; rfl⟩ hreserved
      | _ => exact nomatch hplain
  | _ => simpa [handleError_eq, sendCommand, continueSending_eq] using hcrashed

/-- The timer reports the deliveries that it is there for, and never throws, if and only if it
    always comes after the message was sent or the connection has failed. -/
theorem reports_iff {es : List Event} (hrun : run (step config) {} es = some w) :
    (Along (step config) (Reports config) {} es ∧ w.state.crashed = false) ↔
      Along (step config) InTime {} es := by
  have hcongr : Along (step config) (Reports config) {} es ↔ Along (step config) InTime {} es :=
    ForStd.along_congr (fun _ _ _ h hstep => inv_step h hstep)
      (fun _ _ _ h hstep => reports_iff_inTime h hstep) inv_start hrun
  rw [hcongr]
  refine ⟨And.left, fun htime => ⟨htime, ?_⟩⟩
  exact (ForStd.run_invariant_along (I := fun w => Inv w ∧ w.state.crashed = false)
    (fun _ _ _ h htime hstep => ⟨inv_step h.1 hstep, crashed_step h.1 htime hstep⟩)
    ⟨inv_start, rfl⟩ htime hrun).2

/-! ## Runs on a connection that is closed -/

/-- A delivery on its way to the MX of `example.com`, and the connection is closed. -/
def closed : List Event :=
  [.get (.delivery ⟨false, false, 0, [], false, "from@example.net", true⟩) "example.com",
    .fetchHook none ⟨false, false, 0, [], false, "from@example.net", true⟩, .other .speedometer,
    .getConnection none ⟨false, "mx.example.com", "203.0.113.5"⟩,
    .headersHook none ⟨false, false, 0, [], false, "from@example.net", true⟩,
    .other .connectionEnd]

/-- No rule of `config/bounces.txt` matches. -/
def noRules : SenderConfig where
  check _ _ := ⟨"reject", "other"⟩
  deferTimes := none

/-- The send callback comes before the timer. -/
theorem reports_sentBefore :
    ∃ w, run (step noRules) {} (closed ++ [.send none none, .endTimer]) = some w ∧
      Along (step noRules) (Reports noRules) {} (closed ++ [.send none none, .endTimer]) ∧
      w.state.crashed = false := by
  have hrun : (run (step noRules) {} (closed ++ [.send none none, .endTimer])).isSome = true := by
    decide +kernel
  obtain ⟨w, hw⟩ := Option.isSome_iff_exists.mp hrun
  exact ⟨w, hw, (reports_iff hw).mpr (by decide +kernel)⟩

/-- The timer comes first, and throws. -/
theorem throws_closed :
    ¬∀ (config : SenderConfig) (es : List Event) (w : Scope),
      run (step config) {} es = some w →
        Along (step config) (Reports config) {} es ∧ w.state.crashed = false := by
  intro h
  have hrun : (run (step noRules) {} (closed ++ [.endTimer])).map (·.state.crashed) =
      some true := by decide +kernel
  obtain ⟨w, hw, hcrashed⟩ := Option.map_eq_some_iff.mp hrun
  have halive := (h noRules _ w hw).2
  exact nomatch hcrashed.symm.trans halive

end Scope

end Sender

end ZoneMta
