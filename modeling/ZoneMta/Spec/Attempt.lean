import ZoneMta.Native.Attempts
import ZoneMta.Spec.SenderCorrect

/-!
# One failed attempt

What a call of `sendNext` does about an error: `handleResponseError` sends DEFER with the entry of
the list of defer times for the count of the delivery, or RELEASE behind the end of the list. It
runs once, so a call sends one DEFER at most, and one BOUNCE.

## Key results

- `undecided_step`: a call that has not sent a command for an error was like that before
- `responseErrorHook_step`: the command of `handleResponseError`
- `bounces_step`: there is one BOUNCE at most
-/

namespace ZoneMta

namespace Sender

theorem inv_sendNext : Inv sendNext := by
  constructor <;> simp [sendNext, Main.early, Main.connected, Deaf, Sender.reports, Main.reports,
    ErrorPath.reports]

/-- The error chain has not sent a command, and may still do so. -/
def Undecided (s : State) : Prop :=
  s.errorPath = .responseErrorHook ∨ s.errorPath = .idle ∧ s.main.reports = 0

instance (s : State) : Decidable (Undecided s) := inferInstanceAs (Decidable (_ ∨ _))

theorem crashed_of_step {config : SenderConfig} {s s' : State} {e : Event}
    (hstep : step config s e = some s') : s.crashed = false := by
  by_contra hc
  simp [step, hc] at hstep

theorem undecided_step {config : SenderConfig} {s s' : State} {e : Event} (h : Inv s)
    (hstep : step config s e = some s') (hundecided : Undecided s') : Undecided s := by
  obtain ⟨hreports, hresponse, hcontinued, hfailed, hearly, hconnected, hclosed, hcrashed, hhttp,
    hthrown⟩ := h
  have hcrash := crashed_of_step hstep
  unfold Undecided at hundecided ⊢
  cases e with
  | get reply =>
    simp only [step, hcrash] at hstep
    cases reply <;> grind -ring -linarith
  | connectionError =>
    -- a connection that is listened to and not done with is in use
    simp only [step, hcrash, handleError_eq] at hstep
    cases hm : s.main.early <;> cases hc : s.main.connected <;> grind [Main.reports_of_connected]
  | responseErrorHook err delivery =>
    simp only [step, hcrash, handleResponseError, sendCommand] at hstep
    grind -ring -linarith
  | _ =>
    simp only [step, hcrash, handleError_eq, sendCommand, continueSending_eq, endTimer, headersFail,
      sendCallback] at hstep
    grind -ring -linarith

/-- Only the error chain defers: behind the hook, once. -/
theorem commands_step {config : SenderConfig} {s s' : State} {e : Event}
    (hstep : step config s e = some s') :
    s'.commands = s.commands ∨ ∃ cmd, s'.commands = s.commands ++ [cmd] ∧
      ∀ ttl category, cmd = .defer ttl category →
        ∃ err delivery, e = .responseErrorHook err delivery := by
  have hcrash := crashed_of_step hstep
  cases e with
  | responseErrorHook err delivery =>
    simp only [step, hcrash, handleResponseError, sendCommand] at hstep
    grind -ring -linarith
  | get reply =>
    simp only [step, hcrash] at hstep
    cases reply <;> grind -ring -linarith
  | _ =>
    simp only [step, hcrash, handleError_eq, sendCommand, continueSending_eq, endTimer, headersFail,
      sendCallback] at hstep
    grind -ring -linarith

/-- What becomes of an attempt that fails, unless its error is classified as reject. -/
def failure (times : List Nat) (count : Nat) (category : String) : Command :=
  match times[count]? with
  | some ttl => .defer ttl category
  | none => .release (some false)

theorem responseErrorHook_step {config : SenderConfig} {s s' : State} {err : DeliveryError}
    {delivery : SenderDelivery} (hstep : step config s (.responseErrorHook err delivery) = some s') :
    s.errorPath = .responseErrorHook ∧ (s'.errorPath ≠ .responseErrorHook ∧ s'.errorPath ≠ .idle) ∧
      s'.commands = s.commands ++
        [if (bounceFor config delivery err).action = "reject" then .release (some false)
         else failure (deferTimes config delivery) delivery.deferredCount
          (bounceFor config delivery err).category] := by
  have hcrash := crashed_of_step hstep
  simp only [step, hcrash, handleResponseError, sendCommand] at hstep
  have hget : ∀ (times : List Nat) (count : Nat) (category : String), failure times count category =
      if count < times.length then .defer (times.getD count 0) category
      else .release (some false) := by
    intro times count category
    unfold failure
    by_cases hlt : count < times.length
    · simp [hlt]
    · simp [hlt]
  rw [hget]
  unfold deferTimes
  grind -ring -linarith

/-- `sendBounceMessage` is called behind the reply to RELEASE. -/
def bounces (s : State) : Nat := s.commands.countP fun cmd =>
  match cmd with
  | .bounce _ => true
  | _ => false

theorem bounces_step {config : SenderConfig} {s s' : State} {e : Event} (h : Inv s)
    (hbounces : bounces s ≤ if s.errorPath = .done then 1 else 0)
    (hstep : step config s e = some s') :
    bounces s' ≤ if s'.errorPath = .done then 1 else 0 := by
  obtain ⟨hreports, hresponse, hcontinued, hfailed, hearly, hconnected, hclosed, hcrashed, hhttp,
    hthrown⟩ := h
  unfold bounces at *
  have hcrash := crashed_of_step hstep
  cases e with
  | responseErrorHook err delivery =>
    simp only [step, hcrash, handleResponseError, sendCommand] at hstep
    grind -ring -linarith
  | get reply =>
    simp only [step, hcrash] at hstep
    cases reply <;> grind -ring -linarith
  | _ =>
    simp only [step, hcrash, handleError_eq, sendCommand, continueSending_eq, endTimer, headersFail,
      sendCallback] at hstep
    grind -ring -linarith

end Sender

end ZoneMta
