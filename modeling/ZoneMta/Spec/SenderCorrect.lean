import Mathlib
import ZoneMta.ForStd.Transition
import ZoneMta.Native.Sender

/-!
# One report for each delivery

A fetched delivery is ended by one `RELEASE` or `DEFER` if the callbacks come in order
(`InOrder`): the one-second timer of the `end` event only fires after the connection is
done with, no `sender:headers` hook fails for a delivery over HTTP, and no message is
accepted after the connection has failed. In any other order the delivery is not reported
at all, because the timer or the hook's callback throws, or it is reported twice.

## Key results

- `goes_of_step`: what a callback does
- `inv_step`: one callback keeps the invariant `Inv`
- `single_step`: in order, a delivery that is released is not deferred as well
- `misreported_step`: what goes wrong stays wrong
- `reported_iff`: when a delivery is reported exactly once
-/

namespace ZoneMta

namespace Sender

/-! ## Reports -/

/-- The commands that end a delivery. -/
@[grind] def Command.isTerminal : Command → Bool
  | .release _ => true
  | .defer _ _ => true
  | .bounce _ => false

/-- How often the delivery was ended. -/
@[grind] def reports (s : State) : Nat := s.commands.countP Command.isTerminal

/-- The state when `GET` has returned a delivery. -/
def fetched (delivery : SenderDelivery) : State :=
  { sendNext with main := .fetchHook, delivery := delivery }

/-- The callback or event comes in order. -/
@[grind] def InOrder (s : State) : Event → Prop
  | .endTimer => s.connectionDone = true
  | .headersHook err _ => s.http = true → err = false
  | .send err rejected => s.responseSent = true → (err || (s.delivery.useLMTP && rejected)) = true
  | _ => True

/-- The events are over: both chains of callbacks have ended, or the main chain waits for a
    connection that is done with. -/
def Over (s : State) : Prop :=
  s.crashed = true ∨
    ((s.errorPath = .idle ∨ s.errorPath = .done) ∧
      (s.main = .failed ∨ s.main = .thrown ∨ s.main = .done ∨
        ((s.main = .headersHook ∨ s.main = .send) ∧ s.connectionDone = true)))

/-- The delivery is reported once, and the sender goes on once. -/
structure Reported (s : State) : Prop where
  reports_le : reports s ≤ 1
  continued_le : s.continued ≤ 1
  reports_over : Over s → reports s = 1

/-! ## The invariant -/

/-- Commands sent by the main chain. -/
@[grind] def Main.reports : Main → Nat
  | .releaseSuppressed | .release | .deliveredHook | .done => 1
  | _ => 0

/-- Commands sent by the error chain. -/
@[grind] def ErrorPath.reports : ErrorPath → Nat
  | .defer | .reject _ | .done => 1
  | .idle | .responseErrorHook => 0

/-- There is no connection yet. -/
@[grind] def Main.early : Main → Bool
  | .get | .fetchHook | .releaseSuppressed | .speedometer | .getConnection | .empty => true
  | _ => false

/-- The connection is in use. -/
@[grind] def Main.connected : Main → Bool
  | .headersHook | .send => true
  | _ => false

theorem Main.reports_of_connected {m : Main} (h : m.connected = true) : m.reports = 0 := by
  cases m <;> simp [Main.connected, Main.reports] at h ⊢

theorem Main.reports_le (m : Main) : m.reports ≤ 1 := by
  cases m <;> simp [Main.reports]

theorem ErrorPath.reports_le (p : ErrorPath) : p.reports ≤ 1 := by
  cases p <;> simp [ErrorPath.reports]

/-- No event of the connection has an effect. -/
@[grind] def Deaf (s : State) : Prop :=
  s.errorListener = false ∧ s.endListener = false ∧ s.endTimer = false

/-- The invariant of one call of `sendNext`. -/
@[mk_iff] structure Inv (s : State) : Prop where
  reports : Sender.reports s = s.main.reports + s.errorPath.reports
  response : s.responseSent = true ↔ s.errorPath ≠ .idle
  continued : s.continued = if s.sendingDone then 1 else 0
  failed : s.main = .failed → s.responseSent = true
  early : s.main.early = true →
    s.responseSent = false ∧ s.connectionDone = false ∧ s.crashed = false ∧ Deaf s
  connected : s.main.connected = true → s.crashed = false →
    s.connectionDone = s.responseSent
  closed : s.main.early = false → s.main.connected = false →
    s.crashed = false ∧ (s.connectionDone = true ∨ Deaf s)
  crashed : s.crashed = true → s.responseSent = false
  http : s.http = true →
    Deaf s ∧ (s.main.connected = true → s.crashed = false → s.responseSent = false)
  thrown : s.main = .thrown → s.responseSent = false ∧ Deaf s

theorem inv_fetched (delivery : SenderDelivery) : Inv (fetched delivery) := by
  constructor <;> simp [fetched, sendNext, Main.early, Main.connected, Deaf, Sender.reports,
    Main.reports, ErrorPath.reports]

/-- `handleError` starts the error chain, once. -/
theorem handleError_eq (s : State) :
    handleError s = { s with
      responseSent := true
      errorPath := if s.responseSent then s.errorPath else .responseErrorHook } := by
  obtain ⟨_, _ | _, _⟩ := s <;> rfl

theorem continueSending_eq (s : State) :
    continueSending s = { s with
      sendingDone := true
      continued := s.continued + if s.sendingDone then 0 else 1 } := by
  obtain ⟨_ | _, _⟩ := s <;> rfl

/-- What a callback or event does. -/
inductive Goes (config : SenderConfig) (s : State) : Event → State → Prop
  | getNone {reply : GetReply} (hmain : s.main = .get) :
      Goes config s (.get reply) { s with main := .empty, continuing := s.continuing + 1 }
  | getDelivery {delivery : SenderDelivery} (hmain : s.main = .get) :
      Goes config s (.get (.delivery delivery)) { s with main := .fetchHook, delivery := delivery }
  | fetchFails {delivery : SenderDelivery} (hmain : s.main = .fetchHook) :
      Goes config s (.fetchHook true delivery)
        (handleError { s with delivery := delivery, main := .failed })
  | suppressed {delivery : SenderDelivery} (hmain : s.main = .fetchHook) :
      Goes config s (.fetchHook false delivery)
        (sendCommand { s with delivery := delivery, main := .releaseSuppressed } (.release none))
  | fetched {delivery : SenderDelivery} (hmain : s.main = .fetchHook) :
      Goes config s (.fetchHook false delivery)
        { s with delivery := delivery, main := .speedometer }
  | releaseSuppressed (hmain : s.main = .releaseSuppressed) :
      Goes config s .releaseSuppressed { s with main := .done, continuing := s.continuing + 1 }
  | speedometer (hmain : s.main = .speedometer) :
      Goes config s .speedometer { s with main := .getConnection, connectTimer := true }
  | connectTimer : Goes config s .connectTimer (continueSending { s with connectTimer := false })
  | connectFails {http : Bool} (hmain : s.main = .getConnection) :
      Goes config s (.getConnection true http)
        (handleError { s with connectTimer := false, main := .failed })
  | connected {http : Bool} (hmain : s.main = .getConnection) :
      Goes config s (.getConnection false http)
        { s with
          connectTimer := false
          http := http
          main := .headersHook
          errorListener := !http
          endListener := !http }
  | lateError (hlistener : s.errorListener = true) (hdone : s.connectionDone = true) :
      Goes config s .connectionError { s with errorListener := false }
  | connectionError (hlistener : s.errorListener = true) (hdone : s.connectionDone = false) :
      Goes config s .connectionError
        (handleError { s with errorListener := false, connectionDone := true })
  | lateEnd (hlistener : s.endListener = true) :
      Goes config s .connectionEnd { s with endListener := false }
  | connectionEnd (hlistener : s.endListener = true) (hdone : s.connectionDone = false) :
      Goes config s .connectionEnd { s with endListener := false, endTimer := true }
  | lateTimer (htimer : s.endTimer = true) (hdone : s.connectionDone = true) :
      Goes config s .endTimer { s with endTimer := false }
  | timerThrows (htimer : s.endTimer = true) (hdone : s.connectionDone = false) :
      Goes config s .endTimer
        { s with endTimer := false, connectionDone := true, crashed := true }
  | headersFail {delivery : SenderDelivery} (hmain : s.main = .headersHook)
      (hhttp : s.http = false) :
      Goes config s (.headersHook true delivery)
        (handleError { s with delivery := delivery, connectionDone := true, main := .failed })
  | closeThrows {delivery : SenderDelivery} (hmain : s.main = .headersHook)
      (hhttp : s.http = true) :
      Goes config s (.headersHook true delivery)
        { s with delivery := delivery, connectionDone := true, main := .thrown }
  | headers {delivery : SenderDelivery} (hmain : s.main = .headersHook) :
      Goes config s (.headersHook false delivery) { s with delivery := delivery, main := .send }
  | sendFails {err rejected : Bool} (hmain : s.main = .send)
      (herr : (err || (s.delivery.useLMTP && rejected)) = true) :
      Goes config s (.send err rejected) (handleError { s with connectionDone := true, main := .failed })
  | sends {err rejected : Bool} (hmain : s.main = .send)
      (herr : (err || (s.delivery.useLMTP && rejected)) = false) :
      Goes config s (.send err rejected)
        (sendCommand { s with connectionDone := true, main := .release } (.release (some true)))
  | releaseFails (hmain : s.main = .release) :
      Goes config s (.release true) { s with main := .done, closing := true }
  | release (hmain : s.main = .release) :
      Goes config s (.release false) { s with main := .deliveredHook }
  | deliveredHook (hmain : s.main = .deliveredHook) :
      Goes config s .deliveredHook { s with main := .done, continuing := s.continuing + 1 }
  | defers {err : DeliveryError} {delivery : SenderDelivery} {ttl : Nat} {category : String}
      (herror : s.errorPath = .responseErrorHook) :
      Goes config s (.responseErrorHook err delivery)
        (sendCommand { s with delivery := delivery, errorPath := .defer } (.defer ttl category))
  | rejects {err : DeliveryError} {delivery : SenderDelivery} {bounce : Bounce}
      (herror : s.errorPath = .responseErrorHook) :
      Goes config s (.responseErrorHook err delivery)
        (sendCommand { s with delivery := delivery, errorPath := .reject bounce }
          (.release (some false)))
  | deferFails (herror : s.errorPath = .defer) :
      Goes config s (.defer true) { s with errorPath := .done, closing := true }
  | deferred (herror : s.errorPath = .defer) :
      Goes config s (.defer false) (continueSending { s with errorPath := .done })
  | rejectFails {released : Bool} {bounce : Bounce} (herror : s.errorPath = .reject bounce) :
      Goes config s (.reject true released) { s with errorPath := .done, closing := true }
  | bounced {released : Bool} {bounce : Bounce} (herror : s.errorPath = .reject bounce) :
      Goes config s (.reject false released)
        (continueSending (sendCommand { s with errorPath := .done } (.bounce bounce.category)))
  | rejected {released : Bool} {bounce : Bounce} (herror : s.errorPath = .reject bounce) :
      Goes config s (.reject false released) (continueSending { s with errorPath := .done })
  | continueSending {n : Nat} (hn : s.continuing = n + 1) :
      Goes config s .continueSending (Sender.continueSending { s with continuing := n })

/-- The command that `handleResponseError` sends. -/
theorem handleResponseError_cases (config : SenderConfig) (s : State) (err : DeliveryError) :
    (∃ ttl category, handleResponseError config s err =
      sendCommand { s with errorPath := .defer } (.defer ttl category)) ∨
    ∃ bounce, handleResponseError config s err =
      sendCommand { s with errorPath := .reject bounce } (.release (some false)) := by
  by_cases hdefer : (bounceFor config s.delivery err).action ≠ "reject" ∧
      s.delivery.deferredCount < (if s.delivery.deferTimes = [] then defaultDeferTimes config
        else s.delivery.deferTimes).length
  · exact Or.inl ⟨_, _, if_pos hdefer⟩
  · exact Or.inr ⟨_, if_neg hdefer⟩

/-- What a callback or event does. -/
theorem goes_of_step {config : SenderConfig} {s s' : State} {e : Event}
    (hstep : step config s e = some s') : s.crashed = false ∧ Goes config s e s' := by
  have hcrash : s.crashed = false := by
    by_contra hc
    simp [step, hc] at hstep
  refine ⟨hcrash, ?_⟩
  -- a process that has thrown does nothing more
  have hstep := (if_neg (by simp [hcrash])).symm.trans hstep
  cases e with
  | get reply =>
    simp only [ne_eq, ite_not, Option.ite_none_right_eq_some] at hstep
    obtain ⟨hmain, hstep⟩ := hstep
    cases reply with
    | error => exact Option.some.inj hstep ▸ .getNone hmain
    | empty => exact Option.some.inj hstep ▸ .getNone hmain
    | delivery delivery => exact Option.some.inj hstep ▸ .getDelivery hmain
  | fetchHook err delivery =>
    simp only [ne_eq, ite_not, Option.ite_none_right_eq_some] at hstep
    obtain ⟨hmain, hstep⟩ := hstep
    cases err with
    | true => exact Option.some.inj hstep ▸ .fetchFails hmain
    | false =>
      simp only [Bool.false_eq_true, if_false] at hstep
      split at hstep
      · exact Option.some.inj hstep ▸ .suppressed hmain
      · exact Option.some.inj hstep ▸ .fetched hmain
  | releaseSuppressed =>
    simp only [ne_eq, ite_not, Option.ite_none_right_eq_some] at hstep
    obtain ⟨hmain, hstep⟩ := hstep
    exact Option.some.inj hstep ▸ .releaseSuppressed hmain
  | speedometer =>
    simp only [ne_eq, ite_not, Option.ite_none_right_eq_some] at hstep
    obtain ⟨hmain, hstep⟩ := hstep
    exact Option.some.inj hstep ▸ .speedometer hmain
  | connectTimer =>
    simp only [ite_not, Option.ite_none_right_eq_some] at hstep
    obtain ⟨_, hstep⟩ := hstep
    exact Option.some.inj hstep ▸ .connectTimer
  | getConnection err http =>
    simp only [ne_eq, ite_not, Option.ite_none_right_eq_some] at hstep
    obtain ⟨hmain, hstep⟩ := hstep
    cases err with
    | true => exact Option.some.inj hstep ▸ .connectFails hmain
    | false => exact Option.some.inj hstep ▸ .connected hmain
  | connectionError =>
    simp only [ite_not, Option.ite_none_right_eq_some] at hstep
    obtain ⟨hlistener, hstep⟩ := hstep
    split at hstep
    next hdone => exact Option.some.inj hstep ▸ .lateError hlistener hdone
    next hdone =>
      exact Option.some.inj hstep ▸ .connectionError hlistener (Bool.eq_false_iff.mpr hdone)
  | connectionEnd =>
    simp only [ite_not, Option.ite_none_right_eq_some] at hstep
    obtain ⟨hlistener, hstep⟩ := hstep
    split at hstep
    next => exact Option.some.inj hstep ▸ .lateEnd hlistener
    next hdone =>
      exact Option.some.inj hstep ▸ .connectionEnd hlistener (Bool.eq_false_iff.mpr hdone)
  | endTimer =>
    simp only [ite_not, Option.ite_none_right_eq_some, endTimer] at hstep
    obtain ⟨htimer, hstep⟩ := hstep
    split at hstep
    next hdone => exact Option.some.inj hstep ▸ .lateTimer htimer hdone
    next hdone =>
      exact Option.some.inj hstep ▸ .timerThrows htimer (Bool.eq_false_iff.mpr hdone)
  | headersHook err delivery =>
    simp only [ne_eq, ite_not, Option.ite_none_right_eq_some] at hstep
    obtain ⟨hmain, hstep⟩ := hstep
    cases err with
    | true =>
      simp only [if_true, headersFail] at hstep
      split at hstep
      next hhttp => exact Option.some.inj hstep ▸ .closeThrows hmain hhttp
      next hhttp => exact Option.some.inj hstep ▸ .headersFail hmain (Bool.eq_false_iff.mpr hhttp)
    | false => exact Option.some.inj hstep ▸ .headers hmain
  | send err rejected =>
    simp only [ne_eq, ite_not, Option.ite_none_right_eq_some, sendCallback] at hstep
    obtain ⟨hmain, hstep⟩ := hstep
    split at hstep
    next herr => exact Option.some.inj hstep ▸ .sendFails hmain herr
    next herr => exact Option.some.inj hstep ▸ .sends hmain (Bool.eq_false_iff.mpr herr)
  | release err =>
    simp only [ne_eq, ite_not, Option.ite_none_right_eq_some] at hstep
    obtain ⟨hmain, hstep⟩ := hstep
    cases err with
    | true => exact Option.some.inj hstep ▸ .releaseFails hmain
    | false => exact Option.some.inj hstep ▸ .release hmain
  | deliveredHook =>
    simp only [ne_eq, ite_not, Option.ite_none_right_eq_some] at hstep
    obtain ⟨hmain, hstep⟩ := hstep
    exact Option.some.inj hstep ▸ .deliveredHook hmain
  | responseErrorHook err delivery =>
    simp only [ne_eq, ite_not, Option.ite_none_right_eq_some] at hstep
    obtain ⟨herror, hstep⟩ := hstep
    -- deferred, or rejected as there are no more tries
    cases handleResponseError_cases config { s with delivery := delivery } err with
    | inl hdefer =>
      obtain ⟨ttl, category, hdefer⟩ := hdefer
      rw [hdefer, Option.some.injEq] at hstep
      exact hstep ▸ .defers herror
    | inr hreject =>
      obtain ⟨bounce, hreject⟩ := hreject
      rw [hreject, Option.some.injEq] at hstep
      exact hstep ▸ .rejects herror
  | defer err =>
    simp only [ne_eq, ite_not, Option.ite_none_right_eq_some] at hstep
    obtain ⟨herror, hstep⟩ := hstep
    cases err with
    | true => exact Option.some.inj hstep ▸ .deferFails herror
    | false => exact Option.some.inj hstep ▸ .deferred herror
  | reject err released =>
    dsimp only at hstep
    split at hstep
    next bounce herror =>
      cases err with
      | true => exact Option.some.inj hstep ▸ .rejectFails herror
      | false =>
        simp only [Bool.false_eq_true, if_false] at hstep
        split at hstep
        · exact Option.some.inj hstep ▸ .bounced herror
        · exact Option.some.inj hstep ▸ .rejected herror
    next => exact nomatch hstep
  | continueSending =>
    dsimp only at hstep
    split at hstep
    next => exact nomatch hstep
    next n hn => exact Option.some.inj hstep ▸ .continueSending hn

/-- One callback keeps the invariant. -/
theorem inv_step {config : SenderConfig} {s s' : State} {e : Event} (h : Inv s)
    (hstep : step config s e = some s') : Inv s' := by
  obtain ⟨hcrash, hgoes⟩ := goes_of_step hstep
  clear hstep
  -- one case for each callback; the functions that it calls are unfolded for `grind`
  rw [inv_iff] at h ⊢
  cases hgoes with
  | getNone hmain | getDelivery hmain | fetched hmain | releaseSuppressed hmain
  | speedometer hmain | connected hmain | headers hmain | releaseFails hmain | release hmain
  | deliveredHook hmain => grind -ring -linarith
  | fetchFails hmain | connectFails hmain | headersFail hmain | sendFails hmain =>
    rw [handleError_eq]
    grind -ring -linarith
  | suppressed hmain | sends hmain =>
    rw [sendCommand]
    grind -ring -linarith
  | lateError hlistener hdone | lateEnd hlistener | connectionEnd hlistener hdone =>
    grind -ring -linarith
  | connectionError hlistener hdone =>
    rw [handleError_eq]
    grind -ring -linarith
  | lateTimer htimer hdone | timerThrows htimer hdone => grind -ring -linarith
  | closeThrows hmain hhttp => grind -ring -linarith
  | defers herror | rejects herror =>
    rw [sendCommand]
    grind -ring -linarith
  | deferFails herror | rejectFails herror => grind -ring -linarith
  | deferred herror | rejected herror =>
    rw [continueSending_eq]
    grind -ring -linarith
  | bounced herror =>
    rw [sendCommand, continueSending_eq]
    grind -ring -linarith
  | connectTimer | continueSending =>
    rw [continueSending_eq]
    grind -ring -linarith

/-! ## Reports in order and out of order -/

/-- What one callback means for the reports. -/
inductive Change (s : State) (e : Event) (s' : State) : Prop where
  | quiet (main : s'.main.reports = s.main.reports) (response : s'.responseSent = s.responseSent)
      (crashed : s'.crashed = false) (thrown : s'.main = .thrown ↔ s.main = .thrown)
      (order : InOrder s e)
  | error (main : s.main.reports = 0) (main' : s'.main.reports = 0) (crashed : s'.crashed = false)
      (thrown : s.main ≠ .thrown) (thrown' : s'.main ≠ .thrown) (order : InOrder s e)
  | release (main : s.main.reports = 0) (main' : s'.main.reports = 1)
      (response : s'.responseSent = s.responseSent) (crashed : s'.crashed = false)
      (thrown : s.main ≠ .thrown) (order : InOrder s e ↔ s.responseSent = false)
  | crash (crashed : s'.crashed = true ∨ s'.main = .thrown) (order : ¬InOrder s e)

/-- A connection that is listened to and not done with is in use. -/
theorem Inv.connected_of_listener {s : State} (h : Inv s) (hlistener : s.errorListener = true)
    (hdone : s.connectionDone = false) : s.main.connected = true := by
  by_contra hc
  have hdeaf : Deaf s := by
    by_cases hearly : s.main.early = true
    · exact (h.early hearly).2.2.2
    · have hclosed := (h.closed (by simpa using hearly) (by simpa using hc)).2
      exact hclosed.resolve_left (by simp [hdone])
  rw [hdeaf.1] at hlistener
  exact nomatch hlistener

/-- The changes one by one. -/
theorem change_step {config : SenderConfig} {s s' : State} {e : Event} (h : Inv s)
    (hstep : step config s e = some s') : Change s e s' := by
  obtain ⟨hcrash, hgoes⟩ := goes_of_step hstep
  clear hstep
  cases hgoes with
  | getNone hmain | getDelivery hmain | fetched hmain | releaseSuppressed hmain
  | speedometer hmain | connected hmain | headers hmain | releaseFails hmain | release hmain
  | deliveredHook hmain =>
    exact .quiet (by rw [hmain]; rfl) rfl hcrash (by simp [hmain]) (by simp [InOrder])
  | fetchFails hmain | connectFails hmain =>
    rw [handleError_eq]
    exact .error (by rw [hmain]; rfl) rfl hcrash (by simp [hmain]) (by simp) trivial
  | headersFail hmain hhttp =>
    rw [handleError_eq]
    refine .error (by rw [hmain]; rfl) rfl hcrash (by simp [hmain]) (by simp) fun h => ?_
    exact absurd (h.symm.trans hhttp) (by decide)
  | closeThrows hmain hhttp => exact .crash (Or.inr rfl) fun h => absurd (h hhttp) (by decide)
  | sendFails hmain herr =>
    rw [handleError_eq]
    exact .error (by rw [hmain]; rfl) rfl hcrash (by simp [hmain]) (by simp) fun _ => herr
  | suppressed hmain =>
    -- before there is a connection nothing can have failed
    have hresponse := (h.early (by rw [hmain]; rfl)).1
    exact .release (by rw [hmain]; rfl) rfl rfl hcrash (by simp [hmain])
      ⟨fun _ => hresponse, fun _ => trivial⟩
  | sends hmain herr =>
    refine .release (by rw [hmain]; rfl) rfl rfl hcrash (by simp [hmain])
      ⟨fun horder => ?_, fun hresponse => ?_⟩
    · -- in order, a message is not accepted after an error
      by_contra hresponse
      rw [horder (by simpa using hresponse)] at herr
      exact nomatch herr
    · exact fun hsent => absurd (hsent.symm.trans hresponse) (by decide)
  | connectionError hlistener hdone =>
    -- the connection is in use as long as its listener has something to report
    have hconnected := h.connected_of_listener hlistener hdone
    have hmain := Main.reports_of_connected hconnected
    have hthrown : s.main ≠ .thrown := by
      intro hthrown
      rw [hthrown] at hconnected
      exact Bool.false_ne_true hconnected
    rw [handleError_eq]
    exact .error hmain hmain hcrash hthrown hthrown trivial
  | lateTimer htimer hdone => exact .quiet rfl rfl hcrash Iff.rfl hdone
  | timerThrows htimer hdone => exact .crash (Or.inl rfl) (by simp [InOrder, hdone])
  | lateError | lateEnd | connectionEnd | defers | rejects | deferFails | rejectFails =>
    exact .quiet rfl rfl hcrash Iff.rfl trivial
  | deferred | rejected | bounced | connectTimer | continueSending =>
    rw [continueSending_eq]
    exact .quiet rfl rfl hcrash Iff.rfl trivial

/-- A delivery that the main chain releases is not handled as an error. -/
structure Single (s : State) : Prop where
  alive : s.crashed = false
  caught : s.main ≠ .thrown
  released : s.main.reports = 1 → s.responseSent = false

/-- The delivery goes unreported, or it is reported twice. -/
def Misreported (s : State) : Prop :=
  s.crashed = true ∨ s.main = .thrown ∨ (s.main.reports = 1 ∧ s.responseSent = true)

theorem single_fetched (delivery : SenderDelivery) : Single (fetched delivery) :=
  ⟨rfl, by simp [fetched], fun _ => rfl⟩

/-- In order, a delivery that is released is not handled as an error as well. -/
theorem single_step {config : SenderConfig} {s s' : State} {e : Event} (hinv : Inv s)
    (h : Single s) (horder : InOrder s e) (hstep : step config s e = some s') : Single s' := by
  cases change_step hinv hstep with
  | quiet main response crashed thrown _ =>
    refine ⟨crashed, fun hthrown => h.caught (thrown.mp hthrown), ?_⟩
    rw [main, response]
    exact h.released
  | error _ main' crashed _ thrown' _ =>
    exact ⟨crashed, thrown', fun h1 => absurd h1 (by simp [main'])⟩
  | release _ main' response crashed _ order =>
    refine ⟨crashed, fun hthrown => ?_, fun _ => response.trans (order.mp horder)⟩
    rw [hthrown] at main'
    exact absurd main' (by decide)
  | crash _ order => exact absurd horder order

/-- What goes wrong stays wrong. -/
theorem misreported_step {config : SenderConfig} {s s' : State} {e : Event} (hinv : Inv s)
    (h : Misreported s) (hstep : step config s e = some s') : Misreported s' := by
  rcases h with hcrash | hwrong
  · simp [step, hcrash] at hstep
  · cases change_step hinv hstep with
    | quiet main response _ thrown _ =>
      rcases hwrong with hthrown | ⟨hmain, hresponse⟩
      · exact Or.inr (Or.inl (thrown.mpr hthrown))
      · exact Or.inr (Or.inr ⟨main.trans hmain, response.trans hresponse⟩)
    | error main _ _ thrown =>
      rcases hwrong with hthrown | ⟨hmain, -⟩
      · exact absurd hthrown thrown
      · exact absurd hmain (by simp [main])
    | release main _ _ _ thrown =>
      rcases hwrong with hthrown | ⟨hmain, -⟩
      · exact absurd hthrown thrown
      · exact absurd hmain (by simp [main])
    | crash crashed _ => exact crashed.imp_right Or.inl

/-- A callback out of order is what goes wrong. -/
theorem misreported_of_not_inOrder {config : SenderConfig} {s s' : State} {e : Event}
    (hinv : Inv s) (horder : ¬InOrder s e) (hstep : step config s e = some s') :
    Misreported s' := by
  cases change_step hinv hstep with
  | quiet _ _ _ _ order => exact absurd order horder
  | error _ _ _ _ _ order => exact absurd order horder
  | release _ main' response _ _ order =>
    have hsent : s.responseSent = true := by
      by_contra hsent
      exact horder (order.mpr (by simpa using hsent))
    exact Or.inr (Or.inr ⟨main', response.trans hsent⟩)
  | crash crashed _ => exact crashed.imp_right Or.inl

theorem Inv.reported {s : State} (hinv : Inv s) (h : Single s) : Reported s := by
  have hreports := hinv.reports
  have hmain := s.main.reports_le
  have herror := s.errorPath.reports_le
  -- only one of the two chains has sent a command
  have hidle : s.main.reports = 1 → s.errorPath.reports = 0 := by
    intro h1
    have hresp := h.released h1
    have : s.errorPath = .idle := by
      by_contra hne
      rw [hinv.response.mpr hne] at hresp
      simp at hresp
    rw [this]
    rfl
  -- at most once, and once when all callbacks have come
  refine ⟨by omega, ?_, ?_⟩
  · rw [hinv.continued]
    split <;> decide
  · rintro (hcrash | ⟨herr, hover⟩)
    · rw [h.alive] at hcrash
      simp at hcrash
    · have hdone : s.responseSent = true → s.errorPath.reports = 1 := by
        intro hresp
        rw [herr.resolve_left (hinv.response.mp hresp)]
        rfl
      rcases hover with hm | hm | hm | ⟨hm, hconn⟩
      -- `hm`: the main chain has failed, is done, or has left the connection to the error chain
      · have := hdone (hinv.failed hm)
        rw [hm] at hreports hmain
        simp only [Main.reports] at hreports
        omega
      · exact absurd hm h.caught
      · rw [hm] at hreports hidle
        have := hidle rfl
        simp only [Main.reports] at hreports
        omega
      · have hconnected : s.main.connected = true := by rcases hm with hm | hm <;> rw [hm] <;> rfl
        have hresp := hinv.connected hconnected h.alive
        have h1 := hdone (hresp.symm.trans hconn)
        have h0 := Main.reports_of_connected hconnected
        omega

theorem Inv.not_reported {s : State} (hinv : Inv s) (h : Misreported s) (hover : Over s) :
    Sender.reports s ≠ 1 := by
  rw [hinv.reports]
  by_cases hcrash : s.crashed = true
  · -- the timer has thrown before anything was sent
    have hidle : s.errorPath = .idle := by
      by_contra hne
      have := hinv.response.mpr hne
      rw [hinv.crashed hcrash] at this
      simp at this
    have hconnected : s.main.connected = true := by
      by_contra hc
      by_cases he : s.main.early = true
      · rw [(hinv.early he).2.2.1] at hcrash
        simp at hcrash
      · rw [(hinv.closed (by simpa using he) (by simpa using hc)).1] at hcrash
        simp at hcrash
    rw [Main.reports_of_connected hconnected, hidle]
    simp [ErrorPath.reports]
  · rcases h.resolve_left hcrash with hthrown | ⟨hmain, hresp⟩
    · -- so has the callback of the hook
      have hidle : s.errorPath = .idle := by
        by_contra hne
        have hresp := hinv.response.mpr hne
        rw [(hinv.thrown hthrown).1] at hresp
        exact Bool.false_ne_true hresp
      rw [hthrown, hidle]
      simp [Main.reports, ErrorPath.reports]
    · have herr := (hover.resolve_left hcrash).1.resolve_left (hinv.response.mp hresp)
      rw [hmain, herr]
      simp [ErrorPath.reports]

/-- A delivery is reported exactly once if the callbacks come in order, and in a run whose events
    are over only then. -/
theorem reported_iff (config : SenderConfig) (delivery : SenderDelivery) (es : List Event)
    (s : State) (hrun : ForStd.run (step config) (fetched delivery) es = some s) :
    (ForStd.Along (step config) InOrder (fetched delivery) es → Reported s) ∧
    (Over s → (Reported s ↔ ForStd.Along (step config) InOrder (fetched delivery) es)) := by
  have hinv : Inv s := ForStd.run_invariant (fun _ _ _ h hs => inv_step h hs)
    (inv_fetched delivery) hrun
  have hsound : ForStd.Along (step config) InOrder (fetched delivery) es → Reported s := by
    intro horder
    have hboth : Inv s ∧ Single s := ForStd.run_invariant_along (I := fun s => Inv s ∧ Single s)
      (fun _ _ _ h ho hs => ⟨inv_step h.1 hs, single_step h.1 h.2 ho hs⟩)
      ⟨inv_fetched delivery, single_fetched delivery⟩ horder hrun
    exact hboth.1.reported hboth.2
  refine ⟨hsound, fun hover => ⟨fun hrep => ?_, hsound⟩⟩
  by_contra horder
  -- the first callback out of order misreports, and that stays
  have hmis : Misreported s := ForStd.run_of_not_along (fun _ _ _ h hs => inv_step h hs)
    (fun _ _ _ h ho hs => misreported_of_not_inOrder h ho hs)
    (fun _ _ _ h hm hs => misreported_step h hm hs) (inv_fetched delivery) horder hrun
  exact hinv.not_reported hmis hover (hrep.reports_over hover)

/-! ## A connection error before the message is accepted -/

/-- No bounce rules and the default defer times. -/
def exampleConfig : SenderConfig := ⟨fun _ _ => ⟨"reject", "other"⟩, none⟩

/-- A first attempt. -/
def exampleDelivery : SenderDelivery := ⟨false, false, 0, [], false, "sender@example.com", true⟩

/-- The error of a connection that was reset. -/
def connectionReset : DeliveryError := ⟨"", none, "", false, "", 0, "", "read ECONNRESET"⟩

/-- The connection fails while the message is sent, and the message is accepted all the same. -/
def errorThenAccepted : List Event :=
  [.fetchHook false exampleDelivery, .speedometer, .getConnection false false,
    .headersHook false exampleDelivery, .connectionError,
    .responseErrorHook connectionReset exampleDelivery, .send false false]

/-- The delivery is deferred and released. -/
def deferredAndReleased : State :=
  { fetched exampleDelivery with
    responseSent := true
    connectionDone := true
    main := .release
    errorPath := .defer
    endListener := true
    commands := [.defer 300000 "network", .release (some true)] }

theorem reported_errorThenAccepted :
    ¬∀ (config : SenderConfig) (delivery : SenderDelivery) (es : List Event) (s : State),
      ForStd.run (step config) (fetched delivery) es = some s → Reported s := by
  intro h
  have hrun : ForStd.run (step exampleConfig) (fetched exampleDelivery) errorThenAccepted =
      some deferredAndReleased := by decide
  have := (h exampleConfig exampleDelivery errorThenAccepted deferredAndReleased hrun).reports_le
  exact absurd this (by decide)

/-- The message is accepted and nothing else happens. -/
def accepted : List Event :=
  [.fetchHook false exampleDelivery, .speedometer, .getConnection false false,
    .headersHook false exampleDelivery, .send false false, .release false, .deliveredHook]

/-- The delivery is released. -/
def released : State :=
  { fetched exampleDelivery with
    connectionDone := true
    main := .done
    errorListener := true
    endListener := true
    continuing := 1
    commands := [.release (some true)] }

theorem reported_iff_accepted :
    Reported released ↔
      ForStd.Along (step exampleConfig) InOrder (fetched exampleDelivery) accepted :=
  (reported_iff exampleConfig exampleDelivery accepted released (by decide)).2
    (Or.inr ⟨Or.inl rfl, Or.inr (Or.inr (Or.inl rfl))⟩)

end Sender

end ZoneMta
