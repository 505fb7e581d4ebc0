import Mathlib
import ZoneMta.ForStd.Transition
import ZoneMta.Native.GetConnection

/-!
# getConnection: correctness

A try without TLS is repeated with TLS only after a policy has switched TLS on again, and then only
for another host: the host that has timed out is not tried again. So the loop ends. At each time one
party is to act: `mxConnect`, the connection of the last attempt, or the hook; or `done` was called.
An attempt that throws, since the delivery has no zone address, leaves nobody who is to act.

## Key results

- `Goes`, `step_goes`: all that one step can do
- `tokens_step`, `tokens_step_zero`: who is to act
- `ends_iff`: the number of attempts, and the one call of `done`
- `ends_unaddressed`: a delivery that `done` is never called for
-/

namespace ZoneMta

open ForStd (run Along)
open ConnectionPool (connectionKey zoneAddress)

namespace GetConnection

/-! ## What one step does -/

/-- Nothing has changed that the loop depends on. -/
structure Connection.Same (c c' : Connection) : Prop where
  mx : c'.mx = c.mx
  enforceTLS : c'.enforceTLS = c.enforceTLS
  returned : c'.returned = c.returned

theorem Connection.Same.live {c c' : Connection} (h : c.Same c') (hlive : ¬c'.returned = true) :
    c.returned = false := by
  rw [← h.returned]
  simpa using hlive

/-- The handler of 'error' neither, unless the attempt is finished. -/
structure Connection.Kept (c c' : Connection) : Prop extends c.Same c' where
  listens : c.returned = false → c'.onError = c.onError

section Goes

variable (zone : ConnectionPool.Zone) (delivery : ConnectionPool.Delivery)
  (pool : Nat → String → Option Nat)

/-- All that one step can do. -/
inductive Goes (s : State) : Event → State → Prop where
  | same {e : Event} : Goes s e s
  /-- a handler that finds nothing to do -/
  | kept {e : Event} {i : Nat} {c c' : Connection} (hc : s.connections[i]? = some c)
      (hkept : c.Kept c') : Goes s e (s.set i c')
  /-- a handler finishes the attempt, and the loop -/
  | finished {e : Event} {i : Nat} {c c' : Connection} {result : Result}
      (hc : s.connections[i]? = some c) (hlive : c.returned = false)
      (hreturned : c'.returned = true) : Goes s e ((s.set i c').callback result)
  /-- the next attempt is made without TLS -/
  | plaintext {e : Event} {i : Nat} {c c' : Connection} (hc : s.connections[i]? = some c)
      (hlive : c.returned = false) (hreturned : c'.returned = true) (htls : s.ignoreTLS = false)
      (henforce : c.enforceTLS = false) :
      Goes s e (tryConnect zone delivery pool { s.set i c' with ignoreTLS := true })
  /-- the next attempt is made with another host -/
  | otherMX {e : Event} {i : Nat} {c c' : Connection} {err : ConnError}
      (hc : s.connections[i]? = some c) (hlive : c.returned = false)
      (hreturned : c'.returned = true) :
      Goes s e (tryConnect zone delivery pool { s.set i c' with
        ignoreMXHosts := s.ignoreMXHosts ++ [c.mx.host], mxLastError := some err })
  | unresolved {e : Event} {result : Result} (h : s.resolving ≠ 0) :
      Goes s e ({ s with resolving := s.resolving - 1 }.callback result)
  | resolved {mx : Mx} (h : s.resolving ≠ 0) :
      Goes s (.mxConnect (.ok mx)) (attempt { s with resolving := s.resolving - 1 } mx)
  | hookDone {e : Event} {result : Result} {hooks : List Result} (h : s.hooks = result :: hooks) :
      Goes s e { s with hooks, done := s.done ++ [result] }

variable (patterns : Patterns)

theorem onError_goes {s : State} {i : Nat} {c c' : Connection} (e : Event) (err : ConnError)
    (hc : s.connections[i]? = some c) (hkept : c.Same c') :
    Goes zone delivery pool s e (onError patterns zone delivery pool s i c' err) := by
  unfold onError
  dsimp only
  split
  · next hreturned =>
    -- the attempt is over; the connection is only marked as closed
    refine .kept hc ⟨⟨hkept.mx, hkept.enforceTLS, hkept.returned⟩, fun hlive => ?_⟩
    exact Bool.noConfusion (hlive.symm.trans (hkept.returned.symm.trans hreturned))
  · next hlive =>
    have hlive := hkept.live hlive
    split
    · next htls =>
      -- `ignoreTLS` is the variable of the loop, `enforceTLS` that of the attempt
      simp only [Bool.and_eq_true, Bool.not_eq_true'] at htls
      exact .plaintext hc hlive rfl htls.1.2 (hkept.enforceTLS ▸ htls.2)
    · split
      · rw [hkept.mx]
        exact .otherMX hc hlive rfl
      · exact .finished hc hlive rfl

theorem authenticated_goes {s : State} {i : Nat} {c c' : Connection} (e : Event)
    (err : Option ConnError) (hc : s.connections[i]? = some c) (hkept : c.Kept c') :
    Goes zone delivery pool s e (authenticated s i c' err) := by
  unfold authenticated
  split
  · exact .kept hc hkept
  · next hlive =>
    have hlive := hkept.live hlive
    cases err with
    | some err => exact .finished hc hlive rfl
    | none => exact .finished hc hlive rfl

theorem connected_goes {s : State} {i : Nat} {c c' : Connection} (e : Event) (secure : Bool)
    (hc : s.connections[i]? = some c) (hkept : c.Kept c') :
    Goes zone delivery pool s e (connected zone delivery s i c' secure) := by
  unfold connected
  split
  · exact .kept hc hkept
  · next hlive =>
    have hlive := hkept.live hlive
    split
    · exact .finished hc hlive rfl
    · split
      -- the login is another callback to wait for
      · exact .kept hc ⟨⟨hkept.mx, hkept.enforceTLS, hkept.returned⟩, hkept.listens⟩
      · exact authenticated_goes zone delivery pool e none hc hkept

theorem step_goes {s s' : State} {e : Event}
    (hstep : step patterns zone delivery pool s e = some s') : Goes zone delivery pool s e s' := by
  cases e with
  | mxConnect result =>
    simp only [step] at hstep
    split at hstep
    · cases hstep
    · next hresolving =>
      cases result with
      | error err =>
        obtain rfl := Option.some.inj hstep
        exact .unresolved hresolving
      | ok mx =>
        obtain rfl := Option.some.inj hstep
        exact .resolved hresolving
  | error i err =>
    obtain ⟨c, hc, hstep⟩ := Option.bind_eq_some_iff.mp hstep
    obtain rfl := Option.some.inj hstep
    split
    · exact onError_goes zone delivery pool patterns _ err hc ⟨rfl, rfl, rfl⟩
    · exact .same
  | ended i =>
    obtain ⟨c, hc, hstep⟩ := Option.bind_eq_some_iff.mp hstep
    obtain rfl := Option.some.inj hstep
    split
    · exact .kept hc ⟨⟨rfl, rfl, rfl⟩, fun _ => rfl⟩
    · exact .same
  | endTimer i tls =>
    obtain ⟨c, hc, hstep⟩ := Option.bind_eq_some_iff.mp hstep
    dsimp only at hstep
    split at hstep
    · split at hstep
      · obtain rfl := Option.some.inj hstep
        exact .kept hc ⟨⟨rfl, rfl, rfl⟩, fun _ => rfl⟩
      · obtain rfl := Option.some.inj hstep
        exact onError_goes zone delivery pool patterns _ _ hc ⟨rfl, rfl, rfl⟩
    · cases hstep
  | connected i secure =>
    obtain ⟨c, hc, hstep⟩ := Option.bind_eq_some_iff.mp hstep
    split at hstep
    · obtain rfl := Option.some.inj hstep
      exact connected_goes zone delivery pool _ secure hc ⟨⟨rfl, rfl, rfl⟩, fun _ => rfl⟩
    · cases hstep
  | loggedIn i err =>
    obtain ⟨c, hc, hstep⟩ := Option.bind_eq_some_iff.mp hstep
    split at hstep
    · obtain rfl := Option.some.inj hstep
      exact authenticated_goes zone delivery pool _ err hc ⟨⟨rfl, rfl, rfl⟩, fun _ => rfl⟩
    · cases hstep
  | hookDone =>
    simp only [step] at hstep
    split at hstep
    · cases hstep
    · next result hooks hhooks =>
      obtain rfl := Option.some.inj hstep
      exact .hookDone hhooks

end Goes

/-! ## One party is to act -/

namespace State

/-- The connections whose attempt has not been finished. -/
def live (s : State) : Nat := s.connections.countP (!·.returned)

/-- How many are to act: `mxConnect`, a connection, or a hook. -/
def pending (s : State) : Nat := s.resolving + s.live + s.hooks.length

/-- `n` are to act or have called `done`; and `callback` knows whether it was called. -/
structure Tokens (s : State) (n : Nat) : Prop where
  tokens : s.pending + s.done.length = n
  callback : s.callbackReturned = true ↔ 0 < s.hooks.length + s.done.length

theorem live_set {s : State} {i : Nat} {c : Connection} (hc : s.connections[i]? = some c)
    (c' : Connection) :
    (s.set i c').live + (if c.returned then 0 else 1) =
      s.live + (if c'.returned then 0 else 1) := by
  obtain ⟨hi, hget⟩ := List.getElem?_eq_some_iff.mp hc
  -- one connection is counted less, and one more
  have hcount := List.countP_set (p := fun c : Connection => !c.returned) (a := c') hi
  rw [hget] at hcount
  have hmem : c ∈ s.connections := hget ▸ List.getElem_mem hi
  have hpos : c.returned = false → 0 < s.connections.countP (!·.returned) := fun hlive =>
    List.countP_pos_iff.mpr ⟨c, hmem, by simp [hlive]⟩
  show (s.connections.set i c').countP (!·.returned) + _ = s.connections.countP (!·.returned) + _
  rw [hcount]
  cases hreturned : c.returned with
  | true => cases c'.returned <;> rfl
  | false =>
    have hpos := hpos hreturned
    cases c'.returned
    · simp only [Bool.not_false, if_true, Bool.false_eq_true, if_false]
      omega
    · simp only [Bool.not_false, Bool.not_true, if_true, Bool.false_eq_true, if_false]
      omega

theorem live_set_of_returned {s : State} {i : Nat} {c c' : Connection}
    (hc : s.connections[i]? = some c) (hlive : c.returned = false)
    (hreturned : c'.returned = true) :
    (s.set i c').live + 1 = s.live := by
  have hset := live_set hc c'
  rw [hlive, hreturned] at hset
  simpa using hset

theorem Tokens.set {s : State} {n i : Nat} {c c' : Connection} (h : s.Tokens n)
    (hc : s.connections[i]? = some c) (hkept : c.Same c') : (s.set i c').Tokens n := by
  have hset := live_set hc c'
  rw [hkept.returned] at hset
  refine ⟨?_, h.callback⟩
  have htokens := h.tokens
  simp only [pending] at htokens ⊢
  show s.resolving + (s.set i c').live + s.hooks.length + s.done.length = n
  omega

/-- The connection has given its answer, and nobody is to act for a moment. -/
theorem Tokens.set_returned {s : State} {n i : Nat} {c c' : Connection} (h : s.Tokens (n + 1))
    (hc : s.connections[i]? = some c) (hlive : c.returned = false)
    (hreturned : c'.returned = true) :
    (s.set i c').Tokens n := by
  have hset := live_set_of_returned hc hlive hreturned
  refine ⟨?_, h.callback⟩
  have htokens := h.tokens
  simp only [pending] at htokens ⊢
  show s.resolving + (s.set i c').live + s.hooks.length + s.done.length = n
  omega

theorem Tokens.resolved {s : State} {n : Nat} (h : s.Tokens (n + 1))
    (hresolving : s.resolving ≠ 0) :
    ({ s with resolving := s.resolving - 1 } : State).Tokens n := by
  refine ⟨?_, h.callback⟩
  have htokens := h.tokens
  simp only [pending] at htokens ⊢
  show s.resolving - 1 + s.live + s.hooks.length + s.done.length = n
  omega

/-- `callback` calls `done`, or the hook. -/
theorem Tokens.callback_call {s : State} (h : s.Tokens 0) (result : Result) :
    (s.callback result).Tokens 1 := by
  have htokens := h.tokens
  simp only [pending] at htokens
  have hfirst : s.callbackReturned = false := by
    cases hfirst : s.callbackReturned with
    | true =>
      -- `done` or the hook would have been counted
      have hpos := h.callback.mp hfirst
      omega
    | false => rfl
  have hlive : s.live = 0 := by omega
  unfold State.callback
  rw [if_neg (by simp [hfirst])]
  cases result with
  | failed err =>
    refine ⟨?_, iff_of_true rfl (by rw [List.length_append, List.length_singleton]; omega)⟩
    show s.resolving + s.live + s.hooks.length + (s.done ++ _).length = 1
    rw [List.length_append, List.length_singleton]
    omega
  | pooled id =>
    refine ⟨?_, iff_of_true rfl (by rw [List.length_append, List.length_singleton]; omega)⟩
    show s.resolving + s.live + (s.hooks ++ _).length + s.done.length = 1
    rw [List.length_append, List.length_singleton]
    omega
  | connected i =>
    refine ⟨?_, iff_of_true rfl (by rw [List.length_append, List.length_singleton]; omega)⟩
    show s.resolving + s.live + (s.hooks ++ _).length + s.done.length = 1
    rw [List.length_append, List.length_singleton]
    omega

/-- With no token left, all attempts are finished. -/
theorem Tokens.returned {s : State} (h : s.Tokens 0) : ∀ c ∈ s.connections, c.returned = true := by
  have htokens := h.tokens
  simp only [pending] at htokens
  have hlive : s.connections.countP (!·.returned) = 0 := by
    show s.live = 0
    omega
  intro c hc
  simpa using List.countP_eq_zero.mp hlive c hc

theorem callback_same (s : State) (result : Result) :
    (s.callback result).ignoreMXHosts = s.ignoreMXHosts ∧
      (s.callback result).attempts = s.attempts ∧ (s.callback result).resolving = s.resolving ∧
      (s.callback result).ignoreTLS = s.ignoreTLS ∧
      (s.callback result).connections = s.connections := by
  unfold State.callback
  split
  · exact ⟨rfl, rfl, rfl, rfl, rfl⟩
  · cases result <;> exact ⟨rfl, rfl, rfl, rfl, rfl⟩

end State

open State

/-- The attempt with the number `n` finds the address that it reads: the zone address is defined, or
a plugin has set the key and the pool has no connection under it. -/
def Addressed (zone : ConnectionPool.Zone) (delivery : ConnectionPool.Delivery)
    (pool : Nat → String → Option Nat) (n : Nat) : Prop :=
  (zoneAddress zone delivery).isSome = true ∨
    delivery.connectionKey ≠ "" ∧ pool n delivery.connectionKey = none

instance (zone : ConnectionPool.Zone) (delivery : ConnectionPool.Delivery)
    (pool : Nat → String → Option Nat) (n : Nat) : Decidable (Addressed zone delivery pool n) :=
  inferInstanceAs (Decidable (_ ∨ _))

section Run

variable (patterns : Patterns) (zone : ConnectionPool.Zone) (delivery : ConnectionPool.Delivery)
  (pool : Nat → String → Option Nat)

/-- `tryConnect` takes a connection of the pool or asks `mxConnect`, unless it throws. -/
theorem tryConnect_cases (s : State) :
    Addressed zone delivery pool (s.attempts + 1) ∧
      ((∃ id, tryConnect zone delivery pool s =
        ({ s with attempts := s.attempts + 1 } : State).callback (.pooled id)) ∨
      tryConnect zone delivery pool s =
        { s with attempts := s.attempts + 1, resolving := s.resolving + 1 }) ∨
    ¬Addressed zone delivery pool (s.attempts + 1) ∧
      tryConnect zone delivery pool s = { s with attempts := s.attempts + 1 } := by
  unfold tryConnect Addressed connectionKey
  by_cases haddress : (zoneAddress zone delivery).isSome = true
  · refine .inl ⟨.inl haddress, ?_⟩
    obtain ⟨address, hsome⟩ := Option.isSome_iff_exists.mp haddress
    rw [hsome, Option.map_some]
    -- a key is there, from a plugin or from the address
    generalize hkey : (if delivery.connectionKey ≠ "" then some delivery.connectionKey else
      some (address ++ ":" ++ ConnectionPool.keyHost zone delivery ++ ":" ++
        toString (ConnectionPool.mxPort zone delivery))) = key
    obtain ⟨key', rfl⟩ : ∃ key', key = some key' := by
      rw [← hkey, ← apply_ite some]
      exact ⟨_, rfl⟩
    dsimp only
    cases hpool : pool (s.attempts + 1) key' with
    | some id => exact .inl ⟨id, rfl⟩
    | none => exact .inr rfl
  · have hnone : zoneAddress zone delivery = none := by simpa using haddress
    rw [hnone, Option.map_none]
    by_cases hkey : delivery.connectionKey = ""
    · rw [if_neg (not_not.mpr hkey)]
      exact .inr ⟨by simp [hkey], rfl⟩
    · rw [if_pos hkey]
      dsimp only
      cases hpool : pool (s.attempts + 1) delivery.connectionKey with
      | some id => exact .inr ⟨by simp, rfl⟩
      | none => exact .inl ⟨.inr ⟨hkey, rfl⟩, .inr rfl⟩

theorem attempts_tryConnect (s : State) :
    (tryConnect zone delivery pool s).attempts = s.attempts + 1 := by
  rcases tryConnect_cases zone delivery pool s with ⟨-, ⟨id, hpool⟩ | hresolve⟩ | ⟨-, hthrown⟩
  · rw [hpool]
    exact (callback_same _ _).2.1
  · rw [hresolve]
  · rw [hthrown]

theorem tokens_tryConnect {s : State} (h : s.Tokens 0)
    (haddressed : Addressed zone delivery pool (s.attempts + 1)) :
    (tryConnect zone delivery pool s).Tokens 1 := by
  have hnext : ({ s with attempts := s.attempts + 1 } : State).Tokens 0 := ⟨h.tokens, h.callback⟩
  rcases tryConnect_cases zone delivery pool s with ⟨-, ⟨id, hpool⟩ | hresolve⟩ | ⟨hmissing, -⟩
  · rw [hpool]
    exact hnext.callback_call _
  · rw [hresolve]
    refine ⟨?_, h.callback⟩
    have htokens := h.tokens
    simp only [pending] at htokens ⊢
    show s.resolving + 1 + s.live + s.hooks.length + s.done.length = 1
    omega
  · exact absurd haddressed hmissing

/-- Nobody is to act after an attempt that throws. -/
theorem tokens_tryConnect_zero {s : State} (h : s.Tokens 0)
    (hmissing : ¬Addressed zone delivery pool (s.attempts + 1)) :
    (tryConnect zone delivery pool s).Tokens 0 := by
  rcases tryConnect_cases zone delivery pool s with ⟨haddressed, -⟩ | ⟨-, hthrown⟩
  · exact absurd haddressed hmissing
  · rw [hthrown]
    exact ⟨h.tokens, h.callback⟩

/-- The step makes no attempt without the address that it reads. -/
def AttemptsAddressed (s : State) (e : Event) : Prop :=
  ∀ s', step patterns zone delivery pool s e = some s' → s'.attempts ≠ s.attempts →
    Addressed zone delivery pool s'.attempts

/-- One party is to act, or `done` was called. -/
theorem tokens_step {s s' : State} {e : Event} (h : s.Tokens 1)
    (hgoes : Goes zone delivery pool s e s')
    (haddressed : s'.attempts ≠ s.attempts → Addressed zone delivery pool s'.attempts) :
    s'.Tokens 1 := by
  cases hgoes with
  | same => exact h
  | kept hc hkept => exact h.set hc hkept.toSame
  | finished hc hlive hreturned => exact (h.set_returned hc hlive hreturned).callback_call _
  | plaintext hc hlive hreturned _ _ =>
    have hreleased := h.set_returned hc hlive hreturned
    rw [attempts_tryConnect] at haddressed
    exact tokens_tryConnect zone delivery pool ⟨hreleased.tokens, hreleased.callback⟩
      (haddressed (Nat.succ_ne_self _))
  | otherMX hc hlive hreturned =>
    have hreleased := h.set_returned hc hlive hreturned
    rw [attempts_tryConnect] at haddressed
    exact tokens_tryConnect zone delivery pool ⟨hreleased.tokens, hreleased.callback⟩
      (haddressed (Nat.succ_ne_self _))
  | unresolved hresolving => exact (h.resolved hresolving).callback_call _
  | resolved hresolving =>
    have hreleased := h.resolved hresolving
    refine ⟨?_, hreleased.callback⟩
    have htokens := hreleased.tokens
    simp only [pending, live] at htokens ⊢
    -- the call of `mxConnect` is replaced by a connection
    simp only [attempt, List.countP_append, List.countP_singleton, Bool.not_false, if_true]
    omega
  | @hookDone _ result hooks hhooks =>
    have htokens := h.tokens
    have hcallback := h.callback
    -- the hook is replaced by the call of `done`
    simp only [pending, hhooks, List.length_cons] at htokens hcallback
    have hdone : (s.done ++ [result]).length = s.done.length + 1 := List.length_append
    refine ⟨?_, hcallback.trans (iff_of_true (by omega) (by rw [hdone]; omega))⟩
    show s.resolving + s.live + hooks.length + (s.done ++ [result]).length = 1
    omega

/-- A step with an attempt that throws leaves nobody who is to act. -/
theorem tokens_step_thrown {s s' : State} {e : Event} (h : s.Tokens 1)
    (hgoes : Goes zone delivery pool s e s') (hattempts : s'.attempts ≠ s.attempts)
    (hmissing : ¬Addressed zone delivery pool s'.attempts) : s'.Tokens 0 := by
  cases hgoes with
  | same | kept | resolved | hookDone => exact absurd rfl hattempts
  | finished => exact absurd (callback_same _ _).2.1 hattempts
  | unresolved => exact absurd (callback_same _ _).2.1 hattempts
  | plaintext hc hlive hreturned _ _ =>
    have hreleased := h.set_returned hc hlive hreturned
    rw [attempts_tryConnect] at hmissing
    exact tokens_tryConnect_zero zone delivery pool ⟨hreleased.tokens, hreleased.callback⟩ hmissing
  | otherMX hc hlive hreturned =>
    have hreleased := h.set_returned hc hlive hreturned
    rw [attempts_tryConnect] at hmissing
    exact tokens_tryConnect_zero zone delivery pool ⟨hreleased.tokens, hreleased.callback⟩ hmissing

/-- Where nobody is to act, that stays so. -/
theorem tokens_step_zero {s s' : State} {e : Event} (h : s.Tokens 0)
    (hgoes : Goes zone delivery pool s e s') : s'.Tokens 0 := by
  have htokens := h.tokens
  simp only [pending] at htokens
  have hover {i : Nat} {c : Connection} (hc : s.connections[i]? = some c)
      (hlive : c.returned = false) : False := by
    have hreturned := h.returned c (List.mem_of_getElem? hc)
    exact Bool.noConfusion (hlive.symm.trans hreturned)
  cases hgoes with
  | same => exact h
  | kept hc hkept => exact h.set hc hkept.toSame
  | finished hc hlive _ => exact (hover hc hlive).elim
  | plaintext hc hlive _ _ _ => exact (hover hc hlive).elim
  | otherMX hc hlive _ => exact (hover hc hlive).elim
  | unresolved hresolving => exact absurd (by omega) hresolving
  | resolved hresolving => exact absurd (by omega) hresolving
  | hookDone hhooks =>
    rw [hhooks, List.length_cons] at htokens
    omega

theorem tokens_getConnection (h : Addressed zone delivery pool 1) :
    (getConnection zone delivery pool).Tokens 1 :=
  tokens_tryConnect zone delivery pool ⟨rfl, by simp⟩ h

/-- `done` is not called in a run with an attempt that throws. -/
theorem tokens_run_thrown {es : List Event} {s : State}
    (hmissing : ¬(Addressed zone delivery pool 1 ∧
      Along (step patterns zone delivery pool) (AttemptsAddressed patterns zone delivery pool)
        (getConnection zone delivery pool) es))
    (hrun : run (step patterns zone delivery pool) (getConnection zone delivery pool) es = some s) :
    s.Tokens 0 := by
  have hzero (s : State) (e : Event) (s' : State) (h : s.Tokens 0)
      (hstep : step patterns zone delivery pool s e = some s') : s'.Tokens 0 :=
    tokens_step_zero zone delivery pool h (step_goes zone delivery pool patterns hstep)
  by_cases hfirst : Addressed zone delivery pool 1
  · have halong := not_and.mp hmissing hfirst
    have hthrown := ForStd.run_of_not_along (I := fun s => s.Tokens 1 ∨ s.Tokens 0)
      (B := fun s => s.Tokens 0) ?_ ?_ (fun s e s' _ => hzero s e s')
      (Or.inl (tokens_getConnection zone delivery pool hfirst)) halong hrun
    · exact hthrown
    · intro s e s' h hstep
      have hgoes := step_goes zone delivery pool patterns hstep
      rcases h with h | h
      · by_cases haddressed : s'.attempts ≠ s.attempts → Addressed zone delivery pool s'.attempts
        · exact .inl (tokens_step zone delivery pool h hgoes haddressed)
        · obtain ⟨hattempts, hmissing⟩ := Classical.not_imp.mp haddressed
          exact .inr (tokens_step_thrown zone delivery pool h hgoes hattempts hmissing)
      · exact .inr (hzero s e s' h hstep)
    · intro s e s' h hthrows hstep
      have hgoes := step_goes zone delivery pool patterns hstep
      rcases h with h | h
      · simp only [AttemptsAddressed, not_forall] at hthrows
        obtain ⟨t, ht, hattempts, hmissing⟩ := hthrows
        obtain rfl := Option.some.inj (hstep.symm.trans ht)
        exact tokens_step_thrown zone delivery pool h hgoes hattempts hmissing
      · exact hzero s e s' h hstep
  · refine ForStd.run_invariant hzero ?_ hrun
    exact tokens_tryConnect_zero zone delivery pool ⟨rfl, by simp⟩ hfirst

end Run

/-! ## How many attempts -/

section Budget

variable (hosts : Finset String)

/-- `mxConnect` gives one of the hosts, and none that is to be ignored. -/
def MxFrom (s : State) : Event → Prop
  | .mxConnect (.ok mx) => mx.host ∈ hosts ∧ mx.host ∉ s.ignoreMXHosts
  | .mxConnect (.error _) | .error _ _ | .ended _ | .endTimer _ _ | .connected _ _ | .loggedIn _ _
  | .hookDone => True

instance (s : State) (e : Event) : Decidable (MxFrom hosts s e) := by
  unfold MxFrom
  split <;> infer_instance

namespace State

/-- Each host that is ignored has cost two attempts at most, and there is one more while a try
without TLS can follow. -/
structure Budget (s : State) : Prop where
  nodup : s.ignoreMXHosts.Nodup
  ignored : ∀ host ∈ s.ignoreMXHosts, host ∈ hosts
  hosts : ∀ c ∈ s.connections, c.returned = false →
    c.mx.host ∈ hosts ∧ c.mx.host ∉ s.ignoreMXHosts
  attempts : s.attempts ≤ 2 * (s.ignoreMXHosts.length + 1)
  resolving : s.resolving ≠ 0 → s.ignoreTLS = false →
    s.attempts ≤ 2 * s.ignoreMXHosts.length + 1
  plaintext : ∀ c ∈ s.connections, c.returned = false → c.enforceTLS = false →
    s.ignoreTLS = false → s.attempts ≤ 2 * s.ignoreMXHosts.length + 1

variable {hosts}

/-- What is not about the loop does not matter. -/
theorem Budget.same {s s' : State} (h : s.Budget hosts)
    (hignored : s'.ignoreMXHosts = s.ignoreMXHosts) (hattempts : s'.attempts = s.attempts)
    (hresolving : s'.resolving = s.resolving)
    (htls : s'.ignoreTLS = s.ignoreTLS)
    (hconnections : ∀ c' ∈ s'.connections, c'.returned = false →
      ∃ c ∈ s.connections, c.Same c') : s'.Budget hosts where
  nodup := hignored ▸ h.nodup
  ignored := hignored ▸ h.ignored
  hosts c' hc' hlive := by
    obtain ⟨c, hc, hkept⟩ := hconnections c' hc' hlive
    rw [hkept.mx, hignored]
    exact h.hosts c hc (hkept.returned ▸ hlive)
  attempts := by
    rw [hattempts, hignored]
    exact h.attempts
  resolving := by
    rw [hattempts, hignored, hresolving, htls]
    exact h.resolving
  plaintext c' hc' hlive henforce := by
    obtain ⟨c, hc, hkept⟩ := hconnections c' hc' hlive
    rw [hattempts, hignored, htls]
    exact h.plaintext c hc (hkept.returned ▸ hlive) (hkept.enforceTLS ▸ henforce)

theorem Budget.callback {s : State} (h : s.Budget hosts) (result : Result) :
    (s.callback result).Budget hosts := by
  obtain ⟨hignored, hattempts, hresolving, htls, hconnections⟩ := callback_same s result
  apply h.same hignored hattempts hresolving htls
  rw [hconnections]
  exact fun c hc _ => ⟨c, hc, rfl, rfl, rfl⟩

theorem Budget.set {s : State} {i : Nat} {c c' : Connection} (h : s.Budget hosts)
    (hc : s.connections[i]? = some c) (hkept : c'.returned = false → c.Same c') :
    (s.set i c').Budget hosts := by
  refine h.same rfl rfl rfl rfl fun d hd hlive => ?_
  cases List.mem_or_eq_of_mem_set hd with
  | inl hd => exact ⟨d, hd, rfl, rfl, rfl⟩
  | inr hd =>
    subst hd
    exact ⟨c, List.mem_of_getElem? hc, hkept hlive⟩

/-- A new attempt fits into the budget. -/
theorem budget_tryConnect {s : State} {zone : ConnectionPool.Zone}
    {delivery : ConnectionPool.Delivery} {pool : Nat → String → Option Nat}
    (hnodup : s.ignoreMXHosts.Nodup) (hignored : ∀ host ∈ s.ignoreMXHosts, host ∈ hosts)
    (hreturned : ∀ c ∈ s.connections, c.returned = true)
    (hattempts : s.attempts + 1 ≤ 2 * (s.ignoreMXHosts.length + 1))
    (htls : s.ignoreTLS = false → s.attempts + 1 ≤ 2 * s.ignoreMXHosts.length + 1) :
    (tryConnect zone delivery pool s).Budget hosts := by
  have hnext (resolving : Nat) :
      ({ s with attempts := s.attempts + 1, resolving } : State).Budget hosts := by
    have hnone {c : Connection} (hc : c ∈ s.connections) (hlive : c.returned = false) : False :=
      Bool.noConfusion (hlive.symm.trans (hreturned c hc))
    exact {
      nodup := hnodup
      ignored := hignored
      hosts := fun c hc hlive => (hnone hc hlive).elim
      attempts := hattempts
      resolving := fun _ => htls
      plaintext := fun c hc hlive => (hnone hc hlive).elim }
  rcases tryConnect_cases zone delivery pool s with ⟨-, ⟨id, hpool⟩ | hresolve⟩ | ⟨-, hthrown⟩
  · rw [hpool]
    exact (hnext s.resolving).callback _
  · rw [hresolve]
    exact hnext (s.resolving + 1)
  · rw [hthrown]
    exact hnext s.resolving

/-- A policy switches TLS on again, but then no try without TLS follows. -/
theorem budget_attempt {s : State} {mx : Mx} (h : s.Budget hosts) (htokens : s.Tokens 1)
    (hresolving : s.resolving ≠ 0) (hhost : mx.host ∈ hosts ∧ mx.host ∉ s.ignoreMXHosts) :
    (attempt { s with resolving := s.resolving - 1 } mx).Budget hosts := by
  have hreturned := (htokens.resolved hresolving).returned
  have hlast {c : Connection}
      (hc : c ∈ (attempt { s with resolving := s.resolving - 1 } mx).connections)
      (hlive : c.returned = false) : c.mx = mx ∧ c.enforceTLS = mx.enforce := by
    cases List.mem_append.mp hc with
    | inl hc => exact Bool.noConfusion (hlive.symm.trans (hreturned c hc))
    | inr hc =>
      obtain rfl := List.mem_singleton.mp hc
      exact ⟨rfl, rfl⟩
  refine ⟨h.nodup, h.ignored, ?_, h.attempts, ?_, ?_⟩
  · intro c hc hlive
    rw [(hlast hc hlive).1]
    exact hhost
  · intro hpos
    have hone := htokens.tokens
    simp only [pending] at hone
    -- it was the only call of `mxConnect`
    have hzero : s.resolving - 1 = 0 := by omega
    exact absurd hzero hpos
  · intro c hc hlive henforce htls
    -- without a policy `ignoreTLS` is what it was when `mxConnect` was called
    rw [(hlast hc hlive).2] at henforce
    apply h.resolving hresolving
    have htls : (if mx.enforce && s.ignoreTLS then false else s.ignoreTLS) = false := htls
    simpa [henforce] using htls

end State

open State

variable {patterns : Patterns} {zone : ConnectionPool.Zone} {delivery : ConnectionPool.Delivery}
  {pool : Nat → String → Option Nat}

theorem budget_step {s s' : State} {e : Event} (htokens : s.Tokens 1) (h : s.Budget hosts)
    (hfrom : MxFrom hosts s e) (hgoes : Goes zone delivery pool s e s') : s'.Budget hosts := by
  cases hgoes with
  | same => exact h
  | kept hc hkept => exact h.set hc fun _ => hkept.toSame
  | finished hc hlive hreturned =>
    apply State.Budget.callback
    exact h.set hc fun hlive => Bool.noConfusion (hlive.symm.trans hreturned)
  | plaintext hc hlive hreturned htls henforce =>
    have hnone := (htokens.set_returned hc hlive hreturned).returned
    have hmem := List.mem_of_getElem? hc
    -- `ignoreTLS` was not set, so there is one attempt left for the hosts so far
    have hattempts := h.plaintext _ hmem hlive henforce htls
    refine budget_tryConnect h.nodup h.ignored hnone ?_ fun htls => nomatch htls
    show s.attempts + 1 ≤ 2 * (s.ignoreMXHosts.length + 1)
    omega
  | @otherMX _ i c c' err hc hlive hreturned =>
    have hnone := (htokens.set_returned hc hlive hreturned).returned
    have hhost := h.hosts c (List.mem_of_getElem? hc) hlive
    -- the host was not ignored yet, and brings two more attempts
    have hattempts := h.attempts
    have hlength : (s.ignoreMXHosts ++ [c.mx.host]).length = s.ignoreMXHosts.length + 1 :=
      List.length_append
    apply budget_tryConnect
    · exact List.nodup_append.mpr ⟨h.nodup, List.nodup_singleton _, by
        intro a ha b hb hab
        rw [hab, List.mem_singleton.mp hb] at ha
        exact hhost.2 ha⟩
    · intro host hmem
      cases List.mem_append.mp hmem with
      | inl hmem => exact h.ignored host hmem
      | inr hmem => exact List.mem_singleton.mp hmem ▸ hhost.1
    · exact hnone
    · show s.attempts + 1 ≤ 2 * ((s.ignoreMXHosts ++ [c.mx.host]).length + 1)
      omega
    · intro _
      show s.attempts + 1 ≤ 2 * (s.ignoreMXHosts ++ [c.mx.host]).length + 1
      omega
  | unresolved hresolving =>
    have hreleased : ({ s with resolving := s.resolving - 1 } : State).Budget hosts :=
      ⟨h.nodup, h.ignored, h.hosts, h.attempts, fun _ => h.resolving hresolving, h.plaintext⟩
    exact hreleased.callback _
  | resolved hresolving => exact budget_attempt h htokens hresolving hfrom
  | hookDone _ => exact h.same rfl rfl rfl rfl fun c hc _ => ⟨c, hc, rfl, rfl, rfl⟩

theorem budget_getConnection : (getConnection zone delivery pool).Budget hosts := by
  apply budget_tryConnect
  · exact List.nodup_nil
  · exact fun _ hmem => absurd hmem List.not_mem_nil
  · exact fun _ hc => absurd hc List.not_mem_nil
  · show 0 + 1 ≤ 2 * (0 + 1)
    omega
  · intro _
    show 0 + 1 ≤ 2 * 0 + 1
    omega

theorem State.Budget.le {s : State} (h : s.Budget hosts) : s.attempts ≤ 2 * (hosts.card + 1) := by
  -- a host is ignored once at most
  have hsub : s.ignoreMXHosts.toFinset ⊆ hosts := fun host hmem =>
    h.ignored host (List.mem_toFinset.mp hmem)
  have hcard := Finset.card_le_card hsub
  rw [List.toFinset_card_of_nodup h.nodup] at hcard
  have hattempts := h.attempts
  omega

/-- Whatever the connections do: there are at most `2 * (n + 1)` attempts for `n` hosts, and `done`
is called once, as soon as nobody is to act any more, if and only if no attempt lacks the address
that it reads. -/
theorem ends_iff {es : List Event} {s : State}
    (hrun : run (step patterns zone delivery pool) (getConnection zone delivery pool) es = some s)
    (hfrom : Along (step patterns zone delivery pool) (MxFrom hosts)
      (getConnection zone delivery pool) es) :
    (s.attempts ≤ 2 * (hosts.card + 1) ∧ s.done.length = if s.pending = 0 then 1 else 0) ↔
      Addressed zone delivery pool 1 ∧
        Along (step patterns zone delivery pool) (AttemptsAddressed patterns zone delivery pool)
          (getConnection zone delivery pool) es := by
  constructor
  · rintro ⟨-, hdone⟩
    by_contra hmissing
    have htokens := (tokens_run_thrown patterns zone delivery pool hmissing hrun).tokens
    rw [if_pos (by omega)] at hdone
    omega
  · rintro ⟨hfirst, haddressed⟩
    have hkeep (s : State) (e : Event) (s' : State) (h : s.Tokens 1 ∧ s.Budget hosts)
        (he : MxFrom hosts s e ∧ AttemptsAddressed patterns zone delivery pool s e)
        (hstep : step patterns zone delivery pool s e = some s') :
        s'.Tokens 1 ∧ s'.Budget hosts := by
      have hgoes := step_goes zone delivery pool patterns hstep
      exact ⟨tokens_step zone delivery pool h.1 hgoes (he.2 s' hstep),
        budget_step hosts h.1 h.2 he.1 hgoes⟩
    have hinv := ForStd.run_invariant_along hkeep
      ⟨tokens_getConnection zone delivery pool hfirst, budget_getConnection hosts⟩
      (hfrom.and haddressed) hrun
    refine ⟨hinv.2.le, ?_⟩
    have htokens := hinv.1.tokens
    split <;> omega

end Budget

/-! ## Nobody is forgotten -/

/-- A connection whose attempt is not finished is listened to. -/
def State.Listening (s : State) : Prop :=
  ∀ c ∈ s.connections, c.returned = false → c.onError = true

section Listening

variable (patterns : Patterns) (zone : ConnectionPool.Zone) (delivery : ConnectionPool.Delivery)
  (pool : Nat → String → Option Nat)

theorem connections_callback (s : State) (result : Result) :
    (s.callback result).connections = s.connections := (callback_same s result).2.2.2.2

theorem connections_tryConnect (s : State) :
    (tryConnect zone delivery pool s).connections = s.connections := by
  rcases tryConnect_cases zone delivery pool s with ⟨-, ⟨id, hpool⟩ | hresolve⟩ | ⟨-, hthrown⟩
  · rw [hpool]
    exact connections_callback _ _
  · rw [hresolve]
  · rw [hthrown]

theorem State.Listening.set {s : State} {i : Nat} {c' : Connection} (h : s.Listening)
    (hc' : c'.returned = false → c'.onError = true) : (s.set i c').Listening := by
  intro d hd hlive
  cases List.mem_or_eq_of_mem_set hd with
  | inl hd => exact h d hd hlive
  | inr hd => exact hd ▸ hc' (hd ▸ hlive)

theorem listening_step {s s' : State} {e : Event} (h : s.Listening)
    (hgoes : Goes zone delivery pool s e s') : s'.Listening := by
  have hreturned {i : Nat} {c' : Connection} (hreturned : c'.returned = true) :
      (s.set i c').Listening :=
    h.set fun hlive => Bool.noConfusion (hlive.symm.trans hreturned)
  unfold Listening at *
  cases hgoes with
  | same => exact h
  | kept hc hkept =>
    apply State.Listening.set h
    intro hlive
    rw [hkept.returned] at hlive
    rw [hkept.listens hlive]
    exact h _ (List.mem_of_getElem? hc) hlive
  | finished _ _ hret =>
    rw [connections_callback]
    exact hreturned hret
  | plaintext _ _ hret _ _ =>
    rw [connections_tryConnect]
    exact hreturned hret
  | otherMX _ _ hret =>
    rw [connections_tryConnect]
    exact hreturned hret
  | unresolved _ =>
    rw [connections_callback]
    exact h
  | resolved _ =>
    intro c hc hlive
    cases List.mem_append.mp hc with
    | inl hc => exact h c hc hlive
    | inr hc => rw [List.mem_singleton.mp hc]
  | hookDone _ => exact h

theorem listening_run {es : List Event} {s : State}
    (hrun : run (step patterns zone delivery pool) (getConnection zone delivery pool) es = some s) :
    s.Listening := by
  apply ForStd.run_invariant _ _ hrun
  · intro _ _ _ h hstep
    exact listening_step zone delivery pool h (step_goes zone delivery pool patterns hstep)
  · intro c hc
    rw [getConnection, connections_tryConnect] at hc
    cases hc

/-- An 'error' of the connection that is to act always finishes its attempt. -/
theorem returned_of_error {s s' : State} {i : Nat} {c : Connection} {err : ConnError}
    (h : s.Listening) (hc : s.connections[i]? = some c) (hlive : c.returned = false)
    (hstep : step patterns zone delivery pool s (.error i err) = some s') :
    ∃ c', s'.connections[i]? = some c' ∧ c'.returned = true := by
  have hlistens := h c (List.mem_of_getElem? hc) hlive
  obtain ⟨hi, -⟩ := List.getElem?_eq_some_iff.mp hc
  have hset (c' : Connection) (hreturned : c'.returned = true) :
      ∃ d, (s.set i c').connections[i]? = some d ∧ d.returned = true :=
    ⟨c', List.getElem?_set_self hi, hreturned⟩
  -- all three ways on leave the connection as it was set
  simp only [step, hc, Option.bind_some, hlistens, if_true, Option.some.injEq] at hstep
  subst hstep
  unfold onError
  simp only [hlive, Bool.false_eq_true, if_false]
  split
  · rw [connections_tryConnect]
    exact hset _ rfl
  · split
    · rw [connections_tryConnect]
      exact hset _ rfl
    · rw [connections_callback]
      exact hset _ rfl

end Listening

/-! ## Two hosts -/

/-- A delivery for a domain with two hosts. -/
def twoHosts : ConnectionPool.Delivery where
  domain := "example.com"
  zoneAddressIPv4 := some "0.0.0.0"

def plainZone : ConnectionPool.Zone where
  host := ""
  port := 0
  preferIPv6 := false
  ignoreTLS := false
  secure := false
  auth := none
  reuseCount := 0
  mtaSts := true

/-- The tests on the messages that occur here. -/
def noMatch : Patterns where
  disconnected _ := false
  openssl _ := false

/-- The first host fails without TLS as well, the second is used against a policy first. -/
def retried : List Event :=
  [.mxConnect (.ok ⟨"mx1.example.com", "192.0.2.1", false⟩),
    .error 0 { message := "read ECONNRESET", code := "ECONNRESET" },
    .mxConnect (.ok ⟨"mx1.example.com", "192.0.2.1", true⟩),
    .ended 1, .error 1 { message := "Connection timeout", code := "ETIMEDOUT" }, .endTimer 1 true,
    .mxConnect (.ok ⟨"mx2.example.com", "192.0.2.2", false⟩), .ended 2, .endTimer 2 true,
    .mxConnect (.ok ⟨"mx2.example.com", "192.0.2.2", false⟩), .connected 3 false, .hookDone]

def retriedHosts : Finset String := {"192.0.2.1", "192.0.2.2"}

theorem ends_iff_retried :
    ∃ s, run (step noMatch plainZone twoHosts fun _ _ => none)
        (getConnection plainZone twoHosts fun _ _ => none) retried = some s ∧
      s.attempts = 4 ∧ s.done = [.connected 3] ∧
      (s.attempts ≤ 2 * (retriedHosts.card + 1) ∧ s.done.length = (if s.pending = 0 then 1 else 0) ↔
        Addressed plainZone twoHosts (fun _ _ => none) 1 ∧
          Along (step noMatch plainZone twoHosts fun _ _ => none)
            (AttemptsAddressed noMatch plainZone twoHosts fun _ _ => none)
            (getConnection plainZone twoHosts fun _ _ => none) retried) := by
  have hend : (run (step noMatch plainZone twoHosts fun _ _ => none)
      (getConnection plainZone twoHosts fun _ _ => none) retried).map
        (fun s => (s.attempts, s.done)) = some (4, [.connected 3]) := by decide +kernel
  obtain ⟨s, hrun, hs⟩ := Option.map_eq_some_iff.mp hend
  obtain ⟨hattempts, hdone⟩ := Prod.mk.inj hs
  exact ⟨s, hrun, hattempts, hdone, ends_iff retriedHosts hrun (by decide +kernel)⟩

/-- `getAddress` has found no address in the pool of the zone. -/
theorem ends_unaddressed :
    ¬∀ (patterns : Patterns) (zone : ConnectionPool.Zone) (delivery : ConnectionPool.Delivery)
      (pool : Nat → String → Option Nat) (hosts : Finset String) (es : List Event) (s : State),
      run (step patterns zone delivery pool) (getConnection zone delivery pool) es = some s →
      Along (step patterns zone delivery pool) (MxFrom hosts)
          (getConnection zone delivery pool) es →
        s.attempts ≤ 2 * (hosts.card + 1) ∧ s.done.length = if s.pending = 0 then 1 else 0 := by
  intro h
  have hends := h noMatch plainZone { twoHosts with zoneAddressIPv4 := none } (fun _ _ => none)
    retriedHosts [] _ rfl trivial
  revert hends
  decide

end GetConnection

end ZoneMta
