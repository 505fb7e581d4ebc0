import ZoneMta.ForStd.Transition
import ZoneMta.Native.RspamdClient

/-!
# RspamdClient: correctness

The message is to pass through unchanged, and `_flush` is to call back when the message and the
response have both ended. `_flush` waits for an 'end' of the response, which is gone if the response
has ended already.

## Key results

- `Goes`, `step_goes`: all that one step can do
- `passed_run`: what was passed in is pushed
- `calls_back_iff`: in every run, `_flush` calls back exactly as long as the response does not end
  first, without an error of the request and without a message that is too large
-/

namespace ZoneMta

open ForStd (run Along Throughout)

namespace RspamdClient

namespace State

/-- The bytes of the message. -/
def Passed (s : State) : Prop := s.pushed.flatten = s.input.flatten

/-- The message passes through, and `_flush` calls back once, when the message and the response
have both ended. -/
structure Fine (s : State) : Prop where
  passed : s.Passed
  once : s.callbacks ≤ 1
  calledBack : s.flushed = true → s.responseEnded = true ∨ s.responseFailed = true →
    s.callbacks = 1

/-- Before `_flush`: an error has finished the request. -/
structure Before (s : State) : Prop where
  callbacks : s.callbacks = 0
  onEnd : s.onEnd = false
  onError : s.onError ≠ .flush
  removed : s.onError = .removed → s.finished = true
  failed : s.responseFailed = true → s.finished = true

/-- `_flush` waits for the response. -/
structure Waits (s : State) : Prop where
  callbacks : s.callbacks = 0
  finished : s.finished = false
  onEnd : s.onEnd = true
  onError : s.onError = .flush
  ended : s.responseEnded = false
  failed : s.responseFailed = false

/-- `_flush` has called back. -/
structure Done (s : State) : Prop where
  callbacks : s.callbacks = 1
  finished : s.finished = true

structure Inv (s : State) : Prop where
  passed : s.Passed
  before : s.flushed = false → s.Before
  behind : s.flushed = true → s.Waits ∨ s.Done

theorem Inv.fine {s : State} (h : s.Inv) : s.Fine := by
  cases hflushed : s.flushed with
  | false =>
    refine ⟨h.passed, ?_, fun hf => absurd hf (ne_true_of_eq_false hflushed)⟩
    rw [(h.before hflushed).callbacks]
    omega
  | true =>
    cases h.behind hflushed with
    | inl hwaits =>
      refine ⟨h.passed, ?_, fun _ hdone => ?_⟩
      · rw [hwaits.callbacks]
        omega
      · simp [hwaits.ended, hwaits.failed] at hdone
    | inr hdone =>
      exact ⟨h.passed, hdone.callbacks.le, fun _ _ => hdone.callbacks⟩

theorem Before.inv {s : State} (h : s.Before) (hflushed : s.flushed = false) (hpassed : s.Passed) :
    s.Inv :=
  ⟨hpassed, fun _ => h, fun hf => absurd hf (ne_true_of_eq_false hflushed)⟩

theorem Done.inv {s : State} (h : s.Done) (hflushed : s.flushed = true) (hpassed : s.Passed) :
    s.Inv :=
  ⟨hpassed, fun hf => absurd (hflushed.symm.trans hf) Bool.noConfusion, fun _ => .inr h⟩

/-- The response does not end before `_flush`, unless the request is finished by then. -/
def Sound (s : State) : Event → Prop
  | .flush => s.responseEnded = true → s.finished = true
  | .transform _ _ | .drain | .responseData _ | .responseEnd | .responseError => True

end State

open State

section Client

variable (maxSize : Option ℚ) (parse : List UInt8 → Bool)

/-! ## What the functions keep -/

/-- A chunk passes through, and nothing else changes but the request. -/
theorem transform_spec (s : State) (chunk : List UInt8) (full : Bool) :
    (s.Passed → (transform maxSize s chunk full).Passed) ∧
      (transform maxSize s chunk full).flushed = s.flushed ∧
      (transform maxSize s chunk full).callbacks = s.callbacks ∧
      (transform maxSize s chunk full).onEnd = s.onEnd ∧
      (transform maxSize s chunk full).onError = s.onError ∧
      (transform maxSize s chunk full).responseFailed = s.responseFailed ∧
      (s.finished = true → (transform maxSize s chunk full).finished = true) := by
  unfold transform
  simp only
  cases chunk with
  | nil => simp [Passed]
  | cons byte bytes =>
    simp only [List.isEmpty_cons, Bool.false_eq_true, if_false]
    split
    · simp_all [Passed]
    · split
      · simp_all [Passed]
      · simp_all [Passed]

theorem inv_transform {s : State} (h : s.Inv) (hflushed : s.flushed = false)
    (chunk : List UInt8) (full : Bool) : (transform maxSize s chunk full).Inv := by
  obtain ⟨hpassed, hsame, hcallbacks, hend, herror, hfailed, hfinished⟩ :=
    transform_spec maxSize s chunk full
  have hbefore := h.before hflushed
  refine ⟨hpassed h.passed, fun _ => ?_, fun hf => ?_⟩
  · exact {
      callbacks := hcallbacks.trans hbefore.callbacks
      onEnd := hend.trans hbefore.onEnd
      onError := herror ▸ hbefore.onError
      removed := fun hr => hfinished (hbefore.removed (herror ▸ hr))
      failed := fun hf => hfinished (hbefore.failed (hfailed ▸ hf)) }
  · rw [hsame, hflushed] at hf
    cases hf

/-- `_flush` waits for a response that has not ended, or calls back. -/
theorem inv_flush {s : State} (h : s.Inv) (hflushed : s.flushed = false)
    (hsound : Sound s .flush) : (flush s).Inv := by
  have hbefore := h.before hflushed
  unfold flush
  cases hfinished : s.finished with
  | true =>
    rw [if_pos rfl]
    refine ⟨h.passed, fun hf => Bool.noConfusion hf, fun _ => .inr ⟨?_, rfl⟩⟩
    show s.callbacks + 1 = 1
    rw [hbefore.callbacks]
  | false =>
    rw [if_neg Bool.false_ne_true]
    refine ⟨h.passed, fun hf => Bool.noConfusion hf, fun _ => .inl ?_⟩
    have hended : s.responseEnded = false := by
      cases hended : s.responseEnded with
      -- not finished: the response has neither ended nor failed
      | true => exact absurd (hsound hended) (ne_true_of_eq_false hfinished)
      | false => rfl
    have hfailed : s.responseFailed = false := by
      cases hfailed : s.responseFailed with
      | true => exact absurd (hbefore.failed hfailed) (ne_true_of_eq_false hfinished)
      | false => rfl
    exact ⟨hbefore.callbacks, rfl, rfl, rfl, hended, hfailed⟩

theorem inv_onEnd {s : State} (h : s.Inv) :
    (onEnd parse { s with responseEnded := true }).Inv := by
  unfold onEnd
  by_cases hflushed : s.flushed = true
  · cases h.behind hflushed with
    | inl hwaits =>
      simp only [hwaits.onEnd, hwaits.finished, Bool.not_true, Bool.or_self, Bool.false_eq_true,
        if_false]
      refine Done.inv ?_ hflushed h.passed
      refine ⟨?_, rfl⟩
      show s.callbacks + 1 = 1
      rw [hwaits.callbacks]
    | inr hdone =>
      simp only [hdone.finished, Bool.or_true, if_true]
      exact Done.inv ⟨hdone.callbacks, rfl⟩ hflushed h.passed
  · have hflushed : s.flushed = false := Bool.eq_false_iff.mpr hflushed
    have hbefore := h.before hflushed
    -- nobody listens to 'end' yet
    simp only [hbefore.onEnd, Bool.not_false, Bool.true_or, if_true]
    refine Before.inv ?_ hflushed h.passed
    exact ⟨hbefore.callbacks, rfl, hbefore.onError, hbefore.removed, hbefore.failed⟩

theorem inv_onError {s : State} (h : s.Inv) : (onError { s with responseFailed := true }).Inv := by
  by_cases hflushed : s.flushed = true
  · cases h.behind hflushed with
    | inl hwaits =>
      simp only [onError, hwaits.onError, hwaits.finished, Bool.false_eq_true, if_false]
      refine Done.inv ?_ hflushed h.passed
      refine ⟨?_, rfl⟩
      show s.callbacks + 1 = 1
      rw [hwaits.callbacks]
    | inr hdone =>
      -- `_flush` has called back, and the error is ignored
      unfold onError
      split
      · rw [if_pos hdone.finished]
        exact Done.inv ⟨hdone.callbacks, hdone.finished⟩ hflushed h.passed
      · rw [if_pos hdone.finished]
        exact Done.inv ⟨hdone.callbacks, hdone.finished⟩ hflushed h.passed
      · exact Done.inv ⟨hdone.callbacks, hdone.finished⟩ hflushed h.passed
  · have hflushed : s.flushed = false := Bool.eq_false_iff.mpr hflushed
    have hbefore := h.before hflushed
    unfold onError
    split
    · -- the first error finishes the request
      dsimp only
      split
      · next hfinished =>
        exact Before.inv ⟨hbefore.callbacks, hbefore.onEnd, nofun, fun _ => hfinished,
          fun _ => hfinished⟩ hflushed h.passed
      · exact Before.inv ⟨hbefore.callbacks, hbefore.onEnd, nofun, fun _ => rfl, fun _ => rfl⟩
          hflushed h.passed
    · next herror => exact absurd herror hbefore.onError
    · next herror =>
      have hfinished := hbefore.removed herror
      -- the handler was used up by an error before
      exact Before.inv ⟨hbefore.callbacks, hbefore.onEnd, hbefore.onError, fun _ => hfinished,
        fun _ => hfinished⟩ hflushed h.passed

/-- The data of the response, and whether a 'drain' is awaited, do not matter. -/
theorem inv_data {s : State} (h : s.Inv) (waiting : Bool) (chunks : List (List UInt8)) :
    ({ s with waiting, chunks } : State).Inv := by
  refine ⟨h.passed, fun hf => ?_, fun hf => ?_⟩
  · have hbefore := h.before hf
    exact ⟨hbefore.callbacks, hbefore.onEnd, hbefore.onError, hbefore.removed, hbefore.failed⟩
  · cases h.behind hf with
    | inl hwaits =>
      exact .inl ⟨hwaits.callbacks, hwaits.finished, hwaits.onEnd, hwaits.onError, hwaits.ended,
        hwaits.failed⟩
    | inr hdone => exact .inr ⟨hdone.callbacks, hdone.finished⟩

/-! ## Runs -/

/-- All that one step can do. -/
inductive Goes (s : State) : Event → State → Prop where
  | transform {chunk : List UInt8} {full : Bool} (hflushed : s.flushed = false) :
      Goes s (.transform chunk full) (transform maxSize s chunk full)
  | flush (hflushed : s.flushed = false) : Goes s .flush (flush s)
  | drain : Goes s .drain { s with waiting := false }
  | responseData {chunk : List UInt8} :
      Goes s (.responseData chunk) { s with chunks := s.chunks ++ [chunk] }
  | responseEnd : Goes s .responseEnd (onEnd parse { s with responseEnded := true })
  | responseError : Goes s .responseError (onError { s with responseFailed := true })

theorem step_goes {s s' : State} {e : Event} (hstep : step maxSize parse s e = some s') :
    Goes maxSize parse s e s' := by
  cases e with
  | transform chunk full =>
    simp only [step] at hstep
    split at hstep
    · cases hstep
    · next hguard =>
      obtain rfl := Option.some.inj hstep
      exact .transform (Bool.or_eq_false_iff.mp (Bool.eq_false_iff.mpr hguard)).2
  | flush =>
    simp only [step] at hstep
    split at hstep
    · cases hstep
    · next hguard =>
      obtain rfl := Option.some.inj hstep
      exact .flush (Bool.or_eq_false_iff.mp (Bool.eq_false_iff.mpr hguard)).2
  | drain =>
    obtain rfl := Option.some.inj hstep
    exact .drain
  | responseData chunk =>
    simp only [step] at hstep
    split at hstep
    · cases hstep
    · obtain rfl := Option.some.inj hstep
      exact .responseData
  | responseEnd =>
    simp only [step] at hstep
    split at hstep
    · cases hstep
    · obtain rfl := Option.some.inj hstep
      exact .responseEnd
  | responseError =>
    obtain rfl := Option.some.inj hstep
    exact .responseError

theorem inv_step {s s' : State} {e : Event} (h : s.Inv) (hsound : Sound s e)
    (hgoes : Goes maxSize parse s e s') : s'.Inv := by
  cases hgoes with
  | transform hflushed => exact inv_transform maxSize h hflushed _ _
  | flush hflushed => exact inv_flush h hflushed hsound
  | drain => exact inv_data h false s.chunks
  | responseData => exact inv_data h s.waiting _
  | responseEnd => exact inv_onEnd parse h
  | responseError => exact inv_onError h

/-- `_flush` waits for an 'end' that is gone. -/
theorem not_fine_step {s s' : State} {e : Event} (h : s.Inv) (hsound : ¬Sound s e)
    (hgoes : Goes maxSize parse s e s') : ¬s'.Fine := by
  cases hgoes with
  | flush hflushed =>
    simp only [Sound, Classical.not_imp] at hsound
    obtain ⟨hended, hfinished⟩ := hsound
    intro hfine
    -- the response has ended, so the callback is due at once
    have hended : (flush s).responseEnded = true := by simp [flush, hfinished, hended]
    have hcalled := hfine.calledBack (by simp [flush, hfinished]) (.inl hended)
    simp [flush, hfinished, (h.before hflushed).callbacks] at hcalled
  | _ => exact absurd trivial hsound

theorem inv_init : State.Inv {} where
  passed := rfl
  before _ := ⟨rfl, rfl, by decide, by decide, by decide⟩
  behind h := nomatch h

/-- `_flush` calls back once the message and the response have ended, exactly as long as the
response does not end before the message while the request is not finished. -/
theorem calls_back_iff {es : List Event} {s : State}
    (hrun : run (step maxSize parse) {} es = some s) :
    Throughout (step maxSize parse) State.Fine {} es ↔
      Along (step maxSize parse) Sound {} es :=
  ForStd.throughout_iff_along
    (fun _ _ _ h hsound hstep => inv_step maxSize parse h hsound (step_goes maxSize parse hstep))
    (fun _ _ _ h hsound hstep =>
      not_fine_step maxSize parse h hsound (step_goes maxSize parse hstep))
    (fun _ h => h.fine) inv_init hrun

/-- Only `_transform` passes bytes on. -/
theorem passed_step {s s' : State} {e : Event} (h : s.Passed)
    (hgoes : Goes maxSize parse s e s') : s'.Passed := by
  cases hgoes with
  | transform _ => exact (transform_spec maxSize s _ _).1 h
  | flush _ =>
    unfold flush
    dsimp only
    split <;> exact h
  | drain => exact h
  | responseData => exact h
  | responseEnd =>
    unfold onEnd
    split <;> exact h
  | responseError =>
    unfold onError
    split
    · dsimp only
      split <;> exact h
    · dsimp only
      split <;> exact h
    · exact h

/-- In every run the message passes through. -/
theorem passed_run {es : List Event} {s : State} (hrun : run (step maxSize parse) {} es = some s) :
    s.Passed :=
  ForStd.run_invariant
    (fun _ _ _ h hstep => passed_step maxSize parse h (step_goes maxSize parse hstep))
    inv_init.passed hrun

end Client

/-! ## A response that comes early -/

/-- The scanner answers once it has the whole message. -/
def lateResponse : List Event :=
  [.transform [72, 105] true, .drain, .flush, .responseData [123, 125], .responseEnd]

/-- The scanner answers in front of the last chunk. -/
def earlyResponse : List Event :=
  [.transform [72, 105] false, .responseData [123, 125], .responseEnd, .transform [13, 10] false,
    .flush]

theorem calls_back_lateResponse :
    ∃ s, run (step none fun _ => true) {} lateResponse = some s ∧
      (Throughout (step none fun _ => true) State.Fine {} lateResponse ↔
        Along (step none fun _ => true) Sound {} lateResponse) :=
  ⟨_, rfl, calls_back_iff none (fun _ => true) rfl⟩

/-- The 'end' of the response is gone when `_flush` waits for it. -/
theorem not_calls_back :
    ∃ s, run (step none fun _ => true) {} earlyResponse = some s ∧ s.flushed = true ∧
      s.responseEnded = true ∧ s.callbacks = 0 ∧ ¬s.Fine := by
  refine ⟨_, rfl, rfl, rfl, rfl, fun h => ?_⟩
  exact absurd (h.calledBack rfl (.inl rfl)) (by decide)

end RspamdClient

end ZoneMta
