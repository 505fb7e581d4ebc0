import Mathlib
import ZoneMta.ForStd.Transition
import ZoneMta.Native.Speedometer

/-!
# The rate of a connection

A callback that is held back comes `minTime` after the last call, not after the last callback. So
a call that follows soon on a callback that was held back may be let through too early.

## Key results

- `minTime_pos`: a zone that is throttled has a positive `minTime`
- `inv_step`: spaced calls keep the callbacks apart
- `apart_of_along`: the callbacks of a run of spaced calls are `minTime` apart
- `exists_not_apart`: after a call that is not spaced the next callback can be too early
- `apart_burst`: three messages, two of them at once
-/

namespace ZoneMta

namespace Throttling

open ForStd (run Along)

variable {throttling : Throttling}

theorem minTime_pos (throttling : Throttling) : 0 < throttling.minTime := by
  have hmessages : (0 : ℚ) < throttling.messages := Nat.cast_pos.mpr throttling.messages_pos
  have htime : (0 : ℚ) < throttling.time := Nat.cast_pos.mpr throttling.time_pos
  unfold minTime
  positivity

/-- Consecutive callbacks are at least `minTime` apart. -/
def Apart (throttling : Throttling) (released : List ℚ) : Prop :=
  released.IsChain fun before after => before + throttling.minTime ≤ after

theorem apart_concat {released : List ℚ} {curTime : ℚ} : Apart throttling (released ++ [curTime]) ↔
    Apart throttling released ∧
      ∀ before ∈ released.getLast?, before + throttling.minTime ≤ curTime := by
  simp [Apart, List.isChain_append]

namespace Ref

/-- The call comes `minTime` after the last callback, or it is held back and the last callback was
    not: a callback that comes within a millisecond counts as one that was not held back. -/
def Spaced (throttling : Throttling) (s : Ref) : Event → Prop
  | .call curTime =>
    ∀ called ∈ s.timer, ∀ before ∈ s.released.getLast?,
      before + throttling.minTime ≤ curTime ∨
        curTime < called + throttling.minTime ∧ before ≤ called + 1
  | .timeout _ => True

instance (throttling : Throttling) (s : Ref) (e : Event) :
    Decidable (Spaced throttling s e) := by
  unfold Spaced
  split <;> infer_instance

/-- What holds between two events: the callbacks are apart, and the one that is due will be. -/
structure Inv (throttling : Throttling) (s : Ref) : Prop where
  apart : Apart throttling s.released
  due : ∀ due ∈ s.due, ∀ before ∈ s.released.getLast?, before + throttling.minTime ≤ due
  called : s.timer = none → s.due = none ∧ s.released = []

theorem inv_empty (throttling : Throttling) : Inv throttling {} where
  apart := List.isChain_nil
  due := nofun
  called := fun _ => ⟨rfl, rfl⟩

variable {s s' : Ref} {e : Event}

/-- What an event does. -/
inductive Goes (throttling : Throttling) (s : Ref) : Event → Ref → Prop where
  | first {curTime : ℚ} (htimer : s.timer = none) : Goes throttling s (.call curTime)
      { timer := some curTime, due := none, now := curTime, released := s.released ++ [curTime] }
  | passed {curTime called : ℚ} (htimer : s.timer = some called)
      (hpassed : called + throttling.minTime ≤ curTime) : Goes throttling s (.call curTime)
      { timer := some curTime, due := none, now := curTime, released := s.released ++ [curTime] }
  | heldBack {curTime called : ℚ} (htimer : s.timer = some called)
      (hsoon : curTime < called + throttling.minTime) : Goes throttling s (.call curTime)
      { timer := some curTime
        due := some (called + throttling.minTime + 1)
        now := curTime
        released := s.released }
  | timeout {curTime due : ℚ} (hdue : s.due = some due) (hle : due ≤ curTime) :
      Goes throttling s (.timeout curTime)
        { s with due := none, now := curTime, released := s.released ++ [curTime] }

theorem goes_of_step (h : step (some throttling) s e = some s') : Goes throttling s e s' := by
  cases e with
  | call curTime =>
    simp only [step, speedometer, Option.ite_none_right_eq_some] at h
    obtain ⟨-, h⟩ := h
    cases htimer : s.timer with
    | none =>
      rw [htimer] at h
      exact Option.some.inj h ▸ .first htimer
    | some called =>
      rw [htimer] at h
      by_cases hle : throttling.minTime ≤ curTime - called
      · simp only [if_pos hle, Option.some.injEq] at h
        exact h ▸ .passed htimer (by linarith)
      · simp only [if_neg hle, Option.some.injEq] at h
        have hdue : curTime + (called + throttling.minTime - curTime + 1) =
            called + throttling.minTime + 1 := by ring
        rw [hdue] at h
        exact h ▸ .heldBack htimer (by linarith)
  | timeout curTime =>
    simp only [step, Option.bind_eq_some_iff, Option.ite_none_right_eq_some,
      Option.some.injEq] at h
    obtain ⟨due, hdue, hle, rfl⟩ := h
    exact .timeout hdue hle

/-! ## Runs -/

/-- A spaced call keeps the callbacks apart. -/
theorem inv_step (hinv : Inv throttling s) (hspaced : Spaced throttling s e)
    (h : step (some throttling) s e = some s') : Inv throttling s' := by
  obtain ⟨hapart, hdue, hcalled⟩ := hinv
  cases goes_of_step h with
  | first htimer =>
    refine ⟨?_, nofun, nofun⟩
    rw [(hcalled htimer).2]
    exact List.isChain_singleton _
  | @passed curTime called htimer hpassed =>
    refine ⟨apart_concat.mpr ⟨hapart, fun before hbefore => ?_⟩, nofun, nofun⟩
    rcases hspaced called htimer before hbefore with hlate | ⟨hsoon, -⟩
    · exact hlate
    · exact absurd hpassed (not_le.mpr hsoon)
  | @heldBack curTime called htimer hsoon =>
    refine ⟨hapart, fun due hdue before hbefore => ?_, nofun⟩
    obtain rfl := Option.some.inj hdue
    rcases hspaced called htimer before hbefore with hlate | ⟨-, hbefore⟩
    · linarith
    · linarith
  | @timeout curTime due hwaiting hle =>
    refine ⟨apart_concat.mpr ⟨hapart, fun before hbefore => ?_⟩, nofun, fun htimer => ?_⟩
    · exact (hdue due hwaiting before hbefore).trans hle
    · exact nomatch hwaiting.symm.trans (hcalled htimer).1

/-- The callbacks of a run of spaced calls are at least `minTime` apart. -/
theorem apart_of_along {es : List Event}
    (hes : Along (step (some throttling)) (Spaced throttling) {} es)
    (hrun : run (step (some throttling)) {} es = some s) : Apart throttling s.released := by
  have hinv : Inv throttling s := ForStd.run_invariant_along
    (fun _ _ _ hinv hspaced h => inv_step hinv hspaced h) (inv_empty throttling) hes hrun
  exact hinv.apart

/-- After a call that is not spaced the next callback is too early, if its timeout is in time. -/
theorem exists_not_apart {curTime : ℚ} (hspaced : ¬Spaced throttling s (.call curTime))
    (h : step (some throttling) s (.call curTime) = some s') :
    ¬Apart throttling s'.released ∨ ∃ due s'', s'.due = some due ∧
      step (some throttling) s' (.timeout due) = some s'' ∧ ¬Apart throttling s''.released := by
  simp only [Spaced] at hspaced
  push Not at hspaced
  obtain ⟨called, hcalled, before, hbefore, hlate, hearly⟩ := hspaced
  cases goes_of_step h with
  | first htimer => exact nomatch htimer.symm.trans hcalled
  | passed htimer hpassed =>
    refine Or.inl fun hapart => ?_
    have hle := (apart_concat.mp hapart).2 before hbefore
    linarith
  | @heldBack _ called' htimer hsoon =>
    obtain rfl : called' = called := Option.some.inj (htimer.symm.trans hcalled)
    refine Or.inr ⟨_, _, rfl, if_pos (le_refl _), fun hapart => ?_⟩
    have hle := (apart_concat.mp hapart).2 before hbefore
    have hmore := hearly hsoon
    linarith

/-- One message a second. -/
def oneSecond : Throttling := ⟨1, 1, by decide, by decide⟩

/-- The second message is held back, and the third one comes a second after it. -/
def slow : List Event := [.call 0, .call 500, .timeout 1001, .call 2001]

theorem apart_slow : ∃ s, run (step (some oneSecond)) {} slow = some s ∧
    Apart oneSecond s.released := by
  have hrun : (run (step (some oneSecond)) {} slow).isSome = true := by decide +kernel
  obtain ⟨s, hs⟩ := Option.isSome_iff_exists.mp hrun
  exact ⟨s, hs, apart_of_along (by decide +kernel) hs⟩

/-- The third message comes at the time of the second one, and is not held back. -/
def burst : List Event := [.call 0, .call 1, .timeout 1001, .call 1001]

theorem apart_burst :
    ¬∀ (throttling : Throttling) (es : List Event) (s : Ref),
      run (step (some throttling)) {} es = some s → Apart throttling s.released := by
  intro h
  have hrun : (run (step (some oneSecond)) {} burst).map (·.released) = some [0, 1001, 1001] := by
    decide +kernel
  obtain ⟨s, hs, hreleased⟩ := Option.map_eq_some_iff.mp hrun
  have hapart := h oneSecond burst s hs
  rw [hreleased, Apart] at hapart
  exact absurd hapart (by decide +kernel)

end Ref

end Throttling

end ZoneMta
