import Mathlib

/-!
# Retry loops

A loop whose body is tried again until it returns. What the body depends on besides the state, such
as the time or the answers of others, is one input for each time it is tried.

## Key results

- `retry_isSome`: a loop that terminates
- `retry_last`: what the last try starts from
-/

namespace ForStd

variable {ι σ ρ : Type*} {body : ι → σ → Option ρ × σ} {I : σ → Prop} {s s' : σ} {is : List ι}

/-- The result of the first try that returns, and the state after it; `none` where the inputs are
    too few. -/
def retry (body : ι → σ → Option ρ × σ) : List ι → σ → Option (ρ × σ)
  | [], _ => none
  | i :: is, s =>
    match body i s with
    | (some r, s') => some (r, s')
    | (none, s') => retry body is s'

/-- A measure that every try makes smaller, unless it returns, bounds the number of tries. -/
theorem retry_isSome {μ : σ → Nat} (hkeep : ∀ i s s', I s → body i s = (none, s') → I s')
    (hless : ∀ i s s', I s → body i s = (none, s') → μ s' < μ s) (hs : I s)
    (his : μ s < is.length) : (retry body is s).isSome = true := by
  induction is generalizing s with
  | nil => exact absurd his (Nat.not_lt_zero _)
  | cons i is ih =>
    rw [retry]
    split
    · rfl
    · next s' hbody =>
      -- the inputs are used up one by one, and the measure decreases as fast
      refine ih (hkeep i s s' hs hbody) ?_
      have hμ := hless i s s' hs hbody
      rw [List.length_cons] at his
      omega

/-- An invariant of the tries holds before the last one. -/
theorem retry_last (hkeep : ∀ i s s', I s → body i s = (none, s') → I s') (hs : I s) {r : ρ}
    (h : retry body is s = some (r, s')) : ∃ i s₁, I s₁ ∧ body i s₁ = (some r, s') := by
  induction is generalizing s with
  | nil => exact nomatch h
  | cons i is ih =>
    rw [retry] at h
    split at h
    · next r' s'' hbody =>
      obtain ⟨rfl, rfl⟩ := Prod.mk.inj (Option.some.inj h)
      exact ⟨i, s, hs, hbody⟩
    · next s'' hbody => exact ih (hkeep i s s'' hs hbody) h

end ForStd
