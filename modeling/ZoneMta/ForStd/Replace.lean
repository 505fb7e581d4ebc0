import Mathlib

/-!
# Global replacement by a matcher

`replaceAll m r s` is what `s.replace(re, r)` returns for a global regular
expression `re`. The expression is given by its matcher: `m t = some n` when
`re` matches the first `n` symbols of the rest `t`, and `m t = none` when it does
not match there. An empty match inserts the replacement and moves on by one symbol.

## Key results

- `replaceFrom_congr`: two matchers that agree on the rests of a string
- `mem_replaceFrom`: where the symbols of the result come from
-/

namespace ForStd

variable {α : Type*}

/-- Replacement with the first `k` symbols already consumed by the last match. -/
def replaceFrom (m : List α → Option Nat) (r : List α) : Nat → List α → List α
  | _, [] => if m [] = some 0 then r else []
  | k + 1, _ :: s => replaceFrom m r k s
  | 0, c :: s =>
    match m (c :: s) with
    | some (n + 1) => r ++ replaceFrom m r n s
    | some 0 => r ++ c :: replaceFrom m r 0 s
    | none => c :: replaceFrom m r 0 s

/-- Replace every match of `m` in `s` by `r`, from left to right. -/
def replaceAll (m : List α → Option Nat) (r s : List α) : List α :=
  replaceFrom m r 0 s

theorem replaceFrom_nil (m : List α → Option Nat) (r : List α) (k : Nat) :
    replaceFrom m r k [] = if m [] = some 0 then r else [] := by
  cases k <;> rfl

theorem replaceAll_cons_none {m : List α → Option Nat} {r : List α} {c : α} {s : List α}
    (h : m (c :: s) = none) : replaceAll m r (c :: s) = c :: replaceAll m r s := by
  simp only [replaceAll, replaceFrom, h]

/-- Only what the matcher says about the rests of `s` counts. -/
theorem replaceFrom_congr {m m' : List α → Option Nat} (r : List α) {s : List α}
    (h : ∀ t, t <:+ s → m t = m' t) (k : Nat) : replaceFrom m r k s = replaceFrom m' r k s := by
  induction s generalizing k with
  | nil => rw [replaceFrom_nil, replaceFrom_nil, h [] List.suffix_rfl]
  | cons c s ih =>
    have hs : ∀ t, t <:+ s → m t = m' t := fun t ht => h t (ht.trans (List.suffix_cons c s))
    cases k with
    | succ k => exact ih hs k
    | zero => simp only [replaceFrom, h (c :: s) List.suffix_rfl, ih hs]

/-- A symbol of the result is one of the replacement, or was not matched. -/
theorem mem_replaceFrom {m : List α → Option Nat} {r s : List α} {k : Nat} {c : α}
    (h : c ∈ replaceFrom m r k s) :
    c ∈ r ∨ ∃ t, c :: t <:+ s ∧ (m (c :: t) = none ∨ m (c :: t) = some 0) := by
  induction s generalizing k with
  | nil =>
    rw [replaceFrom_nil] at h
    split at h
    · exact Or.inl h
    · simp at h
  | cons d s ih =>
    have hrest : ∀ {k}, c ∈ replaceFrom m r k s →
        c ∈ r ∨ ∃ t, c :: t <:+ d :: s ∧ (m (c :: t) = none ∨ m (c :: t) = some 0) := by
      intro k hmem
      refine (ih hmem).imp_right fun ⟨t, ht, hm⟩ => ⟨t, ht.trans (List.suffix_cons d s), hm⟩
    cases k with
    | succ k => exact hrest h
    | zero =>
      simp only [replaceFrom] at h
      split at h
      · exact (List.mem_append.mp h).elim Or.inl hrest
      · next hm =>
        rcases List.mem_append.mp h with h | h
        · exact Or.inl h
        · rcases List.mem_cons.mp h with rfl | h
          · exact Or.inr ⟨s, List.suffix_rfl, Or.inr hm⟩
          · exact hrest h
      · next hm =>
        rcases List.mem_cons.mp h with rfl | h
        · exact Or.inr ⟨s, List.suffix_rfl, Or.inl hm⟩
        · exact hrest h

end ForStd
