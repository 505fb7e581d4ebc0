import Mathlib

/-!
# Counters that expire

A store of counters, each with the time from which on it is absent. An increment creates a counter
that is absent and restarts the lifetime of one that is there, so the counter is the number of the
increments of its last burst: the ones of which each came within the lifetime of the one before.

## Key results

- `Counts.incr`: a counter is the length of its burst after every increment
- `countP_le_length_burst`: what a burst has at least
-/

namespace ForStd

/-- A store of counters. -/
abbrev Expiring (κ : Type*) := κ → Option (Nat × Nat)

namespace Expiring

variable {κ : Type*}

/-- The value of a counter at a time. -/
def get (r : Expiring κ) (now : Nat) (k : κ) : Option Nat :=
  (r k).bind fun (value, expires) => if now < expires then some value else none

/-- A counter is incremented, and its lifetime starts again. -/
def incr [DecidableEq κ] (r : Expiring κ) (now : Nat) (k : κ) (lifetime : Nat) : Expiring κ :=
  Function.update r k (some ((r.get now k).getD 0 + 1, now + lifetime))

variable [DecidableEq κ]

theorem get_incr_self (r : Expiring κ) (now t : Nat) (k : κ) (lifetime : Nat) :
    (r.incr now k lifetime).get t k =
      if t < now + lifetime then some ((r.get now k).getD 0 + 1) else none := by
  rw [get, incr, Function.update_self]
  rfl

theorem get_incr_of_ne (r : Expiring κ) (now t : Nat) {k k' : κ} (h : k' ≠ k) (lifetime : Nat) :
    (r.incr now k lifetime).get t k' = r.get t k' := by
  rw [get, incr, Function.update_of_ne h]
  rfl

end Expiring

variable {κ : Type*} [DecidableEq κ] {key : Nat → κ} {lifetime : Nat}

/-- The increments of the last burst, of all the increments, the last one first. -/
def burst (key : Nat → κ) (lifetime : Nat) : Nat → List Nat → List Nat
  | _, [] => []
  | now, u :: us =>
    if key u = key now ∧ now < u + lifetime then u :: burst key lifetime u us else []

/-- From `now` on, the counters are the lengths of the bursts. -/
def Counts (key : Nat → κ) (lifetime : Nat) (r : Expiring κ) (now : Nat) (us : List Nat) : Prop :=
  ∀ t, now ≤ t → r.get t (key t) =
    if burst key lifetime t us = [] then none else some (burst key lifetime t us).length

/-- A key does not come back. -/
def Passing (key : Nat → κ) : Prop := ∀ a b c, a ≤ b → b ≤ c → key a = key c → key b = key c

/-! ## Bursts -/

theorem burst_isPrefix (t : Nat) (us : List Nat) : burst key lifetime t us <+: us := by
  induction us generalizing t with
  | nil => exact List.prefix_rfl
  | cons u us ih =>
    rw [burst]
    split
    · exact List.cons_prefix_cons.mpr ⟨rfl, ih u⟩
    · exact List.nil_prefix

theorem key_of_mem_burst {t x : Nat} {us : List Nat} (h : x ∈ burst key lifetime t us) :
    key x = key t := by
  induction us generalizing t with
  | nil => exact nomatch h
  | cons u us ih =>
    rw [burst] at h
    split at h
    next hburst =>
      cases List.mem_cons.mp h with
      | inl heq => exact heq ▸ hburst.1
      | inr hmem => exact (ih hmem).trans hburst.1
    next => exact nomatch h

theorem burst_congr {κ' : Type*} [DecidableEq κ'] {key' : Nat → κ'}
    (h : ∀ a b, key a = key b ↔ key' a = key' b) (t : Nat) (us : List Nat) :
    burst key lifetime t us = burst key' lifetime t us := by
  induction us generalizing t with
  | nil => rfl
  | cons u us ih => simp only [burst, h, ih]

/-- A later burst is the same or over. -/
theorem burst_of_le (hkey : Passing key) {t u : Nat} {us : List Nat} (hus : ∀ x ∈ us, x ≤ t)
    (htu : t ≤ u) :
    burst key lifetime u us = burst key lifetime t us ∨ burst key lifetime u us = [] := by
  cases us with
  | nil => exact Or.inr rfl
  | cons x us =>
    rw [burst, burst]
    by_cases h : key x = key u ∧ u < x + lifetime
    · have hx := hus x List.mem_cons_self
      have hkeys : key t = key u := hkey x t u hx htu h.1
      rw [if_pos h, if_pos ⟨h.1.trans hkeys.symm, by omega⟩]
      exact Or.inl rfl
    · exact Or.inr (if_neg h)

/-- A burst has at least the increments of a window that has one key and is not longer than the
    lifetime. -/
theorem countP_le_length_burst {p : Nat → Bool} {t : Nat} {us : List Nat}
    (hsorted : us.Pairwise (· ≥ ·)) (hle : ∀ x ∈ us, x ≤ t) (ht : p t = true)
    (hwindow : ∀ x ∈ us, p x = true → ∀ y, p y = true → x ≤ y → key x = key y ∧ y < x + lifetime)
    (hconvex : ∀ x ∈ us, p x = false → ∀ y ≤ x, p y = false) :
    us.countP p ≤ (burst key lifetime t us).length := by
  induction us generalizing t with
  | nil => exact Nat.le_refl _
  | cons u us ih =>
    rw [List.pairwise_cons] at hsorted
    cases hu : p u with
    | false =>
      -- the ones before are outside of the window as well
      have hzero : (u :: us).countP p = 0 := by
        rw [List.countP_eq_zero]
        intro x hx
        rw [Bool.not_eq_true]
        cases List.mem_cons.mp hx with
        | inl heq => exact heq ▸ hu
        | inr hmem => exact hconvex u List.mem_cons_self hu x (hsorted.1 x hmem)
      omega
    | true =>
      have hburst := hwindow u List.mem_cons_self hu t ht (hle u List.mem_cons_self)
      have hrest := ih hsorted.2 hsorted.1 hu
        (fun x hx => hwindow x (List.mem_cons_of_mem u hx))
        (fun x hx => hconvex x (List.mem_cons_of_mem u hx))
      rw [burst, if_pos hburst, List.countP_cons_of_pos hu, List.length_cons]
      omega

/-- The times up to `u`, of times of which the last one is first, are recent if `u` is. -/
theorem length_lt_countP_iff {q : Nat → Bool} (hq : ∀ x y, x ≤ y → q x = true → q y = true)
    {later earlier : List Nat} {u : Nat} (hsorted : (later ++ u :: earlier).Pairwise (· ≥ ·)) :
    later.length < (later ++ u :: earlier).countP q ↔ q u = true := by
  obtain ⟨-, hu, hlater⟩ := List.pairwise_append.mp hsorted
  rw [List.pairwise_cons] at hu
  rw [List.countP_append]
  cases hqu : q u with
  | false =>
    have hzero : (u :: earlier).countP q = 0 := by
      rw [List.countP_eq_zero]
      intro x hx hqx
      have hxu : x ≤ u := by
        cases List.mem_cons.mp hx with
        | inl heq => omega
        | inr hmem => exact hu.1 x hmem
      have := hq x u hxu hqx
      rw [hqu] at this
      exact Bool.false_ne_true this
    have hle := List.countP_le_length (p := q) (l := later)
    simp only [hzero, Bool.false_eq_true, iff_false]
    omega
  | true =>
    have hall : later.countP q = later.length := by
      rw [List.countP_eq_length]
      exact fun x hx => hq u x (hlater x hx u List.mem_cons_self) hqu
    rw [hall, List.countP_cons_of_pos hqu]
    simp only [iff_true]
    omega

/-! ## Counters -/

theorem counts_empty : Counts key lifetime (fun _ => none) 0 [] := fun _ _ => rfl

/-- A counter is the length of its burst after every increment. -/
theorem Counts.incr (hkey : Passing key) {r : Expiring κ} {now u : Nat} {us : List Nat}
    (h : Counts key lifetime r now us) (hnow : now ≤ u) (hus : ∀ x ∈ us, x ≤ u) :
    Counts key lifetime (r.incr u (key u) lifetime) u (u :: us) := by
  intro t ht
  have hvalue : (r.get u (key u)).getD 0 = (burst key lifetime u us).length := by
    rw [h u hnow]
    split
    next hnil => rw [hnil]; rfl
    next => rfl
  rw [burst]
  by_cases hkeys : key u = key t
  · rw [← hkeys, Expiring.get_incr_self, hvalue]
    by_cases halive : t < u + lifetime
    · simp [halive]
    · simp [halive]
  · have hnil : burst key lifetime t us = [] := by
      by_contra hne
      obtain ⟨x, hx⟩ := List.exists_mem_of_ne_nil _ hne
      have hxu := hus x ((burst_isPrefix t us).subset hx)
      exact hkeys (hkey x u t hxu ht (key_of_mem_burst hx))
    have hget := h t (Nat.le_trans hnow ht)
    rw [hnil] at hget
    rw [Expiring.get_incr_of_ne r u t (Ne.symm hkeys), hget]
    simp [hkeys]

end ForStd
