import Mathlib

/-!
# Words in a text

Whether one of several words occurs in a text, for a text that is put together from parts. A word
that occurs in the whole, but in no part, begins in one part and ends in another one.

## Key results

- `mentions_append`: the parts of a text, when no word crosses the border
- `mentions_append_cons`: the parts on both sides of a character that no word has
- `mentions_append_of_apart`: a part that no word begins in
-/

namespace ForStd

variable {α : Type*} {words : List (List α)} {x y : List α}

/-- One of the words occurs in the text. -/
def Mentions (words : List (List α)) (s : List α) : Prop := ∃ w ∈ words, w <:+: s

instance [DecidableEq α] (words : List (List α)) (s : List α) : Decidable (Mentions words s) :=
  inferInstanceAs (Decidable (∃ w ∈ words, w <:+: s))

/-- No word occurs in the text, and no word begins at its end. -/
def Apart (words : List (List α)) (x : List α) : Prop :=
  ¬Mentions words x ∧ ∀ w ∈ words, ∀ n < w.length, ¬w.take (n + 1) <:+ x

instance [DecidableEq α] (words : List (List α)) (x : List α) : Decidable (Apart words x) :=
  inferInstanceAs (Decidable (_ ∧ _))

theorem mentions_append
    (h : ∀ w ∈ words, ∀ l r, w = l ++ r → l ≠ [] → r ≠ [] → l <:+ x → ¬r <+: y) :
    Mentions words (x ++ y) ↔ Mentions words x ∨ Mentions words y := by
  constructor
  · rintro ⟨w, hw, hmid⟩
    rcases List.infix_append_iff_ne_nil.mp hmid with hx | hy | ⟨l, r, hl, hr, heq, hlx, hry⟩
    · exact Or.inl ⟨w, hw, hx⟩
    · exact Or.inr ⟨w, hw, hy⟩
    · exact absurd hry (h w hw l r heq hl hr hlx)
  · rintro (⟨w, hw, hx⟩ | ⟨w, hw, hy⟩)
    · exact ⟨w, hw, List.infix_append_of_infix_left hx⟩
    · exact ⟨w, hw, List.infix_append_of_infix_right hy⟩

/-- A character that no word begins with. -/
theorem mentions_cons {c : α} (h : ∀ w ∈ words, w.head? ≠ some c) :
    Mentions words (c :: y) ↔ Mentions words y := by
  constructor
  · rintro ⟨w, hw, hmid⟩
    rcases List.infix_cons_iff.mp hmid with hstart | hy
    · cases w with
      | nil => exact ⟨[], hw, List.nil_infix⟩
      | cons a l =>
        obtain rfl := (List.cons_prefix_cons.mp hstart).1
        exact absurd rfl (h _ hw)
    · exact ⟨w, hw, hy⟩
  · rintro ⟨w, hw, hy⟩
    exact ⟨w, hw, List.infix_cons hy⟩

/-- The parts on both sides of a character that no word has. -/
theorem mentions_append_cons {c : α} (h : ∀ w ∈ words, c ∉ w) :
    Mentions words (x ++ c :: y) ↔ Mentions words x ∨ Mentions words y := by
  rw [mentions_append, mentions_cons]
  · intro w hw hhead
    exact h w hw (List.mem_of_mem_head? hhead)
  · rintro w hw l r rfl - hr - hstart
    -- the part of the word that is behind the border begins with the character
    obtain ⟨a, r', rfl⟩ := List.exists_cons_of_ne_nil hr
    obtain rfl := (List.cons_prefix_cons.mp hstart).1
    exact h _ hw (by simp)

/-- A part that no word begins in. -/
theorem mentions_append_of_apart (h : Apart words x) :
    Mentions words (x ++ y) ↔ Mentions words y := by
  rw [mentions_append, or_iff_right h.1]
  rintro w hw l r rfl hl - hsuffix
  have hlength := List.length_pos_iff.mpr hl
  have htake : (l ++ r).take (l.length - 1 + 1) = l := by
    rw [Nat.sub_add_cancel hlength]
    exact List.take_left
  have hlt : l.length - 1 < (l ++ r).length := by
    rw [List.length_append]
    omega
  exact absurd (htake.symm ▸ hsuffix) (h.2 _ hw _ hlt)

end ForStd
