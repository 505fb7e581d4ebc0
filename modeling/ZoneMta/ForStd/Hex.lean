import Mathlib

/-!
# Hexadecimal numbers

The value of a text of hexadecimal digits, in lower case. Zeros in front do not count.

## Key results

- `hexValue_toDigits`: the value of the digits of a number
- `hexValue_replicate_zero`: zeros in front
-/

namespace ForStd

/-- The value of a digit. -/
def hexDigit (c : Char) : Nat := if c.isDigit then c.toNat - 48 else c.toNat - 87

/-- The value of a text. -/
def hexValue (s : List Char) : Nat := s.foldl (fun value c => 16 * value + hexDigit c) 0

theorem hexDigit_digitChar {d : Nat} (h : d < 16) : hexDigit d.digitChar = d := by
  have hall : ∀ d : Fin 16, hexDigit (Nat.digitChar d) = d := by decide
  exact hall ⟨d, h⟩

@[simp] theorem hexValue_concat (s : List Char) (c : Char) :
    hexValue (s ++ [c]) = 16 * hexValue s + hexDigit c := by
  rw [hexValue, List.foldl_append]
  rfl

theorem hexValue_toDigits (n : Nat) : hexValue (Nat.toDigits 16 n) = n := by
  induction n using Nat.strong_induction_on with
  | _ n ih =>
    rw [Nat.toDigits_eq_if (by decide)]
    split
    · next hlt => exact (Nat.zero_add _).trans (hexDigit_digitChar hlt)
    · next hge =>
      have hlt : n % 16 < 16 := Nat.mod_lt n (by decide)
      rw [hexValue_concat, ih (n / 16) (by omega), hexDigit_digitChar hlt]
      omega

theorem hexValue_replicate_zero (k : Nat) (s : List Char) :
    hexValue (List.replicate k '0' ++ s) = hexValue s := by
  induction k with
  | zero => rfl
  | succ k ih => exact ih

end ForStd
