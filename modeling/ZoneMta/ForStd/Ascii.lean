import Mathlib

/-!
# ASCII bytes

Names for the control bytes of line-based protocols, the classes of white space and
line-end bytes, and tests on the last byte of a string.
-/

namespace Ascii

/-- `\r`. -/
def CR : UInt8 := 0x0d

/-- `\n`. -/
def LF : UInt8 := 0x0a

/-- The space character. -/
def SP : UInt8 := 0x20

/-- The tab character. -/
def TAB : UInt8 := 0x09

/-- `:`. -/
def COLON : UInt8 := 0x3a

/-- `[ \t]`. -/
def isWsp (c : UInt8) : Bool := c == SP || c == TAB

/-- `[\r\n]`. -/
def isEol (c : UInt8) : Bool := c == CR || c == LF

/-- `/[\r\n]$/` -/
def endsEol (str : List UInt8) : Bool := str.getLast?.any isEol

/-- `/[ \t]$/` -/
def endsWsp (str : List UInt8) : Bool := str.getLast?.any isWsp

theorem isEol_iff (c : UInt8) : isEol c = true ↔ c = CR ∨ c = LF := by
  simp only [isEol, Bool.or_eq_true, beq_iff_eq]

theorem isWsp_iff (c : UInt8) : isWsp c = true ↔ c = SP ∨ c = TAB := by
  simp only [isWsp, Bool.or_eq_true, beq_iff_eq]

/-- No byte is both white space and a line end. -/
theorem isWsp_eq_false_of_isEol {c : UInt8} (h : isEol c = true) : isWsp c = false := by
  rcases (isEol_iff c).mp h with rfl | rfl <;> decide

@[simp] theorem endsEol_nil : endsEol [] = false := rfl

@[simp] theorem endsWsp_nil : endsWsp [] = false := rfl

@[simp] theorem endsEol_concat (s : List UInt8) (c : UInt8) : endsEol (s ++ [c]) = isEol c := by
  simp [endsEol]

@[simp] theorem endsWsp_concat (s : List UInt8) (c : UInt8) : endsWsp (s ++ [c]) = isWsp c := by
  simp [endsWsp]

theorem endsEol_append {t : List UInt8} (ht : t ≠ []) (s : List UInt8) :
    endsEol (s ++ t) = endsEol t := by
  rw [endsEol, endsEol, List.getLast?_append_of_ne_nil _ ht]

theorem endsWsp_append {t : List UInt8} (ht : t ≠ []) (s : List UInt8) :
    endsWsp (s ++ t) = endsWsp t := by
  rw [endsWsp, endsWsp, List.getLast?_append_of_ne_nil _ ht]

theorem endsEol_of_all {s : List UInt8} (hs : s ≠ []) (h : ∀ c ∈ s, isEol c = true) :
    endsEol s = true := by
  rw [endsEol, List.getLast?_eq_some_getLast hs]
  exact h _ (List.getLast_mem hs)

theorem endsWsp_of_all {s : List UInt8} (hs : s ≠ []) (h : ∀ c ∈ s, isWsp c = true) :
    endsWsp s = true := by
  rw [endsWsp, List.getLast?_eq_some_getLast hs]
  exact h _ (List.getLast_mem hs)

/-- A string does not end in both. -/
theorem endsWsp_eq_false_of_endsEol {s : List UInt8} (h : endsEol s = true) :
    endsWsp s = false := by
  rw [endsEol, Option.any_eq_true] at h
  obtain ⟨c, hc, he⟩ := h
  rw [endsWsp, hc]
  exact isWsp_eq_false_of_isEol he

end Ascii
