import Mathlib

/-!
# Calendar

Days since 1970-01-01 as dates of the Gregorian calendar, and numbers that are filled up with
zeros.

## Key results

- `Date.ofDays_injective`: different days have different dates
- `pad_injective`: a number is read back
-/

namespace ForStd

/-- A date. -/
@[ext] structure Date where
  year : Nat
  month : Nat
  day : Nat
  month_le : month ≤ 12
  day_le : day ≤ 31
deriving DecidableEq

namespace Date

/-- Leap years have a day more. -/
def isLeap (year : Nat) : Bool := year % 4 == 0 && (year % 100 != 0 || year % 400 == 0)

/-- The days of a month. -/
def daysIn (year : Nat) : Nat → Nat
  | 2 => if isLeap year then 29 else 28
  | 4 | 6 | 9 | 11 => 30
  | _ => 31

theorem daysIn_le (year month : Nat) : daysIn year month ≤ 31 := by
  unfold daysIn
  split
  · split <;> decide
  all_goals decide

/-- The day after. -/
def next (d : Date) : Date :=
  if h : d.day < daysIn d.year d.month then
    { d with day := d.day + 1, day_le := Nat.le_trans h (daysIn_le _ _) }
  else if h : d.month < 12 then
    { d with month := d.month + 1, day := 1, month_le := h, day_le := by decide }
  else ⟨d.year + 1, 1, 1, by decide, by decide⟩

/-- The date of a day, by its number. -/
def ofDays : Nat → Date
  | 0 => ⟨1970, 1, 1, by decide, by decide⟩
  | n + 1 => (ofDays n).next

/-- A number that grows with the date. -/
def rank (d : Date) : Nat := (d.year * 12 + d.month) * 31 + d.day

theorem rank_lt_rank_next (d : Date) : d.rank < d.next.rank := by
  have hmonth := d.month_le
  have hday := d.day_le
  unfold next
  split
  · simp only [rank]
    omega
  · split
    · simp only [rank]
      omega
    · simp only [rank]
      omega

theorem ofDays_injective : Function.Injective ofDays := by
  have hmono : StrictMono fun n => (ofDays n).rank :=
    strictMono_nat_of_lt_succ fun n => rank_lt_rank_next (ofDays n)
  intro m n h
  exact hmono.injective (congrArg rank h)

end Date

/-! ## Numbers with zeros -/

/-- A number with at least so many digits. -/
def pad (width n : Nat) : List Char := (Nat.toDigits 10 n).leftpad width '0'

theorem pad_injective (width : Nat) : Function.Injective (pad width) := by
  intro m n h
  have hvalue := congrArg (Nat.ofDigitChars 10 · 0) h
  simpa [pad, List.leftpad, Nat.ofDigitChars_append, Nat.ofDigitChars_replicate_zero,
    Nat.ofDigitChars_ten_toDigits] using hvalue

/-- Small numbers have the width. -/
theorem length_pad {width n : Nat} (hwidth : 0 < width) (h : n < 10 ^ width) :
    (pad width n).length = width := by
  have hle : (Nat.toDigits 10 n).length ≤ width :=
    (Nat.length_toDigits_le_iff (by decide) hwidth).mpr h
  rw [pad, List.leftpad, List.length_append, List.length_replicate]
  exact Nat.sub_add_cancel hle

end ForStd
