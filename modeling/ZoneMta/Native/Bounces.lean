import ZoneMta.ForStd.Lookbehind

/-!
# SMTP responses

`formatSMTPResponse` of `src/lib/bounces.js`, which brings a reply of a server into one line.
-/

namespace ZoneMta

namespace Bounces

open ForStd (replaceBehind squeeze trim)

/-- `\s`, and what `trim` takes away. -/
def isSpace (c : Char) : Bool :=
  c ∈ ['\t', '\n', '\x0b', '\x0c', '\r', ' ', '\u00a0', '\u1680', '\u2028', '\u2029', '\u202f',
    '\u205f', '\u3000', '\ufeff'] || ('\u2000' ≤ c && c ≤ '\u200a')

/-- Behind these characters `^` matches with the flag `m`. -/
def isLineTerminator (c : Char) : Bool :=
  c == '\n' || c == '\r' || c == '\u2028' || c == '\u2029'

/-- `[\s-]` -/
def isSeparator (c : Char) : Bool := isSpace c || c == '-'

/-- `[\d.]` -/
def isStatusChar (c : Char) : Bool := c.isDigit || c == '.'

section

variable {α : Type*} (char : α → Char)

/-- What `/\d{3}[\s-]+([\d.]+\s*)?/` matches at the beginning of a text. -/
def replyCode (t : List α) : Option Nat :=
  let rest := t.drop 3
  let separators := (rest.takeWhile (isSeparator ∘ char)).length
  let rest := rest.drop separators
  let status := (rest.takeWhile (isStatusChar ∘ char)).length
  let spaces := if status = 0 then 0
    else ((rest.drop status).takeWhile (isSpace ∘ char)).length
  if (t.take 3).length = 3 ∧ (t.take 3).all (Char.isDigit ∘ char) = true ∧ separators ≠ 0 then
    some (3 + separators + status + spaces)
  else none

/-- `/^\d{3}[\s-]+([\d.]+\s*)?/gm`, behind `prev`. -/
def replyCodeBehind (prev : Option α) (t : List α) : Option Nat :=
  if prev.all (isLineTerminator ∘ char) then replyCode char t else none

/-- The body of `formatSMTPResponse`, for a text whose characters may be marked. -/
def format (blank : α) (str : List α) : List α :=
  let str := trim (isSpace ∘ char) str
  let code := (replyCode char str).getD 0
  let rest := replaceBehind (replyCodeBehind char) [blank] none 0 (str.drop code)
  trim (isSpace ∘ char) (squeeze (isSpace ∘ char) blank (str.take code ++ rest))

end

/-- `formatSMTPResponse` -/
def formatSMTPResponse (str : String) : String := String.ofList (format id ' ' str.toList)

end Bounces

end ZoneMta
