import Mathlib
import ZoneMta.ForStd.Ascii

/-!
# Relaxed body canonicalisation

The "relaxed" body canonicalisation of DKIM (RFC 6376 section 3.4.4), stated on the
lines of the body: white space at the end of a line is ignored, every other run of
white space becomes one space, empty lines at the end of the body are ignored, and
a non-empty result ends with one `\r\n`.
-/

namespace ZoneMta

open Ascii

/-- The lines of a body; the last one has no line break. -/
def splitLines : List UInt8 → List (List UInt8)
  | [] => [[]]
  | [c] => [[c]]
  | c :: d :: s =>
    if c = CR ∧ d = LF then [] :: splitLines s
    else (splitLines (d :: s)).modifyHead (c :: ·)

/-- Reduce every run of white space to one space. -/
def reduceWsp : List UInt8 → List UInt8
  | [] => []
  | c :: s =>
    if isWsp c then
      if s.head?.any isWsp then reduceWsp s else SP :: reduceWsp s
    else c :: reduceWsp s

/-- A line without the white space at its end and with single spaces. -/
def relaxLine (l : List UInt8) : List UInt8 := reduceWsp (l.rdropWhile isWsp)

/-- The relaxed body canonicalisation. -/
def relaxedBody (body : List UInt8) : List UInt8 :=
  (((splitLines body).map relaxLine).rdropWhile (·.isEmpty)).flatMap (· ++ [CR, LF])

end ZoneMta
