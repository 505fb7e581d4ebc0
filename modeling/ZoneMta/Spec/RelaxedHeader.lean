import Mathlib
import ZoneMta.Spec.RelaxedBody

/-!
# Relaxed header canonicalisation

The header fields of a message, the "relaxed" header canonicalisation of DKIM (RFC 6376 section
3.4.2), and what a verifier makes of the `h=` tag of a signature (sections 3.5 and 5.4.2): it takes
the fields in the order of the tag, and of the fields with one name it takes the last one first.
-/

namespace ZoneMta

open Ascii

namespace RelaxedHeader

/-- The characters of a field name. -/
def isFtext (c : UInt8) : Bool := 33 ≤ c && c ≤ 126 && c != COLON

/-- ASCII lower case. -/
def lower (s : List UInt8) : List UInt8 :=
  s.map fun c => if 65 ≤ c && c ≤ 90 then c + 32 else c

/-- A header field: a name, perhaps white space, and behind the colon any octets. -/
structure HeaderField where
  name : List UInt8
  blanks : List UInt8
  body : List UInt8
  name_ne_nil : name ≠ []
  isFtext_name : ∀ c ∈ name, isFtext c = true
  isWsp_blanks : ∀ c ∈ blanks, isWsp c = true
deriving DecidableEq

/-- The line of a field, with its folds. -/
def HeaderField.line (h : HeaderField) : List UInt8 := h.name ++ h.blanks ++ COLON :: h.body

/-- Without the line breaks of folds. -/
def unfold : List UInt8 → List UInt8
  | [] => []
  | [c] => [c]
  | c :: d :: s =>
    if c = CR ∧ d = LF ∧ s.head?.any isWsp then unfold s else c :: unfold (d :: s)

/-- Without the white space at both ends. -/
def strip (s : List UInt8) : List UInt8 := (s.dropWhile isWsp).rdropWhile isWsp

/-- The canonical body of a field. -/
def relaxBody (body : List UInt8) : List UInt8 := strip (reduceWsp (unfold body))

/-- The name on a line. -/
def fieldName (line : List UInt8) : List UInt8 :=
  lower ((line.takeWhile (· != COLON)).rdropWhile isWsp)

/-- The body on a line. -/
def fieldBody (line : List UInt8) : List UInt8 := (line.dropWhile (· != COLON)).tail

/-- The canonical form of a line. -/
def relaxField (line : List UInt8) : List UInt8 :=
  fieldName line ++ COLON :: relaxBody (fieldBody line) ++ [CR, LF]

/-- The canonical forms of the fields with the names, from lines in the order from the bottom
    of the header; a line is used once. -/
def signedFields : List (List UInt8) → List (List UInt8) → List UInt8
  | _, [] => []
  | unused, name :: names =>
    let named := fun line => fieldName line == lower name
    match unused.find? named with
    | none => signedFields unused names
    | some line => relaxField line ++ signedFields (unused.eraseP named) names

/-- The names of an `h=` tag. -/
def tagNames (tag : List UInt8) : List (List UInt8) := (tag.splitOn COLON).map strip

/-- What a verifier hashes of a header. -/
def verifiedHeaders (lines : List (List UInt8)) (tag : List UInt8) : List UInt8 :=
  signedFields lines.reverse (tagNames tag)

end RelaxedHeader

end ZoneMta
