import Mathlib

/-!
# Go strings

A string of Go is a sequence of bytes, read as UTF-8 by the functions of `strings`: here it is
the list of its characters and of the bytes that belong to none.
-/

namespace ForStd

/-- What `range` finds in a string. -/
inductive Rune where
  | char (c : Char)
  | invalid (byte : UInt8)
deriving Repr, DecidableEq

namespace Rune

/-- `unicode.IsSpace` -/
def isSpace : Rune → Bool
  | .char c =>
    c ∈ ['\t', '\n', '\x0b', '\x0c', '\r', ' ', '\u0085', '\u00a0', '\u1680', '\u2028', '\u2029',
      '\u202f', '\u205f', '\u3000'] || ('\u2000' ≤ c && c ≤ '\u200a')
  | .invalid _ => false

/-- `unicode.ToUpper`, where it matters for ASCII: two letters outside ASCII have an upper case
    in it, and the other ones stay outside. An invalid byte becomes the replacement character. -/
def toUpper : Rune → Rune
  | .char c =>
    .char (if c = '\u0131' then 'I' else if c = '\u017f' then 'S' else c.toUpper)
  | .invalid _ => .char '\ufffd'

end Rune

/-- A string. -/
abbrev GoString := List Rune

namespace GoString

/-- A constant. -/
def ofString (s : String) : GoString := s.toList.map .char

/-- `strings.ToUpper` -/
def toUpper (s : GoString) : GoString := s.map Rune.toUpper

/-- `strings.Fields` -/
def fields (s : GoString) : List GoString := (s.splitOnP Rune.isSpace).filter (· ≠ [])

/-- `strings.Join` -/
def join (sep : GoString) (parts : List GoString) : GoString := sep.intercalate parts

/-- `strings.TrimSpace` -/
def trimSpace (s : GoString) : GoString :=
  ((s.dropWhile Rune.isSpace).reverse.dropWhile Rune.isSpace).reverse

/-- `strings.HasPrefix` -/
def hasPrefix (s start : GoString) : Bool := start.isPrefixOf s

/-- `strings.HasSuffix` -/
def hasSuffix (s tail : GoString) : Bool := tail.isSuffixOf s

end GoString

end ForStd
