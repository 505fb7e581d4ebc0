import Mathlib
import ZoneMta.ForStd.AList
import ZoneMta.Native.DkimRelaxedBody

/-!
# DKIM signature headers

`relaxedHeaders` and `relaxedHeaderLine` of `lib/dkim-sign.js`: the header fields that a
signature covers and their canonical form. Lines and names are binary strings, which are byte
lists as in `DkimRelaxedBody`. A parsed header is a list of its lines, each with the key under
which the parser files it.
-/

namespace ZoneMta

namespace DkimSign

open Ascii
open ForStd (Map replaceAll)

/-- `\s` -/
def isSpace (c : UInt8) : Bool := 0x09 ≤ c && c ≤ 0x0d || c == 0x20 || c == 0xa0

/-- `toLowerCase` -/
def toLowerCase (s : List UInt8) : List UInt8 :=
  s.map fun c =>
    if 0x41 ≤ c && c ≤ 0x5a || 0xc0 ≤ c && c ≤ 0xde && c != 0xd7 then c + 0x20 else c

/-- `trim` -/
def trim (s : List UInt8) : List UInt8 := (s.dropWhile isSpace).rdropWhile isSpace

/-- `/\s+/` -/
def RegExp.spaces (t : List UInt8) : Option Nat :=
  if (t.takeWhile isSpace).length = 0 then none else some (t.takeWhile isSpace).length

/-- A line of `getList`. -/
structure Line where
  key : List UInt8
  line : List UInt8
deriving Repr, DecidableEq

/-- `line.substr(line.indexOf(':') + 1)` -/
def afterColon (line : List UInt8) : List UInt8 :=
  if COLON ∈ line then (line.dropWhile (· != COLON)).tail else line

/-- `relaxedHeaderLine` -/
def relaxedHeaderLine (line : List UInt8) : List UInt8 :=
  let value := afterColon line
  let value := replaceAll ZoneMta.RegExp.lineBreak [] value
  let value := replaceAll RegExp.spaces [SP] value
  trim value

/-- `add` of a `Set`, which keeps the order of its elements. -/
def add (set : List (List UInt8)) (field : List UInt8) : List (List UInt8) :=
  if field ∈ set then set else set ++ [field]

/-- `includedFields` -/
def includedFields (fieldNames : List UInt8) : List (List UInt8) :=
  ((toLowerCase fieldNames).splitOn COLON).foldl (fun set field => add set (trim field)) []

/-- One line in the loop over `headerLines`. -/
def includeLine (included : List (List UInt8)) (headerFields : Map (List UInt8) (List UInt8))
    (line : Line) : Map (List UInt8) (List UInt8) :=
  -- only include the first value from bottom to top
  if line.key ∈ included ∧ (headerFields.lookup line.key).isNone then
    headerFields.insert line.key (relaxedHeaderLine line.line)
  else headerFields

/-- What `relaxedHeaders` returns. -/
structure Relaxed where
  headers : List UInt8
  fieldNames : List UInt8
deriving Repr, DecidableEq

/-- `relaxedHeaders` -/
def relaxedHeaders (headerLines : List Line) (fieldNames : List UInt8) : Relaxed :=
  let included := includedFields fieldNames
  let headerFields := headerLines.reverse.foldl (includeLine included) ∅
  let headersList := included.filterMap fun field =>
    (headerFields.lookup field).map fun value => field ++ COLON :: value
  let fields := included.filter fun field => (headerFields.lookup field).isSome
  { headers := [CR, LF].intercalate headersList ++ [CR, LF]
    fieldNames := [COLON].intercalate fields }

end DkimSign

end ZoneMta
