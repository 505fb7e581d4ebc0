/-!
# IP addresses

`net.isIPv4` and `net.isIPv6`: four decimal numbers, or eight segments of which a `::` can stand
for one or more, with a decimal address for the last two and a zone behind `%`.
-/

namespace ZoneMta

namespace Net

/-- A number up to 255 without a leading zero. -/
def isOctet (s : List Char) : Bool :=
  s.all (·.isDigit) && (s.length == 1 || (s.length == 2 || s.length == 3) && s.head? != some '0') &&
    Nat.ofDigitChars 10 s 0 ≤ 255

def isDotted (s : List Char) : Bool :=
  let parts := s.splitOn '.'
  parts.length == 4 && parts.all isOctet

/-- `net.isIPv4` -/
def isIPv4 (s : String) : Bool := isDotted s.toList

/-- One to four hexadecimal digits. -/
def isSegment (s : List Char) : Bool :=
  1 ≤ s.length && s.length ≤ 4 && s.all fun c => c.isDigit ||
    'a' ≤ c && c ≤ 'f' || 'A' ≤ c && c ≤ 'F'

/-- How many segments the text has; a decimal address at its end counts for two. -/
def segments (dotted : Bool) (s : List Char) : Option Nat :=
  if s.isEmpty then some 0
  else
    let parts := s.splitOn ':'
    if parts.all isSegment then some parts.length
    else if dotted && parts.dropLast.all isSegment && parts.getLast?.any isDotted then
      some (parts.length + 1)
    else none

/-- The text before and after the first `::`. -/
def cutDouble : List Char → Option (List Char × List Char)
  | [] => none
  | ':' :: ':' :: rest => some ([], rest)
  | c :: rest => (cutDouble rest).map fun (before, after) => (c :: before, after)

def isSegmented (s : List Char) : Bool :=
  match cutDouble s with
  | none => segments true s == some 8
  | some (before, after) =>
    match segments false before, segments true after with
    | some n, some m => n + m ≤ 7
    | _, _ => false

/-- `net.isIPv6` -/
def isIPv6 (s : String) : Bool :=
  let address := s.toList.takeWhile (· != '%')
  isSegmented address &&
    match s.toList.dropWhile (· != '%') with
    | [] => true
    | _ :: zone => !zone.isEmpty && zone.all fun c => c.isAlphanum || c == '-' || c == '.' || c == ':'

end Net

end ZoneMta
