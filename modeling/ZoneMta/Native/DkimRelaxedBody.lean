import ZoneMta.ForStd.Replace
import ZoneMta.Native.LineEnds

/-!
# DkimRelaxedBody

The `DkimRelaxedBody` stream of `lib/dkim-relaxed-body.js`: streams through a
message body and calculates the relaxed body hash. The hash function is opaque, so
the model records the bytes that are given to `bodyHash.update`. Binary strings are
byte lists, as `toString('binary')` and `Buffer.from(s, 'binary')` are inverse to
each other.
-/

namespace ZoneMta

open Ascii

/-! ## Regular expressions of `updateHash` -/

namespace RegExp

/-- `$` with the `m` flag, at the head of the rest of the input. -/
def lineEnd : List UInt8 → Bool
  | [] => true
  | c :: _ => isEol c

/-- `/\r?\n/` -/
def lineBreak : List UInt8 → Option Nat
  | [] => none
  | c :: t =>
    if c = CR ∧ t.head? = some LF then some 2
    else if c = LF then some 1
    else none

/-- `/[ \t]*$/m` -/
def trailingSpace (t : List UInt8) : Option Nat :=
  if lineEnd (t.dropWhile isWsp) then some (t.takeWhile isWsp).length else none

/-- `/[ \t]+/` -/
def space (t : List UInt8) : Option Nat :=
  if (t.takeWhile isWsp).length = 0 then none else some (t.takeWhile isWsp).length

/-- `/\n/` -/
def newline (t : List UInt8) : Option Nat :=
  if t.head? = some LF then some 1 else none

end RegExp

open ForStd (replaceAll)

/-- The four replacements of `updateHash`. -/
def fixBody (bodyStr : List UInt8) : List UInt8 :=
  let bodyStr := replaceAll RegExp.lineBreak [LF] bodyStr -- use js line endings
  let bodyStr := replaceAll RegExp.trailingSpace [] bodyStr -- remove line endings, rtrim
  let bodyStr := replaceAll RegExp.space [SP] bodyStr -- single spaces
  replaceAll RegExp.newline [CR, LF] bodyStr -- restore rfc822 line endings

/-- State of the stream; `hashed` collects the arguments of `bodyHash.update`. -/
structure DkimRelaxedBody where
  remainder : List UInt8
  byteLength : Nat
  hashed : List UInt8
deriving Repr, DecidableEq

namespace DkimRelaxedBody

/-- The constructor. -/
def init : DkimRelaxedBody where
  remainder := []
  byteLength := 0
  hashed := []

/-- The variable `state` of the backward scan. -/
inductive ScanState where
  | file
  | line
  | body
deriving Repr, DecidableEq

/-- How the backward scan ends: the chunk joins the remainder, or it is split into
    the part to hash (`none` when `chunk` was set to `false`) and the next remainder. -/
inductive Scan where
  | keep
  | split (chunk : Option (List UInt8)) (nextRemainder : List UInt8)
deriving Repr, DecidableEq

/-- The state after looking at byte `c`. -/
def scanByte (state : ScanState) (c : UInt8) : ScanState :=
  if state = .file ∧ isEol c then
    .file -- found \r or \n at the end of chunk, still end of file
  else if state = .file ∧ isWsp c then
    .line -- switch to line ending mode
  else if state = .line ∧ isWsp c then
    .line -- keep processing the last non-empty line
  else if state = .file ∨ state = .line then
    .body -- non line/file ending character found, switch to body mode
  else state

/-- The backward loop of `updateHash`; the last argument is `i + 1`. -/
def scan (remainder chunk : List UInt8) (state : ScanState) : Nat → Scan
  | 0 => .split (some chunk) []
  | i + 1 =>
    let state := scanByte state (chunk.getD i 0)
    if state = .body ∧ i = chunk.length - 1 then
      -- final char is not part of line end or file end, so do nothing
      .split (some chunk) []
    else if i = 0 ∧
        ((state = .file ∧ (remainder = [] ∨ endsEol remainder)) ∨
          (state = .line ∧ (remainder = [] ∨ endsWsp remainder))) then
      .keep
    else if i = 0 ∧ (state = .line ∨ state = .file) then
      -- process existing remainder as normal line but store the current chunk
      .split none chunk
    else if state ≠ .body then
      scan remainder chunk state i
    else
      -- reached first non ending byte
      .split (some (chunk.take (i + 1))) (chunk.drop (i + 1))

/-- The check whether the chunk needs to be changed, at position `i`. -/
def needsFixingAt (chunk : List UInt8) (i : Nat) : Bool :=
  (i != 0 && chunk[i]? == some LF && chunk[i - 1]? != some CR) || -- missing \r before \n
  (i != 0 && chunk[i]? == some CR && chunk[i - 1]? == some SP) || -- trailing WSP found
  (i != 0 && chunk[i]? == some SP && chunk[i - 1]? == some SP) || -- multiple spaces found
  chunk[i]? == some TAB -- TAB found

/-- The whole check. -/
def needsFixing (chunk : List UInt8) : Bool :=
  (List.range chunk.length).any (needsFixingAt chunk)

/-- `updateHash` once the chunk has been split. `chunk` is only `none` (the `false` of
    the source) when there is a remainder to fix, see `scan_none`. -/
def hashPiece (s : DkimRelaxedBody) (chunk : Option (List UInt8))
    (nextRemainder : List UInt8) : DkimRelaxedBody :=
  if s.remainder ≠ [] ∨ chunk.any needsFixing then
    { s with
      remainder := nextRemainder
      hashed := s.hashed ++ fixBody (s.remainder ++ chunk.getD []) }
  else
    { s with
      remainder := if nextRemainder ≠ [] then nextRemainder else s.remainder
      hashed := s.hashed ++ chunk.getD [] }

/-- `updateHash`. -/
def updateHash (s : DkimRelaxedBody) (chunk : List UInt8) : DkimRelaxedBody :=
  match scan s.remainder chunk .file chunk.length with
  | .keep => { s with remainder := s.remainder ++ chunk } -- keep everything
  | .split piece nextRemainder => s.hashPiece piece nextRemainder

/-- `_transform`; returns the pushed buffers. -/
def transform (s : DkimRelaxedBody) (chunk : List UInt8) : DkimRelaxedBody × List (List UInt8) :=
  if chunk.length = 0 then (s, [])
  else
    let s := s.updateHash chunk
    ({ s with byteLength := s.byteLength + chunk.length }, [chunk])

/-- `_flush`; returns the pushed buffers. -/
def flush (s : DkimRelaxedBody) : DkimRelaxedBody × List (List UInt8) :=
  let hashed :=
    -- add terminating line end
    if endsEol s.remainder ∧ s.byteLength > 2 then s.hashed ++ [CR, LF] else s.hashed
  -- emit empty line buffer to keep the stream flowing
  ({ s with hashed := hashed }, if s.byteLength = 0 then [[CR, LF]] else [])

/-- What a finished stream has produced: the bytes that were hashed, the reported
    `byteLength` and the bytes passed downstream. -/
structure Result where
  hashed : List UInt8
  byteLength : Nat
  pushed : List UInt8
deriving Repr, DecidableEq

/-- The stream fed with a list of chunks and then ended. -/
def run (chunks : List (List UInt8)) : Result :=
  let (s, pushed) := ForStd.runStream transform init chunks
  let (s, last) := s.flush
  { hashed := s.hashed, byteLength := s.byteLength, pushed := (pushed ++ last).flatten }

end DkimRelaxedBody

end ZoneMta
