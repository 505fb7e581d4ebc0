import ZoneMta.ForStd.Ascii
import ZoneMta.ForStd.Stream
import ZoneMta.Native.Buffer

/-!
# LineEnds

The `LineEnds` stream of `lib/line-ends.js`: makes sure that only `<CR><LF>`
sequences are used for line breaks.
-/

namespace ZoneMta

open Ascii

/-- State of the stream. `lastByte` starts as `false`. -/
structure LineEnds where
  inByteCount : Nat
  outByteCount : Nat
  lastByte : Option UInt8
deriving Repr, DecidableEq

namespace LineEnds

/-- The constructor. -/
def init : LineEnds where
  inByteCount := 0
  outByteCount := 0
  lastByte := none

/-- Local variables of the loop in `_transform`. -/
structure Pieces where
  chunks : List (List UInt8)
  chunklen : Nat
  lastPos : Nat

/-- One round of the loop in `_transform`. -/
def transformLoop (chunk : List UInt8) (lastByte : Option UInt8) (v : Pieces) (i : Nat) :
    Pieces :=
  if chunk[i]? = some LF then
    if (i ≠ 0 ∧ chunk[i - 1]? ≠ some CR) ∨ (i = 0 ∧ lastByte ≠ some CR) then
      -- prepend missing \r
      if i > v.lastPos then
        let buf := slice chunk v.lastPos i
        { chunks := v.chunks ++ [buf] ++ [[CR, LF]]
          chunklen := v.chunklen + (buf.length + 2)
          lastPos := i + 1 }
      else
        { chunks := v.chunks ++ [[CR, LF]]
          chunklen := v.chunklen + 2
          lastPos := i + 1 }
    else v
  else v

/-- `_transform`; returns the pushed buffers. -/
def transform (s : LineEnds) (chunk : List UInt8) : LineEnds × List (List UInt8) :=
  if chunk.length = 0 then (s, [])
  else
    let v := (List.range chunk.length).foldl (transformLoop chunk s.lastByte) ⟨[], 0, 0⟩
    if v.chunklen ≠ 0 then
      let buf := slice chunk v.lastPos chunk.length
      -- add last piece
      let chunks := if v.lastPos < chunk.length then v.chunks ++ [buf] else v.chunks
      let chunklen := if v.lastPos < chunk.length then v.chunklen + buf.length else v.chunklen
      ({ inByteCount := s.inByteCount + chunk.length
         outByteCount := s.outByteCount + chunklen
         lastByte := chunk[chunk.length - 1]? },
       [bufferConcat chunks chunklen])
    else
      ({ inByteCount := s.inByteCount + chunk.length
         outByteCount := s.outByteCount + chunk.length
         lastByte := chunk[chunk.length - 1]? },
       [chunk])

/-- The stream fed with a list of chunks. -/
def run (chunks : List (List UInt8)) : LineEnds × List (List UInt8) :=
  ForStd.runStream transform init chunks

end LineEnds

end ZoneMta
