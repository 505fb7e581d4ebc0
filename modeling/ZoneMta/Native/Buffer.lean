import Mathlib

/-!
# Buffer

The operations of Node's `Buffer` that the streams and the frame parser use, on byte
lists.
-/

namespace ZoneMta

/-- `chunk.slice(i, j)`. -/
def slice (chunk : List UInt8) (i j : Nat) : List UInt8 :=
  (chunk.take j).drop i

/-- `Buffer.concat(list, totalLength)`: cut or padded with zeros to the given length. -/
def bufferConcat (list : List (List UInt8)) (totalLength : Nat) : List UInt8 :=
  list.flatten.take totalLength ++
    List.replicate (totalLength - list.flatten.length) 0

theorem bufferConcat_length (list : List (List UInt8)) :
    bufferConcat list list.flatten.length = list.flatten := by
  rw [bufferConcat, List.take_length, Nat.sub_self, List.replicate_zero, List.append_nil]

/-- The bytes that `buf.writeUInt32LE(value, 0)` writes. -/
def uint32LE (value : Nat) : List UInt8 :=
  [UInt8.ofNat value, UInt8.ofNat (value / 2 ^ 8), UInt8.ofNat (value / 2 ^ 16),
    UInt8.ofNat (value / 2 ^ 24)]

/-- `buf.readUInt32LE(0)`. -/
def readUInt32LE (buf : List UInt8) : Nat :=
  (buf.getD 0 0).toNat + 2 ^ 8 * (buf.getD 1 0).toNat + 2 ^ 16 * (buf.getD 2 0).toNat +
    2 ^ 24 * (buf.getD 3 0).toNat

@[simp] theorem length_uint32LE (value : Nat) : (uint32LE value).length = 4 := rfl

/-- What was written is read back. -/
theorem readUInt32LE_uint32LE {value : Nat} (h : value < 2 ^ 32) (t : List UInt8) :
    readUInt32LE (uint32LE value ++ t) = value := by
  simp only [readUInt32LE, uint32LE, List.cons_append, List.nil_append, List.getD_cons_zero,
    List.getD_cons_succ, UInt8.toNat_ofNat']
  omega

end ZoneMta
