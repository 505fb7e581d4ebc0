import Mathlib

/-!
# MessagePack

Values and their encoding: a byte, or a header with a length and what it counts. Numbers are
natural ones below `2 ^ 32`.

## Key results

- `encode_ne_nil`: an encoding has at least one byte
- `length_encodeList_replicate`: the encoding of a list of equal values
-/

namespace ForStd

namespace MsgPack

/-- The values. -/
inductive Value where
  | nil
  | bool (b : Bool)
  | nat (n : Nat)
  | str (s : String)
  | array (values : List Value)
  | map (keys : List String) (values : List Value)

/-- The big-endian bytes of a number. -/
def bytesBE (n : Nat) : Nat → List UInt8
  | 0 => []
  | k + 1 => UInt8.ofNat (n / 256 ^ k) :: bytesBE n k

/-- A length, in the first byte if it is below `limit`. -/
def header (fix : Nat) (limit : Nat) (b16 b32 : UInt8) (length : Nat) : List UInt8 :=
  if length < limit then [UInt8.ofNat (fix + length)]
  else if length < 2 ^ 16 then b16 :: bytesBE length 2
  else b32 :: bytesBE length 4

def encodeNat (n : Nat) : List UInt8 :=
  if n < 128 then [UInt8.ofNat n]
  else if n < 2 ^ 8 then 0xcc :: bytesBE n 1
  else if n < 2 ^ 16 then 0xcd :: bytesBE n 2
  else 0xce :: bytesBE n 4

def encodeStr (s : String) : List UInt8 :=
  header 0xa0 0x20 0xda 0xdb s.toUTF8.size ++ s.toUTF8.data.toList

mutual

/-- The encoding of a value. -/
def encode : Value → List UInt8
  | .nil => [0xc0]
  | .bool false => [0xc2]
  | .bool true => [0xc3]
  | .nat n => encodeNat n
  | .str s => encodeStr s
  | .array values => header 0x90 0x10 0xdc 0xdd values.length ++ encodeList values
  | .map keys values => header 0x80 0x10 0xde 0xdf values.length ++ encodeFields keys values

def encodeList : List Value → List UInt8
  | [] => []
  | value :: values => encode value ++ encodeList values

def encodeFields : List String → List Value → List UInt8
  | key :: keys, value :: values => encodeStr key ++ encode value ++ encodeFields keys values
  | _, _ => []

end

theorem header_ne_nil (fix limit : Nat) (b16 b32 : UInt8) (length : Nat) :
    header fix limit b16 b32 length ≠ [] := by
  unfold header
  split
  · exact nofun
  · split <;> exact nofun

theorem length_bytesBE (n k : Nat) : (bytesBE n k).length = k := by
  induction k with
  | zero => rfl
  | succ k ih => rw [bytesBE, List.length_cons, ih]

theorem length_header_le (fix limit : Nat) (b16 b32 : UInt8) (length : Nat) :
    (header fix limit b16 b32 length).length ≤ 5 := by
  unfold header
  split
  · exact Nat.le_add_left 1 4
  · split <;> simp [length_bytesBE]

/-- Every value has an encoding. -/
theorem encode_ne_nil (value : Value) : encode value ≠ [] := by
  cases value with
  | nil => exact nofun
  | bool b => cases b <;> exact nofun
  | nat n =>
    unfold encode encodeNat
    split
    · exact nofun
    · split
      · exact nofun
      · split <;> exact nofun
  | str s => exact List.append_ne_nil_of_left_ne_nil (header_ne_nil _ _ _ _ _) _
  | array values => exact List.append_ne_nil_of_left_ne_nil (header_ne_nil _ _ _ _ _) _
  | map keys values => exact List.append_ne_nil_of_left_ne_nil (header_ne_nil _ _ _ _ _) _

theorem length_encodeList_replicate (value : Value) (n : Nat) :
    (encodeList (List.replicate n value)).length = n * (encode value).length := by
  induction n with
  | zero => rw [Nat.zero_mul]; rfl
  | succ n ih =>
    rw [List.replicate_succ, encodeList, List.length_append, ih]
    rw [Nat.succ_mul, Nat.add_comm]

end MsgPack

end ForStd
