import FixEngine.Number.Numeral

/-!
# Checksums

The checksum of a message is the sum of its bytes modulo 256.  It is written
with three digits and read with one to three.
-/

namespace FixEngine.Checksum

/-- A sum with more bytes added, modulo 256. -/
def extend (sum : UInt8) (bytes : Bytes) : UInt8 :=
  bytes.foldl (· + ·) sum

def ofBytes (bytes : Bytes) : UInt8 := extend 0 bytes

@[simp]
theorem extend_nil (sum : UInt8) : extend sum [] = sum := rfl

@[simp]
theorem extend_append (sum : UInt8) (left right : Bytes) :
    extend sum (left ++ right) = extend (extend sum left) right :=
  List.foldl_append

/-- Three digits. -/
def render (sum : UInt8) : Bytes :=
  Numeral.padded 3 sum.toNat

/-- Reads one to three digits with a value below 256. -/
def parse? (bytes : Bytes) : Option UInt8 :=
  if 1 ≤ bytes.length ∧ bytes.length ≤ 3 ∧ Numeral.allDigits bytes ∧ Numeral.value bytes ≤ 255
  then some (UInt8.ofNat (Numeral.value bytes))
  else none

end FixEngine.Checksum
