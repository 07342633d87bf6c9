/-!
# Bytes and ASCII

A wire text is a list of bytes.  This module names the few ASCII bytes that the
format is built from and reads single decimal digits.
-/

namespace FixEngine

/-- A byte string, first byte first. -/
abbrev Bytes := List UInt8

namespace Ascii

/-- The delimiter that ends every field on the wire. -/
def soh : UInt8 := 0x01

/-- The byte `=` between a tag and its value. -/
def equals : UInt8 := 0x3D

def point : UInt8 := 0x2E

def plus : UInt8 := 0x2B

def minus : UInt8 := 0x2D

def zero : UInt8 := 0x30

/-- The byte `Y`, the true value of a flag. -/
def yes : UInt8 := 0x59

/-- The byte `N`, the false value of a flag. -/
def no : UInt8 := 0x4E

def isDigit (b : UInt8) : Bool := 0x30 ≤ b && b ≤ 0x39

def digitValue (b : UInt8) : Nat := b.toNat - 0x30

@[simp]
theorem isDigit_iff (b : UInt8) : isDigit b = true ↔ 0x30 ≤ b.toNat ∧ b.toNat ≤ 0x39 := by
  simp [isDigit, UInt8.le_iff_toNat_le]

theorem digitValue_lt {b : UInt8} (h : isDigit b = true) : digitValue b < 10 := by
  have := (isDigit_iff b).1 h
  unfold digitValue
  omega

end Ascii

end FixEngine
