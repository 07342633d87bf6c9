import FixEngine.Proofs.Number.Numeral
import FixEngine.Wire.Checksum
import Mathlib.Algebra.GroupWithZero.Nat

/-!
# Sums and their digits

A checksum is the sum of all bytes modulo 256, and its written form is read back.
-/

namespace FixEngine.Checksum

theorem toNat_extend (sum : UInt8) (bytes : Bytes) :
    (extend sum bytes).toNat = (sum.toNat + (bytes.map UInt8.toNat).sum) % 256 := by
  induction bytes generalizing sum with
  | nil =>
    have hlt : sum.toNat < 256 := sum.toNat_lt
    simp [Nat.mod_eq_of_lt hlt]
  | cons b rest ih =>
    have hcons : extend sum (b :: rest) = extend (sum + b) rest := rfl
    rw [hcons, ih, UInt8.toNat_add, List.map_cons, List.sum_cons]
    omega

/-- Sums that are told apart stay apart when the same bytes are added. -/
theorem extend_left_inj (bytes : Bytes) {left right : UInt8} :
    extend left bytes = extend right bytes ↔ left = right := by
  induction bytes generalizing left right with
  | nil => exact Iff.rfl
  | cons b rest ih =>
    have hcons (sum : UInt8) : extend sum (b :: rest) = extend (sum + b) rest := rfl
    rw [hcons, hcons, ih, UInt8.add_left_inj]

/-- A byte that changes changes the sum. -/
theorem ofBytes_around_inj {front back : Bytes} {left right : UInt8} :
    ofBytes (front ++ left :: back) = ofBytes (front ++ right :: back) ↔ left = right := by
  have hcons (sum b : UInt8) : extend sum (b :: back) = extend (sum + b) back := rfl
  rw [ofBytes, ofBytes, extend_append, extend_append, hcons, hcons, extend_left_inj,
    UInt8.add_right_inj]

/-- A checksum is read from one to three digits that write it. -/
theorem parse?_eq_some_iff {bytes : Bytes} {sum : UInt8} :
    parse? bytes = some sum ↔
      1 ≤ bytes.length ∧ bytes.length ≤ 3 ∧ Numeral.allDigits bytes = true ∧
        Numeral.value bytes = sum.toNat := by
  have hlt : sum.toNat < 256 := sum.toNat_lt
  rw [parse?]
  constructor
  · intro h
    split at h
    · next hread =>
      injection h with h
      refine ⟨hread.1, hread.2.1, hread.2.2.1, ?_⟩
      rw [← h, UInt8.toNat_ofNat_of_lt' (show Numeral.value bytes < 256 by omega)]
    · contradiction
  · rintro ⟨hpos, hlength, hdigits, hvalue⟩
    rw [if_pos ⟨hpos, hlength, hdigits, by omega⟩, hvalue, UInt8.ofNat_toNat]

/-- Two written forms of a sum do not differ in one byte. -/
theorem eq_of_parse?_around {front back : Bytes} {left right sum : UInt8}
    (hleft : parse? (front ++ left :: back) = some sum)
    (hright : parse? (front ++ right :: back) = some sum) : left = right := by
  obtain ⟨-, -, hleftDigits, hleftValue⟩ := parse?_eq_some_iff.1 hleft
  obtain ⟨-, -, hrightDigits, hrightValue⟩ := parse?_eq_some_iff.1 hright
  exact (Numeral.value_around_inj hleftDigits hrightDigits).1
    (hleftValue.trans hrightValue.symm)

@[simp]
theorem parse?_render (sum : UInt8) : parse? (render sum) = some sum := by
  have hlt : sum.toNat < 256 := sum.toNat_lt
  have hlength : (render sum).length = 3 := Numeral.length_padded (by omega) (by omega)
  rw [parse?_eq_some_iff, hlength]
  exact ⟨by omega, by omega, Numeral.allDigits_padded 3 sum.toNat, Numeral.value_padded 3 sum.toNat⟩

end FixEngine.Checksum
