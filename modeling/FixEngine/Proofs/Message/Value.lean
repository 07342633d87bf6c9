import FixEngine.Message.Value
import FixEngine.Proofs.Number.Numeral
import FixEngine.Proofs.Text.Utf8

/-!
# The written forms of values

A value other than a text or a character has a written form that is not empty
and does not hold the delimiter.  A text has one if it is not empty and does not
hold the delimiter itself, which is what the encoder checks.
-/

namespace FixEngine

/-- The bytes may stand as a value on the wire. -/
structure Bytes.IsWritable (bytes : Bytes) : Prop where
  ne_nil : bytes ≠ []
  soh_not_mem : Ascii.soh ∉ bytes

/-! ### Numbers -/

namespace Numeral

theorem soh_not_mem {bytes : Bytes} (h : allDigits bytes = true) : Ascii.soh ∉ bytes :=
  not_mem_of_allDigits h rfl

theorem isWritable_ofNat (n : Nat) : Bytes.IsWritable (ofNat n) :=
  ⟨ofNat_ne_nil n, soh_not_mem (allDigits_ofNat n)⟩

theorem isWritable_padded (width n : Nat) : Bytes.IsWritable (padded width n) :=
  ⟨padded_ne_nil width n, soh_not_mem (allDigits_padded width n)⟩

end Numeral

namespace Bytes.IsWritable

variable {left right : Bytes} {b : UInt8}

theorem append (hleft : IsWritable left) (hright : Ascii.soh ∉ right) :
    IsWritable (left ++ right) :=
  ⟨by simp [hleft.ne_nil], by simp [hleft.soh_not_mem, hright]⟩

theorem cons (hb : Ascii.soh ≠ b) (hright : Ascii.soh ∉ right) : IsWritable (b :: right) :=
  ⟨List.cons_ne_nil b right, by simp [hb, hright]⟩

end Bytes.IsWritable

open Numeral

theorem Numeral.isWritable_ofInt (i : Int) : Bytes.IsWritable (ofInt i) := by
  rw [ofInt]
  split
  · exact .cons (by decide) (isWritable_ofNat i.natAbs).soh_not_mem
  · exact isWritable_ofNat i.natAbs

/-- The digits around a point are those of the number and some zeros. -/
theorem Decimal.isWritable_placePoint {scale : Nat} {digits : Bytes}
    (h : Bytes.IsWritable digits) : Bytes.IsWritable (placePoint scale digits) := by
  have hsoh := h.soh_not_mem
  rw [placePoint]
  split
  · exact h
  split
  · have hzeros : Ascii.soh ∉ List.replicate (scale - digits.length) Ascii.zero :=
      fun hmem => absurd (List.eq_of_mem_replicate hmem) (by decide)
    have htail : Bytes.IsWritable
        (Ascii.point :: (List.replicate (scale - digits.length) Ascii.zero ++ digits)) :=
      .cons (by decide) (by simp [hzeros, hsoh])
    exact .cons (by decide) htail.soh_not_mem
  · have htake : Ascii.soh ∉ digits.take (digits.length - scale) :=
      fun hmem => hsoh (List.mem_of_mem_take hmem)
    have hdrop : Bytes.IsWritable (Ascii.point :: digits.drop (digits.length - scale)) :=
      .cons (by decide) fun hmem => hsoh (List.mem_of_mem_drop hmem)
    exact ⟨by simp, by simp only [List.mem_append, htake, hdrop.soh_not_mem, or_self,
      not_false_eq_true]⟩

theorem Decimal.isWritable_toBytes (d : Decimal) : Bytes.IsWritable d.toBytes := by
  have hdigits : Bytes.IsWritable
      (placePoint d.scale.toNat (Numeral.ofNat d.scaled.toInt.natAbs)) :=
    isWritable_placePoint (isWritable_ofNat d.scaled.toInt.natAbs)
  rw [toBytes, render]
  split
  · exact .cons (by decide) hdigits.soh_not_mem
  · exact hdigits

/-! ### Times -/

theorem Date.isWritable_yearBytes (year : Int) : Bytes.IsWritable (yearBytes year) := by
  rw [yearBytes]
  split
  · exact isWritable_padded 4 year.toNat
  · refine .cons ?_ (isWritable_padded 4 year.natAbs).soh_not_mem
    split <;> decide

theorem Date.isWritable_toBytes (d : Date) : Bytes.IsWritable d.toBytes :=
  ((isWritable_yearBytes d.year).append (isWritable_padded 2 d.month).soh_not_mem).append
    (isWritable_padded 2 d.day).soh_not_mem

theorem TimeOfDay.isWritable_clockBytes (t : TimeOfDay) : Bytes.IsWritable t.clockBytes := by
  have hhour := isWritable_padded 2 t.hour
  have hminute := isWritable_padded 2 t.minute
  have hsecond := isWritable_padded 2 t.clockSecond
  have hrest : Bytes.IsWritable (0x3A :: Numeral.padded 2 t.clockSecond) :=
    .cons (by decide) hsecond.soh_not_mem
  have htail := hminute.append hrest.soh_not_mem
  exact hhour.append (Bytes.IsWritable.cons (by decide) htail.soh_not_mem).soh_not_mem

theorem Fraction.soh_not_mem_render (nanos : Nat) (precision : Precision) :
    Ascii.soh ∉ render nanos precision := by
  rw [render]
  split
  · exact List.not_mem_nil
  · exact (Bytes.IsWritable.cons (by decide) (isWritable_padded _ _).soh_not_mem).soh_not_mem

theorem TimeOnly.isWritable_toBytes (t : TimeOnly) : Bytes.IsWritable t.toBytes :=
  t.time.isWritable_clockBytes.append (Fraction.soh_not_mem_render _ _)

theorem Timestamp.isWritable_toBytes (t : Timestamp) : Bytes.IsWritable t.toBytes := by
  have hclock : Bytes.IsWritable (Ascii.minus :: t.time.clockBytes) :=
    .cons (by decide) t.time.isWritable_clockBytes.soh_not_mem
  exact (t.date.isWritable_toBytes.append hclock.soh_not_mem).append
    (Fraction.soh_not_mem_render _ _)

/-! ### Texts -/

@[simp]
theorem Utf8.encode_eq_nil_iff (text : String) : Utf8.encode text = [] ↔ text = "" := by
  constructor
  · intro h
    have hdecode := Utf8.decode?_encode text
    rw [h] at hdecode
    exact (Option.some.inj hdecode).symm
  · intro h
    subst h
    rfl

@[simp]
theorem Utf8.encode_ofList_singleton (c : Char) :
    Utf8.encode (String.ofList [c]) = String.utf8EncodeChar c := by
  simp [Utf8.encode]

end FixEngine
