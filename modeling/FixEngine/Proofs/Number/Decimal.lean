import FixEngine.Proofs.Number.Literal

/-!
# The canonical form of decimals

A decimal is written as a literal without needless zeros before the point and with as many
digits after it as the scale says, however few digits the integer has.  The digits denote
the scaled integer wherever the point stands among them, so every decimal is read back.
What stands before the point is the integral part.
-/

namespace FixEngine.Decimal

open Numeral

/-! ### The place of the point -/

theorem allDigits_replicate_zero (n : Nat) : allDigits (List.replicate n Ascii.zero) = true :=
  List.all_eq_true.2 fun b hb => by rw [List.eq_of_mem_replicate hb]; rfl

namespace Magnitude

/-- At least one digit stands before the point, and a zero there only alone.  The point
stands only before other digits, and there are as many as the scale says. -/
structure IsCanonical (scale : Nat) (m : Magnitude) : Prop where
  ne_nil : m.whole ≠ []
  leading : m.whole.head? = some Ascii.zero → m.whole = [Ascii.zero]
  point : m.fraction.isSome = true ↔ 0 < scale
  places : m.places = scale

/-- The digits before the point are what is left of the integer without the others. -/
theorem value_whole (m : Magnitude) : value m.whole = value m.digits / 10 ^ m.places := by
  rw [digits, places, ← valueFrom_zero m.whole, ← valueFrom_zero, valueFrom_append,
    valueFrom_div m.allDigits_fraction]

end Magnitude

/-- A point among digits, with at least one before it. -/
theorem isCanonical_of_pos {scale : Nat} {whole fraction : Bytes} (hscale : 0 < scale)
    (hwhole : allDigits whole = true) (hfraction : allDigits fraction = true) (hne : whole ≠ [])
    (hleading : whole.head? = some Ascii.zero → whole = [Ascii.zero])
    (hlength : fraction.length = scale) :
    Magnitude.IsCanonical scale ⟨whole, some fraction, hwhole, hfraction⟩ :=
  ⟨hne, hleading, by simpa using hscale, hlength⟩

/-- The point is placed among the digits of a number or among zeros before them. -/
theorem exists_placePoint (scale n : Nat) :
    ∃ m : Magnitude, placePoint scale (ofNat n) = m.toBytes ∧ m.IsCanonical scale ∧
      value m.digits = n := by
  have hdigits := allDigits_ofNat n
  have hvalue := value_ofNat n
  have hleading := ofNat_eq_of_head? (n := n)
  have hne := ofNat_ne_nil n
  generalize ofNat n = digits at hdigits hvalue hleading hne
  rw [placePoint]
  split
  · next hscale =>
    subst hscale
    refine ⟨⟨digits, none, hdigits, rfl⟩, rfl, ⟨hne, hleading, by simp, rfl⟩, ?_⟩
    show value (digits ++ []) = n
    rw [List.append_nil, hvalue]
  next hscale =>
  have hpos : 0 < scale := Nat.pos_of_ne_zero hscale
  split
  · next hlength =>
    have hfraction :
        allDigits (List.replicate (scale - digits.length) Ascii.zero ++ digits) = true := by
      rw [allDigits, List.all_append, Bool.and_eq_true]
      exact ⟨allDigits_replicate_zero _, hdigits⟩
    have hcount : (List.replicate (scale - digits.length) Ascii.zero ++ digits).length = scale := by
      rw [List.length_append, List.length_replicate, Nat.sub_add_cancel hlength]
    refine ⟨⟨[Ascii.zero], some _, rfl, hfraction⟩, rfl,
      isCanonical_of_pos hpos rfl hfraction (by simp) (fun _ => rfl) hcount, ?_⟩
    show valueFrom 0 (List.replicate (scale - digits.length) Ascii.zero ++ digits) = n
    rw [valueFrom_append, valueFrom_replicate_zero, valueFrom_zero, hvalue]
  · next hlength =>
    have hsplit := List.take_append_drop (digits.length - scale) digits
    have hboth : allDigits (digits.take (digits.length - scale)) = true ∧
        allDigits (digits.drop (digits.length - scale)) = true := by
      rw [← Bool.and_eq_true, allDigits, allDigits, ← List.all_append, hsplit]
      exact hdigits
    have hcount : (digits.drop (digits.length - scale)).length = scale := by
      rw [List.length_drop]
      omega
    have htake : digits.take (digits.length - scale) ≠ [] := by
      rw [← List.length_pos_iff, List.length_take]
      omega
    have hzero : (digits.take (digits.length - scale)).head? = some Ascii.zero →
        digits.take (digits.length - scale) = [Ascii.zero] := by
      intro hhead
      rw [List.head?_take, if_neg (by omega)] at hhead
      -- A single digit is not longer than the scale.
      have hlength' := congrArg List.length (hleading hhead)
      rw [List.length_singleton] at hlength'
      omega
    refine ⟨⟨_, some _, hboth.1, hboth.2⟩, rfl,
      isCanonical_of_pos hpos hboth.1 hboth.2 htake hzero hcount, ?_⟩
    show value (digits.take (digits.length - scale) ++ digits.drop (digits.length - scale)) = n
    rw [hsplit, hvalue]

/-! ### The canonical form -/

/-- The canonical form is the literal of the scaled integer, with the places of the scale. -/
theorem exists_toBytes (d : Decimal) :
    ∃ m : Magnitude,
      d.toBytes = (if d.scaled.toInt < 0 then [Ascii.minus] else []) ++ m.toBytes ∧
      m.IsCanonical d.scale.toNat ∧ value m.digits = d.scaled.toInt.natAbs := by
  obtain ⟨m, hplace, hcanonical, hvalue⟩ :=
    exists_placePoint d.scale.toNat d.scaled.toInt.natAbs
  refine ⟨m, ?_, hcanonical, hvalue⟩
  rw [toBytes, render, hplace]
  split <;> rfl

theorem Magnitude.IsCanonical.head? {scale : Nat} {m : Magnitude} (h : m.IsCanonical scale) :
    m.toBytes.head? ≠ some Ascii.minus ∧ m.toBytes.head? ≠ some Ascii.plus := by
  obtain ⟨b, rest, hwhole, hminus, hplus⟩ := exists_eq_cons m.allDigits_whole h.ne_nil
  have hhead : m.toBytes.head? = some b := by
    rw [Magnitude.toBytes]
    split <;> rw [hwhole] <;> rfl
  rw [hhead]
  exact ⟨by simpa using hminus, by simpa using hplus⟩

/-- Every decimal is read back from its canonical form. -/
@[simp]
theorem parse_toBytes (d : Decimal) : parse d.toBytes = .ok d := by
  obtain ⟨m, hbytes, hcanonical, hvalue⟩ := d.exists_toBytes
  have hnumber : m.number (decide (d.scaled.toInt < 0)) = d.scaled.toInt := by
    rw [Magnitude.number, hvalue, signed_natAbs]
  have hne : m.digits ≠ [] := by simp [Magnitude.digits, hcanonical.ne_nil]
  refine parse_eq_ok_iff.2 ⟨_, m, ⟨?_, hne⟩, hnumber.symm, hcanonical.places.symm⟩
  rw [hbytes]
  split
  · next hneg =>
    rw [decide_eq_true hneg]
    exact .minus m.toBytes
  · next hneg =>
    rw [decide_eq_false hneg]
    exact .plain hcanonical.head?.1 hcanonical.head?.2

/-- The canonical form has a minus sign exactly if the decimal is negative, at least one digit
and no needless zero before the point, a point exactly if there are places, and a digit for
each of them.  It is read back as the same integer with the same scale. -/
theorem canonical_and_read_back (d : Decimal) :
    (∃ m : Magnitude,
      d.toBytes = (if d.scaled.toInt < 0 then [Ascii.minus] else []) ++ m.toBytes ∧
      m.IsCanonical d.scale.toNat) ∧
    parse d.toBytes = .ok d := by
  obtain ⟨m, hbytes, hcanonical, -⟩ := d.exists_toBytes
  exact ⟨⟨m, hbytes, hcanonical⟩, d.parse_toBytes⟩

/-! ### The integral part -/

/-- A power of ten beyond the 64-bit range is greater than every number in it, the least one
included. -/
theorem natAbs_lt_pow {n : Nat} (h : ¬ fitsInt64 (10 ^ n : Nat) = true) (i : Int64) :
    i.toInt.natAbs < 10 ^ n := by
  have hlow := i.le_toInt
  have hhigh := i.toInt_lt
  have hlarge : 19 ≤ n := by
    by_contra hsmall
    have hle : 10 ^ n ≤ 10 ^ 18 := Nat.pow_le_pow_right (by decide) (by omega)
    generalize 10 ^ n = power at h hle
    simp only [fitsInt64, Bool.and_eq_true, decide_eq_true_eq] at h
    omega
  calc
    i.toInt.natAbs < 10 ^ 19 := by omega
    _ ≤ 10 ^ n := Nat.pow_le_pow_right (by decide) hlarge

/-- The division is exact but for its remainder: nothing overflows. -/
theorem toInt_integralPart (d : Decimal) :
    d.integralPart.toInt = d.scaled.toInt.tdiv (10 ^ d.scale.toNat : Nat) := by
  by_cases hfits : fitsInt64 (10 ^ d.scale.toNat : Nat) = true
  · have hpower : powerOfTen? d.scale.toNat = some (Int64.ofInt (10 ^ d.scale.toNat : Nat)) :=
      if_pos hfits
    have hdivisor := toInt_ofInt_of_fits hfits
    have hne : Int64.ofInt (10 ^ d.scale.toNat : Nat) ≠ -1 := by
      intro hneg
      have hpos : (0 : Int) ≤ (10 ^ d.scale.toNat : Nat) := Int.natCast_nonneg _
      rw [← hdivisor, hneg] at hpos
      contradiction
    simp only [integralPart, hpower]
    rw [Int64.toInt_div_of_ne_right _ _ hne, hdivisor]
  · have hpower : powerOfTen? d.scale.toNat = none := if_neg hfits
    have hlt := natAbs_lt_pow hfits d.scaled
    simp only [integralPart, hpower]
    rw [← signed_natAbs d.scaled.toInt, ← signed_div, Nat.div_eq_of_lt hlt, signed_zero]
    rfl

/-- What stands before the point is the whole part. -/
theorem Magnitude.takeWhile_toBytes (m : Magnitude) :
    m.toBytes.takeWhile (· ≠ Ascii.point) = m.whole := by
  have hplain : ∀ b ∈ m.whole, decide (b ≠ Ascii.point) = true := by
    intro b hb
    refine decide_eq_true ?_
    rintro rfl
    exact not_mem_of_allDigits m.allDigits_whole rfl hb
  rw [Magnitude.toBytes]
  split
  · exact List.takeWhile_eq_self_iff.2 hplain
  · rw [List.takeWhile_append_of_pos hplain]
    simp

/-- The integral part is the scaled integer without its places, truncated toward zero, for
every scale and with no overflow.  It is the integer that the canonical form shows before the
point, where a zero may have a minus sign. -/
theorem integralPart_shown (d : Decimal) :
    d.integralPart.toInt = d.scaled.toInt.tdiv (10 ^ d.scale.toNat : Nat) ∧
      readInt64 (d.toBytes.takeWhile (· ≠ Ascii.point)) = .ok d.integralPart := by
  obtain ⟨m, hbytes, hcanonical, hvalue⟩ := d.exists_toBytes
  have hshown : d.toBytes.takeWhile (· ≠ Ascii.point) =
      if decide (d.scaled.toInt < 0) then Ascii.minus :: m.whole else m.whole := by
    rw [hbytes]
    split
    · next hneg =>
      rw [if_pos (decide_eq_true hneg), List.singleton_append,
        List.takeWhile_cons_of_pos (by decide), m.takeWhile_toBytes]
    · next hneg =>
      rw [if_neg (by simpa using hneg), List.nil_append, m.takeWhile_toBytes]
  have hwhole : signed (decide (d.scaled.toInt < 0)) (value m.whole) = d.integralPart.toInt := by
    rw [m.value_whole, hvalue, hcanonical.places, signed_div, signed_natAbs, toInt_integralPart]
  have hread := readInt_of_fits _ m.allDigits_whole hcanonical.ne_nil
    (by rw [hwhole]; exact fitsInt64_toInt d.integralPart)
  refine ⟨d.toInt_integralPart, ?_⟩
  rw [hshown, readInt64, hread, hwhole]
  show Except.ok (Int64.ofInt d.integralPart.toInt) = _
  rw [Int64.ofInt_toInt]

end FixEngine.Decimal
