import FixEngine.Number.Numeral
import Mathlib.Algebra.Group.Nat.Defs

/-!
# Reading back numerals

The numeral of a number consists of digits, denotes the number and reads back
as it.
-/

namespace FixEngine.Numeral

/-! ### The number that digits denote -/

/-- The number that digits denote after a number that was read before them. -/
def valueFrom (acc : Nat) (digits : Bytes) : Nat :=
  digits.foldl (fun acc b => acc * 10 + Ascii.digitValue b) acc

theorem valueFrom_zero (digits : Bytes) : valueFrom 0 digits = value digits := rfl

@[simp]
theorem valueFrom_nil (acc : Nat) : valueFrom acc [] = acc := rfl

@[simp]
theorem valueFrom_cons (acc : Nat) (b : UInt8) (rest : Bytes) :
    valueFrom acc (b :: rest) = valueFrom (acc * 10 + Ascii.digitValue b) rest := by
  rw [valueFrom, List.foldl_cons, valueFrom]

@[simp]
theorem valueFrom_append (acc : Nat) (left right : Bytes) :
    valueFrom acc (left ++ right) = valueFrom (valueFrom acc left) right :=
  List.foldl_append

/-- More digits never denote less. -/
theorem le_valueFrom (acc : Nat) (digits : Bytes) : acc ≤ valueFrom acc digits := by
  induction digits generalizing acc with
  | nil => exact Nat.le_refl acc
  | cons b rest ih =>
    rw [valueFrom_cons]
    have hstep := ih (acc * 10 + Ascii.digitValue b)
    omega

/-- Digits denote less than the power of ten of their number. -/
theorem valueFrom_lt {digits : Bytes} (h : allDigits digits = true) (acc : Nat) :
    valueFrom acc digits < (acc + 1) * 10 ^ digits.length := by
  induction digits generalizing acc with
  | nil => simp
  | cons b rest ih =>
    obtain ⟨hb, hrest⟩ : Ascii.isDigit b = true ∧ allDigits rest = true := by
      simpa only [allDigits, List.all_cons, Bool.and_eq_true] using h
    have hdigit := Ascii.digitValue_lt hb
    calc
      valueFrom acc (b :: rest) = valueFrom (acc * 10 + Ascii.digitValue b) rest :=
        valueFrom_cons acc b rest
      _ < (acc * 10 + Ascii.digitValue b + 1) * 10 ^ rest.length := ih hrest _
      _ ≤ (acc + 1) * 10 * 10 ^ rest.length := Nat.mul_le_mul_right _ (by omega)
      _ = (acc + 1) * 10 ^ (b :: rest).length := by
        rw [List.length_cons, Nat.pow_succ', Nat.mul_assoc]

theorem mul_pow_le_valueFrom (acc : Nat) (digits : Bytes) :
    acc * 10 ^ digits.length ≤ valueFrom acc digits := by
  induction digits generalizing acc with
  | nil => simp
  | cons b rest ih =>
    calc
      acc * 10 ^ (b :: rest).length = acc * 10 * 10 ^ rest.length := by
        rw [List.length_cons, Nat.pow_succ', Nat.mul_assoc]
      _ ≤ (acc * 10 + Ascii.digitValue b) * 10 ^ rest.length :=
        Nat.mul_le_mul_right _ (Nat.le_add_right _ _)
      _ ≤ valueFrom acc (b :: rest) := by
        rw [valueFrom_cons]
        exact ih _

/-- The last digits are cut off by a division. -/
theorem valueFrom_div {digits : Bytes} (h : allDigits digits = true) (acc : Nat) :
    valueFrom acc digits / 10 ^ digits.length = acc :=
  Nat.div_eq_of_lt_le (mul_pow_le_valueFrom acc digits) (valueFrom_lt h acc)

/-- What is read before equal digits is told apart by the numbers after them. -/
theorem valueFrom_left_inj (digits : Bytes) {left right : Nat} :
    valueFrom left digits = valueFrom right digits ↔ left = right := by
  induction digits generalizing left right with
  | nil => exact Iff.rfl
  | cons b rest ih =>
    rw [valueFrom_cons, valueFrom_cons, ih]
    omega

theorem digitValue_inj {left right : UInt8} (hleft : Ascii.isDigit left = true)
    (hright : Ascii.isDigit right = true) :
    Ascii.digitValue left = Ascii.digitValue right ↔ left = right := by
  rw [Ascii.isDigit_iff] at hleft hright
  rw [← UInt8.toNat_inj, Ascii.digitValue, Ascii.digitValue]
  omega

/-- A digit that changes changes the number. -/
theorem value_around_inj {front back : Bytes} {left right : UInt8}
    (hleft : allDigits (front ++ left :: back) = true)
    (hright : allDigits (front ++ right :: back) = true) :
    value (front ++ left :: back) = value (front ++ right :: back) ↔ left = right := by
  have hdigit {b : UInt8} (h : allDigits (front ++ b :: back) = true) :
      Ascii.isDigit b = true :=
    List.all_eq_true.1 h b (List.mem_append_right front List.mem_cons_self)
  rw [← valueFrom_zero, ← valueFrom_zero, valueFrom_append, valueFrom_append, valueFrom_cons,
    valueFrom_cons, valueFrom_left_inj, Nat.add_left_cancel_iff,
    digitValue_inj (hdigit hleft) (hdigit hright)]

theorem valueFrom_replicate_zero (n : Nat) : valueFrom 0 (List.replicate n Ascii.zero) = 0 := by
  induction n with
  | zero => rfl
  | succ n ih => rw [List.replicate_succ, valueFrom_cons]; exact ih

/-! ### Canonical numerals -/

theorem toUInt8_digitChar {d : Nat} (h : d < 10) :
    (Nat.digitChar d).toUInt8 = UInt8.ofNat (48 + d) := by
  rw [← UInt8.toNat_inj, UInt8.toNat_ofNat_of_lt' (show 48 + d < 256 by omega)]
  change (Nat.digitChar d).toNat % 256 = 48 + d
  rw [Nat.toNat_digitChar_of_lt_ten h]
  omega

theorem digitValue_ofNat {d : Nat} (h : d < 10) : Ascii.digitValue (UInt8.ofNat (48 + d)) = d := by
  rw [Ascii.digitValue, UInt8.toNat_ofNat_of_lt' (show 48 + d < 256 by omega)]
  omega

theorem isDigit_ofNat {d : Nat} (h : d < 10) : Ascii.isDigit (UInt8.ofNat (48 + d)) = true := by
  rw [Ascii.isDigit_iff, UInt8.toNat_ofNat_of_lt' (show 48 + d < 256 by omega)]
  omega

theorem ofNat_of_lt {n : Nat} (h : n < 10) : ofNat n = [UInt8.ofNat (48 + n)] := by
  rw [ofNat, Nat.toDigits_of_lt_base h, List.map_singleton, toUInt8_digitChar h]

/-- The last digit is the remainder by ten, the others are the numeral of the
quotient. -/
theorem ofNat_of_le {n : Nat} (h : 10 ≤ n) :
    ofNat n = ofNat (n / 10) ++ [UInt8.ofNat (48 + n % 10)] := by
  rw [ofNat, Nat.toDigits_of_base_le (by omega) h, List.map_append, List.map_singleton,
    toUInt8_digitChar (Nat.mod_lt n (by omega)), ofNat]

@[simp]
theorem ofNat_ne_nil (n : Nat) : ofNat n ≠ [] := by
  simp [ofNat]

theorem length_ofNat_pos (n : Nat) : 0 < (ofNat n).length :=
  List.length_pos_iff.2 (ofNat_ne_nil n)

theorem length_ofNat_le_iff {n k : Nat} (hk : 0 < k) : (ofNat n).length ≤ k ↔ n < 10 ^ k := by
  rw [ofNat, List.length_map, Nat.length_toDigits_le_iff (by omega) hk]

/-- A numeral consists of digits. -/
@[simp]
theorem allDigits_ofNat (n : Nat) : allDigits (ofNat n) = true := by
  induction n using Nat.strongRecOn with
  | _ n ih =>
    by_cases h : n < 10
    · rw [ofNat_of_lt h, allDigits, List.all_cons, isDigit_ofNat h]
      rfl
    · have hprefix := ih (n / 10) (by omega)
      rw [allDigits] at hprefix
      rw [ofNat_of_le (by omega), allDigits, List.all_append, hprefix, List.all_cons,
        isDigit_ofNat (Nat.mod_lt n (by omega))]
      rfl

/-- A numeral denotes its number. -/
@[simp]
theorem value_ofNat (n : Nat) : value (ofNat n) = n := by
  induction n using Nat.strongRecOn with
  | _ n ih =>
    by_cases h : n < 10
    · rw [ofNat_of_lt h, ← valueFrom_zero, valueFrom_cons, digitValue_ofNat h, valueFrom_nil]
      omega
    · have hprefix := ih (n / 10) (by omega)
      rw [← valueFrom_zero] at hprefix
      rw [ofNat_of_le (by omega), ← valueFrom_zero, valueFrom_append, hprefix, valueFrom_cons,
        digitValue_ofNat (Nat.mod_lt n (by omega)), valueFrom_nil]
      omega

/-- A numeral begins with a zero only if that is all of it. -/
theorem ofNat_eq_of_head? {n : Nat} (h : (ofNat n).head? = some Ascii.zero) :
    ofNat n = [Ascii.zero] := by
  obtain ⟨rest, hrest⟩ := List.head?_eq_some_iff.1 h
  cases rest with
  | nil => exact hrest
  | cons b rest =>
    have hdigits := allDigits_ofNat n
    rw [hrest, allDigits, List.all_cons, Bool.and_eq_true] at hdigits
    have hlt : n < 10 ^ (b :: rest).length := by
      have hbound := valueFrom_lt hdigits.2 0
      have hvalue : valueFrom 0 (Ascii.zero :: b :: rest) = n := hrest ▸ value_ofNat n
      have hskip : valueFrom 0 (Ascii.zero :: b :: rest) = valueFrom 0 (b :: rest) := rfl
      rwa [Nat.zero_add, Nat.one_mul, ← hskip, hvalue] at hbound
    have hlength := (length_ofNat_le_iff (Nat.succ_pos rest.length)).2 hlt
    simp only [hrest, List.length_cons] at hlength
    omega

/-! ### Numerals of a width -/

@[simp]
theorem allDigits_padded (width n : Nat) : allDigits (padded width n) = true := by
  have hdigits := allDigits_ofNat n
  rw [allDigits] at hdigits
  rw [padded, allDigits, List.all_append, hdigits, Bool.and_true]
  exact List.all_eq_true.2 fun b hb => by rw [List.eq_of_mem_replicate hb]; rfl

@[simp]
theorem value_padded (width n : Nat) : value (padded width n) = n := by
  rw [padded, ← valueFrom_zero, valueFrom_append, valueFrom_replicate_zero, valueFrom_zero,
    value_ofNat]

theorem le_length_padded (width n : Nat) : width ≤ (padded width n).length := by
  rw [padded, List.length_append, List.length_replicate]
  omega

theorem length_padded {width n : Nat} (hwidth : 0 < width) (h : n < 10 ^ width) :
    (padded width n).length = width := by
  have hlength := (length_ofNat_le_iff hwidth).2 h
  rw [padded, List.length_append, List.length_replicate]
  omega

@[simp]
theorem padded_ne_nil (width n : Nat) : padded width n ≠ [] := by
  simp [padded]

/-! ### Digits and other bytes -/

theorem toNat_lt_of_allDigits {bytes : Bytes} (h : allDigits bytes = true) :
    ∀ b ∈ bytes, b.toNat < 0x80 := by
  intro b hb
  have hdigit := (Ascii.isDigit_iff b).1 (List.all_eq_true.1 h b hb)
  omega

/-- A byte that is no digit does not stand among digits. -/
theorem not_mem_of_allDigits {bytes : Bytes} (h : allDigits bytes = true) {b : UInt8}
    (hb : Ascii.isDigit b = false) : b ∉ bytes := by
  intro hmem
  rw [List.all_eq_true.1 h b hmem] at hb
  contradiction

/-! ### Reading back -/

/-- The number with a sign. -/
def signed (negative : Bool) (n : Nat) : Int := if negative then -n else n

theorem shift_signed (negative : Bool) (acc digit : Nat) :
    shift negative (signed negative acc) digit = signed negative (acc * 10 + digit) := by
  cases negative with
  | false => simp [shift, signed]
  | true =>
    simp only [shift, signed, if_true]
    omega

/-- A number between zero and one in range is in range. -/
theorem fitsInt64_signed_of_le {negative : Bool} {m n : Nat} (h : m ≤ n)
    (hfits : fitsInt64 (signed negative n) = true) : fitsInt64 (signed negative m) = true := by
  simp only [fitsInt64, Bool.and_eq_true, decide_eq_true_eq] at hfits ⊢
  cases negative with
  | false =>
    simp only [signed, Bool.false_eq_true, if_false] at hfits ⊢
    omega
  | true =>
    simp only [signed, if_true] at hfits ⊢
    omega

theorem signed_natAbs (i : Int) : signed (decide (i < 0)) i.natAbs = i := by
  by_cases h : i < 0
  · simp only [signed, h, decide_true, if_true]
    omega
  · simp only [signed, h, decide_false, Bool.false_eq_true, if_false]
    omega

/-- A division truncates the number without its sign. -/
theorem signed_div (negative : Bool) (n k : Nat) :
    signed negative (n / k) = (signed negative n).tdiv k := by
  cases negative with
  | false => exact (Int.ofNat_tdiv n k).symm
  | true => exact (congrArg _ (Int.ofNat_tdiv n k).symm).trans (Int.neg_tdiv n k).symm

theorem signed_zero (negative : Bool) : signed negative 0 = 0 := by
  cases negative <;> rfl

/-- Digits that lead nowhere out of range are read as what they denote. -/
theorem readDigits_of_fits {negative : Bool} {digits : Bytes} (hdigits : allDigits digits = true)
    {acc : Nat} (hfits : fitsInt64 (signed negative (valueFrom acc digits)) = true) :
    readDigits negative (signed negative acc) digits =
      .ok (signed negative (valueFrom acc digits)) := by
  induction digits generalizing acc with
  | nil => rfl
  | cons b rest ih =>
    obtain ⟨hb, hrest⟩ : Ascii.isDigit b = true ∧ allDigits rest = true := by
      simpa only [allDigits, List.all_cons, Bool.and_eq_true] using hdigits
    rw [valueFrom_cons] at hfits ⊢
    have hrange : fitsInt64 (signed negative (acc * 10 + Ascii.digitValue b)) = true :=
      fitsInt64_signed_of_le (le_valueFrom _ rest) hfits
    rw [readDigits, if_pos hb]
    simp only [shift_signed, hrange, if_true]
    exact ih hrest hfits

/-- Digits that are read lead nowhere out of range and denote what is read. -/
theorem eq_of_readDigits {negative : Bool} {digits : Bytes} {acc : Nat} {i : Int}
    (hacc : fitsInt64 (signed negative acc) = true)
    (h : readDigits negative (signed negative acc) digits = .ok i) :
    i = signed negative (valueFrom acc digits) ∧ fitsInt64 i = true := by
  induction digits generalizing acc with
  | nil =>
    rw [readDigits] at h
    cases h
    exact ⟨rfl, hacc⟩
  | cons b rest ih =>
    rw [readDigits] at h
    split at h
    · simp only [shift_signed] at h
      split at h
      · next hfits =>
        rw [valueFrom_cons]
        exact ih hfits h
      · contradiction
    · contradiction

/-- Digits begin with a digit, and so with no sign. -/
theorem exists_eq_cons {digits : Bytes} (hdigits : allDigits digits = true) (hne : digits ≠ []) :
    ∃ b rest, digits = b :: rest ∧ b ≠ Ascii.minus ∧ b ≠ Ascii.plus := by
  cases digits with
  | nil => exact absurd rfl hne
  | cons b rest =>
    have hb : Ascii.isDigit b = true := List.all_eq_true.1 hdigits b List.mem_cons_self
    have hminus : b ≠ Ascii.minus := fun hb' => by subst b; contradiction
    have hplus : b ≠ Ascii.plus := fun hb' => by subst b; contradiction
    exact ⟨b, rest, rfl, hminus, hplus⟩

theorem readUnsigned_of_fits {negative : Bool} {digits : Bytes} (hdigits : allDigits digits = true)
    (hne : digits ≠ []) (hfits : fitsInt64 (signed negative (value digits)) = true) :
    readUnsigned negative digits = .ok (signed negative (value digits)) := by
  have hread := readDigits_of_fits hdigits hfits
  rw [signed_zero] at hread
  rw [readUnsigned, if_neg (by simpa using hne)]
  exact hread

/-- Digits in the signed 64-bit range are read as what they denote after their sign. -/
theorem readInt_of_fits (negative : Bool) {digits : Bytes} (hdigits : allDigits digits = true)
    (hne : digits ≠ []) (hfits : fitsInt64 (signed negative (value digits)) = true) :
    readInt (if negative then Ascii.minus :: digits else digits) =
      .ok (signed negative (value digits)) := by
  cases negative with
  | true =>
    rw [if_pos rfl, readInt, if_pos rfl]
    exact readUnsigned_of_fits hdigits hne hfits
  | false =>
    obtain ⟨b, rest, rfl, hminus, hplus⟩ := exists_eq_cons hdigits hne
    rw [if_neg (by simp), readInt, if_neg hminus, if_neg hplus]
    exact readUnsigned_of_fits hdigits hne hfits

/-- A numeral in the signed 64-bit range reads back as its number. -/
theorem readInt_ofInt {i : Int} (h : fitsInt64 i = true) : readInt (ofInt i) = .ok i := by
  have hsigned : signed (decide (i < 0)) (value (ofNat i.natAbs)) = i := by
    rw [value_ofNat, signed_natAbs]
  have hread := readInt_of_fits (decide (i < 0)) (allDigits_ofNat i.natAbs)
    (ofNat_ne_nil i.natAbs) (by rw [hsigned]; exact h)
  rw [hsigned] at hread
  simpa only [ofInt, decide_eq_true_eq] using hread

/-- A numeral that is read is in range and reads as its number. -/
theorem eq_of_readInt_ofNat {n : Nat} {i : Int} (h : readInt (ofNat n) = .ok i) :
    i = n ∧ fitsInt64 i = true := by
  obtain ⟨b, rest, hbytes, hminus, hplus⟩ := exists_eq_cons (allDigits_ofNat n) (ofNat_ne_nil n)
  rw [hbytes, readInt, if_neg hminus, if_neg hplus, ← hbytes, readUnsigned, if_neg (by simp)] at h
  have hzero : fitsInt64 (signed false 0) = true := rfl
  obtain ⟨hi, hfits⟩ := eq_of_readDigits hzero h
  have hvalue : valueFrom 0 (ofNat n) = n := value_ofNat n
  rw [hvalue] at hi
  exact ⟨hi, hfits⟩

theorem fitsInt64_toInt (i : Int64) : fitsInt64 i.toInt = true := by
  have hlow := i.le_toInt
  have hhigh := i.toInt_lt
  simp only [fitsInt64, Bool.and_eq_true, decide_eq_true_eq]
  omega

theorem toInt_ofInt_of_fits {i : Int} (h : fitsInt64 i = true) : (Int64.ofInt i).toInt = i := by
  simp only [fitsInt64, Bool.and_eq_true, decide_eq_true_eq] at h
  exact Int64.toInt_ofInt_of_le (by omega) (by omega)

/-- A signed 64-bit number is read back from its numeral. -/
@[simp]
theorem readInt64_ofInt (i : Int64) : readInt64 (ofInt i.toInt) = .ok i := by
  rw [readInt64, readInt_ofInt (fitsInt64_toInt i)]
  show Except.ok (Int64.ofInt i.toInt) = _
  rw [Int64.ofInt_toInt]

theorem readInt64_ofNat {n : Nat} (h : n ≤ 0x7FFFFFFFFFFFFFFF) :
    readInt64 (ofNat n) = .ok (Int64.ofInt n) := by
  have hfits : fitsInt64 n = true := by
    simp only [fitsInt64, Bool.and_eq_true, decide_eq_true_eq]
    omega
  have hread : readInt (ofNat n) = .ok (n : Int) := readInt_ofInt hfits
  rw [readInt64, hread]
  rfl

end FixEngine.Numeral
