import FixEngine.Dictionary.Interpretation
import FixEngine.Message.Entry
import FixEngine.Proofs.Number.Numeral
import FixEngine.Proofs.Outcome
import FixEngine.Proofs.Text.Utf8

/-!
# Reading back values

Texts and numbers are read back from their written forms, and so is the number
of instances that announces a group.
-/

namespace FixEngine.Value

@[simp]
theorem readText_encode (text : String) : readText (Utf8.encode text) = .ok text := by
  rw [readText, Utf8.decode?_encode]
  rfl

theorem readInteger_ofNat {n : Nat} (h : n ≤ 0x7FFFFFFFFFFFFFFF) :
    readInteger (Numeral.ofNat n) = .ok (Int64.ofInt n) := by
  have hascii := Utf8.decode?_of_ascii (Numeral.toNat_lt_of_allDigits (Numeral.allDigits_ofNat n))
  rw [readInteger, readText, hascii, Numeral.readInt64_ofNat h]
  rfl

theorem toInt_ofInt_natCast {n : Nat} (h : n ≤ 0x7FFFFFFFFFFFFFFF) :
    (Int64.ofInt n).toInt = n :=
  Int64.toInt_ofInt_of_le (by omega) (by omega)

/-- An unsigned number is read back from its numeral. -/
theorem readUnsigned_ofNat (n : UInt32) : readUnsigned (Numeral.ofNat n.toNat) = .ok n := by
  have hlt : n.toNat < 4294967296 := n.toNat_lt
  have hle : n.toNat ≤ 0x7FFFFFFFFFFFFFFF := by omega
  have hrange : (0 : Int) ≤ n.toNat ∧ (n.toNat : Int) < 4294967296 := by omega
  rw [readUnsigned, readInteger_ofNat hle]
  show (if 0 ≤ (Int64.ofInt n.toNat).toInt ∧ (Int64.ofInt n.toNat).toInt < 4294967296
    then Except.ok (UInt32.ofNat (Int64.ofInt n.toNat).toInt.toNat)
    else Except.error ValueFault.notUnsigned) = _
  rw [toInt_ofInt_natCast hle, if_pos hrange, Int.toNat_natCast, UInt32.ofNat_toNat]

/-- A numeral that is read as an unsigned number has 32 bits. -/
theorem lt_of_readUnsigned_ofNat {n : Nat} {u : UInt32}
    (h : readUnsigned (Numeral.ofNat n) = .ok u) : n < 4294967296 := by
  obtain ⟨i, hread, hrange⟩ := bind_eq_ok_iff.1 h
  obtain ⟨text, -, hinteger⟩ := bind_eq_ok_iff.1 hread
  obtain ⟨j, hj, rfl⟩ := map_eq_ok_iff.1 (mapError_eq_ok_iff.1 hinteger)
  obtain ⟨rfl, hfits⟩ := Numeral.eq_of_readInt_ofNat hj
  have hn : n ≤ 0x7FFFFFFFFFFFFFFF := by
    simp only [fitsInt64, Bool.and_eq_true, decide_eq_true_eq] at hfits
    omega
  dsimp only at hrange
  rw [toInt_ofInt_natCast hn] at hrange
  split at hrange
  · omega
  · contradiction

theorem toBytes_countField (countTag : Tag) {n : Nat} (h : n ≤ 0x7FFFFFFFFFFFFFFF) :
    (Entry.countField countTag n).value.toBytes = Numeral.ofNat n := by
  rw [Entry.countField, toBytes, toInt_ofInt_natCast h]
  rfl

/-- A number of instances has 63 bits. -/
theorem le_of_readCount {bytes : Bytes} {n : Nat} (h : readCount bytes = .ok n) :
    n ≤ 0x7FFFFFFFFFFFFFFF := by
  obtain ⟨i, -, hcount⟩ := bind_eq_ok_iff.1 h
  have hi : i.toInt ≤ 0x7FFFFFFFFFFFFFFF := i.toInt_le
  dsimp only at hcount
  split at hcount
  · cases hcount
    omega
  · contradiction

/-- The number of instances is read back from the field that announces it. -/
theorem readCount_countField (countTag : Tag) {n : Nat} (h : n ≤ 0x7FFFFFFFFFFFFFFF) :
    readCount (Entry.countField countTag n).value.toBytes = .ok n := by
  rw [toBytes_countField countTag h, readCount, readInteger_ofNat h]
  show (if 0 ≤ (Int64.ofInt n).toInt then Except.ok (Int64.ofInt n).toInt.toNat
    else Except.error ValueFault.negativeCount) = _
  rw [toInt_ofInt_natCast h, if_pos (Int.natCast_nonneg n), Int.toNat_natCast]

end FixEngine.Value
