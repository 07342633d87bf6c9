import FixEngine.Proofs.Calendar.Timestamp
import FixEngine.Proofs.Dictionary.Interpretation
import FixEngine.Proofs.Number.Decimal
import FixEngine.Proofs.Text.Lossy

/-!
# Values that were read

The bytes of a value may be spelled in many ways, with needless zeros, a plus sign or
bytes that are no text.  The value that was read is written in one of them, and from
that it is read again, unless its year takes more than four digits.
-/

namespace FixEngine

/-- The year, if the value has one, is written with four digits. -/
def Value.HasFourDigits : Value → Prop
  | timestamp t => t.date.HasFourDigits
  | date d => d.HasFourDigits
  | _ => True

instance (value : Value) : Decidable value.HasFourDigits :=
  match value with
  | .timestamp t => inferInstanceAs (Decidable t.date.HasFourDigits)
  | .date d => inferInstanceAs (Decidable d.HasFourDigits)
  | .text _ | .char _ | .flag _ | .integer _ | .decimal _ | .time _ => .isTrue trivial

namespace Value

variable {bytes : Bytes}

/-! ### Reading again -/

theorem orFault_eq_ok_iff {α : Type} {fault : ValueFault} {read : Option α} {a : α} :
    orFault fault read = .ok a ↔ read = some a := by
  cases read with
  | some a' => simp [orFault]
  | none => simp [orFault]

theorem readText_eq_ok_iff {text : String} :
    readText bytes = .ok text ↔ Utf8.decode? bytes = some text :=
  orFault_eq_ok_iff

/-- One character is a text of its own. -/
theorem readChar_eq_ok_iff {c : Char} :
    readChar bytes = .ok c ↔ readText bytes = .ok (String.ofList [c]) := by
  have hlist {text : String} : text.toList = [c] ↔ text = String.ofList [c] := by
    rw [← String.toList_inj, String.toList_ofList]
  rw [readChar, bind_eq_ok_iff]
  constructor
  · rintro ⟨text, hread, h⟩
    split at h
    · next c' hchars =>
      cases h
      rw [hread, hlist.1 hchars]
    · contradiction
  · intro h
    refine ⟨_, h, ?_⟩
    rw [String.toList_ofList]

/-- A signed number is read back from its numeral. -/
theorem readInteger_ofInt (i : Int64) : readInteger (Numeral.ofInt i.toInt) = .ok i := by
  have hascii : ∀ b ∈ Numeral.ofInt i.toInt, b.toNat < 0x80 := by
    have hdigits := Numeral.toNat_lt_of_allDigits (Numeral.allDigits_ofNat i.toInt.natAbs)
    rw [Numeral.ofInt]
    split
    · exact List.forall_mem_cons.2 ⟨by decide, hdigits⟩
    · exact hdigits
  rw [readInteger, readText, Utf8.decode?_of_ascii hascii, Numeral.readInt64_ofInt]
  rfl

theorem readChar_utf8EncodeChar (c : Char) : readChar (String.utf8EncodeChar c) = .ok c := by
  rw [readChar_eq_ok_iff, ← Utf8.encode_ofList_singleton, readText_encode]

/-- A value that was read is read again from its written form, unless that has a year
of other than four digits. -/
theorem read_toBytes {type : DataType} {value : Value} (h : read type bytes = .ok value)
    (hyear : value.HasFourDigits) : read type value.toBytes = .ok value := by
  cases type with
  | int | length | seqNum | numInGroup | tagNum | dayOfMonth =>
    obtain ⟨i, -, rfl⟩ := map_eq_ok_iff.1 h
    exact map_eq_ok_iff.2 ⟨i, readInteger_ofInt i, rfl⟩
  | float | qty | price | priceOffset | amt | percentage =>
    obtain ⟨n, -, rfl⟩ := map_eq_ok_iff.1 (mapError_eq_ok_iff.1 h)
    exact mapError_eq_ok_iff.2 (map_eq_ok_iff.2 ⟨n, n.parse_toBytes, rfl⟩)
  | char =>
    obtain ⟨c, -, rfl⟩ := map_eq_ok_iff.1 h
    exact map_eq_ok_iff.2 ⟨c, readChar_utf8EncodeChar c, rfl⟩
  | boolean =>
    obtain ⟨b, -, rfl⟩ := map_eq_ok_iff.1 h
    cases b <;> rfl
  | utcTimestamp =>
    obtain ⟨t, ht, rfl⟩ := Option.map_eq_some_iff.1 (orFault_eq_ok_iff.1 h)
    have hback := Timestamp.parse?_toBytes_of_parse? ht hyear
    exact orFault_eq_ok_iff.2 (Option.map_eq_some_iff.2 ⟨t, hback, rfl⟩)
  | utcTimeOnly =>
    obtain ⟨t, ht, rfl⟩ := Option.map_eq_some_iff.1 (orFault_eq_ok_iff.1 h)
    have hback := TimeOnly.parse?_toBytes_of_parse? ht
    exact orFault_eq_ok_iff.2 (Option.map_eq_some_iff.2 ⟨t, hback, rfl⟩)
  | utcDateOnly =>
    obtain ⟨t, -, rfl⟩ := Option.map_eq_some_iff.1 (orFault_eq_ok_iff.1 h)
    exact orFault_eq_ok_iff.2 (Option.map_eq_some_iff.2 ⟨t, Date.parse?_toBytes hyear, rfl⟩)
  | data =>
    cases h
    show Except.ok (text (Utf8.decodeLossy (Utf8.encode _))) = _
    rw [Utf8.decodeLossy_encode]
  | string | multipleValueString | currency | exchange | country | monthYear | localMktDate =>
    obtain ⟨text, -, rfl⟩ := map_eq_ok_iff.1 h
    exact map_eq_ok_iff.2 ⟨text, readText_encode text, rfl⟩

/-- Only a year of other than four digits keeps a value that was read from being read
again: the sign before it takes a byte for which a date has no room. -/
theorem read_toBytes_iff {type : DataType} {value : Value} (h : read type bytes = .ok value) :
    read type value.toBytes = .ok value ↔ value.HasFourDigits := by
  refine ⟨fun hback => ?_, read_toBytes h⟩
  by_contra hyear
  cases type with
  | utcTimestamp =>
    obtain ⟨t, -, rfl⟩ := Option.map_eq_some_iff.1 (orFault_eq_ok_iff.1 h)
    obtain ⟨t', ht', -⟩ := Option.map_eq_some_iff.1 (orFault_eq_ok_iff.1 hback)
    have hnone : Timestamp.parse? t.toBytes = none := Timestamp.parse?_toBytes_eq_none hyear
    exact Option.some_ne_none t' (ht'.symm.trans hnone)
  | utcDateOnly =>
    obtain ⟨d, -, rfl⟩ := Option.map_eq_some_iff.1 (orFault_eq_ok_iff.1 h)
    obtain ⟨d', hd', -⟩ := Option.map_eq_some_iff.1 (orFault_eq_ok_iff.1 hback)
    have hnone : Date.parse? d.toBytes = none := Date.parse?_toBytes_eq_none hyear
    exact Option.some_ne_none d' (hd'.symm.trans hnone)
  | utcTimeOnly =>
    obtain ⟨t, -, rfl⟩ := Option.map_eq_some_iff.1 (orFault_eq_ok_iff.1 h)
    exact hyear trivial
  | int | length | seqNum | numInGroup | tagNum | dayOfMonth | char | boolean | string
  | multipleValueString | currency | exchange | country | monthYear | localMktDate =>
    obtain ⟨_, -, rfl⟩ := map_eq_ok_iff.1 h
    exact hyear trivial
  | float | qty | price | priceOffset | amt | percentage =>
    obtain ⟨_, -, rfl⟩ := map_eq_ok_iff.1 (mapError_eq_ok_iff.1 h)
    exact hyear trivial
  | data =>
    cases h
    exact hyear trivial

/-- A price without a digit before its point is read again, and a moment of the year
12345 is not. -/
theorem read_toBytes_iff_sample :
    (∃ value, read .price (Utf8.encode "+.50") = .ok value ∧
      read .price value.toBytes = .ok value) ∧
    ∃ value, read .utcTimestamp (Utf8.encode "+12345 1 1-01:1:1") = .ok value ∧
      read .utcTimestamp value.toBytes ≠ .ok value := by
  obtain ⟨price, hprice, hplain⟩ :
      ∃ value, read .price (Utf8.encode "+.50") = .ok value ∧ value.HasFourDigits :=
    ⟨_, rfl, trivial⟩
  obtain ⟨moment, hmoment, hyear⟩ :
      ∃ value, read .utcTimestamp (Utf8.encode "+12345 1 1-01:1:1") = .ok value ∧
        ¬ value.HasFourDigits :=
    ⟨_, rfl, by decide⟩
  exact ⟨⟨price, hprice, (read_toBytes_iff hprice).2 hplain⟩,
    moment, hmoment, fun hback => hyear ((read_toBytes_iff hmoment).1 hback)⟩

/-! ### Writing again -/

theorem isWritable_of_readText {text : String} (h : readText bytes = .ok text)
    (hbytes : Bytes.IsWritable bytes) : Bytes.IsWritable (Utf8.encode text) := by
  rw [← Utf8.decodeLossy_of_decode? (readText_eq_ok_iff.1 h)]
  exact Utf8.isWritable_encode_decodeLossy hbytes

/-- A value that was read from bytes that may stand on the wire may stand there
itself. -/
theorem isWritable_of_read {type : DataType} {value : Value} (h : read type bytes = .ok value)
    (hbytes : Bytes.IsWritable bytes) : Bytes.IsWritable value.toBytes := by
  cases type with
  | int | length | seqNum | numInGroup | tagNum | dayOfMonth =>
    obtain ⟨i, -, rfl⟩ := map_eq_ok_iff.1 h
    exact Numeral.isWritable_ofInt i.toInt
  | float | qty | price | priceOffset | amt | percentage =>
    obtain ⟨n, -, rfl⟩ := map_eq_ok_iff.1 (mapError_eq_ok_iff.1 h)
    exact n.isWritable_toBytes
  | char =>
    obtain ⟨c, hc, rfl⟩ := map_eq_ok_iff.1 h
    have htext := isWritable_of_readText (readChar_eq_ok_iff.1 hc) hbytes
    rwa [Utf8.encode_ofList_singleton] at htext
  | boolean =>
    obtain ⟨b, -, rfl⟩ := map_eq_ok_iff.1 h
    cases b <;> exact .cons (by decide) (by simp)
  | utcTimestamp =>
    obtain ⟨t, -, rfl⟩ := Option.map_eq_some_iff.1 (orFault_eq_ok_iff.1 h)
    exact t.isWritable_toBytes
  | utcTimeOnly =>
    obtain ⟨t, -, rfl⟩ := Option.map_eq_some_iff.1 (orFault_eq_ok_iff.1 h)
    exact t.isWritable_toBytes
  | utcDateOnly =>
    obtain ⟨t, -, rfl⟩ := Option.map_eq_some_iff.1 (orFault_eq_ok_iff.1 h)
    exact t.isWritable_toBytes
  | data =>
    cases h
    exact Utf8.isWritable_encode_decodeLossy hbytes
  | string | multipleValueString | currency | exchange | country | monthYear | localMktDate =>
    obtain ⟨text, htext, rfl⟩ := map_eq_ok_iff.1 h
    exact isWritable_of_readText htext hbytes

end Value

end FixEngine
