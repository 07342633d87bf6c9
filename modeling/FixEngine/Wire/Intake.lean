import FixEngine.Wire.Fault

/-!
# Cutting a stream into records

Bytes arrive in pieces of any size and are taken off as records, each up to and
including its delimiter.  A record longer than a limit is dropped, and so is a
buffer that holds more than the limit without a delimiter.
-/

namespace FixEngine

/-- A buffer of received bytes. -/
structure Intake where
  /-- The greatest length of a record, the delimiter included. -/
  limit : Nat
  /-- How many bytes at the front are known to hold no delimiter. -/
  scanned : Nat
  buffer : Bytes
  deriving DecidableEq, Repr

/-- What was found at the front of a buffer. -/
inductive Taken where
  /-- No complete record. -/
  | nothing
  | record (bytes : Bytes)
  /-- Bytes that were dropped. -/
  | tooLong (length : Nat)
  deriving DecidableEq, Repr

namespace Intake

/-- The limit where nothing else is set. -/
def usualLimit : Nat := 65536

def empty (limit : Nat) : Intake := ⟨limit, 0, []⟩

def push (intake : Intake) (bytes : Bytes) : Intake :=
  { intake with buffer := intake.buffer ++ bytes }

/-- Drops the bytes in the buffer, but not the count of those scanned. -/
def clear (intake : Intake) : Intake :=
  { intake with buffer := [] }

/-- Where the first delimiter ends that follows the scanned bytes. -/
def recordEnd? (intake : Intake) : Option Nat :=
  let start := min intake.scanned intake.buffer.length
  ((intake.buffer.drop start).findIdx? (· = Ascii.soh)).map (start + · + 1)

/-- Takes the next record off the front. -/
def take (intake : Intake) : Intake × Taken :=
  match intake.recordEnd? with
  | some n =>
    let rest := { intake with scanned := 0, buffer := intake.buffer.drop n }
    if intake.limit < n then (rest, .tooLong n) else (rest, .record (intake.buffer.take n))
  | none =>
    let length := intake.buffer.length
    if intake.limit < length then
      ({ intake with scanned := 0, buffer := [] }, .tooLong length)
    else ({ intake with scanned := length }, .nothing)

/-- A record ends after its first byte at the earliest. -/
theorem recordEnd?_pos {intake : Intake} {n : Nat} (h : intake.recordEnd? = some n) : 0 < n := by
  obtain ⟨i, -, rfl⟩ := Option.map_eq_some_iff.1 h
  omega

/-- A buffer with a record in it is not empty. -/
theorem length_pos_of_recordEnd? {intake : Intake} {n : Nat} (h : intake.recordEnd? = some n) :
    0 < intake.buffer.length := by
  apply List.length_pos_iff.2
  intro hempty
  simp [recordEnd?, hempty] at h

/-- Unless nothing is found, fewer bytes are left. -/
theorem length_take_lt_of_ne {intake : Intake} (h : intake.take.2 ≠ .nothing) :
    intake.take.1.buffer.length < intake.buffer.length := by
  unfold take at h ⊢
  split
  · next n hn =>
    have hpos := recordEnd?_pos hn
    have hlen := length_pos_of_recordEnd? hn
    split <;> simp only [List.length_drop] <;> omega
  · next hn =>
    simp only [hn] at h ⊢
    split
    · simp only [List.length_nil]
      omega
    · next hle => simp [hle] at h

/-- Taking a record leaves fewer bytes. -/
theorem length_take_lt {intake : Intake} {bytes : Bytes} (h : intake.take.2 = .record bytes) :
    intake.take.1.buffer.length < intake.buffer.length :=
  length_take_lt_of_ne (by simp [h])

/-- Dropping bytes leaves fewer of them. -/
theorem length_take_lt_of_tooLong {intake : Intake} {length : Nat}
    (h : intake.take.2 = .tooLong length) :
    intake.take.1.buffer.length < intake.buffer.length :=
  length_take_lt_of_ne (by simp [h])

end Intake

end FixEngine
