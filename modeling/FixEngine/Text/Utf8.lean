import FixEngine.Text.Ascii

/-!
# UTF-8

Text is written to the wire as UTF-8 and read back one byte at a time.  The
reader cuts any byte string into characters and invalid pieces, a piece being
the longest run that begins a character and cannot be completed, or one byte
that begins none.  Strict decoding accepts no invalid piece, lenient decoding
shows each of them as U+FFFD.
-/

namespace FixEngine.Utf8

def encode (text : String) : Bytes :=
  text.toList.flatMap String.utf8EncodeChar

/-- A character whose first bytes have been read. -/
structure Pending where
  /-- The bits read so far. -/
  code : Nat
  /-- How many bytes are owed after the next one. -/
  owed : Nat
  /-- The least value of the next byte. -/
  low : UInt8
  /-- The greatest value of the next byte. -/
  high : UInt8
  deriving DecidableEq, Repr

/-- A character of the text, or bytes that are no part of one. -/
inductive Piece where
  | char (c : Char)
  | invalid
  deriving DecidableEq, Repr

/-- Reads a byte between two characters.  The narrowed ranges of the second
byte exclude overlong forms, surrogates and codes above U+10FFFF. -/
def start (b : UInt8) : List Piece × Option Pending :=
  if b < 0x80 then ([.char (Char.ofNat b.toNat)], none)
  else if b < 0xC2 then ([.invalid], none)
  else if b < 0xE0 then ([], some ⟨b.toNat - 0xC0, 0, 0x80, 0xBF⟩)
  else if b = 0xE0 then ([], some ⟨0, 1, 0xA0, 0xBF⟩)
  else if b = 0xED then ([], some ⟨0xD, 1, 0x80, 0x9F⟩)
  else if b < 0xF0 then ([], some ⟨b.toNat - 0xE0, 1, 0x80, 0xBF⟩)
  else if b = 0xF0 then ([], some ⟨0, 2, 0x90, 0xBF⟩)
  else if b < 0xF4 then ([], some ⟨b.toNat - 0xF0, 2, 0x80, 0xBF⟩)
  else if b = 0xF4 then ([], some ⟨4, 2, 0x80, 0x8F⟩)
  else ([.invalid], none)

/-- Reads one byte, given the character in progress.  A byte that cannot
continue it ends it as invalid and is read again as a first byte. -/
def step : Option Pending → UInt8 → List Piece × Option Pending
  | none, b => start b
  | some pending, b =>
    if pending.low ≤ b ∧ b ≤ pending.high then
      let code := pending.code * 64 + (b.toNat - 0x80)
      match pending.owed with
      | 0 => ([.char (Char.ofNat code)], none)
      | owed + 1 => ([], some ⟨code, owed, 0x80, 0xBF⟩)
    else
      let (pieces, next) := start b
      (.invalid :: pieces, next)

/-- The pieces of a byte string, given the character in progress. -/
def scan : Option Pending → Bytes → List Piece
  | none, [] => []
  | some _, [] => [.invalid]
  | state, b :: rest => (step state b).1 ++ scan (step state b).2 rest

namespace Piece

def char? : Piece → Option Char
  | char c => some c
  | invalid => none

/-- The character shown for a piece. -/
def shown : Piece → Char
  | char c => c
  | invalid => '\uFFFD'

end Piece

/-- The characters of a byte string that is valid UTF-8. -/
def chars? (bytes : Bytes) : Option (List Char) :=
  (scan none bytes).mapM Piece.char?

/-- The text of a byte string that is valid UTF-8. -/
def decode? (bytes : Bytes) : Option String :=
  (chars? bytes).map String.ofList

/-- The text of any byte string, each invalid piece shown as U+FFFD. -/
def decodeLossy (bytes : Bytes) : String :=
  String.ofList ((scan none bytes).map Piece.shown)

end FixEngine.Utf8
