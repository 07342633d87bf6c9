import FixEngine.Calendar.Date
import FixEngine.Calendar.TimeOfDay
import FixEngine.Text.Blank

/-!
# Reading dates and clock times

Numbers of a date or a time may follow blanks.  A year has at most four digits
unless a sign stands before it, every other number at most two.  The marks
between numbers stand for themselves.
-/

namespace FixEngine.Calendar

def isDigitChar (c : Char) : Bool := '0' ≤ c && c ≤ '9'

def numberOf (digits : List Char) : Nat :=
  digits.foldl (fun acc c => acc * 10 + (c.toNat - 48)) 0

/-- Reads the digits at the front, at least one of them. -/
def takeNumber (text : List Char) : Option (Nat × List Char) :=
  let digits := text.takeWhile isDigitChar
  if digits.isEmpty then none else some (numberOf digits, text.dropWhile isDigitChar)

/-- Reads at most `limit` digits at the front, at least one of them. -/
def takeShort (limit : Nat) (text : List Char) : Option (Nat × List Char) :=
  let digits := (text.take limit).takeWhile isDigitChar
  if digits.isEmpty then none else some (numberOf digits, text.drop digits.length)

/-- Reads a number of one or two digits after blanks. -/
def takePair (text : List Char) : Option (Nat × List Char) :=
  takeShort 2 (text.dropWhile isBlank)

/-- Reads a year after blanks. -/
def takeYear (text : List Char) : Option (Int × List Char) :=
  match text.dropWhile isBlank with
  | '-' :: rest => (takeNumber rest).map fun (n, rest) => (-(n : Int), rest)
  | '+' :: rest => (takeNumber rest).map fun (n, rest) => ((n : Int), rest)
  | rest => (takeShort 4 rest).map fun (n, rest) => ((n : Int), rest)

def takeMark (mark : Char) : List Char → Option (List Char)
  | c :: rest => if c = mark then some rest else none
  | [] => none

/-- Reads a date of the form `YYYYMMDD` at the front. -/
def takeDate (text : List Char) : Option (Date × List Char) := do
  let (year, text) ← takeYear text
  let (month, text) ← takePair text
  let (day, text) ← takePair text
  let date ← Date.ofParts? year month day
  return (date, text)

/-- Reads a time of the form `HH:MM:SS` at the front and gives it the
nanoseconds. -/
def takeClock (nanos : Nat) (text : List Char) : Option (TimeOfDay × List Char) := do
  let (hour, text) ← takePair text
  let text ← takeMark ':' text
  let (minute, text) ← takePair text
  let text ← takeMark ':' text
  let (second, text) ← takePair text
  let time ← TimeOfDay.ofClock? hour minute second nanos
  return (time, text)

/-- The value that was read, if nothing is left over. -/
def whole {α : Type} : α × List Char → Option α
  | (value, []) => some value
  | _ => none

end FixEngine.Calendar
