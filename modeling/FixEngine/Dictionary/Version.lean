/-!
# Protocol versions

The versions of the protocol and the text with which their messages begin.
-/

namespace FixEngine

inductive Version where
  | fix40
  | fix41
  | fix42
  | fix43
  | fix44
  /-- The transport version that later application versions share. -/
  | fixt11
  deriving DecidableEq, Repr

namespace Version

/-- The text with which messages of the version begin. -/
def beginString : Version → String
  | fix40 => "FIX.4.0"
  | fix41 => "FIX.4.1"
  | fix42 => "FIX.4.2"
  | fix43 => "FIX.4.3"
  | fix44 => "FIX.4.4"
  | fixt11 => "FIXT.1.1"

def all : List Version := [fix40, fix41, fix42, fix43, fix44, fixt11]

/-- The version whose messages begin with a text. -/
def ofBeginString? (text : String) : Option Version :=
  all.find? (·.beginString = text)

def name : Version → String
  | fix40 => "Fix40"
  | fix41 => "Fix41"
  | fix42 => "Fix42"
  | fix43 => "Fix43"
  | fix44 => "Fix44"
  | fixt11 => "Fixt11"

def ofName? (text : String) : Option Version :=
  all.find? (·.name = text)

@[simp]
theorem ofBeginString?_beginString (version : Version) :
    ofBeginString? version.beginString = some version := by
  cases version <;> decide

end Version

end FixEngine
