/-!
# Documents

A document is a tree of plain data, the form in which settings and dictionaries
are kept outside the engine.
-/

namespace FixEngine

/-- A tree of plain data. -/
inductive Document where
  | null
  | bool (value : Bool)
  | integer (value : Int)
  /-- A number that is not written as an integer. -/
  | real
  | text (value : String)
  | list (items : List Document)
  /-- Named parts, no name twice. -/
  | object (parts : List (String × Document))
  deriving Inhabited, Repr

namespace Document

mutual

/-- How many levels a document has. -/
def depth : Document → Nat
  | list items => depthOfItems items + 1
  | object parts => depthOfParts parts + 1
  | _ => 1

def depthOfItems : List Document → Nat
  | [] => 0
  | item :: rest => max item.depth (depthOfItems rest)

def depthOfParts : List (String × Document) → Nat
  | [] => 0
  | part :: rest => max (depthOfPart part) (depthOfParts rest)

def depthOfPart : String × Document → Nat
  | (_, part) => part.depth

end

/-! ### Reading -/

def bool? : Document → Option Bool
  | bool value => some value
  | _ => none

/-- Reads an integer between two bounds. -/
def integer? (low high : Int) : Document → Option Int
  | integer value => if low ≤ value ∧ value ≤ high then some value else none
  | _ => none

/-- Reads a natural number below a power of two. -/
def natural? (bits : Nat) (d : Document) : Option Nat :=
  (d.integer? 0 (Nat.pow 2 bits - 1 : Int)).map Int.toNat

def text? : Document → Option String
  | text value => some value
  | _ => none

def list? {α : Type} (read : Document → Option α) : Document → Option (List α)
  | list items => items.mapM read
  | _ => none

/-- Reads something that may be null. -/
def optional? {α : Type} (read : Document → Option α) : Document → Option (Option α)
  | null => some none
  | d => (read d).map some

/-- The parts with the given names, in their order: the parts of an object, of
which more may be there and some missing, or all items of a list of the same
length. -/
def parts? (names : List String) : Document → Option (List (Option Document))
  | object parts => some (names.map fun name => (parts.find? (·.1 = name)).map (·.2))
  | list items => if items.length = names.length then some (items.map some) else none
  | _ => none

/-- Reads a part that must be there. -/
def required? {α : Type} (read : Document → Option α) (part : Option Document) : Option α :=
  part.bind read

/-- Reads a part that may be missing or null. -/
def missing? {α : Type} (read : Document → Option α) : Option Document → Option (Option α)
  | none => some none
  | some d => optional? read d

/-- Reads one of several named choices without content: the name alone, or the
name with null as its content. -/
def choice? {α : Type} (ofName? : String → Option α) : Document → Option α
  | text name => ofName? name
  | object [(name, null)] => ofName? name
  | _ => none

/-! ### Writing -/

def ofOption {α : Type} (write : α → Document) : Option α → Document
  | none => null
  | some a => write a

end Document

end FixEngine
