/-!
# Tables

A finite table from keys to values, in which every key stands at most once.
-/

namespace FixEngine

/-- A table, as the list of its entries. -/
structure Table (κ α : Type) where
  entries : List (κ × α)
  deriving Repr

namespace Table

variable {κ α : Type} [DecidableEq κ]

def empty : Table κ α := ⟨[]⟩

def find? (t : Table κ α) (key : κ) : Option α :=
  (t.entries.find? (·.1 = key)).map (·.2)

/-- The key has a value. -/
def contains (t : Table κ α) (key : κ) : Bool :=
  (t.find? key).isSome

/-- The table without a key. -/
def erase (t : Table κ α) (key : κ) : Table κ α :=
  ⟨t.entries.filter (·.1 ≠ key)⟩

/-- The table with a value for a key, which replaces an earlier one. -/
def insert (t : Table κ α) (key : κ) (value : α) : Table κ α :=
  ⟨(key, value) :: (t.erase key).entries⟩

def size (t : Table κ α) : Nat := t.entries.length

def keys (t : Table κ α) : List κ := t.entries.map (·.1)

def values (t : Table κ α) : List α := t.entries.map (·.2)

@[simp]
theorem find?_empty (key : κ) : (empty : Table κ α).find? key = none := rfl

@[simp]
theorem find?_erase_self (t : Table κ α) (key : κ) : (t.erase key).find? key = none := by
  simp [find?, erase, List.find?_eq_none]

@[simp]
theorem find?_insert_self (t : Table κ α) (key : κ) (value : α) :
    (t.insert key value).find? key = some value := by
  simp [find?, insert]

theorem find?_erase_of_ne (t : Table κ α) {key other : κ} (h : other ≠ key) :
    (t.erase key).find? other = t.find? other := by
  simp only [find?, erase, List.find?_filter]
  congr 2
  funext entry
  by_cases he : entry.1 = other <;> simp_all

theorem find?_insert_of_ne (t : Table κ α) {key other : κ} (value : α) (h : other ≠ key) :
    (t.insert key value).find? other = t.find? other := by
  rw [← find?_erase_of_ne t h]
  simp [find?, insert, Ne.symm h]

end Table

end FixEngine
