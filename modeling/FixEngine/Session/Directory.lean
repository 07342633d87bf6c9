import FixEngine.Session.Identity
import FixEngine.Table

/-!
# Directories of sessions

A directory says which owner holds the session of an identity.  Owners are
numbered.  An identity has one owner at a time, and only that owner can give it
up.
-/

namespace FixEngine

/-- The number of an owner. -/
abbrev Owner := Nat

/-- The owners of identities. -/
abbrev Directory := Table SessionId Owner

namespace Directory

def empty : Directory := Table.empty

/-- Takes an identity if it is free.  Answers the owner that it has then, and
whether it was free. -/
def claim (d : Directory) (id : SessionId) (owner : Owner) : Directory × Owner × Bool :=
  match d.find? id with
  | some holder => (d, holder, false)
  | none => (d.insert id owner, owner, true)

/-- Gives up an identity if the owner holds it. -/
def release (d : Directory) (id : SessionId) (owner : Owner) : Directory :=
  if d.find? id = some owner then d.erase id else d

def ids (d : Directory) : List SessionId := SessionId.sorted d.keys

end Directory

end FixEngine
