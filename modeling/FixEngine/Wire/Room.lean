/-!
# Room for received bytes

The bytes of a connection are read into a block of memory, as many in one
reading as there is room behind the bytes that wait.  Bytes that were taken up
stay in the block, in front of those that wait.  When there is no room left, the
bytes that wait move to the front if those taken up made place for all of them;
otherwise the block becomes twice as large.
-/

namespace FixEngine

/-- What a block of memory holds besides the bytes that wait. -/
structure Room where
  /-- The bytes in front that were taken up. -/
  spent : Nat
  /-- The bytes behind that can be read into. -/
  free : Nat
  deriving DecidableEq, Repr

namespace Room

/-- The block of a connection before its first byte. -/
def initial : Room := ⟨0, 8192⟩

/-- Makes room for one more byte behind those that wait. -/
def renewed (room : Room) (waiting : Nat) : Room :=
  if 0 < room.free then room
  else if 0 < room.spent ∧ waiting ≤ room.spent then ⟨0, room.spent⟩
  else ⟨room.spent, max 1 (room.spent + waiting)⟩

/-- After a reading, some of the bytes that waited being taken up. -/
def afterReading (room : Room) (read takenUp : Nat) : Room :=
  ⟨room.spent + takenUp, room.free - read⟩

/-- A reading always has room for a byte. -/
theorem free_renewed_pos (room : Room) (waiting : Nat) : 0 < (room.renewed waiting).free := by
  unfold renewed
  split
  · assumption
  · split
    · next hspent => exact hspent.1
    · exact Nat.lt_of_lt_of_le Nat.one_pos (Nat.le_max_left 1 _)

end Room

end FixEngine
