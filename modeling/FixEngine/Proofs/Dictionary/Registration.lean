import FixEngine.Dictionary.Basic

/-!
# Registered groups

A dictionary to which groups are only added has each of them under its own count
tag.
-/

namespace FixEngine

/-- Every group of the dictionary stands under its own count tag, as groups do
that are registered. -/
def Dictionary.IsRegistered (d : Dictionary) : Prop :=
  ∀ tag layout, d.layout? tag = some layout → layout.countTag = tag

namespace Dictionary

variable {d : Dictionary}

theorem isRegistered_plain (version : Version) : (plain version).IsRegistered := by
  intro tag layout h
  contradiction

theorem IsRegistered.withType (h : d.IsRegistered) (tag : Tag) (type : DataType) :
    (d.withType tag type).IsRegistered := h

theorem IsRegistered.withGroup (h : d.IsRegistered) (layout : Layout) :
    (d.withGroup layout).IsRegistered := by
  intro tag layout' hlayout
  rw [layout?, Dictionary.withGroup] at hlayout
  by_cases htag : tag = layout.countTag
  · subst htag
    rw [Table.find?_insert_self] at hlayout
    cases hlayout
    rfl
  · rw [Table.find?_insert_of_ne _ _ htag] at hlayout
    exact h tag layout' hlayout

theorem isRegistered_standard (version : Version) : (standard version).IsRegistered := by
  have hgroups (layouts : List Layout) {d : Dictionary} (h : d.IsRegistered) :
      (layouts.foldl Dictionary.withGroup d).IsRegistered := by
    induction layouts generalizing d with
    | nil => exact h
    | cons layout rest ih => exact ih (h.withGroup layout)
  exact hgroups Layout.standard (isRegistered_plain version)

end Dictionary

end FixEngine
