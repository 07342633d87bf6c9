import FixEngine.Message.Value

/-!
# Message bodies

A body is a list of entries in wire order.  An entry is a field or a repeating
group, and each instance of a group is a list of entries again.  On the wire a
group is a field with the number of instances, followed by what the instances
hold.
-/

namespace FixEngine

/-- An entry of a body or of a group instance. -/
inductive Entry where
  | field (field : Field)
  | group (countTag : Tag) (instances : List (List Entry))
  deriving Repr

namespace Entry

/-! ### Equality -/

mutual

def decEq : (a b : Entry) → Decidable (a = b)
  | field f, field g =>
    if h : f = g then isTrue (by rw [h]) else isFalse fun he => h (by injection he)
  | group countTag instances, group countTag' instances' =>
    match decEqInstances instances instances' with
    | isTrue h =>
      if ht : countTag = countTag' then isTrue (by rw [h, ht])
      else isFalse fun he => ht (by injection he)
    | isFalse h => isFalse fun he => h (by injection he)
  | field _, group _ _ => isFalse fun he => by injection he
  | group _ _, field _ => isFalse fun he => by injection he

def decEqList : (a b : List Entry) → Decidable (a = b)
  | [], [] => isTrue rfl
  | [], _ :: _ => isFalse fun he => by injection he
  | _ :: _, [] => isFalse fun he => by injection he
  | a :: rest, b :: rest' =>
    match decEq a b, decEqList rest rest' with
    | isTrue h, isTrue hr => isTrue (by rw [h, hr])
    | isFalse h, _ => isFalse fun he => h (by injection he)
    | _, isFalse hr => isFalse fun he => hr (by injection he)

def decEqInstances : (a b : List (List Entry)) → Decidable (a = b)
  | [], [] => isTrue rfl
  | [], _ :: _ => isFalse fun he => by injection he
  | _ :: _, [] => isFalse fun he => by injection he
  | a :: rest, b :: rest' =>
    match decEqList a b, decEqInstances rest rest' with
    | isTrue h, isTrue hr => isTrue (by rw [h, hr])
    | isFalse h, _ => isFalse fun he => h (by injection he)
    | _, isFalse hr => isFalse fun he => hr (by injection he)

end

instance : DecidableEq Entry := decEq

/-! ### Fields -/

/-- The tag of the field, or the tag that counts the instances. -/
def tag : Entry → Tag
  | field f => f.tag
  | group countTag _ => countTag

/-- The field that announces a group. -/
def countField (countTag : Tag) (count : Nat) : Field :=
  ⟨countTag, .integer (Int64.ofInt count)⟩

mutual

/-- The fields of an entry in wire order. -/
def fields : Entry → List Field
  | field f => [f]
  | group countTag instances =>
    countField countTag instances.length :: fieldsOfInstances instances

def fieldsOf : List Entry → List Field
  | [] => []
  | entry :: rest => entry.fields ++ fieldsOf rest

def fieldsOfInstances : List (List Entry) → List Field
  | [] => []
  | entries :: rest => fieldsOf entries ++ fieldsOfInstances rest

end

@[simp]
theorem fieldsOf_append (left right : List Entry) :
    fieldsOf (left ++ right) = fieldsOf left ++ fieldsOf right := by
  induction left with
  | nil => rfl
  | cons entry rest ih => simp [fieldsOf, ih]

@[simp]
theorem fieldsOfInstances_append (left right : List (List Entry)) :
    fieldsOfInstances (left ++ right) = fieldsOfInstances left ++ fieldsOfInstances right := by
  induction left with
  | nil => rfl
  | cons entries rest ih => simp [fieldsOfInstances, ih]

/-- The field, if the entry is one with the tag. -/
def fieldWith? (tag : Tag) : Entry → Option Field
  | field f => if f.tag = tag then some f else none
  | group _ _ => none

/-- The instances, if the entry is a group with the tag. -/
def groupWith? (tag : Tag) : Entry → Option (List (List Entry))
  | field _ => none
  | group countTag instances => if countTag = tag then some instances else none

/-- The first field with a tag. -/
def find? (tag : Tag) (entries : List Entry) : Option Field :=
  entries.findSome? (fieldWith? tag)

/-- The instances of the first group with a tag. -/
def findGroup? (tag : Tag) (entries : List Entry) : Option (List (List Entry)) :=
  entries.findSome? (groupWith? tag)

end Entry

end FixEngine
