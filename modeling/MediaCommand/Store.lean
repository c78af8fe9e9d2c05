/-!
# Stores of shared objects

Objects that are shared live in a store and are known by references. A reference stays valid:
objects are added and replaced, never removed.
-/

namespace MediaCommand

/-- The kinds of shared objects. -/
inductive ObjectKind where
  | node
  | graph
  | split
  | filterSet
  | argumentList
  | command
  | executor
  | recorder
  | child
  deriving DecidableEq, Repr

/-- A reference to an object of a kind. -/
structure Ref (κ : ObjectKind) where
  index : Nat
  deriving DecidableEq, Repr

/-- Objects of one kind in the order they were made. -/
structure Store (κ : ObjectKind) (α : Type) where
  cells : List α

namespace Store

variable {κ : ObjectKind} {α : Type}

def empty : Store κ α := ⟨[]⟩

instance : Inhabited (Store κ α) := ⟨empty⟩

def get? (store : Store κ α) (ref : Ref κ) : Option α := store.cells[ref.index]?

/-- Replaces the object behind a reference. -/
def put (store : Store κ α) (ref : Ref κ) (object : α) : Store κ α :=
  ⟨store.cells.set ref.index object⟩

/-- The reference of the next object. -/
def next (store : Store κ α) : Ref κ := ⟨store.cells.length⟩

/-- Adds an object, known by `next`. -/
def add (store : Store κ α) (object : α) : Store κ α := ⟨store.cells ++ [object]⟩

theorem get?_put_self {store : Store κ α} {ref : Ref κ} {old new : α}
    (present : store.get? ref = some old) : (store.put ref new).get? ref = some new := by
  have lt : ref.index < store.cells.length := (List.getElem?_eq_some_iff.1 present).1
  simp [get?, put, lt]

theorem get?_put_other {store : Store κ α} {ref other : Ref κ} {new : α} (differ : other ≠ ref) :
    (store.put ref new).get? other = store.get? other := by
  have : ref.index ≠ other.index := fun same => differ (by cases ref; cases other; simp_all)
  simp [get?, put, this]

theorem put_self {store : Store κ α} {ref : Ref κ} {object : α}
    (present : store.get? ref = some object) : store.put ref object = store := by
  obtain ⟨lt, found⟩ := List.getElem?_eq_some_iff.1 present
  simp [put, ← found]

theorem put_put (store : Store κ α) (ref : Ref κ) (first second : α) :
    (store.put ref first).put ref second = store.put ref second := by
  simp [put]

theorem get?_add_next (store : Store κ α) (object : α) :
    (store.add object).get? store.next = some object := by
  simp [get?, add, next]

theorem get?_add_of_some {store : Store κ α} {ref : Ref κ} {old object : α}
    (present : store.get? ref = some old) : (store.add object).get? ref = some old := by
  have lt : ref.index < store.cells.length := (List.getElem?_eq_some_iff.1 present).1
  simpa [get?, add, List.getElem?_append_left lt] using present

end Store

end MediaCommand
