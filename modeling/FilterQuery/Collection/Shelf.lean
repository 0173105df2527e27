import FilterQuery.Collection.Operation

/-!
# Several collections

Clones and subsets are collections of their own. A shelf holds collections in the order in which
they came about, and each task is about one of them: it changes the collection, asks it something,
clones it or selects some of its records. Clones and subsets are put at the end of the shelf.
-/

namespace FilterQuery

/-- What a collection can be asked. -/
inductive Question where
  | elements
  | elementType
  | locked
  | unlockable
  | values (field : String)
  | rows (fields : List String)
  | results (method : String) (arguments : List Value)

/-- What the records of a subset have in common. -/
inductive Selection where
  | field (field : String) (value : Value)
  | call (method : String) (arguments : List Value) (value : Value)

inductive Task (α : Type) where
  | change (i : Nat) (operation : Operation α)
  | ask (i : Nat) (question : Question)
  | clone (i : Nat)
  | select (i : Nat) (selection : Selection)

/-- What a task answers: the record taken or drawn, what was asked for, or where the new
collection stands. -/
inductive Response (α : Type) where
  | element (element : Option α)
  | elements (elements : List α)
  | elementType (recordType : Option String)
  | flag (isSet : Bool)
  | values (values : List Value)
  | rows (rows : List Row)
  | place (i : Nat)

namespace Collection

variable {α : Type} [Record α] (c : Collection α)

def answer : Question → Except Error (Response α)
  | .elements => .ok (.elements c.elements)
  | .elementType => .ok (.elementType c.elementType)
  | .locked => .ok (.flag c.locked)
  | .unlockable => .ok (.flag c.unlockable)
  | .values field => (c.getFromEach field).map .values
  | .rows fields => (c.getManyFromEach fields).map .rows
  | .results method arguments => (c.callForEach method arguments).map .values

def select : Selection → Except Error (Collection α)
  | .field field value => c.whereField field value
  | .call method arguments value => c.whereCall method arguments value

variable {c}

/-- A subset has some of the records in their order, and the type. -/
theorem exists_sublist_of_select {selection : Selection} {subset : Collection α}
    (h : c.select selection = .ok subset) :
    ∃ elements, elements.Sublist c.elements ∧
      subset = { elements, elementType := c.elementType } := by
  have made : ∀ keep, c.subset keep = .ok subset → ∃ elements, elements.Sublist c.elements ∧
      subset = { elements, elementType := c.elementType } := by
    intro keep h
    obtain ⟨elements, kept, h⟩ := Except.bind_eq_ok.mp h
    exact ⟨elements, sublist_of_keepM kept, (Except.ok.inj h).symm⟩
  cases selection with
  | field field value => exact made _ h
  | call method arguments value => exact made _ h

end Collection

structure Shelf (α : Type) where
  collections : List (Collection α) := []

namespace Shelf

variable {α : Type} (s : Shelf α)

def size : Nat := s.collections.length

def collection (i : Nat) : Collection α := s.collections[i]?.getD {}

def replace (i : Nat) (c : Collection α) : Shelf α := ⟨s.collections.set i c⟩

def add (c : Collection α) : Shelf α := ⟨s.collections ++ [c]⟩

@[simp] theorem size_replace (i : Nat) (c : Collection α) : (s.replace i c).size = s.size := by
  simp [size, replace]

@[simp] theorem size_add (c : Collection α) : (s.add c).size = s.size + 1 := by
  simp [size, add]

theorem collection_replace_self {i : Nat} (c : Collection α) (h : i < s.size) :
    (s.replace i c).collection i = c := by
  simp only [size] at h
  simp [collection, replace, h]

/-- A collection is put in the place of one, and the others stay. -/
theorem collection_replace_of_ne {i j : Nat} (c : Collection α) (h : i ≠ j) :
    (s.replace i c).collection j = s.collection j := by
  simp [collection, replace, List.getElem?_set_ne h]

/-- A new collection stands behind the others. -/
@[simp] theorem collection_add_size (c : Collection α) : (s.add c).collection s.size = c := by
  simp [collection, add, size]

theorem collection_add_of_lt {i : Nat} (c : Collection α) (h : i < s.size) :
    (s.add c).collection i = s.collection i := by
  rw [collection, collection, add, List.getElem?_append_left h]

variable [Record α]

/-- A subset that cannot be made leaves the shelf as it is. -/
def perform : Task α → Except Error (Response α) × Shelf α
  | .change i operation =>
    let (outcome, next) := (s.collection i).perform operation
    (outcome.map .element, s.replace i next)
  | .ask i question => ((s.collection i).answer question, s)
  | .clone i => (.ok (.place s.size), s.add (s.collection i))
  | .select i selection =>
    match (s.collection i).select selection with
    | .ok subset => (.ok (.place s.size), s.add subset)
    | .error e => (.error e, s)

/-- A task about another place, or one that only asks or adds, leaves a collection alone. -/
theorem collection_perform_of_ne {s : Shelf α} {k : Nat} (hk : k < s.size) {task : Task α}
    (other : ∀ operation, task ≠ .change k operation) :
    (s.perform task).2.collection k = s.collection k := by
  cases task with
  | change i operation =>
    have ne : i ≠ k := by
      rintro rfl
      exact other operation rfl
    exact collection_replace_of_ne s _ ne
  | ask i question => rfl
  | clone i => exact collection_add_of_lt s _ hk
  | select i selection =>
    simp only [perform]
    split
    · exact collection_add_of_lt s _ hk
    · rfl

/-- No task takes a collection off the shelf. -/
theorem size_le_perform (task : Task α) : s.size ≤ (s.perform task).2.size := by
  cases task with
  | change i operation => simp [perform]
  | ask i question => exact Nat.le_refl _
  | clone i => simp [perform]
  | select i selection =>
    simp only [perform]
    split
    · simp
    · exact Nat.le_refl _

/-- The shelf after a sequence of tasks. -/
def run (s : Shelf α) (tasks : List (Task α)) : Shelf α :=
  tasks.foldl (fun s task => (s.perform task).2) s

@[simp] theorem run_nil : s.run [] = s := rfl

@[simp] theorem run_cons (task : Task α) (rest : List (Task α)) :
    s.run (task :: rest) = (s.perform task).2.run rest := rfl

end Shelf

end FilterQuery
