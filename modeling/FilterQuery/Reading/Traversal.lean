import FilterQuery.Reading

/-!
# Traversals

A document is read in one order, whatever is made of it: entry by entry, what an entry holds within
the entry and before the entries that follow. A traversal says what is made of an entry once it is
known how to read what its value holds, and the rest of the way is the same for all of them.

Main statement: two traversals that are related on every entry are related on every document. The
reading of filters is such a traversal.
-/

namespace FilterQuery

structure Traversal (m : Type → Type) (α : Type) where
  /-- A document without entries. -/
  leaf : Path → m α
  empty : α
  /-- An entry, given how what its value holds is read. -/
  entry : Path → Key → Document → m α → m α

namespace Traversal

variable {m : Type → Type} [Monad m] {α : Type} [Append α] (t : Traversal m α)

def both (first later : m α) : m α := do
  let front ← first
  let back ← later
  return front ++ back

mutual

/-- Reads what a document holds. -/
def read (path : Path) : Document → m α
  | .list items => readItems path 0 items
  | .map entries => readEntries path entries
  | .scalar _ => t.leaf path
  | .expression _ => t.leaf path

def readItems (path : Path) (i : Nat) : List Document → m α
  | [] => pure t.empty
  | value :: rest =>
    both
      (t.entry (path ++ [.index i]) (.index i) value (read (path ++ [.index i]) value))
      (readItems path (i + 1) rest)

def readEntries (path : Path) : List (Key × Document) → m α
  | [] => pure t.empty
  | (key, value) :: rest =>
    both
      (t.entry (path ++ [key]) key value (read (path ++ [key]) value))
      (readEntries path rest)

end

/-- A relation between what two traversals make of a document. -/
structure Related {m' : Type → Type} [Monad m'] {α' : Type} [Append α'] (R : m α → m' α' → Prop)
    (t : Traversal m α) (t' : Traversal m' α') : Prop where
  leaf : ∀ path, R (t.leaf path) (t'.leaf path)
  empty : R (pure t.empty) (pure t'.empty)
  entry : ∀ path key value {inner inner'}, R inner inner' →
    R (t.entry path key value inner) (t'.entry path key value inner')
  both : ∀ {first first' later later'}, R first first' → R later later' →
    R (both first later) (both first' later')

namespace Related

variable {m' : Type → Type} [Monad m'] {α' : Type} [Append α'] {R : m α → m' α' → Prop}
  {t : Traversal m α} {t' : Traversal m' α'}

mutual

/-- Two traversals that are related entry by entry, and in how readings are put together, are
related on every document. -/
theorem read (h : Related R t t') (path : Path) (document : Document) :
    R (t.read path document) (t'.read path document) := by
  cases document with
  | list items => exact readItems h path 0 items
  | map entries => exact readEntries h path entries
  | scalar v => exact h.leaf path
  | expression e => exact h.leaf path

theorem readItems (h : Related R t t') (path : Path) (i : Nat) (items : List Document) :
    R (t.readItems path i items) (t'.readItems path i items) := by
  cases items with
  | nil => exact h.empty
  | cons value rest =>
    exact h.both (h.entry _ _ value (read h _ value)) (readItems h path (i + 1) rest)

theorem readEntries (h : Related R t t') (path : Path) (entries : List (Key × Document)) :
    R (t.readEntries path entries) (t'.readEntries path entries) := by
  cases entries with
  | nil => exact h.empty
  | cons entry rest =>
    exact h.both (h.entry _ _ entry.2 (read h _ entry.2)) (readEntries h path rest)

end

end Related

end Traversal

/-- The reading of filters. -/
def Reading.traversal (known : Option (List String)) : Traversal (Except CompileError) Reading where
  leaf path := path.refuse .unknownShape
  empty := {}
  entry path key value inner :=
    match Shape.of known key value with
    | .group => readGroup path key inner
    | shape => shape.read path value

namespace Reading

mutual

/-- Reading by shapes is a traversal, in which an entry that is no group passes over what is in it.
-/
theorem traversal_entry (known : Option (List String)) (path : Path) (key : Key)
    (value : Document) :
    (traversal known).entry path key value ((traversal known).read path value) =
      readEntry known path key value := by
  cases value with
  | list items =>
    rw [readEntry, Traversal.read, traversal_items]
    rfl
  | map entries =>
    rw [readEntry, Traversal.read, traversal_entries]
    rfl
  | scalar v =>
    rw [readEntry]
    rfl
  | expression e =>
    rw [readEntry_eq]
    rfl

theorem traversal_items (known : Option (List String)) (path : Path) (i : Nat)
    (items : List Document) :
    (traversal known).readItems path i items = readItems known path i items := by
  cases items with
  | nil => rfl
  | cons value rest =>
    rw [Traversal.readItems, traversal_entry, traversal_items, readItems]
    rfl

theorem traversal_entries (known : Option (List String)) (path : Path)
    (entries : List (Key × Document)) :
    (traversal known).readEntries path entries = readEntries known path entries := by
  cases entries with
  | nil => rfl
  | cons entry rest =>
    rw [Traversal.readEntries, traversal_entry, traversal_entries, readEntries]
    rfl

end

/-- Reading documents is a traversal. -/
theorem read_traversal (known : Option (List String)) (document : Document) :
    (traversal known).read [] document = document.read known := by
  cases document with
  | list items => exact (traversal_items known [] 0 items).trans (readItems_eq_readEntries ..)
  | map entries => exact traversal_entries known [] entries
  | scalar v => rfl
  | expression e => rfl

end Reading

end FilterQuery
