import FilterQuery.Modifiers
import FilterQuery.Clause

/-!
# Filters

A filter is a condition with the modifiers of the query that it makes. It never changes: selecting
other columns or one page of the rows makes another filter.
-/

namespace FilterQuery

structure Filter where
  root : Group := {}
  modifiers : Modifiers := {}
  deriving Repr

namespace Filter

/-- The filter that every row passes. -/
def all : Filter := {}

def withProjection (f : Filter) (projection : Projection) : Filter :=
  { f with modifiers := { f.modifiers with projection } }

def withPage (f : Filter) (number size : UInt64) : Filter :=
  { f with modifiers := f.modifiers.setPage number size }

@[simp] theorem root_withProjection (f : Filter) (projection : Projection) :
    (f.withProjection projection).root = f.root := rfl

@[simp] theorem root_withPage (f : Filter) (number size : UInt64) :
    (f.withPage number size).root = f.root := rfl

end Filter

end FilterQuery
