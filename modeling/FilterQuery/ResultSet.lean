import FilterQuery.Collection
import FilterQuery.Prepared
import FilterQuery.Session

/-!
# Result sets

The records that a filter selected, in a collection that is locked for good, together with the
filter and the target. So the result can say which page it is, and can have the rows of all pages
counted, if it is still connected to the store.
-/

namespace FilterQuery

structure ResultSet (α : Type) where
  records : Collection α
  prepared : Prepared
  target : Target
  connected : Bool

namespace ResultSet

variable {α : Type}

def ofRecords [Record α] (records : List α) (prepared : Prepared) (target : Target)
    (connected : Bool) : Except Error (ResultSet α) := do
  let collection ← Collection.ofList records
  return { records := collection.lock true, prepared, target, connected }

variable (r : ResultSet α)

def isPaged : Bool := r.prepared.filter.modifiers.paged

def pageNumber? : Option UInt64 := r.prepared.filter.modifiers.pageNumber?

def pageSize? : Option UInt64 := r.prepared.filter.modifiers.limitCount?

/-- How many rows all pages have together. -/
def total? {σ : Type} [Store σ] : Work σ (Option UInt64) := do
  if !r.isPaged then return none
  if !r.connected then throw (.storage ⟨"query result has no persistence handle", none⟩)
  let query ← Work.ofExcept
    (((r.prepared.filter.withProjection .countOnly).query r.target).mapError .compile)
  let rows ← Work.execute query
  return some (← Work.ofExcept (countOfRows rows))

end ResultSet

end FilterQuery
