import FilterQuery.Error
import FilterQuery.Sort

/-!
# Query modifiers

Everything in a query beside its condition: what is selected, how it is grouped, ordered and
limited. Limit and offset are kept as they were given and looked at only when the query is made,
so a modifier also remembers where in a filter document they stood.

A page is a limit and an offset. Pages are numbered from 1, and page 0 is read as page 1.
-/

namespace FilterQuery

inductive Projection where
  | full
  | idOnly
  | countOnly
  deriving DecidableEq, Repr

structure Modifiers where
  order : List Criterion := []
  groupBy : List String := []
  limit : Option Value := none
  offset : Option Value := none
  distinct : Bool := false
  projection : Projection := .full
  paged : Bool := false
  limitPath : Option String := none
  offsetPath : Option String := none
  deriving DecidableEq, Repr

namespace Modifiers

variable (m : Modifiers)

def limitCount? : Option UInt64 := m.limit.bind Value.count?
def offsetCount? : Option UInt64 := m.offset.bind Value.count?

/-- Rows before a page, no more than a word can count. -/
def rowsBefore (number size : UInt64) : UInt64 :=
  .ofNat (min (size.toNat * ((max number 1).toNat - 1)) (UInt64.size - 1))

def setPage (number size : UInt64) : Modifiers :=
  { m with
    limit := some (.ofCount size)
    offset := some (.ofCount (rowsBefore number size))
    limitPath := none
    offsetPath := none
    paged := true }

@[simp] theorem limit_setPage (number size : UInt64) :
    (m.setPage number size).limit = some (.ofCount size) := rfl

@[simp] theorem offset_setPage (number size : UInt64) :
    (m.setPage number size).offset = some (.ofCount (rowsBefore number size)) := rfl

@[simp] theorem paged_setPage (number size : UInt64) : (m.setPage number size).paged = true := rfl

/-- The number of the page that limit and offset describe: a page of no rows is the first. -/
def pageNumber? : Option UInt64 :=
  if m.paged then
    let limit := m.limitCount?.getD 0
    some (if limit = 0 then 1 else m.offsetCount?.getD 0 / limit + 1)
  else none

/-- An absent value is no count, and one that is there has to be a count. -/
def countOf (value : Option Value) (path : String) (fault : String → CompileFault) :
    Except CompileError (Option UInt64) :=
  match value with
  | none => .ok none
  | some v =>
    match v.count? with
    | some n => .ok (some n)
    | none => .error ⟨path, fault v.display⟩

/-- Limit and offset as counts; of two faulty ones the limit is blamed. -/
def window : Except CompileError (Option UInt64 × Option UInt64) := do
  let limit ← countOf m.limit (m.limitPath.getD "/:limit") .invalidLimit
  let offset ← countOf m.offset (m.offsetPath.getD "/:limit/offset") .invalidOffset
  return (limit, offset)

end Modifiers

end FilterQuery
