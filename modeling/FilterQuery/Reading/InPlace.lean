import FilterQuery.Reading.Traversal

/-!
# Rules in place

A document can also be read with the modifiers of the query at hand. A rule then takes effect where
it stands, one item after another, before the next item or the next entry is looked at, and clauses
are all that is handed on. An error ends the reading, and the modifiers are lost with it.
-/

namespace FilterQuery

namespace Modifiers

def withCriterion (m : Modifiers) (criterion : Criterion) : Modifiers :=
  { m with order := m.order ++ [criterion] }

def withColumn (m : Modifiers) (column : String) : Modifiers :=
  { m with groupBy := m.groupBy ++ [column] }

end Modifiers

abbrev InPlace := StateT Modifiers (Except CompileError)

namespace InPlace

def ofExcept {α : Type} (outcome : Except CompileError α) : InPlace α := fun m => outcome.map (·, m)

def refuse {α : Type} (path : Path) (fault : CompileFault) : InPlace α :=
  ofExcept (path.refuse fault)

/-! ### Rules -/

def orderBy (criterion : Criterion) : InPlace Unit := modify fun m => m.withCriterion criterion

def groupBy (column : String) : InPlace Unit := modify fun m => m.withColumn column

def readOrder (path : Path) (value : Document) : InPlace Unit :=
  match value.text?, value.sequence?, value with
  | some field, _, _ => orderBy ⟨field, .asc⟩
  | none, some items, _ => items.forM fun item => do orderBy (← ofExcept (Rule.criterion path item))
  | none, none, .map entries =>
    entries.forM fun entry => do orderBy (← ofExcept (Rule.mappedCriterion path value entry))
  | none, none, _ => refuse path (.invalidOrder value.describe)

/-- A limit or an offset within the whole of a rule. -/
def bound (path : Path) (whole part : Document) : Except CompileError Value :=
  match part.scalar? with
  | some value => .ok value
  | none => path.refuse (.invalidLimit whole.describe)

/-- The limit is set before the offset is looked at, and both paths after that. -/
def readLimit (path : Path) (value : Document) : InPlace Unit :=
  match value.scalar?, value.sequence? with
  | some rows, _ => modify fun m => { m with limit := some rows, limitPath := some path.text }
  | none, some [rows] => do
    let rows ← ofExcept (bound path value rows)
    modify fun m => { m with limit := some rows }
    modify fun m => { m with limitPath := some (Path.text (path ++ [.index 0])) }
  | none, some [rows, skip] => do
    let rows ← ofExcept (bound path value rows)
    modify fun m => { m with limit := some rows }
    let skip ← ofExcept (bound path value skip)
    modify fun m => { m with offset := some skip }
    modify fun m => { m with limitPath := some (Path.text (path ++ [.index 0])) }
    modify fun m => { m with offsetPath := some (Path.text (path ++ [.index 1])) }
  | none, _ => refuse path (.invalidLimit value.describe)

def column (path : Path) (item : Document) : Except CompileError String :=
  match item.text? with
  | some column => .ok column
  | none => path.refuse .unknownShape

def readGroup (path : Path) (value : Document) : InPlace Unit :=
  match value.text?, value.sequence? with
  | some column, _ => groupBy column
  | none, some items => items.forM fun item => do groupBy (← ofExcept (column path item))
  | none, none => refuse path .unknownShape

def readRule (name : RuleName) (path : Path) (value : Document) : InPlace Unit :=
  match name with
  | .order => readOrder path value
  | .limit => readLimit path value
  | .group => readGroup path value

/-! ### Entries -/

variable (known : Option (List String))

/-- Reads an entry. What its value holds is read by `inner`. -/
def entry (path : Path) (key : Key) (value : Document) (inner : InPlace (List Clause)) :
    InPlace (List Clause) :=
  match Shape.of known key value with
  | .rule name => do
    readRule name path value
    return []
  | .group => do
    let combinator ← ofExcept (key.combinator path)
    return [.group combinator (← inner)]
  | shape => do
    let reading ← ofExcept (shape.read path value)
    return reading.clauses

def traversal : Traversal InPlace (List Clause) where
  leaf path := refuse path .unknownShape
  empty := []
  entry := entry known

end InPlace

/-- The filter of a document whose rules take effect where they stand. -/
def Document.filterInPlace (known : Option (List String)) (document : Document) :
    Except CompileError Filter := do
  let (clauses, modifiers) ← (InPlace.traversal known).read [] document {}
  return { root := ⟨.and, clauses.map Clause.enclosed⟩, modifiers }

end FilterQuery
