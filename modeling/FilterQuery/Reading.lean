import FilterQuery.Filter
import FilterQuery.Shape

/-!
# From documents to filters

A document is read entry by entry, a group before the entry that follows it. Each entry gives a
clause or a query rule or is refused, and the first refusal ends the reading. Rules only gather in
document order; what they do to the modifiers is worked out when the whole document has been read.

Every clause at the top of a document is a term of its own in the final conjunction, so a clause
that is no group is enclosed in one. Further down, clauses stand as they are.
-/

namespace FilterQuery

/-- What some entries of a document amount to. -/
structure Reading where
  clauses : List Clause := []
  rules : List Rule := []
  deriving Repr

namespace Reading

def append (a b : Reading) : Reading := ⟨a.clauses ++ b.clauses, a.rules ++ b.rules⟩

instance : Append Reading := ⟨append⟩

@[simp] theorem clauses_append (a b : Reading) : (a ++ b).clauses = a.clauses ++ b.clauses := rfl
@[simp] theorem rules_append (a b : Reading) : (a ++ b).rules = a.rules ++ b.rules := rfl

@[simp] theorem empty_append (a : Reading) : {} ++ a = a := rfl

theorem append_assoc (a b c : Reading) : a ++ b ++ c = a ++ (b ++ c) := by
  change Reading.mk _ _ = Reading.mk _ _
  simp only [clauses_append, rules_append, List.append_assoc]

def ofClause (clause : Clause) : Reading := { clauses := [clause] }
def ofRule (rule : Rule) : Reading := { rules := [rule] }

end Reading

def Path.refuse {α : Type} (path : Path) (fault : CompileFault) : Except CompileError α :=
  .error ⟨path.text, fault⟩

/-- Equality with null is a test for null, since nothing equals null. -/
def Clause.ofComparison (field : String) : Comparator → Value → Clause
  | .eq, .null => .nullCheck field true
  | .notEq, .null => .nullCheck field false
  | comparator, value => .comparison field comparator value

/-- The clause of a field, an operator and its operand, if the operand fits the operator. -/
def Operator.clause? : Operator → String → Document → Option Clause
  | .compare comparator, field, .scalar value => some (.ofComparison field comparator value)
  | .membership negate, field, operand => operand.operands?.map (.membership field negate)
  | .pattern negate, field, .scalar value => some (.pattern field negate value)
  | .nullTest negate, field, .scalar .null => some (.nullCheck field !negate)
  | _, _, _ => none

def readOperation (path : Path) (field operator : String) (operand : Document) :
    Except CompileError Reading :=
  match Operator.ofText? operator with
  | none => path.refuse (.unknownOperator operator)
  | some op =>
    match op.clause? field operand with
    | some clause => .ok (.ofClause clause)
    | none => path.refuse .unknownShape

/-- Reads every shape but a group. -/
def Shape.read (path : Path) (value : Document) : Shape → Except CompileError Reading
  | .rule name => (Rule.read name path value).map .ofRule
  | .expression e => .ok (.ofClause (.raw e))
  | .equality field v => .ok (.ofClause (.ofComparison field .eq v))
  | .pair field operator operand =>
    match operator.text? with
    | some operator => readOperation path field operator operand
    | none => path.refuse .malformedComparison
  | .triple field operator operand =>
    match field.text?, operator.text? with
    | some field, some operator => readOperation path field operator operand
    | _, _ => path.refuse .malformedComparison
  | .group | .unknown => path.refuse .unknownShape

/-- A numeric key joins with AND, and any other key of a group has to name its combinator. -/
def Key.combinator (path : Path) (key : Key) : Except CompileError Combinator :=
  match key with
  | .index _ => .ok .and
  | .name s =>
    if key.isNumeric then .ok .and
    else match Combinator.ofKey? s with
      | some joined => .ok joined
      | none => path.refuse (.unknownCombinator s)

/-- A group around what its entries amount to. -/
def readGroup (path : Path) (key : Key) (inner : Except CompileError Reading) :
    Except CompileError Reading := do
  let combinator ← key.combinator path
  let reading ← inner
  return ⟨[.group combinator reading.clauses], reading.rules⟩

mutual

/-- Reads the entry at `path`, whose last key is `key`. -/
def readEntry (known : Option (List String)) (path : Path) (key : Key) :
    Document → Except CompileError Reading
  | .list items =>
    match Shape.of known key (.list items) with
    | .group => readGroup path key (readItems known path 0 items)
    | shape => shape.read path (.list items)
  | .map entries =>
    match Shape.of known key (.map entries) with
    | .group => readGroup path key (readEntries known path entries)
    | shape => shape.read path (.map entries)
  | .scalar value =>
    match Shape.of known key (.scalar value) with
    | .group => readGroup path key (path.refuse .unknownShape)
    | shape => shape.read path (.scalar value)
  | .expression e => (Shape.of known key (.expression e)).read path (.expression e)

/-- Reads the items of a list from position `i` on. -/
def readItems (known : Option (List String)) (path : Path) (i : Nat) :
    List Document → Except CompileError Reading
  | [] => .ok {}
  | item :: rest => do
    let first ← readEntry known (path ++ [.index i]) (.index i) item
    let later ← readItems known path (i + 1) rest
    return first ++ later

def readEntries (known : Option (List String)) (path : Path) :
    List (Key × Document) → Except CompileError Reading
  | [] => .ok {}
  | (key, value) :: rest => do
    let first ← readEntry known (path ++ [key]) key value
    let later ← readEntries known path rest
    return first ++ later

end

/-- A list is read as the entries under its positions. -/
theorem readItems_eq_readEntries (known : Option (List String)) (path : Path) (i : Nat)
    (items : List Document) :
    readItems known path i items = readEntries known path (Document.indexed i items) := by
  induction items generalizing i with
  | nil => rfl
  | cons item rest ih => simp [readItems, Document.indexed, readEntries, ih]

/-- Entries are read one after another, and nothing but their readings is put together. -/
theorem readEntries_append_eq (known : Option (List String)) (path : Path)
    (front back : List (Key × Document)) :
    readEntries known path (front ++ back) = do
      let first ← readEntries known path front
      let later ← readEntries known path back
      return first ++ later := by
  induction front with
  | nil => exact (bind_pure (readEntries known path back)).symm
  | cons entry rest ih =>
    simp only [List.cons_append, readEntries, ih, bind_assoc, pure_bind, Reading.append_assoc]

/-- Raw SQL is never a group. -/
theorem Shape.of_expression_ne_group (known : Option (List String)) (key : Key) (e : Expression) :
    Shape.of known key (.expression e) ≠ .group := by
  unfold Shape.of
  split
  · simp
  · simp
  · next outline => exact absurd rfl (outline e)

/-- An entry is read by its shape, and a group by the entries of its value. -/
theorem readEntry_eq (known : Option (List String)) (path : Path) (key : Key) (value : Document) :
    readEntry known path key value =
      match Shape.of known key value with
      | .group =>
        readGroup path key
          (match value.entries? with
            | some entries => readEntries known path entries
            | none => path.refuse .unknownShape)
      | shape => shape.read path value := by
  cases value with
  | scalar v => simp only [readEntry, Document.entries?]
  | list items => simp only [readEntry, Document.entries?, readItems_eq_readEntries]
  | map entries => simp only [readEntry, Document.entries?]
  | expression e =>
    rw [readEntry]
    have h := Shape.of_expression_ne_group known key e
    split
    · next group => exact absurd group h
    · rfl

def Document.read (known : Option (List String)) (document : Document) :
    Except CompileError Reading :=
  match document.entries? with
  | some entries => readEntries known [] entries
  | none => Path.refuse [] .unknownShape

def Reading.filter (reading : Reading) : Filter :=
  { root := ⟨.and, reading.clauses.map Clause.enclosed⟩
    modifiers := reading.rules.foldl Rule.apply {} }

/-- The filter that a document describes. With a list of known fields, no other field may be set
equal to a scalar. -/
def Filter.ofDocument (document : Document) (known : Option (List String) := none) :
    Except CompileError Filter :=
  (document.read known).map Reading.filter

end FilterQuery
