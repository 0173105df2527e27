import FilterQuery.Document
import FilterQuery.Modifiers

/-!
# Query rules

Entries under the keys `:order`, `:limit` and `:group` do not filter: wherever they stand in a
document, they change the modifiers of the whole query. A rule is read without regard to the rules
before it, and takes effect afterwards.
-/

namespace FilterQuery

inductive RuleName where
  | order
  | limit
  | group
  deriving DecidableEq, Repr

/-- Rule keys may be written in any mixture of ASCII capitals and small letters. -/
def RuleName.ofKey? (key : String) : Option RuleName :=
  match Text.asciiLower key.toList with
  | [':', 'o', 'r', 'd', 'e', 'r'] => some .order
  | [':', 'l', 'i', 'm', 'i', 't'] => some .limit
  | [':', 'g', 'r', 'o', 'u', 'p'] => some .group
  | _ => none

/-- A value and the path of the place where it stands. -/
structure Located where
  value : Value
  path : String
  deriving DecidableEq, Repr

inductive Rule where
  | order (criteria : List Criterion)
  | limit (rows : Located) (skip : Option Located)
  | group (columns : List String)
  deriving DecidableEq, Repr

namespace Rule

/-- Orders and groups add to those before them, and a later limit replaces an earlier one. A rule
that gives no offset leaves the offset alone. -/
def apply (m : Modifiers) : Rule → Modifiers
  | .order criteria => { m with order := m.order ++ criteria }
  | .group columns => { m with groupBy := m.groupBy ++ columns }
  | .limit rows none => { m with limit := some rows.value, limitPath := some rows.path }
  | .limit rows (some skip) =>
    { m with
      limit := some rows.value
      limitPath := some rows.path
      offset := some skip.value
      offsetPath := some skip.path }

def direction (path : Path) (document : Document) : Except CompileError Direction :=
  match document.text?.bind Direction.ofText? with
  | some direction => .ok direction
  | none => .error ⟨path.text, .invalidOrder document.describe⟩

/-- One item of an order: a field, or a pair of a field and a direction. -/
def criterion (path : Path) (item : Document) : Except CompileError Criterion :=
  match item.text?, item.sequence? with
  | some field, _ => .ok ⟨field, .asc⟩
  | none, some [field, way] =>
    match field.text? with
    | some field => (direction path way).map (⟨field, ·⟩)
    | none => .error ⟨path.text, .invalidOrder item.describe⟩
  | none, _ => .error ⟨path.text, .invalidOrder item.describe⟩

/-- One entry of an order that is written as a map from fields to directions. -/
def mappedCriterion (path : Path) (whole : Document) (entry : Key × Document) :
    Except CompileError Criterion :=
  match entry.1.name? with
  | some field => (direction path entry.2).map (⟨field, ·⟩)
  | none => .error ⟨path.text, .invalidOrder whole.describe⟩

def readOrder (path : Path) (document : Document) : Except CompileError Rule :=
  match document.text?, document.sequence?, document with
  | some field, _, _ => .ok (.order [⟨field, .asc⟩])
  | none, some items, _ => (items.mapM (criterion path)).map .order
  | none, none, .map entries => (entries.mapM (mappedCriterion path document)).map .order
  | none, none, _ => .error ⟨path.text, .invalidOrder document.describe⟩

def readLimit (path : Path) (document : Document) : Except CompileError Rule :=
  let slot (i : Nat) (value : Value) : Located := ⟨value, Path.text (path ++ [.index i])⟩
  match document.scalar?, document.sequence? with
  | some rows, _ => .ok (.limit ⟨rows, path.text⟩ none)
  | none, some [.scalar rows] => .ok (.limit (slot 0 rows) none)
  | none, some [.scalar rows, .scalar skip] => .ok (.limit (slot 0 rows) (some (slot 1 skip)))
  | none, _ => .error ⟨path.text, .invalidLimit document.describe⟩

def readGroup (path : Path) (document : Document) : Except CompileError Rule :=
  match document.text?, document.sequence? with
  | some column, _ => .ok (.group [column])
  | none, some items =>
    match items.mapM Document.text? with
    | some columns => .ok (.group columns)
    | none => .error ⟨path.text, .unknownShape⟩
  | none, none => .error ⟨path.text, .unknownShape⟩

def read (name : RuleName) (path : Path) (document : Document) : Except CompileError Rule :=
  match name with
  | .order => readOrder path document
  | .limit => readLimit path document
  | .group => readGroup path document

end Rule

end FilterQuery
