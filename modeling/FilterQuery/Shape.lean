import FilterQuery.Operator
import FilterQuery.Rule

/-!
# Shapes of entries

What one entry of a filter document stands for is decided by its key and the outline of its value,
and the first of these that applies is taken: a query rule, raw SQL, a field with the scalar it
must equal, a field with a pair of operator and operand, a position with a triple of field,
operator and operand, a group. A key names a field unless it is numeric or begins with a colon.
A shape holds the parts that it was recognised by, so nothing has to be taken apart a second time.
-/

namespace FilterQuery

inductive Shape where
  | rule (name : RuleName)
  | expression (expression : Expression)
  | equality (field : String) (value : Value)
  | pair (field : String) (operator operand : Document)
  | triple (field operator operand : Document)
  | group
  | unknown
  deriving Repr

namespace Shape

/-- With a list of known fields, only these may be set equal to a scalar. -/
def ofField (known : Option (List String)) (field : String) (value : Document) : Shape :=
  match value with
  | .scalar v => if known.all (·.contains field) then .equality field v else .unknown
  | _ =>
    match value.sequence? with
    | some [operator, operand] => .pair field operator operand
    | _ => .unknown

/-- Field and operator of a triple have to be no composites; else the three are a group. -/
def ofPosition (value : Document) : Shape :=
  match value.sequence? with
  | some [field, operator, operand] =>
    if field.isComposite || operator.isComposite then .group else .triple field operator operand
  | _ => if value.isComposite then .group else .unknown

def isPrefixed (name : String) : Bool := name.toList.head? == some ':'

def of (known : Option (List String)) (key : Key) (value : Document) : Shape :=
  match key.name?.bind RuleName.ofKey?, value with
  | some name, _ => .rule name
  | none, .expression e => .expression e
  | none, value =>
    match key with
    | .index _ => ofPosition value
    | .name name =>
      if key.isNumeric then ofPosition value
      else if isPrefixed name then .group
      else ofField known name value

end Shape

end FilterQuery
