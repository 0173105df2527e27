import FilterQuery.Value

/-!
# Clauses

A filter is a tree: comparisons and other tests of one field at the leaves, groups joined by AND
or OR above them. A leaf may also be a piece of SQL taken as it stands, with the values for its
placeholders. The values of a tree are those of its leaves from left to right.
-/

namespace FilterQuery

inductive Comparator where
  | eq
  | notEq
  | lt
  | gt
  | ltEq
  | gtEq
  deriving DecidableEq, Repr

def Comparator.sql : Comparator → String
  | .eq => "="
  | .notEq => "!="
  | .lt => "<"
  | .gt => ">"
  | .ltEq => "<="
  | .gtEq => ">="

inductive Combinator where
  | and
  | or
  deriving DecidableEq, Repr

def Combinator.joiner : Combinator → String
  | .and => " AND "
  | .or => " OR "

structure Expression where
  sql : String
  values : List Value := []
  deriving DecidableEq, Repr

inductive Clause where
  | comparison (field : String) (comparator : Comparator) (value : Value)
  | membership (field : String) (negate : Bool) (values : List Value)
  | nullCheck (field : String) (isNull : Bool)
  | pattern (field : String) (negate : Bool) (value : Value)
  | raw (expression : Expression)
  | group (combinator : Combinator) (children : List Clause)
  deriving Repr

/-- The outermost group of a filter. -/
structure Group where
  combinator : Combinator := .and
  children : List Clause := []
  deriving Repr

namespace Clause

mutual

def values : Clause → List Value
  | .comparison _ _ value => [value]
  | .membership _ _ values => values
  | .nullCheck _ _ => []
  | .pattern _ _ value => [value]
  | .raw expression => expression.values
  | .group _ children => valuesOfAll children

def valuesOfAll : List Clause → List Value
  | [] => []
  | clause :: rest => clause.values ++ valuesOfAll rest

end

mutual

/-- How many values a clause and everything below it need. -/
def valueCount : Clause → Nat
  | .comparison _ _ _ => 1
  | .membership _ _ values => values.length
  | .nullCheck _ _ => 0
  | .pattern _ _ _ => 1
  | .raw expression => expression.values.length
  | .group _ children => valueCountOfAll children

def valueCountOfAll : List Clause → Nat
  | [] => 0
  | clause :: rest => clause.valueCount + valueCountOfAll rest

end

mutual

/-- How many groups a clause is made of. -/
def groupCount : Clause → Nat
  | .group _ children => groupCountOfAll children + 1
  | _ => 0

def groupCountOfAll : List Clause → Nat
  | [] => 0
  | clause :: rest => clause.groupCount + groupCountOfAll rest

end

mutual

/-- A clause has as many values as are counted for it. -/
theorem length_values (clause : Clause) : clause.values.length = clause.valueCount := by
  cases clause with
  | group combinator children => simpa [values, valueCount] using length_valuesOfAll children
  | _ => simp [values, valueCount]

theorem length_valuesOfAll (clauses : List Clause) :
    (valuesOfAll clauses).length = valueCountOfAll clauses := by
  cases clauses with
  | nil => rfl
  | cons clause rest =>
    simp [valuesOfAll, valueCountOfAll, length_values clause, length_valuesOfAll rest]

end

/-- A group stays as it is; any other clause becomes an AND group of its own. -/
def enclosed : Clause → Clause
  | .group combinator children => .group combinator children
  | leaf => .group .and [leaf]

end Clause

/-- The groups below the outermost one. -/
def Group.nestedGroups (g : Group) : Nat := Clause.groupCountOfAll g.children

def Group.values (g : Group) : List Value := Clause.valuesOfAll g.children

end FilterQuery
