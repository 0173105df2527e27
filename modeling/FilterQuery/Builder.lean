import FilterQuery.Filter

/-!
# Building filters call by call

A filter can be built by a sequence of calls, each adding a clause or setting a modifier. The body
of a nested group takes calls that add clauses, and no others.
-/

namespace FilterQuery

/-- A call that adds one clause. -/
inductive Condition where
  | clause (clause : Clause)
  | group (combinator : Combinator) (body : List Condition)

namespace Condition

def compare (field : String) (comparator : Comparator) (value : Value) : Condition :=
  .clause (.comparison field comparator value)

def eq (field : String) (value : Value) : Condition := .compare field .eq value
def notEq (field : String) (value : Value) : Condition := .compare field .notEq value
def gt (field : String) (value : Value) : Condition := .compare field .gt value
def lt (field : String) (value : Value) : Condition := .compare field .lt value
def gtEq (field : String) (value : Value) : Condition := .compare field .gtEq value
def ltEq (field : String) (value : Value) : Condition := .compare field .ltEq value
def isNull (field : String) : Condition := .clause (.nullCheck field true)
def isNotNull (field : String) : Condition := .clause (.nullCheck field false)
def isIn (field : String) (values : List Value) : Condition :=
  .clause (.membership field false values)
def notIn (field : String) (values : List Value) : Condition :=
  .clause (.membership field true values)
def like (field : String) (value : Value) : Condition := .clause (.pattern field false value)
def notLike (field : String) (value : Value) : Condition := .clause (.pattern field true value)
def expression (sql : String) (values : List Value) : Condition := .clause (.raw ⟨sql, values⟩)

mutual

def toClause : Condition → Clause
  | .clause c => c
  | .group combinator body => .group combinator (toClauses body)

def toClauses : List Condition → List Clause
  | [] => []
  | condition :: rest => condition.toClause :: toClauses rest

end

end Condition

inductive Call where
  | condition (condition : Condition)
  | orQuery (on : Bool)
  | order (criterion : Criterion)
  | groupBy (column : String)
  | limit (rows : UInt64) (skip : Option UInt64)
  | page (number size : UInt64)
  | distinct (on : Bool)
  | idOnly (on : Bool)
  | countOnly

namespace Call

def modify (m : Modifiers) : Call → Modifiers
  | .condition _ | .orQuery _ => m
  | .order criterion => { m with order := m.order ++ [criterion] }
  | .groupBy column => { m with groupBy := m.groupBy ++ [column] }
  | .limit rows skip => { m with limit := some (.ofCount rows), offset := skip.map .ofCount }
  | .page number size => m.setPage number size
  | .distinct on => { m with distinct := on }
  | .idOnly on => { m with projection := if on then .idOnly else .full }
  | .countOnly => { m with projection := .countOnly }

def extend (g : Group) : Call → Group
  | .condition c => { g with children := g.children ++ [c.toClause] }
  | .orQuery on => { g with combinator := if on then .or else .and }
  | _ => g

def apply (f : Filter) (call : Call) : Filter :=
  { root := call.extend f.root, modifiers := call.modify f.modifiers }

end Call

/-- The filter that these calls build, from the one that every row passes. -/
def Filter.build (calls : List Call) : Filter := calls.foldl Call.apply .all

theorem Filter.build_append (calls : List Call) (call : Call) :
    build (calls ++ [call]) = call.apply (build calls) := by
  rw [build, List.foldl_append]
  rfl

end FilterQuery
