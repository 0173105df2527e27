import FilterQuery.Text.Blank
import FilterQuery.Text.Letters

/-!
# Sort orders

The ORDER BY part of a query: expressions taken as they stand, each with a direction.
-/

namespace FilterQuery

inductive Direction where
  | asc
  | desc
  deriving DecidableEq, Repr

namespace Direction

def sql : Direction → String
  | .asc => "ASC"
  | .desc => "DESC"

def ofChars? : List Char → Option Direction
  | ['a', 's', 'c'] => some .asc
  | ['a', 's', 'c', 'e', 'n', 'd', 'i', 'n', 'g'] => some .asc
  | ['d', 'e', 's', 'c'] => some .desc
  | ['d', 'e', 's', 'c', 'e', 'n', 'd', 'i', 'n', 'g'] => some .desc
  | _ => none

def ofText? (s : String) : Option Direction := ofChars? (Text.lower (Text.trim s.toList))

end Direction

structure Criterion where
  expression : String
  direction : Direction := .asc
  deriving DecidableEq, Repr

def Criterion.sql (c : Criterion) : String := c.expression ++ " " ++ c.direction.sql

/-- The criteria in order of weight; nothing is written if there are none. -/
def orderSql? : List Criterion → Option String
  | [] => none
  | criteria => some (String.intercalate ", " (criteria.map Criterion.sql))

end FilterQuery
