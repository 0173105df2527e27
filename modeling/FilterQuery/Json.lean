import FilterQuery.Binary64

/-!
# JSON documents

JSON is the tree that is left when its text has been read. The text is no part of the library, and
neither is the reading of a number from its digits: a number is there already, as the integer or the
double that it was read as. It is taken as given that it remembers which of the two, and that an
object keeps its members in order.
-/

namespace FilterQuery

inductive Json where
  | null
  | bool (b : Bool)
  | int (i : Int)
  | float (x : Binary64)
  | text (s : String)
  | array (items : List Json)
  | object (members : List (String × Json))

namespace Json

/-- JSON has no spelling for infinities and NaN, and `null` stands in for them. -/
def ofFloat (x : Binary64) : Json := if x.isFinite then .float x else .null

/-- A number that was written as an integer, if it fits sixty-four signed bits. -/
def int64? : Json → Option Int64
  | .int i =>
    if Int64.minValue.toInt ≤ i ∧ i ≤ Int64.maxValue.toInt then some (.ofInt i) else none
  | _ => none

/-- The double nearest to a number. -/
def double? : Json → Option Binary64
  | .int i => some (.ofInt i)
  | .float x => some x
  | _ => none

/-- The first member of that name. -/
def member? (members : List (String × Json)) (name : String) : Option Json :=
  (members.find? fun m => m.1 == name).map Prod.snd

end Json

end FilterQuery
