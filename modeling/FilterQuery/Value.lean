import FilterQuery.Binary64.Shortest
import FilterQuery.Decimal
import FilterQuery.Json

/-!
# Scalar values

One type serves bind values, row cells and record fields. Values of different kinds are ordered by
kind: null, truth values, numbers, text. Two integers are compared exactly; an integer beside a
double is rounded to a double first.
-/

namespace FilterQuery

inductive Value where
  | null
  | bool (b : Bool)
  | int (i : Int64)
  | float (x : Binary64)
  | text (s : String)
  deriving DecidableEq, Repr

namespace Value

instance : Inhabited Value := ⟨.null⟩
instance : Coe Bool Value := ⟨.bool⟩
instance : Coe Int64 Value := ⟨.int⟩
instance : Coe Binary64 Value := ⟨.float⟩
instance : Coe String Value := ⟨.text⟩

def ofOption {α : Type} (f : α → Value) : Option α → Value
  | none => .null
  | some a => f a

def isNull : Value → Bool
  | .null => true
  | _ => false

def text? : Value → Option String
  | .text s => some s
  | _ => none

def int? : Value → Option Int64
  | .int i => some i
  | _ => none

/-- The value read as a count: an integer that is not negative, or a text of decimal digits, as
long as the number fits a word. -/
def count? : Value → Option UInt64
  | .int i => if 0 ≤ i.toInt then some (.ofNat i.toInt.toNat) else none
  | .text s => Decimal.word? s.toList
  | _ => none

/-- The integer that a count is stored as; what is too large becomes the largest. -/
def ofCount (n : UInt64) : Value :=
  .int (.ofInt (min n.toNat ((1 <<< 63) - 1) : Nat))

/-- The place of the kind of a value among the kinds. -/
def rank : Value → Nat
  | .null => 0
  | .bool _ => 1
  | .int _ | .float _ => 2
  | .text _ => 3

def compare : Value → Value → Ordering
  | .null, .null => .eq
  | .bool a, .bool b => Ord.compare a b
  | .int a, .int b => Ord.compare a.toInt b.toInt
  | .int a, .float b => Ord.compare (Binary64.orderKeyOfInt a.toInt) b.orderKey
  | .float a, .int b => Ord.compare a.orderKey (Binary64.orderKeyOfInt b.toInt)
  | .float a, .float b => a.compare b
  | .text a, .text b => Ord.compare a b
  | a, b => Ord.compare a.rank b.rank

/-- Equality of contents, floats by their number: the zeros are equal and a NaN never is. -/
def sameContent : Value → Value → Bool
  | .float a, .float b => a.sameNumber b
  | a, b => a == b

def display : Value → String
  | .null => "NULL"
  | .bool true => "true"
  | .bool false => "false"
  | .int i => Decimal.signedText i.toInt
  | .float x => x.text
  | .text s => s

/-- A number is an integer if it can be one, and otherwise a double. -/
def ofNumber (number : Json) : Value :=
  match number.int64? with
  | some i => .int i
  | none => .float (number.double?.getD .nan)

inductive Kind where
  | null
  | bool
  | int
  | float
  | text
  deriving DecidableEq, Repr

/-- JSON as a value of one kind. A double can be made of every number, an integer only of those that
were written as one. -/
def Kind.read? : Kind → Json → Option Value
  | .null, .null => some .null
  | .bool, .bool b => some (.bool b)
  | .int, json => json.int64?.map .int
  | .float, json => json.double?.map .float
  | .text, .text s => some (.text s)
  | _, _ => none

/-- A JSON scalar is a value of the first kind that it can be, in the order in which the kinds are
declared, as is taken to be the rule for untagged JSON; arrays and objects are none. -/
def ofJson? (json : Json) : Option Value :=
  [Kind.null, .bool, .int, .float, .text].findSome? fun kind => kind.read? json

/-- The JSON tree of a value. How its numbers are spelled is left to those who write the tree. -/
def toJson : Value → Json
  | .null => .null
  | .bool b => .bool b
  | .int i => .int i.toInt
  | .float x => .ofFloat x
  | .text s => .text s

end Value

end FilterQuery
