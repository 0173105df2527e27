import FilterQuery.Clause
import FilterQuery.Text.Blank
import FilterQuery.Text.Letters

/-!
# Operators in words

The words by which a written filter names comparisons, tests, group keys and sort directions.
Blanks around a word never matter, blanks inside it count as one, and neither does letter case;
only the key of a group has to be free of blanks.
-/

namespace FilterQuery

def Comparator.ofChars? : List Char → Option Comparator
  | ['='] | ['=', '='] => some .eq
  | ['!', '='] | ['<', '>'] => some .notEq
  | ['<'] => some .lt
  | ['>'] => some .gt
  | ['<', '='] => some .ltEq
  | ['>', '='] => some .gtEq
  | _ => none

def Comparator.ofText? (s : String) : Option Comparator := ofChars? (Text.trim s.toList)

/-- What can stand between a field and its operand. -/
inductive Operator where
  | compare (comparator : Comparator)
  | membership (negate : Bool)
  | pattern (negate : Bool)
  | nullTest (negate : Bool)
  deriving DecidableEq, Repr

namespace Operator

def sql : Operator → String
  | .compare comparator => comparator.sql
  | .membership false => "IN"
  | .membership true => "NOT IN"
  | .pattern false => "LIKE"
  | .pattern true => "NOT LIKE"
  | .nullTest false => "IS"
  | .nullTest true => "IS NOT"

def ofWords? : List Char → Option Operator
  | ['I', 'N'] => some (.membership false)
  | ['N', 'O', 'T', ' ', 'I', 'N'] => some (.membership true)
  | ['L', 'I', 'K', 'E'] => some (.pattern false)
  | ['N', 'O', 'T', ' ', 'L', 'I', 'K', 'E'] => some (.pattern true)
  | ['I', 'S'] => some (.nullTest false)
  | ['I', 'S', ' ', 'N', 'O', 'T'] => some (.nullTest true)
  | _ => none

def ofText? (s : String) : Option Operator :=
  match Comparator.ofText? s with
  | some comparator => some (.compare comparator)
  | none => ofWords? (Text.upper (Text.spaced s.toList))

end Operator

/-- Group keys are `:AND` and `:OR` in any letter case. -/
def Combinator.ofKey? (key : String) : Option Combinator :=
  match Text.upper key.toList with
  | [':', 'A', 'N', 'D'] => some .and
  | [':', 'O', 'R'] => some .or
  | _ => none

end FilterQuery
