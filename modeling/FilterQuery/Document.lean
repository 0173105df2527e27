import FilterQuery.Clause
import FilterQuery.Decimal

/-!
# Filter documents

The loosely shaped form in which a filter is written down: scalars and raw SQL, in lists and maps
of any depth. Maps keep their order and may repeat a key. A map whose keys are the positions 0, 1,
2, … in order says the same as a list, and a list can be read as such a map.
-/

namespace FilterQuery

inductive Key where
  | index (i : Nat)
  | name (s : String)
  deriving DecidableEq, Repr

namespace Key

/-- A position, or a name that spells a signed sixty-four bit integer. -/
def isNumeric : Key → Bool
  | .index _ => true
  | .name s => Decimal.isSignedWord s.toList

def name? : Key → Option String
  | .index _ => none
  | .name s => some s

def text : Key → String
  | .index i => Decimal.text i
  | .name s => s

end Key

inductive Document where
  | scalar (value : Value)
  | list (items : List Document)
  | map (entries : List (Key × Document))
  | expression (expression : Expression)
  deriving Repr

namespace Document

instance : Coe Value Document := ⟨.scalar⟩
instance : Coe Expression Document := ⟨.expression⟩

def isComposite : Document → Bool
  | .list _ | .map _ => true
  | _ => false

def scalar? : Document → Option Value
  | .scalar value => some value
  | _ => none

def text? : Document → Option String
  | .scalar (.text s) => some s
  | _ => none

/-- The items of a list as entries, the first at position `i`. -/
def indexed (i : Nat) : List Document → List (Key × Document)
  | [] => []
  | item :: rest => (.index i, item) :: indexed (i + 1) rest

/-- The items of entries whose keys are the positions from `i` on, in order. -/
def positional? (i : Nat) : List (Key × Document) → Option (List Document)
  | [] => some []
  | (.index k, item) :: rest => if k = i then (positional? (i + 1) rest).map (item :: ·) else none
  | (.name _, _) :: _ => none

def sequence? : Document → Option (List Document)
  | .list items => some items
  | .map entries => positional? 0 entries
  | _ => none

def entries? : Document → Option (List (Key × Document))
  | .list items => some (indexed 0 items)
  | .map entries => some entries
  | _ => none

@[simp] theorem positional?_indexed (i : Nat) (items : List Document) :
    positional? i (indexed i items) = some items := by
  induction items generalizing i with
  | nil => rfl
  | cons item rest ih => simp [indexed, positional?, ih]

/-- Entries whose keys count up are the items of a list. -/
theorem indexed_of_positional? {i : Nat} {entries : List (Key × Document)} {items : List Document}
    (h : positional? i entries = some items) : indexed i items = entries := by
  induction entries generalizing i items with
  | nil => simp_all [positional?, indexed]
  | cons entry rest ih =>
    obtain ⟨key, item⟩ := entry
    cases key with
    | name s => simp [positional?] at h
    | index k =>
      simp only [positional?] at h
      split at h
      · next same =>
        obtain ⟨later, found, rfl⟩ := Option.map_eq_some_iff.mp h
        simp [indexed, same, ih found]
      · simp at h

/-- How a document is named in an error. -/
def describe : Document → String
  | .scalar value => value.display
  | .list items => "list of " ++ Decimal.text items.length
  | .map entries => "map of " ++ Decimal.text entries.length
  | .expression e => e.sql

/-- The values of a scalar or of a sequence of scalars. -/
def operands? : Document → Option (List Value)
  | .scalar value => some [value]
  | document => document.sequence?.bind fun items => items.mapM scalar?

mutual

/-- Members of an object become entries under their names. -/
def ofJson : Json → Document
  | .null => .scalar .null
  | .bool b => .scalar (.bool b)
  | .int i => .scalar (.ofNumber (.int i))
  | .float x => .scalar (.ofNumber (.float x))
  | .text s => .scalar (.text s)
  | .array items => .list (ofJsonItems items)
  | .object members => .map (ofJsonMembers members)

def ofJsonItems : List Json → List Document
  | [] => []
  | item :: rest => ofJson item :: ofJsonItems rest

def ofJsonMembers : List (String × Json) → List (Key × Document)
  | [] => []
  | (name, item) :: rest => (.name name, ofJson item) :: ofJsonMembers rest

end

end Document

/-- The keys that lead from the whole document to a part of it, outermost first. -/
abbrev Path := List Key

def Path.text : Path → String
  | [] => "/"
  | path => String.join (path.map fun key => "/" ++ key.text)

end FilterQuery
