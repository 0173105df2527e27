import FilterQuery.Reading.Traversal

/-!
# Reading on trust

The reading of a document, taken apart into its steps. First the kind of an entry is settled by
tests of its key and of the outline of its value, and then the entry is read on trust in that kind:
its parts are looked up where the kind has them. A kind carries none of the parts, so there are
arms for parts that are not found, and an item beyond the end of a sequence ends the walk in panic.
Here a walk shows which of these arms it has come through.

What settles the kinds is left open, so that it can be said what a walk needs to know of it.
-/

namespace FilterQuery

/-- The name of a field: no number, and without a colon in front. -/
def Key.field? (key : Key) : Option String :=
  key.name?.filter fun name => !key.isNumeric && !Shape.isPrefixed name

def Document.isExpression : Document → Bool
  | .expression _ => true
  | _ => false

/-- What an entry stands for, without its parts. -/
inductive Kind where
  | rule
  | expression
  | equality
  | pair
  | triple
  | group
  | unknown
  deriving DecidableEq, Repr

namespace Kind

/-- Three items, of which the first two are no composites. -/
def isTriple (items : List Document) : Bool :=
  if h : items.length = 3 then !items[0].isComposite && !items[1].isComposite else false

/-- The first kind whose test the entry passes. -/
def of (known : Option (List String)) (key : Key) (value : Document) : Kind :=
  if key.name?.any fun name => (RuleName.ofKey? name).isSome then .rule
  else if value.isExpression then .expression
  else if value.scalar?.isSome && key.field?.any fun name => known.all (·.contains name) then
    .equality
  else if key.field?.isSome && value.sequence?.any (·.length == 2) then .pair
  else if key.isNumeric && value.sequence?.any isTriple then .triple
  else if key.name?.any Shape.isPrefixed || key.isNumeric && value.isComposite then .group
  else .unknown

end Kind

/-- The rule that a key is taken for, its capitals made small as Unicode has them. -/
def RuleName.ofLower? (key : String) : Option RuleName :=
  match Text.lower key.toList with
  | [':', 'o', 'r', 'd', 'e', 'r'] => some .order
  | [':', 'l', 'i', 'm', 'i', 't'] => some .limit
  | [':', 'g', 'r', 'o', 'u', 'p'] => some .group
  | _ => none

/-- The arms for an entry that is not what its kind says. -/
inductive Fallback where
  | noScalar
  | noExpression
  | noSequence
  | noRule
  | ruleAsClause
  deriving DecidableEq, Repr

/-- Why a walk ends early. -/
inductive Stop where
  | refused (error : CompileError)
  | panicked
  deriving DecidableEq, Repr

/-- A walk leaves behind the fallbacks that it has come through, even if it ends early. -/
abbrev Walk := ExceptT Stop (StateM (List Fallback))

namespace Walk

def ofExcept {α : Type} (outcome : Except CompileError α) : Walk α :=
  fun taken => (outcome.mapError .refused, taken)

def refuse {α : Type} (path : Path) (fault : CompileFault) : Walk α :=
  ofExcept (path.refuse fault)

def panic {α : Type} : Walk α := fun taken => (.error .panicked, taken)

def fallBack (fallback : Fallback) : Walk Unit := fun taken => (.ok (), taken ++ [fallback])

/-- The item at a position where there has to be one. -/
def item (items : List Document) (i : Nat) : Walk Document :=
  match items[i]? with
  | some item => return item
  | none => panic

def sequence (path : Path) (value : Document) : Walk (List Document) :=
  match value.sequence? with
  | some items => return items
  | none => do
    fallBack .noSequence
    refuse path .unknownShape

/-! ### Rules -/

def criterion (path : Path) (part : Document) : Walk Criterion :=
  match part.text?, part.sequence? with
  | some field, _ => return ⟨field, .asc⟩
  | none, some pair =>
    if pair.length = 2 then do
      match (← item pair 0).text? with
      | some field => return ⟨field, ← ofExcept (Rule.direction path (← item pair 1))⟩
      | none => refuse path (.invalidOrder part.describe)
    else refuse path (.invalidOrder part.describe)
  | none, none => refuse path (.invalidOrder part.describe)

/-- Nothing but the pairs in a sequence is looked up by position. -/
def readOrder (path : Path) (value : Document) : Walk Rule :=
  match value.text?, value.sequence? with
  | none, some items => return .order (← items.mapM (criterion path))
  | _, _ => ofExcept (Rule.readOrder path value)

def readRule (path : Path) (key : Key) (value : Document) : Walk Rule :=
  match RuleName.ofLower? key.text with
  | some .order => readOrder path value
  | some .limit => ofExcept (Rule.readLimit path value)
  | some .group => ofExcept (Rule.readGroup path value)
  | none => do
    fallBack .noRule
    refuse path .unknownShape

/-! ### Entries -/

/-- Reads an entry as a clause of a kind. What its value holds is read by `inner`. -/
def readAs (path : Path) (key : Key) (value : Document) (inner : Walk Reading) :
    Kind → Walk Reading
  | .equality =>
    match value.scalar? with
    | some .null => return .ofClause (.nullCheck key.text true)
    | some v => return .ofClause (.comparison key.text .eq v)
    | none => do
      fallBack .noScalar
      return .ofClause (.nullCheck key.text true)
  | .pair => do
    let items ← sequence path value
    match (← item items 0).text? with
    | some operator => ofExcept (readOperation path key.text operator (← item items 1))
    | none => refuse path .malformedComparison
  | .triple => do
    let items ← sequence path value
    match (← item items 0).text?, (← item items 1).text? with
    | some field, some operator => ofExcept (readOperation path field operator (← item items 2))
    | _, _ => refuse path .malformedComparison
  | .expression =>
    match value with
    | .expression e => return .ofClause (.raw e)
    | _ => do
      fallBack .noExpression
      refuse path .unknownShape
  | .group => do
    let combinator ← ofExcept (key.combinator path)
    let reading ← inner
    return ⟨[.group combinator reading.clauses], reading.rules⟩
  | .rule => do
    fallBack .ruleAsClause
    refuse path .unknownShape
  | .unknown => refuse path .unknownShape

variable (kindOf : Key → Document → Kind)

/-- Rules are read apart, and every other kind as a clause. -/
def entry (path : Path) (key : Key) (value : Document) (inner : Walk Reading) : Walk Reading :=
  match kindOf key value with
  | .rule => return .ofRule (← readRule path key value)
  | kind => readAs path key value inner kind

def traversal : Traversal Walk Reading where
  leaf path := refuse path .unknownShape
  empty := {}
  entry := entry kindOf

end Walk

/-- The filter of a document, read on trust in the kinds of its entries. -/
def Document.walk (kindOf : Key → Document → Kind) (document : Document) : Walk Filter :=
  Reading.filter <$> (Walk.traversal kindOf).read [] document

end FilterQuery
