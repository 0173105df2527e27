import FilterQuery.Record

/-!
# Collections

An ordered collection of records of one type. The type is fixed by the first record that comes in,
or beforehand. A locked collection refuses every change of its members and their order, and a lock
can be made permanent; the fields of the records stay writable.

Records can be drawn at random without repetition. The positions drawn so far are remembered until
the members or their order change, or until the draws are started anew.
-/

namespace FilterQuery

structure Collection (α : Type) where
  elements : List α := []
  elementType : Option String := none
  locked : Bool := false
  unlockable : Bool := true
  drawn : List Nat := []
  deriving DecidableEq, Repr

/-- Takes one of `n + 1` choices. -/
abbrev Chooser := (n : Nat) → Fin (n + 1)

namespace Chooser

def first : Chooser := fun _ => 0
def last : Chooser := fun n => Fin.last n
/-- The choice at half of their number, rounded down. -/
def middle : Chooser := fun n => ⟨(n + 1) / 2, by omega⟩

end Chooser

namespace Collection

variable {α : Type} [Record α] (c : Collection α)

def empty : Collection α := {}

def ofType (recordType : String) : Collection α := { elementType := some recordType }

def ensureUnlocked : Except Error Unit := if c.locked then .error .locked else .ok ()

/-- The type that the collection has once this record is in it. -/
def accept (element : α) : Except Error String := do
  c.ensureUnlocked
  let found := recordType element
  match c.elementType with
  | none => .ok found
  | some expected =>
    if expected = found then .ok expected else .error (.typeMismatch expected found)

def push (element : α) : Except Error (Collection α) := do
  let type ← c.accept element
  return { c with elements := c.elements ++ [element], elementType := some type, drawn := [] }

def unshift (element : α) : Except Error (Collection α) := do
  let type ← c.accept element
  return { c with elements := element :: c.elements, elementType := some type, drawn := [] }

/-- Takes the last record off. -/
def pop : Except Error (Option α × Collection α) := do
  c.ensureUnlocked
  match c.elements.getLast? with
  | none => return (none, c)
  | some element => return (some element, { c with elements := c.elements.dropLast, drawn := [] })

/-- Takes the first record off. -/
def shift : Except Error (Option α × Collection α) := do
  c.ensureUnlocked
  match c.elements with
  | [] => return (none, c)
  | element :: rest => return (some element, { c with elements := rest, drawn := [] })

def ofList (elements : List α) : Except Error (Collection α) := elements.foldlM push empty

def lock (forever : Bool) : Collection α :=
  { c with locked := true, unlockable := c.unlockable && !forever }

def unlock : Except Error (Collection α) :=
  if c.unlockable then .ok { c with locked := false } else .error .notUnlockable

/-! ## Order -/

/-- Puts a keyed record into a list sorted from the back: it moves past those that it precedes. -/
def place (precedes : Value → Value → Bool) (entry : Value × α) :
    List (Value × α) → List (Value × α)
  | [] => [entry]
  | other :: rest =>
    if precedes entry.1 other.1 then other :: place precedes entry rest
    else entry :: other :: rest

/-- Places the entries one after another, so that those with equal keys keep their order. -/
def sortByKey (precedes : Value → Value → Bool) (entries : List (Value × α)) : List (Value × α) :=
  (entries.foldl (fun sorted entry => place precedes entry sorted) []).reverse

def precedes (reverse : Bool) (a b : Value) : Bool :=
  if reverse then a.compare b == .gt else a.compare b == .lt

/-- Sorts by a field that every record has to have. -/
def reindex (reverse : Bool) (field : String) : Except Error (Collection α) := do
  c.ensureUnlocked
  let keys ← c.elements.mapM fun element => Record.readField element field
  let sorted := sortByKey (precedes reverse) (keys.zip c.elements)
  return { c with elements := sorted.map Prod.snd, drawn := [] }

/-! ## Draws -/

/-- The positions not drawn yet, in ascending order. -/
def pool : List Nat := (List.range c.elements.length).filter fun i => !c.drawn.contains i

def draw (choose : Chooser) : Option α × Collection α :=
  match c.pool with
  | [] => (none, c)
  | first :: rest =>
    let position := (first :: rest).get (choose rest.length)
    (c.elements[position]?, { c with drawn := position :: c.drawn })

/-- Draws so many times, and keeps what is drawn. -/
def drawMany (choose : Chooser) : Nat → Collection α → List α × Collection α
  | 0, c => ([], c)
  | n + 1, c =>
    let (element, c) := c.draw choose
    let (later, c) := drawMany choose n c
    (element.toList ++ later, c)

def resetDraws : Collection α := { c with drawn := [] }

/-! ## All records at once -/

def getFromEach (field : String) : Except Error (List Value) :=
  c.elements.mapM fun element => Record.readField element field

/-- A row of these fields of a record. -/
def fieldRow (fields : List String) (element : α) : Except Error Row := do
  let cells ← fields.mapM fun field => (Record.readField element field).map (field, ·)
  return Row.ofCells cells

def getManyFromEach (fields : List String) : Except Error (List Row) :=
  c.elements.mapM (fieldRow fields)

/-- Writes into one record after another up to the first that refuses. -/
def writeAll (field : String) (value : Value) : List α → List α × Except Error Unit
  | [] => ([], .ok ())
  | element :: rest =>
    match Record.setField element field value with
    | .error e => (element :: rest, .error e)
    | .ok written =>
      let (later, outcome) := writeAll field value rest
      (written :: later, outcome)

/-- What was written before a refusal stays written. -/
def setForEach (field : String) (value : Value) : Except Error Unit × Collection α :=
  let (elements, outcome) := writeAll field value c.elements
  (outcome, { c with elements })

def callForEach (method : String) (arguments : List Value) : Except Error (List Value) :=
  c.elements.mapM fun element => Record.call element method arguments

/-! ## Subsets -/

/-- The elements that are kept, if every one of them can be judged. -/
def keepM (keep : α → Except Error Bool) : List α → Except Error (List α)
  | [] => .ok []
  | element :: rest => do
    let kept ← keep element
    let later ← keepM keep rest
    return if kept then element :: later else later

omit [Record α] in
theorem sublist_of_keepM {keep : α → Except Error Bool} {elements kept : List α}
    (h : keepM keep elements = .ok kept) : kept.Sublist elements := by
  induction elements generalizing kept with
  | nil =>
    obtain rfl := Except.ok.inj h
    exact .slnil
  | cons element rest ih =>
    obtain ⟨here, -, h⟩ := Except.bind_eq_ok.mp h
    obtain ⟨later, read, h⟩ := Except.bind_eq_ok.mp h
    rw [← Except.ok.inj h]
    cases here with
    | true => exact (ih read).cons_cons element
    | false => exact (ih read).cons element

/-- A new collection of the same type, unlocked and with nothing drawn. -/
def subset (keep : α → Except Error Bool) : Except Error (Collection α) := do
  let elements ← keepM keep c.elements
  return { elements, elementType := c.elementType }

def whereField (field : String) (value : Value) : Except Error (Collection α) :=
  c.subset fun element => do
    return (← Record.readField element field).compare value == .eq

def whereCall (method : String) (arguments : List Value) (value : Value) :
    Except Error (Collection α) :=
  c.subset fun element => do
    return (← Record.call element method arguments).compare value == .eq

end Collection

end FilterQuery
