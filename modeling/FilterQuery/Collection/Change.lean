import FilterQuery.Collection.Operation

/-!
# Changes step by step

The operations of a collection, taken apart into the steps in which they look at it and change it.
A step that was taken stays taken if a later one is refused, so it shows here what an operation has
done by the time that it fails. As wholes, the steps do what the operations do.
-/

namespace FilterQuery

abbrev Change (α : Type) := ExceptT Error (StateM (Collection α))

namespace Change

variable {α β : Type}

def look : Change α (Collection α) := fun c => (.ok c, c)

def alter (change : Collection α → Collection α) : Change α Unit := fun c => (.ok (), change c)

def ofExcept (outcome : Except Error β) : Change α β := fun c => (outcome, c)

def refuse (e : Error) : Change α β := ofExcept (.error e)

def putElements (elements : List α) : Change α Unit := alter fun c => { c with elements }

def forgetDraws : Change α Unit := alter fun c => { c with drawn := [] }

def ensureUnlocked : Change α Unit := do
  if (← look).locked then refuse .locked

/-- Takes all records out. -/
def drain : Change α (List α) := do
  let c ← look
  putElements []
  return c.elements

def pop : Change α (Option α) := do
  ensureUnlocked
  let c ← look
  putElements c.elements.dropLast
  if c.elements.getLast?.isSome then forgetDraws
  return c.elements.getLast?

def shift : Change α (Option α) := do
  ensureUnlocked
  match (← look).elements with
  | [] => return none
  | first :: rest =>
    forgetDraws
    putElements rest
    return some first

def lock (forever : Bool) : Change α Unit := do
  alter fun c => { c with locked := true }
  if forever then alter fun c => { c with unlockable := false }

def unlock : Change α Unit := do
  if !(← look).unlockable then refuse .notUnlockable
  alter fun c => { c with locked := false }

def draw (choose : Chooser) : Change α (Option α) := do
  match (← look).pool with
  | [] => return none
  | first :: rest =>
    let position := (first :: rest).get (choose rest.length)
    alter fun c => { c with drawn := position :: c.drawn }
    return (← look).elements[position]?

variable [Record α]

/-- Lets a record in, and with the first one its type. -/
def letIn (element : α) : Change α Unit := do
  ensureUnlocked
  match (← look).elementType with
  | some expected =>
    if expected ≠ recordType element then refuse (.typeMismatch expected (recordType element))
  | none => alter fun c => { c with elementType := some (recordType element) }

def push (element : α) : Change α Unit := do
  letIn element
  alter fun c => { c with elements := c.elements ++ [element] }
  forgetDraws

def unshift (element : α) : Change α Unit := do
  letIn element
  alter fun c => { c with elements := element :: c.elements }
  forgetDraws

def reindex (reverse : Bool) (field : String) : Change α Unit := do
  ensureUnlocked
  let keys ← ofExcept ((← look).elements.mapM fun element => Record.readField element field)
  let elements ← drain
  putElements
    ((Collection.sortByKey (Collection.precedes reverse) (keys.zip elements)).map Prod.snd)
  forgetDraws

/-- Writes into the record at a position. -/
def writeAt (field : String) (value : Value) (i : Nat) : Change α Unit := do
  match (← look).elements[i]? with
  | none => return
  | some element =>
    let written ← ofExcept (Record.setField element field value)
    alter fun c => { c with elements := c.elements.set i written }

def setForEach (field : String) (value : Value) : Change α Unit := do
  forM (List.range (← look).elements.length) (writeAt field value)

end Change

/-- An operation, step by step. -/
def Operation.steps {α : Type} [Record α] : Operation α → Change α (Option α)
  | .push element => do Change.push element; return none
  | .unshift element => do Change.unshift element; return none
  | .pop => Change.pop
  | .shift => Change.shift
  | .lock forever => do Change.lock forever; return none
  | .unlock => do Change.unlock; return none
  | .reindex reverse field => do Change.reindex reverse field; return none
  | .draw choose => Change.draw choose
  | .resetDraws => do Change.forgetDraws; return none
  | .setForEach field value => do Change.setForEach field value; return none

end FilterQuery
