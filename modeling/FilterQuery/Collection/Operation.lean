import FilterQuery.Collection

/-!
# Operations on a collection

Everything that can change a collection, as one kind of operation. An operation answers with a
record if it took or drew one, or with an error, and leaves a collection behind. After an error
this is the collection as it was, but for the fields that were written before the refusal.
-/

namespace FilterQuery

inductive Operation (α : Type) where
  | push (element : α)
  | unshift (element : α)
  | pop
  | shift
  | lock (forever : Bool)
  | unlock
  | reindex (reverse : Bool) (field : String)
  | draw (choose : Chooser)
  | resetDraws
  | setForEach (field : String) (value : Value)

namespace Collection

variable {α : Type} [Record α]

/-- The collection that a change gives, or the unchanged one beside the error. -/
def settle (c : Collection α) : Except Error (Option α × Collection α) →
    Except Error (Option α) × Collection α
  | .ok (element, next) => (.ok element, next)
  | .error e => (.error e, c)

def quietly (outcome : Except Error (Collection α)) : Except Error (Option α × Collection α) :=
  outcome.map fun next => (none, next)

def perform (c : Collection α) : Operation α → Except Error (Option α) × Collection α
  | .push element => c.settle (quietly (c.push element))
  | .unshift element => c.settle (quietly (c.unshift element))
  | .pop => c.settle c.pop
  | .shift => c.settle c.shift
  | .lock forever => (.ok none, c.lock forever)
  | .unlock => c.settle (quietly c.unlock)
  | .reindex reverse field => c.settle (quietly (c.reindex reverse field))
  | .draw choose =>
    let (element, next) := c.draw choose
    (.ok element, next)
  | .resetDraws => (.ok none, c.resetDraws)
  | .setForEach field value =>
    let (outcome, next) := c.setForEach field value
    (outcome.map fun _ => none, next)

end Collection

end FilterQuery
