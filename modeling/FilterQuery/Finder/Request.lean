import FilterQuery.Finder

/-!
# Requests to finders

Everything that a finder can be asked, as one kind of request with one kind of answer. Several
finders may work in one session, and a run of requests names for each the finder that serves it.
-/

namespace FilterQuery

inductive Request where
  | find (prepared : Prepared)
  | page (filter : Filter) (number : UInt64) (size : Option UInt64)
  | ids (filter : Filter)
  | count (filter : Filter)
  | get (id : Value)

inductive Answer (α : Type) where
  | found (result : ResultSet α)
  | ids (ids : List Value)
  | count (n : UInt64)
  | record (record : Option α)

namespace Finder

variable {α σ : Type} [Record α] [Store σ]

def serve (finder : Finder α) : Request → Work σ (Answer α)
  | .find prepared => .found <$> finder.find prepared
  | .page filter number size => .found <$> finder.findPage filter number size
  | .ids filter => .ids <$> finder.findIds filter
  | .count filter => .count <$> finder.count filter
  | .get id => .record <$> finder.get? id

/-- The answers to a sequence of requests, and the session after the last of them. -/
def serveAll : List (Finder α × Request) → Session σ → List (Except Error (Answer α)) × Session σ
  | [], s => ([], s)
  | (finder, request) :: rest, s =>
    let (answer, s) := (finder.serve request).run s
    let (later, s) := serveAll rest s
    (answer :: later, s)

end Finder

end FilterQuery
