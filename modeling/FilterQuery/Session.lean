import FilterQuery.Cache
import FilterQuery.Error
import FilterQuery.Query

/-!
# Sessions

Queries are put to a store, which answers each with rows or with a failure. A session is a store
together with the statements that it has been given so far and the row cache that those who use
the session share. Work in a session may fail, and what it has done to the session by then stays.
-/

namespace FilterQuery

structure Statement where
  sql : String
  values : List Value
  deriving DecidableEq, Repr

abbrev Reply := Except StorageError (List Row)

class Store (σ : Type) where
  execute : σ → Statement → Reply × σ

/-- A store that gives these replies in order, and no rows after the last. -/
structure Script where
  replies : List Reply

instance : Store Script where
  execute script _ :=
    match script.replies with
    | [] => (.ok [], script)
    | reply :: rest => (reply, ⟨rest⟩)

structure Session (σ : Type) where
  store : σ
  statements : List Statement := []
  cache : RowCache := {}

abbrev Work (σ : Type) := ExceptT Error (StateM (Session σ))

namespace Work

variable {σ α : Type}

def ofExcept (outcome : Except Error α) : Work σ α := fun s => (outcome, s)

def execute [Store σ] (q : Query) : Work σ (List Row) := fun s =>
  let statement : Statement := ⟨q.sql, q.values⟩
  let (reply, store) := Store.execute s.store statement
  (reply.mapError .storage, { s with store, statements := s.statements ++ [statement] })

def cachedRow? (key : CacheKey) : Work σ (Option Row) := fun s => (.ok (s.cache.get? key), s)

def changeCache (change : RowCache → RowCache) : Work σ Unit := fun s =>
  (.ok (), { s with cache := change s.cache })

end Work

/-- The count that rows report: none at all means 0, and else the first row says it. The answer to a
count has one column. Of a row with several, the first by name is taken here, where any of them
might be. -/
def countOfRows : List Row → Except Error UInt64
  | [] => .ok 0
  | row :: _ =>
    match row.cells with
    | [] => .error (.hydration .noCountColumn)
    | (_, value) :: _ =>
      match value.count? with
      | some n => .ok n
      | none => .error (.hydration (.notACount value))

end FilterQuery
