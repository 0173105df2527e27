import FilterQuery.Builder
import FilterQuery.Config
import FilterQuery.ResultSet

/-!
# Finders

A finder puts filters to one table: it makes the query, has it executed and turns the rows into
records. If it has a cache that its configuration lets it use, it keeps the whole rows that it
fetches and looks there before it asks for a single row by id.
-/

namespace FilterQuery

structure Finder (α : Type) where
  target : Target
  hydrate : Row → Except Error α
  hasCache : Bool := false
  config : QueryConfig := {}

namespace Finder

variable {α σ : Type} [Record α] [Store σ]

/-- A finder by the id column that the configuration names. -/
def new (table : String) (hydrate : Row → Except Error α) (config : QueryConfig) : Finder α :=
  { target := ⟨table, config.idColumn⟩, hydrate, config }

def withIdColumn (finder : Finder α) (idColumn : String) : Finder α :=
  { finder with target := { finder.target with idColumn } }

def withCache (finder : Finder α) : Finder α := { finder with hasCache := true }

variable (finder : Finder α)

def usesCache : Bool := finder.hasCache && finder.config.cacheRows

def cacheKey (id : Value) : CacheKey := .of finder.target.table id

/-- Keeps every row that has an id, a later one in place of an earlier one. -/
def rememberIn (rows : List Row) (cache : RowCache) : RowCache :=
  rows.foldl (fun cache row =>
    match row.get? finder.target.idColumn with
    | some id => cache.insert (finder.cacheKey id) row
    | none => cache) cache

def remember (rows : List Row) : Work σ Unit :=
  if finder.usesCache then Work.changeCache (finder.rememberIn rows) else pure ()

def idOf (row : Row) : Except Error Value :=
  match row.get? finder.target.idColumn with
  | some id => .ok id
  | none => .error (.hydration (.noIdColumn finder.target.table finder.target.idColumn))

/-- Executes the query of a filter. -/
def rowsOf (f : Filter) : Work σ (List Row) := do
  let query ← Work.ofExcept ((f.query finder.target).mapError .compile)
  Work.execute query

/-- All records that pass the filter. -/
def find (prepared : Prepared) : Work σ (ResultSet α) := do
  let (outcome, prepared) := prepared.compile finder.target
  let handed ← Work.ofExcept (outcome.mapError .compile)
  let rows ← Work.execute handed.query
  if prepared.filter.modifiers.projection = .full then finder.remember rows
  let records ← Work.ofExcept (rows.mapM finder.hydrate)
  Work.ofExcept (ResultSet.ofRecords records prepared finder.target true)

/-- One page of the records, of the size asked for as far as the configuration allows. -/
def findPage (f : Filter) (number : UInt64) (size : Option UInt64) : Work σ (ResultSet α) :=
  let size := finder.config.clampPageSize (size.getD finder.config.pageSize)
  finder.find (f.withPage number size).prepare

/-- The ids of the rows that pass the filter, in order. -/
def findIds (f : Filter) : Work σ (List Value) := do
  let rows ← finder.rowsOf (f.withProjection .idOnly)
  Work.ofExcept (rows.mapM finder.idOf)

/-- The number of rows that pass the filter. -/
def count (f : Filter) : Work σ UInt64 := do
  let rows ← finder.rowsOf (f.withProjection .countOnly)
  Work.ofExcept (countOfRows rows)

/-- The filter for a single row. -/
def byId (id : Value) : Filter :=
  Filter.build [.condition (.eq finder.target.idColumn id), .limit 1 none]

/-- The record of that id, from the cache if it is there. -/
def get? (id : Value) : Work σ (Option α) := do
  let cached ← if finder.usesCache then Work.cachedRow? (finder.cacheKey id) else pure none
  match cached with
  | some row => return some (← Work.ofExcept (finder.hydrate row))
  | none =>
    let rows ← finder.rowsOf (finder.byId id)
    finder.remember rows
    match rows with
    | [] => return none
    | row :: _ => return some (← Work.ofExcept (finder.hydrate row))

end Finder

end FilterQuery
