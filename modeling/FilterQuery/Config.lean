import FilterQuery.Error
import FilterQuery.Text.Blank

/-!
# Configuration

Settings come from a lookup by key, such as an environment, or from a JSON document. Where the
lookup knows nothing the default stays. In JSON a group of settings is an object with all of them,
among which others may stand, or an array of exactly these in order.
-/

namespace FilterQuery

structure QueryConfig where
  idColumn : String := "id"
  pageSize : UInt64 := 20
  maxPageSize : UInt64 := 1000
  cacheRows : Bool := false
  deriving DecidableEq, Repr

/-- A page has at least one row, whatever the settings say, and no more than allowed. -/
def QueryConfig.clampPageSize (config : QueryConfig) (size : UInt64) : UInt64 :=
  min (max size 1) (max config.maxPageSize 1)

structure LogConfig where
  directive : String := "info"
  json : Bool := false
  deriving DecidableEq, Repr

structure Config where
  query : QueryConfig := {}
  log : LogConfig := {}
  deriving DecidableEq, Repr

namespace Config

/-- Exactly these three words switch a setting on, and every other text switches it off. -/
def isOn (text : String) : Bool := text == "true" || text == "1" || text == "yes"

def readWord (key text : String) : Except SettingError UInt64 :=
  match Decimal.read (Text.trim text.toList) with
  | .ok n => .ok n
  | .error fault => .error ⟨key, fault.message⟩

/-- The setting of that key, or the default. -/
def wordOr (default : UInt64) (lookup : String → Option String) (key : String) :
    Except SettingError UInt64 :=
  match lookup key with
  | none => .ok default
  | some text => readWord key text

def ofLookup (lookup : String → Option String) : Except SettingError Config := do
  let base : Config := {}
  let switch (default : Bool) (key : String) := ((lookup key).map isOn).getD default
  let pageSize ← wordOr base.query.pageSize lookup "DATAMAP_PAGE_SIZE"
  let maxPageSize ← wordOr base.query.maxPageSize lookup "DATAMAP_MAX_PAGE_SIZE"
  return {
    query := {
      idColumn := (lookup "DATAMAP_ID_COLUMN").getD base.query.idColumn
      pageSize
      maxPageSize
      cacheRows := switch base.query.cacheRows "DATAMAP_CACHE_ROWS" }
    log := {
      directive := (lookup "DATAMAP_LOG").getD base.log.directive
      json := switch base.log.json "DATAMAP_LOG_JSON" } }

/-- The parts of a group of settings, from an object or from an array. -/
def parts? (names : List String) : Json → Option (List Json)
  | .object members => names.mapM (Json.member? members)
  | .array items => if items.length = names.length then some items else none
  | _ => none

/-- An integer of JSON that fits a word. -/
def word? (i : Int) : Option UInt64 :=
  if 0 ≤ i ∧ i < UInt64.size then some (.ofNat i.toNat) else none

def queryNames : List String :=
  ["default_id_column", "default_page_size", "max_page_size", "cache_rows"]

def logNames : List String := ["default_directive", "json"]

def queryOfJson? (json : Json) : Option QueryConfig :=
  match parts? queryNames json with
  | some [.text idColumn, .int size, .int maxSize, .bool cacheRows] => do
    return { idColumn, pageSize := ← word? size, maxPageSize := ← word? maxSize, cacheRows }
  | _ => none

def logOfJson? (json : Json) : Option LogConfig :=
  match parts? logNames json with
  | some [.text directive, .bool asJson] => some { directive, json := asJson }
  | _ => none

def ofJson? (json : Json) : Option Config :=
  match parts? ["query", "logging"] json with
  | some [query, log] => do return { query := ← queryOfJson? query, log := ← logOfJson? log }
  | _ => none

def toJson (config : Config) : Json :=
  .object [
    ("query", .object (queryNames.zip [
      .text config.query.idColumn, .int config.query.pageSize.toNat,
      .int config.query.maxPageSize.toNat, .bool config.query.cacheRows])),
    ("logging", .object (logNames.zip [
      .text config.log.directive, .bool config.log.json]))]

end Config

end FilterQuery
