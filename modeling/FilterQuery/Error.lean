import FilterQuery.Value

/-!
# What can go wrong

Each failure is kept as its cause, and its wording stands in one function. An ill-formed filter is
blamed on a place: the path of the entry at fault, its keys joined by slashes.
-/

/-- Of two parts in sequence, the second makes the result of what the first gave. -/
theorem Except.bind_eq_ok {ε α β : Type} {first : Except ε α} {later : α → Except ε β} {b : β} :
    first >>= later = .ok b ↔ ∃ a, first = .ok a ∧ later a = .ok b := by
  cases first <;> simp [bind, Except.bind]

theorem Except.map_eq_ok {ε α β : Type} {x : Except ε α} {f : α → β} {b : β} :
    x.map f = .ok b ↔ ∃ a, x = .ok a ∧ f a = b := by
  cases x <;> simp [Except.map]

namespace FilterQuery

/-- What is wrong with a filter or with its limits. -/
inductive CompileFault where
  | unknownShape
  | malformedComparison
  | unknownOperator (operator : String)
  | unknownCombinator (key : String)
  | invalidLimit (found : String)
  | invalidOffset (found : String)
  | invalidOrder (found : String)
  deriving DecidableEq, Repr

def CompileFault.message : CompileFault → String
  | .unknownShape => "unclassifiable clause shape"
  | .malformedComparison => "comparison triple needs string field and operator"
  | .unknownOperator operator => "unknown operator `" ++ operator ++ "`"
  | .unknownCombinator key => "unknown group combinator `" ++ key ++ "`"
  | .invalidLimit found => "limit must be a non-negative integer, got `" ++ found ++ "`"
  | .invalidOffset found => "offset must be a non-negative integer, got `" ++ found ++ "`"
  | .invalidOrder found => "invalid ordering: " ++ found

structure CompileError where
  path : String
  fault : CompileFault
  deriving DecidableEq, Repr

def CompileError.message (e : CompileError) : String :=
  e.fault.message ++ " at `" ++ e.path ++ "`"

/-- A failure that the store reports, with the text of what lies beneath it if it says so. -/
structure StorageError where
  report : String
  cause : Option String := none
  deriving DecidableEq, Repr

def StorageError.message (e : StorageError) : String := "Storage error: " ++ e.report

/-- A setting whose text cannot be read. -/
structure SettingError where
  key : String
  reason : String
  deriving DecidableEq, Repr

def SettingError.message (e : SettingError) : String :=
  "Invalid value for " ++ e.key ++ ": " ++ e.reason

/-- Why rows could not be turned into what was asked for. -/
inductive HydrationFault where
  | noCountColumn
  | notACount (found : Value)
  | noIdColumn (table idColumn : String)
  | refused (reason : String)
  deriving DecidableEq, Repr

def HydrationFault.message : HydrationFault → String
  | .noCountColumn => "count row has no columns"
  | .notACount found => "count is not a non-negative integer: " ++ found.display
  | .noIdColumn table idColumn => "row from " ++ table ++ " has no `" ++ idColumn ++ "` column"
  | .refused reason => reason

inductive Error where
  | compile (error : CompileError)
  | locked
  | notUnlockable
  | typeMismatch (expected found : String)
  | unknownField (recordType field : String)
  | unknownMethod (recordType method : String)
  | hydration (fault : HydrationFault)
  | storage (error : StorageError)
  | setting (error : SettingError)
  deriving DecidableEq, Repr

namespace Error

def message : Error → String
  | .compile error => "Compile error: " ++ error.message
  | .locked => "Collection is locked"
  | .notUnlockable => "Collection is permanently locked and cannot be unlocked"
  | .typeMismatch expected found => "Class mismatch: expected " ++ expected ++ ", found " ++ found
  | .unknownField recordType field => "Unknown field `" ++ field ++ "` on " ++ recordType
  | .unknownMethod recordType method => "Unknown method `" ++ method ++ "` on " ++ recordType
  | .hydration fault => "Hydration failed: " ++ fault.message
  | .storage error => error.message
  | .setting error => "Configuration error: " ++ error.message

/-- A stable word for the kind of failure. -/
def code : Error → String
  | .compile _ => "compile_error"
  | .locked => "locked"
  | .notUnlockable => "not_unlockable"
  | .typeMismatch _ _ => "class_mismatch"
  | .unknownField _ _ => "unknown_field"
  | .unknownMethod _ _ => "unknown_method"
  | .hydration _ => "hydration_failed"
  | .storage _ => "storage_error"
  | .setting _ => "configuration_error"

def isLocked : Error → Bool
  | .locked => true
  | _ => false

end Error

end FilterQuery
