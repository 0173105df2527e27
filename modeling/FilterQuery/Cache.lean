import FilterQuery.Row

/-!
# Row caches

A cache keeps rows by table and id. Ids count as the same if they are displayed the same, so the
number 5 and the text `5` share an entry. Nothing is dropped unless the cache is cleared.
-/

namespace FilterQuery

/-- Table and displayed id. -/
abbrev CacheKey := String × String

def CacheKey.of (table : String) (id : Value) : CacheKey := (table, id.display)

structure RowCache where
  entries : List (CacheKey × Row) := []
  deriving DecidableEq

namespace RowCache

def get? (cache : RowCache) (key : CacheKey) : Option Row :=
  (cache.entries.find? fun entry => entry.1 == key).map Prod.snd

/-- Puts a row in the place of the one under the same key, or after all others. -/
def put (key : CacheKey) (row : Row) : List (CacheKey × Row) → List (CacheKey × Row)
  | [] => [(key, row)]
  | (k, r) :: rest => if k = key then (key, row) :: rest else (k, r) :: put key row rest

def insert (cache : RowCache) (key : CacheKey) (row : Row) : RowCache :=
  ⟨put key row cache.entries⟩

def contains (cache : RowCache) (key : CacheKey) : Bool := (cache.get? key).isSome

def size (cache : RowCache) : Nat := cache.entries.length

@[simp] theorem get?_empty (key : CacheKey) : ({} : RowCache).get? key = none := rfl

@[simp] theorem get?_insert_self (cache : RowCache) (key : CacheKey) (row : Row) :
    (cache.insert key row).get? key = some row := by
  obtain ⟨entries⟩ := cache
  simp only [get?, insert]
  induction entries with
  | nil => simp [put]
  | cons entry rest ih =>
    simp only [put]
    split
    · simp
    · next other => simpa [List.find?_cons, beq_eq_false_iff_ne.mpr other] using ih

theorem get?_insert_of_ne (cache : RowCache) {key other : CacheKey} (row : Row) (h : other ≠ key) :
    (cache.insert key row).get? other = cache.get? other := by
  obtain ⟨entries⟩ := cache
  simp only [get?, insert]
  induction entries with
  | nil => simp [put, Ne.symm h]
  | cons entry rest ih =>
    simp only [put]
    split
    · next same => simp [same, beq_eq_false_iff_ne.mpr (Ne.symm h)]
    · simp only [List.find?_cons]
      split
      · rfl
      · exact ih

end RowCache

end FilterQuery
