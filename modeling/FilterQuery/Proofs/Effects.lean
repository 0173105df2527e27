import FilterQuery.Proofs.Inquiry
import FilterQuery.Proofs.OneType

/-!
# What a request does to its session

Main statement: whatever the store replies, a request takes one of four courses. The cache serves
it; it has no query, and nothing happens; its query is executed once and fails, and the cache stays;
or rows come, and the cache takes in those that have an id, if it is to have them at all, no matter
what is made of them afterwards.

What is made of the rows is said without the steps that lead to it. There is one record for each
row, in order and of one type, or the error of the first row that is no record, or that of the first
record of another type.
-/

namespace FilterQuery

/-- Whether the rows that a request fetches are whole, so that a cache can have them. -/
def Request.FetchesWhole : Request → Prop
  | .find prepared => prepared.filter.modifiers.projection = .full
  | .page f _ _ => f.modifiers.projection = .full
  | .ids _ => False
  | .count _ => False
  | .get _ => True

namespace Finder

variable {α σ : Type}

/-! ### The cache -/

section

variable (finder : Finder α)

/-- The rows that have an id, each under its table and that id. -/
def entriesOf (rows : List Row) : List (CacheKey × Row) :=
  rows.filterMap fun row => (row.get? finder.target.idColumn).map fun id =>
    (.of finder.target.table id, row)

/-- The cache takes in rows one after another, so that of those under one key the last one stays. -/
structure TakesIn (rows : List Row) (before after : RowCache) : Prop where
  inserted : after =
    (finder.entriesOf rows).foldl (fun cache entry => cache.insert entry.1 entry.2) before
  latest : ∀ key, after.get? key =
    (Fetch.last? key (rows.map (Fetch.mk finder.target))).or (before.get? key)

/-- Only a cache that is there and switched on takes in rows, and only whole ones. -/
structure Updates (request : Request) (rows : List Row) (before after : RowCache) : Prop where
  takesIn : request.FetchesWhole → finder.hasCache → finder.config.cacheRows →
    finder.TakesIn rows before after
  stays : ¬ (request.FetchesWhole ∧ finder.hasCache ∧ finder.config.cacheRows) → after = before

end

section

variable {finder : Finder α} {request : Request} {rows : List Row} {before after : RowCache}

theorem full_filterOf :
    (finder.filterOf request).modifiers.projection = .full ↔ request.FetchesWhole := by
  cases request with
  | find prepared => exact .rfl
  | page f number size => exact .rfl
  | ids f => simp [filterOf, Filter.withProjection, Request.FetchesWhole]
  | count f => simp [filterOf, Filter.withProjection, Request.FetchesWhole]
  | get id => exact ⟨fun _ => trivial, fun _ => rfl⟩

/-- To remember rows is to insert their entries in order. -/
theorem rememberIn_eq (rows : List Row) (cache : RowCache) : finder.rememberIn rows cache =
    (finder.entriesOf rows).foldl (fun cache entry => cache.insert entry.1 entry.2) cache := by
  induction rows generalizing cache with
  | nil => rfl
  | cons row rest ih =>
    cases id : row.get? finder.target.idColumn with
    | none => simpa [rememberIn, entriesOf, id] using ih cache
    | some v => simpa [rememberIn, entriesOf, id, cacheKey] using ih (cache.insert _ row)

/-- There is one cache that takes the rows in: the one in which they are remembered. -/
theorem takesIn_iff :
    finder.TakesIn rows before after ↔ after = finder.rememberIn rows before := by
  refine ⟨fun h => h.inserted.trans (rememberIn_eq rows before).symm, ?_⟩
  rintro rfl
  exact ⟨rememberIn_eq rows before, finder.get?_rememberIn rows before⟩

theorem updates_iff [Record α] : finder.Updates request rows before after ↔
    after = if (finder.inquiry request).keeps && finder.usesCache
      then finder.rememberIn rows before else before := by
  have kept : ((finder.inquiry request).keeps && finder.usesCache) = true ↔
      request.FetchesWhole ∧ finder.hasCache ∧ finder.config.cacheRows := by
    rw [keeps_inquiry, usesCache, Bool.and_eq_true, Bool.and_eq_true, decide_eq_true_eq,
      full_filterOf]
  split
  · next taken =>
    obtain ⟨whole, there, on⟩ := kept.mp taken
    rw [← takesIn_iff]
    exact ⟨fun h => h.takesIn whole there on,
      fun h => ⟨fun _ _ _ => h, fun left => absurd ⟨whole, there, on⟩ left⟩⟩
  · next left =>
    have left := kept.not.mp left
    exact ⟨fun h => h.stays left,
      fun h => ⟨fun whole there on => absurd ⟨whole, there, on⟩ left, fun _ => h⟩⟩

end

/-! ### The answer -/

section

variable (finder : Finder α)

/-- What comes of rows whose ids are wanted. -/
inductive Lists (rows : List Row) : Except Error (List Value) → Prop
  | ids {ids : List Value} :
    List.Forall₂ (fun row id => row.get? finder.target.idColumn = some id) rows ids →
    Lists rows (.ok ids)
  | noId {row : Row} : row ∈ rows → row.get? finder.target.idColumn = none →
    Lists rows (.error (.hydration (.noIdColumn finder.target.table finder.target.idColumn)))

variable [Record α]

/-- What comes of rows whose records are wanted. -/
inductive Finds (prepared : Prepared) (rows : List Row) : Except Error (ResultSet α) → Prop
  | records {records : List α} :
    List.Forall₂ (fun row record => finder.hydrate row = .ok record) rows records →
    (∀ a ∈ records, ∀ b ∈ records, recordType a = recordType b) →
    Finds prepared rows (.ok {
      records := {
        elements := records, elementType := records.head?.map recordType
        locked := true, unlockable := false, drawn := [] }
      prepared := (prepared.compile finder.target).2
      target := finder.target
      connected := true })
  | noRecord {row : Row} {e : Error} :
    ReachedIn (fun row => ∃ record, finder.hydrate row = .ok record) rows row →
    finder.hydrate row = .error e → Finds prepared rows (.error e)
  | otherType {first other : α} {rest : List α} :
    List.Forall₂ (fun row record => finder.hydrate row = .ok record) rows (first :: rest) →
    ReachedIn (recordType · = recordType first) rest other →
    recordType other ≠ recordType first →
    Finds prepared rows (.error (.typeMismatch (recordType first) (recordType other)))

/-- What comes of the rows that are fetched for a request. -/
inductive Answers : Request → List Row → Except Error (Answer α) → Prop
  | find {prepared : Prepared} {rows : List Row} {result : Except Error (ResultSet α)} :
    finder.Finds prepared rows result → Answers (.find prepared) rows (result.map .found)
  | page {f : Filter} {number : UInt64} {size : Option UInt64} {rows : List Row}
    {result : Except Error (ResultSet α)} :
    finder.Finds (finder.pageOf f number size).prepare rows result →
    Answers (.page f number size) rows (result.map .found)
  | ids {f : Filter} {rows : List Row} {ids : Except Error (List Value)} :
    finder.Lists rows ids → Answers (.ids f) rows (ids.map .ids)
  | count (f : Filter) (rows : List Row) :
    Answers (.count f) rows ((countOfRows rows).map .count)
  | nothing (id : Value) : Answers (.get id) [] (.ok (.record none))
  | record (id : Value) (row : Row) (rest : List Row) :
    Answers (.get id) (row :: rest) ((finder.hydrate row).map fun record => .record (some record))

end

section

variable {finder : Finder α} {rows : List Row}

theorem idOf_eq_ok {row : Row} {id : Value} :
    finder.idOf row = .ok id ↔ row.get? finder.target.idColumn = some id := by
  unfold idOf
  cases row.get? finder.target.idColumn <;> simp

theorem idOf_eq_error {row : Row} {e : Error} :
    finder.idOf row = .error e ↔ row.get? finder.target.idColumn = none ∧
      e = .hydration (.noIdColumn finder.target.table finder.target.idColumn) := by
  unfold idOf
  cases row.get? finder.target.idColumn <;> simp [eq_comm]

/-- Rows without an id are all refused alike, so it does not matter which of them comes first. -/
theorem lists_iff {ids : Except Error (List Value)} :
    finder.Lists rows ids ↔ ids = rows.mapM finder.idOf := by
  constructor
  · intro lists
    cases lists with
    | ids each => exact (Except.mapM_eq_ok.mpr (each.imp fun _ _ => idOf_eq_ok.mpr)).symm
    | @noId row member missing =>
      have bad : ∃ row ∈ rows, ¬ ∃ id, finder.idOf row = .ok id :=
        ⟨row, member, by simp [idOf_eq_ok, missing]⟩
      obtain ⟨first, reached, bad⟩ := exists_reachedIn bad
      simp only [idOf_eq_ok, ← Option.isSome_iff_exists, Option.not_isSome_iff_eq_none] at bad
      exact (Except.mapM_eq_error.mpr ⟨first, reached, idOf_eq_error.mpr ⟨bad, rfl⟩⟩).symm
  · rintro rfl
    cases read : rows.mapM finder.idOf with
    | ok ids => exact .ids ((Except.mapM_eq_ok.mp read).imp fun _ _ => idOf_eq_ok.mp)
    | error e =>
      obtain ⟨row, ⟨before, after, rfl, -⟩, refused⟩ := Except.mapM_eq_error.mp read
      obtain ⟨missing, rfl⟩ := idOf_eq_error.mp refused
      exact .noId (List.mem_append_right before List.mem_cons_self) missing

variable [Record α] {request : Request} {prepared : Prepared}

/-- What a search finds in its rows is determined, down to the error. -/
theorem finds_iff {result : Except Error (ResultSet α)} :
    finder.Finds prepared rows result ↔ result = (finder.search prepared).finish rows := by
  have steps : (finder.search prepared).finish rows = (do
      let records ← rows.mapM finder.hydrate
      let collection ← Collection.ofList records
      return ⟨collection.lock true, (prepared.compile finder.target).2, finder.target, true⟩) := rfl
  rw [steps]
  constructor
  · intro finds
    cases finds with
    | records each same =>
      rw [Except.mapM_eq_ok.mpr each]
      simp only [bind, Except.bind, Collection.ofList_of_same same]
      rfl
    | noRecord first refused =>
      rw [Except.mapM_eq_error.mpr ⟨_, first, refused⟩]
      rfl
    | otherType each reached differs =>
      rw [Except.mapM_eq_ok.mpr each]
      simp only [bind, Except.bind, Collection.ofList_of_other reached differs]
  · rintro rfl
    cases read : rows.mapM finder.hydrate with
    | error e =>
      obtain ⟨row, first, refused⟩ := Except.mapM_eq_error.mp read
      exact .noRecord first refused
    | ok records =>
      have each := Except.mapM_eq_ok.mp read
      rcases Collection.same_or_other records with
        same | ⟨first, rest, other, rfl, reached, differs⟩
      · simp only [bind, Except.bind, Collection.ofList_of_same same]
        exact .records each same
      · simp only [bind, Except.bind, Collection.ofList_of_other reached differs]
        exact .otherType each reached differs

theorem finish_get (id : Value) (row : Row) (rest : List Row) :
    (finder.inquiry (.get id)).finish (row :: rest) =
      (finder.hydrate row).map fun record => .record (some record) := by
  change ((finder.hydrate row).map some).map Answer.record = _
  cases finder.hydrate row <;> rfl

/-- What a request answers on its rows is determined, down to the error. -/
theorem answers_iff {answer : Except Error (Answer α)} :
    finder.Answers request rows answer ↔ answer = (finder.inquiry request).finish rows := by
  constructor
  · intro answers
    cases answers with
    | find finds =>
      rw [finds_iff.mp finds]
      rfl
    | page finds =>
      rw [finds_iff.mp finds]
      rfl
    | ids lists =>
      rw [lists_iff.mp lists]
      rfl
    | count => rfl
    | nothing => rfl
    | record id row rest => exact (finish_get id row rest).symm
  · rintro rfl
    cases request with
    | find prepared => exact .find (finds_iff.mpr rfl)
    | page f number size => exact .page (finds_iff.mpr rfl)
    | ids f => exact .ids (lists_iff.mpr rfl)
    | count f => exact .count f rows
    | get id =>
      cases rows with
      | nil => exact .nothing id
      | cons row rest =>
        rw [finish_get]
        exact .record id row rest

end

/-! ### The session -/

variable [Record α] [Store σ]

/-- The four ways that a request can go, each with its answer and the session that it leaves. -/
inductive Course (finder : Finder α) (request : Request) (s : Session σ) :
    Except Error (Answer α) × Session σ → Prop
  | served {row : Row} : finder.served? s.cache request = some row →
    Course finder request s ((finder.hydrate row).map fun record => .record (some record), s)
  | noQuery {e : CompileError} : finder.served? s.cache request = none →
    (finder.filterOf request).query finder.target = .error e →
    Course finder request s (.error (.compile e), s)
  | failed {q : Query} {e : StorageError} {store : σ} : finder.served? s.cache request = none →
    (finder.filterOf request).query finder.target = .ok q →
    Store.execute s.store ⟨q.sql, q.values⟩ = (.error e, store) →
    Course finder request s (.error (.storage e),
      { store, statements := s.statements ++ [⟨q.sql, q.values⟩], cache := s.cache })
  | executed {q : Query} {rows : List Row} {store : σ} {cache : RowCache}
    {answer : Except Error (Answer α)} : finder.served? s.cache request = none →
    (finder.filterOf request).query finder.target = .ok q →
    Store.execute s.store ⟨q.sql, q.values⟩ = (.ok rows, store) →
    finder.Updates request rows s.cache cache → finder.Answers request rows answer →
    Course finder request s
      (answer, { store, statements := s.statements ++ [⟨q.sql, q.values⟩], cache })

/-- A request that is not served from the cache takes the course of its inquiry. -/
theorem course_iff_pursue {finder : Finder α} {request : Request} {s : Session σ}
    (missed : finder.served? s.cache request = none)
    {outcome : Except Error (Answer α) × Session σ} :
    finder.Course request s outcome ↔ outcome = finder.pursue (finder.inquiry request) s := by
  constructor
  · intro course
    cases course with
    | served hit => simp [missed] at hit
    | noQuery _ made => simp only [pursue, query_inquiry, made]
    | failed _ made replied => simp only [pursue, query_inquiry, made, replied]
    | executed _ made replied updates answers =>
      simp only [pursue, query_inquiry, made, replied, updates_iff.mp updates,
        answers_iff.mp answers]
  · rintro rfl
    unfold pursue
    rw [query_inquiry]
    cases made : (finder.filterOf request).query finder.target with
    | error e => exact .noQuery missed made
    | ok q =>
      dsimp only
      rcases replied : Store.execute s.store ⟨q.sql, q.values⟩ with ⟨_ | rows, store⟩
      · exact .failed missed made replied
      · exact .executed missed made replied (updates_iff.mpr rfl) (answers_iff.mpr rfl)

/-- What a request does is one of the four courses, and there is only one that it can take. -/
theorem course_iff_serve (finder : Finder α) (request : Request) (s : Session σ)
    (outcome : Except Error (Answer α) × Session σ) :
    finder.Course request s outcome ↔ outcome = finder.serve request s := by
  rw [serve_eq]
  cases hit : finder.served? s.cache request with
  | none => exact course_iff_pursue hit
  | some row =>
    constructor
    · intro course
      cases course with
      | served hit' =>
        obtain rfl := Option.some.inj (hit.symm.trans hit')
        rfl
      | noQuery missed => simp [hit] at missed
      | failed missed => simp [hit] at missed
      | executed missed => simp [hit] at missed
    · rintro rfl
      exact .served hit

/-- The second row has no id and the third is no record, but the cache has the third in the place of
the first. -/
theorem course_iff_serve_sample :
    let users := (Finder.new "users" (Entity.ofRow "user" ["name"]) { cacheRows := true }).withCache
    let rows := [Row.ofCells [("id", .int 1), ("name", .text "ada")],
      Row.ofCells [("name", .text "alan")], Row.ofCells [("id", .text "1")]]
    let s : Session Script := { store := ⟨[.ok rows]⟩ }
    ∃ outcome, users.Course (.find Filter.all.prepare) s outcome ∧
      outcome.1.refusal? = some (.hydration (.refused "missing name")) ∧
      outcome.2.statements = [⟨"SELECT * FROM users", []⟩] ∧
      outcome.2.cache = ⟨[(("users", "1"), Row.ofCells [("id", .text "1")])]⟩ := by
  intro users rows s
  exact ⟨_, (course_iff_serve users _ s _).mpr rfl, by decide +kernel, by decide +kernel,
    by decide +kernel⟩

end Finder

end FilterQuery
