import FilterQuery.Finder.Request
import FilterQuery.Proofs.Work

/-!
# What requests do

Every request to a finder comes to the same few steps: a query is made and executed, the rows are
kept if they are whole, and then something is made of them. Main statements: a request does exactly
this, unless it asks for a record whose row is in the cache, and then nothing but the hydration of
that row takes place; and a run of requests leaves in the cache, under each key, the row fetched
last.
-/

namespace FilterQuery

namespace Work

variable {σ α β : Type}

theorem ofExcept_bind (first : Except Error α) (later : α → Except Error β) :
    (ofExcept (first >>= later) : Work σ β) = ofExcept first >>= fun a => ofExcept (later a) := by
  funext s
  rw [ExceptT.bind_apply]
  cases first <;> rfl

/-- What an answer is turned into does not change the session that is left. -/
theorem map_apply (f : α → β) (work : Work σ α) (s : Session σ) :
    (f <$> work) s = ((work s).1.map f, (work s).2) := by
  rw [← bind_pure_comp, ExceptT.bind_apply]
  rcases work s with ⟨_ | _, t⟩ <;> rfl

theorem map_ofExcept (f : α → β) (outcome : Except Error α) :
    (f <$> ofExcept outcome : Work σ β) = ofExcept (outcome.map f) :=
  funext fun s => map_apply f (ofExcept outcome) s

end Work

/-- A query, whether its rows are kept, and what is made of them. -/
structure Inquiry (β : Type) where
  query : Except CompileError Query
  keeps : Bool
  finish : List Row → Except Error β

namespace Inquiry

variable {β γ σ : Type} [Store σ] (i : Inquiry β)

def map (f : β → γ) : Inquiry γ := { i with finish := fun rows => (i.finish rows).map f }

/-- The rows that come in reply, none if there is no query or no reply. -/
def rows (store : σ) : List Row :=
  match i.query with
  | .error _ => []
  | .ok q =>
    match (Store.execute store ⟨q.sql, q.values⟩).1 with
    | .error _ => []
    | .ok rows => rows

/-- What is made of the reply. -/
def answer (store : σ) : Except Error β :=
  match i.query with
  | .error e => .error (.compile e)
  | .ok q =>
    match (Store.execute store ⟨q.sql, q.values⟩).1 with
    | .error e => .error (.storage e)
    | .ok rows => i.finish rows

@[simp] theorem query_map (f : β → γ) : (i.map f).query = i.query := rfl

theorem answer_map (f : β → γ) (store : σ) : (i.map f).answer store = (i.answer store).map f := by
  simp only [answer, query_map]
  cases i.query with
  | error e => rfl
  | ok q =>
    dsimp only
    cases (Store.execute store ⟨q.sql, q.values⟩).1 <;> rfl

end Inquiry

/-- Whether the row has in the column a value that is displayed like the id. -/
def Row.Shows (row : Row) (column : String) (id : Value) : Prop :=
  ∃ v, row.get? column = some v ∧ v.display = id.display

/-- A row as it was fetched, with the target of the finder that fetched it. -/
structure Fetch where
  target : Target
  row : Row
  deriving DecidableEq

namespace Fetch

def key? (fetch : Fetch) : Option CacheKey :=
  (fetch.row.get? fetch.target.idColumn).map (.of fetch.target.table)

/-- A row is kept under its table and under what it shows in the column of ids of the finder that
fetched it. -/
theorem key?_eq_some {fetch : Fetch} {table : String} {id : Value} :
    fetch.key? = some (.of table id) ↔
      fetch.target.table = table ∧ fetch.row.Shows fetch.target.idColumn id := by
  simp only [key?, CacheKey.of, Row.Shows, Option.map_eq_some_iff, Prod.mk.injEq, and_left_comm,
    exists_and_left]

/-- The row that was fetched last under a key. -/
def last? (key : CacheKey) (fetches : List Fetch) : Option Row :=
  (fetches.filter fun fetch => fetch.key? = some key).getLast?.map row

variable {key : CacheKey} {fetches : List Fetch}

/-- Of two stretches of fetches the later one decides, if anything in it is kept under the key. -/
theorem last?_append (earlier later : List Fetch) :
    last? key (earlier ++ later) = (last? key later).or (last? key earlier) := by
  simp [last?, List.getLast?_append, Option.map_or]

theorem exists_of_last? {row : Row} (h : last? key fetches = some row) :
    ∃ fetch ∈ fetches, fetch.row = row ∧ fetch.key? = some key := by
  obtain ⟨fetch, last, rfl⟩ := Option.map_eq_some_iff.mp h
  have mem := List.mem_filter.mp (List.mem_of_getLast? last)
  exact ⟨fetch, mem.1, rfl, of_decide_eq_true mem.2⟩

theorem last?_isSome : (last? key fetches).isSome ↔ ∃ fetch ∈ fetches, fetch.key? = some key := by
  simp [last?]

end Fetch

namespace Finder

variable {α β γ σ : Type} (finder : Finder α)

/-- The page that a finder gives of the records that pass a filter. -/
def pageOf (f : Filter) (number : UInt64) (size : Option UInt64) : Filter :=
  f.withPage number (finder.config.clampPageSize (size.getD finder.config.pageSize))

/-- All records that pass a filter. -/
def search [Record α] (prepared : Prepared) : Inquiry (ResultSet α) where
  query := prepared.filter.query finder.target
  keeps := prepared.filter.modifiers.projection = .full
  finish rows := do
    let records ← rows.mapM finder.hydrate
    ResultSet.ofRecords records (prepared.compile finder.target).2 finder.target true

def listing (f : Filter) : Inquiry (List Value) where
  query := (f.withProjection .idOnly).query finder.target
  keeps := false
  finish rows := rows.mapM finder.idOf

def counting (f : Filter) : Inquiry UInt64 where
  query := (f.withProjection .countOnly).query finder.target
  keeps := false
  finish := countOfRows

def lookupSql (target : Target) : String :=
  "SELECT * FROM " ++ target.table ++ " WHERE " ++ target.idColumn ++ " = ? LIMIT 1"

/-- The query for one id asks for the row of the table that has this id. -/
theorem query_byId (id : Value) :
    (finder.byId id).query finder.target =
      .ok ⟨finder.target, lookupSql finder.target, [id]⟩ := by
  have window : (finder.byId id).modifiers.window = .ok (some 1, none) := rfl
  have condition : (finder.byId id).conditionPieces =
      [.glue " WHERE ", .leaf (finder.target.idColumn ++ " " ++ "=" ++ " ?") [id]] := rfl
  have sql : "SELECT * FROM " ++ finder.target.table ++ " WHERE " ++ finder.target.idColumn ++
      " = ? LIMIT 1" = "SELECT " ++ "*" ++ " FROM " ++ finder.target.table ++
      Piece.textOf (finder.byId id).conditionPieces ++ " LIMIT 1" := by
    rw [condition]
    simp [Piece.text, String.append_assoc]
  exact Filter.query_eq_ok.mpr ⟨some 1, none, window,
    congrArg (fun sql => (⟨finder.target, sql, [id]⟩ : Query)) sql⟩

/-- The record of one id, where the cache does not have it. -/
def lookup (id : Value) : Inquiry (Option α) where
  query := (finder.byId id).query finder.target
  keeps := true
  finish
    | [] => .ok none
    | row :: _ => (finder.hydrate row).map some

/-- The row that the cache has for a request. -/
def served? (cache : RowCache) : Request → Option Row
  | .get id => if finder.usesCache then cache.get? (finder.cacheKey id) else none
  | .find _ | .page _ _ _ | .ids _ | .count _ => none

theorem get?_rememberIn_single (row : Row) (cache : RowCache) (key : CacheKey) :
    (finder.rememberIn [row] cache).get? key =
      (Fetch.last? key [⟨finder.target, row⟩]).or (cache.get? key) := by
  cases id : row.get? finder.target.idColumn with
  | none => simp [rememberIn, Fetch.last?, Fetch.key?, id]
  | some v =>
    by_cases same : finder.cacheKey v = key
    · simp [rememberIn, Fetch.last?, Fetch.key?, id, ← same, cacheKey]
    · have kept := cache.get?_insert_of_ne row (Ne.symm same)
      simp only [cacheKey] at same kept
      simp [rememberIn, Fetch.last?, Fetch.key?, id, cacheKey, same, kept]

/-- After rows are remembered, the last of them under a key is found there, or what was there
before. -/
theorem get?_rememberIn (rows : List Row) (cache : RowCache) (key : CacheKey) :
    (finder.rememberIn rows cache).get? key =
      (Fetch.last? key (rows.map (Fetch.mk finder.target))).or (cache.get? key) := by
  induction rows generalizing cache with
  | nil => rfl
  | cons row rows ih =>
    calc (finder.rememberIn (row :: rows) cache).get? key
        = (finder.rememberIn rows (finder.rememberIn [row] cache)).get? key := rfl
      _ = _ := by
        rw [ih, get?_rememberIn_single, ← Option.or_assoc, ← Fetch.last?_append, List.map_cons,
          List.singleton_append]

section

variable [Store σ]

/-- The steps of an inquiry. -/
def work (i : Inquiry β) : Work σ β := do
  let query ← Work.ofExcept (i.query.mapError .compile)
  let rows ← Work.execute query
  if i.keeps then finder.remember rows
  Work.ofExcept (i.finish rows)

/-- The answer to an inquiry, and the session after it. -/
def pursue (i : Inquiry β) (s : Session σ) : Except Error β × Session σ :=
  match i.query with
  | .error e => (.error (.compile e), s)
  | .ok q =>
    let statement : Statement := ⟨q.sql, q.values⟩
    let statements := s.statements ++ [statement]
    match Store.execute s.store statement with
    | (.error e, store) => (.error (.storage e), { s with store, statements })
    | (.ok rows, store) =>
      let cache := if i.keeps && finder.usesCache then finder.rememberIn rows s.cache else s.cache
      (i.finish rows, { store, statements, cache })

/-- The steps of an inquiry, one after the other, are its query, its rows, what is remembered and
its answer. -/
theorem work_eq_pursue (i : Inquiry β) (s : Session σ) : finder.work i s = finder.pursue i s := by
  unfold work pursue
  cases i.query with
  | error e => rfl
  | ok q =>
    have made : (Except.ok q : Except CompileError Query).mapError Error.compile = .ok q := rfl
    simp only [made, ExceptT.bind_apply, Work.ofExcept, Work.execute]
    rcases Store.execute s.store ⟨q.sql, q.values⟩ with ⟨reply, store⟩
    cases reply with
    | error e => rfl
    | ok rows =>
      cases i.keeps with
      | false => rfl
      | true =>
        unfold remember
        cases finder.usesCache <;> rfl

theorem map_work (f : β → γ) (i : Inquiry β) :
    f <$> (finder.work i : Work σ β) = finder.work (i.map f) := by
  cases keeps : i.keeps <;> simp [work, Inquiry.map, keeps, Work.map_ofExcept]

/-- What an inquiry answers depends on the store alone, and not on the cache. -/
theorem answer_pursue (i : Inquiry β) (s : Session σ) :
    (finder.pursue i s).1 = i.answer s.store := by
  unfold pursue Inquiry.answer
  cases i.query with
  | error e => rfl
  | ok q =>
    dsimp only
    rcases Store.execute s.store ⟨q.sql, q.values⟩ with ⟨reply, store⟩
    cases reply <;> rfl

/-- An inquiry with a query issues one statement. -/
theorem statements_pursue {i : Inquiry β} {q : Query} (made : i.query = .ok q) (s : Session σ) :
    (finder.pursue i s).2.statements = s.statements ++ [⟨q.sql, q.values⟩] := by
  simp only [pursue, made]
  rcases Store.execute s.store ⟨q.sql, q.values⟩ with ⟨reply, store⟩
  cases reply <;> rfl

/-- An inquiry remembers its rows exactly where it keeps them and the finder uses the cache. -/
theorem cache_pursue (i : Inquiry β) (s : Session σ) :
    (finder.pursue i s).2.cache =
      if i.keeps && finder.usesCache then finder.rememberIn (i.rows s.store) s.cache
      else s.cache := by
  unfold pursue Inquiry.rows
  cases i.query with
  | error e => exact (ite_self _).symm
  | ok q =>
    dsimp only
    rcases Store.execute s.store ⟨q.sql, q.values⟩ with ⟨reply, store⟩
    cases reply with
    | error e => exact (ite_self _).symm
    | ok rows => rfl

theorem findIds_eq (f : Filter) :
    (finder.findIds f : Work σ _) = finder.work (finder.listing f) := by
  simp [findIds, rowsOf, work, listing]

theorem count_eq (f : Filter) :
    (finder.count f : Work σ _) = finder.work (finder.counting f) := by
  simp [count, rowsOf, work, counting]

/-- To get by an id is to be served from the cache or to look the id up. -/
theorem get?_eq (id : Value) (s : Session σ) :
    finder.get? id s = match finder.served? s.cache (.get id) with
      | some row => ((finder.hydrate row).map some, s)
      | none => finder.pursue (finder.lookup id) s := by
  have made (rows : List Row) : (match rows with
      | [] => pure none
      | row :: _ => some <$> Work.ofExcept (finder.hydrate row) : Work σ (Option α)) =
      Work.ofExcept ((finder.lookup id).finish rows) := by
    cases rows with
    | nil => rfl
    | cons row _ => exact Work.map_ofExcept some _
  have asked : (do
      let rows ← finder.rowsOf (finder.byId id)
      finder.remember rows
      match rows with
      | [] => pure none
      | row :: _ => some <$> Work.ofExcept (finder.hydrate row) : Work σ (Option α)) =
      finder.work (finder.lookup id) := by
    simp only [made]
    simp [work, lookup, rowsOf]
  rw [← work_eq_pursue, ← asked]
  unfold get? served?
  cases finder.usesCache with
  | false =>
    simp only [Bool.false_eq_true, if_false, pure_bind]
    rfl
  | true =>
    simp only [if_true]
    rw [ExceptT.bind_apply]
    simp only [Work.cachedRow?]
    cases s.cache.get? (finder.cacheKey id) with
    | some row => exact congrFun (Work.map_ofExcept some (finder.hydrate row)) s
    | none => rfl

/-- The steps are the same whether or not a query is kept with the filter. -/
theorem find_eq [Record α] (prepared : Prepared) :
    (finder.find prepared : Work σ _) = finder.work (finder.search prepared) := by
  have made := prepared.query_compile finder.target
  have same := prepared.filter_compile finder.target
  simp only [find, work, search, ← made, Work.ofExcept_bind]
  generalize prepared.compile finder.target = compiled at same ⊢
  obtain ⟨outcome, prepared'⟩ := compiled
  dsimp only at same ⊢
  rw [same]
  cases outcome with
  | error e => rfl
  | ok handed =>
    simp only [decide_eq_true_eq]
    rfl

end

section

variable [Record α]

def inquiry : Request → Inquiry (Answer α)
  | .find prepared => (finder.search prepared).map .found
  | .page f number size => (finder.search (finder.pageOf f number size).prepare).map .found
  | .ids f => (finder.listing f).map .ids
  | .count f => (finder.counting f).map .count
  | .get id => (finder.lookup id).map .record

/-- The filter whose query a request puts. -/
def filterOf : Request → Filter
  | .find prepared => prepared.filter
  | .page f number size => finder.pageOf f number size
  | .ids f => f.withProjection .idOnly
  | .count f => f.withProjection .countOnly
  | .get id => finder.byId id

theorem query_inquiry (request : Request) :
    (finder.inquiry request).query = (finder.filterOf request).query finder.target := by
  cases request <;> rfl

theorem keeps_inquiry (request : Request) :
    (finder.inquiry request).keeps =
      decide ((finder.filterOf request).modifiers.projection = .full) := by
  cases request <;> rfl

variable [Store σ] (request : Request) (s : Session σ)

/-- Every request is served from the cache or pursued as its inquiry. -/
theorem serve_eq :
    finder.serve request s = match finder.served? s.cache request with
      | some row => ((finder.hydrate row).map (.record ∘ some), s)
      | none => finder.pursue (finder.inquiry request) s := by
  simp only [← work_eq_pursue]
  cases request with
  | find prepared => simp [serve, served?, inquiry, find_eq, map_work]
  | page f number size => simp [serve, served?, inquiry, findPage, pageOf, find_eq, map_work]
  | ids f => simp [serve, served?, inquiry, findIds_eq, map_work]
  | count f => simp [serve, served?, inquiry, count_eq, map_work]
  | get id =>
    rw [inquiry, ← map_work]
    simp only [serve, Work.map_apply, get?_eq, work_eq_pursue]
    cases finder.served? s.cache (.get id) with
    | none => rfl
    | some row =>
      dsimp only
      cases finder.hydrate row <;> rfl

/-- To ask for a record takes a statement unless the cache has its row. -/
theorem statements_get (id : Value) :
    (finder.serve (.get id) s).2.statements = s.statements ↔
      (finder.served? s.cache (.get id)).isSome := by
  rw [serve_eq]
  cases finder.served? s.cache (.get id) with
  | some row => simp
  | none =>
    have made : (finder.inquiry (.get id)).query = _ := finder.query_byId id
    simp [statements_pursue finder made]

/-- The whole rows that a request brings into the cache. -/
def fetched : List Fetch :=
  if (finder.served? s.cache request).isNone && (finder.inquiry request).keeps
      && finder.usesCache then
    ((finder.inquiry request).rows s.store).map (Fetch.mk finder.target)
  else []

variable {finder request s} in
/-- What a request fetches for the cache: the rows of its inquiry, if it was not served from there.
-/
theorem mem_fetched {fetch : Fetch} :
    fetch ∈ finder.fetched request s ↔ fetch.target = finder.target ∧
      finder.served? s.cache request = none ∧ (finder.inquiry request).keeps ∧ finder.usesCache ∧
      fetch.row ∈ (finder.inquiry request).rows s.store := by
  obtain ⟨target, row⟩ := fetch
  unfold fetched
  split
  · next taken =>
    simp only [Bool.and_eq_true, Option.isNone_iff_eq_none] at taken
    simp only [taken, true_and, List.mem_map, Fetch.mk.injEq]
    constructor
    · rintro ⟨_, mem, rfl, rfl⟩
      exact ⟨rfl, mem⟩
    · rintro ⟨rfl, mem⟩
      exact ⟨row, mem, rfl, rfl⟩
  · next left =>
    simp only [Bool.and_eq_true, Option.isNone_iff_eq_none] at left
    simp only [List.not_mem_nil, false_iff]
    rintro ⟨-, missed, keeps, uses, -⟩
    exact left ⟨⟨missed, keeps⟩, uses⟩

/-- The cache after a request has what the request fetched over what it had before. -/
theorem get?_cache_serve (key : CacheKey) :
    (finder.serve request s).2.cache.get? key =
      (Fetch.last? key (finder.fetched request s)).or (s.cache.get? key) := by
  rw [serve_eq, fetched]
  cases finder.served? s.cache request with
  | some row => rfl
  | none =>
    simp only [cache_pursue, Option.isNone_none, Bool.true_and]
    split
    · exact get?_rememberIn ..
    · rfl

end

section

variable [Record α] [Store σ]

/-- The whole rows that a run of requests brings into the cache. -/
def fetches : List (Finder α × Request) → Session σ → List Fetch
  | [], _ => []
  | (finder, request) :: rest, s =>
    finder.fetched request s ++ fetches rest (finder.serve request s).2

theorem mem_fetches {requests : List (Finder α × Request)} {s : Session σ} {fetch : Fetch} :
    fetch ∈ fetches requests s ↔ ∃ earlier finder request later,
      requests = earlier ++ (finder, request) :: later ∧
      fetch ∈ finder.fetched request (serveAll earlier s).2 := by
  induction requests generalizing s with
  | nil => simp [fetches]
  | cons served rest ih =>
    obtain ⟨finder, request⟩ := served
    rw [fetches, List.mem_append, ih]
    constructor
    · rintro (first | ⟨earlier, asker, asked, later, rfl, mem⟩)
      · exact ⟨[], finder, request, rest, rfl, first⟩
      · exact ⟨(finder, request) :: earlier, asker, asked, later, rfl, mem⟩
    · rintro ⟨earlier, asker, asked, later, split, mem⟩
      cases earlier with
      | nil =>
        obtain ⟨⟨rfl, rfl⟩, rfl⟩ := by simpa using split
        exact .inl mem
      | cons served earlier =>
        obtain ⟨rfl, rfl⟩ := by simpa using split
        exact .inr ⟨earlier, asker, asked, later, rfl, mem⟩

/-- Under each key the cache has the row fetched last. -/
theorem get?_cache_serveAll (requests : List (Finder α × Request)) (s : Session σ)
    (key : CacheKey) :
    (serveAll requests s).2.cache.get? key =
      (Fetch.last? key (fetches requests s)).or (s.cache.get? key) := by
  induction requests generalizing s with
  | nil => rfl
  | cons served rest ih =>
    obtain ⟨finder, request⟩ := served
    calc (serveAll ((finder, request) :: rest) s).2.cache.get? key
        = (serveAll rest (finder.serve request s).2).2.cache.get? key := rfl
      _ = _ := by
        rw [ih, get?_cache_serve, fetches, Fetch.last?_append, Option.or_assoc]

end

end Finder

end FilterQuery
