import FilterQuery.Proofs.Inquiry

/-!
# Caching and answers

Over a store that does not change and whose ids are well behaved, caching changes no answer. Every
row in the cache is a row of its table and is displayed under its key, so a request that the cache
serves would be given the same row by the store. Main statement: every request of a run is answered
as without caching, and a record is asked of the store just if no row with its id has been fetched
before.
-/

namespace FilterQuery

/-- A store that answers each statement always alike. The displayed ids of the rows of a table are
pairwise different. A test for an id finds the row that has it, if there is one, and whatever is
selected as a whole is a row of the table. -/
structure Database where
  reply : Statement → Reply
  idColumn : String → String
  holds : String → Row → Prop
  distinct : ∀ {table row other id}, holds table row → holds table other →
    row.Shows (idColumn table) id → other.Shows (idColumn table) id → row = other
  lookup : ∀ table id, ∃ found : Option Row,
    reply ⟨Finder.lookupSql ⟨table, idColumn table⟩, [id]⟩ = .ok found.toList ∧
    (∀ row, found = some row → holds table row ∧ row.Shows (idColumn table) id) ∧
    (found = none → ∀ row, holds table row → ¬ row.Shows (idColumn table) id)
  whole : ∀ {table} {f : Filter} {q rows}, f.modifiers.projection = .full →
    f.query ⟨table, idColumn table⟩ = .ok q → reply ⟨q.sql, q.values⟩ = .ok rows →
    ∀ row ∈ rows, holds table row

namespace Database

instance : Store Database where
  execute db statement := (db.reply statement, db)

variable {α : Type} (db : Database)

/-- Whether a finder, if it uses the cache, knows the rows of its table by their ids. -/
def Agrees (finder : Finder α) : Prop :=
  finder.usesCache → finder.target.idColumn = db.idColumn finder.target.table

/-- Whether the cache has only rows of the tables, each under its own id. -/
def Coherent (cache : RowCache) : Prop :=
  ∀ table id row, cache.get? (.of table id) = some row →
    db.holds table row ∧ row.Shows (db.idColumn table) id

variable {db} {finder : Finder α} {s : Session Database}

/-- Of a row that the cache serves the store would make the same answer. -/
theorem answer_lookup_of_served (coherent : db.Coherent s.cache) (agrees : db.Agrees finder)
    {id : Value} {row : Row} (served : finder.served? s.cache (.get id) = some row) :
    (finder.lookup id).answer db = (finder.hydrate row).map some := by
  obtain ⟨uses, cached⟩ : finder.usesCache ∧ s.cache.get? (finder.cacheKey id) = some row := by
    simpa [Finder.served?] using served
  obtain ⟨holds, shows⟩ := coherent _ _ _ cached
  obtain ⟨found, replied, sound, complete⟩ := db.lookup finder.target.table id
  cases found with
  | none => exact absurd shows (complete rfl row holds)
  | some other =>
    obtain ⟨holds', shows'⟩ := sound other rfl
    obtain rfl := db.distinct holds holds' shows shows'
    rw [← agrees uses] at replied
    have made : (finder.lookup id).query = _ := finder.query_byId id
    simp only [Inquiry.answer, made, Store.execute, replied]
    rfl

variable [Record α] {request : Request}

theorem store_serve : (finder.serve request s).2.store = s.store := by
  rw [Finder.serve_eq]
  cases finder.served? s.cache request with
  | some row => rfl
  | none =>
    unfold Finder.pursue
    cases (finder.inquiry request).query with
    | error e => rfl
    | ok q =>
      simp only [Store.execute]
      cases s.store.reply ⟨q.sql, q.values⟩ <;> rfl

/-- A row that is fetched is one of the table, and under the column of ids that the table has. -/
theorem holds_of_mem_fetched (store : s.store = db) (agrees : db.Agrees finder) {fetch : Fetch}
    (fetched : fetch ∈ finder.fetched request s) :
    fetch.target.idColumn = db.idColumn fetch.target.table ∧
      db.holds fetch.target.table fetch.row := by
  obtain ⟨target, -, keeps, uses, mem⟩ := Finder.mem_fetched.mp fetched
  rw [target]
  have column := agrees uses
  refine ⟨column, ?_⟩
  rw [Finder.keeps_inquiry, decide_eq_true_eq] at keeps
  rw [Inquiry.rows, Finder.query_inquiry, store] at mem
  have same : finder.target = ⟨finder.target.table, db.idColumn finder.target.table⟩ := by
    rw [← column]
  cases query : (finder.filterOf request).query finder.target with
  | error e => simp [query] at mem
  | ok q =>
    simp only [query, Store.execute] at mem
    cases replied : db.reply ⟨q.sql, q.values⟩ with
    | error e => simp [replied] at mem
    | ok rows =>
      simp only [replied] at mem
      exact db.whole keeps (same ▸ query) replied _ mem

/-- A request leaves the cache coherent, since it brings in only rows of the tables. -/
theorem Coherent.serve (coherent : db.Coherent s.cache) (store : s.store = db)
    (agrees : db.Agrees finder) : db.Coherent (finder.serve request s).2.cache := by
  intro table id row found
  rw [Finder.get?_cache_serve, Option.or_eq_some_iff] at found
  rcases found with new | ⟨-, old⟩
  · obtain ⟨fetch, mem, rfl, key⟩ := Fetch.exists_of_last? new
    obtain ⟨rfl, shows⟩ := Fetch.key?_eq_some.mp key
    obtain ⟨column, holds⟩ := holds_of_mem_fetched store agrees mem
    exact ⟨holds, column ▸ shows⟩
  · exact coherent table id row old

/-- Under a coherent cache every answer is what the store replies make it. -/
theorem answer_serve (coherent : db.Coherent s.cache) (store : s.store = db)
    (agrees : db.Agrees finder) :
    (finder.serve request s).1 = (finder.inquiry request).answer db := by
  rw [Finder.serve_eq]
  cases served : finder.served? s.cache request with
  | none => rw [Finder.answer_pursue, store]
  | some row =>
    cases request with
    | get id =>
      rw [Finder.inquiry, Inquiry.answer_map, answer_lookup_of_served coherent agrees served]
      dsimp only
      cases finder.hydrate row <;> rfl
    | _ => cases served

/-- The run: on a coherent cache every request is answered as from the store, and the cache stays
coherent. -/
theorem Coherent.serveAll {requests : List (Finder α × Request)} (coherent : db.Coherent s.cache)
    (store : s.store = db) (agrees : ∀ served ∈ requests, db.Agrees served.1) :
    db.Coherent (Finder.serveAll requests s).2.cache ∧
      (Finder.serveAll requests s).2.store = db ∧
      (Finder.serveAll requests s).1 =
        requests.map fun served => (served.1.inquiry served.2).answer db := by
  induction requests generalizing s with
  | nil => exact ⟨coherent, store, rfl⟩
  | cons served rest ih =>
    obtain ⟨finder, request⟩ := served
    obtain ⟨first, later⟩ := List.forall_mem_cons.mp agrees
    obtain ⟨coherent', store', answers⟩ :=
      ih (coherent.serve store first) (store_serve.trans store) later
    refine ⟨coherent', store', ?_⟩
    rw [List.map_cons, ← answer_serve coherent store first, ← answers]
    rfl

theorem column_of_mem_fetches {requests : List (Finder α × Request)}
    (agrees : ∀ served ∈ requests, db.Agrees served.1) {fetch : Fetch}
    (mem : fetch ∈ Finder.fetches requests s) :
    fetch.target.idColumn = db.idColumn fetch.target.table := by
  obtain ⟨earlier, finder, request, later, rfl, fetched⟩ := Finder.mem_fetches.mp mem
  obtain ⟨target, -, -, uses, -⟩ := Finder.mem_fetched.mp fetched
  rw [target]
  exact agrees (finder, request) (by simp) uses

end Database

namespace Finder

variable {α : Type} (finder : Finder α)

/-- The same finder with caching off. -/
def uncached : Finder α := { finder with config := { finder.config with cacheRows := false } }

@[simp] theorem usesCache_uncached : finder.uncached.usesCache = false := Bool.and_false _

theorem inquiry_uncached [Record α] (request : Request) :
    finder.uncached.inquiry request = finder.inquiry request := by
  cases request <;> rfl

end Finder

namespace Database

variable {α : Type}

theorem agrees_uncached (db : Database) (finder : Finder α) : db.Agrees finder.uncached := by
  intro uses
  simp at uses

/-- Caching changes no answer, and it spares just the statements for records whose rows have been
fetched before. -/
theorem answers_as_uncached [Record α] (db : Database) (requests : List (Finder α × Request))
    (agrees : ∀ served ∈ requests, db.Agrees served.1) :
    let s : Session Database := { store := db }
    (Finder.serveAll requests s).1 =
      (Finder.serveAll (requests.map fun served => (served.1.uncached, served.2)) s).1 ∧
    ∀ earlier finder id later, requests = earlier ++ (finder, .get id) :: later →
      let t := (Finder.serveAll earlier s).2
      (finder.serve (.get id) t).1 = (finder.uncached.serve (.get id) t).1 ∧
      (finder.usesCache → ((finder.serve (.get id) t).2.statements = t.statements ↔
        ∃ fetch ∈ Finder.fetches earlier s, fetch.target.table = finder.target.table ∧
          fetch.row.Shows (db.idColumn finder.target.table) id)) := by
  intro s
  have start : db.Coherent s.cache := fun _ _ _ found => nomatch found
  constructor
  · have off : ∀ served ∈ requests.map fun served => (served.1.uncached, served.2),
        db.Agrees served.1 := by
      rintro _ mem
      obtain ⟨served, -, rfl⟩ := List.mem_map.mp mem
      exact db.agrees_uncached served.1
    rw [(start.serveAll rfl agrees).2.2, (start.serveAll rfl off).2.2]
    simp [Finder.inquiry_uncached]
  · rintro earlier finder id later rfl t
    obtain ⟨before, now⟩ := List.forall_mem_append.mp agrees
    obtain ⟨coherent, store, -⟩ := start.serveAll rfl before
    constructor
    · rw [answer_serve coherent store (now _ List.mem_cons_self),
        answer_serve coherent store (db.agrees_uncached finder), Finder.inquiry_uncached]
    · intro uses
      have cached : finder.served? t.cache (.get id) =
          Fetch.last? (finder.cacheKey id) (Finder.fetches earlier s) := by
        simp [Finder.served?, uses, t, Finder.get?_cache_serveAll, s]
      rw [Finder.statements_get, cached, Fetch.last?_isSome]
      refine exists_congr fun fetch => and_congr_right fun mem => ?_
      rw [Finder.cacheKey, Fetch.key?_eq_some, column_of_mem_fetches before mem]
      exact and_congr_right fun table => by rw [table]

/-- The database that has this one row in every table. -/
def ofRow (row : Row) (idColumn : String) (id : Value) (shown : row.get? idColumn = some id) :
    Database where
  reply statement :=
    .ok (if statement.values.all (·.display == id.display) then [row] else [])
  idColumn _ := idColumn
  holds _ other := other = row
  distinct held held' _ _ := held.trans held'.symm
  lookup table asked := by
    by_cases same : asked.display = id.display
    · exact ⟨some row, by simp [same], by rintro _ ⟨⟩; exact ⟨rfl, id, shown, same.symm⟩, nofun⟩
    · refine ⟨none, by simp [same], nofun, ?_⟩
      rintro _ row' rfl ⟨v, cell, display⟩
      obtain rfl := Option.some.inj (cell.symm.trans shown)
      exact same display.symm
  whole _ _ replied := by
    obtain rfl := Except.ok.inj replied
    intro other mem
    split at mem
    · exact List.mem_singleton.mp mem
    · cases mem

/-- A record that has been found is got without a statement, by a text for its number. -/
theorem answers_as_uncached_sample :
    let row := Row.ofCells [("id", .int 1)]
    let db := ofRow row "id" (.int 1) rfl
    let users := (Finder.new "users" (Entity.ofRow "user" []) { cacheRows := true }).withCache
    let all : Request := .find Filter.all.prepare
    let t := (Finder.serveAll [(users, all)] ({ store := db } : Session Database)).2
    (∀ served ∈ [(users, all), (users, .get (.text "1"))], db.Agrees served.1) ∧
      (users.serve (.get (.text "1")) t).1 = (users.uncached.serve (.get (.text "1")) t).1 ∧
      (users.serve (.get (.text "1")) t).2.statements = t.statements := by
  intro row db users all t
  have agrees : ∀ served ∈ [(users, all), (users, .get (.text "1"))], db.Agrees served.1 :=
    List.forall_mem_cons.mpr ⟨fun _ => rfl, List.forall_mem_singleton.mpr fun _ => rfl⟩
  have fetched : (⟨users.target, row⟩ : Fetch) ∈
      Finder.fetches [(users, all)] ({ store := db } : Session Database) := by
    decide +kernel
  obtain ⟨same, spares⟩ :=
    (answers_as_uncached db _ agrees).2 [(users, all)] users (.text "1") [] rfl
  exact ⟨agrees, same, (spares rfl).mpr ⟨_, fetched, rfl, .int 1, by decide +kernel, by decide⟩⟩

end Database

end FilterQuery
