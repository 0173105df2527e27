import FilterQuery.Proofs.Inquiry

/-!
# Where cached rows come from

A row that the cache serves was fetched before, by a request to a finder on the same table, and
under the id column of that finder its value is displayed like the id asked for. The cache does
not know id columns, and it takes in a row whose id is null under the word for it. So the row need
not be one that a test of the id column could find, unless the finders on the table agree on their
id column and no null comes in between. Main statement: then it is.
-/

namespace FilterQuery

/-- Whether a test of the column for the id may find the row: null is equal to nothing. -/
def Row.MayHold (row : Row) (column : String) (id : Value) : Prop :=
  row.Shows column id ∧ row.get? column ≠ some .null

namespace Finder

section

variable {α σ : Type} [Record α] [Store σ] {requests : List (Finder α × Request)} {s : Session σ}
  {finder : Finder α} {id : Value} {row : Row}

theorem last?_of_served (fresh : s.cache = {})
    (served : finder.served? (serveAll requests s).2.cache (.get id) = some row) :
    Fetch.last? (finder.cacheKey id) (fetches requests s) = some row := by
  simp only [served?, get?_cache_serveAll, fresh, RowCache.get?_empty, Option.or_none] at served
  split at served
  · exact served
  · exact absurd served (by simp)

/-- A row served from the cache was fetched for a finder on the table, and is under that finder's
id column what is asked for. It is so under the id column of the asking finder too, if all finders
on the table have the same, and null is not the id asked for or not among the ids that they
fetched. -/
theorem origin_of_served (fresh : s.cache = {})
    (served : finder.served? (serveAll requests s).2.cache (.get id) = some row) :
    finder.serve (.get id) (serveAll requests s).2 =
      ((finder.hydrate row).map (.record ∘ some), (serveAll requests s).2) ∧
    (∃ earlier asker request later, requests = earlier ++ (asker, request) :: later ∧
      ⟨asker.target, row⟩ ∈ asker.fetched request (serveAll earlier s).2 ∧
      asker.target.table = finder.target.table ∧ row.Shows asker.target.idColumn id) ∧
    ((∀ fetch ∈ fetches requests s, fetch.target.table = finder.target.table →
        fetch.target.idColumn = finder.target.idColumn) →
      (id.display ≠ Value.null.display ∨
        ∀ fetch ∈ fetches requests s, fetch.target.table = finder.target.table →
          fetch.row.get? fetch.target.idColumn ≠ some .null) →
      row.MayHold finder.target.idColumn id) := by
  obtain ⟨fetch, mem, rfl, key⟩ := Fetch.exists_of_last? (last?_of_served fresh served)
  obtain ⟨table, shows⟩ := Fetch.key?_eq_some.mp key
  refine ⟨?_, ?_, fun agree noNull => ?_⟩
  · rw [serve_eq, served]
  · obtain ⟨earlier, asker, request, later, split, mem⟩ := mem_fetches.mp mem
    have same := (mem_fetched.mp mem).1
    rw [same] at table shows
    exact ⟨earlier, asker, request, later, split, same ▸ mem, table, shows⟩
  · rw [← agree fetch mem table]
    refine ⟨shows, fun isNull => ?_⟩
    rcases noNull with other | none
    · obtain ⟨v, cell, shown⟩ := shows
      obtain rfl := Option.some.inj (cell.symm.trans isNull)
      exact other shown.symm
    · exact none fetch mem table isNull

end

/-- All users are fetched by name, and then one by the number that is its name displayed. -/
theorem origin_of_served_sample :
    let config : QueryConfig := { idColumn := "name", cacheRows := true }
    let users := (Finder.new "users" (Entity.ofRow "user" []) config).withCache
    let row := Row.ofCells [("name", .text "7")]
    let s : Session Script := ⟨⟨[.ok [row]]⟩, [], {}⟩
    let requests := [(users, .find Filter.all.prepare)]
    users.served? (serveAll requests s).2.cache (.get (.int 7)) = some row ∧
      row.MayHold "name" (.int 7) := by
  intro config users row s requests
  have served : users.served? (serveAll requests s).2.cache (.get (.int 7)) = some row := by
    decide +kernel
  have fetched : fetches requests s = [⟨users.target, row⟩] := by decide +kernel
  refine ⟨served, (origin_of_served rfl served).2.2 ?_ (.inl (by decide))⟩
  intro fetch mem _
  rw [fetched, List.mem_singleton] at mem
  rw [mem]

/-- One finder knows the rows of a table by column a, another by column b. -/
theorem not_mayHold_of_served :
    ¬ ∀ (requests : List (Finder Entity × Request)) (s : Session Script) (finder : Finder Entity)
        (id : Value) (row : Row), s.cache = {} →
      finder.served? (serveAll requests s).2.cache (.get id) = some row →
      row.MayHold finder.target.idColumn id := by
  intro claimed
  let config : QueryConfig := { cacheRows := true }
  let byA := ((Finder.new "t" (Entity.ofRow "Row" []) config).withIdColumn "a").withCache
  let byB := byA.withIdColumn "b"
  let row := Row.ofCells [("a", .int 1), ("b", .int 2)]
  obtain ⟨⟨v, cell, shown⟩, -⟩ := claimed [(byA, .find Filter.all.prepare)]
    ⟨⟨[.ok [row]]⟩, [], {}⟩ byB (.int 1) row rfl (by decide +kernel)
  have held : row.get? byB.target.idColumn = some (.int 2) := by decide +kernel
  rw [held] at cell
  obtain rfl := Option.some.inj cell
  exact absurd shown (by decide)

/-- With one id column alone, a row without an id is served for the text that null displays. -/
example :
    let config : QueryConfig := { cacheRows := true }
    let finder := (Finder.new "t" (Entity.ofRow "Row" []) config).withCache
    let row := Row.ofCells [("id", .null)]
    finder.served? (serveAll [(finder, .find Filter.all.prepare)]
      (⟨⟨[.ok [row]]⟩, [], {}⟩ : Session Script)).2.cache (.get (.text "NULL")) = some row := by
  decide +kernel

end Finder

end FilterQuery
