import FilterQuery.Proofs.Page

/-!
# Rows, ids and counts of one condition

What a query selects is chosen beside its condition. Main statement: a filter that makes a query
makes one for every projection, with the same condition and the same values, and all that differs
is the head and, for a count, the missing tail. So the rows of all pages together are counted by
the very statement that counts the rows of the filter itself, whatever page was asked for, and the
same reply gives the same number.
-/

namespace FilterQuery

namespace Filter

variable (f : Filter)

/-- Whole rows and ids are grouped, ordered and limited alike. -/
theorem tailSql_withProjection {projection : Projection} (rows : projection ≠ .countOnly)
    (limit offset : Option UInt64) :
    (f.withProjection projection).tailSql limit offset =
      (f.withProjection .full).tailSql limit offset := by
  cases projection with
  | countOnly => exact absurd rfl rows
  | full | idOnly => rfl

/-- Every projection of a filter that makes a query makes one too. -/
theorem exists_compile_withProjection {limit offset : Option UInt64}
    (window : f.modifiers.window = .ok (limit, offset)) (projection : Projection)
    (target : Target) :
    ∃ handed, ((f.withProjection projection).prepare.compile target).1 = .ok handed ∧
      handed.query.values = f.root.values ∧
      handed.query.sql = (f.withProjection projection).headSql target ++ f.conditionSql ++
        if projection = .countOnly then "" else (f.withProjection .full).tailSql limit offset := by
  have own : (f.withProjection projection).modifiers.window = .ok (limit, offset) := window
  obtain ⟨handed, made⟩ : ∃ handed,
      ((f.withProjection projection).prepare.compile target).1 = .ok handed :=
    Prepared.exists_compile_eq_ok.mpr (Modifiers.exists_window.mp ⟨_, own⟩)
  have query := (f.withProjection projection).prepare.query_compile target
  rw [made] at query
  have written := Except.ok.inj (query.trans (query_of_window own target))
  refine ⟨handed, made, by rw [written]; rfl, ?_⟩
  rw [written]
  split
  · next counted =>
    rw [counted]
    rfl
  · next rows =>
    rw [← tailSql_withProjection f rows]
    rfl

/-- For a count only the condition matters, as long as limit and offset are counts. -/
theorem query_countOnly_withPage (number size : UInt64) {window : Option UInt64 × Option UInt64}
    (h : f.modifiers.window = .ok window) (target : Target) :
    ((f.withPage number size).withProjection .countOnly).query target =
      (f.withProjection .countOnly).query target := by
  have paged : ((f.withPage number size).withProjection .countOnly).modifiers.window = _ :=
    f.modifiers.window_setPage number size
  have own : (f.withProjection .countOnly).modifiers.window = _ := h
  rw [query_of_window paged, query_of_window own]
  rfl

end Filter

namespace ResultSet

variable {α σ : Type} [Store σ]

/-- A connected result of a page has its rows counted by one statement. -/
theorem total?_eq (finder : Finder α) {r : ResultSet α} {f : Filter} (paged : r.isPaged)
    (connected : r.connected)
    (same : (r.prepared.filter.withProjection .countOnly).query r.target =
      (f.withProjection .countOnly).query finder.target) :
    (r.total? : Work σ _) = some <$> finder.count f := by
  simp [total?, paged, connected, same, Finder.count, Finder.rowsOf]

end ResultSet

namespace Finder

variable {α σ : Type} [Store σ] (finder : Finder α)

/-- To count takes one statement, and its reply decides on the number. -/
theorem statements_count {f : Filter} {q : Query}
    (made : (f.withProjection .countOnly).query finder.target = .ok q) (s : Session σ) :
    (finder.count f s).2.statements = s.statements ++ [⟨q.sql, q.values⟩] := by
  rw [count_eq, work_eq_pursue]
  exact statements_pursue finder made s

/-- Of a session nothing matters to a count but what the store replies to its statement. -/
theorem answer_count {f : Filter} {q : Query}
    (made : (f.withProjection .countOnly).query finder.target = .ok q) {s s' : Session σ}
    (reply : (Store.execute s.store ⟨q.sql, q.values⟩).1 =
      (Store.execute s'.store ⟨q.sql, q.values⟩).1) :
    (finder.count f s).1 = (finder.count f s').1 := by
  have query : (finder.counting f).query = .ok q := made
  simp only [count_eq, work_eq_pursue, answer_pursue, Inquiry.answer, query, reply]

variable [Record α]

/-- The result of a page counts the rows of all pages as the finder counts those of the filter. -/
theorem total?_of_findPage {f : Filter} {window : Option UInt64 × Option UInt64}
    (counts : f.modifiers.window = .ok window) {number : UInt64} {size : Option UInt64}
    {session later : Session σ} {r : ResultSet α}
    (found : finder.findPage f number size session = (.ok r, later)) :
    (r.total? : Work σ _) = some <$> finder.count f := by
  obtain ⟨same, target, connected⟩ := finder.ensures_findPage_keeps f number size _ _ _ found
  refine ResultSet.total?_eq finder (by rw [ResultSet.isPaged, same]; rfl) connected ?_
  rw [same, target]
  exact f.query_countOnly_withPage _ _ counts finder.target

/-- The queries of a filter for whole rows, for ids and for a count have one condition and the same
values, and the first two also one tail. So the total of a page takes the statement that counts the
rows of the filter, and the same reply gives the same number. -/
theorem projections_alike (p : Prepared) {target₀ : Target}
    (compiled : ∃ handed, (p.compile target₀).1 = .ok handed) :
    (∀ target, ∃ condition tail,
      (p.filter.root.children = [] ∧ condition = "" ∨ p.filter.root.children ≠ [] ∧
        condition = " WHERE " ++ Piece.textOf p.filter.root.pieces) ∧
      ∀ projection, ∃ handed,
        ((p.filter.withProjection projection).prepare.compile target).1 = .ok handed ∧
        handed.query.values = p.filter.root.values ∧
        handed.query.sql = (p.filter.withProjection projection).headSql target ++ condition ++
          if projection = .countOnly then "" else tail) ∧
    ∀ number size (session : Session σ) (r : ResultSet α) later,
      finder.findPage p.filter number size session = (.ok r, later) →
      ∃ statement, ∀ s s' : Session σ,
        (r.total? s).2.statements = s.statements ++ [statement] ∧
        (finder.count p.filter s').2.statements = s'.statements ++ [statement] ∧
        ((Store.execute s.store statement).1 = (Store.execute s'.store statement).1 →
          (r.total? s).1 = (finder.count p.filter s').1.map some) := by
  obtain ⟨⟨limit, offset⟩, window⟩ :=
    Modifiers.exists_window.mpr (Prepared.exists_compile_eq_ok.mp compiled)
  refine ⟨fun target => ⟨p.filter.conditionSql,
    (p.filter.withProjection .full).tailSql limit offset, ?_,
    fun projection => p.filter.exists_compile_withProjection window projection target⟩,
    fun number size session r later found => ?_⟩
  · by_cases h : p.filter.root.children = []
    · exact .inl ⟨h, Filter.conditionSql_of_nil h⟩
    · exact .inr ⟨h, Filter.conditionSql_of_ne_nil h⟩
  · have own : (p.filter.withProjection .countOnly).modifiers.window = _ := window
    obtain ⟨q, made⟩ : ∃ q, (p.filter.withProjection .countOnly).query finder.target = .ok q :=
      ⟨_, Filter.query_of_window own finder.target⟩
    have total := finder.total?_of_findPage window found
    refine ⟨⟨q.sql, q.values⟩, fun s s' => ⟨?_, finder.statements_count made s', fun reply => ?_⟩⟩
    · rw [total, Work.map_apply]
      exact finder.statements_count made s
    · rw [total, Work.map_apply, finder.answer_count made reply]

/-- A filter with a limit of its own, prepared for some table, and its second page at another. -/
theorem projections_alike_sample :
    let users := Finder.new "users" (Entity.ofRow "user" []) {}
    let f : Filter :=
      { root := ⟨.and, [.comparison "age" .gt (.int 18)]⟩
        modifiers := { order := [⟨"age", .desc⟩], limit := some (.text "7") } }
    let p := (f.prepare.compile ⟨"people", "name"⟩).2
    let s : Session Script := ⟨⟨[.ok [Row.ofCells [("id", .int 11)]]]⟩, [], {}⟩
    (∃ handed, (p.compile ⟨"people", "name"⟩).1 = .ok handed) ∧
    ∃ r later statement, users.findPage p.filter 2 none s = (.ok r, later) ∧
      (r.total? later).2.statements = later.statements ++ [statement] ∧
      (users.count p.filter s).2.statements = [statement] := by
  intro users f p s
  have compiled : ∃ handed, (p.compile ⟨"people", "name"⟩).1 = .ok handed := ⟨_, rfl⟩
  have answered : (users.findPage p.filter 2 none s).1.isOk := by decide +kernel
  refine ⟨compiled, ?_⟩
  cases found : users.findPage p.filter 2 none s with
  | mk outcome later =>
    rw [found] at answered
    cases outcome with
    | error e => cases answered
    | ok r =>
      obtain ⟨statement, same⟩ := (projections_alike users p compiled).2 2 none s r later found
      obtain ⟨total, count, -⟩ := same later s
      exact ⟨r, later, statement, rfl, total, count⟩

end Finder

end FilterQuery
