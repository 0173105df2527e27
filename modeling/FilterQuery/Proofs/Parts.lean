import FilterQuery.Proofs.Leaf
import FilterQuery.Proofs.Window

/-!
# The parts of a query

The text of a query is a head, a condition and a tail. The head says what is selected and from
which table, the condition is that of the tree, and groups, order, limit and offset come in the
tail. Main statements: which filters make queries does not depend on the head, and a query that is
made consists of these parts; the text of a group is that of its clauses with the connective
between them.
-/

namespace FilterQuery

namespace Clause

theorem leavesOfAll_append (front back : List Clause) :
    leavesOfAll (front ++ back) = leavesOfAll front ++ leavesOfAll back := by
  induction front with
  | nil => rfl
  | cons clause rest ih => simp [leavesOfAll, ih]

theorem valuesOfAll_append (front back : List Clause) :
    valuesOfAll (front ++ back) = valuesOfAll front ++ valuesOfAll back := by
  induction front with
  | nil => rfl
  | cons clause rest ih => simp [valuesOfAll, ih]

/-- A group below the root stands in parentheses. -/
theorem text_group (k : Combinator) (children : List Clause) :
    (group k children).text = "(" ++ Piece.textOf (Group.pieces ⟨k, children⟩) ++ ")" := by
  simp [text, pieces, Group.pieces, Piece.text, String.append_assoc]

end Clause

namespace Group

variable {k : Combinator}

@[simp] theorem textOf_pieces_singleton (clause : Clause) :
    Piece.textOf (pieces ⟨k, [clause]⟩) = clause.text := by
  simp [pieces, Clause.piecesOfEach, Piece.joined, Clause.text]

/-- The first member stands before the connective and the others behind it. -/
theorem textOf_pieces_cons (clause : Clause) {rest : List Clause} (h : rest ≠ []) :
    Piece.textOf (pieces ⟨k, clause :: rest⟩) =
      clause.text ++ k.joiner ++ Piece.textOf (pieces ⟨k, rest⟩) := by
  obtain ⟨next, rest, rfl⟩ := List.exists_cons_of_ne_nil h
  exact Piece.textOf_joined_cons_cons k clause.pieces next.pieces (Clause.piecesOfEach rest)

/-- Two stretches of members are connected like two members. -/
theorem textOf_pieces_append {front back : List Clause} (hf : front ≠ []) (hb : back ≠ []) :
    Piece.textOf (pieces ⟨k, front ++ back⟩) =
      Piece.textOf (pieces ⟨k, front⟩) ++ k.joiner ++ Piece.textOf (pieces ⟨k, back⟩) := by
  induction front with
  | nil => exact absurd rfl hf
  | cons clause rest ih =>
    by_cases last : rest = []
    · subst last
      simpa using textOf_pieces_cons clause hb
    · rw [List.cons_append, textOf_pieces_cons clause (by simp [last]), ih last,
        textOf_pieces_cons clause last]
      simp only [String.append_assoc]

end Group

namespace Filter

variable (f : Filter)

/-- What a query selects, and from where. -/
def headSql (target : Target) : String :=
  "SELECT " ++ f.selection target.idColumn ++ " FROM " ++ target.table

/-- The condition of the tree, with what introduces it; a tree without clauses has none. -/
def conditionSql : String :=
  if f.root.children = [] then "" else " WHERE " ++ Piece.textOf f.root.pieces

/-- Without members there is no condition. -/
theorem conditionSql_of_nil {f : Filter} (h : f.root.children = []) : f.conditionSql = "" :=
  if_pos h

theorem conditionSql_of_ne_nil {f : Filter} (h : f.root.children ≠ []) :
    f.conditionSql = " WHERE " ++ Piece.textOf f.root.pieces := if_neg h

theorem textOf_conditionPieces_eq : Piece.textOf f.conditionPieces = f.conditionSql := by
  by_cases h : f.root.children = []
  · simp [conditionPieces, conditionSql, h]
  · simp [conditionPieces, conditionSql, h, Piece.text]

variable {f}

/-- A filter whose limit and offset are counts has a query: its head, its condition and its tail. -/
theorem query_of_window {limit offset : Option UInt64}
    (window : f.modifiers.window = .ok (limit, offset)) (target : Target) :
    f.query target = .ok ⟨target, f.headSql target ++ f.conditionSql ++ f.tailSql limit offset,
      f.root.values⟩ := by
  rw [← textOf_conditionPieces_eq]
  exact query_eq_ok.mpr ⟨limit, offset, window, rfl⟩

/-- Whatever query a filter has, its limit and offset are counts, and the query is made of the three
parts. -/
theorem exists_window_of_query {target : Target} {q : Query} (made : f.query target = .ok q) :
    ∃ limit offset, f.modifiers.window = .ok (limit, offset) ∧
      q = ⟨target, f.headSql target ++ f.conditionSql ++ f.tailSql limit offset,
        f.root.values⟩ := by
  obtain ⟨limit, offset, window, rfl⟩ := query_eq_ok.mp made
  refine ⟨limit, offset, window, ?_⟩
  rw [← textOf_conditionPieces_eq]
  rfl

/-- The text of the query has this condition, between its head and its tail. -/
def Asks (f : Filter) (q : Query) (condition : String) : Prop :=
  ∃ limit offset, f.modifiers.window = .ok (limit, offset) ∧
    q.sql = f.headSql q.target ++ " WHERE " ++ condition ++ f.tailSql limit offset

/-- The query of a filter that filters asks for what its root says. -/
theorem asks_of_query {target : Target} {q : Query} (made : f.query target = .ok q)
    (inhabited : f.root.children ≠ []) : f.Asks q (Piece.textOf f.root.pieces) := by
  obtain ⟨limit, offset, window, rfl⟩ := exists_window_of_query made
  refine ⟨limit, offset, window, ?_⟩
  rw [conditionSql_of_ne_nil inhabited, String.append_assoc, String.append_assoc,
    String.append_assoc, String.append_assoc]

end Filter

end FilterQuery
