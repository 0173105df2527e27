import FilterQuery.Filter

/-!
# Queries

A query is SQL text with the values for its placeholders. Its condition is put together from
pieces: connecting text, which holds no placeholder, and the text of a leaf beside the values of
that leaf. So the placeholders of the text and the values of the query come in the same order.

An inner group stands in parentheses. One without clauses is written as a condition that is always
true (AND) or never (OR), and so is a test for membership in an empty list. The outermost group
has no parentheses, and without clauses there is no condition at all.
-/

namespace FilterQuery

/-- The table that a query reads and the column that holds the ids of its rows. -/
structure Target where
  table : String
  idColumn : String
  deriving DecidableEq, Repr

structure Query where
  target : Target
  sql : String
  values : List Value
  deriving DecidableEq, Repr

namespace Query

def placeholders (q : Query) : Nat := q.sql.toList.count '?'

def sameContent (p q : Query) : Bool :=
  p.target == q.target && p.sql == q.sql && p.values.length == q.values.length &&
    (p.values.zip q.values).all fun v => v.1.sameContent v.2

end Query

inductive Piece where
  | glue (text : String)
  | leaf (text : String) (values : List Value)
  deriving DecidableEq, Repr

namespace Piece

def text : Piece → String
  | .glue text => text
  | .leaf text _ => text

def values : Piece → List Value
  | .glue _ => []
  | .leaf _ values => values

def textOf (pieces : List Piece) : String := String.join (pieces.map text)

def valuesOf (pieces : List Piece) : List Value := pieces.flatMap values

@[simp] theorem textOf_nil : textOf [] = "" := rfl

@[simp] theorem textOf_cons (p : Piece) (ps : List Piece) :
    textOf (p :: ps) = p.text ++ textOf ps := by
  simp [textOf]

@[simp] theorem textOf_append (ps qs : List Piece) :
    textOf (ps ++ qs) = textOf ps ++ textOf qs := by
  induction ps with
  | nil => simp
  | cons p ps ih => simp [ih, String.append_assoc]

@[simp] theorem valuesOf_nil : valuesOf [] = [] := rfl

@[simp] theorem valuesOf_cons (p : Piece) (ps : List Piece) :
    valuesOf (p :: ps) = p.values ++ valuesOf ps := by
  simp [valuesOf]

@[simp] theorem valuesOf_append (ps qs : List Piece) :
    valuesOf (ps ++ qs) = valuesOf ps ++ valuesOf qs := by simp [valuesOf]

/-- Alternatives or conditions in a row; with none of them, what holds of every row or of none. -/
def joined (combinator : Combinator) : List (List Piece) → List Piece
  | [] => [.glue (match combinator with | .and => "1 = 1" | .or => "1 = 0")]
  | parts => List.intercalate [.glue combinator.joiner] parts

theorem textOf_joined_cons_cons (combinator : Combinator) (part next : List Piece)
    (rest : List (List Piece)) :
    textOf (joined combinator (part :: next :: rest)) =
      textOf part ++ combinator.joiner ++ textOf (joined combinator (next :: rest)) := by
  simp [joined, List.intercalate_cons_cons, text, String.append_assoc]

theorem valuesOf_joined_cons (combinator : Combinator) (part : List Piece)
    (rest : List (List Piece)) :
    valuesOf (joined combinator (part :: rest)) =
      valuesOf part ++ valuesOf (joined combinator rest) := by
  cases rest with
  | nil => simp [joined, values]
  | cons next rest =>
    simp [joined, List.intercalate_cons_cons, values]

end Piece

namespace Clause

def negation (negate : Bool) : String := if negate then "NOT " else ""

def membershipSql (field : String) (negate : Bool) (count : Nat) : String :=
  if count = 0 then if negate then "1 = 1" else "1 = 0"
  else field ++ " " ++ negation negate ++ "IN (" ++
    String.intercalate ", " (List.replicate count "?") ++ ")"

mutual

def pieces : Clause → List Piece
  | .comparison field comparator value => [.leaf (field ++ " " ++ comparator.sql ++ " ?") [value]]
  | .membership field negate values => [.leaf (membershipSql field negate values.length) values]
  | .nullCheck field isNull => [.leaf (field ++ " IS " ++ negation (!isNull) ++ "NULL") []]
  | .pattern field negate value => [.leaf (field ++ " " ++ negation negate ++ "LIKE ?") [value]]
  | .raw expression => [.leaf expression.sql expression.values]
  | .group combinator children =>
    .glue "(" :: (Piece.joined combinator (piecesOfEach children) ++ [.glue ")"])

def piecesOfEach : List Clause → List (List Piece)
  | [] => []
  | clause :: rest => clause.pieces :: piecesOfEach rest

end

mutual

/-- The pieces of a clause hold its values, in their order. -/
theorem valuesOf_pieces (clause : Clause) : Piece.valuesOf clause.pieces = clause.values := by
  cases clause with
  | group combinator children =>
    simpa [pieces, Piece.values, values] using
      (valuesOf_joined_piecesOfEach combinator children)
  | _ => simp [pieces, Piece.values, values]

/-- The values of a joined text are those of the clauses, in order. -/
theorem valuesOf_joined_piecesOfEach (combinator : Combinator) (clauses : List Clause) :
    Piece.valuesOf (Piece.joined combinator (piecesOfEach clauses)) = valuesOfAll clauses := by
  cases clauses with
  | nil => rfl
  | cons clause rest =>
    have later := valuesOf_joined_piecesOfEach combinator rest
    rw [piecesOfEach, Piece.valuesOf_joined_cons, valuesOf_pieces clause, later, valuesOfAll]

end

end Clause

def Group.pieces (g : Group) : List Piece :=
  Piece.joined g.combinator (Clause.piecesOfEach g.children)

theorem Group.valuesOf_pieces (g : Group) : Piece.valuesOf g.pieces = g.values :=
  Clause.valuesOf_joined_piecesOfEach g.combinator g.children

namespace Filter

variable (f : Filter)

def selection (idColumn : String) : String :=
  match f.modifiers.projection, f.modifiers.distinct with
  | .full, false => "*"
  | .full, true => "DISTINCT *"
  | .idOnly, false => idColumn
  | .idOnly, true => "DISTINCT " ++ idColumn
  | .countOnly, false => "COUNT(*)"
  | .countOnly, true => "COUNT(DISTINCT " ++ idColumn ++ ")"

/-- The condition, with what introduces it. -/
def conditionPieces : List Piece :=
  if f.root.children.isEmpty then [] else .glue " WHERE " :: f.root.pieces

def groupSql : String :=
  if f.modifiers.groupBy.isEmpty then ""
  else " GROUP BY " ++ String.intercalate ", " f.modifiers.groupBy

def orderSql : String :=
  match orderSql? f.modifiers.order with
  | none => ""
  | some sql => " ORDER BY " ++ sql

def countSql (word : String) : Option UInt64 → String
  | none => ""
  | some n => word ++ Decimal.text n.toNat

/-- What follows the condition. A query that only counts is not grouped, ordered or limited. -/
def tailSql (limit offset : Option UInt64) : String :=
  if f.modifiers.projection = .countOnly then ""
  else f.groupSql ++ f.orderSql ++ countSql " LIMIT " limit ++ countSql " OFFSET " offset

def query (target : Target) : Except CompileError Query := do
  let (limit, offset) ← f.modifiers.window
  return {
    target
    sql := "SELECT " ++ f.selection target.idColumn ++ " FROM " ++ target.table ++
      Piece.textOf f.conditionPieces ++ f.tailSql limit offset
    values := Piece.valuesOf f.conditionPieces }

theorem valuesOf_conditionPieces : Piece.valuesOf f.conditionPieces = f.root.values := by
  unfold conditionPieces
  by_cases h : f.root.children = []
  · simp [h, Piece.valuesOf, Group.values, Clause.valuesOfAll]
  · simpa [h, Piece.values] using f.root.valuesOf_pieces

variable {f}

/-- A query is made exactly if limit and offset are counts, and then it is this one. -/
theorem query_eq_ok {target : Target} {q : Query} :
    f.query target = .ok q ↔ ∃ limit offset, f.modifiers.window = .ok (limit, offset) ∧
      q = ⟨target, "SELECT " ++ f.selection target.idColumn ++ " FROM " ++ target.table ++
        Piece.textOf f.conditionPieces ++ f.tailSql limit offset, f.root.values⟩ := by
  rw [← f.valuesOf_conditionPieces, query]
  cases made : f.modifiers.window with
  | error e => simp [bind, Except.bind]
  | ok window =>
    obtain ⟨limit, offset⟩ := window
    simp only [bind, Except.bind, pure, Except.pure, Except.ok.injEq, Prod.mk.injEq]
    constructor
    · intro h
      exact ⟨limit, offset, ⟨rfl, rfl⟩, h.symm⟩
    · rintro ⟨limit', offset', ⟨rfl, rfl⟩, h⟩
      exact h.symm

/-- A query is refused for what its limit and offset are refused for, and for nothing else. -/
theorem query_eq_error {target : Target} {e : CompileError} :
    f.query target = .error e ↔ f.modifiers.window = .error e := by
  unfold query
  cases f.modifiers.window <;> simp [bind, Except.bind, pure, Except.pure]

theorem target_of_query {target : Target} {q : Query} (h : f.query target = .ok q) :
    q.target = target := by
  obtain ⟨limit, offset, -, rfl⟩ := query_eq_ok.mp h
  rfl

end Filter

end FilterQuery
