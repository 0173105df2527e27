import FilterQuery.Query

/-!
# The leaves of a filter

A query is written from the leaves of a clause tree, taken from left to right and depth first: each
is written in one piece, and the values of the query are theirs, one leaf after another. A position
in the list of values is owned by the leaf whose value stands there. A leaf is marked if its text
has a placeholder for each of its values.
-/

namespace FilterQuery

namespace Piece

def isLeaf : Piece → Bool
  | .glue _ => false
  | .leaf _ _ => true

@[simp] theorem isLeaf_glue (text : String) : (glue text).isLeaf = false := rfl
@[simp] theorem isLeaf_leaf (text : String) (values : List Value) :
    (leaf text values).isLeaf = true := rfl

/-- What stands between members is no leaf. -/
theorem filter_isLeaf_joined (k : Combinator) (parts : List (List Piece)) :
    (joined k parts).filter isLeaf = parts.flatMap (·.filter isLeaf) := by
  induction parts with
  | nil => simp [joined]
  | cons part rest ih =>
    cases rest with
    | nil => simp [joined]
    | cons next rest =>
      simp only [joined] at ih
      simp [joined, List.intercalate_cons_cons, ih]

end Piece

namespace Clause

def isLeaf : Clause → Bool
  | .group _ _ => false
  | _ => true

def text (clause : Clause) : String := Piece.textOf clause.pieces

/-- The one piece in which a leaf is written. -/
def piece (leaf : Clause) : Piece := .leaf leaf.text leaf.values

@[simp] theorem text_comparison (field : String) (comparator : Comparator) (value : Value) :
    (comparison field comparator value).text = field ++ " " ++ comparator.sql ++ " ?" := by
  simp [text, pieces, Piece.text]

@[simp] theorem text_membership (field : String) (negate : Bool) (values : List Value) :
    (membership field negate values).text = membershipSql field negate values.length := by
  simp [text, pieces, Piece.text]

@[simp] theorem text_nullCheck (field : String) (isNull : Bool) :
    (nullCheck field isNull).text = field ++ " IS " ++ negation (!isNull) ++ "NULL" := by
  simp [text, pieces, Piece.text]

@[simp] theorem text_pattern (field : String) (negate : Bool) (value : Value) :
    (pattern field negate value).text = field ++ " " ++ negation negate ++ "LIKE ?" := by
  simp [text, pieces, Piece.text]

@[simp] theorem text_raw (expression : Expression) : (raw expression).text = expression.sql := by
  simp [text, pieces, Piece.text]

/-- A leaf is written in one piece. -/
theorem pieces_of_isLeaf {leaf : Clause} (h : leaf.isLeaf) :
    leaf.pieces = [leaf.piece] := by
  cases leaf with
  | group k children => simp [isLeaf] at h
  | _ => simp [piece, text, pieces, Piece.text, values]

mutual

def leaves : Clause → List Clause
  | .group _ children => leavesOfAll children
  | leaf => [leaf]

def leavesOfAll : List Clause → List Clause
  | [] => []
  | clause :: rest => clause.leaves ++ leavesOfAll rest

end

theorem leaves_of_isLeaf {leaf : Clause} (h : leaf.isLeaf) : leaf.leaves = [leaf] := by
  cases leaf with
  | group k children => simp [isLeaf] at h
  | _ => simp [leaves]

mutual

/-- The leaves of a clause are leaves themselves. -/
theorem isLeaf_of_mem_leaves {leaf : Clause} (clause : Clause) (h : leaf ∈ clause.leaves) :
    leaf.isLeaf := by
  cases clause with
  | group k children => exact isLeaf_of_mem_leavesOfAll children h
  | _ =>
    obtain rfl := List.mem_singleton.mp h
    rfl

theorem isLeaf_of_mem_leavesOfAll {leaf : Clause} (clauses : List Clause)
    (h : leaf ∈ leavesOfAll clauses) : leaf.isLeaf := by
  cases clauses with
  | nil => simp [leavesOfAll] at h
  | cons clause rest =>
    rcases List.mem_append.mp h with h | h
    · exact isLeaf_of_mem_leaves clause h
    · exact isLeaf_of_mem_leavesOfAll rest h

end

mutual

/-- Glue aside, a clause is written leaf by leaf. -/
theorem filter_isLeaf_pieces (clause : Clause) :
    clause.pieces.filter Piece.isLeaf = clause.leaves.map piece := by
  by_cases hl : clause.isLeaf
  · simp [pieces_of_isLeaf hl, leaves_of_isLeaf hl, piece, List.filter_cons]
  · cases clause with
    | group k children =>
      simp [pieces, leaves, Piece.filter_isLeaf_joined, filter_isLeaf_piecesOfEach children]
    | _ => exact absurd rfl hl

theorem filter_isLeaf_piecesOfEach (clauses : List Clause) :
    (piecesOfEach clauses).flatMap (·.filter Piece.isLeaf) = (leavesOfAll clauses).map piece := by
  cases clauses with
  | nil => rfl
  | cons clause rest =>
    simp [piecesOfEach, leavesOfAll, filter_isLeaf_pieces clause, filter_isLeaf_piecesOfEach rest]

end

mutual

/-- The values of a clause are those of its leaves, from left to right. -/
theorem flatMap_values_leaves (clause : Clause) : clause.leaves.flatMap values = clause.values := by
  cases clause with
  | group k children => simpa [leaves, values] using flatMap_values_leavesOfAll children
  | _ => simp [leaves]

theorem flatMap_values_leavesOfAll (clauses : List Clause) :
    (leavesOfAll clauses).flatMap values = valuesOfAll clauses := by
  cases clauses with
  | nil => rfl
  | cons clause rest =>
    simp [leavesOfAll, valuesOfAll, flatMap_values_leaves clause, flatMap_values_leavesOfAll rest]

end

/-- Names hold no placeholder, and a fragment holds one for each of its values. -/
def Marked : Clause → Prop
  | .comparison field _ _ | .membership field _ _ | .nullCheck field _ | .pattern field _ _ =>
    '?' ∉ field.toList
  | .raw expression => expression.sql.toList.count '?' = expression.values.length
  | .group _ _ => True

instance : (clause : Clause) → Decidable clause.Marked
  | .comparison field _ _ | .membership field _ _ | .nullCheck field _ | .pattern field _ _ =>
    inferInstanceAs (Decidable ('?' ∉ field.toList))
  | .raw expression =>
    inferInstanceAs (Decidable (expression.sql.toList.count '?' = expression.values.length))
  | .group _ _ => .isTrue trivial

/-- The list of placeholders behind IN. -/
theorem count_placeholders (n : Nat) :
    (List.intercalate [',', ' '] (List.replicate n ['?'])).count '?' = n := by
  induction n with
  | zero => rfl
  | succ n ih =>
    cases n with
    | zero => rfl
    | succ n =>
      rw [List.replicate_succ, List.replicate_succ, List.intercalate_cons_cons,
        ← List.replicate_succ]
      simp [ih]

theorem count_negation (negate : Bool) : (negation negate).toList.count '?' = 0 := by
  cases negate <;> decide

/-- A list of values has a placeholder for each, and an empty one has none. -/
theorem count_membershipSql {field : String} (h : '?' ∉ field.toList) (negate : Bool) (n : Nat) :
    (membershipSql field negate n).toList.count '?' = n := by
  by_cases hn : n = 0
  · subst hn
    cases negate <;> simp [membershipSql]
  · have hf : field.toList.count '?' = 0 := List.count_eq_zero.mpr h
    simp [membershipSql, hn, hf, count_placeholders, count_negation]

/-- A leaf has as many placeholders as values. -/
theorem Marked.count_text {leaf : Clause} (h : leaf.Marked) (hl : leaf.isLeaf) :
    leaf.text.toList.count '?' = leaf.values.length := by
  cases leaf with
  | comparison field comparator value =>
    have hf : field.toList.count '?' = 0 := List.count_eq_zero.mpr h
    have hc : comparator.sql.toList.count '?' = 0 := by cases comparator <;> decide
    simp [values, hf, hc]
  | membership field negate vs => rw [text_membership, count_membershipSql h, values]
  | nullCheck field isNull =>
    have hf : field.toList.count '?' = 0 := List.count_eq_zero.mpr h
    simp [values, hf, count_negation]
  | pattern field negate value =>
    have hf : field.toList.count '?' = 0 := List.count_eq_zero.mpr h
    simp [values, hf, count_negation]
  | raw expression => rw [text_raw, values, h]
  | group k children => simp [isLeaf] at hl

end Clause

namespace Group

/-- The leaves from left to right, depth first. -/
def leaves (g : Group) : List Clause := Clause.leavesOfAll g.children

/-- How many values stand before those of the leaf numbered `i`. -/
def valueStart (g : Group) (i : Nat) : Nat := ((g.leaves.take i).flatMap Clause.values).length

/-- The value at position `n` is one of the leaf numbered `i`. -/
def Owns (g : Group) (i n : Nat) : Prop := g.valueStart i ≤ n ∧ n < g.valueStart (i + 1)

theorem filter_isLeaf_pieces (g : Group) :
    g.pieces.filter Piece.isLeaf = g.leaves.map Clause.piece := by
  rw [pieces, Piece.filter_isLeaf_joined, Clause.filter_isLeaf_piecesOfEach, leaves]

theorem flatMap_values_leaves (g : Group) : g.leaves.flatMap Clause.values = g.values :=
  Clause.flatMap_values_leavesOfAll g.children

variable {g : Group} {i n : Nat} {leaf : Clause}

/-- The values of a leaf follow those of the leaves before it. -/
theorem valueStart_succ (h : g.leaves[i]? = some leaf) :
    g.valueStart (i + 1) = g.valueStart i + leaf.values.length := by
  simp [valueStart, List.take_add_one, h]

/-- Behind the last leaf all values have been taken. -/
theorem valueStart_length : g.valueStart g.leaves.length = g.values.length := by
  rw [valueStart, List.take_length, flatMap_values_leaves]

/-- Only a leaf owns a value. -/
theorem Owns.exists_leaf (h : g.Owns i n) : ∃ leaf, g.leaves[i]? = some leaf := by
  by_cases hi : i < g.leaves.length
  · exact ⟨g.leaves[i], List.getElem?_eq_getElem hi⟩
  · have hle : g.leaves.length ≤ i := Nat.le_of_not_lt hi
    have same : g.valueStart (i + 1) = g.valueStart i := by
      rw [valueStart, valueStart, List.take_of_length_le hle, List.take_of_length_le (by omega)]
    obtain ⟨low, high⟩ := h
    omega

/-- Every value belongs to a leaf. -/
theorem exists_owns (h : n < g.values.length) : ∃ i, g.Owns i n := by
  have reached : ∀ i, n < g.valueStart i → ∃ j, g.Owns j n := by
    intro i
    induction i with
    | zero => intro hn; simp [valueStart] at hn
    | succ i ih =>
      intro hn
      by_cases hi : n < g.valueStart i
      · exact ih hi
      · exact ⟨i, by omega, hn⟩
  exact reached g.leaves.length (by rwa [valueStart_length])

/-- What stands where a leaf is the owner is a value of that leaf. -/
theorem Owns.getElem?_values (h : g.Owns i n) (hl : g.leaves[i]? = some leaf) :
    g.values[n]? = leaf.values[n - g.valueStart i]? := by
  obtain ⟨hi, he⟩ := List.getElem?_eq_some_iff.mp hl
  have cut : g.leaves = g.leaves.take i ++ leaf :: g.leaves.drop (i + 1) := by
    rw [← he, List.getElem_cons_drop, List.take_append_drop]
  have flat : g.values = (g.leaves.take i).flatMap Clause.values ++
      (leaf.values ++ (g.leaves.drop (i + 1)).flatMap Clause.values) := by
    rw [← flatMap_values_leaves, ← List.flatMap_cons, ← List.flatMap_append, ← cut]
  obtain ⟨low, high⟩ := h
  rw [valueStart_succ hl] at high
  have inside : n - g.valueStart i < leaf.values.length := by omega
  rw [flat, List.getElem?_append_right low]
  exact List.getElem?_append_left inside

end Group

/-- A filter with leaves of every kind, an empty group and an empty list. -/
def Filter.sample (age : Value := .int 18) (role : Value := .text "root") : Filter where
  root :=
    { combinator := .or
      children := [
        .comparison "age" .gtEq age,
        .group .and [
          .membership "role" false [role, .text "admin"],
          .membership "team" true [],
          .group .or []],
        .group .and [
          .raw ⟨"score + ? > ?", [.int 1, .int 9]⟩,
          .nullCheck "left_at" true,
          .pattern "name" true (.text "J%")]] }
  modifiers := { order := [{ expression := "age" }], limit := some (.int 10) }

/-- The query of the sample for a table of users. -/
def Query.sample (age : Value := .int 18) (role : Value := .text "root") : Query where
  target := ⟨"users", "id"⟩
  sql := "SELECT * FROM users WHERE age >= ? OR (role IN (?, ?) AND 1 = 1 AND (1 = 0)) OR " ++
    "(score + ? > ? AND left_at IS NULL AND name NOT LIKE ?) ORDER BY age ASC LIMIT 10"
  values := [age, role, .text "admin", .int 1, .int 9, .text "J%"]

theorem Filter.query_sample (age role : Value) :
    (Filter.sample age role).query ⟨"users", "id"⟩ = .ok (Query.sample age role) := by
  have condition : Piece.textOf (Filter.sample age role).conditionPieces =
      " WHERE age >= ? OR (role IN (?, ?) AND 1 = 1 AND (1 = 0)) OR " ++
        "(score + ? > ? AND left_at IS NULL AND name NOT LIKE ?)" := by
    simp [sample, conditionPieces, Group.pieces, Clause.pieces, Clause.piecesOfEach, Piece.joined,
      Piece.text, Clause.membershipSql, Clause.negation, Comparator.sql, Combinator.joiner,
      List.intercalate_cons_cons, String.intercalate_cons_cons, List.replicate_succ]
  have ten : Decimal.text 10 = "10" := by decide
  have tail : (Filter.sample age role).tailSql (some 10) none =
      " ORDER BY age ASC LIMIT 10" := by
    simp [sample, tailSql, groupSql, orderSql, orderSql?, Criterion.sql, Direction.sql, countSql,
      ten]
  refine query_eq_ok.mpr ⟨some 10, none, by rfl, ?_⟩
  rw [condition, tail]
  simp [Query.sample, selection, sample, Group.values, Clause.valuesOfAll, Clause.values]

end FilterQuery
