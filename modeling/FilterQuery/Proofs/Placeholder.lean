import Mathlib.Algebra.Ring.Nat
import Mathlib.Data.List.Basic
import FilterQuery.Proofs.Leaf

/-!
# Placeholders and values

The text of a query and its values come from one walk over the tree. Main statement: the values
are those of the leaves, one leaf after another, and if every leaf is marked and no other text has
a question mark, the placeholders of the query are as many as its values, and the one numbered `n`
stands inside the text of the leaf that owns value `n`.

The argument is about pieces. If each piece has as many placeholders as values, so has the text
before a piece, and a placeholder and the value of its number fall into the same one.
-/

namespace FilterQuery

/-- An occurrence with this number lies in the middle of three stretches. -/
theorem idxsOf_middle {c : Char} {front middle back : List Char} {n : Nat}
    (low : front.count c ≤ n) (high : n < front.count c + middle.count c) :
    ∃ p, ((front ++ middle ++ back).idxsOf c)[n]? = some p ∧
      front.length ≤ p ∧ p < front.length + middle.length := by
  have inside : n - front.count c < (middle.idxsOf c front.length).length := by
    rw [List.length_idxsOf]
    omega
  refine ⟨(middle.idxsOf c front.length)[n - front.count c], ?_, ?_, ?_⟩
  · have hf : (front.idxsOf c).length ≤ n := by rwa [List.length_idxsOf]
    rw [List.append_assoc, List.idxsOf_append, List.getElem?_append_right hf, List.length_idxsOf,
      Nat.zero_add, List.idxsOf_append, List.getElem?_append_left inside]
    exact List.getElem?_eq_getElem inside
  · exact List.ge_of_mem_idxsOf _ (List.getElem_mem inside)
  · have h := List.lt_add_of_mem_idxsOf _ (List.getElem_mem inside)
    omega

namespace Piece

/-- A piece with a placeholder for each of its values. -/
def Marked (piece : Piece) : Prop := piece.text.toList.count '?' = piece.values.length

theorem count_textOf {pieces : List Piece} (h : ∀ piece ∈ pieces, piece.Marked) :
    (textOf pieces).toList.count '?' = (valuesOf pieces).length := by
  induction pieces with
  | nil => rfl
  | cons piece pieces ih =>
    simp only [List.mem_cons, forall_eq_or_imp] at h
    have own : piece.text.toList.count '?' = piece.values.length := h.1
    simp [own, ih h.2]

/-- The pieces in front of the leaf numbered `i`. -/
def beforeLeaf : Nat → List Piece → List Piece
  | _, [] => []
  | i, .glue text :: rest => .glue text :: beforeLeaf i rest
  | 0, .leaf _ _ :: _ => []
  | i + 1, .leaf text values :: rest => .leaf text values :: beforeLeaf i rest

/-- A row of pieces falls apart at each of its leaves. -/
theorem eq_beforeLeaf_append {pieces : List Piece} {i : Nat} {piece : Piece}
    (h : (pieces.filter isLeaf)[i]? = some piece) :
    ∃ after, pieces = beforeLeaf i pieces ++ piece :: after := by
  induction pieces generalizing i with
  | nil => simp at h
  | cons first pieces ih =>
    cases first with
    | glue text =>
      obtain ⟨after, he⟩ := ih (i := i) (by simpa using h)
      exact ⟨after, by rw [beforeLeaf, List.cons_append, ← he]⟩
    | leaf text values =>
      cases i with
      | zero =>
        have same : Piece.leaf text values = piece := by simpa [List.filter_cons] using h
        exact ⟨pieces, by rw [beforeLeaf, same]; rfl⟩
      | succ i =>
        obtain ⟨after, he⟩ := ih (i := i) (by simpa [List.filter_cons] using h)
        exact ⟨after, by rw [beforeLeaf, List.cons_append, ← he]⟩

theorem mem_of_mem_beforeLeaf {i : Nat} {pieces : List Piece} {piece : Piece}
    (h : piece ∈ beforeLeaf i pieces) : piece ∈ pieces := by
  induction pieces generalizing i with
  | nil => cases i <;> simp [beforeLeaf] at h
  | cons first pieces ih =>
    cases first with
    | glue text =>
      rcases List.mem_cons.mp h with rfl | h
      · exact List.mem_cons_self
      · exact List.mem_cons_of_mem _ (ih h)
    | leaf text values =>
      cases i with
      | zero => simp [beforeLeaf] at h
      | succ i =>
        rcases List.mem_cons.mp h with rfl | h
        · exact List.mem_cons_self
        · exact List.mem_cons_of_mem _ (ih h)

/-- The values before a leaf are those of the leaves before it. -/
theorem valuesOf_beforeLeaf (i : Nat) (pieces : List Piece) :
    valuesOf (beforeLeaf i pieces) = valuesOf ((pieces.filter isLeaf).take i) := by
  induction pieces generalizing i with
  | nil => cases i <;> rfl
  | cons first pieces ih =>
    cases first with
    | glue text =>
      simp [beforeLeaf, values, ih i]
    | leaf text values =>
      cases i with
      | zero => rfl
      | succ i =>
        simp [beforeLeaf, List.filter_cons, ih i]

theorem mem_joined {k : Combinator} {parts : List (List Piece)} {piece : Piece}
    (h : piece ∈ joined k parts) :
    (∃ text : String, piece = .glue text ∧ '?' ∉ text.toList) ∨ ∃ part ∈ parts, piece ∈ part := by
  induction parts with
  | nil =>
    rw [List.mem_singleton.mp h]
    refine .inl ⟨_, rfl, ?_⟩
    cases k <;> decide
  | cons part rest ih =>
    cases rest with
    | nil => exact .inr ⟨part, by simp, by simpa [joined] using h⟩
    | cons next rest =>
      simp only [joined, List.intercalate_cons_cons, List.append_assoc] at h ih
      rcases List.mem_append.mp h with h | h
      · exact .inr ⟨part, by simp, h⟩
      · rcases List.mem_cons.mp h with rfl | h
        · refine .inl ⟨_, rfl, ?_⟩
          cases k <;> decide
        · rcases ih h with glue | ⟨other, hm, ho⟩
          · exact .inl glue
          · exact .inr ⟨other, List.mem_cons_of_mem _ hm, ho⟩

theorem marked_glue {text : String} (h : '?' ∉ text.toList) : (Piece.glue text).Marked :=
  List.count_eq_zero.mpr h

end Piece

namespace Clause

mutual

theorem marked_pieces (clause : Clause) (h : ∀ leaf ∈ clause.leaves, leaf.Marked) :
    ∀ piece ∈ clause.pieces, piece.Marked := by
  by_cases hl : clause.isLeaf
  · have own := (h clause (by simp [leaves_of_isLeaf hl])).count_text hl
    rw [pieces_of_isLeaf hl, List.forall_mem_singleton]
    exact own
  · cases clause with
    | group k children =>
      intro piece hm
      simp only [pieces, List.mem_cons, List.mem_append, List.not_mem_nil, or_false] at hm
      rcases hm with rfl | hm | rfl
      · exact Piece.marked_glue (by decide)
      · rcases Piece.mem_joined hm with ⟨text, rfl, ht⟩ | ⟨part, hp, hm⟩
        · exact Piece.marked_glue ht
        · exact marked_piecesOfEach children h part hp piece hm
      · exact Piece.marked_glue (by decide)
    | _ => exact absurd rfl hl

theorem marked_piecesOfEach (clauses : List Clause)
    (h : ∀ leaf ∈ leavesOfAll clauses, leaf.Marked) :
    ∀ part ∈ piecesOfEach clauses, ∀ piece ∈ part, piece.Marked := by
  cases clauses with
  | nil => simp [piecesOfEach]
  | cons clause rest =>
    simp only [leavesOfAll, List.forall_mem_append] at h
    simp only [piecesOfEach, List.mem_cons, forall_eq_or_imp]
    exact ⟨marked_pieces clause h.1, marked_piecesOfEach rest h.2⟩

end

theorem valueCountOfAll_eq (clauses : List Clause) :
    valueCountOfAll clauses = (clauses.map valueCount).sum := by
  induction clauses with
  | nil => rfl
  | cons clause rest ih => simp [valueCountOfAll, ih]

end Clause

/-- What keywords and numbers are written with, and what stands between them. -/
def isKeywordChar (c : Char) : Bool := c.isUpper || c.isDigit || c == ' ' || c == ','

/-- Texts have it together if they have it apart, and keywords always have it. -/
structure Composable (P : String → Prop) : Prop where
  append : ∀ {s t : String}, P s → P t → P (s ++ t)
  keywords : ∀ {s : String}, s.toList.all isKeywordChar → P s

/-- A character that is in no keyword comes into a text with its parts or not at all. -/
theorem composable_not_mem {c : Char} (h : isKeywordChar c = false) :
    Composable fun s => c ∉ s.toList where
  append hs ht := by simp [hs, ht]
  keywords all hm := by simp [List.all_eq_true.mp all c hm] at h

namespace Composable

variable {P : String → Prop}

theorem intercalate (h : Composable P) {sep : String} {parts : List String}
    (hs : sep.toList.all isKeywordChar) (hp : ∀ part ∈ parts, P part) :
    P (String.intercalate sep parts) := by
  induction parts with
  | nil => exact h.keywords (by simp)
  | cons part rest ih =>
    simp only [List.mem_cons, forall_eq_or_imp] at hp
    cases rest with
    | nil => simpa using hp.1
    | cons next rest =>
      rw [String.intercalate_cons_cons]
      exact h.append (h.append hp.1 (h.keywords hs)) (ih hp.2)

theorem countSql (h : Composable P) {word : String} (hw : word.toList.all isKeywordChar)
    (n : Option UInt64) : P (Filter.countSql word n) := by
  cases n with
  | none => exact h.keywords (by simp [Filter.countSql])
  | some n =>
    refine h.append (h.keywords hw) (h.keywords ?_)
    rw [Decimal.toList_text, List.all_eq_true]
    intro c digit
    simp [isKeywordChar, Nat.isDigit_of_mem_toDigits (by decide) (by decide) digit]

/-- In the tail of a query nothing but columns and expressions stands between keywords. -/
theorem tailSql (h : Composable P) {f : Filter} (groupBy : ∀ column ∈ f.modifiers.groupBy, P column)
    (order : ∀ criterion ∈ f.modifiers.order, P criterion.expression)
    (limit offset : Option UInt64) : P (f.tailSql limit offset) := by
  have groups : P f.groupSql := by
    unfold Filter.groupSql
    split
    · exact h.keywords (by simp)
    · exact h.append (h.keywords (by decide)) (h.intercalate (by decide) groupBy)
  have criteria : ∀ sql ∈ f.modifiers.order.map Criterion.sql, P sql := by
    intro sql hm
    obtain ⟨criterion, hc, rfl⟩ := List.mem_map.mp hm
    have direction : criterion.direction.sql.toList.all isKeywordChar := by
      cases criterion.direction <;> decide
    exact h.append (h.append (order criterion hc) (h.keywords (by decide)))
      (h.keywords direction)
  have orders : P f.orderSql := by
    unfold Filter.orderSql orderSql?
    cases he : f.modifiers.order with
    | nil => exact h.keywords (by simp)
    | cons criterion rest =>
      rw [he] at criteria
      exact h.append (h.keywords (by decide)) (h.intercalate (by decide) criteria)
  unfold Filter.tailSql
  split
  · exact h.keywords (by simp)
  · exact h.append (h.append (h.append groups orders) (h.countSql (by decide) limit))
      (h.countSql (by decide) offset)

end Composable

namespace Filter

/-- No text of a query but that of the leaves has a question mark, and the leaves are marked. -/
structure Marked (f : Filter) (target : Target) : Prop where
  leaves : ∀ leaf ∈ f.root.leaves, leaf.Marked
  table : '?' ∉ target.table.toList
  idColumn : '?' ∉ target.idColumn.toList
  groupBy : ∀ column ∈ f.modifiers.groupBy, '?' ∉ column.toList
  order : ∀ criterion ∈ f.modifiers.order, '?' ∉ criterion.expression.toList

/-- The query without its tail. -/
def pieces (f : Filter) (target : Target) : List Piece :=
  .glue ("SELECT " ++ f.selection target.idColumn ++ " FROM " ++ target.table) :: f.conditionPieces

/-- Where the text of the leaf numbered `i` begins in the query. -/
def textStart (f : Filter) (target : Target) (i : Nat) : Nat :=
  (Piece.textOf (Piece.beforeLeaf i (f.pieces target))).length

variable {f : Filter} {target : Target}

/-- The values of a query are those of its condition. -/
theorem valuesOf_pieces : Piece.valuesOf (f.pieces target) = f.root.values := by
  simpa [pieces, Piece.values] using f.valuesOf_conditionPieces

/-- The leaves of a query are those of its condition. -/
theorem filter_isLeaf_pieces :
    (f.pieces target).filter Piece.isLeaf = f.root.leaves.map Clause.piece := by
  by_cases h : f.root.children = []
  · simp [pieces, conditionPieces, h, Group.leaves, Clause.leavesOfAll]
  · simp [pieces, conditionPieces, h, Group.filter_isLeaf_pieces]

theorem Marked.selection (h : f.Marked target) : '?' ∉ (f.selection target.idColumn).toList := by
  have hi := h.idColumn
  unfold Filter.selection
  split <;> simp [hi]

theorem Marked.pieces (h : f.Marked target) : ∀ piece ∈ f.pieces target, piece.Marked := by
  intro piece hm
  rcases List.mem_cons.mp hm with rfl | hm
  · refine Piece.marked_glue ?_
    simp [h.selection, h.table]
  · by_cases hc : f.root.children = []
    · simp [conditionPieces, hc] at hm
    · simp only [conditionPieces, List.isEmpty_iff, hc, if_false] at hm
      rcases List.mem_cons.mp hm with rfl | hm
      · exact Piece.marked_glue (by decide)
      · rcases Piece.mem_joined hm with ⟨text, rfl, ht⟩ | ⟨part, hp, hm⟩
        · exact Piece.marked_glue ht
        · exact Clause.marked_piecesOfEach f.root.children h.leaves part hp piece hm

/-- There is no placeholder behind the condition. -/
theorem Marked.tail (h : f.Marked target) (limit offset : Option UInt64) :
    '?' ∉ (f.tailSql limit offset).toList :=
  (composable_not_mem (by decide)).tailSql h.groupBy h.order limit offset

/-- The text of a query falls apart at each of its leaves. -/
theorem toList_eq_append {i : Nat} {leaf : Clause} (h : f.root.leaves[i]? = some leaf)
    (target : Target) (tail : String) : ∃ back, (Piece.textOf (f.pieces target) ++ tail).toList =
      (Piece.textOf (Piece.beforeLeaf i (f.pieces target))).toList ++ leaf.text.toList ++ back := by
  have hp : ((f.pieces target).filter Piece.isLeaf)[i]? = some leaf.piece := by
    rw [filter_isLeaf_pieces, List.getElem?_map, h]
    rfl
  obtain ⟨after, cut⟩ := Piece.eq_beforeLeaf_append hp
  have whole := congrArg Piece.textOf cut
  rw [Piece.textOf_append, Piece.textOf_cons, ← String.append_assoc] at whole
  refine ⟨(Piece.textOf after ++ tail).toList, ?_⟩
  rw [whole]
  simp only [Clause.piece, Piece.text, String.toList_append, List.append_assoc]

/-- The text of a leaf stands where it begins. -/
theorem isPrefix_drop_textStart {i : Nat} {leaf : Clause} (h : f.root.leaves[i]? = some leaf)
    (tail : String) : leaf.text.toList <+:
      (Piece.textOf (f.pieces target) ++ tail).toList.drop (f.textStart target i) := by
  obtain ⟨back, cut⟩ := toList_eq_append h target tail
  rw [cut, textStart, ← String.length_toList, List.append_assoc, List.drop_left]
  exact List.prefix_append _ _

/-- In front of a leaf there are as many placeholders as values. -/
theorem Marked.count_beforeLeaf (h : f.Marked target) (i : Nat) :
    (Piece.textOf (Piece.beforeLeaf i (f.pieces target))).toList.count '?' =
      f.root.valueStart i := by
  have marked : ∀ piece ∈ Piece.beforeLeaf i (f.pieces target), piece.Marked :=
    fun piece hm => h.pieces piece (Piece.mem_of_mem_beforeLeaf hm)
  have values : Piece.valuesOf ((f.root.leaves.take i).map Clause.piece) =
      (f.root.leaves.take i).flatMap Clause.values := by
    rw [Piece.valuesOf, List.flatMap_map]
    rfl
  rw [Piece.count_textOf marked, Piece.valuesOf_beforeLeaf, filter_isLeaf_pieces, ← List.map_take,
    values, Group.valueStart]

/-- The placeholder with the number of a value stands inside the text of the leaf that owns it. -/
theorem Marked.exists_placeholder {i n : Nat} {leaf : Clause} (h : f.Marked target)
    (owns : f.root.Owns i n) (hl : f.root.leaves[i]? = some leaf) (tail : String) :
    ∃ p, ((Piece.textOf (f.pieces target) ++ tail).toList.idxsOf '?')[n]? = some p ∧
      f.textStart target i ≤ p ∧ p < f.textStart target i + leaf.text.length := by
  have hm : leaf ∈ f.root.leaves := List.mem_of_getElem? hl
  have own := (h.leaves leaf hm).count_text (Clause.isLeaf_of_mem_leavesOfAll _ hm)
  obtain ⟨low, high⟩ := owns
  rw [Group.valueStart_succ hl, ← h.count_beforeLeaf i, ← own] at high
  rw [← h.count_beforeLeaf i] at low
  obtain ⟨back, cut⟩ := toList_eq_append hl target tail
  rw [cut, textStart, ← String.length_toList, ← String.length_toList]
  exact idxsOf_middle low high

/-- The values of a query are those of the leaves in order, and its placeholders stand for them
one by one, each inside the text of the leaf that its value comes from. -/
theorem placeholders_of_values {q : Query} (made : f.query target = .ok q) :
    q.values = f.root.leaves.flatMap Clause.values ∧
    q.values.length = (f.root.children.map Clause.valueCount).sum ∧
    (f.Marked target → q.placeholders = q.values.length ∧
      ∀ n < q.values.length, ∃ i leaf p, f.root.leaves[i]? = some leaf ∧
        f.root.Owns i n ∧ q.values[n]? = leaf.values[n - f.root.valueStart i]? ∧
        leaf.text.toList <+: q.sql.toList.drop (f.textStart target i) ∧
        (q.sql.toList.idxsOf '?')[n]? = some p ∧
        f.textStart target i ≤ p ∧ p < f.textStart target i + leaf.text.length) := by
  obtain ⟨limit, offset, -, rfl⟩ := query_eq_ok.mp made
  refine ⟨f.root.flatMap_values_leaves.symm, ?_, ?_⟩
  · rw [← Clause.valueCountOfAll_eq, ← Clause.length_valuesOfAll, Group.values]
  · intro h
    have written : "SELECT " ++ f.selection target.idColumn ++ " FROM " ++ target.table ++
        Piece.textOf f.conditionPieces ++ f.tailSql limit offset =
          Piece.textOf (f.pieces target) ++ f.tailSql limit offset := by
      simp [pieces, Piece.text]
    rw [written]
    refine ⟨?_, fun n hn => ?_⟩
    · have total : (Piece.textOf (f.pieces target)).toList.count '?' = f.root.values.length := by
        rw [Piece.count_textOf h.pieces, valuesOf_pieces]
      have tail : (f.tailSql limit offset).toList.count '?' = 0 :=
        List.count_eq_zero.mpr (h.tail limit offset)
      rw [Query.placeholders, String.toList_append, List.count_append, total, tail, Nat.add_zero]
    · obtain ⟨i, owns⟩ := Group.exists_owns hn
      obtain ⟨leaf, hl⟩ := owns.exists_leaf
      obtain ⟨p, hp, start, stop⟩ := h.exists_placeholder owns hl (f.tailSql limit offset)
      exact ⟨i, leaf, p, hl, owns, owns.getElem?_values hl, isPrefix_drop_textStart hl _, hp, start,
        stop⟩

/-- Six placeholders, and each of them in the leaf that its value belongs to. -/
theorem placeholders_of_values_sample :
    Query.sample.placeholders = 6 ∧
    ∀ n < 6, ∃ i leaf p, sample.root.leaves[i]? = some leaf ∧
      sample.root.Owns i n ∧
      Query.sample.values[n]? = leaf.values[n - sample.root.valueStart i]? ∧
      leaf.text.toList <+: Query.sample.sql.toList.drop (sample.textStart ⟨"users", "id"⟩ i) ∧
      (Query.sample.sql.toList.idxsOf '?')[n]? = some p ∧
      sample.textStart ⟨"users", "id"⟩ i ≤ p ∧
      p < sample.textStart ⟨"users", "id"⟩ i + leaf.text.length := by
  have marked : sample.Marked ⟨"users", "id"⟩ :=
    { leaves := by decide
      table := by decide
      idColumn := by decide
      groupBy := by decide
      order := by decide }
  exact (placeholders_of_values (query_sample _ _)).2.2 marked

end Filter

end FilterQuery
