import FilterQuery.Proofs.Leaf
import FilterQuery.Proofs.Phrase

/-!
# What a filter means

The truth of a clause tree is computed from the truth of its leaves: a group is the Kleene
conjunction or disjunction of its children, no value is in an empty list, and every value is
outside it. Main statement: the condition of a query, read as a text with the query's values for
its placeholders, has the truth of the tree.

The induction goes over the tree. A clause says its truth as one operand, the children of a group
say theirs as a row, and parentheses make a row into an operand again.
-/

namespace FilterQuery

namespace Clause

mutual

def truth (v : Valuation) : Clause → Truth
  | .comparison field comparator value =>
    v.truth (field ++ " " ++ comparator.sql ++ " ?") [value]
  | .membership field negate values =>
    if values.isEmpty then if negate then .yes else .no
    else v.truth (membershipSql field negate values.length) values
  | .nullCheck field isNull => v.truth (field ++ " IS " ++ negation (!isNull) ++ "NULL") []
  | .pattern field negate value => v.truth (field ++ " " ++ negation negate ++ "LIKE ?") [value]
  | .raw expression => v.truth expression.sql expression.values
  | .group combinator children => truthOfEach v combinator children

def truthOfEach (v : Valuation) (k : Combinator) : List Clause → Truth
  | [] => k.neutral
  | clause :: rest => k.connect (clause.truth v) (truthOfEach v k rest)

end

/-- Names and fragments are phrases. -/
def Worded : Clause → Prop
  | .comparison field _ _ | .membership field _ _ | .nullCheck field _ | .pattern field _ _ =>
    IsPhrase field
  | .raw expression => IsPhrase expression.sql
  | .group _ _ => True

end Clause

def Group.truth (v : Valuation) (g : Group) : Truth :=
  Clause.truthOfEach v g.combinator g.children

/-- A text that is one operand of a connective, and says `t` with these values. -/
def SaysAlone (text : String) (values : List Value) (t : Valuation → Truth) : Prop :=
  ∃ parts p, Spells text.toList parts ∧
    (∀ k : Combinator, ∀ part ∈ parts, part.isKeyword k = false) ∧
    Predicate.operand? parts = some p ∧
    ∀ v rest, p.truth? v (values ++ rest) = some (t v, rest)

/-- A text that is a row of operands with one connective between them, and says `t`. -/
def SaysInRow (k : Combinator) (text : String) (values : List Value) (t : Valuation → Truth) :
    Prop :=
  ∃ parts p, Spells text.toList parts ∧
    (∀ other ≠ k, ∀ part ∈ parts, part.isKeyword other = false) ∧
    Predicate.level? k (Predicate.ofRow? k) parts = some p ∧
    ∀ v rest, p.truth? v (values ++ rest) = some (t v, rest)

variable {k : Combinator}

theorem truth?_test {text : String} {values : List Value}
    (h : text.toList.count '?' = values.length) (v : Valuation) (rest : List Value) :
    (Predicate.test text).truth? v (values ++ rest) = some (v.truth text values, rest) := by
  simp [Predicate.truth?, h]

/-- A phrase with a placeholder for each value is a test. -/
theorem SaysAlone.phrase {text : String} {values : List Value} (hp : IsPhrase text)
    (hc : text.toList.count '?' = values.length) :
    SaysAlone text values (·.truth text values) := by
  obtain ⟨words, hw, all, hs⟩ := hp.spells
  refine ⟨words.map .word, .test text, hs, ?_, ?_, truth?_test hc⟩
  · intro k part hm
    obtain ⟨word, hword, rfl⟩ := List.mem_map.mp hm
    exact (all word hword).not_keyword k
  · cases words with
    | nil => exact absurd rfl hw
    | cons word words =>
      have ht : String.ofList (Part.textOf ((word :: words).map .word)) = text := by
        rw [hs.text, String.ofList_toList]
      simpa [Predicate.operand?] using ht

/-- A list in parentheses behind a phrase belongs to the test, since words stand before it. -/
theorem SaysAlone.list {front inner : String} {values : List Value} (hf : IsPhrase front)
    (hi : IsPhrase inner)
    (hc : (front ++ " (" ++ inner ++ ")").toList.count '?' = values.length) :
    SaysAlone (front ++ " (" ++ inner ++ ")") values
      (·.truth (front ++ " (" ++ inner ++ ")") values) := by
  obtain ⟨words, hw, all, hs⟩ := hf.spells
  obtain ⟨inside, -, -, hs'⟩ := hi.spells
  have spelled := hs.append hs'.enclose
  have he : front.toList ++ ' ' :: ('(' :: inner.toList ++ [')']) =
      (front ++ " (" ++ inner ++ ")").toList := by simp
  rw [he] at spelled
  refine ⟨_, .test (front ++ " (" ++ inner ++ ")"), spelled, ?_, ?_, truth?_test hc⟩
  · intro k part hm
    rcases List.mem_append.mp hm with hm | hm
    · obtain ⟨word, hword, rfl⟩ := List.mem_map.mp hm
      exact (all word hword).not_keyword k
    · rw [List.mem_singleton.mp hm]
      rfl
  · cases words with
    | nil => exact absurd rfl hw
    | cons word words =>
      have ht := congrArg String.ofList spelled.text
      rw [String.ofList_toList] at ht
      simpa [Predicate.operand?] using ht

theorem SaysAlone.inRow {text : String} {values : List Value} {t : Valuation → Truth}
    (h : SaysAlone text values t) : SaysInRow k text values t := by
  obtain ⟨parts, p, hs, free, hp, ht⟩ := h
  refine ⟨parts, p, hs, fun other _ => free other, ?_, ht⟩
  rw [Predicate.level?_of_free _ (free k), Predicate.ofRow?_of_free k free, hp]

/-- One operand more in front of a row. -/
theorem SaysAlone.cons {text text' : String} {values values' : List Value}
    {t t' : Valuation → Truth} (h : SaysAlone text values t) (h' : SaysInRow k text' values' t') :
    SaysInRow k (text ++ k.joiner ++ text') (values ++ values')
      (fun v => k.connect (t v) (t' v)) := by
  obtain ⟨front, p, hs, free, hp, ht⟩ := h
  obtain ⟨back, q, hs', free', hq, ht'⟩ := h'
  have word : Spells k.keyword [.word k.keyword] := by
    refine ⟨by simp, by simp [Part.text], [.item (.word k.keyword)], ?_, .item _⟩
    cases k <;> rfl
  have isSep : (Part.word k.keyword).isKeyword k := by cases k <;> rfl
  refine ⟨front ++ .word k.keyword :: back, .join k p q, ?_, ?_, ?_, ?_⟩
  · have joined := hs.append (word.append hs')
    have he : (text ++ k.joiner ++ text').toList =
        text.toList ++ ' ' :: (k.keyword ++ ' ' :: text'.toList) := by
      cases k <;> simp [Combinator.joiner, Combinator.keyword]
    simpa [he] using joined
  · intro other ho part hm
    rcases List.mem_append.mp hm with hm | hm
    · exact free other part hm
    · rcases List.mem_cons.mp hm with rfl | hm
      · revert ho
        cases k <;> cases other <;> decide
      · exact free' other ho part hm
  · have hf : Predicate.ofRow? k front = some p := by rw [Predicate.ofRow?_of_free k free, hp]
    exact Predicate.level?_join _ isSep (free k) hf hq
  · intro v rest
    simp [Predicate.truth?, ht, ht']

/-- A row is read as a condition of its own, whichever its connective. -/
theorem SaysInRow.ofParts? {text : String} {values : List Value} {t : Valuation → Truth}
    (h : SaysInRow k text values t) :
    ∃ parts p, Spells text.toList parts ∧ Predicate.ofParts? parts = some p ∧
      ∀ v rest, p.truth? v (values ++ rest) = some (t v, rest) := by
  obtain ⟨parts, p, hs, free, hp, ht⟩ := h
  refine ⟨parts, p, hs, ?_, ht⟩
  cases k with
  | and => rw [← hp]; exact Predicate.level?_of_free _ (free .or (by decide))
  | or => exact hp

theorem SaysInRow.enclose {text : String} {values : List Value} {t : Valuation → Truth}
    (h : SaysInRow k text values t) : SaysAlone ("(" ++ text ++ ")") values t := by
  obtain ⟨parts, p, hs, hp, ht⟩ := h.ofParts?
  refine ⟨[.parenthesis text.toList (Predicate.ofParts? parts)], p, ?_, ?_, ?_, ht⟩
  · simpa using hs.enclose
  · simp [Part.isKeyword]
  · simpa [Predicate.operand?] using hp

theorem saysAlone_always : SaysAlone "1 = 1" [] (fun _ => .yes) := by
  have h : SaysAlone "1 = 1" [] (·.truth "1 = 1" []) :=
    .phrase ⟨[['1'], ['='], ['1']], by decide, by decide, by decide⟩ rfl
  simpa only [Valuation.always] using h

theorem saysAlone_never : SaysAlone "1 = 0" [] (fun _ => .no) := by
  have h : SaysAlone "1 = 0" [] (·.truth "1 = 0" []) :=
    .phrase ⟨[['1'], ['='], ['0']], by decide, by decide, by decide⟩ rfl
  simpa only [Valuation.never] using h

/-- A test of membership is an operand, with a list behind its field or as a constant. -/
theorem saysAlone_membership {field : String} {negate : Bool} {values : List Value}
    (hp : IsPhrase field) (hm : '?' ∉ field.toList) :
    SaysAlone (Clause.membershipSql field negate values.length) values
      (Clause.truth · (.membership field negate values)) := by
  cases values with
  | nil =>
    cases negate with
    | true => exact saysAlone_always
    | false => exact saysAlone_never
  | cons value values =>
    have hf : IsPhrase (field ++ (" " ++ Clause.negation negate ++ "IN")) := by
      cases negate with
      | true => exact hp.extend [['N', 'O', 'T'], ['I', 'N']] (by decide) (by decide)
      | false => exact hp.extend [['I', 'N']] (by decide) (by decide)
    have written : Clause.membershipSql field negate (values.length + 1) =
        field ++ (" " ++ Clause.negation negate ++ "IN") ++ " (" ++
          String.intercalate ", " (List.replicate (values.length + 1) "?") ++ ")" := by
      simp [Clause.membershipSql, ← String.toList_inj]
    have hc := Clause.count_membershipSql hm negate (value :: values).length
    rw [List.length_cons, written] at hc ⊢
    have h : SaysAlone _ (value :: values) _ := .list hf (.placeholders values.length) hc
    simpa [Clause.truth, written] using h

/-- Every leaf is an operand that says what the leaf does. -/
theorem saysAlone_leaf {leaf : Clause} (hl : leaf.isLeaf) (hw : leaf.Worded) (hm : leaf.Marked) :
    SaysAlone leaf.text leaf.values (Clause.truth · leaf) := by
  have hc := hm.count_text hl
  cases leaf with
  | comparison field comparator value =>
    have words : ∀ word ∈ [comparator.sql.toList, ['?']], IsWord word := by
      cases comparator <;> decide
    have h : SaysAlone (field ++ (" " ++ comparator.sql ++ " ?")) [value] _ :=
      .phrase (hw.extend _ words (by simp)) (by simpa [Clause.values] using hc)
    simpa [Clause.truth, Clause.values, String.append_assoc] using h
  | membership field negate values =>
    rw [Clause.text_membership]
    exact saysAlone_membership hw hm
  | nullCheck field isNull =>
    have hp : IsPhrase (field ++ (" IS " ++ Clause.negation (!isNull) ++ "NULL")) := by
      cases isNull with
      | true => exact hw.extend [['I', 'S'], ['N', 'U', 'L', 'L']] (by decide) (by decide)
      | false =>
        exact hw.extend [['I', 'S'], ['N', 'O', 'T'], ['N', 'U', 'L', 'L']] (by decide) (by decide)
    have h : SaysAlone (field ++ (" IS " ++ Clause.negation (!isNull) ++ "NULL")) [] _ :=
      .phrase hp (by simpa [Clause.values] using hc)
    simpa [Clause.truth, Clause.values, String.append_assoc] using h
  | pattern field negate value =>
    have hp : IsPhrase (field ++ (" " ++ Clause.negation negate ++ "LIKE ?")) := by
      cases negate with
      | true =>
        exact hw.extend [['N', 'O', 'T'], ['L', 'I', 'K', 'E'], ['?']] (by decide) (by decide)
      | false => exact hw.extend [['L', 'I', 'K', 'E'], ['?']] (by decide) (by decide)
    have h : SaysAlone (field ++ (" " ++ Clause.negation negate ++ "LIKE ?")) [value] _ :=
      .phrase hp (by simpa [Clause.values] using hc)
    simpa [Clause.truth, Clause.values, String.append_assoc] using h
  | raw expression =>
    have h : SaysAlone expression.sql expression.values _ := .phrase hw hm
    simpa [Clause.truth, Clause.values] using h
  | group k children => simp [Clause.isLeaf] at hl

mutual

/-- Every clause is an operand that says what the tree says. -/
theorem saysAlone_clause (clause : Clause) (h : ∀ leaf ∈ clause.leaves, leaf.Worded ∧ leaf.Marked) :
    SaysAlone clause.text clause.values (Clause.truth · clause) := by
  by_cases hl : clause.isLeaf
  · have own := h clause (by simp [Clause.leaves_of_isLeaf hl])
    exact saysAlone_leaf hl own.1 own.2
  · cases clause with
    | group k children =>
      have row := (saysInRow_clauses k children h).enclose
      simpa [Clause.text, Clause.pieces, Piece.text, Clause.truth, Clause.values,
        String.append_assoc] using row
    | _ => exact absurd rfl hl

/-- Clauses side by side are a row that says what their group says. -/
theorem saysInRow_clauses (k : Combinator) (clauses : List Clause)
    (h : ∀ leaf ∈ Clause.leavesOfAll clauses, leaf.Worded ∧ leaf.Marked) :
    SaysInRow k (Piece.textOf (Piece.joined k (Clause.piecesOfEach clauses)))
      (Clause.valuesOfAll clauses) (Clause.truthOfEach · k clauses) := by
  cases clauses with
  | nil =>
    cases k with
    | and => exact saysAlone_always.inRow
    | or => exact saysAlone_never.inRow
  | cons clause rest =>
    simp only [Clause.leavesOfAll, List.forall_mem_append] at h
    have first := saysAlone_clause clause h.1
    cases rest with
    | nil =>
      have row : SaysInRow k clause.text clause.values (Clause.truth · clause) := first.inRow
      simpa [Clause.text, Clause.piecesOfEach, Piece.joined, Clause.valuesOfAll,
        Clause.truthOfEach] using row
    | cons next rest =>
      have row := first.cons (saysInRow_clauses k (next :: rest) h.2)
      rw [Clause.piecesOfEach, Clause.piecesOfEach, Piece.textOf_joined_cons_cons]
      exact row

end

/-- Read as a text, the condition of a query says what the tree of the filter does, and the query
has the values for it, neither more nor fewer. -/
theorem truth_condition {f : Filter} {target : Target} {q : Query} (made : f.query target = .ok q)
    (inhabited : f.root.children ≠ [])
    (worded : ∀ leaf ∈ f.root.leaves, leaf.Worded ∧ leaf.Marked) :
    (∃ limit offset, f.modifiers.window = .ok (limit, offset) ∧
      q.sql = "SELECT " ++ f.selection target.idColumn ++ " FROM " ++ target.table ++ " WHERE " ++
        Piece.textOf f.root.pieces ++ f.tailSql limit offset) ∧
    ∃ p, Predicate.ofText? (Piece.textOf f.root.pieces) = some p ∧
      ∀ v, p.truth? v q.values = some (f.root.truth v, []) := by
  obtain ⟨limit, offset, hw, rfl⟩ := Filter.query_eq_ok.mp made
  refine ⟨⟨limit, offset, hw, ?_⟩, ?_⟩
  · have hc : Piece.textOf f.conditionPieces = " WHERE " ++ Piece.textOf f.root.pieces := by
      simp [Filter.conditionPieces, inhabited, Piece.text]
    simp only [hc, String.append_assoc]
  · have row := saysInRow_clauses f.root.combinator f.root.children worded
    obtain ⟨parts, p, hs, hp, ht⟩ := row.ofParts?
    refine ⟨p, ?_, fun v => ?_⟩
    · rw [Group.pieces, hs.ofText?, hp]
    · simpa [Group.values, Group.truth] using ht v []

/-- For a filter with a list and a group that are empty, and a fragment with two values. -/
theorem truth_condition_sample :
    ∃ p, Predicate.ofText? (Piece.textOf Filter.sample.root.pieces) = some p ∧
      ∀ v, p.truth? v Query.sample.values = some (Filter.sample.root.truth v, []) := by
  have fragment : IsPhrase "score + ? > ?" :=
    ⟨["score".toList, ['+'], ['?'], ['>'], ['?']], by decide, by decide, by decide⟩
  have worded : ∀ leaf ∈ Filter.sample.root.leaves, leaf.Worded := by
    simp only [Filter.sample, Group.leaves, Clause.leavesOfAll, Clause.leaves, List.cons_append,
      List.nil_append, List.append_nil, List.forall_mem_cons]
    exact ⟨.word (by decide), .word (by decide), .word (by decide), fragment, .word (by decide),
      .word (by decide), by simp⟩
  have marked : ∀ leaf ∈ Filter.sample.root.leaves, leaf.Marked := by decide
  exact (truth_condition (Filter.query_sample _ _) (by simp [Filter.sample])
    fun leaf hm => ⟨worded leaf hm, marked leaf hm⟩).2

end FilterQuery
