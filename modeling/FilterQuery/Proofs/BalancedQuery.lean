import FilterQuery.Proofs.Parenthesis
import FilterQuery.Proofs.Parts

/-!
# The parentheses of a query

Names and fragments come into the text of a query as they stand. Main statement: if the parentheses
in each of them are balanced, so are those of the query; and if there are none in them, a query has
one pair for each inner group, one for each list behind IN, and one more if it counts.

Balanced text is just the text that is read into nests, and so what is known of nests, that they
may follow each other and stand in parentheses, is known of balanced text.
-/

namespace FilterQuery

namespace Nest

variable {cs : List Char} {n n' : Levels Nest}

/-- One character changes the depth by what it opens and closes. -/
theorem depth_take {c : Char} (h : n.take parenthesis (mark c) = some n') :
    n'.outside.length + [c].count ')' = n.outside.length + [c].count '(' := by
  obtain ⟨here, outside⟩ := n
  by_cases opens : c = '('
  · subst opens
    obtain rfl := Option.some.inj h
    simp
  · by_cases closes : c = ')'
    · subst closes
      cases outside with
      | nil => cases h
      | cons outer outside =>
        obtain rfl := Option.some.inj h
        simp [Levels.add]
    · simp only [mark, opens, closes, if_false, Levels.take] at h
      obtain rfl := Option.some.inj h
      simp [opens, closes, Levels.add]

/-- The parentheses that are open after a text are those it has not closed. -/
theorem depth_takeAll (h : n.takeAll parenthesis (cs.map mark) = some n') :
    n'.outside.length + cs.count ')' = n.outside.length + cs.count '(' := by
  induction cs generalizing n with
  | nil =>
    obtain rfl := Option.some.inj h
    rfl
  | cons c cs ih =>
    rw [List.map_cons, Levels.takeAll, List.foldlM_cons] at h
    obtain ⟨next, taken, rest⟩ := Option.bind_eq_some_iff.mp h
    have own := depth_take taken
    have later := ih rest
    rw [← List.singleton_append, List.count_append, List.count_append]
    omega

end Nest

/-- Text that is read into nests is balanced, so that both say the same. -/
theorem Nested.balanced {text : String} {nests : List Nest} (h : Nested text nests) :
    Balanced text where
  opened front before := by
    obtain ⟨back, cut⟩ := before
    have whole := h {}
    rw [← cut, List.map_append, Levels.takeAll, List.foldlM_append] at whole
    obtain ⟨next, taken, -⟩ := Option.bind_eq_some_iff.mp whole
    have depth := Nest.depth_takeAll taken
    simp only [List.length_nil] at depth
    omega
  closed := by
    have depth := Nest.depth_takeAll (h {})
    simp only [Levels.add, List.length_nil] at depth
    omega

/-- Text without parentheses. -/
def Unparenthesized (text : String) : Prop := '(' ∉ text.toList ∧ ')' ∉ text.toList

instance (text : String) : Decidable (Unparenthesized text) :=
  inferInstanceAs (Decidable ('(' ∉ text.toList ∧ ')' ∉ text.toList))

theorem Unparenthesized.balanced {text : String} (h : Unparenthesized text) : Balanced text :=
  (Nested.chars h).balanced

theorem Unparenthesized.count_opening {text : String} (h : Unparenthesized text) :
    text.toList.count '(' = 0 := List.count_eq_zero.mpr h.1

namespace Balanced

theorem append {s t : String} (hs : Balanced s) (ht : Balanced t) : Balanced (s ++ t) := by
  obtain ⟨front, first⟩ := hs.exists_nested
  obtain ⟨back, second⟩ := ht.exists_nested
  exact (first.append second).balanced

theorem parenthesis {s : String} (h : Balanced s) : Balanced ("(" ++ s ++ ")") := by
  obtain ⟨inside, nested⟩ := h.exists_nested
  exact nested.parenthesis.balanced

end Balanced

theorem composable_unparenthesized : Composable Unparenthesized where
  append hs ht := ⟨(composable_not_mem (by decide)).append hs.1 ht.1,
    (composable_not_mem (by decide)).append hs.2 ht.2⟩
  keywords all := ⟨(composable_not_mem (by decide)).keywords all,
    (composable_not_mem (by decide)).keywords all⟩

theorem composable_balanced : Composable Balanced where
  append := Balanced.append
  keywords all := (composable_unparenthesized.keywords all).balanced

/-! ### What is brought into a query -/

/-- The name or the fragment that a leaf is written with. -/
def Clause.source : Clause → String
  | .comparison field _ _ | .membership field _ _ | .nullCheck field _ | .pattern field _ _ => field
  | .raw expression => expression.sql
  | .group _ _ => ""

/-- All text that comes into a query as it stands has the property. -/
structure Filter.Brings (P : String → Prop) (f : Filter) (target : Target) : Prop where
  leaves : ∀ leaf ∈ f.root.leaves, P leaf.source
  table : P target.table
  idColumn : P target.idColumn
  groupBy : ∀ column ∈ f.modifiers.groupBy, P column
  order : ∀ criterion ∈ f.modifiers.order, P criterion.expression

namespace Clause

theorem balanced_of_source {leaf : Clause} (h : FilterQuery.Balanced leaf.source) :
    leaf.Balanced := by
  cases leaf with
  | group k children => trivial
  | _ => exact h

/-- A list of values behind IN, which is written in parentheses unless it is empty. -/
def listsValues : Clause → Bool
  | .membership _ _ values => !values.isEmpty
  | _ => false

theorem count_opening_negation (negate : Bool) : (negation negate).toList.count '(' = 0 := by
  cases negate <;> decide

/-- Of all the words of a leaf only a list of values is in parentheses. -/
theorem count_opening_membershipSql {field : String} (h : Unparenthesized field) (negate : Bool)
    (n : Nat) : (membershipSql field negate n).toList.count '(' = if n = 0 then 0 else 1 := by
  unfold membershipSql
  split
  · cases negate <;> decide
  · have marks := List.count_eq_zero.mpr (not_mem_placeholders (c := '(') (by decide) (by decide) n)
    have word : "IN (".toList.count '(' = 1 := by decide
    have space : " ".toList.count '(' = 0 := by decide
    have closing : ")".toList.count '(' = 0 := by decide
    simp only [String.toList_append, List.count_append, h.count_opening, count_opening_negation,
      marks, word, space, closing]

theorem count_opening_of_isLeaf {leaf : Clause} (h : Unparenthesized leaf.source)
    (hl : leaf.isLeaf) :
    leaf.text.toList.count '(' = if leaf.listsValues then 1 else 0 := by
  have source := h.count_opening
  cases leaf with
  | comparison field comparator value =>
    have sign : comparator.sql.toList.count '(' = 0 := by cases comparator <;> decide
    rw [Clause.source] at source
    simp [listsValues, source, sign]
  | membership field negate values =>
    have own : Unparenthesized field := h
    rw [text_membership, count_opening_membershipSql own]
    cases values <;> rfl
  | nullCheck field isNull =>
    rw [Clause.source] at source
    simp [listsValues, source, count_opening_negation]
  | pattern field negate value =>
    rw [Clause.source] at source
    simp [listsValues, source, count_opening_negation]
  | raw expression =>
    rw [text_raw]
    exact source
  | group k children => simp [isLeaf] at hl

mutual

/-- A clause opens a parenthesis for each group and for each list in it. -/
theorem count_opening_text (clause : Clause)
    (h : ∀ leaf ∈ clause.leaves, Unparenthesized leaf.source) :
    clause.text.toList.count '(' = clause.groupCount + clause.leaves.countP listsValues := by
  by_cases hl : clause.isLeaf
  · have own := h clause (by simp [leaves_of_isLeaf hl])
    have single : clause.groupCount = 0 := by
      cases clause with
      | group k children => simp [isLeaf] at hl
      | _ => rfl
    rw [count_opening_of_isLeaf own hl, leaves_of_isLeaf hl, single, List.countP_singleton,
      Nat.zero_add]
  · cases clause with
    | group k children =>
      have inside := count_opening_joined k children h
      rw [text_group, groupCount, leaves, String.toList_append, String.toList_append,
        List.count_append, List.count_append, inside]
      simp
      omega
    | _ => exact absurd rfl hl

/-- Members side by side open a parenthesis for each group and each list among them. -/
theorem count_opening_joined (k : Combinator) (clauses : List Clause)
    (h : ∀ leaf ∈ leavesOfAll clauses, Unparenthesized leaf.source) :
    (Piece.textOf (Group.pieces ⟨k, clauses⟩)).toList.count '(' =
      groupCountOfAll clauses + (leavesOfAll clauses).countP listsValues := by
  cases clauses with
  | nil => cases k <;> decide
  | cons clause rest =>
    simp only [leavesOfAll, List.forall_mem_append] at h
    have own := count_opening_text clause h.1
    have later := count_opening_joined k rest h.2
    have joiner : k.joiner.toList.count '(' = 0 := by cases k <;> decide
    rw [groupCountOfAll, leavesOfAll, List.countP_append]
    by_cases last : rest = []
    · subst last
      simpa [groupCountOfAll, leavesOfAll] using own
    · rw [Group.textOf_pieces_cons clause last, String.toList_append, String.toList_append,
        List.count_append, List.count_append, own, joiner, later]
      omega

end

end Clause

namespace Filter

variable {f : Filter} {target : Target}

theorem Brings.balanced_head (h : f.Brings Balanced target) : Balanced (f.headSql target) := by
  have selection : Balanced (f.selection target.idColumn) := by
    unfold selection
    split
    · exact Unparenthesized.balanced (by decide)
    · exact Unparenthesized.balanced (by decide)
    · exact h.idColumn
    · exact composable_balanced.append (composable_balanced.keywords (by decide)) h.idColumn
    · decide
    · have column := (composable_balanced.append
        (composable_balanced.keywords (s := "DISTINCT ") (by decide)) h.idColumn).parenthesis
      have written : "COUNT(DISTINCT " ++ target.idColumn ++ ")" =
          "COUNT" ++ ("(" ++ ("DISTINCT " ++ target.idColumn) ++ ")") := by
        simp [← String.toList_inj]
      rw [written]
      exact composable_balanced.append (composable_balanced.keywords (by decide)) column
  exact (((composable_balanced.keywords (by decide)).append selection).append
    (composable_balanced.keywords (by decide))).append h.table

/-- The condition of a query is balanced if its names and fragments are. -/
theorem Brings.balanced_condition (h : f.Brings Balanced target) : Balanced f.conditionSql := by
  unfold conditionSql
  split
  · exact composable_balanced.keywords (by decide)
  · obtain ⟨nests, nested⟩ := Clause.exists_nested_joined f.root.combinator f.root.children
      fun leaf hm => Clause.balanced_of_source (h.leaves leaf hm)
    exact composable_balanced.append (composable_balanced.keywords (by decide)) nested.balanced

/-- Only a count opens a parenthesis before the condition. -/
theorem Brings.count_opening_head (h : f.Brings Unparenthesized target) :
    (f.headSql target).toList.count '(' =
      if f.modifiers.projection = .countOnly then 1 else 0 := by
  have column := h.idColumn.count_opening
  have table := h.table.count_opening
  have selection : (f.selection target.idColumn).toList.count '(' =
      if f.modifiers.projection = .countOnly then 1 else 0 := by
    unfold selection
    split <;> simp [*]
  simp [headSql, selection, table]

/-- The condition opens a parenthesis for each group below the root and each list. -/
theorem Brings.count_opening_condition (h : f.Brings Unparenthesized target) :
    f.conditionSql.toList.count '(' =
      f.root.nestedGroups + f.root.leaves.countP Clause.listsValues := by
  by_cases empty : f.root.children = []
  · rw [conditionSql_of_nil empty, Group.nestedGroups, Group.leaves, empty]
    rfl
  · have counted := Clause.count_opening_joined f.root.combinator f.root.children h.leaves
    rw [conditionSql_of_ne_nil empty, String.toList_append, List.count_append, counted]
    simp [Group.nestedGroups, Group.leaves]

/-- Parentheses are balanced in a query if they are in everything it is written with. If there are
none in that, the query opens one for each inner group, for each list of values that is not empty,
and for a count. -/
theorem parentheses_of_query {q : Query} (made : f.query target = .ok q) :
    (f.Brings Balanced target → Balanced q.sql) ∧
    (f.Brings Unparenthesized target → q.sql.toList.count '(' =
      f.root.nestedGroups + f.root.leaves.countP Clause.listsValues +
        if f.modifiers.projection = .countOnly then 1 else 0) := by
  obtain ⟨limit, offset, -, rfl⟩ := exists_window_of_query made
  constructor
  · intro h
    have tail := composable_balanced.tailSql h.groupBy h.order limit offset
    exact (h.balanced_head.append h.balanced_condition).append tail
  · intro h
    have tail := composable_unparenthesized.tailSql h.groupBy h.order limit offset
    rw [String.toList_append, String.toList_append, List.count_append, List.count_append,
      h.count_opening_head, h.count_opening_condition, tail.count_opening]
    omega

/-- A count over a fragment that calls a function, and over one that does not: two inner groups, of
which one is empty, and a list of values beside an empty one. -/
theorem parentheses_of_query_sample :
    let f (fragment : String) : Filter :=
      { root := ⟨.and, [.raw ⟨fragment, [.text "x"]⟩,
          .group .or [.membership "role" false [.int 1, .int 2], .membership "team" true [],
            .group .and []]]⟩
        modifiers := { distinct := true, projection := .countOnly, groupBy := ["role"] } }
    (∃ q, (f "lower(name) = ?").query ⟨"users", "id"⟩ = .ok q ∧ Balanced q.sql) ∧
      ∃ q, (f "name = ?").query ⟨"users", "id"⟩ = .ok q ∧ q.sql.toList.count '(' = 4 := by
  intro f
  have balanced : (f "lower(name) = ?").Brings Balanced ⟨"users", "id"⟩ :=
    { leaves := by decide, table := by decide, idColumn := by decide, groupBy := by decide,
      order := by decide }
  have plain : (f "name = ?").Brings Unparenthesized ⟨"users", "id"⟩ :=
    { leaves := by decide, table := by decide, idColumn := by decide, groupBy := by decide,
      order := by decide }
  refine ⟨⟨_, rfl, ?_⟩, ⟨_, rfl, ?_⟩⟩
  · exact (parentheses_of_query rfl).1 balanced
  · exact (parentheses_of_query rfl).2 plain

end Filter

end FilterQuery
