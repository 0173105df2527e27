import FilterQuery.Proofs.Leaf

/-!
# Values never reach the text

Erasing the values of a clause tree keeps everything else: the shape of the tree, names and
operators, the texts of fragments, and how many values a list holds that is tested for membership.
How many values a fragment brings along is not kept, since its text does not depend on it.

Main statement: filters that differ only in what is erased make queries with the same text or fail
alike, and their lists of values differ only where the leaves do. The lists are equally long unless
fragments at the same place bring different numbers of values, and then they need not be.
-/

namespace FilterQuery

namespace Clause

mutual

def erased : Clause → Clause
  | .comparison field comparator _ => .comparison field comparator .null
  | .membership field negate values => .membership field negate (values.map fun _ => .null)
  | .nullCheck field isNull => .nullCheck field isNull
  | .pattern field negate _ => .pattern field negate .null
  | .raw expression => .raw { expression with values := [] }
  | .group combinator children => .group combinator (erasedAll children)

def erasedAll : List Clause → List Clause
  | [] => []
  | clause :: rest => clause.erased :: erasedAll rest

end

mutual

/-- The text of a clause does not depend on its values. -/
theorem text_erased (clause : Clause) : clause.erased.text = clause.text := by
  cases clause with
  | group k children =>
    have inner := textOf_joined_erasedAll k children
    simp only [text, erased, pieces, Piece.textOf_cons, Piece.textOf_append, inner]
  | _ => simp [erased]

theorem textOf_joined_erasedAll (k : Combinator) (clauses : List Clause) :
    Piece.textOf (Piece.joined k (piecesOfEach (erasedAll clauses))) =
      Piece.textOf (Piece.joined k (piecesOfEach clauses)) := by
  cases clauses with
  | nil => rfl
  | cons clause rest =>
    have first := text_erased clause
    simp only [text] at first
    cases rest with
    | nil => simpa [erasedAll, piecesOfEach, Piece.joined] using first
    | cons next rest =>
      have later := textOf_joined_erasedAll k (next :: rest)
      simp only [erasedAll, piecesOfEach] at later ⊢
      rw [Piece.textOf_joined_cons_cons, Piece.textOf_joined_cons_cons, first, later]

end

mutual

theorem leaves_erased (clause : Clause) : clause.erased.leaves = clause.leaves.map erased := by
  cases clause with
  | group k children => exact leavesOfAll_erasedAll children
  | _ => simp [leaves, erased]

theorem leavesOfAll_erasedAll (clauses : List Clause) :
    leavesOfAll (erasedAll clauses) = (leavesOfAll clauses).map erased := by
  cases clauses with
  | nil => rfl
  | cons clause rest =>
    simp [erasedAll, leavesOfAll, leaves_erased clause, leavesOfAll_erasedAll rest]

end

/-- Erasing keeps the number of values of every leaf but a fragment. -/
theorem length_values_of_erased_eq {leaf leaf' : Clause} (hl : leaf.isLeaf)
    (he : leaf.erased = leaf'.erased)
    (even : ∀ e e', leaf = .raw e → leaf' = .raw e' → e.values.length = e'.values.length) :
    leaf.values.length = leaf'.values.length := by
  cases leaf with
  | membership field negate vs =>
    cases leaf' with
    | membership field' negate' vs' =>
      simp only [erased, membership.injEq] at he
      simpa [values] using congrArg List.length he.2.2
    | _ => simp [erased] at he
  | raw expression =>
    cases leaf' with
    | raw expression' => exact even expression expression' rfl rfl
    | _ => simp [erased] at he
  | group k children => simp [isLeaf] at hl
  | _ => cases leaf' <;> simp_all [erased, values]

end Clause

namespace Group

def erased (g : Group) : Group := ⟨g.combinator, Clause.erasedAll g.children⟩

theorem leaves_erased (g : Group) : g.erased.leaves = g.leaves.map Clause.erased :=
  Clause.leavesOfAll_erasedAll g.children

/-- Fragments at the same place bring equally many values. -/
def EvenFragments (g h : Group) : Prop :=
  ∀ (i : Nat) (e e' : Expression), g.leaves[i]? = some (Clause.raw e) →
    h.leaves[i]? = some (Clause.raw e') → e.values.length = e'.values.length

variable {g h : Group}

theorem erased_leaf_eq (he : g.erased = h.erased) (i : Nat) :
    g.leaves[i]?.map Clause.erased = h.leaves[i]?.map Clause.erased := by
  rw [← List.getElem?_map, ← List.getElem?_map, ← leaves_erased, ← leaves_erased, he]

/-- A leaf that both trees have at the same place contributes the same values. -/
theorem getElem?_values_of_same_leaf {i n : Nat} {leaf : Clause} (hg : g.leaves[i]? = some leaf)
    (hh : h.leaves[i]? = some leaf) (hn : n < leaf.values.length) :
    g.values[g.valueStart i + n]? = h.values[h.valueStart i + n]? := by
  have og : g.Owns i (g.valueStart i + n) := ⟨by omega, by rw [valueStart_succ hg]; omega⟩
  have oh : h.Owns i (h.valueStart i + n) := ⟨by omega, by rw [valueStart_succ hh]; omega⟩
  rw [og.getElem?_values hg, oh.getElem?_values hh]
  simp

theorem length_leaves_of_erased_eq (he : g.erased = h.erased) :
    g.leaves.length = h.leaves.length := by
  have same := congrArg (List.length ∘ leaves) he
  simpa [leaves_erased] using same

/-- If fragments in the same place have equally many values, every leaf has its values in the same
place. -/
theorem valueStart_eq_of_erased_eq (he : g.erased = h.erased) (even : g.EvenFragments h) (i : Nat) :
    g.valueStart i = h.valueStart i := by
  have counts : g.leaves.map (·.values.length) = h.leaves.map (·.values.length) := by
    apply List.ext_getElem?
    intro j
    have same := erased_leaf_eq he j
    rw [List.getElem?_map, List.getElem?_map]
    cases hg : g.leaves[j]? with
    | none =>
      rw [hg, Option.map_none, eq_comm, Option.map_eq_none_iff] at same
      rw [same]
    | some leaf =>
      rw [hg, Option.map_some, eq_comm, Option.map_eq_some_iff] at same
      obtain ⟨leaf', hh, hs⟩ := same
      have hl := Clause.isLeaf_of_mem_leavesOfAll _ (List.mem_of_getElem? hg)
      have count := Clause.length_values_of_erased_eq hl hs.symm (by
        rintro e e' rfl rfl
        exact even j e e' hg hh)
      rw [hh, Option.map_some, Option.map_some, count]
  rw [valueStart, valueStart, List.length_flatMap, List.length_flatMap, List.map_take,
    List.map_take, counts]

end Group

namespace Filter

/-- The condition of a query does not depend on its values. -/
theorem textOf_conditionPieces {f g : Filter} (h : f.root.erased = g.root.erased) :
    Piece.textOf f.conditionPieces = Piece.textOf g.conditionPieces := by
  obtain ⟨⟨k, children⟩, m⟩ := f
  obtain ⟨⟨k', children'⟩, m'⟩ := g
  simp only [Group.erased, Group.mk.injEq] at h
  obtain ⟨rfl, h⟩ := h
  have inner : Piece.textOf (Piece.joined k (Clause.piecesOfEach children)) =
      Piece.textOf (Piece.joined k (Clause.piecesOfEach children')) := by
    rw [← Clause.textOf_joined_erasedAll, h, Clause.textOf_joined_erasedAll]
  cases children with
  | nil =>
    cases children' with
    | nil => rfl
    | cons clause' rest' => simp [Clause.erasedAll] at h
  | cons clause rest =>
    cases children' with
    | nil => simp [Clause.erasedAll] at h
    | cons clause' rest' => simpa [conditionPieces, Group.pieces] using inner

/-- Filters that differ only in values make queries with the same text or fail alike, and the
values differ only where the leaves do. -/
theorem query_of_erased_eq {f g : Filter} (hm : f.modifiers = g.modifiers)
    (hr : f.root.erased = g.root.erased) (target : Target) :
    (f.query target).map Query.sql = (g.query target).map Query.sql ∧
    ∀ q r, f.query target = .ok q → g.query target = .ok r →
      (∀ i leaf, f.root.leaves[i]? = some leaf → g.root.leaves[i]? = some leaf →
        ∀ n < leaf.values.length,
          q.values[f.root.valueStart i + n]? = r.values[g.root.valueStart i + n]?) ∧
      (f.root.EvenFragments g.root → q.values.length = r.values.length ∧
        ∀ n, q.values[n]? ≠ r.values[n]? →
          ∃ i, f.root.Owns i n ∧ g.root.Owns i n ∧ f.root.leaves[i]? ≠ g.root.leaves[i]?) := by
  refine ⟨?_, ?_⟩
  · cases hw : f.modifiers.window with
    | error e => rw [query_eq_error.mpr hw, query_eq_error.mpr (hm ▸ hw)]
    | ok window =>
      have hf : f.query target = .ok _ := query_eq_ok.mpr ⟨window.1, window.2, hw, rfl⟩
      have hg : g.query target = .ok _ := query_eq_ok.mpr ⟨window.1, window.2, hm ▸ hw, rfl⟩
      have selected : f.selection target.idColumn = g.selection target.idColumn := by
        simp only [selection, hm]
      have tail : f.tailSql window.1 window.2 = g.tailSql window.1 window.2 := by
        simp only [tailSql, groupSql, orderSql, hm]
      rw [hf, hg, selected, tail, textOf_conditionPieces hr]
      rfl
  · intro q r hq hs
    obtain ⟨limit, offset, -, rfl⟩ := query_eq_ok.mp hq
    obtain ⟨limit', offset', -, rfl⟩ := query_eq_ok.mp hs
    refine ⟨fun i leaf hf hg n hn => Group.getElem?_values_of_same_leaf hf hg hn, fun even => ?_⟩
    -- With even fragments the leaves begin at the same positions, so an owner in one owns in both.
    have starts := Group.valueStart_eq_of_erased_eq hr even
    have lengths : f.root.values.length = g.root.values.length := by
      rw [← Group.valueStart_length, ← Group.valueStart_length, starts,
        Group.length_leaves_of_erased_eq hr]
    refine ⟨lengths, fun n different => ?_⟩
    by_cases hn : n < f.root.values.length
    · obtain ⟨i, owns⟩ := Group.exists_owns hn
      have owns' : g.root.Owns i n := by rwa [Group.Owns, ← starts, ← starts]
      refine ⟨i, owns, owns', fun same => different ?_⟩
      obtain ⟨leaf, hl⟩ := owns.exists_leaf
      rw [owns.getElem?_values hl, owns'.getElem?_values (same ▸ hl), starts]
    · have hf : f.root.values[n]? = none := List.getElem?_eq_none (Nat.le_of_not_lt hn)
      have hg : g.root.values[n]? = none := List.getElem?_eq_none (lengths ▸ Nat.le_of_not_lt hn)
      exact absurd (hf.trans hg.symm) different

/-- Two queries that ask for other ages and roles differ in the values of these two leaves. -/
theorem query_of_erased_eq_sample :
    (sample.query ⟨"users", "id"⟩).map Query.sql =
      ((sample (.int 21) .null).query ⟨"users", "id"⟩).map Query.sql ∧
    ∀ n, Query.sample.values[n]? ≠ (Query.sample (.int 21) .null).values[n]? →
      ∃ i, sample.root.Owns i n ∧ (sample (.int 21) .null).root.Owns i n ∧
        sample.root.leaves[i]? ≠ (sample (.int 21) .null).root.leaves[i]? := by
  have erased : sample.root.erased = (sample (.int 21) .null).root.erased := by
    simp [sample, Group.erased, Clause.erasedAll, Clause.erased]
  have even : sample.root.EvenFragments (sample (.int 21) .null).root := by
    intro i e e' h h'
    simp only [sample, Group.leaves, Clause.leavesOfAll, Clause.leaves] at h h'
    obtain _ | _ | _ | _ | _ | _ | i := i <;> simp at h h'
    rw [← h, ← h']
  have both := query_of_erased_eq (by rfl) erased ⟨"users", "id"⟩
  have apart := (both.2 _ _ (query_sample _ _) (query_sample _ _)).2 even
  exact ⟨both.1, apart.2⟩

/-- Two fragments with the same text may bring different numbers of values, and then the lists of
values are not equally long. -/
theorem not_length_eq_of_erased_eq :
    ¬ ∀ (f g : Filter) (target : Target), f.modifiers = g.modifiers →
      f.root.erased = g.root.erased →
      (f.query target).map Query.sql = (g.query target).map Query.sql ∧
      ∀ q r, f.query target = .ok q → g.query target = .ok r →
        q.values.length = r.values.length ∧
        ∀ n, q.values[n]? ≠ r.values[n]? →
          ∃ i, f.root.Owns i n ∧ f.root.leaves[i]? ≠ g.root.leaves[i]? := by
  intro claimed
  have both := claimed { root := ⟨.and, [.raw ⟨"a = b", []⟩]⟩ }
    { root := ⟨.and, [.raw ⟨"a = b", [.int 1]⟩]⟩ } ⟨"t", "id"⟩ rfl rfl
  have lengths := (both.2 _ _ (query_eq_ok.mpr ⟨none, none, rfl, rfl⟩)
    (query_eq_ok.mpr ⟨none, none, rfl, rfl⟩)).1
  exact absurd lengths (by decide)

end Filter

end FilterQuery
