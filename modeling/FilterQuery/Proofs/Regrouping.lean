import FilterQuery.Builder
import FilterQuery.Proofs.Judgement
import FilterQuery.Proofs.Parts

/-!
# Fragments in parentheses

A fragment of SQL is written as it stands, so its own connectives meet those of the group that it
is in. Between ORs that makes no difference, and neither does it where a fragment is alone. Beside
other clauses in an AND group, what stands behind an OR of the fragment is no longer bound to what
stands before it. Main statement: in every other place a fragment may be put in parentheses, and the
condition of the query, read as a text, comes to the same.

The induction follows the fragment from its own group outwards. Within an AND group its alternatives
have to stay the same, within an OR group only what they come to together; around that group stand
parentheses, and there the two agree.
-/

namespace FilterQuery

open SearchCondition (parts? parts?_connect parts?_enclose)

/-- A text that is read, wherever it stands, as these alternatives. -/
def Offers (text : String) (rows : List Judgement) : Prop :=
  ∃ parts, parts? text = some parts ∧ Alternatives parts rows

namespace Offers

variable {s t : String} {rows rows' : List Judgement}

/-- A text that is a condition of its own offers alternatives wherever it stands. -/
theorem exists_of_read? (h : (SearchCondition.read? s).isSome) : ∃ rows, Offers s rows := by
  obtain ⟨p, read⟩ := Option.isSome_iff_exists.mp h
  obtain ⟨parts, cut, ofParts⟩ := Option.bind_eq_some_iff.mp read
  obtain ⟨rows, alternatives, -⟩ := Alternatives.judges_ofParts?.mp ⟨p, ofParts, rfl⟩
  exact ⟨rows, parts, cut, alternatives⟩

/-- By itself a text says that one of its alternatives holds. -/
theorem read? (h : Offers s rows) :
    Predicate.Judges (SearchCondition.read? s) (.ofRow .or rows) := by
  obtain ⟨parts, cut, alternatives⟩ := h
  have judges := Alternatives.judges_ofParts?.mpr ⟨rows, alternatives, rfl⟩
  rwa [SearchCondition.read?, cut]

theorem connect (k : Combinator) (h : Offers s rows) (h' : Offers t rows') :
    Offers (s ++ k.joiner ++ t) (Alternatives.merge k rows rows') := by
  obtain ⟨parts, cut, alternatives⟩ := h
  obtain ⟨parts', cut', alternatives'⟩ := h'
  exact ⟨_, parts?_connect k cut cut', alternatives.connect k alternatives'⟩

theorem enclose (h : Offers s rows) : Offers ("(" ++ s ++ ")") [.ofRow .or rows] := by
  obtain ⟨parts, cut, alternatives⟩ := h
  obtain ⟨text, enclosed⟩ := parts?_enclose cut
  have judges := Alternatives.judges_ofParts?.mpr ⟨rows, alternatives, rfl⟩
  exact ⟨_, enclosed, .parenthesis judges⟩

end Offers

namespace Clause

/-- The text of a leaf is a condition of its own. -/
def Formed (leaf : Clause) : Prop := (SearchCondition.read? leaf.text).isSome

instance (leaf : Clause) : Decidable leaf.Formed :=
  inferInstanceAs (Decidable ((SearchCondition.read? leaf.text).isSome = true))

mutual

/-- A clause offers alternatives if its leaves are conditions of their own. -/
theorem exists_offers (clause : Clause) (h : ∀ leaf ∈ clause.leaves, leaf.Formed) :
    ∃ rows, Offers clause.text rows := by
  by_cases hl : clause.isLeaf
  · exact Offers.exists_of_read? (h clause (by simp [leaves_of_isLeaf hl]))
  · cases clause with
    | group k children =>
      obtain ⟨rows, offers⟩ := exists_offers_row k children h
      exact ⟨_, by simpa [text_group] using offers.enclose⟩
    | _ => exact absurd rfl hl

theorem exists_offers_row (k : Combinator) (clauses : List Clause)
    (h : ∀ leaf ∈ leavesOfAll clauses, leaf.Formed) :
    ∃ rows, Offers (Piece.textOf (Group.pieces ⟨k, clauses⟩)) rows := by
  cases clauses with
  | nil => exact Offers.exists_of_read? (by cases k <;> decide +kernel)
  | cons clause rest =>
    simp only [leavesOfAll, List.forall_mem_append] at h
    obtain ⟨rows, first⟩ := exists_offers clause h.1
    by_cases last : rest = []
    · subst last
      exact ⟨rows, by simpa using first⟩
    · obtain ⟨rows', later⟩ := exists_offers_row k rest h.2
      exact ⟨_, by simpa [Group.textOf_pieces_cons clause last] using first.connect k later⟩

end

end Clause

/-- Alternatives that nothing in a group of this kind tells apart. -/
def Alike : Combinator → List Judgement → List Judgement → Prop
  | .and, rows, rows' => rows = rows'
  | .or, rows, rows' => Judgement.ofRow .or rows = Judgement.ofRow .or rows'

namespace Alike

open Alternatives

variable {k : Combinator} {rows rows' : List Judgement}

/-- Alternatives that nothing tells apart say the same. -/
theorem ofRow_eq (h : Alike k rows rows') :
    Judgement.ofRow .or rows = Judgement.ofRow .or rows' := by
  cases k with
  | and => exact congrArg _ h
  | or => exact h

theorem of_eq (k : Combinator) (h : rows = rows') : Alike k rows rows' := by
  subst h
  cases k <;> rfl

theorem merge_left (front : List Judgement) (h : Alike k rows rows') :
    Alike k (merge k front rows) (merge k front rows') := by
  cases k with
  | and => exact congrArg (merge .and front) h
  | or =>
    have same : Judgement.ofRow .or rows = Judgement.ofRow .or rows' := h
    simp only [Alike, merge, Judgement.ofRow_append, same]

theorem merge_right (back : List Judgement) (h : Alike k rows rows') :
    Alike k (merge k rows back) (merge k rows' back) := by
  cases k with
  | and => exact congrArg (merge .and · back) h
  | or =>
    have same : Judgement.ofRow .or rows = Judgement.ofRow .or rows' := h
    simp only [Alike, merge, Judgement.ofRow_append, same]

end Alike

/-- Two texts that come to the same within a group of this kind. -/
def Interchangeable (k : Combinator) (s t : String) : Prop :=
  ∃ rows rows', Offers s rows ∧ Offers t rows' ∧ Alike k rows rows'

namespace Interchangeable

variable {k : Combinator} {s t : String}

/-- In parentheses, texts that come to the same do so in groups of either kind. -/
theorem enclose (h : Interchangeable .or s t) (k : Combinator) :
    Interchangeable k ("(" ++ s ++ ")") ("(" ++ t ++ ")") := by
  obtain ⟨rows, rows', offers, offers', alike⟩ := h
  exact ⟨_, _, offers.enclose, offers'.enclose, .of_eq k (congrArg ([·]) alike.ofRow_eq)⟩

theorem toOr (h : Interchangeable k s t) : Interchangeable .or s t := by
  obtain ⟨rows, rows', offers, offers', alike⟩ := h
  exact ⟨rows, rows', offers, offers', alike.ofRow_eq⟩

/-- The clauses on either side of the text that changes are read as before. -/
theorem row {clause clause' : Clause} (h : Interchangeable k clause.text clause'.text)
    {before after : List Clause} (hb : ∀ leaf ∈ Clause.leavesOfAll before, leaf.Formed)
    (ha : ∀ leaf ∈ Clause.leavesOfAll after, leaf.Formed) :
    Interchangeable k (Piece.textOf (Group.pieces ⟨k, before ++ clause :: after⟩))
      (Piece.textOf (Group.pieces ⟨k, before ++ clause' :: after⟩)) := by
  induction before with
  | nil =>
    by_cases last : after = []
    · subst last
      simpa using h
    · obtain ⟨rows, rows', offers, offers', alike⟩ := h
      obtain ⟨back, later⟩ := Clause.exists_offers_row k after ha
      refine ⟨_, _, ?_, ?_, alike.merge_right back⟩
      · simpa [Group.textOf_pieces_cons clause last] using offers.connect k later
      · simpa [Group.textOf_pieces_cons clause' last] using offers'.connect k later
  | cons first before ih =>
    simp only [Clause.leavesOfAll, List.forall_mem_append] at hb
    obtain ⟨front, own⟩ := Clause.exists_offers first hb.1
    obtain ⟨rows, rows', offers, offers', alike⟩ := ih hb.2
    refine ⟨_, _, ?_, ?_, alike.merge_left front⟩
    · simpa [Group.textOf_pieces_cons first] using own.connect k offers
    · simpa [Group.textOf_pieces_cons first] using own.connect k offers'

end Interchangeable

namespace Expression

def enclosed (e : Expression) : Expression := { e with sql := "(" ++ e.sql ++ ")" }

/-- A fragment without an OR outside its parentheses, strings and cases. -/
def Undivided (e : Expression) : Prop :=
  ∀ parts ∈ parts? e.sql, ∀ part ∈ parts, part.isKeyword .or = false

instance (e : Expression) : Decidable e.Undivided :=
  inferInstanceAs (Decidable (∀ parts ∈ parts? e.sql, ∀ part ∈ parts, part.isKeyword .or = false))

variable {e : Expression}

/-- Where nothing but OR stands around it, a fragment needs no parentheses. -/
theorem interchangeable_or (formed : (Clause.raw e).Formed) :
    Interchangeable .or e.sql e.enclosed.sql := by
  rw [Clause.Formed, Clause.text_raw] at formed
  obtain ⟨rows, offers⟩ := Offers.exists_of_read? formed
  exact ⟨rows, _, offers, offers.enclose, (Judgement.ofRow_singleton _).symm⟩

/-- Parentheses around an undivided fragment change nothing, in groups of either kind. -/
theorem Undivided.interchangeable (h : e.Undivided) (formed : (Clause.raw e).Formed)
    (k : Combinator) : Interchangeable k e.sql e.enclosed.sql := by
  rw [Clause.Formed, Clause.text_raw] at formed
  obtain ⟨rows, parts, cut, alternatives⟩ := Offers.exists_of_read? formed
  obtain ⟨j, rfl⟩ := alternatives.exists_singleton (h parts cut)
  have offers : Offers e.sql [j] := ⟨parts, cut, alternatives⟩
  exact ⟨_, _, offers, offers.enclose, .of_eq k (by rw [Judgement.ofRow_singleton])⟩

end Expression

/-- A fragment, the kind of its group and the clauses beside it. -/
structure Spot where
  combinator : Combinator
  siblings : List Clause
  fragment : Expression

namespace Spot

/-- The fragment at the spot is in parentheses in the second group, and nothing else differs. -/
inductive Encloses (spot : Spot) : Group → Group → Prop
  | here (before after : List Clause) (beside : spot.siblings = before ++ after) :
    Encloses spot ⟨spot.combinator, before ++ .raw spot.fragment :: after⟩
      ⟨spot.combinator, before ++ .raw spot.fragment.enclosed :: after⟩
  | inside {g g' : Group} (k : Combinator) (before after : List Clause) (h : Encloses spot g g') :
    Encloses spot ⟨k, before ++ .group g.combinator g.children :: after⟩
      ⟨k, before ++ .group g'.combinator g'.children :: after⟩

/-- No OR of the fragment meets an AND of the group. -/
def Safe (spot : Spot) : Prop :=
  spot.combinator = .or ∨ spot.siblings = [] ∨ spot.fragment.Undivided

variable {spot : Spot} {g g' : Group}

mutual

theorem exists_encloses_clause {e : Expression} (clause : Clause) (h : .raw e ∈ clause.leaves)
    (k : Combinator) (before after : List Clause) :
    ∃ spot g', spot.fragment = e ∧ Encloses spot ⟨k, before ++ clause :: after⟩ g' := by
  cases clause with
  | group k' children =>
    obtain ⟨spot, g', own, encloses⟩ := exists_encloses_row children h k' []
    exact ⟨spot, _, own, .inside (g := ⟨k', children⟩) k before after encloses⟩
  | raw e' =>
    obtain rfl : e = e' := by simpa [Clause.leaves] using h
    exact ⟨⟨k, before ++ after, e⟩, _, rfl, .here before after rfl⟩
  | _ => simp [Clause.leaves] at h

theorem exists_encloses_row {e : Expression} (clauses : List Clause)
    (h : .raw e ∈ Clause.leavesOfAll clauses) (k : Combinator) (before : List Clause) :
    ∃ spot g', spot.fragment = e ∧ Encloses spot ⟨k, before ++ clauses⟩ g' := by
  cases clauses with
  | nil => simp [Clause.leavesOfAll] at h
  | cons clause rest =>
    rcases List.mem_append.mp h with own | later
    · exact exists_encloses_clause clause own k before rest
    · simpa using exists_encloses_row rest later k (before ++ [clause])

end

/-- Every fragment of a tree can be put in parentheses. -/
theorem exists_encloses {e : Expression} (h : .raw e ∈ g.leaves) :
    ∃ spot g', spot.fragment = e ∧ Encloses spot g g' :=
  exists_encloses_row g.children h g.combinator []

/-- At the top level of a document a fragment is alone in its group. -/
theorem exists_encloses_top {e : Expression} {reading : Reading} (h : .raw e ∈ reading.clauses) :
    ∃ spot g', spot.fragment = e ∧ spot.Safe ∧ Encloses spot reading.filter.root g' := by
  obtain ⟨before, after, split⟩ := List.append_of_mem h
  have root : reading.filter.root =
      ⟨.and, before.map .enclosed ++ .group .and [.raw e] :: after.map .enclosed⟩ := by
    simp [Reading.filter, split, Clause.enclosed]
  rw [root]
  exact ⟨⟨.and, [], e⟩, _, rfl, .inr (.inl rfl), .inside _ _ _ (.here [] [] rfl)⟩

theorem Encloses.children_ne_nil (h : spot.Encloses g g') :
    g.children ≠ [] ∧ g'.children ≠ [] := by
  cases h <;> simp

theorem Encloses.values_eq (h : spot.Encloses g g') : g'.values = g.values := by
  induction h with
  | here before after =>
    simp [Group.values, Clause.valuesOfAll_append, Clause.valuesOfAll, Clause.values,
      Expression.enclosed]
  | inside k before after h ih =>
    have within : Clause.valuesOfAll _ = Clause.valuesOfAll _ := ih
    simp [Group.values, Clause.valuesOfAll_append, Clause.valuesOfAll, Clause.values, within]

/-- At a safe spot parentheses change nothing of what the tree around it says. -/
theorem Encloses.interchangeable (h : spot.Encloses g g') (safe : spot.Safe)
    (formed : ∀ leaf ∈ g.leaves, leaf.Formed) :
    Interchangeable .or (Piece.textOf g.pieces) (Piece.textOf g'.pieces) := by
  induction h with
  | here before after beside =>
    simp only [Group.leaves, Clause.leavesOfAll_append, Clause.leavesOfAll, Clause.leaves,
      List.forall_mem_append, List.forall_mem_singleton] at formed
    obtain ⟨hb, own, ha⟩ := formed
    have within (k : Combinator) (same : Interchangeable k spot.fragment.sql
        spot.fragment.enclosed.sql) :
        Interchangeable k (Piece.textOf (Group.pieces ⟨k, before ++ .raw spot.fragment :: after⟩))
          (Piece.textOf (Group.pieces ⟨k, before ++ .raw spot.fragment.enclosed :: after⟩)) :=
      Interchangeable.row (by simpa using same) hb ha
    rcases safe with isOr | alone | undivided
    · rw [isOr]
      exact within .or (Expression.interchangeable_or own)
    · obtain ⟨rfl, rfl⟩ := List.append_eq_nil_iff.mp (beside.symm.trans alone)
      exact within .or (Expression.interchangeable_or own)
    · exact (within _ (undivided.interchangeable own _)).toOr
  | @inside g g' k before after h ih =>
    simp only [Group.leaves, Clause.leavesOfAll_append, Clause.leavesOfAll, Clause.leaves,
      List.forall_mem_append] at formed
    obtain ⟨hb, own, ha⟩ := formed
    have same := (ih own).enclose k
    exact (Interchangeable.row (k := k) (by simpa [Clause.text_group] using same) hb ha).toOr

end Spot

/-- The condition of the query is read like this. -/
def Filter.Reads (f : Filter) (q : Query) (p : Predicate) : Prop :=
  ∃ condition, f.Asks q condition ∧ SearchCondition.read? condition = some p

namespace Spot

/-- A fragment that stands in an OR group, or alone in its group, or has no OR of its own may be put
in parentheses: the query has the same values, and whatever its tests come to, so does its
condition. -/
theorem truthUnder_of_encloses {f : Filter} {target : Target} {q : Query} {spot : Spot} {g' : Group}
    (made : f.query target = .ok q) (encloses : spot.Encloses f.root g')
    (formed : ∀ leaf ∈ f.root.leaves, leaf.Formed) (safe : spot.Safe) :
    ∃ q' p p', Filter.query { f with root := g' } target = .ok q' ∧ q'.values = q.values ∧
      f.Reads q p ∧ Filter.Reads { f with root := g' } q' p' ∧
      ∀ a, p.truthUnder a = p'.truthUnder a := by
  obtain ⟨rows, rows', offers, offers', alike⟩ := encloses.interchangeable safe formed
  obtain ⟨p, read, judged⟩ := offers.read?
  obtain ⟨p', read', judged'⟩ := offers'.read?
  obtain ⟨limit, offset, window, rfl⟩ := Filter.exists_window_of_query made
  have made' := Filter.query_of_window (f := { f with root := g' }) window target
  refine ⟨_, p, p', made', encloses.values_eq, ?_, ?_, fun a => ?_⟩
  · exact ⟨_, Filter.asks_of_query made encloses.children_ne_nil.1, read⟩
  · exact ⟨_, Filter.asks_of_query made' encloses.children_ne_nil.2, read'⟩
  · rw [Predicate.truthUnder, Predicate.truthUnder, judged, judged', alike.ofRow_eq]

/-- For a fragment with a range, and with a string in which an OR stands, deep inside a tree that
has leaves of other kinds and a fragment which is divided. -/
theorem truthUnder_of_encloses_sample :
    let fragment : Expression := ⟨"c BETWEEN ? AND ? AND d = 'x OR (y'", [.int 1, .int 2]⟩
    let spot : Spot :=
      { combinator := .and
        siblings := [.nullCheck "left_at" true, .pattern "name" true (.text "J%")]
        fragment }
    let f := Filter.build [.condition (.eq "tenant" (.int 9)), .condition (.group .or [
      .isIn "role" [.int 1, .int 2],
      .group .and [.isNull "left_at", .expression fragment.sql fragment.values,
        .notLike "name" (.text "J%")],
      .expression "a = 1 OR b = 2" []])]
    ∃ q q' p p' g', spot.Encloses f.root g' ∧ f.query ⟨"t", "id"⟩ = .ok q ∧
      Filter.query { f with root := g' } ⟨"t", "id"⟩ = .ok q' ∧ f.Reads q p ∧
      Filter.Reads { f with root := g' } q' p' ∧ ∀ a, p.truthUnder a = p'.truthUnder a := by
  intro fragment spot f
  have window : f.modifiers.window = .ok (none, none) := rfl
  have made := Filter.query_of_window window ⟨"t", "id"⟩
  have own : spot.Encloses ⟨.and, _⟩ ⟨.and, _⟩ := .here [_] [_] rfl
  have encloses : spot.Encloses f.root _ :=
    .inside .and [_] [] (.inside .or [.membership "role" false [.int 1, .int 2]]
      [.raw ⟨"a = 1 OR b = 2", []⟩] own)
  have safe : spot.Safe := .inr (.inr (by decide +kernel))
  obtain ⟨q', p, p', made', -, reads, reads', same⟩ :=
    truthUnder_of_encloses made encloses (by decide +kernel) safe
  exact ⟨_, q', p, p', _, encloses, made, made', reads, reads', same⟩

/-- Behind a tenant's condition, an OR of the fragment lets every row pass that it allows itself. -/
theorem not_truthUnder_of_encloses :
    let spot : Spot :=
      { combinator := .and
        siblings := [.comparison "tenant" .eq (.int 9)]
        fragment := ⟨"a OR b", []⟩ }
    let f := Filter.build [.condition (.eq "tenant" (.int 9)), .condition (.expression "a OR b" [])]
    let f' :=
      Filter.build [.condition (.eq "tenant" (.int 9)), .condition (.expression "(a OR b)" [])]
    spot.Encloses f.root f'.root ∧ (∀ leaf ∈ f.root.leaves, leaf.Formed) ∧
      ∃ q q' p p', f.query ⟨"t", "id"⟩ = .ok q ∧ f'.query ⟨"t", "id"⟩ = .ok q' ∧
        f.Reads q p ∧ f'.Reads q' p' ∧ ∃ a, p.truthUnder a = .yes ∧ p'.truthUnder a = .no := by
  intro spot f f'
  have window : f.modifiers.window = .ok (none, none) := rfl
  have made := Filter.query_of_window window ⟨"t", "id"⟩
  have window' : f'.modifiers.window = .ok (none, none) := rfl
  have made' := Filter.query_of_window window' ⟨"t", "id"⟩
  have read : SearchCondition.read? (Piece.textOf f.root.pieces) =
      some (.join .or (.join .and (.test "tenant = ?") (.test "a")) (.test "b")) := by
    decide +kernel
  have read' : SearchCondition.read? (Piece.textOf f'.root.pieces) =
      some (.join .and (.test "tenant = ?") (.join .or (.test "a") (.test "b"))) := by
    decide +kernel
  exact ⟨.here [_] [] rfl, by decide +kernel, _, _, _, _, made, made',
    ⟨_, Filter.asks_of_query made (by decide), read⟩,
    ⟨_, Filter.asks_of_query made' (by decide), read'⟩,
    fun _ text => if text = "b" then .yes else .no, by decide, by decide⟩

end Spot

end FilterQuery
