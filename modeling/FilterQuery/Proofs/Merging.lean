import Mathlib.Data.List.Forall2
import FilterQuery.Proofs.Parenthesis
import FilterQuery.Proofs.Parts

/-!
# Merged documents

The entries of two documents, one after the other, make a document that asks for both at once. So
conditions that every query has to meet can be put in front of conditions that come from elsewhere.
Main statement: the merged document is read whenever both are, as the conjunction of their terms
and with the orders and groups of the first before those of the second. Every term stands in
parentheses of its own, and as long as names and fragments are balanced these are the only
parentheses at the outermost level, with nothing but AND between them: what the second document
says cannot reach into the terms of the first.
-/

namespace FilterQuery

variable {known : Option (List String)}

/-- Two runs of entries that are each read are read together, one after the other. -/
theorem readEntries_append (path : Path) {front back : List (Key × Document)} {a b : Reading}
    (hf : readEntries known path front = .ok a) (hb : readEntries known path back = .ok b) :
    readEntries known path (front ++ back) = .ok (a ++ b) := by
  rw [readEntries_append_eq, hf, hb]
  rfl

namespace Rule

def criteria : Rule → List Criterion
  | .order criteria => criteria
  | .limit _ _ | .group _ => []

def columns : Rule → List String
  | .group columns => columns
  | .order _ | .limit _ _ => []

/-- A rule adds its criteria after those that are there. -/
theorem order_apply (m : Modifiers) (rule : Rule) :
    (rule.apply m).order = m.order ++ rule.criteria := by
  cases rule with
  | limit rows skip => cases skip <;> simp [apply, criteria]
  | _ => simp [apply, criteria]

theorem groupBy_apply (m : Modifiers) (rule : Rule) :
    (rule.apply m).groupBy = m.groupBy ++ rule.columns := by
  cases rule with
  | limit rows skip => cases skip <;> simp [apply, columns]
  | _ => simp [apply, columns]

theorem order_foldl (m : Modifiers) (rules : List Rule) :
    (rules.foldl apply m).order = m.order ++ rules.flatMap criteria := by
  induction rules generalizing m with
  | nil => simp
  | cons rule rules ih =>
    rw [List.foldl_cons, ih, order_apply, List.flatMap_cons, List.append_assoc]

theorem groupBy_foldl (m : Modifiers) (rules : List Rule) :
    (rules.foldl apply m).groupBy = m.groupBy ++ rules.flatMap columns := by
  induction rules generalizing m with
  | nil => simp
  | cons rule rules ih =>
    rw [List.foldl_cons, ih, groupBy_apply, List.flatMap_cons, List.append_assoc]

/-- What rules give a slot replaces what was in it, and a slot that they do not fill stays. -/
theorem value?_foldl (m : Modifiers) (rules : List Rule) (slot : Slot) :
    (rules.foldl apply m).value? slot =
      ((rules.foldl apply {}).value? slot).or (m.value? slot) := by
  induction rules generalizing m with
  | nil => cases slot <;> rfl
  | cons rule rules ih =>
    have empty : ({} : Modifiers).value? slot = none := by cases slot <;> rfl
    rw [List.foldl_cons, List.foldl_cons, ih, ih (rule.apply {}), value?_apply, value?_apply, empty,
      Option.or_none, Option.or_assoc]

end Rule

theorem Reading.order_filter (reading : Reading) :
    reading.filter.modifiers.order = reading.rules.flatMap Rule.criteria := by
  rw [filter, Rule.order_foldl, List.nil_append]

theorem Reading.groupBy_filter (reading : Reading) :
    reading.filter.modifiers.groupBy = reading.rules.flatMap Rule.columns := by
  rw [filter, Rule.groupBy_foldl, List.nil_append]

/-- A slot set in the later reading wins over the earlier. -/
theorem Reading.value?_filter_append (a b : Reading) (slot : Slot) :
    (a ++ b).filter.modifiers.value? slot =
      (b.filter.modifiers.value? slot).or (a.filter.modifiers.value? slot) := by
  simp only [filter, rules_append, List.foldl_append]
  exact Rule.value?_foldl _ _ slot

/-- Limits and offsets that are counts apart are counts together. -/
theorem Reading.fits_filter_append {a b : Reading} {slot : Slot}
    (ha : a.filter.modifiers.Fits slot) (hb : b.filter.modifiers.Fits slot) :
    (a ++ b).filter.modifiers.Fits slot := by
  intro v held
  rw [value?_filter_append, Option.or_eq_some_iff] at held
  rcases held with own | ⟨-, earlier⟩
  · exact hb v own
  · exact ha v earlier

/-! ### Terms in parentheses -/

/-- A term is rendered between parentheses, also where it is a single leaf. -/
theorem Clause.exists_text_enclosed (clause : Clause) :
    ∃ inside, clause.enclosed.text = "(" ++ inside ++ ")" := by
  cases clause <;> exact ⟨_, text_group _ _⟩

/-- A term is one parenthesis if what it is written with is balanced. -/
theorem Clause.exists_nested_enclosed {clause : Clause}
    (h : ∀ leaf ∈ clause.enclosed.leaves, leaf.Balanced) :
    ∃ inside, Nested clause.enclosed.text [.parenthesis inside] := by
  have grouped (k : Combinator) (children : List Clause)
      (balanced : ∀ leaf ∈ leavesOfAll children, leaf.Balanced) :
      ∃ inside, Nested (group k children).text [.parenthesis inside] := by
    obtain ⟨inside, nested⟩ := exists_nested_joined k children balanced
    exact ⟨inside, text_group k children ▸ nested.parenthesis⟩
  cases clause <;> exact grouped _ _ h

/-- A conjunction of terms, each one parenthesis, is these parentheses with AND between them. -/
theorem Nested.conjunction {terms : List Clause} {insides : List (List Nest)}
    (h : List.Forall₂ (fun term inside => Nested term.text [.parenthesis inside]) terms insides)
    (some : terms ≠ []) :
    Nested (Piece.textOf (Group.pieces ⟨.and, terms⟩)) (Nest.conjunction insides) := by
  induction h with
  | nil => exact absurd rfl some
  | @cons term inside terms insides own rest ih =>
    cases rest with
    | nil =>
      simpa [Nest.conjunction] using own
    | @cons next inside' terms insides own' rest =>
      have joiner : Nested Combinator.and.joiner _ := .chars (by decide)
      have row := (own.append joiner).append (ih (by simp))
      rw [Group.textOf_pieces_cons term (by simp)]
      simpa [Nest.conjunction, List.intercalate_cons_cons] using row

/-- The terms of a conjunction are read as one parenthesis each, around these nests, and the whole
of it as these parentheses with AND between them. -/
structure Group.ReadsAs (g : Group) (insides : List (List Nest)) : Prop where
  terms : List.Forall₂ (fun term inside => Nest.ofText? term.text = some [.parenthesis inside])
    g.children insides
  whole : Nest.ofText? (Piece.textOf g.pieces) = some (Nest.conjunction insides)

theorem Clause.exists_insides {clauses : List Clause}
    (h : ∀ leaf ∈ leavesOfAll (clauses.map enclosed), leaf.Balanced) :
    ∃ insides, List.Forall₂ (fun term inside => Nested term.text [.parenthesis inside])
      (clauses.map enclosed) insides := by
  induction clauses with
  | nil => exact ⟨[], .nil⟩
  | cons clause rest ih =>
    simp only [List.map_cons, leavesOfAll, List.forall_mem_append] at h
    obtain ⟨inside, own⟩ := exists_nested_enclosed h.1
    obtain ⟨insides, later⟩ := ih h.2
    exact ⟨inside :: insides, .cons own later⟩

theorem Group.readsAs_of_nested {terms : List Clause} {insides : List (List Nest)}
    (h : List.Forall₂ (fun term inside => Nested term.text [.parenthesis inside]) terms insides)
    (inhabited : terms ≠ []) : ReadsAs ⟨.and, terms⟩ insides :=
  ⟨h.imp fun _ _ own => own.ofText?_eq, (Nested.conjunction h inhabited).ofText?_eq⟩

namespace Reading

variable {a b : Reading}

theorem root_filter_append (a b : Reading) :
    (a ++ b).filter.root = ⟨.and, a.filter.root.children ++ b.filter.root.children⟩ := by
  simp [filter]

/-- Two readings make a query together if they do apart. -/
theorem exists_query_append {target : Target} {q r : Query} (made : a.filter.query target = .ok q)
    (made' : b.filter.query target = .ok r) :
    ∃ s, (a ++ b).filter.query target = .ok s ∧ s.values = q.values ++ r.values := by
  have fits : ∀ slot, (a ++ b).filter.modifiers.Fits slot := fun slot =>
    fits_filter_append ((Filter.exists_query _ target).mp ⟨q, made⟩ slot)
      ((Filter.exists_query _ target).mp ⟨r, made'⟩ slot)
  obtain ⟨s, merged⟩ := (Filter.exists_query _ target).mpr fits
  refine ⟨s, merged, ?_⟩
  obtain ⟨-, -, -, rfl⟩ := Filter.query_eq_ok.mp made
  obtain ⟨-, -, -, rfl⟩ := Filter.query_eq_ok.mp made'
  obtain ⟨-, -, -, rfl⟩ := Filter.query_eq_ok.mp merged
  rw [root_filter_append]
  exact Clause.valuesOfAll_append _ _

/-- In the filter of both readings, the parentheses of each are nested as they were. -/
theorem exists_readsAs_append (inhabited : a.filter.root.children ≠ [])
    (inhabited' : b.filter.root.children ≠ [])
    (balanced : ∀ leaf ∈ a.filter.root.leaves ++ b.filter.root.leaves, leaf.Balanced) :
    ∃ insides insides', a.filter.root.ReadsAs insides ∧ b.filter.root.ReadsAs insides' ∧
      (a ++ b).filter.root.ReadsAs (insides ++ insides') := by
  obtain ⟨balancedFirst, balancedSecond⟩ := List.forall_mem_append.mp balanced
  obtain ⟨insides, nested⟩ := Clause.exists_insides balancedFirst
  obtain ⟨insides', nested'⟩ := Clause.exists_insides balancedSecond
  refine ⟨insides, insides', Group.readsAs_of_nested nested inhabited,
    Group.readsAs_of_nested nested' inhabited', ?_⟩
  rw [root_filter_append]
  exact Group.readsAs_of_nested (List.rel_append nested nested') (by simp [inhabited])

end Reading

/-- The entries of one document after those of another ask for both: the terms, the orders and the
groups of the first come before those of the second, and so do the conditions in the query. If
names and fragments are balanced, the terms of either document are read in the merged condition as
in its own. -/
theorem ofDocument_merged {front back : List (Key × Document)} {f g : Filter}
    (first : Filter.ofDocument (.map front) known = .ok f)
    (second : Filter.ofDocument (.map back) known = .ok g) :
    ∃ h, Filter.ofDocument (.map (front ++ back)) known = .ok h ∧
      h.root = ⟨.and, f.root.children ++ g.root.children⟩ ∧
      h.modifiers.order = f.modifiers.order ++ g.modifiers.order ∧
      h.modifiers.groupBy = f.modifiers.groupBy ++ g.modifiers.groupBy ∧
      (∀ term ∈ h.root.children, ∃ inside, term.text = "(" ++ inside ++ ")") ∧
      (∀ target q r, f.query target = .ok q → g.query target = .ok r →
        ∃ s, h.query target = .ok s ∧ s.values = q.values ++ r.values ∧
          (f.root.children ≠ [] → g.root.children ≠ [] →
            f.Asks q (Piece.textOf f.root.pieces) ∧ g.Asks r (Piece.textOf g.root.pieces) ∧
            h.Asks s
              (Piece.textOf f.root.pieces ++ " AND " ++ Piece.textOf g.root.pieces))) ∧
      (f.root.children ≠ [] → g.root.children ≠ [] →
        (∀ leaf ∈ f.root.leaves ++ g.root.leaves, leaf.Balanced) →
        ∃ insides insides', f.root.ReadsAs insides ∧ g.root.ReadsAs insides' ∧
          h.root.ReadsAs (insides ++ insides')) := by
  obtain ⟨a, readFirst, rfl⟩ := Except.map_eq_ok.mp first
  obtain ⟨b, readSecond, rfl⟩ := Except.map_eq_ok.mp second
  have read : (Document.map (front ++ back)).read known = .ok (a ++ b) :=
    readEntries_append [] readFirst readSecond
  have root := Reading.root_filter_append a b
  refine ⟨(a ++ b).filter, by rw [Filter.ofDocument, read]; rfl, root, ?_, ?_, ?_, ?_,
    Reading.exists_readsAs_append⟩
  · rw [Reading.order_filter, Reading.order_filter, Reading.order_filter, Reading.rules_append,
      List.flatMap_append]
  · rw [Reading.groupBy_filter, Reading.groupBy_filter, Reading.groupBy_filter,
      Reading.rules_append, List.flatMap_append]
  · intro term mem
    obtain ⟨clause, -, rfl⟩ := List.mem_map.mp mem
    exact clause.exists_text_enclosed
  · intro target q r made made'
    obtain ⟨s, merged, values⟩ := Reading.exists_query_append made made'
    refine ⟨s, merged, values, fun inhabited inhabited' => ?_⟩
    have condition := Filter.asks_of_query merged (by simp [root, inhabited])
    rw [root, Group.textOf_pieces_append inhabited inhabited'] at condition
    exact ⟨Filter.asks_of_query made inhabited, Filter.asks_of_query made' inhabited', condition⟩

/-- A tenant's own condition in front of alternatives that someone else asks for. -/
theorem ofDocument_merged_sample :
    let front : List (Key × Document) := [(.name "tenant", .scalar (.int 9))]
    let back : List (Key × Document) := [(.name ":or", .list [
        .expression ⟨"lower(name) = ? OR age > 9", [.text "x"]⟩,
        .list [.scalar (.text "role"), .scalar (.text "in"), .list [.scalar (.int 1)]],
        .map [(.name ":order", .scalar (.text "name"))]])]
    ∃ f g h, Filter.ofDocument (.map front) = .ok f ∧ Filter.ofDocument (.map back) = .ok g ∧
      Filter.ofDocument (.map (front ++ back)) = .ok h ∧
      ∃ insides insides', f.root.ReadsAs insides ∧ g.root.ReadsAs insides' ∧
        h.root.ReadsAs (insides ++ insides') := by
  intro front back
  obtain ⟨f, g, first, second, leaves, inhabited, inhabited'⟩ :
      ∃ f g, Filter.ofDocument (.map front) = .ok f ∧ Filter.ofDocument (.map back) = .ok g ∧
        (∀ leaf ∈ f.root.leaves ++ g.root.leaves, leaf.Balanced) ∧
        f.root.children ≠ [] ∧ g.root.children ≠ [] :=
    ⟨_, _, rfl, rfl, by decide, by decide, by decide⟩
  obtain ⟨h, merged, -, -, -, -, -, grouped⟩ := ofDocument_merged first second
  exact ⟨f, g, h, first, second, merged, grouped inhabited inhabited' leaves⟩

end FilterQuery
