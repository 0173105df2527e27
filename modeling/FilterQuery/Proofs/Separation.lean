import FilterQuery.Proofs.LastLimit
import FilterQuery.Proofs.Merging

/-!
# Conditions and rules apart

A document is read in one walk that finds clauses and rules among each other, at any depth. Main
statement: of a document that is read, the same comes out as in two walks that know nothing of each
other. One makes a clause of every entry that is no rule and passes over the rules, so that a group
of nothing but rules is an empty group. The other goes from rule to rule in the order of the visits,
and it makes no difference in which group a rule stands.
-/

namespace FilterQuery

variable {known : Option (List String)}

/-! ### What is no rule -/

def Key.isRule (key : Key) : Bool := key.rule?.isSome

/-- The combinator of the group under a key. Numbers join with AND. -/
def Key.joins (key : Key) : Combinator := (key.name?.bind Combinator.ofKey?).getD .and

namespace Document

def test? (field : String) (operator operand : Document) : Option Clause := do
  let op ← operator.text?.bind Operator.ofText?
  op.clause? field operand

/-- The clause of an entry that is neither a rule nor a group: of a test the field is either the key
or the first of three. -/
def leaf? (key : Key) (value : Document) : Option Clause :=
  match value, value.sequence? with
  | .expression e, _ => some (.raw e)
  | .scalar v, _ => key.name?.map fun field => .ofComparison field .eq v
  | _, some [operator, operand] => key.name?.bind fun field => test? field operator operand
  | _, some [field, operator, operand] => field.text?.bind fun field => test? field operator operand
  | _, _ => none

mutual

/-- The clause of an entry that is no rule. -/
def clause? (key : Key) : Document → Option Clause
  | .list items =>
    if key.opens (.list items) then (clausesOfItems? 0 items).map (.group key.joins)
    else leaf? key (.list items)
  | .map entries =>
    if key.opens (.map entries) then (clauses? entries).map (.group key.joins)
    else leaf? key (.map entries)
  | .scalar value => leaf? key (.scalar value)
  | .expression e => leaf? key (.expression e)

def clausesOfItems? (i : Nat) : List Document → Option (List Clause)
  | [] => some []
  | item :: rest => do
    let first ← clause? (.index i) item
    let later ← clausesOfItems? (i + 1) rest
    return first :: later

/-- The clauses of some entries, with their rules passed over. -/
def clauses? : List (Key × Document) → Option (List Clause)
  | [] => some []
  | (key, value) :: rest =>
    if key.isRule then clauses? rest
    else do
      let first ← clause? key value
      let later ← clauses? rest
      return first :: later

end

theorem clausesOfItems?_eq (i : Nat) (items : List Document) :
    clausesOfItems? i items = clauses? (indexed i items) := by
  induction items generalizing i with
  | nil => rfl
  | cons item rest ih =>
    simp [clausesOfItems?, indexed, clauses?, ih, Key.isRule, Key.rule?, Key.name?]

/-- Every entry that is no rule gives one clause. -/
theorem clauses?_eq (entries : List (Key × Document)) :
    clauses? entries =
      (entries.filter fun entry => !entry.1.isRule).mapM fun entry => entry.2.clause? entry.1 := by
  induction entries with
  | nil => rfl
  | cons entry rest ih =>
    obtain ⟨key, value⟩ := entry
    cases ruled : key.isRule <;> simp [clauses?, ruled, ih, List.mapM_cons]

/-- What is walked into is a group of the clauses in it. -/
theorem clause?_of_opens {key : Key} {value : Document} {entries : List (Key × Document)}
    (h : key.opens value) (he : value.entries? = some entries) :
    value.clause? key = (clauses? entries).map (.group key.joins) := by
  cases value with
  | list items =>
    cases he
    rw [clause?, if_pos h, clausesOfItems?_eq]
  | map entries =>
    cases he
    rw [clause?, if_pos h]
  | _ => cases he

theorem clause?_of_closed {key : Key} {value : Document} (h : key.opens value = false) :
    value.clause? key = leaf? key value := by
  cases value <;> simp [clause?, h]

end Document

/-- The connective that is read from a key is the one the key joins by. -/
theorem Key.joins_of_combinator {path : Path} {key : Key} {k : Combinator}
    (h : key.combinator path = .ok k) : key.joins = k := by
  cases key with
  | index i => exact Except.ok.inj h
  | name s =>
    cases number : (Key.name s).isNumeric with
    | true =>
      have unnamed : Combinator.ofKey? s = none := by
        rw [← Option.not_isSome_iff_eq_none, isSome_ofKey?]
        exact not_isConnective_of_isNumeric number
      rw [combinator_of_isNumeric number] at h
      obtain rfl := Except.ok.inj h
      simp [joins, name?, unnamed]
    | false =>
      simp only [combinator, number, Bool.false_eq_true, if_false] at h
      split at h
      · next named =>
        obtain rfl := Except.ok.inj h
        simp [joins, name?, named]
      · cases h

/-- An operation that is read is the one clause that it tests. -/
theorem exists_test?_of_read {path : Path} {field : String} {operator operand value : Document}
    {reading : Reading} (h : (Shape.pair field operator operand).read path value = .ok reading) :
    ∃ clause, Document.test? field operator operand = some clause ∧
      reading.clauses = [clause] := by
  rw [Shape.read] at h
  cases word : operator.text? with
  | none =>
    rw [word] at h
    cases h
  | some word =>
    simp only [word, readOperation] at h
    split at h
    · cases h
    · next op named =>
      split at h
      · next clause made =>
        obtain rfl := Except.ok.inj h
        exact ⟨clause, by simp [Document.test?, word, named, made], rfl⟩
      · cases h

/-- A rule adds nothing to the clauses. -/
theorem clauses_of_isRule {path : Path} {key : Key} {value : Document} {reading : Reading}
    (ruled : key.isRule) (h : readEntry known path key value = .ok reading) :
    reading.clauses = [] := by
  obtain ⟨name, named⟩ := Option.isSome_iff_exists.mp ruled
  rw [readEntry_of_shape (Shape.of_rule named) (by simp)] at h
  obtain ⟨rule, -, rfl⟩ := Except.map_eq_ok.mp h
  rfl

/-- A well-formed entry that is no group and no rule is the one clause that it says. -/
theorem Plain.exists_leaf? {path : Path} {key : Key} {value : Document} {reading : Reading}
    (plain : Plain known key value) (free : key.isRule = false)
    (h : readEntry known path key value = .ok reading) :
    ∃ clause, Document.leaf? key value = some clause ∧ reading.clauses = [clause] := by
  cases plain with
  | rule named => simp [Key.isRule, named] at free
  | expression e noRule =>
    rw [readEntry_of_shape (Shape.of_expression noRule e) (by simp)] at h
    obtain rfl := Except.ok.inj h
    exact ⟨.raw e, rfl, rfl⟩
  | equality v names listed =>
    rw [readEntry_of_shape (Shape.of_listed names v listed) (by simp)] at h
    obtain rfl := Except.ok.inj h
    exact ⟨_, by simp [Document.leaf?, names.name, Key.name?], rfl⟩
  | pair names ordered test =>
    rw [readEntry_pair names ordered] at h
    obtain ⟨clause, made, same⟩ := exists_test?_of_read h
    refine ⟨clause, ?_, same⟩
    cases value <;> simp_all [Document.leaf?, names.name, Key.name?, Document.sequence?]
  | triple number ordered test =>
    rw [readEntry_triple number ordered (isTriple_of_isTest ordered test), Shape.read_triple] at h
    obtain ⟨clause, made, same⟩ := exists_test?_of_read h
    refine ⟨clause, ?_, same⟩
    cases value <;> simp_all [Document.leaf?, Document.sequence?]

theorem clauses?_of_readEntries (path : Path) (entries : List (Key × Document))
    (each : ∀ entry ∈ entries, entry.1.isRule = false → ∀ reading,
      readEntry known (path ++ [entry.1]) entry.1 entry.2 = .ok reading →
      ∃ clause, entry.2.clause? entry.1 = some clause ∧ reading.clauses = [clause])
    {reading : Reading} (h : readEntries known path entries = .ok reading) :
    Document.clauses? entries = some reading.clauses := by
  induction entries generalizing reading with
  | nil =>
    obtain rfl := Except.ok.inj h
    rfl
  | cons entry rest ih =>
    obtain ⟨key, value⟩ := entry
    rw [List.forall_mem_cons] at each
    rw [readEntries] at h
    obtain ⟨first, readFirst, h⟩ := Except.bind_eq_ok.mp h
    obtain ⟨later, readLater, h⟩ := Except.bind_eq_ok.mp h
    obtain rfl := Except.ok.inj h
    have back := ih each.2 readLater
    cases ruled : key.isRule with
    | true =>
      rw [Document.clauses?, if_pos ruled, back, Reading.clauses_append,
        clauses_of_isRule ruled readFirst, List.nil_append]
    | false =>
      obtain ⟨clause, made, same⟩ := each.1 ruled first readFirst
      simp [Document.clauses?, ruled, made, back, same]

/-- Whatever rules stand in an entry that is no rule, its clause is the one found without them. -/
theorem exists_clause?_of_readEntry (value : Document) (path : Path) (key : Key)
    (free : key.isRule = false) {reading : Reading}
    (h : readEntry known path key value = .ok reading) :
    ∃ clause, value.clause? key = some clause ∧ reading.clauses = [clause] := by
  induction value using Document.entries_induction generalizing path key reading with
  | step value ih =>
    cases opened : key.opens value with
    | true =>
      obtain ⟨entries, he⟩ := Document.entries?_of_opens opened
      rw [readEntry_of_opens path opened he] at h
      obtain ⟨k, joined, h⟩ := Except.bind_eq_ok.mp h
      obtain ⟨within, read, h⟩ := Except.bind_eq_ok.mp h
      obtain rfl := Except.ok.inj h
      have inner := clauses?_of_readEntries path entries
        (fun entry hm free reading => ih entries he entry hm _ _ free) read
      refine ⟨.group k within.clauses, ?_, rfl⟩
      rw [Document.clause?_of_opens opened he, inner, Key.joins_of_combinator joined]
      rfl
    | false =>
      have plain : Plain known key value :=
        (judges_readEntry path opened).refusal?_eq_none.mp (by rw [h]; rfl)
      rw [Document.clause?_of_closed opened]
      exact plain.exists_leaf? free h

/-- A document that is read has the clauses its entries say, the rules left out. -/
theorem Document.clauses_read {document : Document} {reading : Reading}
    (h : document.read known = .ok reading) :
    ∃ entries, document.entries? = some entries ∧ clauses? entries = some reading.clauses := by
  cases he : document.entries? with
  | none =>
    rw [read, he] at h
    cases h
  | some entries =>
    rw [read, he] at h
    exact ⟨entries, rfl, clauses?_of_readEntries [] entries
      (fun entry _ free reading => exists_clause?_of_readEntry entry.2 _ entry.1 free) h⟩

/-! ### The rules -/

namespace Document

def Directs (way : Document) (direction : Direction) : Prop :=
  ∃ word, way = .scalar (.text word) ∧ Direction.ofText? word = some direction

/-- An item of an order is a field, or a field with a direction. -/
inductive Orders : Document → Criterion → Prop
  | field (field : String) : Orders (.scalar (.text field)) ⟨field, .asc⟩
  | directed {item way : Document} {field : String} {direction : Direction} :
    item.sequence? = some [.scalar (.text field), way] → way.Directs direction →
    Orders item ⟨field, direction⟩

/-- An order lists a field, some items, or directions under the names of fields. -/
inductive ListsOrder : Document → List Criterion → Prop
  | field (field : String) : ListsOrder (.scalar (.text field)) [⟨field, .asc⟩]
  | items {value : Document} {items : List Document} {criteria : List Criterion} :
    value.sequence? = some items → List.Forall₂ Orders items criteria → ListsOrder value criteria
  | directions {entries : List (Key × Document)} {criteria : List Criterion} :
    List.Forall₂ (fun entry criterion => entry.1 = .name criterion.expression ∧
      entry.2.Directs criterion.direction) entries criteria → ListsOrder (.map entries) criteria

inductive ListsGroup : Document → List String → Prop
  | column (column : String) : ListsGroup (.scalar (.text column)) [column]
  | columns {value : Document} {columns : List String} :
    value.sequence? = some (columns.map fun column => .scalar (.text column)) →
    ListsGroup value columns

end Document

/-- What an entry under the key of a rule states, with the paths of its own limit and offset. -/
inductive Entry.States (entry : Entry) : Rule → Prop
  | order {criteria : List Criterion} : entry.key.rule? = some .order →
    entry.value.ListsOrder criteria → States entry (.order criteria)
  | group {columns : List String} : entry.key.rule? = some .group →
    entry.value.ListsGroup columns → States entry (.group columns)
  | rows {rows : Value} : entry.key.rule? = some .limit → entry.value = .scalar rows →
    States entry (.limit ⟨rows, entry.path.text⟩ none)
  | onlyRows {rows : Value} : entry.key.rule? = some .limit →
    entry.value.sequence? = some [.scalar rows] → States entry (.limit (entry.item 0 rows) none)
  | rowsAndSkip {rows skip : Value} : entry.key.rule? = some .limit →
    entry.value.sequence? = some [.scalar rows, .scalar skip] →
    States entry (.limit (entry.item 0 rows) (some (entry.item 1 skip)))

namespace Rule

variable {path : Path} {value : Document} {rule : Rule}

theorem directs_of_direction {way : Document} {d : Direction} (h : direction path way = .ok d) :
    way.Directs d := by
  unfold direction at h
  split at h
  · next known =>
    obtain rfl := Except.ok.inj h
    obtain ⟨word, text, named⟩ := Option.bind_eq_some_iff.mp known
    exact ⟨word, Document.text?_eq_some.mp text, named⟩
  · cases h

theorem orders_of_criterion {item : Document} {c : Criterion} (h : criterion path item = .ok c) :
    item.Orders c := by
  unfold criterion at h
  split at h
  · next field text =>
    obtain rfl := Except.ok.inj h
    rw [Document.text?_eq_some.mp text]
    exact .field field
  · next field way _ pair =>
    split at h
    · next name text =>
      obtain ⟨d, read, rfl⟩ := Except.map_eq_ok.mp h
      rw [Document.text?_eq_some.mp text] at pair
      exact .directed pair (directs_of_direction read)
    · cases h
  · cases h

theorem named_of_mappedCriterion {whole : Document} {entry : Key × Document} {c : Criterion}
    (h : mappedCriterion path whole entry = .ok c) :
    entry.1 = .name c.expression ∧ entry.2.Directs c.direction := by
  obtain ⟨key, way⟩ := entry
  cases key with
  | index i => cases h
  | name field =>
    obtain ⟨d, read, rfl⟩ := Except.map_eq_ok.mp h
    exact ⟨rfl, directs_of_direction read⟩

/-- An order that is read has the criteria that are written, in their order. -/
theorem listsOrder_of_readOrder (h : readOrder path value = .ok rule) :
    ∃ criteria, rule = .order criteria ∧ value.ListsOrder criteria := by
  unfold readOrder at h
  split at h
  · next text =>
    obtain rfl := Except.ok.inj h
    rw [Document.text?_eq_some.mp text]
    exact ⟨_, rfl, .field _⟩
  · next items _ ordered =>
    obtain ⟨criteria, read, rfl⟩ := Except.map_eq_ok.mp h
    exact ⟨criteria, rfl,
      .items ordered ((Except.mapM_eq_ok.mp read).imp fun _ _ => orders_of_criterion)⟩
  · next entries _ _ =>
    obtain ⟨criteria, read, rfl⟩ := Except.map_eq_ok.mp h
    exact ⟨criteria, rfl,
      .directions ((Except.mapM_eq_ok.mp read).imp fun _ _ => named_of_mappedCriterion)⟩
  · cases h

theorem listsGroup_of_readGroup (h : readGroup path value = .ok rule) :
    ∃ columns, rule = .group columns ∧ value.ListsGroup columns := by
  unfold readGroup at h
  split at h
  · next column text =>
    obtain rfl := Except.ok.inj h
    rw [Document.text?_eq_some.mp text]
    exact ⟨_, rfl, .column column⟩
  · next items _ ordered =>
    split at h
    · next columns read =>
      obtain rfl := Except.ok.inj h
      rw [(Document.mapM_eq_some Document.text?_eq_some).mp read] at ordered
      exact ⟨columns, rfl, .columns ordered⟩
    · cases h
  · cases h

end Rule

/-- The rule of an entry is what the entry states in writing. -/
theorem Entry.states_of_rule? {entry : Entry} {rule : Rule} (h : entry.rule? = some rule) :
    entry.States rule := by
  obtain ⟨name, named, read⟩ := exists_read_of_rule? h
  cases name with
  | order =>
    obtain ⟨criteria, rfl, lists⟩ := Rule.listsOrder_of_readOrder read
    exact .order named lists
  | group =>
    obtain ⟨columns, rfl, lists⟩ := Rule.listsGroup_of_readGroup read
    exact .group named lists
  | limit =>
    rcases Rule.readLimit_cases read with
      ⟨rows, bare, rfl⟩ | ⟨rows, alone, rfl⟩ | ⟨rows, skip, both, rfl⟩
    · exact .rows named bare
    · exact .onlyRows named alone
    · exact .rowsAndSkip named both

/-- Where every rule is read, the entries under the keys of rules state just these rules. -/
theorem Entry.forall₂_states {entries : List Entry}
    (rules : ∀ entry ∈ entries, ∀ name, entry.key.rule? = some name → entry.rule?.isSome) :
    List.Forall₂ States (entries.filter (·.key.isRule)) (entries.filterMap rule?) := by
  induction entries with
  | nil => exact .nil
  | cons entry rest ih =>
    rw [List.forall_mem_cons] at rules
    cases named : entry.key.rule? with
    | none =>
      rw [List.filter_cons_of_neg (by simp [Key.isRule, named]),
        List.filterMap_cons_none (rule?_of_noRule named)]
      exact ih rules.2
    | some name =>
      obtain ⟨rule, ruled⟩ := Option.isSome_iff_exists.mp (rules.1 name named)
      rw [List.filter_cons_of_pos (by simp [Key.isRule, named]), List.filterMap_cons_some ruled]
      exact .cons (states_of_rule? ruled) (ih rules.2)

/-- What no rule sets. -/
theorem Rule.unset_foldl (m : Modifiers) (rules : List Rule) :
    (rules.foldl apply m).projection = m.projection ∧ (rules.foldl apply m).distinct = m.distinct ∧
      (rules.foldl apply m).paged = m.paged := by
  induction rules generalizing m with
  | nil => exact ⟨rfl, rfl, rfl⟩
  | cons rule rules ih =>
    have own : (rule.apply m).projection = m.projection ∧ (rule.apply m).distinct = m.distinct ∧
        (rule.apply m).paged = m.paged := by
      cases rule with
      | limit rows skip => cases skip <;> exact ⟨rfl, rfl, rfl⟩
      | _ => exact ⟨rfl, rfl, rfl⟩
    rw [List.foldl_cons, ← own.1, ← own.2.1, ← own.2.2]
    exact ih (rule.apply m)

/-- The terms of a filter come from the entries that are no rules, one from each, and the modifiers
from the rules, one after another. -/
theorem Filter.conditions_and_rules_apart {document : Document} {f : Filter}
    (read : Filter.ofDocument document known = .ok f) :
    (∃ entries clauses, document.entries? = some entries ∧
      ((entries.filter fun entry => !entry.1.isRule).mapM fun entry => entry.2.clause? entry.1) =
        some clauses ∧
      f.root = ⟨.and, clauses.map Clause.enclosed⟩) ∧
    ∃ rules, List.Forall₂ Entry.States (document.visits.filter (·.key.isRule)) rules ∧
      f.modifiers = rules.foldl Rule.apply {} ∧
      f.modifiers.order = rules.flatMap Rule.criteria ∧
      f.modifiers.groupBy = rules.flatMap Rule.columns ∧
      f.modifiers.projection = .full ∧ f.modifiers.distinct = false ∧ f.modifiers.paged = false := by
  obtain ⟨reading, made, rfl⟩ := Except.map_eq_ok.mp read
  constructor
  · obtain ⟨entries, he, clauses⟩ := Document.clauses_read made
    rw [Document.clauses?_eq] at clauses
    exact ⟨entries, reading.clauses, he, clauses, rfl⟩
  · have stated :
        List.Forall₂ Entry.States (document.visits.filter (·.key.isRule)) reading.rules := by
      rw [Document.rules_read made]
      exact Entry.forall₂_states fun entry visited _ => Document.isSome_rule?_of_read made visited
    exact ⟨reading.rules, stated, rfl, reading.order_filter, reading.groupBy_filter,
      Rule.unset_foldl {} reading.rules⟩

/-- Orders in all their forms at different depths, and a group of nothing but rules. -/
theorem Filter.conditions_and_rules_apart_sample :
    let entries : List (Key × Document) := [
      (.name ":order", .map [(.name "name", .scalar (.text "desc"))]),
      (.name "age", .list [.scalar (.text ">"), .scalar (.int 18)]),
      (.name ":or", .list [
        .map [(.name ":limit", .scalar (.int 5)), (.name ":Order", .scalar (.text "id"))],
        .list [.scalar (.text "role"), .scalar (.text "is"), .scalar .null],
        .expression ⟨"a = b", []⟩]),
      (.name ":order", .list [.list [.scalar (.text "age"), .scalar (.text "asc")]])]
    ∃ f, Filter.ofDocument (.map entries) = .ok f ∧
      Piece.textOf f.root.pieces = "(age > ?) AND ((1 = 1) OR role IS NULL OR a = b)" ∧
      ∃ rules,
        List.Forall₂ Entry.States ((Document.map entries).visits.filter (·.key.isRule)) rules ∧
        rules.length = 4 ∧ f.modifiers.order = rules.flatMap Rule.criteria := by
  intro entries
  obtain ⟨f, read⟩ : ∃ f, Filter.ofDocument (.map entries) = .ok f := ⟨_, rfl⟩
  obtain ⟨⟨_, clauses, he, made, root⟩, rules, stated, -, order, -⟩ :=
    conditions_and_rules_apart read
  obtain rfl := Option.some.inj he
  have text : (Document.clauses? entries).map (fun clauses =>
      Piece.textOf (Group.pieces ⟨.and, clauses.map Clause.enclosed⟩)) =
      some "(age > ?) AND ((1 = 1) OR role IS NULL OR a = b)" := by decide +kernel
  have four : ((Document.map entries).visits.filter (·.key.isRule)).length = 4 := by
    decide +kernel
  rw [Document.clauses?_eq, made, Option.map_some, ← root] at text
  exact ⟨f, read, Option.some.inj text, rules, stated, stated.length_eq.symm.trans four, order⟩

end FilterQuery
