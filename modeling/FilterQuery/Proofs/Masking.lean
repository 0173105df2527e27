import FilterQuery.Proofs.Blame
import FilterQuery.Proofs.Erasure
import FilterQuery.Proofs.Outline
import FilterQuery.Proofs.Parts
import Mathlib.Data.List.Forall2

/-!
# Operands never become structure

How a document is read depends on the outlines of its parts, and among these stand the scalars that
fields are compared with. Masking a document hides these scalars: of each nothing is kept but
whether it is null. Main statement: documents that are the same when masked are refused with the
same error, or they are read as filters that make queries with the same text and, at each position,
values of which both are null or neither. So whatever a scalar spells that stands for an operand, it
is never taken for anything else.
-/

namespace FilterQuery

variable {known : Option (List String)}

/-! ### Values and clauses -/

/-- Of a value, whether it is null. -/
def Value.masked : Value → Value
  | .null => .null
  | _ => .bool true

@[simp] theorem Value.masked_masked (v : Value) : v.masked.masked = v.masked := by
  cases v <;> rfl

/-- Masking keeps apart what is null and what is not. -/
theorem Value.masked_eq_null {v : Value} : v.masked = .null ↔ v = .null := by
  cases v <;> simp [masked]

namespace Clause

mutual

/-- Fragments of SQL are no operands and keep the values that they bring along. -/
def masked : Clause → Clause
  | .comparison field comparator value => .comparison field comparator value.masked
  | .membership field negate values => .membership field negate (values.map Value.masked)
  | .nullCheck field isNull => .nullCheck field isNull
  | .pattern field negate value => .pattern field negate value.masked
  | .raw expression => .raw expression
  | .group combinator children => .group combinator (maskedAll children)

def maskedAll : List Clause → List Clause
  | [] => []
  | clause :: rest => clause.masked :: maskedAll rest

end

theorem maskedAll_eq_map (clauses : List Clause) : maskedAll clauses = clauses.map masked := by
  induction clauses with
  | nil => rfl
  | cons clause rest ih => rw [maskedAll, ih, List.map_cons]

mutual

/-- Erasing keeps even less. -/
theorem erased_masked (clause : Clause) : clause.masked.erased = clause.erased := by
  cases clause with
  | group k children => simp [masked, erased, erasedAll_maskedAll children]
  | membership field negate values => simp [masked, erased, Function.comp_def]
  | _ => rfl

theorem erasedAll_maskedAll (clauses : List Clause) :
    erasedAll (maskedAll clauses) = erasedAll clauses := by
  cases clauses with
  | nil => rfl
  | cons clause rest =>
    simp [maskedAll, erasedAll, erased_masked clause, erasedAll_maskedAll rest]

end

mutual

theorem map_masked_values (clause : Clause) :
    clause.masked.values.map Value.masked = clause.values.map Value.masked := by
  cases clause with
  | group k children => exact map_masked_valuesOfAll children
  | _ => simp [masked, values]

theorem map_masked_valuesOfAll (clauses : List Clause) :
    (valuesOfAll (maskedAll clauses)).map Value.masked =
      (valuesOfAll clauses).map Value.masked := by
  cases clauses with
  | nil => rfl
  | cons clause rest =>
    simp [maskedAll, valuesOfAll, map_masked_values clause, map_masked_valuesOfAll rest]

end

theorem masked_enclosed (clause : Clause) : clause.enclosed.masked = clause.masked.enclosed := by
  cases clause <;> simp [enclosed, masked, maskedAll]

/-- Masking does not change whether a comparison with null is a null check. -/
theorem masked_ofComparison (field : String) (comparator : Comparator) (v : Value) :
    (ofComparison field comparator v).masked = ofComparison field comparator v.masked := by
  cases v <;> cases comparator <;> rfl

end Clause

def Group.masked (g : Group) : Group := ⟨g.combinator, Clause.maskedAll g.children⟩

theorem Group.erased_masked (g : Group) : g.masked.erased = g.erased := by
  simp [masked, erased, Clause.erasedAll_maskedAll]

theorem Group.map_masked_values (g : Group) :
    g.masked.values.map Value.masked = g.values.map Value.masked :=
  Clause.map_masked_valuesOfAll g.children

namespace Reading

def masked (reading : Reading) : Reading := ⟨Clause.maskedAll reading.clauses, reading.rules⟩

theorem masked_append (a b : Reading) : (a ++ b).masked = a.masked ++ b.masked := by
  change mk _ _ = mk _ _
  simp [masked, Clause.maskedAll_eq_map]

end Reading

def Filter.masked (f : Filter) : Filter := { f with root := f.root.masked }

theorem Filter.masked_eq_iff {f g : Filter} :
    f.masked = g.masked ↔ f.root.masked = g.root.masked ∧ f.modifiers = g.modifiers := by
  rw [masked, masked, Filter.mk.injEq]

/-- Rules are not masked, so the filter of a masked reading has the modifiers of the reading. -/
theorem Reading.masked_filter (reading : Reading) :
    reading.filter.masked = reading.masked.filter := by
  simp [filter, Filter.masked, Group.masked, masked, Clause.maskedAll_eq_map,
    Function.comp_def, Clause.masked_enclosed]

/-! ### Documents -/

/-- A name that is no number and does not begin with a colon. -/
def Key.isField : Key → Bool
  | .index _ => false
  | .name s => !(Key.name s).isNumeric && !Shape.isPrefixed s

/-- Whether the item at position `i` of a value is an operand: under a field everything but the
operator of a pair, and under a number the third of three. -/
def Key.isOperand (key : Key) (value : Document) (i : Nat) : Bool :=
  match value.sequence? with
  | some items =>
    if key.isField then !(items.length == 2 && i == 0)
    else key.isNumeric && value.isTriple && i == 2
  | none => false

namespace Document

mutual

/-- The value under a key, with its operands masked. What is an operand itself is masked throughout,
and the value of a rule is left alone. -/
def maskedUnder (operand : Bool) (key : Key) : Document → Document
  | .list items =>
    if !operand && key.rule?.isSome then .list items
    else .list (maskedItems (fun i => operand || key.isOperand (.list items) i) 0 items)
  | .map entries =>
    if !operand && key.rule?.isSome then .map entries
    else .map (maskedEntries (fun i => operand || key.isOperand (.map entries) i) 0 entries)
  | .scalar v => .scalar (if operand || key.isField then v.masked else v)
  | .expression e => .expression e

/-- The items of a list from position `i` on, some of which are operands. -/
def maskedItems (operand : Nat → Bool) (i : Nat) : List Document → List Document
  | [] => []
  | item :: rest => maskedUnder (operand i) (.index i) item :: maskedItems operand (i + 1) rest

def maskedEntries (operand : Nat → Bool) (i : Nat) :
    List (Key × Document) → List (Key × Document)
  | [] => []
  | (key, value) :: rest =>
    (key, maskedUnder (operand i) key value) :: maskedEntries operand (i + 1) rest

end

/-- The document with all operands masked that it has at any depth. -/
def masked : Document → Document
  | .list items => .list (maskedItems (fun _ => false) 0 items)
  | .map entries => .map (maskedEntries (fun _ => false) 0 entries)
  | document => document

end Document

theorem Key.isField_iff {key : Key} : key.isField ↔ ∃ field, key.Names field := by
  cases key with
  | index i =>
    simp only [isField, Bool.false_eq_true, false_iff, not_exists]
    intro field names
    cases names.name
  | name s =>
    simp only [isField, Bool.and_eq_true, Bool.not_eq_true']
    constructor
    · rintro ⟨number, colon⟩
      exact ⟨s, rfl, number, colon⟩
    · rintro ⟨field, names⟩
      obtain rfl := Key.name.inj names.name
      exact ⟨names.notNumeric, names.notPrefixed⟩

/-- The key of a rule is no field. -/
theorem Key.isField_of_rule {key : Key} (h : key.rule?.isSome) : key.isField = false := by
  rw [← Bool.not_eq_true, isField_iff]
  rintro ⟨field, names⟩
  simp [names.rule?] at h

namespace Document

variable {operand : Bool} {key : Key} {value : Document}

theorem indexed_maskedItems (operand : Nat → Bool) (i : Nat) (items : List Document) :
    indexed i (maskedItems operand i items) = maskedEntries operand i (indexed i items) := by
  induction items generalizing i with
  | nil => rfl
  | cons item rest ih => simp [maskedItems, indexed, maskedEntries, ih]

/-- Masking keeps the keys, and with them whether they count up. -/
theorem positional?_maskedEntries (operand : Nat → Bool) (i : Nat)
    (entries : List (Key × Document)) :
    positional? i (maskedEntries operand i entries) =
      (positional? i entries).map (maskedItems operand i) := by
  induction entries generalizing i with
  | nil => rfl
  | cons entry rest ih =>
    obtain ⟨key, value⟩ := entry
    cases key with
    | name s => rfl
    | index k =>
      simp only [maskedEntries, positional?]
      split
      · next same =>
        subst same
        simp [ih, Function.comp_def, maskedItems]
      · rfl

@[simp] theorem isComposite_maskedUnder :
    (maskedUnder operand key value).isComposite = value.isComposite := by
  cases value with
  | list | map =>
    rw [maskedUnder]
    split <;> rfl
  | _ => rfl

theorem maskedUnder_eq_expression {e : Expression} :
    maskedUnder operand key value = .expression e ↔ value = .expression e := by
  cases value with
  | list | map =>
    rw [maskedUnder]
    split <;> simp
  | _ => simp [maskedUnder]

theorem maskedUnder_of_rule (h : key.rule?.isSome) : maskedUnder false key value = value := by
  cases value <;> simp [maskedUnder, h, Key.isField_of_rule h]

/-- What is masked has the entries of what it was, each masked as its place says. -/
theorem entries?_maskedUnder (noRule : key.rule? = none) :
    (maskedUnder operand key value).entries? =
      value.entries?.map (maskedEntries (fun i => operand || key.isOperand value i) 0) := by
  cases value with
  | list items => simp [maskedUnder, noRule, entries?, indexed_maskedItems]
  | map entries => simp [maskedUnder, noRule, entries?]
  | _ => rfl

/-- What is masked is the sequence that it was, each item masked as its place says. -/
theorem sequence?_maskedUnder (noRule : key.rule? = none) :
    (maskedUnder operand key value).sequence? =
      value.sequence?.map (maskedItems (fun i => operand || key.isOperand value i) 0) := by
  cases value with
  | list items => simp [maskedUnder, noRule, sequence?]
  | map entries => simp [maskedUnder, noRule, sequence?, positional?_maskedEntries]
  | _ => rfl

/-- A word in a sequence that is no operand stays what it is. -/
@[simp] theorem text?_maskedUnder_index (i : Nat) :
    (maskedUnder false (.index i) value).text? = value.text? := by
  cases value with
  | list | map => rfl
  | _ => rfl

theorem scalar?_maskedUnder_operand :
    (maskedUnder true key value).scalar? = value.scalar?.map Value.masked := by
  cases value with
  | list | map =>
    rw [maskedUnder]
    split <;> rfl
  | _ => rfl

theorem mapM_scalar?_maskedItems {operand : Nat → Bool} (every : ∀ i, operand i = true) (i : Nat)
    (items : List Document) :
    (maskedItems operand i items).mapM scalar? =
      (items.mapM scalar?).map (List.map Value.masked) := by
  induction items generalizing i with
  | nil => rfl
  | cons item rest ih =>
    simp only [maskedItems, List.mapM_cons, every, scalar?_maskedUnder_operand, ih]
    cases item.scalar? <;> cases rest.mapM scalar? <;> simp

theorem operands?_maskedUnder (noRule : key.rule? = none) :
    (maskedUnder true key value).operands? = value.operands?.map (List.map Value.masked) := by
  rcases value.outlines with composite | ⟨v, rfl⟩ | ⟨e, rfl⟩
  · rw [operands?_of_isComposite (by simpa using composite), operands?_of_isComposite composite,
      sequence?_maskedUnder noRule]
    cases value.sequence? with
    | none => rfl
    | some items => exact mapM_scalar?_maskedItems (fun _ => rfl) 0 items
  · rfl
  · rfl

end Document

/-- The clause of a test with a masked operand is the masked clause. -/
theorem Operator.clause?_maskedUnder (op : Operator) (field : String) (operand : Document)
    (i : Nat) :
    op.clause? field (operand.maskedUnder true (.index i)) =
      (op.clause? field operand).map Clause.masked := by
  cases op with
  | membership negate =>
    have noRule : (Key.index i).rule? = none := rfl
    rw [clause?, clause?, Document.operands?_maskedUnder noRule, Option.map_map, Option.map_map]
    rfl
  | compare comparator =>
    cases operand with
    | scalar v => simp [clause?, Document.maskedUnder, Clause.masked_ofComparison]
    | _ => rfl
  | pattern negate =>
    cases operand with
    | scalar v => rfl
    | _ => rfl
  | nullTest negate =>
    cases operand with
    | scalar v => cases v <;> rfl
    | _ => rfl

namespace Shape

variable {key : Key} {value : Document} {field : String}

/-- The parts of a shape, masked as they are in the value that has the shape. -/
def masked : Shape → Shape
  | .equality field v => .equality field v.masked
  | .pair field operator operand =>
    .pair field (operator.maskedUnder false (.index 0)) (operand.maskedUnder true (.index 1))
  | .triple field operator operand =>
    .triple (field.maskedUnder false (.index 0)) (operator.maskedUnder false (.index 1))
      (operand.maskedUnder true (.index 2))
  | shape => shape

/-- The shape under a field is masked with the value: the operand of a pair, or what the field is to
equal. -/
theorem ofField_masked (names : key.Names field) :
    ofField known field (value.maskedUnder false key) = (ofField known field value).masked := by
  have isField : key.isField := Key.isField_iff.mpr ⟨field, names⟩
  rcases value.outlines with composite | ⟨v, rfl⟩ | ⟨e, rfl⟩
  · rw [ofField_of_isComposite (by simpa using composite), ofField_of_isComposite composite,
      Document.sequence?_maskedUnder names.rule?]
    cases hs : value.sequence? with
    | none => rfl
    | some items =>
      rcases items with _ | ⟨operator, _ | ⟨operand, _ | ⟨last, rest⟩⟩⟩
      · rfl
      · rfl
      · simp [Document.maskedItems, Key.isOperand, hs, isField, masked]
      · rfl
  · simp only [Document.maskedUnder, isField, ofField]
    split <;> rfl
  · rfl

/-- The shape under a position is masked with the value: of a triple the operand, of a group
nothing. -/
theorem ofPosition_masked (number : key.isNumeric) :
    ofPosition (value.maskedUnder false key) = (ofPosition value).masked := by
  have noField : key.isField = false := by
    rw [← Bool.not_eq_true, Key.isField_iff]
    rintro ⟨field, names⟩
    simp [names.notNumeric] at number
  rw [ofPosition, ofPosition, Document.sequence?_maskedUnder (Key.rule?_of_isNumeric number),
    Document.isComposite_maskedUnder]
  cases hs : value.sequence? with
  | none =>
    dsimp only [Option.map]
    split <;> rfl
  | some items =>
    -- masking keeps what is composite, so a triple stays one and so does a group of three
    rcases items with _ | ⟨field, _ | ⟨operator, _ | ⟨operand, _ | ⟨last, rest⟩⟩⟩⟩ <;>
      simp only [Option.map, Document.maskedItems, Document.isComposite_maskedUnder] <;> split
    case cons.cons.cons.nil.isFalse outline =>
      have triple : value.isTriple := by simpa [Document.isTriple, hs] using outline
      simp [Key.isOperand, hs, noField, number, triple, masked]
    all_goals rfl

/-- Masking an entry masks the operands of its shape and keeps everything else. -/
theorem of_maskedUnder (known : Option (List String)) (key : Key) (value : Document) :
    of known key (value.maskedUnder false key) = (of known key value).masked :=
  of_natural (fun _ => rfl) (fun _ => rfl) rfl (fun _ => Document.maskedUnder_eq_expression)
    ofPosition_masked fun _ => ofField_masked

theorem masked_ne_group {shape : Shape} (h : shape ≠ .group) : shape.masked ≠ .group := by
  cases shape with
  | group => exact absurd rfl h
  | _ => simp [masked]

end Shape

/-! ### Reading -/

variable {path : Path} {key : Key} {value : Document}

/-- An operation on a masked operand is the masked operation, and is refused with the same error. -/
theorem readOperation_maskedUnder (field operator : String) (operand : Document) (i : Nat) :
    readOperation path field operator (operand.maskedUnder true (.index i)) =
      (readOperation path field operator operand).map Reading.masked := by
  rw [readOperation, readOperation]
  cases Operator.ofText? operator with
  | none => rfl
  | some op =>
    dsimp only
    rw [op.clause?_maskedUnder]
    cases op.clause? field operand <;> rfl

/-- Reading a masked shape gives the masked clause; a rule has to be left as it was. -/
theorem Shape.read_masked {value value' : Document} (shape : Shape)
    (kept : ∀ name, shape = .rule name → value' = value) :
    shape.masked.read path value' = (shape.read path value).map Reading.masked := by
  cases shape with
  | rule name =>
    obtain rfl := kept name rfl
    change (Rule.read name path value').map Reading.ofRule = _
    rw [read]
    cases Rule.read name path value' <;> rfl
  | expression e => rfl
  | equality field v =>
    change Except.ok _ = Except.ok _
    simp [Reading.masked, Reading.ofClause, Clause.maskedAll, Clause.masked_ofComparison]
  | pair field operator operand =>
    rw [masked, read, read, Document.text?_maskedUnder_index]
    cases operator.text? with
    | none => rfl
    | some operator => exact readOperation_maskedUnder ..
  | triple field operator operand =>
    rw [masked, read, read, Document.text?_maskedUnder_index, Document.text?_maskedUnder_index]
    cases field.text? with
    | none => rfl
    | some field =>
      cases operator.text? with
      | none => rfl
      | some operator => exact readOperation_maskedUnder ..
  | group => rfl
  | unknown => rfl

/-- In a group there is no operand but those in its entries. -/
theorem Key.isOperand_of_group (group : Shape.of known key value = .group) :
    key.rule? = none ∧ key.isOperand value = fun _ => false := by
  have noExpression (e : Expression) : value ≠ .expression e := by
    rintro rfl
    exact Shape.of_expression_ne_group known key e group
  have noRule : key.rule? = none := by
    rw [← Option.not_isSome_iff_eq_none, Option.isSome_iff_exists]
    rintro ⟨name, named⟩
    simp [Shape.of_rule named] at group
  have noField : key.isField = false := by
    rw [← Bool.not_eq_true, isField_iff]
    rintro ⟨field, names⟩
    rw [Shape.of_names names noExpression] at group
    exact Shape.ofField_ne_group group
  have noTriple : (key.isNumeric && value.isTriple) = false := by
    rw [← Bool.not_eq_true, Bool.and_eq_true]
    rintro ⟨number, triple⟩
    rw [Shape.of_isNumeric number noExpression] at group
    exact Shape.ofPosition_ne_group_of_isTriple triple group
  refine ⟨noRule, funext fun i => ?_⟩
  rw [isOperand]
  split
  · simp [noField, noTriple]
  · rfl

theorem readGroup_masked (inner : Except CompileError Reading) :
    readGroup path key (inner.map Reading.masked) =
      (readGroup path key inner).map Reading.masked := by
  rw [readGroup, readGroup]
  cases key.combinator path with
  | error e => rfl
  | ok k => cases inner <;> rfl

theorem readEntries_masked {entries : List (Key × Document)} (i : Nat)
    (each : ∀ entry ∈ entries,
      readEntry known (path ++ [entry.1]) entry.1 (entry.2.maskedUnder false entry.1) =
        (readEntry known (path ++ [entry.1]) entry.1 entry.2).map Reading.masked) :
    readEntries known path (Document.maskedEntries (fun _ => false) i entries) =
      (readEntries known path entries).map Reading.masked := by
  induction entries generalizing i with
  | nil => rfl
  | cons entry rest ih =>
    obtain ⟨key, value⟩ := entry
    rw [List.forall_mem_cons] at each
    rw [Document.maskedEntries, readEntries, readEntries, each.1, ih (i + 1) each.2]
    cases readEntry known (path ++ [key]) key value with
    | error e => rfl
    | ok first =>
      cases readEntries known path rest with
      | error e => rfl
      | ok later => exact congrArg Except.ok (Reading.masked_append first later).symm

/-- A masked entry is read as the entry, masked. -/
theorem readEntry_masked (value : Document) (path : Path) (key : Key) :
    readEntry known path key (value.maskedUnder false key) =
      (readEntry known path key value).map Reading.masked := by
  induction value using Document.entries_induction generalizing path key with
  | step value ih =>
    by_cases group : Shape.of known key value = .group
    · -- no entry of a group is its operand, so each is masked as it would be by itself
      obtain ⟨noRule, inside⟩ := Key.isOperand_of_group group
      rw [readEntry_eq, readEntry_eq, Shape.of_maskedUnder, group, ← readGroup_masked,
        Document.entries?_maskedUnder noRule, inside]
      cases he : value.entries? with
      | none => rfl
      | some entries =>
        exact congrArg (readGroup path key)
          (readEntries_masked 0 fun entry hm => ih entries he entry hm _ _)
    · rw [readEntry_of_shape (Shape.of_maskedUnder known key value) (Shape.masked_ne_group group),
        readEntry_of_shape rfl group]
      refine Shape.read_masked _ fun name rule => Document.maskedUnder_of_rule ?_
      rw [Shape.rule?_of_eq_rule rule, Option.isSome_some]

theorem Document.read_masked (document : Document) :
    document.masked.read known = (document.read known).map Reading.masked := by
  have entries : document.masked.entries? =
      document.entries?.map (maskedEntries (fun _ => false) 0) := by
    cases document with
    | list items => simp [masked, entries?, indexed_maskedItems]
    | _ => rfl
  rw [read, read, entries]
  cases document.entries? with
  | none => rfl
  | some entries => exact readEntries_masked 0 fun entry _ => readEntry_masked entry.2 _ entry.1

namespace Filter

/-- The filter of a masked document is the masked filter, and its error is the same. -/
theorem ofDocument_masked (document : Document) :
    ofDocument document.masked known = (ofDocument document known).map masked := by
  rw [ofDocument, ofDocument, Document.read_masked]
  cases document.read known with
  | error e => rfl
  | ok reading => exact congrArg Except.ok reading.masked_filter.symm

/-- Filters that differ only in operands make queries with the same text or fail alike. -/
theorem map_sql_query_of_masked_eq {f g : Filter} (same : f.masked = g.masked) (target : Target) :
    (f.query target).map Query.sql = (g.query target).map Query.sql := by
  obtain ⟨root, modifiers⟩ := masked_eq_iff.mp same
  have condition : f.conditionSql = g.conditionSql := by
    rw [← textOf_conditionPieces_eq, ← textOf_conditionPieces_eq]
    apply textOf_conditionPieces
    rw [← f.root.erased_masked, root, g.root.erased_masked]
  cases window : f.modifiers.window with
  | error e => rw [query_eq_error.mpr window, query_eq_error.mpr (modifiers ▸ window)]
  | ok counts =>
    have head : f.headSql target = g.headSql target := by
      simp only [headSql, selection, modifiers]
    have tail : f.tailSql counts.1 counts.2 = g.tailSql counts.1 counts.2 := by
      simp only [tailSql, groupSql, orderSql, modifiers]
    rw [query_of_window window, query_of_window (modifiers ▸ window), head, condition, tail]
    rfl

/-- Groups that are the same when masked have nulls at the same places. -/
theorem forall₂_values_of_masked_eq {g h : Group} (same : g.masked = h.masked) :
    List.Forall₂ (fun v w => v = .null ↔ w = .null) g.values h.values := by
  have paired : List.Forall₂ (· = ·) (g.values.map Value.masked) (h.values.map Value.masked) := by
    rw [List.forall₂_eq_eq_eq, ← g.map_masked_values, same, h.map_masked_values]
  rw [List.forall₂_map_left_iff, List.forall₂_map_right_iff] at paired
  refine paired.imp fun v w same => ?_
  rw [← Value.masked_eq_null, same, Value.masked_eq_null]

/-- Documents that differ only in operands are read alike, and the queries made of them differ only
in values, each in place of another that is null if it is. -/
theorem ofDocument_of_masked_eq {d d' : Document} (same : d.masked = d'.masked)
    (known : Option (List String)) :
    (∀ e, ofDocument d known = .error e ↔ ofDocument d' known = .error e) ∧
    ∀ f g, ofDocument d known = .ok f → ofDocument d' known = .ok g →
      f.modifiers = g.modifiers ∧ f.root.masked = g.root.masked ∧
      ∀ target, (f.query target).map Query.sql = (g.query target).map Query.sql ∧
        ∀ q r, f.query target = .ok q → g.query target = .ok r → q.target = r.target ∧
          List.Forall₂ (fun v w => v = .null ↔ w = .null) q.values r.values := by
  have maps : (ofDocument d known).map masked = (ofDocument d' known).map masked := by
    rw [← ofDocument_masked, ← ofDocument_masked, same]
  constructor
  · intro e
    rw [← Except.refusal?_eq_some, ← Except.refusal?_eq_some, ← Except.refusal?_map masked, maps,
      Except.refusal?_map]
  · intro f g hf hg
    rw [hf, hg] at maps
    have filters : f.masked = g.masked := Except.ok.inj maps
    obtain ⟨root, modifiers⟩ := masked_eq_iff.mp filters
    refine ⟨modifiers, root, fun target => ⟨?_, fun q r hq hr => ?_⟩⟩
    · exact map_sql_query_of_masked_eq filters target
    · obtain ⟨limit, offset, -, rfl⟩ := query_eq_ok.mp hq
      obtain ⟨limit', offset', -, rfl⟩ := query_eq_ok.mp hr
      exact ⟨rfl, forall₂_values_of_masked_eq root⟩

/-- Operands that spell operators and connectives, in a pair, in a triple, in a list and alone. -/
theorem ofDocument_of_masked_eq_sample :
    let document (a b : String) (c : Int64) : Document := .map [
      (.name "role", .scalar (.text a)),
      (.name "name", .list [.scalar (.text "like"), .scalar (.text b)]),
      (.name ":or", .list [
        .list [.scalar (.text "age"), .scalar (.text "in"),
          .list [.scalar (.int c), .scalar (.text a), .scalar .null]],
        .map [(.name "owner", .scalar .null), (.name ":limit", .scalar (.int 5))]])]
    (document "OR" ":or" 1).masked = (document "x" "NOT IN" 2).masked ∧
    ∃ f g, Filter.ofDocument (document "OR" ":or" 1) = .ok f ∧
      Filter.ofDocument (document "x" "NOT IN" 2) = .ok g ∧
      f.root.values = [.text "OR", .text ":or", .int 1, .text "OR", .null] ∧
      (f.query ⟨"users", "id"⟩).map Query.sql = (g.query ⟨"users", "id"⟩).map Query.sql := by
  intro document
  have same : (document "OR" ":or" 1).masked = (document "x" "NOT IN" 2).masked := rfl
  obtain ⟨f, hf⟩ : ∃ f, ofDocument (document "OR" ":or" 1) = .ok f := ⟨_, rfl⟩
  obtain ⟨g, hg⟩ : ∃ g, ofDocument (document "x" "NOT IN" 2) = .ok g := ⟨_, rfl⟩
  obtain ⟨modifiers, -, queries⟩ := (ofDocument_of_masked_eq same none).2 f g hf hg
  have values : f.root.values = [.text "OR", .text ":or", .int 1, .text "OR", .null] := by
    obtain rfl := Except.ok.inj hf
    rfl
  exact ⟨same, f, g, hf, hg, values, (queries _).1⟩

end Filter

end FilterQuery
