import FilterQuery.Proofs.KeyKind
import FilterQuery.Proofs.RuleGrammar

/-!
# The grammar of filter documents

Which entries a filter document may have, said without the order in which shapes are tried: query
rules, fragments of SQL, tests of a field, and groups of further entries. A fault of an entry is
what is wrong with the entry itself and not with one inside it. Main statement: an entry that opens
no group is read if it is a plain entry of the grammar, and else refused with its fault.
-/

namespace FilterQuery

/-! ### Operators and their operands -/

def Operator.Fits : Operator → Document → Prop
  | .compare _, operand | .pattern _, operand => ∃ value, operand = .scalar value
  | .membership _, operand =>
    (∃ value, operand = .scalar value) ∨
      ∃ values : List Value, operand.sequence? = some (values.map .scalar)
  | .nullTest _, operand => operand = .scalar .null

/-- What stands for the operator of a test names one, and the operand fits it. -/
def IsTest (operator operand : Document) : Prop :=
  ∃ word op, operator = .scalar (.text word) ∧ Operator.ofText? word = some op ∧ op.Fits operand

inductive TestFault (operand : Document) : Document → CompileFault → Prop
  | unnamed {operator : Document} : operator.text? = none →
    TestFault operand operator .malformedComparison
  | unknown {word : String} : Operator.ofText? word = none →
    TestFault operand (.scalar (.text word)) (.unknownOperator word)
  | unfit {word : String} {op : Operator} : Operator.ofText? word = some op → ¬ op.Fits operand →
    TestFault operand (.scalar (.text word)) .unknownShape

/-- An operator makes a clause of just the operands that fit it. -/
theorem Operator.isSome_clause? (op : Operator) (field : String) (operand : Document) :
    (op.clause? field operand).isSome ↔ op.Fits operand := by
  cases op with
  | compare comparator => cases operand <;> simp [clause?, Fits]
  | pattern negate => cases operand <;> simp [clause?, Fits]
  | nullTest negate =>
    cases operand with
    | scalar value => cases value <;> simp [clause?, Fits]
    | _ => simp [clause?, Fits]
  | membership negate =>
    rw [clause?, Option.isSome_map, Option.isSome_iff_exists]
    cases operand with
    | scalar value => simp [Fits, Document.operands?]
    | _ =>
      simp [Fits, Document.operands?, Option.bind_eq_some_iff,
        Document.mapM_eq_some Document.scalar?_eq_some]

/-- What an operation says is settled by its operator and its operand: it is read exactly where they
make a test, and otherwise refused for what is wrong with one of them. -/
theorem judges_pair (path : Path) (field : String) (operator operand value : Document) :
    Judges path ((Shape.pair field operator operand).read path value)
      (IsTest operator operand) (TestFault operand operator) := by
  refine ⟨?_, ?_, ?_⟩
  · rintro ⟨word, op, rfl, named, fits⟩
    obtain ⟨clause, hc⟩ := Option.isSome_iff_exists.mp ((op.isSome_clause? field operand).mpr fits)
    simp [Shape.read, readOperation, named, hc]
  · intro fault spoilt
    cases spoilt with
    | unnamed unnamed => simp [Shape.read, unnamed, Path.refuse]
    | unknown unknown => simp [Shape.read, readOperation, unknown, Path.refuse]
    | @unfit word op named unfit =>
      rw [← op.isSome_clause? field operand, Option.not_isSome_iff_eq_none] at unfit
      simp [Shape.read, readOperation, named, unfit, Path.refuse]
  · cases ht : operator.text? with
    | none => exact .inr ⟨_, .unnamed ht⟩
    | some word =>
      rw [Document.text?_eq_some] at ht
      subst ht
      cases named : Operator.ofText? word with
      | none => exact .inr ⟨_, .unknown named⟩
      | some op =>
        by_cases fits : op.Fits operand
        · exact .inl ⟨word, op, rfl, named, fits⟩
        · exact .inr ⟨_, .unfit named fits⟩

/-- Under a position the field stands in the list instead of the key. -/
theorem Shape.read_triple (field : String) (operator operand value : Document) :
    (Shape.triple (.scalar (.text field)) operator operand).read path value =
      (Shape.pair field operator operand).read path value := by
  cases h : operator.text? <;> simp [Shape.read, h]

/-! ### Entries -/

/-- A sequence of three, whose field and operator are no composites. -/
def Document.isTriple (value : Document) : Bool :=
  match value.sequence? with
  | some [field, operator, _] => !field.isComposite && !operator.isComposite
  | _ => false

/-- Whether an entry is a group: a composite under the key of a combinator, or under a number
unless it is a triple. -/
def Key.opens (key : Key) (value : Document) : Bool :=
  value.isComposite && (key.isConnective || key.isNumeric && !value.isTriple)

/-- The entries that are no groups. With a list of known fields, no other field may be set equal to
a scalar. -/
inductive Plain (known : Option (List String)) : Key → Document → Prop
  | rule {key : Key} {value : Document} {name : RuleName} : key.rule? = some name →
    name.Accepts value → Plain known key value
  | expression {key : Key} (e : Expression) : key.rule? = none → Plain known key (.expression e)
  | equality {key : Key} {field : String} (v : Value) : key.Names field →
    (∀ fields, known = some fields → field ∈ fields) → Plain known key (.scalar v)
  | pair {key : Key} {value : Document} {field : String} {operator operand : Document} :
    key.Names field → value.sequence? = some [operator, operand] → IsTest operator operand →
    Plain known key value
  | triple {key : Key} {value : Document} {field : String} {operator operand : Document} :
    key.isNumeric → value.sequence? = some [.scalar (.text field), operator, operand] →
    IsTest operator operand → Plain known key value

inductive WellFormed (known : Option (List String)) : Key → Document → Prop
  | plain {key : Key} {value : Document} : Plain known key value → WellFormed known key value
  | group {key : Key} {value : Document} {entries : List (Key × Document)} : key.opens value →
    value.entries? = some entries → (∀ entry ∈ entries, WellFormed known entry.1 entry.2) →
    WellFormed known key value

/-- What is wrong with an entry itself. -/
inductive Faulty (known : Option (List String)) : Key → Document → CompileFault → Prop
  | rule {key : Key} {value : Document} {name : RuleName} {fault : CompileFault} :
    key.rule? = some name → name.Refuses value fault → Faulty known key value fault
  | unknownField {key : Key} {field : String} {fields : List String} (v : Value) :
    key.Names field → known = some fields → field ∉ fields →
    Faulty known key (.scalar v) .unknownShape
  | noPair {key : Key} {value : Document} {field : String} : key.Names field → value.isComposite →
    (∀ operator operand, value.sequence? ≠ some [operator, operand]) →
    Faulty known key value .unknownShape
  | pair {key : Key} {value : Document} {field : String} {operator operand : Document}
    {fault : CompileFault} : key.Names field → value.sequence? = some [operator, operand] →
    TestFault operand operator fault → Faulty known key value fault
  | position {key : Key} (v : Value) : key.isNumeric → Faulty known key (.scalar v) .unknownShape
  | noField {key : Key} {value field operator operand : Document} : key.isNumeric →
    value.sequence? = some [field, operator, operand] → value.isTriple → field.text? = none →
    Faulty known key value .malformedComparison
  | triple {key : Key} {value : Document} {field : String} {operator operand : Document}
    {fault : CompileFault} : key.isNumeric →
    value.sequence? = some [.scalar (.text field), operator, operand] → value.isTriple →
    TestFault operand operator fault → Faulty known key value fault
  | noGroup {key : Key} (v : Value) : key.isConnective → Faulty known key (.scalar v) .unknownShape
  | unknownCombinator {s : String} {value : Document} : Shape.isPrefixed s →
    (Key.name s).rule? = none → (Key.name s).isConnective = false →
    (∀ e, value ≠ .expression e) → Faulty known (.name s) value (.unknownCombinator s)

variable {known : Option (List String)} {path : Path} {key : Key} {value : Document}

theorem ne_expression_of_isComposite (h : value.isComposite) (e : Expression) :
    value ≠ .expression e := by
  rintro rfl
  simp [Document.isComposite] at h

/-- An entry that is no group is read from its own shape, and nothing under it is walked. -/
theorem readEntry_of_shape {shape : Shape} (hs : Shape.of known key value = shape)
    (hg : shape ≠ .group) : readEntry known path key value = shape.read path value := by
  rw [readEntry_eq, hs]
  cases shape with
  | group => exact absurd rfl hg
  | _ => rfl

/-- A group is refused for its key before anything in it is looked at. -/
theorem refusal?_readEntry_of_group (hs : Shape.of known key value = .group) :
    (readEntry known path key value).refusal? = (key.combinator path).refusal?.or
      (match value.entries? with
        | some entries => (readEntries known path entries).refusal?
        | none => some ⟨path.text, .unknownShape⟩) := by
  rw [readEntry_eq, hs]
  refine (Except.refusal?_both _ _ _).trans ?_
  cases value.entries? <;> rfl

/-! Each kind of key with each outline of a value. -/

theorem refusal?_readEntry_rule {name : RuleName} (h : key.rule? = some name) :
    (readEntry known path key value).refusal? = (Rule.read name path value).refusal? := by
  rw [readEntry_of_shape (Shape.of_rule h) (by simp), Shape.read, Except.refusal?_map]

/-- Under a field, two items are an operator and its operand. -/
theorem readEntry_pair {field : String} {operator operand : Document} (h : key.Names field)
    (hs : value.sequence? = some [operator, operand]) :
    readEntry known path key value = (Shape.pair field operator operand).read path value := by
  have composite := Document.isComposite_of_sequence? hs
  refine readEntry_of_shape ?_ (by simp)
  rw [Shape.of_names h (ne_expression_of_isComposite composite)]
  cases value with
  | scalar v => simp [Document.isComposite] at composite
  | _ => simp [Shape.ofField, hs]

/-- Under a position, three items of which the first two are not composite are a field, an operator
and an operand. -/
theorem readEntry_triple {field operator operand : Document} (h : key.isNumeric)
    (hs : value.sequence? = some [field, operator, operand]) (ht : value.isTriple) :
    readEntry known path key value = (Shape.triple field operator operand).read path value := by
  have composite := Document.isComposite_of_sequence? hs
  simp only [Document.isTriple, hs, Bool.and_eq_true, Bool.not_eq_true'] at ht
  refine readEntry_of_shape ?_ (by simp)
  rw [Shape.of_isNumeric h (ne_expression_of_isComposite composite)]
  simp [Shape.ofPosition, hs, ht]

theorem Shape.ofPosition_eq_group (composite : value.isComposite)
    (noTriple : value.isTriple = false) :
    Shape.ofPosition value = .group := by
  unfold Shape.ofPosition
  split
  · next field operator operand hs =>
    apply if_pos
    simpa [Document.isTriple, hs, Decidable.or_iff_not_imp_left] using noTriple
  · exact if_pos composite

/-- An entry that is walked into has the shape of a group. -/
theorem Shape.of_opens (h : key.opens value) : Shape.of known key value = .group := by
  simp only [Key.opens, Bool.and_eq_true, Bool.or_eq_true, Bool.not_eq_true'] at h
  obtain ⟨composite, joined | ⟨number, noTriple⟩⟩ := h
  · exact Shape.of_isConnective joined (ne_expression_of_isComposite composite)
  · rw [Shape.of_isNumeric number (ne_expression_of_isComposite composite)]
    exact Shape.ofPosition_eq_group composite noTriple

/-- An entry that is walked into is read as its entries are, joined by its own connective. -/
theorem readEntry_of_opens {entries : List (Key × Document)} (path : Path)
    (opened : key.opens value) (he : value.entries? = some entries) :
    readEntry known path key value = readGroup path key (readEntries known path entries) := by
  rw [readEntry_eq, Shape.of_opens opened, he]

/-- The key of an entry that is walked into has a connective, so no group is refused for its key. -/
theorem Key.combinator_of_opens (path : Path) (h : key.opens value) :
    ∃ combinator, key.combinator path = .ok combinator := by
  simp only [Key.opens, Bool.and_eq_true, Bool.or_eq_true] at h
  rcases h.2 with joined | ⟨number, -⟩
  · exact Key.combinator_of_isConnective joined
  · exact ⟨_, Key.combinator_of_isNumeric number⟩

/-- A group that is one is refused only for what is in it. -/
theorem refusal?_readEntry_of_opens {entries : List (Key × Document)} (h : key.opens value)
    (he : value.entries? = some entries) :
    (readEntry known path key value).refusal? = (readEntries known path entries).refusal? := by
  obtain ⟨combinator, made⟩ := Key.combinator_of_opens path h
  simp [refusal?_readEntry_of_group (Shape.of_opens h), made, he]

/-- A test listed after its field has the form of a triple. -/
theorem isTriple_of_isTest {field : String} {operator operand : Document}
    (hs : value.sequence? = some [.scalar (.text field), operator, operand])
    (test : IsTest operator operand) : value.isTriple := by
  obtain ⟨word, op, rfl, -⟩ := test
  simp [Document.isTriple, hs, Document.isComposite]

theorem Shape.of_listed {field : String} (h : key.Names field) (v : Value)
    (listed : ∀ fields, known = some fields → field ∈ fields) :
    Shape.of known key (.scalar v) = .equality field v := by
  rw [Shape.of_names h (by simp)]
  cases known <;> simp_all [Shape.ofField]

theorem Shape.of_unlisted {field : String} {fields : List String} (h : key.Names field) (v : Value)
    (unlisted : field ∉ fields) : Shape.of (some fields) key (.scalar v) = .unknown := by
  rw [Shape.of_names h (by simp)]
  simp [Shape.ofField, unlisted]

theorem Shape.of_noPair {field : String} (h : key.Names field) (composite : value.isComposite)
    (noPair : ∀ operator operand, value.sequence? ≠ some [operator, operand]) :
    Shape.of known key value = .unknown := by
  rw [Shape.of_names h (ne_expression_of_isComposite composite)]
  cases value with
  | scalar v => simp [Document.isComposite] at composite
  | _ => simp only [Shape.ofField]

theorem Shape.of_position (h : key.isNumeric) (v : Value) :
    Shape.of known key (.scalar v) = .unknown := by
  rw [Shape.of_isNumeric h (by simp)]
  rfl

theorem refusal?_readEntry_of_unknown (hs : Shape.of known key value = .unknown) :
    (readEntry known path key value).refusal? = some ⟨path.text, .unknownShape⟩ := by
  rw [readEntry_of_shape hs (by simp)]
  rfl

theorem refusal?_readEntry_noGroup (h : key.isConnective) (v : Value) :
    (readEntry known path key (.scalar v)).refusal? = some ⟨path.text, .unknownShape⟩ := by
  obtain ⟨k, joined⟩ : ∃ k, key.combinator path = .ok k := Key.combinator_of_isConnective h
  rw [refusal?_readEntry_of_group (Shape.of_isConnective h (by simp)), joined]
  rfl

theorem Plain.not_opens (plain : Plain known key value) : key.opens value = false := by
  have closed (joined : ¬ key.isConnective) (other : ¬ key.isNumeric ∨ value.isTriple) :
      key.opens value = false := by
    rcases other with number | triple
    · simp [Key.opens, joined, number]
    · simp [Key.opens, joined, triple]
  cases plain with
  | rule h accepted =>
    refine closed (fun joined => ?_) (.inl fun number => ?_)
    · simp [Key.rule?_of_isConnective joined] at h
    · simp [Key.rule?_of_isNumeric number] at h
  | expression e h => rfl
  | equality v h listed => rfl
  | pair h hs test => exact closed h.not_isConnective (.inl (by simp [h.notNumeric]))
  | triple h hs test =>
    exact closed (Key.not_isConnective_of_isNumeric h) (.inr (isTriple_of_isTest hs test))

theorem accepts_of_plain (plain : Plain known key value) :
    (readEntry known path key value).refusal? = none := by
  cases plain with
  | rule h accepted =>
    rw [refusal?_readEntry_rule h]
    exact (judges_rule path _ value).accepts accepted
  | expression e h =>
    rw [readEntry_of_shape (Shape.of_expression h e) (by simp)]
    rfl
  | equality v h listed =>
    rw [readEntry_of_shape (Shape.of_listed h v listed) (by simp)]
    rfl
  | pair h hs test =>
    rw [readEntry_pair h hs]
    exact (judges_pair path _ _ _ value).accepts test
  | triple h hs test =>
    rw [readEntry_triple h hs (isTriple_of_isTest hs test), Shape.read_triple]
    exact (judges_pair path _ _ _ value).accepts test

/-- An entry with a fault is refused at its own path with that fault. -/
theorem refuses_of_faulty {fault : CompileFault} (faulty : Faulty known key value fault) :
    (readEntry known path key value).refusal? = some ⟨path.text, fault⟩ := by
  cases faulty with
  | rule h refused =>
    rw [refusal?_readEntry_rule h]
    exact (judges_rule path _ value).refuses refused
  | unknownField v h listed unlisted =>
    subst listed
    exact refusal?_readEntry_of_unknown (Shape.of_unlisted h v unlisted)
  | noPair h composite noPair =>
    exact refusal?_readEntry_of_unknown (Shape.of_noPair h composite noPair)
  | pair h hs spoilt =>
    rw [readEntry_pair h hs]
    exact (judges_pair path _ _ _ value).refuses spoilt
  | position v h => exact refusal?_readEntry_of_unknown (Shape.of_position h v)
  | noField h hs triple noField =>
    rw [readEntry_triple h hs triple]
    simp [Shape.read, noField, Path.refuse]
  | triple h hs triple spoilt =>
    rw [readEntry_triple h hs triple, Shape.read_triple]
    exact (judges_pair path _ _ _ value).refuses spoilt
  | noGroup v h => exact refusal?_readEntry_noGroup h v
  | unknownCombinator prefixed noRule unknown noExpression =>
    rw [refusal?_readEntry_of_group (Shape.of_isPrefixed noRule prefixed noExpression),
      Key.combinator_of_unknown prefixed unknown]
    rfl

theorem plain_or_faulty_of_isNumeric (h : key.isNumeric) (closed : key.opens value = false)
    (he : ∀ e, value ≠ .expression e) :
    Plain known key value ∨ ∃ fault, Faulty known key value fault := by
  by_cases composite : value.isComposite
  · simp only [Key.opens, composite, h, Bool.true_and, Bool.or_eq_false_iff,
      Bool.not_eq_false'] at closed
    have triple : value.isTriple := closed.2
    obtain ⟨field, operator, operand, hs⟩ :
        ∃ field operator operand, value.sequence? = some [field, operator, operand] := by
      unfold Document.isTriple at triple
      split at triple
      · next hs => exact ⟨_, _, _, hs⟩
      · simp at triple
    cases ht : field.text? with
    | none => exact .inr ⟨_, .noField h hs triple ht⟩
    | some name =>
      obtain rfl := Document.text?_eq_some.mp ht
      rcases (judges_pair [] name operator operand value).total with test | ⟨fault, spoilt⟩
      · exact .inl (.triple h hs test)
      · exact .inr ⟨fault, .triple h hs triple spoilt⟩
  · cases value with
    | scalar v => exact .inr ⟨_, .position v h⟩
    | expression e => exact absurd rfl (he e)
    | _ => simp [Document.isComposite] at composite

theorem plain_or_faulty_of_names {field : String} (h : key.Names field)
    (he : ∀ e, value ≠ .expression e) :
    Plain known key value ∨ ∃ fault, Faulty known key value fault := by
  by_cases composite : value.isComposite
  · by_cases pair : ∃ operator operand, value.sequence? = some [operator, operand]
    · obtain ⟨operator, operand, hs⟩ := pair
      rcases (judges_pair [] field operator operand value).total with test | ⟨fault, spoilt⟩
      · exact .inl (.pair h hs test)
      · exact .inr ⟨fault, .pair h hs spoilt⟩
    · exact .inr ⟨_, .noPair h composite fun operator operand hs => pair ⟨operator, operand, hs⟩⟩
  · cases value with
    | scalar v =>
      by_cases listed : ∀ fields, known = some fields → field ∈ fields
      · exact .inl (.equality v h listed)
      · simp only [Classical.not_forall] at listed
        obtain ⟨fields, same, unlisted⟩ := listed
        exact .inr ⟨_, .unknownField v h same unlisted⟩
    | expression e => exact absurd rfl (he e)
    | _ => simp [Document.isComposite] at composite

theorem plain_or_faulty_of_isPrefixed {s : String} (h : Shape.isPrefixed s)
    (noRule : (Key.name s).rule? = none) (closed : (Key.name s).opens value = false)
    (he : ∀ e, value ≠ .expression e) :
    Plain known (.name s) value ∨ ∃ fault, Faulty known (.name s) value fault := by
  by_cases joined : (Key.name s).isConnective
  · cases value with
    | scalar v => exact .inr ⟨_, .noGroup v joined⟩
    | expression e => exact absurd rfl (he e)
    | _ => simp [Key.opens, joined, Document.isComposite] at closed
  · exact .inr ⟨_, .unknownCombinator h noRule (by simpa using joined) he⟩

/-- An entry that is no group is one of the grammar, or has a fault of its own. -/
theorem plain_or_faulty (closed : key.opens value = false) :
    Plain known key value ∨ ∃ fault, Faulty known key value fault := by
  cases hr : key.rule? with
  | some name =>
    rcases (judges_rule [] name value).total with accepted | ⟨fault, refused⟩
    · exact .inl (.rule hr accepted)
    · exact .inr ⟨fault, .rule hr refused⟩
  | none =>
    by_cases raw : ∃ e, value = .expression e
    · obtain ⟨e, rfl⟩ := raw
      exact .inl (.expression e hr)
    · have he : ∀ e, value ≠ .expression e := fun e same => raw ⟨e, same⟩
      rcases key.kinds with number | ⟨s, rfl, prefixed⟩ | ⟨field, names⟩
      · exact plain_or_faulty_of_isNumeric number closed he
      · exact plain_or_faulty_of_isPrefixed prefixed hr closed he
      · exact plain_or_faulty_of_names names he

/-- An entry that is not walked into is read exactly where it is well formed, and otherwise refused
with its fault. -/
theorem judges_readEntry (path : Path) (closed : key.opens value = false) :
    Judges path (readEntry known path key value) (Plain known key value)
      (Faulty known key value) :=
  ⟨accepts_of_plain, refuses_of_faulty, plain_or_faulty closed⟩

end FilterQuery
