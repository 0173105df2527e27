import FilterQuery.Proofs.Refusal

/-!
# The grammar of query rules

What may stand under the keys of the rules, and what is quoted of a value that may not. Main
statement: a rule is read if its value is one that it takes, and else refused with the fault of the
value.
-/

namespace FilterQuery

namespace Document

theorem scalar?_eq_some {document : Document} {value : Value} :
    document.scalar? = some value ↔ document = .scalar value := by
  cases document <;> simp [scalar?]

@[simp] theorem text?_text (s : String) : (scalar (.text s)).text? = some s := rfl

/-- Nothing but a scalar is read as a text. -/
theorem text?_eq_some {document : Document} {s : String} :
    document.text? = some s ↔ document = .scalar (.text s) := by
  constructor
  · unfold text?
    split
    · rintro ⟨⟩; rfl
    · simp
  · rintro rfl; rfl

theorem text?_eq_none {document : Document} :
    document.text? = none ↔ ∀ s, document ≠ .scalar (.text s) := by
  simp [Option.eq_none_iff_forall_ne_some, text?_eq_some]

theorem text?_of_sequence? {document : Document} {items : List Document}
    (h : document.sequence? = some items) : document.text? = none := by
  cases document with
  | list items => rfl
  | map entries => rfl
  | _ => simp [sequence?] at h

theorem scalar?_of_sequence? {document : Document} {items : List Document}
    (h : document.sequence? = some items) : document.scalar? = none := by
  cases document with
  | list items => rfl
  | map entries => rfl
  | _ => simp [sequence?] at h

/-- A sequence is a composite, be it written as a list or as a map. -/
theorem isComposite_of_sequence? {document : Document} {items : List Document}
    (h : document.sequence? = some items) : document.isComposite := by
  cases document with
  | list items => rfl
  | map entries => rfl
  | _ => simp [sequence?] at h

/-- The entries of a sequence are its items under their positions. -/
theorem entries?_of_sequence? {document : Document} {items : List Document}
    (h : document.sequence? = some items) : document.entries? = some (indexed 0 items) := by
  cases document with
  | list items' =>
    obtain rfl := Option.some.inj h
    rfl
  | map entries => rw [indexed_of_positional? h, entries?]
  | _ => cases h

theorem sequence?_of_not_isComposite {document : Document} (h : document.isComposite = false) :
    document.sequence? = none := by
  cases hs : document.sequence? with
  | none => rfl
  | some items => simp [isComposite_of_sequence? hs] at h

/-- Items that are all read by the inverse of a constructor are made by the constructor. -/
theorem mapM_eq_some {α : Type} {read : Document → Option α} {make : α → Document}
    (h : ∀ {document a}, read document = some a ↔ document = make a) {items : List Document}
    {l : List α} : items.mapM read = some l ↔ items = l.map make := by
  induction items generalizing l with
  | nil => cases l <;> simp
  | cons item rest ih =>
    cases l with
    | nil => simp [List.mapM_cons, Option.bind_eq_some_iff]
    | cons a l => simp [List.mapM_cons, Option.bind_eq_some_iff, h, ih]

def IsDirection (document : Document) : Prop :=
  ∃ word way, document = .scalar (.text word) ∧ Direction.ofText? word = some way

/-- A field alone, or a field with a direction. -/
def IsCriterion (item : Document) : Prop :=
  (∃ field, item = .scalar (.text field)) ∨
    ∃ field way, item.sequence? = some [.scalar (.text field), way] ∧ way.IsDirection

/-- What is quoted of an item that is no criterion. -/
inductive CriterionSpoiltBy (item : Document) : Document → Prop
  | direction {field : String} {way : Document} :
    item.sequence? = some [.scalar (.text field), way] → ¬ way.IsDirection →
    CriterionSpoiltBy item way
  | outline : (∀ field, item ≠ .scalar (.text field)) →
    (∀ field way, item.sequence? ≠ some [.scalar (.text field), way]) →
    CriterionSpoiltBy item item

/-- An entry of an order that is a map. -/
def IsNamedDirection (entry : Key × Document) : Prop :=
  (∃ field, entry.1 = .name field) ∧ entry.2.IsDirection

/-- What is quoted of a value that is no order. -/
inductive OrderSpoiltBy (value : Document) : Document → Prop
  | item {items : List Document} {item part : Document} : value.sequence? = some items →
    ReachedIn IsCriterion items item → item.CriterionSpoiltBy part → OrderSpoiltBy value part
  | direction {entries : List (Key × Document)} {field : String} {way : Document} :
    value = .map entries → value.sequence? = none →
    ReachedIn IsNamedDirection entries (.name field, way) → ¬ way.IsDirection →
    OrderSpoiltBy value way
  | position {entries : List (Key × Document)} {i : Nat} {way : Document} :
    value = .map entries → value.sequence? = none →
    ReachedIn IsNamedDirection entries (.index i, way) → OrderSpoiltBy value value
  | outline : value.text? = none → value.isComposite = false → OrderSpoiltBy value value

end Document

/-- The values that a rule takes. -/
inductive RuleName.Accepts : RuleName → Document → Prop
  | field (field : String) : Accepts .order (.scalar (.text field))
  | criteria {value : Document} {items : List Document} : value.sequence? = some items →
    (∀ item ∈ items, item.IsCriterion) → Accepts .order value
  | directions {entries : List (Key × Document)} :
    (∀ entry ∈ entries, Document.IsNamedDirection entry) → Accepts .order (.map entries)
  | rows (rows : Value) : Accepts .limit (.scalar rows)
  | onlyRows {value : Document} {rows : Value} : value.sequence? = some [.scalar rows] →
    Accepts .limit value
  | rowsAndSkip {value : Document} {rows skip : Value} :
    value.sequence? = some [.scalar rows, .scalar skip] → Accepts .limit value
  | column (column : String) : Accepts .group (.scalar (.text column))
  | columns {value : Document} {columns : List String} :
    value.sequence? = some (columns.map fun column => .scalar (.text column)) →
    Accepts .group value

inductive RuleName.Refuses : RuleName → Document → CompileFault → Prop
  | order {value part : Document} : value.OrderSpoiltBy part →
    Refuses .order value (.invalidOrder part.describe)
  | limit {value : Document} : ¬ RuleName.Accepts .limit value →
    Refuses .limit value (.invalidLimit value.describe)
  | group {value : Document} : ¬ RuleName.Accepts .group value →
    Refuses .group value .unknownShape

/-- A direction is refused by itself. -/
theorem judges_direction (path : Path) (way : Document) :
    Judges path (Rule.direction path way) way.IsDirection
      fun fault => ¬ way.IsDirection ∧ fault = .invalidOrder way.describe := by
  have known : way.IsDirection ↔
      ∃ direction, way.text?.bind Direction.ofText? = some direction := by
    simp only [Option.bind_eq_some_iff, Document.text?_eq_some]
    exact exists_comm
  apply Judges.single
  rw [known, Rule.direction]
  cases way.text?.bind Direction.ofText? <;> simp

/-- An item of an order is refused by itself, or by its direction if that is to blame. -/
theorem judges_criterion (path : Path) (item : Document) :
    Judges path (Rule.criterion path item) item.IsCriterion
      fun fault => ∃ part, item.CriterionSpoiltBy part ∧ fault = .invalidOrder part.describe := by
  refine ⟨?_, ?_, ?_⟩
  · rintro (⟨field, rfl⟩ | ⟨field, way, pair, hd⟩)
    · rfl
    · simp [Rule.criterion, Document.text?_of_sequence? pair, pair,
        (judges_direction path way).accepts hd]
  · rintro _ ⟨part, spoilt, rfl⟩
    cases spoilt with
    | direction pair hd =>
      simp [Rule.criterion, Document.text?_of_sequence? pair, pair,
        (judges_direction path part).refuses ⟨hd, rfl⟩]
    | outline noText noPair =>
      have refused : Rule.criterion path item = path.refuse (.invalidOrder item.describe) := by
        rw [Rule.criterion, Document.text?_eq_none.mpr noText]
        cases hs : item.sequence? with
        | none => rfl
        | some items =>
          match items with
          | [] | [_] | _ :: _ :: _ :: _ => rfl
          | [field, way] =>
            cases hf : field.text? with
            | none => simp [hf, Path.refuse]
            | some word =>
              rw [Document.text?_eq_some.mp hf] at hs
              exact absurd hs (noPair word way)
      rw [refused]
      rfl
  · cases ht : item.text? with
    | some field => exact .inl (.inl ⟨field, Document.text?_eq_some.mp ht⟩)
    | none =>
      by_cases pair : ∃ field way, item.sequence? = some [.scalar (.text field), way]
      · obtain ⟨field, way, pair⟩ := pair
        by_cases hd : way.IsDirection
        · exact .inl (.inr ⟨field, way, pair, hd⟩)
        · exact .inr ⟨_, way, .direction pair hd, rfl⟩
      · refine .inr ⟨_, item, .outline ?_ ?_, rfl⟩
        · rintro field rfl
          simp at ht
        · exact fun field way h => pair ⟨field, way, h⟩

/-- An entry of an order is refused by its direction, and under a position by the whole order. -/
theorem judges_mappedCriterion (path : Path) (whole : Document) (entry : Key × Document) :
    Judges path (Rule.mappedCriterion path whole entry) (Document.IsNamedDirection entry)
      fun fault =>
        (∃ field, entry.1 = .name field ∧ ¬ entry.2.IsDirection ∧
          fault = .invalidOrder entry.2.describe) ∨
        (∃ i, entry.1 = .index i ∧ fault = .invalidOrder whole.describe) := by
  obtain ⟨key, way⟩ := entry
  cases key with
  | index i =>
    simp only [Document.IsNamedDirection]
    refine ⟨by simp, ?_, .inr ⟨_, .inr ⟨i, rfl, rfl⟩⟩⟩
    simp [Rule.mappedCriterion, Key.name?]
  | name field =>
    have inner := judges_direction path way
    refine ⟨fun h => ?_, ?_, ?_⟩
    · simp [Rule.mappedCriterion, Key.name?, inner.accepts h.2]
    · rintro _ (⟨_, -, hd, rfl⟩ | ⟨i, hi, -⟩)
      · simp [Rule.mappedCriterion, Key.name?, inner.refuses ⟨hd, rfl⟩]
      · simp at hi
    · by_cases hd : way.IsDirection
      · exact .inl ⟨⟨field, rfl⟩, hd⟩
      · exact .inr ⟨_, .inl ⟨field, rfl, hd, rfl⟩⟩

namespace Document

/-- No order but the empty one is a sequence and a map to directions. -/
theorem eq_nil_of_named {entries : List (Key × Document)} {items : List Document}
    (h : ∀ entry ∈ entries, IsNamedDirection entry)
    (hs : (map entries).sequence? = some items) : items = [] := by
  cases entries with
  | nil => simpa [sequence?, positional?] using hs.symm
  | cons entry rest =>
    obtain ⟨key, way⟩ := entry
    obtain ⟨⟨field, rfl⟩, -⟩ := h (key, way) List.mem_cons_self
    simp [sequence?, positional?] at hs

end Document

variable {path : Path} {value : Document}

/-- An order in a sequence is accepted item by item. -/
theorem judges_order_of_sequence {items : List Document} (hs : value.sequence? = some items) :
    Judges path (Rule.readOrder path value) (RuleName.Accepts .order value)
      (RuleName.Refuses .order value) := by
  have read : Rule.readOrder path value = (items.mapM (Rule.criterion path)).map .order := by
    simp [Rule.readOrder, Document.text?_of_sequence? hs, hs]
  have each := (Judges.each (judges_criterion path) items).map Rule.order
  rw [read]
  refine ⟨?_, ?_, ?_⟩
  · intro accepted
    cases accepted with
    | field field => simp [Document.sequence?] at hs
    | criteria hs' all =>
      obtain rfl := Option.some_inj.mp (hs.symm.trans hs')
      exact each.accepts all
    | directions all =>
      -- read as a sequence all the same, but there is nothing in it
      obtain rfl := Document.eq_nil_of_named all hs
      rfl
  · rintro _ ⟨spoilt⟩
    cases spoilt with
    | item hs' reached spoilt =>
      obtain rfl := Option.some_inj.mp (hs.symm.trans hs')
      exact each.refuses ⟨_, reached, _, spoilt, rfl⟩
    | direction _ noSequence | position _ noSequence => simp [noSequence] at hs
    | outline _ notComposite => simp [Document.isComposite_of_sequence? hs] at notComposite
  · rcases each.total with all | ⟨_, item, reached, part, spoilt, rfl⟩
    · exact .inl (.criteria hs all)
    · exact .inr ⟨_, .order (.item hs reached spoilt)⟩

/-- An order in a map is accepted entry by entry. -/
theorem judges_order_of_map {entries : List (Key × Document)}
    (hs : (Document.map entries).sequence? = none) :
    Judges path (Rule.readOrder path (.map entries)) (RuleName.Accepts .order (.map entries))
      (RuleName.Refuses .order (.map entries)) := by
  have read : Rule.readOrder path (.map entries) =
      (entries.mapM (Rule.mappedCriterion path (.map entries))).map .order := by
    simp [Rule.readOrder, Document.text?, hs]
  have each := (Judges.each (judges_mappedCriterion path (.map entries)) entries).map Rule.order
  rw [read]
  refine ⟨?_, ?_, ?_⟩
  · intro accepted
    cases accepted with
    | criteria hs' => simp [hs] at hs'
    | directions all => exact each.accepts all
  · rintro _ ⟨spoilt⟩
    cases spoilt with
    | item hs' => simp [hs] at hs'
    | direction same _ reached hd =>
      cases same
      exact each.refuses ⟨_, reached, .inl ⟨_, rfl, hd, rfl⟩⟩
    | position same _ reached =>
      cases same
      exact each.refuses ⟨_, reached, .inr ⟨_, rfl, rfl⟩⟩
    | outline _ notComposite => simp [Document.isComposite] at notComposite
  · rcases each.total with all | ⟨_, ⟨key, way⟩, reached, spoilt⟩
    · exact .inl (.directions all)
    · rcases spoilt with ⟨field, rfl, hd, rfl⟩ | ⟨i, rfl, rfl⟩
      · exact .inr ⟨_, .order (.direction rfl hs reached hd)⟩
      · exact .inr ⟨_, .order (.position rfl hs reached)⟩

/-- An order that is no composite is the name of one field. -/
theorem judges_order_of_bare (ht : value.text? = none) (hc : value.isComposite = false) :
    Judges path (Rule.readOrder path value) (RuleName.Accepts .order value)
      (RuleName.Refuses .order value) := by
  have hs := Document.sequence?_of_not_isComposite hc
  have read : Rule.readOrder path value = path.refuse (.invalidOrder value.describe) := by
    cases value with
    | list items => simp [Document.isComposite] at hc
    | map entries => simp [Document.isComposite] at hc
    | _ => simp [Rule.readOrder, ht, hs, Path.refuse]
  rw [read]
  refine ⟨?_, ?_, .inr ⟨_, .order (.outline ht hc)⟩⟩
  · intro accepted
    cases accepted with
    | field field => simp at ht
    | criteria hs' => simp [hs] at hs'
    | directions _ => simp [Document.isComposite] at hc
  · rintro _ ⟨spoilt⟩
    cases spoilt with
    | item hs' => simp [hs] at hs'
    | direction same | position same => simp [same, Document.isComposite] at hc
    | outline => rfl

/-- Orders are accepted and refused by their grammar. -/
theorem judges_order (path : Path) (value : Document) :
    Judges path (Rule.readOrder path value) (RuleName.Accepts .order value)
      (RuleName.Refuses .order value) := by
  cases hs : value.sequence? with
  | some items => exact judges_order_of_sequence hs
  | none =>
    cases value with
    | list items => simp [Document.sequence?] at hs
    | map entries => exact judges_order_of_map hs
    | expression e => exact judges_order_of_bare rfl rfl
    | scalar v =>
      cases ht : (Document.scalar v).text? with
      | none => exact judges_order_of_bare ht rfl
      | some field =>
        rw [Document.text?_eq_some.mp ht]
        refine ⟨fun _ => rfl, ?_, .inl (.field field)⟩
        rintro _ ⟨spoilt⟩
        cases spoilt with
        | item hs' => simp [Document.sequence?] at hs'
        | direction same | position same => simp at same
        | outline noText => simp at noText

theorem judges_limit (path : Path) (value : Document) :
    Judges path (Rule.readLimit path value) (RuleName.Accepts .limit value)
      (RuleName.Refuses .limit value) := by
  refine ⟨?_, ?_, ?_⟩
  · intro accepted
    cases accepted with
    | rows rows => rfl
    | onlyRows h | rowsAndSkip h =>
      simp [Rule.readLimit, Document.scalar?_of_sequence? h, h]
  · intro fault refused
    obtain ⟨unfit, rfl⟩ :
        ¬ RuleName.Accepts .limit value ∧ fault = .invalidLimit value.describe := by
      cases refused with
      | limit unfit => exact ⟨unfit, rfl⟩
    unfold Rule.readLimit
    split
    · next rows h =>
      obtain rfl := Document.scalar?_eq_some.mp h
      exact absurd (.rows rows) unfit
    · next h => exact absurd (.onlyRows h) unfit
    · next h => exact absurd (.rowsAndSkip h) unfit
    · rfl
  · by_cases fit : RuleName.Accepts .limit value
    · exact .inl fit
    · exact .inr ⟨_, .limit fit⟩

theorem judges_group (path : Path) (value : Document) :
    Judges path (Rule.readGroup path value) (RuleName.Accepts .group value)
      (RuleName.Refuses .group value) := by
  have texts {items columns} : List.mapM Document.text? items = some columns ↔
      items = columns.map fun column => Document.scalar (.text column) :=
    Document.mapM_eq_some Document.text?_eq_some
  refine ⟨?_, ?_, ?_⟩
  · intro accepted
    cases accepted with
    | column column => rfl
    | columns h => simp [Rule.readGroup, Document.text?_of_sequence? h, h, texts.mpr rfl]
  · intro fault refused
    obtain ⟨unfit, rfl⟩ : ¬ RuleName.Accepts .group value ∧ fault = .unknownShape := by
      cases refused with
      | group unfit => exact ⟨unfit, rfl⟩
    unfold Rule.readGroup
    split
    · next column h =>
      obtain rfl := Document.text?_eq_some.mp h
      exact absurd (.column column) unfit
    · next items h =>
      split
      · next columns all =>
        rw [texts.mp all] at h
        exact absurd (.columns h) unfit
      · rfl
    · rfl
  · by_cases fit : RuleName.Accepts .group value
    · exact .inl fit
    · exact .inr ⟨_, .group fit⟩

/-- Every rule is accepted and refused by its grammar. -/
theorem judges_rule (path : Path) (name : RuleName) (value : Document) :
    Judges path (Rule.read name path value) (name.Accepts value) (name.Refuses value) := by
  cases name with
  | order => exact judges_order path value
  | limit => exact judges_limit path value
  | group => exact judges_group path value

end FilterQuery
