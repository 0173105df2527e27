import FilterQuery.Proofs.Gathering
import FilterQuery.Reading.InPlace

/-!
# Rules take effect in place or at the end

Reading with the modifiers at hand changes them rule by rule and item by item. Reading without them
gathers the rules, which take effect when all is read. Main statement: both come to the same filter,
or to the same error. A rule is read without regard to the modifiers, so it is the same rule however
far they have been changed before it, and the rules of two stretches of a document take effect one
after another.
-/

namespace FilterQuery

namespace InPlace

variable {α β : Type} {path : Path}

theorem ofExcept_bind_apply (outcome : Except CompileError α) (next : α → InPlace β)
    (m : Modifiers) : (ofExcept outcome >>= next) m = outcome >>= fun a => next a m := by
  cases outcome <;> rfl

/-- A rule that is read without the modifiers, and then takes effect. -/
def ofRule (outcome : Except CompileError Rule) : InPlace Unit :=
  fun m => outcome.map fun rule => ((), rule.apply m)

/-- Entries that are read without the modifiers, and then their rules take effect. -/
def ofReading (outcome : Except CompileError Reading) : InPlace (List Clause) :=
  fun m => outcome.map fun reading => (reading.clauses, reading.rules.foldl Rule.apply m)

/-! ### Rules -/

/-- Items that are read and added one by one might as well be read first and added then. -/
theorem forM_apply {f : α → Except CompileError β} {step : α → InPlace Unit}
    {add : Modifiers → β → Modifiers}
    (each : ∀ a m, step a m = (f a).map fun b => ((), add m b)) (l : List α) (m : Modifiers) :
    l.forM step m = (l.mapM f).map fun bs => ((), bs.foldl add m) := by
  induction l generalizing m with
  | nil => rfl
  | cons a l ih =>
    change (step a m >>= fun done => l.forM step done.2) = _
    rw [each, List.mapM_cons]
    cases f a with
    | error e => rfl
    | ok b =>
      change l.forM step (add m b) = Except.map _ (l.mapM f >>= _)
      rw [ih]
      cases l.mapM f <;> rfl

/-- Items added one by one make a rule, if adding all of them is what the rule does. -/
theorem forM_eq {f : α → Except CompileError β} {step : α → InPlace Unit}
    {add : Modifiers → β → Modifiers} {rule : List β → Rule}
    (adds : ∀ bs m, bs.foldl add m = (rule bs).apply m)
    (each : ∀ a m, step a m = (f a).map fun b => ((), add m b)) (l : List α) :
    l.forM step = ofRule ((l.mapM f).map rule) := by
  funext m
  rw [forM_apply each, ofRule]
  simp only [adds]
  cases l.mapM f <;> rfl

theorem ofExcept_bind_modify (outcome : Except CompileError β) (add : Modifiers → β → Modifiers)
    (m : Modifiers) :
    (ofExcept outcome >>= fun b => modify fun m => add m b) m =
      outcome.map fun b => ((), add m b) := by
  cases outcome <;> rfl

/-- Adding criteria one by one is the order rule that has them all. -/
theorem foldl_withCriterion (criteria : List Criterion) (m : Modifiers) :
    criteria.foldl Modifiers.withCriterion m = (Rule.order criteria).apply m := by
  induction criteria generalizing m with
  | nil => simp [Rule.apply]
  | cons criterion rest ih => simp [ih, Rule.apply, Modifiers.withCriterion]

theorem foldl_withColumn (columns : List String) (m : Modifiers) :
    columns.foldl Modifiers.withColumn m = (Rule.group columns).apply m := by
  induction columns generalizing m with
  | nil => simp [Rule.apply]
  | cons column rest ih => simp [ih, Rule.apply, Modifiers.withColumn]

theorem readOrder_eq (path : Path) (value : Document) :
    readOrder path value = ofRule (Rule.readOrder path value) := by
  cases ht : value.text? with
  | some field =>
    simp only [readOrder, Rule.readOrder, ht]
    rfl
  | none =>
    cases hs : value.sequence? with
    | some items =>
      simp only [readOrder, Rule.readOrder, ht, hs]
      exact forM_eq foldl_withCriterion (fun _ => ofExcept_bind_modify _ _) items
    | none =>
      cases value with
      | map entries =>
        simp only [readOrder, Rule.readOrder, ht, hs]
        exact forM_eq foldl_withCriterion (fun _ => ofExcept_bind_modify _ _) entries
      | _ =>
        simp only [readOrder, Rule.readOrder, ht, hs]
        rfl

/-- A limit rule takes effect when it is read, whatever the modifiers are then. -/
theorem readLimit_eq (path : Path) (value : Document) :
    readLimit path value = ofRule (Rule.readLimit path value) := by
  cases hv : value.scalar? with
  | some rows =>
    simp only [readLimit, Rule.readLimit, hv]
    rfl
  | none =>
    cases hs : value.sequence? with
    | none =>
      simp only [readLimit, Rule.readLimit, hv, hs]
      rfl
    | some items =>
      simp only [readLimit, Rule.readLimit, hv, hs]
      rcases items with _ | ⟨rows, _ | ⟨skip, _ | ⟨more, rest⟩⟩⟩
      · rfl
      · cases rows <;> rfl
      · cases rows <;> cases skip <;> rfl
      · cases rows <;> cases skip <;> rfl

theorem mapM_column (path : Path) (items : List Document) :
    items.mapM (column path) =
      match items.mapM Document.text? with
      | some columns => .ok columns
      | none => path.refuse .unknownShape := by
  induction items with
  | nil => rfl
  | cons item items ih =>
    rw [List.mapM_cons, List.mapM_cons, ih, column]
    cases item.text? with
    | none => rfl
    | some column => cases items.mapM Document.text? <;> rfl

theorem readGroup_eq (path : Path) (value : Document) :
    readGroup path value = ofRule (Rule.readGroup path value) := by
  cases ht : value.text? with
  | some column =>
    simp only [readGroup, Rule.readGroup, ht]
    rfl
  | none =>
    cases hs : value.sequence? with
    | none =>
      simp only [readGroup, Rule.readGroup, ht, hs]
      rfl
    | some items =>
      simp only [readGroup, Rule.readGroup, ht, hs]
      refine (forM_eq foldl_withColumn (fun _ => ofExcept_bind_modify _ _) items).trans ?_
      rw [mapM_column]
      cases items.mapM Document.text? <;> rfl

/-- A rule in place is the rule read by itself, which then takes effect. -/
theorem readRule_eq (name : RuleName) (path : Path) (value : Document) :
    readRule name path value = ofRule (Rule.read name path value) := by
  cases name with
  | order => exact readOrder_eq path value
  | limit => exact readLimit_eq path value
  | group => exact readGroup_eq path value

/-! ### Entries -/

/-- Where no rule is read none is gathered. -/
theorem rules_of_read {shape : Shape} {value : Document} {reading : Reading}
    (noRule : ∀ name, shape ≠ .rule name) (h : shape.read path value = .ok reading) :
    reading.rules = [] := by
  cases shape with
  | rule name => exact absurd rfl (noRule name)
  | expression e =>
    obtain rfl := Except.ok.inj h
    rfl
  | equality field v =>
    obtain rfl := Except.ok.inj h
    rfl
  | pair field operator operand => exact Shape.rules_pair h
  | triple field operator operand =>
    rw [Shape.read] at h
    split at h
    · exact rules_readOperation h
    · cases h
  | group => cases h
  | unknown => cases h

theorem clauses_eq {outcome : Except CompileError Reading}
    (noRules : ∀ reading, outcome = .ok reading → reading.rules = []) :
    (do
      let reading ← ofExcept outcome
      return reading.clauses) = ofReading outcome := by
  funext m
  rw [ofExcept_bind_apply, ofReading]
  cases outcome with
  | error e => rfl
  | ok reading =>
    rw [Except.map, noRules reading rfl]
    rfl

/-- An entry in place has the clauses of the entry read by itself, and its rules take effect. -/
theorem entry_eq (known : Option (List String)) (path : Path) (key : Key) (value : Document)
    (inner : Except CompileError Reading) :
    entry known path key value (ofReading inner) =
      ofReading (match Shape.of known key value with
        | .group => FilterQuery.readGroup path key inner
        | shape => shape.read path value) := by
  unfold entry
  cases shape : Shape.of known key value with
  | rule name =>
    funext m
    simp only [readRule_eq, Shape.read]
    change (ofRule (Rule.read name path value) m >>= _) = _
    unfold ofRule
    cases Rule.read name path value <;> rfl
  | group =>
    funext m
    simp only [ofExcept_bind_apply, FilterQuery.readGroup]
    cases key.combinator path with
    | error e => rfl
    | ok combinator => cases inner <;> rfl
  | _ => exact clauses_eq fun reading => rules_of_read (by rintro _ ⟨⟩)

/-- The rules of two stretches take effect one after another. -/
theorem both_ofReading (first later : Except CompileError Reading) :
    Traversal.both (ofReading first) (ofReading later) =
      ofReading (Traversal.both first later) := by
  funext m
  cases first with
  | error e => rfl
  | ok front =>
    cases later with
    | error e => rfl
    | ok back =>
      change Except.ok (front.clauses ++ back.clauses, _) = Except.ok (_, _)
      simp [List.foldl_append]

/-- With the modifiers at hand the reading goes the same way. -/
theorem traversal_eq (known : Option (List String)) :
    Traversal.Related (fun walk outcome => walk = ofReading outcome) (traversal known)
      (Reading.traversal known) where
  leaf _ := rfl
  empty := rfl
  entry path key value := by
    rintro _ inner rfl
    exact entry_eq known path key value inner
  both := by
    rintro _ first _ later rfl rfl
    exact both_ofReading first later

end InPlace

/-- Whether rules take effect where they stand or at the end, the filter is the same. -/
theorem Document.filterInPlace_eq (known : Option (List String)) (document : Document) :
    document.filterInPlace known = Filter.ofDocument document known := by
  rw [filterInPlace, (InPlace.traversal_eq known).read, Reading.read_traversal, Filter.ofDocument,
    InPlace.ofReading]
  cases document.read known <;> rfl

end FilterQuery
