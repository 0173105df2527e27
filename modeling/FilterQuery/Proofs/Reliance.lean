import FilterQuery.Proofs.Outline
import FilterQuery.Proofs.Work
import FilterQuery.Reading.Walk

/-!
# What reading relies on

A reader that walks a document on trust looks its parts up where the kinds of the entries have
them. Each kind promises something of the key and the value, and with these promises kept, by
whatever settles the kinds, the walk is steady: no item is looked up beyond the end of a sequence,
and no arm is taken for an entry that is not what its kind says.

The kinds come from tests that repeat what a shape sees in an entry, so every kind keeps its
promise. Main statement: the walk is steady on every document and comes to the filter, or to the
error, that reading by shapes comes to.
-/

namespace FilterQuery

/-! ### Letters -/

namespace Text

/-- Where no Kelvin sign comes out of small letters of ASCII, none of the text was one. -/
theorem lower_of_asciiLower {cs w : List Char} (h : asciiLower cs = w)
    (plain : ∀ c ∈ w, c.toNat ≠ 0x212A) : lower cs = w := by
  subst h
  induction cs with
  | nil => rfl
  | cons c cs ih =>
    rw [asciiLower, List.map_cons, List.forall_mem_cons] at plain
    -- beside the capital letters of ASCII, only the Kelvin sign is made small
    have here : lowerForm c = [c.toLower] := by
      by_cases capital : c.isUpper
      · rw [lowerForm, if_pos capital]
      · have same : c.toLower = c := dif_neg fun range => capital (decide_eq_true range)
        rw [same] at plain ⊢
        rw [lowerForm, if_neg capital, if_neg plain.1]
    have step : lower (c :: cs) = lowerForm c ++ lower cs := rfl
    rw [step, here, ih plain.2]
    rfl

end Text

/-- A rule that is found by the letters of ASCII is found by all letters too. -/
theorem RuleName.ofLower?_of_ofKey? {key : String} {name : RuleName}
    (h : RuleName.ofKey? key = some name) : RuleName.ofLower? key = some name := by
  unfold RuleName.ofKey? at h
  split at h
  · next e =>
    rw [RuleName.ofLower?, Text.lower_of_asciiLower e (by simp)]
    exact h
  · next e =>
    rw [RuleName.ofLower?, Text.lower_of_asciiLower e (by simp)]
    exact h
  · next e =>
    rw [RuleName.ofLower?, Text.lower_of_asciiLower e (by simp)]
    exact h
  · cases h

/-- The key of a rule names the same rule when it is made small as a whole. -/
theorem RuleName.ofLower?_of_rule? {key : Key} {name : RuleName} (h : key.rule? = some name) :
    RuleName.ofLower? key.text = some name := by
  cases key with
  | index i => cases h
  | name s => exact ofLower?_of_ofKey? h

/-! ### Shapes and kinds -/

def Shape.kind : Shape → Kind
  | .rule _ => .rule
  | .expression _ => .expression
  | .equality _ _ => .equality
  | .pair _ _ _ => .pair
  | .triple _ _ _ => .triple
  | .group => .group
  | .unknown => .unknown

/-- The parts of a shape are where the entry has them. -/
def Shape.FoundIn (key : Key) (value : Document) : Shape → Prop
  | .rule name => key.rule? = some name
  | .expression e => value = .expression e
  | .equality field v => key = .name field ∧ value = .scalar v
  | .pair field operator operand =>
    key = .name field ∧ value.sequence? = some [operator, operand]
  | .triple field operator operand => value.sequence? = some [field, operator, operand]
  | .group => ∀ name, key = .name name → key.isNumeric = false → Shape.isPrefixed name
  | .unknown => True

/-- What a kind says of the key and the value of an entry. -/
def Kind.Promises (key : Key) (value : Document) : Kind → Prop
  | .rule => ∃ name, RuleName.ofLower? key.text = some name
  | .expression => ∃ e, value = .expression e
  | .equality => (∃ v, value = .scalar v) ∧ ∃ name, key = .name name
  | .pair => ∃ items, value.sequence? = some items ∧ items.length = 2
  | .triple => ∃ items, value.sequence? = some items ∧ items.length = 3
  | .group => ∀ name, key = .name name → key.isNumeric = false → Shape.isPrefixed name
  | .unknown => True

variable {known : Option (List String)} {key : Key} {value : Document}

namespace Shape

theorem foundIn_ofPosition (number : key.isNumeric) : (ofPosition value).FoundIn key value := by
  have group : FoundIn key value .group := by
    intro name _ notNumeric
    rw [number] at notNumeric
    cases notNumeric
  unfold ofPosition
  split
  · next hs =>
    split
    · exact group
    · exact hs
  · split
    · exact group
    · trivial

theorem foundIn_ofField (field : String) :
    (ofField known field value).FoundIn (.name field) value := by
  unfold ofField
  split
  · split
    · exact ⟨rfl, rfl⟩
    · trivial
  · split
    · next hs => exact ⟨rfl, hs⟩
    · trivial

/-- What the shape of an entry holds is in the entry, so it can be looked up there again. -/
theorem foundIn_of (known : Option (List String)) (key : Key) (value : Document) :
    (of known key value).FoundIn key value := by
  unfold of
  split
  · next h => exact h
  · rfl
  · split
    · exact foundIn_ofPosition rfl
    · split
      · next number => exact foundIn_ofPosition number
      · split
        · next colon =>
          rintro _ ⟨⟩ -
          exact colon
        · exact foundIn_ofField _

end Shape

/-! The tests of a kind are those of the shape. -/

namespace Key

theorem any_ofKey? (key : Key) :
    (key.name?.any fun name => (RuleName.ofKey? name).isSome) = key.rule?.isSome := by
  cases key <;> rfl

theorem field?_of_isNumeric (number : key.isNumeric) : key.field? = none := by
  simp [field?, number]

theorem field?_of_isPrefixed {s : String} (colon : Shape.isPrefixed s) :
    (Key.name s).field? = none := by
  simp [field?, name?, colon]

theorem Names.field? {field : String} (names : key.Names field) : key.field? = some field := by
  obtain ⟨rfl, notNumeric, notPrefixed⟩ := names
  simp [Key.field?, name?, notNumeric, notPrefixed]

/-- A number does not begin with a colon. -/
theorem any_isPrefixed_of_isNumeric (number : key.isNumeric) :
    key.name?.any Shape.isPrefixed = false := by
  cases key with
  | index i => rfl
  | name s =>
    by_contra colon
    simp only [name?, Option.any_some, Bool.not_eq_false] at colon
    simp [not_isNumeric_of_isPrefixed colon] at number

end Key

namespace Kind

theorem any_isTriple (value : Document) : value.sequence?.any isTriple = value.isTriple := by
  unfold Document.isTriple
  split
  · next hs => rw [hs]; rfl
  · next other =>
    cases hs : value.sequence? with
    | none => rfl
    | some items =>
      refine dif_neg fun three => ?_
      obtain ⟨field, operator, operand, rfl⟩ := List.length_eq_three.mp three
      exact other field operator operand hs

theorem of_rule {name : RuleName} (h : key.rule? = some name) : of known key value = .rule := by
  simp [of, Key.any_ofKey?, h]

theorem of_expression (h : key.rule? = none) (e : Expression) :
    of known key (.expression e) = .expression := by
  simp [of, Key.any_ofKey?, h, Document.isExpression]

theorem of_isNumeric (number : key.isNumeric) (he : value.isExpression = false) :
    of known key value =
      if value.sequence?.any isTriple then .triple
      else if value.isComposite then .group else .unknown := by
  simp [of, Key.any_ofKey?, Key.rule?_of_isNumeric number, he, Key.field?_of_isNumeric number,
    Key.any_isPrefixed_of_isNumeric number, number]

theorem of_isPrefixed {s : String} (noRule : (Key.name s).rule? = none) (h : Shape.isPrefixed s)
    (he : value.isExpression = false) : of known (.name s) value = .group := by
  have colon : (Key.name s).name?.any Shape.isPrefixed := h
  simp [of, Key.any_ofKey?, noRule, he, Key.field?_of_isPrefixed h, colon,
    Key.not_isNumeric_of_isPrefixed h]

theorem of_names {field : String} (names : key.Names field) (he : value.isExpression = false) :
    of known key value =
      if value.scalar?.isSome && known.all (·.contains field) then .equality
      else if value.sequence?.any (·.length == 2) then .pair else .unknown := by
  have plain : key.name?.any Shape.isPrefixed = false := by
    rw [names.name]
    exact names.notPrefixed
  simp [of, Key.any_ofKey?, names.rule?, he, names.field?, names.notNumeric, plain]

end Kind

namespace Shape

theorem kind_ofPosition (value : Document) :
    (ofPosition value).kind =
      if value.sequence?.any Kind.isTriple then .triple
      else if value.isComposite then .group else .unknown := by
  rw [Kind.any_isTriple]
  cases triple : value.isTriple with
  | true =>
    unfold Document.isTriple at triple
    split at triple
    · next hs =>
      simp only [Bool.and_eq_true, Bool.not_eq_true'] at triple
      simp [ofPosition, hs, triple, kind]
    · cases triple
  | false =>
    cases composite : value.isComposite with
    | true => rw [ofPosition_eq_group composite triple]; rfl
    | false => simp [ofPosition, Document.sequence?_of_not_isComposite composite, composite, kind]

/-- A composite under a field is a pair by its length alone. -/
theorem kind_ofField_of_isComposite (field : String) (composite : value.isComposite) :
    (ofField known field value).kind =
      if value.sequence?.any (·.length == 2) then .pair else .unknown := by
  rw [ofField_of_isComposite composite]
  split
  · next hs => simp [hs, kind]
  · next other =>
    have test : value.sequence?.any (·.length == 2) = false := by
      cases hs : value.sequence? with
      | none => rfl
      | some items =>
        by_contra two
        obtain ⟨operator, operand, rfl⟩ := List.length_eq_two.mp (by simpa using two)
        exact other operator operand hs
    simp [test, kind]

theorem kind_ofField (field : String) (value : Document) :
    (ofField known field value).kind =
      if value.scalar?.isSome && known.all (·.contains field) then .equality
      else if value.sequence?.any (·.length == 2) then .pair else .unknown := by
  cases value with
  | scalar v =>
    simp only [ofField, Document.scalar?, Document.sequence?, Option.isSome_some, Bool.true_and]
    split <;> rfl
  | expression e => rfl
  | list items => exact kind_ofField_of_isComposite field rfl
  | map entries => exact kind_ofField_of_isComposite field rfl

/-- The kind that the tests settle is the kind of the shape. -/
theorem kind_of (known : Option (List String)) (key : Key) (value : Document) :
    (of known key value).kind = Kind.of known key value := by
  -- in the order of the tests: rules, raw SQL, and then what key it is
  cases hr : key.rule? with
  | some name => rw [of_rule hr, Kind.of_rule hr, kind]
  | none =>
    by_cases raw : ∃ e, value = .expression e
    · obtain ⟨e, rfl⟩ := raw
      rw [of_expression hr, Kind.of_expression hr, kind]
    · have he : ∀ e, value ≠ .expression e := fun e same => raw ⟨e, same⟩
      have plain : value.isExpression = false := by
        cases value with
        | expression e => exact absurd rfl (he e)
        | _ => rfl
      rcases key.kinds with number | ⟨s, rfl, colon⟩ | ⟨field, names⟩
      · rw [of_isNumeric number he, Kind.of_isNumeric number plain, kind_ofPosition]
      · rw [of_isPrefixed hr colon he, Kind.of_isPrefixed hr colon plain, kind]
      · rw [of_names names he, Kind.of_names names plain, kind_ofField]

end Shape

/-- A kind keeps its promise where the parts of its shape are found. -/
theorem Shape.promises_of_foundIn {shape : Shape} (h : shape.FoundIn key value) :
    shape.kind.Promises key value := by
  cases shape with
  | rule name => exact ⟨name, RuleName.ofLower?_of_rule? h⟩
  | expression e => exact ⟨e, h⟩
  | equality field v => exact ⟨⟨v, h.2⟩, field, h.1⟩
  | pair field operator operand => exact ⟨_, h.2, rfl⟩
  | triple field operator operand => exact ⟨_, h, rfl⟩
  | group => exact h
  | unknown => trivial

/-- The kinds that reading settles keep their promises, under every key and for every value. -/
theorem Kind.promises_of (known : Option (List String)) (key : Key) (value : Document) :
    (Kind.of known key value).Promises key value := by
  rw [← Shape.kind_of]
  exact Shape.promises_of_foundIn (Shape.foundIn_of known key value)

/-! ### Steps that cannot fail on their own -/

namespace Walk

variable {α β : Type} {path : Path}

/-- Steps on trust that take no fallback follow each other as the steps of reading do. -/
theorem ofExcept_bind (first : Except CompileError α) (later : α → Except CompileError β) :
    ofExcept (first >>= later) = ofExcept first >>= fun a => ofExcept (later a) := by
  funext taken
  rw [ExceptT.bind_apply]
  cases first <;> rfl

theorem map_ofExcept (f : α → β) (outcome : Except CompileError α) :
    f <$> ofExcept outcome = ofExcept (outcome.map f) := by
  funext taken
  rw [← bind_pure_comp, ExceptT.bind_apply]
  cases outcome <;> rfl

theorem mapM_ofExcept (f : α → Except CompileError β) (l : List α) :
    (l.mapM fun a => ofExcept (f a)) = ofExcept (l.mapM f) := by
  induction l with
  | nil => rfl
  | cons a l ih =>
    rw [List.mapM_cons, ih, List.mapM_cons, ofExcept_bind]
    simp only [ofExcept_bind]
    rfl

/-- The items of a pair are looked up once it is known that there are two. -/
theorem criterion_eq (path : Path) (part : Document) :
    criterion path part = ofExcept (Rule.criterion path part) := by
  unfold criterion Rule.criterion
  cases part.text? with
  | some field => rfl
  | none =>
    cases part.sequence? with
    | none => rfl
    | some pair =>
      dsimp only
      by_cases two : pair.length = 2
      · obtain ⟨field, way, rfl⟩ := List.length_eq_two.mp two
        have first : item [field, way] 0 = pure field := rfl
        have second : item [field, way] 1 = pure way := rfl
        rw [if_pos two, first, pure_bind]
        dsimp only
        cases field.text? with
        | none => rfl
        | some field =>
          simp only [second, pure_bind]
          exact map_ofExcept _ _
      · rw [if_neg two]
        split
        · next h => cases h
        · next h => exact absurd (congrArg List.length (Option.some.inj h)) two
        · rfl

/-- An order is read on trust as it is read by its shape. -/
theorem readOrder_eq (path : Path) (value : Document) :
    readOrder path value = ofExcept (Rule.readOrder path value) := by
  unfold readOrder
  split
  · next items ht hs =>
    have each : criterion path = fun part => ofExcept (Rule.criterion path part) :=
      funext (criterion_eq path)
    have read : Rule.readOrder path value = (items.mapM (Rule.criterion path)).map .order := by
      simp only [Rule.readOrder, ht, hs]
    rw [each, mapM_ofExcept, read]
    exact map_ofExcept _ _
  · rfl

/-- A rule whose name is found is read on trust as it is read by its shape. -/
theorem readRule_eq {name : RuleName} (h : RuleName.ofLower? key.text = some name) :
    readRule path key value = ofExcept (Rule.read name path value) := by
  rw [readRule, h]
  cases name with
  | order => exact readOrder_eq path value
  | limit => rfl
  | group => rfl

theorem sequence_eq {items : List Document} (h : value.sequence? = some items) :
    sequence path value = pure items := by
  rw [sequence, h]

theorem readAs_equality (path : Path) (key : Key) (v : Value) (inner : Walk Reading) :
    readAs path key (.scalar v) inner .equality =
      ofExcept ((Shape.equality key.text v).read path (.scalar v)) := by
  cases v <;> rfl

/-- The two items of a pair are looked up where they are. -/
theorem readAs_pair {operator operand : Document} (h : value.sequence? = some [operator, operand])
    (path : Path) (key : Key) (inner : Walk Reading) :
    readAs path key value inner .pair =
      ofExcept ((Shape.pair key.text operator operand).read path value) := by
  have first : item [operator, operand] 0 = pure operator := rfl
  have second : item [operator, operand] 1 = pure operand := rfl
  rw [readAs, sequence_eq h, pure_bind, first, pure_bind, second, Shape.read]
  cases operator.text? with
  | some operator => exact pure_bind _ _
  | none => rfl

theorem readAs_triple {field operator operand : Document}
    (h : value.sequence? = some [field, operator, operand]) (path : Path) (key : Key)
    (inner : Walk Reading) :
    readAs path key value inner .triple =
      ofExcept ((Shape.triple field operator operand).read path value) := by
  have first : item [field, operator, operand] 0 = pure field := rfl
  have second : item [field, operator, operand] 1 = pure operator := rfl
  have third : item [field, operator, operand] 2 = pure operand := rfl
  rw [readAs, sequence_eq h, pure_bind, first, pure_bind, second, pure_bind, third, Shape.read]
  cases field.text? with
  | none => rfl
  | some field =>
    cases operator.text? with
    | some operator => exact pure_bind _ _
    | none => rfl

/-- A group needs of its key only what a shape says of it. -/
theorem readAs_group (path : Path) (key : Key) (value : Document)
    (inner : Except CompileError Reading) :
    readAs path key value (ofExcept inner) .group = ofExcept (readGroup path key inner) := by
  unfold readGroup
  simp only [ofExcept_bind]
  rfl

/-! ### Steady walks -/

/-- The walk comes through no fallback and does not end in panic. -/
def Steady (walk : Walk α) : Prop :=
  ∀ taken, (walk taken).2 = taken ∧ (walk taken).1 ≠ .error .panicked

theorem steady_pure (a : α) : Steady (pure a) := by
  refine fun taken => ⟨rfl, ?_⟩
  rintro ⟨⟩

theorem steady_ofExcept (outcome : Except CompileError α) : Steady (ofExcept outcome) := by
  intro taken
  refine ⟨rfl, ?_⟩
  cases outcome with
  | ok a => rintro ⟨⟩
  | error e => rintro ⟨⟩

/-- Steps that take no fallback take none one after the other. -/
theorem Steady.bind {first : Walk α} {later : α → Walk β} (hf : Steady first)
    (hl : ∀ a, Steady (later a)) : Steady (first >>= later) := by
  intro taken
  rw [ExceptT.bind_apply]
  obtain ⟨kept, calm⟩ := hf taken
  cases outcome : first taken with
  | mk result left =>
    rw [outcome] at kept calm
    cases result with
    | ok a =>
      obtain rfl : left = taken := kept
      exact hl a left
    | error stop =>
      refine ⟨kept, ?_⟩
      rintro ⟨⟩
      exact calm rfl

/-- Reading an entry by its kind takes no fallback where the kind keeps its promise. -/
theorem steady_readAs {inner : Walk Reading} (hi : Steady inner) {kind : Kind}
    (promise : kind.Promises key value) (noRule : kind ≠ .rule) :
    Steady (readAs path key value inner kind) := by
  cases kind with
  | rule => exact absurd rfl noRule
  | expression =>
    obtain ⟨e, rfl⟩ := promise
    exact steady_pure _
  | equality =>
    obtain ⟨⟨v, rfl⟩, -⟩ := promise
    rw [readAs_equality]
    exact steady_ofExcept _
  | pair =>
    obtain ⟨items, hs, two⟩ := promise
    obtain ⟨operator, operand, rfl⟩ := List.length_eq_two.mp two
    rw [readAs_pair hs]
    exact steady_ofExcept _
  | triple =>
    obtain ⟨items, hs, three⟩ := promise
    obtain ⟨field, operator, operand, rfl⟩ := List.length_eq_three.mp three
    rw [readAs_triple hs]
    exact steady_ofExcept _
  | group => exact (steady_ofExcept _).bind fun _ => hi.bind fun _ => steady_pure _
  | unknown => exact steady_ofExcept _

variable {kindOf : Key → Document → Kind}

/-- An entry takes no fallback where the kind of the entry keeps its promise, and nothing in it
takes one. -/
theorem steady_entry (promise : (kindOf key value).Promises key value) {inner : Walk Reading}
    (hi : Steady inner) : Steady (entry kindOf path key value inner) := by
  unfold entry
  split
  · next h =>
    rw [h] at promise
    obtain ⟨name, lowered⟩ := promise
    rw [readRule_eq lowered]
    exact (steady_ofExcept _).bind fun _ => steady_pure _
  · next noRule => exact steady_readAs hi promise noRule

theorem Steady.both {first later : Walk Reading} (hf : Steady first) (hl : Steady later) :
    Steady (Traversal.both first later) :=
  hf.bind fun _ => hl.bind fun _ => steady_pure _

/-- A steady walk is related to any traversal, so the traversal itself does for the other one. -/
theorem steady_traversal (promise : ∀ key value, (kindOf key value).Promises key value) :
    Traversal.Related (fun walk (_ : Walk Reading) => Steady walk) (traversal kindOf)
      (traversal kindOf) where
  leaf _ := steady_ofExcept _
  empty := steady_pure _
  entry _ key value := steady_entry (promise key value)
  both := Steady.both

/-! ### The walk and the reading -/

/-- An entry on trust comes to what the shape of the entry comes to, if the same is true of what is
in it. -/
theorem entry_eq (known : Option (List String)) (path : Path) (key : Key) (value : Document)
    (inner : Except CompileError Reading) :
    entry (Kind.of known) path key value (ofExcept inner) =
      ofExcept (match Shape.of known key value with
        | .group => readGroup path key inner
        | shape => shape.read path value) := by
  have found := Shape.foundIn_of known key value
  rw [entry, ← Shape.kind_of]
  generalize Shape.of known key value = shape at found
  cases shape with
  | rule name =>
    simp only [Shape.kind, readRule_eq (RuleName.ofLower?_of_rule? found)]
    exact map_ofExcept _ _
  | expression e =>
    obtain rfl := found
    rfl
  | equality field v =>
    obtain ⟨rfl, rfl⟩ := found
    exact readAs_equality path (.name field) v _
  | pair field operator operand =>
    obtain ⟨rfl, hs⟩ := found
    exact readAs_pair hs path (.name field) _
  | triple field operator operand => exact readAs_triple found path key _
  | group => exact readAs_group path key value inner
  | unknown => rfl

theorem both_ofExcept (first later : Except CompileError Reading) :
    Traversal.both (ofExcept first) (ofExcept later) = ofExcept (Traversal.both first later) := by
  unfold Traversal.both
  simp only [ofExcept_bind]
  rfl

/-- The walk goes the way of the reading. -/
theorem traversal_eq (known : Option (List String)) :
    Traversal.Related (fun walk outcome => walk = ofExcept outcome) (traversal (Kind.of known))
      (Reading.traversal known) where
  leaf _ := rfl
  empty := rfl
  entry path key value := by
    rintro _ inner rfl
    exact entry_eq known path key value inner
  both := by
    rintro _ first _ later rfl rfl
    exact both_ofExcept first later

end Walk

namespace Document

/-- Whatever settles the kinds, a walk can rely on promises that are kept. -/
theorem steady_walk {kindOf : Key → Document → Kind}
    (promise : ∀ key value, (kindOf key value).Promises key value) (document : Document) :
    (document.walk kindOf).Steady :=
  ((Walk.steady_traversal promise).read [] document).bind fun _ => Walk.steady_pure _

-- A pair promises two items, and the inner list has none.
example : (Document.list [.list []]).walk (fun _ _ => .pair) [] = (.error .panicked, []) := rfl

theorem walk_eq_ofDocument (known : Option (List String)) (document : Document) :
    document.walk (Kind.of known) = Walk.ofExcept (Filter.ofDocument document known) := by
  rw [walk, (Walk.traversal_eq known).read, Walk.map_ofExcept, Reading.read_traversal]
  rfl

/-- Every kind keeps its promise, so that nothing stops the walk but what stops the reading. -/
theorem reading_on_trust (known : Option (List String)) :
    (∀ key value, (Kind.of known key value).Promises key value) ∧
      ∀ document : Document,
        (document.walk (Kind.of known)).Steady ∧
          document.walk (Kind.of known) = Walk.ofExcept (Filter.ofDocument document known) :=
  ⟨Kind.promises_of known, fun document =>
    ⟨steady_walk (Kind.promises_of known) document, walk_eq_ofDocument known document⟩⟩

end Document

end FilterQuery
