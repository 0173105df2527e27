import FilterQuery.Proofs.Blame

/-!
# Lists of fragments

A sequence of SQL fragments under a number, at any depth of a document, is meant to be a group of
them. Main statement: it is one for every length but three, whatever stands around it. Three
fragments are taken for a field, an operator and an operand, and as a fragment names no field, no
document that has them anywhere is read. Blamed is the place of the three, unless something in
front of them is at fault.

A place in a document is given by the rows of entries around it, from the outermost to its own. The
reading is followed from the place outwards through the groups that these rows belong to.
-/

namespace FilterQuery

variable {known : Option (List String)} {key : Key} {value : Document}

/-! ### Places -/

/-- A row of entries around the one under `key`. -/
structure Frame where
  before : List (Key × Document)
  key : Key
  after : List (Key × Document)

/-- The value stands under the key in the innermost of some rows, each of which is a group in the
row around it. -/
inductive Stands (key : Key) (value : Document) : List Frame → List (Key × Document) → Prop
  | here (before after : List (Key × Document)) :
    Stands key value [⟨before, key, after⟩] (before ++ (key, value) :: after)
  | within {frames : List Frame} {inner : List (Key × Document)} {outer : Key} {group : Document}
    (before after : List (Key × Document)) : outer.opens group → group.entries? = some inner →
    Stands key value frames inner →
    Stands key value (⟨before, outer, after⟩ :: frames) (before ++ (outer, group) :: after)

/-- The clauses of the outermost row, where the clause stands at the place that the rows lead to. -/
inductive ClausesAround (known : Option (List String)) (clause : Clause) :
    Path → List Frame → List Clause → Prop
  | here {above : Path} {frame : Frame} {front back : Reading} :
    readEntries known above frame.before = .ok front →
    readEntries known above frame.after = .ok back →
    ClausesAround known clause above [frame] (front.clauses ++ clause :: back.clauses)
  | within {above : Path} {frame : Frame} {frames : List Frame} {front back : Reading}
    {combinator : Combinator} {inner : List Clause} :
    readEntries known above frame.before = .ok front →
    readEntries known above frame.after = .ok back →
    frame.key.combinator (above ++ [frame.key]) = .ok combinator →
    ClausesAround known clause (above ++ [frame.key]) frames inner →
    ClausesAround known clause above (frame :: frames)
      (front.clauses ++ .group combinator inner :: back.clauses)

theorem wellFormed_iff_readEntry (above : Path) (key : Key) (value : Document) :
    WellFormed known key value ↔
      (readEntry known (above ++ [key]) key value).refusal? = none := by
  rw [refusal?_readEntry, List.findSome?_eq_none_iff, wellFormed_iff value above key]
  simp only [Entry.refusal?_eq_none]

theorem wellFormed_iff_readEntries (above : Path) (entries : List (Key × Document)) :
    (∀ entry ∈ entries, WellFormed known entry.1 entry.2) ↔
      (readEntries known above entries).refusal? = none := by
  induction entries with
  | nil => simp [readEntries]
  | cons entry rest ih =>
    rw [List.forall_mem_cons, readEntries, Except.refusal?_both, Option.or_eq_none_iff,
      wellFormed_iff_readEntry above, ih]

/-- The parts of a row around an entry are read on their own. -/
theorem exists_of_readEntries {above : Path} {before after : List (Key × Document)}
    {reading : Reading}
    (h : readEntries known above (before ++ (key, value) :: after) = .ok reading) :
    ∃ front own back, readEntries known above before = .ok front ∧
      readEntry known (above ++ [key]) key value = .ok own ∧
      readEntries known above after = .ok back ∧ reading = front ++ (own ++ back) := by
  rw [readEntries_append_eq] at h
  obtain ⟨front, readFront, h⟩ := Except.bind_eq_ok.mp h
  obtain ⟨later, readLater, h⟩ := Except.bind_eq_ok.mp h
  obtain ⟨own, readOwn, readLater⟩ := Except.bind_eq_ok.mp readLater
  obtain ⟨back, readBack, readLater⟩ := Except.bind_eq_ok.mp readLater
  obtain rfl := Except.ok.inj readLater
  exact ⟨front, own, back, readFront, readOwn, readBack, (Except.ok.inj h).symm⟩

/-- After entries that are well formed, the error of an entry is that of the row. -/
theorem readEntries_of_error {above : Path} {before : List (Key × Document)}
    (formed : ∀ entry ∈ before, WellFormed known entry.1 entry.2)
    {e : CompileError} (h : readEntry known (above ++ [key]) key value = .error e)
    (after : List (Key × Document)) :
    readEntries known above (before ++ (key, value) :: after) = .error e := by
  obtain ⟨front, read⟩ :=
    Except.refusal?_eq_none.mp ((wellFormed_iff_readEntries above before).mp formed)
  rw [readEntries_append_eq, read, readEntries, h]
  rfl

namespace Stands

variable {frames : List Frame} {entries : List (Key × Document)}

theorem wellFormed_iff (stands : Stands key value frames entries) :
    (∀ entry ∈ entries, WellFormed known entry.1 entry.2) ↔
      WellFormed known key value ∧
        ∀ frame ∈ frames, ∀ entry ∈ frame.before ++ frame.after,
          WellFormed known entry.1 entry.2 := by
  induction stands with
  | here before after =>
    simp only [List.forall_mem_singleton, List.forall_mem_append, List.forall_mem_cons]
    exact and_left_comm
  | within before after opened he _ ih =>
    simp only [List.forall_mem_append, List.forall_mem_cons, wellFormed_of_opens opened he, ih]
    constructor
    · rintro ⟨front, ⟨own, deeper⟩, back⟩
      exact ⟨own, ⟨front, back⟩, deeper⟩
    · rintro ⟨own, ⟨front, back⟩, deeper⟩
      exact ⟨front, ⟨own, deeper⟩, back⟩

/-- The clause that the value gives is found at its place among the clauses of the rows. -/
theorem clausesAround {clause : Clause} (stands : Stands key value frames entries)
    (own : ∀ path, readEntry known path key value = .ok (.ofClause clause)) {above : Path}
    {reading : Reading} (read : readEntries known above entries = .ok reading) :
    ClausesAround known clause above frames reading.clauses := by
  induction stands generalizing above reading with
  | here before after =>
    obtain ⟨front, own', back, readFront, readOwn, readBack, rfl⟩ := exists_of_readEntries read
    obtain rfl := Except.ok.inj ((own _).symm.trans readOwn)
    exact .here readFront readBack
  | within before after opened he _ ih =>
    obtain ⟨front, group, back, readFront, readGroup, readBack, rfl⟩ := exists_of_readEntries read
    rw [readEntry_of_opens _ opened he] at readGroup
    obtain ⟨combinator, joined, readGroup⟩ := Except.bind_eq_ok.mp readGroup
    obtain ⟨inner, readInner, readGroup⟩ := Except.bind_eq_ok.mp readGroup
    obtain rfl := Except.ok.inj readGroup
    exact .within readFront readBack joined (ih readInner)

/-- Behind well-formed entries the value is the first to be refused. -/
theorem read_eq_error {fault : CompileFault} (stands : Stands key value frames entries)
    (own : ∀ path, readEntry known path key value = path.refuse fault)
    (formed : ∀ frame ∈ frames, ∀ entry ∈ frame.before, WellFormed known entry.1 entry.2)
    (above : Path) :
    readEntries known above entries = Path.refuse (above ++ frames.map Frame.key) fault := by
  induction stands generalizing above with
  | here before after =>
    exact readEntries_of_error (List.forall_mem_singleton.mp formed) (own _) after
  | @within frames inner outer group before after opened he _ ih =>
    rw [List.forall_mem_cons] at formed
    obtain ⟨combinator, joined⟩ := Key.combinator_of_opens (above ++ [outer]) opened
    have blamed : readEntry known (above ++ [outer]) outer group =
        Path.refuse (above ++ [outer] ++ frames.map Frame.key) fault := by
      rw [readEntry_of_opens _ opened he, ih formed.2, readGroup, joined]
      rfl
    rw [List.append_assoc] at blamed
    exact readEntries_of_error formed.1 blamed after

end Stands

/-! ### Fragments under a number -/

theorem readEntries_fragments (path : Path) (i : Nat) (fragments : List Expression) :
    readEntries known path (Document.indexed i (fragments.map .expression)) =
      .ok { clauses := fragments.map .raw } := by
  induction fragments generalizing i with
  | nil => rfl
  | cons e rest ih =>
    rw [List.map_cons, Document.indexed, readEntries, ih,
      readEntry_of_shape (Shape.of_expression rfl e) (by simp)]
    rfl

section Fragments

variable {fragments : List Expression}

theorem isTriple_fragments (h : value.sequence? = some (fragments.map .expression)) :
    value.isTriple ↔ fragments.length = 3 := by
  unfold Document.isTriple
  rw [h]
  match fragments with
  | [] | [_] | [_, _] | [_, _, _] | _ :: _ :: _ :: _ :: _ => simp [Document.isComposite]

theorem opens_fragments (number : key.isNumeric)
    (h : value.sequence? = some (fragments.map .expression)) (length : fragments.length ≠ 3) :
    key.opens value := by
  have noTriple : ¬ value.isTriple := mt (isTriple_fragments h).mp length
  simp [Key.opens, Document.isComposite_of_sequence? h, number, noTriple]

theorem readEntry_fragments (number : key.isNumeric)
    (h : value.sequence? = some (fragments.map .expression)) (length : fragments.length ≠ 3)
    (path : Path) :
    readEntry known path key value = .ok (.ofClause (.group .and (fragments.map .raw))) := by
  rw [readEntry_of_opens path (opens_fragments number h length) (Document.entries?_of_sequence? h),
    readEntries_fragments, readGroup, Key.combinator_of_isNumeric number]
  rfl

theorem readEntry_three_fragments (number : key.isNumeric)
    (h : value.sequence? = some (fragments.map .expression)) (length : fragments.length = 3)
    (path : Path) : readEntry known path key value = path.refuse .malformedComparison := by
  have triple : value.isTriple := (isTriple_fragments h).mpr length
  match fragments, length with
  | [_, _, _], _ =>
    rw [readEntry_triple number h triple]
    rfl

end Fragments

/-- A document is read as the row of its entries. -/
theorem Filter.ofDocument_eq {document : Document} {entries : List (Key × Document)}
    (he : document.entries? = some entries) (known : Option (List String)) :
    Filter.ofDocument document known = (readEntries known [] entries).map Reading.filter := by
  rw [ofDocument, Document.read, he]

/-- Fragments under a number are an AND group at their place unless there are three of them, and
then the document is not read. -/
theorem Filter.group_of_fragments {document : Document} {entries : List (Key × Document)}
    {frames : List Frame} {key : Key} {value : Document} {fragments : List Expression}
    (he : document.entries? = some entries) (stands : Stands key value frames entries)
    (number : key.isNumeric) (h : value.sequence? = some (fragments.map .expression))
    (known : Option (List String)) :
    (fragments.length ≠ 3 →
      ((∃ f, Filter.ofDocument document known = .ok f) ↔
        ∀ frame ∈ frames, ∀ entry ∈ frame.before ++ frame.after, WellFormed known entry.1 entry.2) ∧
      ∀ f, Filter.ofDocument document known = .ok f →
        ∃ clauses, f.root = ⟨.and, clauses.map Clause.enclosed⟩ ∧
          ClausesAround known (.group .and (fragments.map .raw)) [] frames clauses) ∧
    (fragments.length = 3 →
      (∀ f, Filter.ofDocument document known ≠ .ok f) ∧
      ((∀ frame ∈ frames, ∀ entry ∈ frame.before, WellFormed known entry.1 entry.2) →
        Filter.ofDocument document known =
          .error ⟨Path.text (frames.map Frame.key), .malformedComparison⟩)) := by
  have readable : (∃ f, Filter.ofDocument document known = .ok f) ↔
      ∀ entry ∈ entries, WellFormed known entry.1 entry.2 := by
    rw [← Except.refusal?_eq_none, ofDocument_eq he, Except.refusal?_map,
      ← wellFormed_iff_readEntries]
  rw [readable, stands.wellFormed_iff, ofDocument_eq he]
  constructor
  · intro length
    have own (path : Path) : readEntry known path key value =
        .ok (.ofClause (.group .and (fragments.map .raw))) :=
      readEntry_fragments number h length path
    have formed : WellFormed known key value := by
      rw [wellFormed_iff_readEntry [], own]
      rfl
    refine ⟨and_iff_right formed, fun f read => ?_⟩
    obtain ⟨reading, made, rfl⟩ := Except.map_eq_ok.mp read
    exact ⟨reading.clauses, rfl, stands.clausesAround own made⟩
  · intro length
    have own (path : Path) : readEntry known path key value = path.refuse .malformedComparison :=
      readEntry_three_fragments number h length path
    refine ⟨fun f read => ?_, fun formed => ?_⟩
    · have all := (stands.wellFormed_iff.mp (readable.mp ⟨f, by rw [ofDocument_eq he, read]⟩)).1
      rw [wellFormed_iff_readEntry [], own] at all
      cases all
    · rw [stands.read_eq_error own formed]
      rfl

/-- Fragments under a negative number, in a list under `:or`: two of them, and three. -/
theorem Filter.group_of_fragments_sample :
    let two : List Expression := [⟨"a = 1", []⟩, ⟨"b > ?", [.int 2]⟩]
    let three : List Expression := two ++ [⟨"c", []⟩]
    let value (fragments : List Expression) : Document := .list (fragments.map .expression)
    let age : Key × Document := (.name "age", .scalar (.int 18))
    let limit : Key × Document := (.name ":limit", .scalar (.int 5))
    let entries (fragments : List Expression) : List (Key × Document) :=
      [age, (.name ":or", .list [.map [(.name "-7", value fragments)]]), limit]
    let frames : List Frame :=
      [⟨[age], .name ":or", [limit]⟩, ⟨[], .index 0, []⟩, ⟨[], .name "-7", []⟩]
    (∀ fragments, Stands (.name "-7") (value fragments) frames (entries fragments)) ∧
      (∃ f, Filter.ofDocument (.map (entries two)) = .ok f ∧
        ∃ clauses, f.root = ⟨.and, clauses.map Clause.enclosed⟩ ∧
          ClausesAround none (.group .and (two.map .raw)) [] frames clauses) ∧
      Filter.ofDocument (.map (entries three)) = .error ⟨"/:or/0/-7", .malformedComparison⟩ := by
  intro two three value age limit entries frames
  have joined : (Key.name ":or").isConnective := by decide +kernel
  have stands (fragments : List Expression) :
      Stands (.name "-7") (value fragments) frames (entries fragments) :=
    .within [age] [limit] (by rw [Key.opens, joined]; rfl) rfl
      (.within [] [] rfl rfl (.here [] []))
  have number : (Key.name "-7").isNumeric := by decide +kernel
  have he (fragments : List Expression) :
      (Document.map (entries fragments)).entries? = some (entries fragments) := rfl
  have read := (group_of_fragments (he two) (stands two) number rfl none).1 (by decide)
  have refused := (group_of_fragments (he three) (stands three) number rfl none).2 rfl
  obtain ⟨f, made⟩ : ∃ f, Filter.ofDocument (.map (entries two)) = .ok f := ⟨_, rfl⟩
  have names : (Key.name "age").Names "age" := ⟨rfl, by decide +kernel, by decide +kernel⟩
  have first : WellFormed none age.1 age.2 :=
    .plain (.equality (.int 18) names fun _ h => nomatch h)
  have formed : ∀ frame ∈ frames, ∀ entry ∈ frame.before, WellFormed none entry.1 entry.2 := by
    refine List.forall_mem_cons.mpr ⟨List.forall_mem_singleton.mpr first, ?_⟩
    exact List.forall_mem_cons.mpr ⟨nofun, List.forall_mem_singleton.mpr nofun⟩
  exact ⟨stands, ⟨f, made, read.2 f made⟩, refused.2 formed⟩

/-- Three fragments are no group. -/
theorem Filter.not_group_of_fragments :
    ¬ ∀ fragments : List Expression,
      ∃ f, Filter.ofDocument (.list [.list (fragments.map .expression)]) = .ok f ∧
        f.root = ⟨.and, [.group .and (fragments.map .raw)]⟩ := by
  intro group
  let three : List Expression := [⟨"a = 1", []⟩, ⟨"b = 2", []⟩, ⟨"c = 3", []⟩]
  obtain ⟨f, read, -⟩ := group three
  have refused : Filter.ofDocument (.list [.list (three.map .expression)]) =
      .error ⟨"/0", .malformedComparison⟩ := rfl
  rw [read] at refused
  cases refused

end FilterQuery
