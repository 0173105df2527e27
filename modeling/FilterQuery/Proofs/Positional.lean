import FilterQuery.Proofs.Blame
import FilterQuery.Proofs.Outline
import Mathlib.Logic.Relation

/-!
# Lists and positions

A list can be written as a map whose keys are the positions of its items. Main statement: wherever
in a document lists are written so, or such maps as lists, it is read as the same filter, or refused
at the same path for the same reason, up to what the error quotes.

Documents written in these two ways have the same positional form, in which there are no lists at
all, and a document is read like its positional form.
-/

namespace FilterQuery

variable {known : Option (List String)}

/-! ### Errors up to what they quote -/

/-- The fault without the description of a value that is not what it should be. -/
def CompileFault.unquoted : CompileFault → CompileFault
  | .invalidLimit _ => .invalidLimit ""
  | .invalidOffset _ => .invalidOffset ""
  | .invalidOrder _ => .invalidOrder ""
  | fault => fault

/-- The same result, or errors at the same place that differ at most in what they quote. -/
inductive Agree {α : Type} : Except CompileError α → Except CompileError α → Prop
  | ok (a : α) : Agree (.ok a) (.ok a)
  | error {path : String} {fault fault' : CompileFault} : fault.unquoted = fault'.unquoted →
    Agree (.error ⟨path, fault⟩) (.error ⟨path, fault'⟩)

namespace Agree

variable {α β : Type} {x y z : Except CompileError α}

theorem refl (x : Except CompileError α) : Agree x x := by
  cases x with
  | ok a => exact .ok a
  | error e => exact .error rfl

theorem symm (h : Agree x y) : Agree y x := by
  cases h with
  | ok a => exact .ok a
  | error same => exact .error same.symm

theorem trans (h : Agree x y) (h' : Agree y z) : Agree x z := by
  cases h with
  | ok a => exact h'
  | error same =>
    cases h' with
    | error same' => exact .error (same.trans same')

/-- Agreement passes through a bind whose continuations agree at every value. -/
theorem bind {f g : α → Except CompileError β} (h : Agree x y) (each : ∀ a, Agree (f a) (g a)) :
    Agree (x >>= f) (y >>= g) := by
  cases h with
  | ok a => exact each a
  | error same => exact .error same

theorem map (h : Agree x y) (f : α → β) : Agree (x.map f) (y.map f) := by
  cases h with
  | ok a => exact .ok (f a)
  | error same => exact .error same

/-- Agreement item by item is agreement of the lists read: the first item refused is the same one.
-/
theorem mapM {f g : α → Except CompileError β} {h : α → α} (each : ∀ a, Agree (f (h a)) (g a))
    (l : List α) : Agree ((l.map h).mapM f) (l.mapM g) := by
  induction l with
  | nil => exact .refl _
  | cons a l ih =>
    rw [List.map_cons, List.mapM_cons, List.mapM_cons]
    exact (each a).bind fun b => ih.bind fun bs => .refl _

theorem ok_iff (h : Agree x y) {a : α} : x = .ok a ↔ y = .ok a := by
  cases h <;> simp

/-- Where one of two results that agree is an error, so is the other, at the same path and with the
same fault but for what it quotes. -/
theorem exists_error (h : Agree x y) {e : CompileError} (hx : x = .error e) :
    ∃ e', y = .error e' ∧ e'.path = e.path ∧ e'.fault.unquoted = e.fault.unquoted := by
  cases h with
  | ok a => cases hx
  | error same =>
    obtain rfl := Except.error.inj hx
    exact ⟨_, rfl, rfl, same.symm⟩

end Agree

/-! ### The positional form -/

namespace Document

mutual

/-- The document with every list written as a map. -/
def positional : Document → Document
  | .list items => .map (positionalItems 0 items)
  | .map entries => .map (positionalEntries entries)
  | .scalar v => .scalar v
  | .expression e => .expression e

def positionalItems (i : Nat) : List Document → List (Key × Document)
  | [] => []
  | item :: rest => (.index i, item.positional) :: positionalItems (i + 1) rest

def positionalEntries : List (Key × Document) → List (Key × Document)
  | [] => []
  | (key, value) :: rest => (key, value.positional) :: positionalEntries rest

end

theorem positionalEntries_eq_map (entries : List (Key × Document)) :
    positionalEntries entries = entries.map fun entry => (entry.1, entry.2.positional) := by
  induction entries with
  | nil => rfl
  | cons entry rest ih => rw [positionalEntries, ih, List.map_cons]

/-- The items of a list, in positional form, are the entries of the map that spells the list. -/
theorem positionalItems_eq (i : Nat) (items : List Document) :
    positionalItems i items = positionalEntries (indexed i items) := by
  induction items generalizing i with
  | nil => rfl
  | cons item rest ih => rw [positionalItems, indexed, positionalEntries, ih]

/-- Whether keys count up from a position does not depend on the values under them. -/
theorem positional?_positionalEntries (i : Nat) (entries : List (Key × Document)) :
    positional? i (positionalEntries entries) =
      (positional? i entries).map (List.map positional) := by
  induction entries generalizing i with
  | nil => rfl
  | cons entry rest ih =>
    obtain ⟨key, value⟩ := entry
    cases key with
    | name s => rfl
    | index k =>
      simp only [positionalEntries, positional?]
      split
      · simp [ih, Function.comp_def]
      · rfl

variable {document : Document}

/-- What is walked in the positional form is what is walked in the document, each value in its own
positional form. -/
theorem entries?_positional (document : Document) :
    document.positional.entries? = document.entries?.map positionalEntries := by
  cases document with
  | list items => simp [positional, entries?, positionalItems_eq]
  | map entries => simp [positional, entries?]
  | _ => rfl

theorem sequence?_positional (document : Document) :
    document.positional.sequence? = document.sequence?.map (List.map positional) := by
  cases document with
  | list items => simp [positional, sequence?, positionalItems_eq, positional?_positionalEntries]
  | map entries => simp [positional, sequence?, positional?_positionalEntries]
  | _ => rfl

@[simp] theorem isComposite_positional (document : Document) :
    document.positional.isComposite = document.isComposite := by
  cases document <;> rfl

@[simp] theorem text?_positional (document : Document) :
    document.positional.text? = document.text? := by
  cases document <;> rfl

@[simp] theorem scalar?_positional (document : Document) :
    document.positional.scalar? = document.scalar? := by
  cases document <;> rfl

theorem mapM_positional {α : Type} {read : Document → Option α}
    (h : ∀ document : Document, read document.positional = read document) (items : List Document) :
    (items.map positional).mapM read = items.mapM read := by
  rw [List.mapM_map]
  simp only [Function.comp_def, h]

/-- Operands are scalars, which are their own positional form, so a membership has the same ones in
either spelling. -/
theorem operands?_positional (document : Document) :
    document.positional.operands? = document.operands? := by
  rcases document.outlines with composite | ⟨v, rfl⟩ | ⟨e, rfl⟩
  · rw [operands?_of_isComposite (by simpa using composite), operands?_of_isComposite composite,
      sequence?_positional]
    cases document.sequence? with
    | none => rfl
    | some items => exact mapM_positional scalar?_positional items
  · rfl
  · rfl

theorem positional_eq_expression {e : Expression} :
    document.positional = .expression e ↔ document = .expression e := by
  cases document <;> simp [positional]

/-- One list in a document is written as a map. -/
inductive Respells : Document → Document → Prop
  | here (items : List Document) : Respells (.list items) (.map (indexed 0 items))
  | item {before after : List Document} {item item' : Document} : Respells item item' →
    Respells (.list (before ++ item :: after)) (.list (before ++ item' :: after))
  | entry {before after : List (Key × Document)} {key : Key} {value value' : Document} :
    Respells value value' →
    Respells (.map (before ++ (key, value) :: after)) (.map (before ++ (key, value') :: after))

/-- The positions of the items after a prefix go on where those of the prefix end. -/
theorem indexed_append (i : Nat) (before after : List Document) :
    indexed i (before ++ after) = indexed i before ++ indexed (i + before.length) after := by
  induction before generalizing i with
  | nil => rfl
  | cons item rest ih => simp [indexed, ih, Nat.add_assoc, Nat.add_comm 1]

/-- Writing one list as a map, anywhere in a document, leaves the positional form as it is. -/
theorem Respells.positional_eq {document document' : Document} (h : Respells document document') :
    document.positional = document'.positional := by
  induction h with
  | here items => rw [positional, positional, positionalItems_eq]
  | item _ ih =>
    simp [positional, positionalItems_eq, positionalEntries_eq_map, indexed_append, indexed, ih]
  | entry _ ih => simp [positional, positionalEntries_eq_map, ih]

end Document

/-! ### Rules -/

namespace Rule

variable (path : Path)

/-- A direction that is not text is quoted in the error, which is all that the spelling can change.
-/
theorem direction_positional (way : Document) :
    Agree (direction path way.positional) (direction path way) := by
  rw [direction, direction, Document.text?_positional]
  cases way.text?.bind Direction.ofText? with
  | some d => exact .ok d
  | none => exact .error rfl

/-- A criterion that is a field and a direction may be spelled in either way. -/
theorem criterion_positional (item : Document) :
    Agree (criterion path item.positional) (criterion path item) := by
  rw [criterion, criterion, Document.text?_positional, Document.sequence?_positional]
  cases item.text? with
  | some field => exact .ok _
  | none =>
    cases item.sequence? with
    | none => exact .error rfl
    | some items =>
      rcases items with _ | ⟨field, _ | ⟨way, _ | ⟨last, rest⟩⟩⟩
      · exact .error rfl
      · exact .error rfl
      · dsimp only [Option.map, List.map]
        rw [Document.text?_positional]
        cases field.text? with
        | none => exact .error rfl
        | some field => exact (direction_positional path way).map _
      · exact .error rfl

/-- The error of a mapped criterion quotes the whole map, so it is compared for two wholes. -/
theorem mappedCriterion_positional (whole whole' : Document) (key : Key) (way : Document) :
    Agree (mappedCriterion path whole' (key, way.positional))
      (mappedCriterion path whole (key, way)) := by
  cases key with
  | index i => exact .error rfl
  | name field => exact (direction_positional path way).map _

theorem readOrder_positional (value : Document) :
    Agree (readOrder path value.positional) (readOrder path value) := by
  cases ht : value.text? with
  | some field => simpa [readOrder, ht] using .ok _
  | none =>
    cases hs : value.sequence? with
    | some items =>
      simp only [readOrder, ht, hs, Document.text?_positional, Document.sequence?_positional,
        Option.map]
      exact (Agree.mapM (criterion_positional path) items).map _
    | none =>
      have hs' : value.positional.sequence? = none := by rw [Document.sequence?_positional, hs]; rfl
      have ht' : value.positional.text? = none := by rw [Document.text?_positional, ht]
      cases value with
      | list items => cases hs
      | map entries =>
        -- a map of directions is quoted as a whole where it has a position among its keys
        rw [Document.positional] at hs' ht' ⊢
        simp only [readOrder, ht, hs, hs', ht']
        rw [Document.positionalEntries_eq_map]
        exact (Agree.mapM (fun entry => mappedCriterion_positional ..) entries).map _
      | scalar v => exact .refl _
      | expression e => exact .refl _

/-- A limit rule is read the same in either spelling, and blames the same place. -/
theorem readLimit_positional (value : Document) :
    Agree (readLimit path value.positional) (readLimit path value) := by
  rw [readLimit, readLimit, Document.scalar?_positional, Document.sequence?_positional]
  cases value.scalar? with
  | some rows => exact .refl _
  | none =>
    cases value.sequence? with
    | none => exact .error rfl
    | some items =>
      rcases items with _ | ⟨rows, _ | ⟨skip, _ | ⟨last, rest⟩⟩⟩
      · exact .error rfl
      · cases rows with
        | scalar rows => exact .ok _
        | _ => exact .error rfl
      · cases rows with
        | scalar rows =>
          cases skip with
          | scalar skip => exact .ok _
          | _ => exact .error rfl
        | _ => exact .error rfl
      · cases rows <;> cases skip <;> exact .error rfl

/-- The error of a group rule quotes nothing, so its reading is the same and not only alike. -/
theorem readGroup_positional (value : Document) :
    readGroup path value.positional = readGroup path value := by
  rw [readGroup, readGroup, Document.text?_positional, Document.sequence?_positional]
  cases value.text? with
  | some column => rfl
  | none =>
    cases value.sequence? with
    | none => rfl
    | some items =>
      dsimp only [Option.map]
      rw [Document.mapM_positional Document.text?_positional]

/-- Every rule is read alike from a value and from its positional form. -/
theorem read_positional (name : RuleName) (value : Document) :
    Agree (read name path value.positional) (read name path value) := by
  cases name with
  | order => exact readOrder_positional path value
  | limit => exact readLimit_positional path value
  | group =>
    rw [read, read, readGroup_positional]
    exact .refl _

end Rule

/-! ### Entries -/

/-- Only a membership looks into a composite operand, and it looks at a sequence. -/
theorem Operator.clause?_positional (op : Operator) (field : String) (operand : Document) :
    op.clause? field operand.positional = op.clause? field operand := by
  cases op with
  | membership negate => rw [clause?, clause?, Document.operands?_positional]
  | _ => cases operand <;> rfl

/-- An operation is the same clause, or the same error, in either spelling of its operand. -/
theorem readOperation_positional (path : Path) (field operator : String) (operand : Document) :
    readOperation path field operator operand.positional =
      readOperation path field operator operand := by
  rw [readOperation, readOperation]
  cases Operator.ofText? operator with
  | none => rfl
  | some op =>
    dsimp only
    rw [op.clause?_positional]

namespace Shape

/-- The parts of a shape in positional form. -/
def positional : Shape → Shape
  | .pair field operator operand => .pair field operator.positional operand.positional
  | .triple field operator operand =>
    .triple field.positional operator.positional operand.positional
  | shape => shape

variable {key : Key} {value : Document} {field : String}

theorem ofField_positional :
    ofField known field value.positional = (ofField known field value).positional := by
  rcases value.outlines with composite | ⟨v, rfl⟩ | ⟨e, rfl⟩
  · rw [ofField_of_isComposite (by simpa using composite), ofField_of_isComposite composite,
      Document.sequence?_positional]
    cases value.sequence? with
    | none => rfl
    | some items => rcases items with _ | ⟨operator, _ | ⟨operand, _ | ⟨last, rest⟩⟩⟩ <;> rfl
  · simp only [Document.positional, ofField]
    split <;> rfl
  · rfl

theorem ofPosition_positional : ofPosition value.positional = (ofPosition value).positional := by
  rw [ofPosition, ofPosition, Document.sequence?_positional, Document.isComposite_positional]
  cases value.sequence? with
  | none =>
    dsimp only [Option.map]
    split <;> rfl
  | some items =>
    rcases items with _ | ⟨field, _ | ⟨operator, _ | ⟨operand, _ | ⟨last, rest⟩⟩⟩⟩ <;>
      simp only [Option.map, List.map, Document.isComposite_positional] <;> split <;> rfl

/-- The shape of an entry in positional form has the parts of its shape, in positional form. -/
theorem of_positional (known : Option (List String)) (key : Key) (value : Document) :
    of known key value.positional = (of known key value).positional :=
  of_natural (fun _ => rfl) (fun _ => rfl) rfl (fun _ => Document.positional_eq_expression)
    (fun _ => ofPosition_positional) fun _ _ => ofField_positional

theorem positional_ne_group {shape : Shape} (h : shape ≠ .group) : shape.positional ≠ .group := by
  cases shape with
  | group => exact absurd rfl h
  | _ => simp [positional]

/-- What an entry that is no group says is read alike in either spelling. -/
theorem read_positional (path : Path) (value : Document) (shape : Shape) :
    Agree (shape.positional.read path value.positional) (shape.read path value) := by
  cases shape with
  | rule name => exact (Rule.read_positional path name value).map _
  | pair field operator operand =>
    rw [positional, read, read, Document.text?_positional]
    cases operator.text? with
    | none => exact .refl _
    | some operator =>
      dsimp only
      rw [readOperation_positional]
      exact .refl _
  | triple field operator operand =>
    rw [positional, read, read, Document.text?_positional, Document.text?_positional]
    cases field.text? with
    | none => exact .refl _
    | some field =>
      cases operator.text? with
      | none => exact .refl _
      | some operator =>
        dsimp only
        rw [readOperation_positional]
        exact .refl _
  | expression | equality | group | unknown => exact .refl _

end Shape

/-- Entries that are each read alike are read alike together. -/
theorem readEntries_positional {path : Path} {entries : List (Key × Document)}
    (each : ∀ entry ∈ entries,
      Agree (readEntry known (path ++ [entry.1]) entry.1 entry.2.positional)
        (readEntry known (path ++ [entry.1]) entry.1 entry.2)) :
    Agree (readEntries known path (Document.positionalEntries entries))
      (readEntries known path entries) := by
  induction entries with
  | nil => exact .refl _
  | cons entry rest ih =>
    obtain ⟨key, value⟩ := entry
    rw [List.forall_mem_cons] at each
    rw [Document.positionalEntries, readEntries, readEntries]
    exact each.1.bind fun first => (ih each.2).bind fun later => .refl _

/-- An entry is read alike in either spelling: by induction along the groups, where the entries are
those of the same walk. -/
theorem readEntry_positional (value : Document) (path : Path) (key : Key) :
    Agree (readEntry known path key value.positional) (readEntry known path key value) := by
  induction value using Document.entries_induction generalizing path key with
  | step value ih =>
    by_cases group : Shape.of known key value = .group
    · rw [readEntry_eq, readEntry_eq, Shape.of_positional, group, Document.entries?_positional]
      refine (Agree.refl _).bind fun k => Agree.bind ?_ fun reading => .refl _
      cases he : value.entries? with
      | none => exact .refl _
      | some entries => exact readEntries_positional fun entry hm => ih entries he entry hm _ _
    · rw [readEntry_of_shape (Shape.of_positional ..) (Shape.positional_ne_group group),
        readEntry_of_shape rfl group]
      exact Shape.read_positional path value _

/-- A document is read alike in its positional form. -/
theorem Document.read_positional (document : Document) :
    Agree (document.positional.read known) (document.read known) := by
  rw [read, read, entries?_positional]
  cases document.entries? with
  | none => exact .refl _
  | some entries => exact readEntries_positional fun entry _ => readEntry_positional ..

namespace Filter

/-- Documents that differ only in how lists are written are read as the same filter, or refused at
the same path with the same fault but for what it quotes. -/
theorem ofDocument_of_respells {d d' : Document} (same : Relation.EqvGen Document.Respells d d')
    (known : Option (List String)) :
    (∀ f, ofDocument d known = .ok f ↔ ofDocument d' known = .ok f) ∧
    ∀ e, ofDocument d known = .error e → ∃ e', ofDocument d' known = .error e' ∧
      e'.path = e.path ∧ e'.fault.unquoted = e.fault.unquoted := by
  have positional : d.positional = d'.positional := by
    induction same with
    | rel _ _ h => exact h.positional_eq
    | refl => rfl
    | symm _ _ _ ih => exact ih.symm
    | trans _ _ _ _ _ ih ih' => exact ih.trans ih'
  have agree : Agree (ofDocument d known) (ofDocument d' known) :=
    (d.read_positional.symm.trans (positional ▸ d'.read_positional)).map Reading.filter
  exact ⟨fun f => agree.ok_iff, fun e => agree.exists_error⟩

/-- A limit in a group, with and without rows to skip, and one with nothing in it. -/
theorem ofDocument_of_respells_sample :
    let listed (rows : List Document) : Document := .list [.map [(.name ":limit", .list rows)]]
    let mapped (rows : List Document) : Document :=
      .map [(.index 0, .map [(.name ":limit", .map (Document.indexed 0 rows))])]
    (∃ f, ofDocument (listed [.scalar (.int 5), .scalar (.int 10)]) = .ok f ∧
      ofDocument (mapped [.scalar (.int 5), .scalar (.int 10)]) = .ok f ∧
      f.modifiers.offsetPath = some "/0/:limit/1") ∧
    ofDocument (listed []) = .error ⟨"/0/:limit", .invalidLimit "list of 0"⟩ ∧
    ∃ e, ofDocument (mapped []) = .error e ∧ e.path = "/0/:limit" ∧
      e.fault.unquoted = .invalidLimit "" := by
  intro listed mapped
  have respelled (rows : List Document) :
      Relation.EqvGen Document.Respells (listed rows) (mapped rows) := by
    have inside : Document.Respells (listed rows)
        (.list [.map [(.name ":limit", .map (Document.indexed 0 rows))]]) :=
      @Document.Respells.item [] [] _ _ (@Document.Respells.entry [] [] _ _ _ (.here rows))
    exact .trans _ _ _ (.rel _ _ inside) (.rel _ _ (.here _))
  obtain ⟨f, read⟩ : ∃ f, ofDocument (listed [.scalar (.int 5), .scalar (.int 10)]) = .ok f :=
    ⟨_, rfl⟩
  have refused : ofDocument (listed []) = .error ⟨"/0/:limit", .invalidLimit "list of 0"⟩ := rfl
  obtain ⟨e, refused', path, fault⟩ := (ofDocument_of_respells (respelled []) none).2 _ refused
  have offsetPath : f.modifiers.offsetPath = some "/0/:limit/1" := by
    obtain rfl := Except.ok.inj read
    rfl
  exact ⟨⟨f, read, ((ofDocument_of_respells (respelled _) none).1 f).mp read, offsetPath⟩, refused,
    e, refused', path, fault⟩

end Filter

end FilterQuery
