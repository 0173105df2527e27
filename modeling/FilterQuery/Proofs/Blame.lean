import FilterQuery.Proofs.Grammar

/-!
# Which entry is blamed

The entries of a document are visited depth first and in document order, a group before the entries
in it. Main statement: a document is read exactly if it is a list or a map of well-formed entries,
and else blamed is the first entry visited that is at fault itself, at the path of the keys that
lead to it.

A document is as deep as it likes, so the inductions go over its entries: what holds of a document
as soon as it holds of the values of its entries holds of every document.
-/

namespace FilterQuery

/-- An entry of a document, with the path of the document or group it stands in. -/
structure Entry where
  above : Path
  key : Key
  value : Document

def Entry.path (entry : Entry) : Path := entry.above ++ [entry.key]

/-- An entry that is no group is plain; of a group nothing is asked but that it is one. -/
def Entry.Sound (known : Option (List String)) (entry : Entry) : Prop :=
  entry.key.opens entry.value ∨ Plain known entry.key entry.value

namespace Document

mutual

/-- The entry under `key`, and if it is a group, what is visited in it. -/
def visitsFrom (above : Path) (key : Key) : Document → List Entry
  | .list items =>
    ⟨above, key, .list items⟩ ::
      if key.opens (.list items) then visitsOfItems (above ++ [key]) 0 items else []
  | .map entries =>
    ⟨above, key, .map entries⟩ ::
      if key.opens (.map entries) then visitsOfEntries (above ++ [key]) entries else []
  | .scalar value => [⟨above, key, .scalar value⟩]
  | .expression e => [⟨above, key, .expression e⟩]

def visitsOfItems (above : Path) (i : Nat) : List Document → List Entry
  | [] => []
  | item :: rest => visitsFrom above (.index i) item ++ visitsOfItems above (i + 1) rest

def visitsOfEntries (above : Path) : List (Key × Document) → List Entry
  | [] => []
  | (key, value) :: rest => visitsFrom above key value ++ visitsOfEntries above rest

end

/-- All entries of a document in the order in which they are visited. -/
def visits (document : Document) : List Entry :=
  match document.entries? with
  | some entries => visitsOfEntries [] entries
  | none => []

/-- The items of a list are visited as the entries of the map that spells it. -/
theorem visitsOfItems_eq (above : Path) (i : Nat) (items : List Document) :
    visitsOfItems above i items = visitsOfEntries above (indexed i items) := by
  induction items generalizing i with
  | nil => rfl
  | cons item rest ih => rw [visitsOfItems, indexed, visitsOfEntries, ih]

/-- An entry that is walked into is visited before the entries in it. -/
theorem visitsFrom_of_opens {above : Path} {key : Key} {value : Document}
    {entries : List (Key × Document)} (h : key.opens value) (he : value.entries? = some entries) :
    visitsFrom above key value =
      ⟨above, key, value⟩ :: visitsOfEntries (above ++ [key]) entries := by
  cases value with
  | list items =>
    cases he
    rw [visitsFrom, if_pos h, visitsOfItems_eq]
  | map entries =>
    cases he
    rw [visitsFrom, if_pos h]
  | _ => simp [entries?] at he

theorem visitsFrom_of_closed {above : Path} {key : Key} {value : Document}
    (h : key.opens value = false) : visitsFrom above key value = [⟨above, key, value⟩] := by
  cases value <;> simp [visitsFrom, h]

theorem entries?_of_opens {key : Key} {value : Document} (h : key.opens value) :
    ∃ entries, value.entries? = some entries := by
  cases value with
  | list items => exact ⟨_, rfl⟩
  | map entries => exact ⟨_, rfl⟩
  | _ => simp [Key.opens, isComposite] at h

theorem mem_of_mem_indexed {i : Nat} {items : List Document} {entry : Key × Document}
    (h : entry ∈ indexed i items) : entry.2 ∈ items := by
  induction items generalizing i with
  | nil => simp [indexed] at h
  | cons item rest ih =>
    rcases List.mem_cons.mp h with rfl | h
    · exact List.mem_cons_self
    · exact List.mem_cons_of_mem item (ih h)

/-- The value of an entry is smaller than the document. -/
theorem sizeOf_lt_of_mem_entries {document : Document} {entries : List (Key × Document)}
    (he : document.entries? = some entries) {entry : Key × Document} (h : entry ∈ entries) :
    sizeOf entry.2 < sizeOf document := by
  cases document with
  | list items =>
    cases he
    have inside := List.sizeOf_lt_of_mem (mem_of_mem_indexed h)
    rw [list.sizeOf_spec]
    omega
  | map entries =>
    cases he
    have inside := List.sizeOf_lt_of_mem h
    obtain ⟨key, value⟩ := entry
    rw [Prod.mk.sizeOf_spec] at inside
    rw [map.sizeOf_spec]
    change sizeOf value < _
    omega
  | _ => simp [entries?] at he

/-- What every document has if it has it whenever the values of its entries have it. -/
theorem entries_induction {motive : Document → Prop}
    (step : ∀ document, (∀ entries, document.entries? = some entries →
      ∀ entry ∈ entries, motive entry.2) → motive document) (document : Document) :
    motive document :=
  step document fun _ he entry hm =>
    have := sizeOf_lt_of_mem_entries he hm
    entries_induction step entry.2
termination_by sizeOf document

theorem visitsOfEntries_eq (above : Path) (entries : List (Key × Document)) :
    visitsOfEntries above entries =
      entries.flatMap fun entry => entry.2.visitsFrom above entry.1 := by
  induction entries with
  | nil => rfl
  | cons entry rest ih => rw [visitsOfEntries, ih, List.flatMap_cons]

/-- The keys of a path lead from a document to a part of it. -/
inductive Leads : Document → Path → Document → Prop
  | here (document : Document) : Leads document [] document
  | down {document value part : Document} {entries : List (Key × Document)} {key : Key}
    {path : Path} : document.entries? = some entries → (key, value) ∈ entries →
    Leads value path part → Leads document (key :: path) part

/-- The path of an entry leads to its value, through the key under which the walk entered. -/
theorem leads_of_mem_visitsFrom (value : Document) (above : Path) (key : Key) {entry : Entry}
    (h : entry ∈ value.visitsFrom above key) :
    ∃ below, entry.path = above ++ key :: below ∧ value.Leads below entry.value := by
  induction value using entries_induction generalizing above key with
  | step value ih =>
    cases opened : key.opens value with
    | true =>
      obtain ⟨entries, he⟩ := entries?_of_opens opened
      rw [visitsFrom_of_opens opened he] at h
      rcases List.mem_cons.mp h with rfl | h
      · exact ⟨[], rfl, .here value⟩
      · rw [visitsOfEntries_eq] at h
        obtain ⟨inner, hm, h⟩ := List.mem_flatMap.mp h
        obtain ⟨below, hp, leads⟩ := ih entries he inner hm _ _ h
        exact ⟨inner.1 :: below, by simp [hp], .down he hm leads⟩
    | false =>
      rw [visitsFrom_of_closed opened] at h
      obtain rfl := List.mem_singleton.mp h
      exact ⟨[], rfl, .here value⟩

end Document

variable {known : Option (List String)}

/-- A group is well formed if its entries are. -/
theorem wellFormed_of_opens {key : Key} {value : Document} {entries : List (Key × Document)}
    (opened : key.opens value) (he : value.entries? = some entries) :
    WellFormed known key value ↔ ∀ entry ∈ entries, WellFormed known entry.1 entry.2 := by
  refine ⟨fun formed => ?_, .group opened he⟩
  cases formed with
  -- a group has no reading as a plain entry, whatever stands in it
  | plain plain => simp [plain.not_opens] at opened
  | group _ he' all =>
    obtain rfl := Option.some_inj.mp (he.symm.trans he')
    exact all

/-- An entry is well formed if all that is visited in it is sound. -/
theorem wellFormed_iff (value : Document) (above : Path) (key : Key) :
    WellFormed known key value ↔ ∀ entry ∈ value.visitsFrom above key, entry.Sound known := by
  induction value using Document.entries_induction generalizing above key with
  | step value ih =>
    cases opened : key.opens value with
    | true =>
      obtain ⟨entries, he⟩ := Document.entries?_of_opens opened
      rw [Document.visitsFrom_of_opens opened he, List.forall_mem_cons,
        Document.visitsOfEntries_eq, List.forall_mem_flatMap, wellFormed_of_opens opened he]
      constructor
      · intro all
        exact ⟨.inl opened, fun entry hm => (ih entries he entry hm _ _).mp (all entry hm)⟩
      · rintro ⟨-, all⟩ entry hm
        exact (ih entries he entry hm _ _).mpr (all entry hm)
    | false =>
      rw [Document.visitsFrom_of_closed opened, List.forall_mem_singleton]
      constructor
      · intro formed
        cases formed with
        | plain plain => exact .inr plain
        | group opened' => simp [opened] at opened'
      · rintro (opened' | plain)
        · simp [opened] at opened'
        · exact .plain plain

/-- What an entry is refused for itself. -/
def Entry.refusal? (known : Option (List String)) (entry : Entry) : Option CompileError :=
  if entry.key.opens entry.value then none
  else (readEntry known entry.path entry.key entry.value).refusal?

theorem Entry.refusal?_eq_none {entry : Entry} :
    entry.refusal? known = none ↔ entry.Sound known := by
  unfold refusal? Sound
  cases opened : entry.key.opens entry.value with
  | true => simp
  | false => simpa using (judges_readEntry entry.path opened).refusal?_eq_none

/-- A visited entry that is unsound is refused at its own path, with the fault it has. -/
theorem Entry.refusal?_eq_some {entry : Entry} {e : CompileError} :
    entry.refusal? known = some e ↔
      ¬ entry.Sound known ∧ ∃ fault, Faulty known entry.key entry.value fault ∧
        e = ⟨entry.path.text, fault⟩ := by
  rw [← refusal?_eq_none]
  unfold refusal?
  cases opened : entry.key.opens entry.value with
  | true => simp
  | false =>
    simp only [Bool.false_eq_true, ↓reduceIte]
    rw [← (judges_readEntry entry.path opened).refusal?_eq_some]
    exact ⟨fun h => ⟨by simp [h], h⟩, fun h => h.2⟩

/-- The entries of a group are refused for the first unsound entry visited in them, where each of
them is. -/
theorem refusal?_readEntries (path : Path) (entries : List (Key × Document))
    (each : ∀ entry ∈ entries, (readEntry known (path ++ [entry.1]) entry.1 entry.2).refusal? =
      (entry.2.visitsFrom path entry.1).findSome? (Entry.refusal? known)) :
    (readEntries known path entries).refusal? =
      (Document.visitsOfEntries path entries).findSome? (Entry.refusal? known) := by
  induction entries with
  | nil => rfl
  | cons entry rest ih =>
    rw [List.forall_mem_cons] at each
    rw [readEntries, Except.refusal?_both, Document.visitsOfEntries, List.findSome?_append,
      each.1, ih each.2]

/-- Reading an entry is refused as the first entry visited in it that is refused for itself. -/
theorem refusal?_readEntry (value : Document) (above : Path) (key : Key) :
    (readEntry known (above ++ [key]) key value).refusal? =
      (value.visitsFrom above key).findSome? (Entry.refusal? known) := by
  induction value using Document.entries_induction generalizing above key with
  | step value ih =>
    cases opened : key.opens value with
    | true =>
      obtain ⟨entries, he⟩ := Document.entries?_of_opens opened
      -- the group comes first among its visits, and is not refused for itself
      have own : Entry.refusal? known ⟨above, key, value⟩ = none := if_pos opened
      rw [Document.visitsFrom_of_opens opened he, List.findSome?_cons, own,
        refusal?_readEntry_of_opens opened he]
      exact refusal?_readEntries _ entries fun entry hm => ih entries he entry hm _ _
    | false =>
      have own : Entry.refusal? known ⟨above, key, value⟩ =
          (readEntry known (above ++ [key]) key value).refusal? := if_neg (by simp [opened])
      rw [Document.visitsFrom_of_closed opened, List.findSome?_singleton, own]

theorem Document.leads_of_mem_visits {document : Document} {entry : Entry}
    (h : entry ∈ document.visits) : document.Leads entry.path entry.value := by
  cases he : document.entries? with
  | none => simp [visits, he] at h
  | some entries =>
    simp only [visits, he, visitsOfEntries_eq] at h
    obtain ⟨outer, hm, h⟩ := List.mem_flatMap.mp h
    obtain ⟨below, hp, leads⟩ := leads_of_mem_visitsFrom _ _ _ h
    rw [hp]
    exact .down he hm leads

/-- A document is well formed exactly where every entry that the walk visits is sound. -/
theorem Document.wellFormed_iff_visits {document : Document} {entries : List (Key × Document)}
    (he : document.entries? = some entries) :
    (∀ entry ∈ entries, WellFormed known entry.1 entry.2) ↔
      ∀ entry ∈ document.visits, entry.Sound known := by
  simp only [visits, he, visitsOfEntries_eq, List.forall_mem_flatMap]
  exact forall₂_congr fun entry _ => wellFormed_iff entry.2 [] entry.1

theorem Document.refusal?_read {document : Document} {entries : List (Key × Document)}
    (he : document.entries? = some entries) :
    (document.read known).refusal? = document.visits.findSome? (Entry.refusal? known) := by
  simp only [read, visits, he]
  exact refusal?_readEntries [] entries fun entry _ => refusal?_readEntry entry.2 [] entry.1

/-- Applying the rules refuses nothing. -/
theorem Filter.refusal?_ofDocument (known : Option (List String)) (document : Document) :
    (ofDocument document known).refusal? = (document.read known).refusal? :=
  Except.refusal?_map _ _

theorem Filter.exists_ofDocument_iff {document : Document} {entries : List (Key × Document)}
    (he : document.entries? = some entries) :
    (∃ f, ofDocument document known = .ok f) ↔ ∀ entry ∈ document.visits, entry.Sound known := by
  rw [← Except.refusal?_eq_none, refusal?_ofDocument, Document.refusal?_read he,
    List.findSome?_eq_none_iff]
  simp only [Entry.refusal?_eq_none]

theorem Entry.text_path (entry : Entry) :
    entry.path.text = String.join (entry.path.map fun key => "/" ++ key.text) := by
  unfold path
  cases entry.above <;> rfl

/-- The first refusal among entries is that of the first that is not sound. -/
theorem findSome?_refusal? {entries : List Entry} {e : CompileError} :
    entries.findSome? (Entry.refusal? known) = some e ↔
      ∃ entry fault, ReachedIn (Entry.Sound known) entries entry ∧ ¬ entry.Sound known ∧
        Faulty known entry.key entry.value fault ∧ e = ⟨entry.path.text, fault⟩ := by
  simp only [List.findSome?_eq_some_iff, Entry.refusal?_eq_some, Entry.refusal?_eq_none]
  constructor
  · rintro ⟨before, entry, after, cut, ⟨unsound, fault, faulty, same⟩, earlier⟩
    exact ⟨entry, fault, ⟨before, after, cut, earlier⟩, unsound, faulty, same⟩
  · rintro ⟨entry, fault, ⟨before, after, cut, earlier⟩, unsound, faulty, same⟩
    exact ⟨before, entry, after, cut, ⟨unsound, fault, faulty, same⟩, earlier⟩

/-- A document is read if it is made of well-formed entries, and else the first entry at fault is
blamed, at the keys that lead to it. -/
theorem Filter.ofDocument_blames_first (known : Option (List String)) (document : Document) :
    ((∃ f, Filter.ofDocument document known = .ok f) ↔
      ∃ entries, document.entries? = some entries ∧
        ∀ entry ∈ entries, WellFormed known entry.1 entry.2) ∧
    (∀ e, Filter.ofDocument document known = .error e ↔
      document.entries? = none ∧ e = ⟨"/", .unknownShape⟩ ∨
      ∃ entry fault, ReachedIn (Entry.Sound known) document.visits entry ∧
        ¬ entry.Sound known ∧ Faulty known entry.key entry.value fault ∧
        e = ⟨String.join (entry.path.map fun key => "/" ++ key.text), fault⟩) ∧
    ∀ entry ∈ document.visits, document.Leads entry.path entry.value := by
  refine ⟨?_, fun e => ?_, fun entry => Document.leads_of_mem_visits⟩
  · rw [← Except.refusal?_eq_none, refusal?_ofDocument]
    cases he : document.entries? with
    | none => simp [Document.read, he, Path.refuse]
    | some entries =>
      simp only [Document.refusal?_read he, List.findSome?_eq_none_iff, Entry.refusal?_eq_none,
        Option.some_inj, exists_eq_left']
      exact (Document.wellFormed_iff_visits he).symm
  · rw [← Except.refusal?_eq_some, refusal?_ofDocument]
    simp only [← Entry.text_path, ← findSome?_refusal?]
    cases he : document.entries? with
    | none => simp [Document.read, Document.visits, he, Path.refuse, Path.text, eq_comm]
    | some entries => simp [Document.refusal?_read he]

/-- Blamed is neither the group around the entry nor what comes after it. -/
example :
    (Filter.ofDocument (.map [
      (.name "age", .scalar (.int 18)),
      (.name ":Or", .list [
        .list [.scalar (.text "name"), .scalar (.text "like"), .scalar (.text "J%")],
        .map [(.name "age", .list [.scalar (.text ">"), .list []]), (.name ":xor", .map [])]]),
      (.name ":limit", .list [])]) (some ["age"])).refusal? =
      some ⟨"/:Or/1/age", .unknownShape⟩ := by
  decide

end FilterQuery
