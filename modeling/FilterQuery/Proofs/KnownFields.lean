import FilterQuery.Proofs.Separation

/-!
# Known fields

A list of known fields restricts which fields a document may set equal to a scalar. Main statement:
the list only refuses. What is read with it is read without it, as the same filter, and what is read
without it is read with it if every field set equal to a scalar is known, wherever in the document
that is; else the first entry that sets another field is refused. So more known fields never refuse
more, and the filter does not depend on them.
-/

namespace FilterQuery

variable {known : Option (List String)} {fields : List String}

/-- If the entry sets a field equal to a scalar, the field is known. -/
def Entry.Listed (fields : List String) (entry : Entry) : Prop :=
  ∀ field v, entry.key.Names field → entry.value = .scalar v → field ∈ fields

/-- All fields that are set equal to a scalar anywhere but in a rule are known. -/
def Document.SetsOnly (document : Document) (fields : List String) : Prop :=
  ∀ above key v field, document.Leads (above ++ [key]) (.scalar v) →
    (∀ outer ∈ above, outer.isRule = false) → key.Names field → field ∈ fields

theorem plain_some_iff {key : Key} {value : Document} :
    Plain (some fields) key value ↔
      Plain none key value ∧ ∀ field v, key.Names field → value = .scalar v → field ∈ fields := by
  constructor
  · intro plain
    cases plain with
    | rule named accepted =>
      exact ⟨.rule named accepted, fun field v names => absurd names.rule? (by simp [named])⟩
    | expression e noRule => exact ⟨.expression e noRule, nofun⟩
    | equality v names listed =>
      refine ⟨.equality v names nofun, fun field w names' _ => ?_⟩
      obtain rfl := Key.name.inj (names.name.symm.trans names'.name)
      exact listed fields rfl
    | pair names ordered test =>
      refine ⟨.pair names ordered test, fun field v _ bare => ?_⟩
      simp [bare, Document.sequence?] at ordered
    | triple number ordered test =>
      refine ⟨.triple number ordered test, fun field v _ bare => ?_⟩
      simp [bare, Document.sequence?] at ordered
  · rintro ⟨plain, listed⟩
    cases plain with
    | rule named accepted => exact .rule named accepted
    | expression e noRule => exact .expression e noRule
    | equality v names =>
      exact .equality v names fun _ same => Option.some.inj same ▸ listed _ v names rfl
    | pair names ordered test => exact .pair names ordered test
    | triple number ordered test => exact .triple number ordered test

namespace Entry

variable {entry : Entry}

theorem sound_some_iff : entry.Sound (some fields) ↔ entry.Sound none ∧ entry.Listed fields := by
  rw [Sound, Sound, plain_some_iff]
  constructor
  · rintro (opens | plain)
    · refine ⟨.inl opens, fun field v _ bare => ?_⟩
      simp [Key.opens, bare, Document.isComposite] at opens
    · exact ⟨.inr plain.1, plain.2⟩
  · rintro ⟨opens | plain, listed⟩
    · exact .inl opens
    · exact .inr ⟨plain, listed⟩

theorem refusal?_of_not_listed (h : ¬ entry.Listed fields) :
    entry.refusal? (some fields) = some ⟨entry.path.text, .unknownShape⟩ := by
  obtain ⟨above, key, value⟩ := entry
  simp only [Listed, Classical.not_forall] at h
  obtain ⟨field, v, names, rfl, unlisted⟩ := h
  exact refusal?_readEntry_of_unknown (Shape.of_unlisted names v unlisted)

/-- Of an entry that is sound without a list, the list has only one thing to say. -/
theorem refusal?_some_eq_some (sound : entry.Sound none) {e : CompileError} :
    entry.refusal? (some fields) = some e ↔
      ¬ entry.Listed fields ∧ e = ⟨entry.path.text, .unknownShape⟩ := by
  by_cases listed : entry.Listed fields
  · simp [refusal?_eq_none.mpr (sound_some_iff.mpr ⟨sound, listed⟩), listed]
  · simp [refusal?_of_not_listed listed, listed, eq_comm]

end Entry

/-! ### Fields at any depth -/

namespace Document

variable {document part : Document} {path below : Path} {key : Key}

theorem eq_nil_of_leads (he : document.entries? = none) (h : document.Leads path part) :
    path = [] := by
  cases h with
  | here => rfl
  | down he' => simp [he] at he'

theorem key_of_mem_indexed {i : Nat} {items : List Document} {entry : Key × Document}
    (h : entry ∈ indexed i items) : ∃ k, entry.1 = .index k := by
  induction items generalizing i with
  | nil => cases h
  | cons item rest ih =>
    rcases List.mem_cons.mp h with rfl | h
    · exact ⟨i, rfl⟩
    · exact ih h

/-- In a sequence the first key is a position. -/
theorem exists_item_of_leads {items : List Document} (hs : document.sequence? = some items)
    (h : document.Leads (key :: path) part) :
    (∃ i, key = .index i) ∧ ∃ item ∈ items, item.Leads path part := by
  cases h with
  | down he mem later =>
    obtain rfl := Option.some.inj (he.symm.trans (entries?_of_sequence? hs))
    exact ⟨key_of_mem_indexed mem, _, mem_of_mem_indexed mem, later⟩

/-- The last key in a sequence of scalars is a position, and in a scalar there is none. -/
theorem key_of_leads_operand {op : Operator} {operand : Document} (fits : op.Fits operand)
    (h : operand.Leads (below ++ [key]) part) : ∃ i, key = .index i := by
  have scalarOrScalars : (∃ v, operand = .scalar v) ∨
      ∃ vs : List Value, operand.sequence? = some (vs.map .scalar) := by
    cases op with
    | compare | pattern => exact .inl fits
    | nullTest => exact .inl ⟨.null, fits⟩
    | membership => exact fits
  rcases scalarOrScalars with ⟨v, rfl⟩ | ⟨vs, ordered⟩
  · simpa using eq_nil_of_leads rfl h
  · cases below with
    | nil => exact (exists_item_of_leads ordered h).1
    | cons first below =>
      obtain ⟨-, item, mem, h⟩ := exists_item_of_leads ordered h
      obtain ⟨v, -, rfl⟩ := List.mem_map.mp mem
      simpa using eq_nil_of_leads rfl h

theorem key_of_leads_test (front : List Document) {operator operand : Document}
    (bare : ∀ item ∈ front, ∃ v, item = .scalar v) (test : IsTest operator operand)
    (hs : document.sequence? = some (front ++ [operator, operand]))
    (h : document.Leads (below ++ [key]) part) : ∃ i, key = .index i := by
  cases below with
  | nil => exact (exists_item_of_leads hs h).1
  | cons first below =>
    obtain ⟨-, item, mem, h⟩ := exists_item_of_leads hs h
    obtain ⟨word, op, rfl, -, fits⟩ := test
    simp only [List.mem_append, List.mem_cons, List.not_mem_nil, or_false] at mem
    rcases mem with mem | rfl | rfl
    · obtain ⟨v, rfl⟩ := bare item mem
      simpa using eq_nil_of_leads rfl h
    · simpa using eq_nil_of_leads rfl h
    · exact key_of_leads_operand fits h

end Document

theorem Plain.key_of_leads {key last : Key} {value part : Document} {below : Path}
    (plain : Plain known key value) (free : key.isRule = false)
    (h : value.Leads (below ++ [last]) part) : ∃ i, last = .index i := by
  cases plain with
  | rule named => simp [Key.isRule, named] at free
  | expression e noRule => simpa using Document.eq_nil_of_leads rfl h
  | equality v names => simpa using Document.eq_nil_of_leads rfl h
  | pair names ordered test =>
    exact Document.key_of_leads_test [] (List.forall_mem_nil _) test ordered h
  | triple number ordered test =>
    refine Document.key_of_leads_test [_] ?_ test ordered h
    exact List.forall_mem_singleton.mpr ⟨_, rfl⟩

namespace Document

variable {document : Document}

theorem mem_visitsOfEntries_iff {above : Path} {entries : List (Key × Document)} {visit : Entry} :
    visit ∈ visitsOfEntries above entries ↔
      ∃ entry ∈ entries, visit ∈ entry.2.visitsFrom above entry.1 := by
  rw [visitsOfEntries_eq, List.mem_flatMap]

theorem visits_eq {entries : List (Key × Document)} (he : document.entries? = some entries) :
    document.visits = visitsOfEntries [] entries := by
  rw [visits, he]

/-- Every field that is set in a row outside of its rules is set by an entry that is visited, if
this is so of the values in the row. -/
theorem mem_visitsOfEntries {entries : List (Key × Document)} {above below : Path} {last : Key}
    {v : Value} (each : ∀ entry ∈ entries, entry.1.isRule = false → ∀ deeper : Path,
      (∀ outer ∈ deeper, outer.isRule = false) → entry.2.Leads (deeper ++ [last]) (.scalar v) →
      ⟨above ++ entry.1 :: deeper, last, .scalar v⟩ ∈ entry.2.visitsFrom above entry.1)
    (he : document.entries? = some entries) (free : ∀ outer ∈ below, outer.isRule = false)
    (h : document.Leads (below ++ [last]) (.scalar v)) :
    ⟨above ++ below, last, .scalar v⟩ ∈ visitsOfEntries above entries := by
  rw [mem_visitsOfEntries_iff]
  cases below with
  | nil =>
    cases h with
    | @down _ value _ _ _ _ he' mem here =>
      obtain rfl := Option.some.inj (he.symm.trans he')
      cases here
      exact ⟨_, mem, by simp [visitsFrom]⟩
  | cons key deeper =>
    rw [List.forall_mem_cons] at free
    cases h with
    | @down _ value _ _ _ _ he' mem later =>
      obtain rfl := Option.some.inj (he.symm.trans he')
      exact ⟨_, mem, each _ mem free.1 deeper free.2 later⟩

theorem mem_visitsFrom_of_leads (value : Document) (above : Path) (key : Key)
    (sound : ∀ entry ∈ value.visitsFrom above key, entry.Sound known) (inside : key.isRule = false)
    {below : Path} (free : ∀ outer ∈ below, outer.isRule = false) {last : Key} {field : String}
    (names : last.Names field) {v : Value} (h : value.Leads (below ++ [last]) (.scalar v)) :
    ⟨above ++ key :: below, last, .scalar v⟩ ∈ value.visitsFrom above key := by
  induction value using entries_induction generalizing above key below with
  | step value ih =>
    cases opened : key.opens value with
    | true =>
      obtain ⟨entries, he⟩ := entries?_of_opens opened
      rw [visitsFrom_of_opens opened he, List.forall_mem_cons] at sound
      rw [visitsFrom_of_opens opened he, List.append_cons above key below]
      refine List.mem_cons_of_mem _ (mem_visitsOfEntries ?_ he free h)
      intro entry hm inside deeper free h
      exact ih entries he entry hm _ _
        (fun visit hv => sound.2 visit (mem_visitsOfEntries_iff.mpr ⟨entry, hm, hv⟩)) inside free h
    | false =>
      -- what is no group has nothing but positions in it, and they name no field
      rw [visitsFrom_of_closed opened, List.forall_mem_singleton] at sound
      rcases sound with opened' | plain
      · simp [opened] at opened'
      · obtain ⟨i, rfl⟩ := plain.key_of_leads inside h
        cases names.name

/-- The groups around an entry that is visited stand under no rule. -/
theorem free_of_mem_visitsFrom (value : Document) (above : Path) (key : Key)
    (free : ∀ outer ∈ above, outer.isRule = false) {entry : Entry}
    (h : entry ∈ value.visitsFrom above key) : ∀ outer ∈ entry.above, outer.isRule = false := by
  induction value using entries_induction generalizing above key with
  | step value ih =>
    cases opened : key.opens value with
    | true =>
      obtain ⟨entries, he⟩ := entries?_of_opens opened
      rw [visitsFrom_of_opens opened he, List.mem_cons, mem_visitsOfEntries_iff] at h
      rcases h with rfl | ⟨inner, hm, h⟩
      · exact free
      · refine ih entries he inner hm _ _ (List.forall_mem_append.mpr ⟨free, ?_⟩) h
        simp [Key.isRule, Key.rule?_of_opens opened]
    | false =>
      rw [visitsFrom_of_closed opened] at h
      obtain rfl := List.mem_singleton.mp h
      exact free

/-- Where all entries are sound, every field set equal to a scalar is set by an entry visited. -/
theorem setsOnly_iff (sound : ∀ entry ∈ document.visits, entry.Sound known) :
    document.SetsOnly fields ↔ ∀ entry ∈ document.visits, entry.Listed fields := by
  constructor
  · rintro only ⟨above, key, value⟩ visited field v names rfl
    have free : ∀ outer ∈ above, outer.isRule = false := by
      cases he : document.entries? with
      | none => simp [visits, he] at visited
      | some entries =>
        rw [visits_eq he, mem_visitsOfEntries_iff] at visited
        obtain ⟨outermost, -, visited⟩ := visited
        exact free_of_mem_visitsFrom _ _ _ (by simp) visited
    exact only above key v field (leads_of_mem_visits visited) free names
  · intro listed above key v field leads free names
    cases he : document.entries? with
    | none =>
      have last : above ++ [key] = [] := eq_nil_of_leads he leads
      simp at last
    | some entries =>
      rw [visits_eq he] at sound listed
      refine listed _ (mem_visitsOfEntries ?_ he free leads) field v names rfl
      intro entry hm inside deeper free leads
      exact mem_visitsFrom_of_leads entry.2 [] entry.1
        (fun visit hv => sound visit (mem_visitsOfEntries_iff.mpr ⟨entry, hm, hv⟩)) inside free
        names leads

end Document

/-! ### Reading with and without a list -/

namespace Filter

variable {document : Document} {f : Filter}

/-- What a document is read as does not depend on the known fields. -/
theorem eq_of_ofDocument {known known' : Option (List String)} {f g : Filter}
    (hf : ofDocument document known = .ok f) (hg : ofDocument document known' = .ok g) : f = g := by
  obtain ⟨a, readFirst, rfl⟩ := Except.map_eq_ok.mp hf
  obtain ⟨b, readSecond, rfl⟩ := Except.map_eq_ok.mp hg
  obtain ⟨entries, he, clauses⟩ := Document.clauses_read readFirst
  obtain ⟨entries', he', clauses'⟩ := Document.clauses_read readSecond
  obtain rfl := Option.some.inj (he.symm.trans he')
  have sameClauses : a.clauses = b.clauses := Option.some.inj (clauses.symm.trans clauses')
  have sameRules : a.rules = b.rules :=
    (Document.rules_read readFirst).trans (Document.rules_read readSecond).symm
  rw [Reading.filter, Reading.filter, sameClauses, sameRules]

theorem exists_entries?_of_ofDocument (h : ofDocument document known = .ok f) :
    ∃ entries, document.entries? = some entries := by
  obtain ⟨reading, made, -⟩ := Except.map_eq_ok.mp h
  obtain ⟨entries, he, -⟩ := Document.clauses_read made
  exact ⟨entries, he⟩

/-- Reading with a list is reading without one, where all fields that are set are known. -/
theorem ofDocument_some_eq_ok :
    ofDocument document (some fields) = .ok f ↔
      ofDocument document = .ok f ∧ ∀ entry ∈ document.visits, entry.Listed fields := by
  constructor
  · intro h
    obtain ⟨entries, he⟩ := exists_entries?_of_ofDocument h
    have sound := (exists_ofDocument_iff he).mp ⟨f, h⟩
    simp only [Entry.sound_some_iff] at sound
    obtain ⟨g, hg⟩ := (exists_ofDocument_iff he).mpr fun entry hm => (sound entry hm).1
    exact ⟨eq_of_ofDocument h hg ▸ hg, fun entry hm => (sound entry hm).2⟩
  · rintro ⟨h, listed⟩
    obtain ⟨entries, he⟩ := exists_entries?_of_ofDocument h
    have sound := (exists_ofDocument_iff he).mp ⟨f, h⟩
    have both : ∀ entry ∈ document.visits, entry.Sound (some fields) := fun entry hm =>
      Entry.sound_some_iff.mpr ⟨sound entry hm, listed entry hm⟩
    obtain ⟨g, hg⟩ := (exists_ofDocument_iff he).mpr both
    exact eq_of_ofDocument h hg ▸ hg

/-- Of a document that is read without a list, the first entry that sets an unknown field is
refused. -/
theorem ofDocument_some_eq_error (h : ofDocument document = .ok f) {e : CompileError} :
    ofDocument document (some fields) = .error e ↔
      ∃ entry, ReachedIn (Entry.Listed fields) document.visits entry ∧ ¬ entry.Listed fields ∧
        e = ⟨entry.path.text, .unknownShape⟩ := by
  obtain ⟨entries, he⟩ := exists_entries?_of_ofDocument h
  have sound := (exists_ofDocument_iff he).mp ⟨f, h⟩
  have passes {entry : Entry} (hm : entry ∈ document.visits) :
      entry.refusal? (some fields) = none ↔ entry.Listed fields := by
    rw [Entry.refusal?_eq_none, Entry.sound_some_iff, and_iff_right (sound entry hm)]
  rw [← Except.refusal?_eq_some, refusal?_ofDocument, Document.refusal?_read he,
    List.findSome?_eq_some_iff]
  constructor
  · rintro ⟨before, entry, after, cut, refused, earlier⟩
    have inside : ∀ visit ∈ before ++ entry :: after, visit ∈ document.visits := by simp [cut]
    rw [List.forall_mem_append, List.forall_mem_cons] at inside
    have own := (Entry.refusal?_some_eq_some (sound entry inside.2.1)).mp refused
    exact ⟨entry, ⟨before, after, cut, fun b hb => (passes (inside.1 b hb)).mp (earlier b hb)⟩, own⟩
  · rintro ⟨entry, ⟨before, after, cut, earlier⟩, unlisted, rfl⟩
    have inside : ∀ visit ∈ before, visit ∈ document.visits := by simp +contextual [cut]
    exact ⟨before, entry, after, cut, Entry.refusal?_of_not_listed unlisted,
      fun b hb => (passes (inside b hb)).mpr (earlier b hb)⟩

/-- A list of known fields refuses a document that sets another field equal to a scalar, at the
first place where it does, and changes nothing else. -/
theorem ofDocument_known_fields (document : Document) (fields : List String) :
    (∀ f, ofDocument document (some fields) = .ok f → ofDocument document = .ok f) ∧
    (∀ f, ofDocument document = .ok f →
      (ofDocument document (some fields) = .ok f ↔ document.SetsOnly fields) ∧
      ∀ e, ofDocument document (some fields) = .error e ↔
        ∃ entry, ReachedIn (Entry.Listed fields) document.visits entry ∧ ¬ entry.Listed fields ∧
          e = ⟨entry.path.text, .unknownShape⟩) ∧
    (∀ more f, fields ⊆ more → ofDocument document (some fields) = .ok f →
      ofDocument document (some more) = .ok f) ∧
    ∀ other f g, ofDocument document (some fields) = .ok f →
      ofDocument document (some other) = .ok g → f = g := by
  refine ⟨fun f h => (ofDocument_some_eq_ok.mp h).1, fun f h => ?_, fun more f sub h => ?_,
    fun other f g => eq_of_ofDocument⟩
  · obtain ⟨entries, he⟩ := exists_entries?_of_ofDocument h
    have sound := (exists_ofDocument_iff he).mp ⟨f, h⟩
    rw [ofDocument_some_eq_ok, and_iff_right h, Document.setsOnly_iff sound]
    exact ⟨Iff.rfl, fun e => ofDocument_some_eq_error h⟩
  · obtain ⟨bare, listed⟩ := ofDocument_some_eq_ok.mp h
    exact ofDocument_some_eq_ok.mpr
      ⟨bare, fun entry hm field v names same => sub (listed entry hm field v names same)⟩

/-- An unknown field in a group of a group. -/
theorem ofDocument_known_fields_sample :
    let document : Document := .map [
      (.name "age", .scalar (.int 18)),
      (.name ":or", .list [
        .map [
          (.name "role", .list [.scalar (.text "in"), .list [.scalar (.int 1)]]),
          (.name "kind", .scalar .null)],
        .expression ⟨"a = b", []⟩])]
    ∃ f, ofDocument document = .ok f ∧ document.SetsOnly ["kind", "age"] ∧
      ¬ document.SetsOnly ["age"] ∧
      ∃ entry, ReachedIn (Entry.Listed ["age"]) document.visits entry ∧ ¬ entry.Listed ["age"] ∧
        entry.path.text = "/:or/0/kind" := by
  intro document
  obtain ⟨f, both⟩ : ∃ f, ofDocument document (some ["kind", "age"]) = .ok f := ⟨_, rfl⟩
  have read := (ofDocument_known_fields document ["kind", "age"]).1 f both
  have only := ((ofDocument_known_fields document ["kind", "age"]).2.1 f read).1.mp both
  obtain ⟨accepted, refused⟩ := (ofDocument_known_fields document ["age"]).2.1 f read
  have error : ofDocument document (some ["age"]) = .error ⟨"/:or/0/kind", .unknownShape⟩ := rfl
  obtain ⟨entry, reached, unlisted, blamed⟩ := (refused _).mp error
  refine ⟨f, read, only, fun few => ?_, entry, reached, unlisted, ?_⟩
  · cases error.symm.trans (accepted.mpr few)
  · exact (congrArg CompileError.path blamed).symm

end Filter

end FilterQuery
