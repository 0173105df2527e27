import FilterQuery.Proofs.Blame

/-!
# The rules of a document

Rules stand among the entries of a document, at any depth. Main statement: a document that is read
gives the rules of the entries visited in it, in that order and no others, and every entry under
the key of a rule gives one.
-/

namespace FilterQuery

variable {known : Option (List String)}

/-- The rule that an entry gives, if its key is that of a rule and the rule takes its value. -/
def Entry.rule? (entry : Entry) : Option Rule :=
  entry.key.rule?.bind fun name => (Rule.read name entry.path entry.value).toOption

theorem Entry.rule?_of_noRule {entry : Entry} (h : entry.key.rule? = none) :
    entry.rule? = none := by
  rw [rule?, h]
  rfl

theorem Key.rule?_of_opens {key : Key} {value : Document} (h : key.opens value) :
    key.rule? = none := by
  simp only [opens, Bool.and_eq_true, Bool.or_eq_true, Bool.not_eq_true'] at h
  rcases h.2 with joined | ⟨number, -⟩
  · exact rule?_of_isConnective joined
  · exact rule?_of_isNumeric number

/-- A well-formed entry under the key of a rule has a value that the rule accepts. -/
theorem Plain.accepts {key : Key} {value : Document} (plain : Plain known key value)
    {name : RuleName} (named : key.rule? = some name) : name.Accepts value := by
  cases plain with
  | rule h accepted =>
    obtain rfl := Option.some.inj (named.symm.trans h)
    exact accepted
  | expression e h => simp [h] at named
  | equality v h | pair h => simp [h.rule?] at named
  | triple h => simp [Key.rule?_of_isNumeric h] at named

/-- A sound entry under the key of a rule states that rule. -/
theorem Entry.Sound.isSome_rule? {entry : Entry} (sound : entry.Sound known) {name : RuleName}
    (named : entry.key.rule? = some name) : entry.rule?.isSome := by
  rcases sound with opens | plain
  · simp [Key.rule?_of_opens opens] at named
  · obtain ⟨rule, read⟩ := Except.refusal?_eq_none.mp
      ((judges_rule entry.path name entry.value).accepts (plain.accepts named))
    rw [Entry.rule?, named, Option.bind_some, read]
    rfl

/-- A test states no rule. -/
theorem rules_readOperation {path : Path} {field operator : String} {operand : Document}
    {reading : Reading} (h : readOperation path field operator operand = .ok reading) :
    reading.rules = [] := by
  unfold readOperation at h
  split at h
  · cases h
  · split at h
    · obtain rfl := Except.ok.inj h
      rfl
    · cases h

theorem Shape.rules_pair {path : Path} {value operator operand : Document} {field : String}
    {reading : Reading} (h : (Shape.pair field operator operand).read path value = .ok reading) :
    reading.rules = [] := by
  rw [Shape.read] at h
  split at h
  · exact rules_readOperation h
  · cases h

/-- An entry that is no group gives its own rule. -/
theorem Plain.rules_readEntry (entry : Entry) (plain : Plain known entry.key entry.value)
    {reading : Reading} (h : readEntry known entry.path entry.key entry.value = .ok reading) :
    reading.rules = entry.rule?.toList := by
  obtain ⟨above, key, value⟩ := entry
  dsimp only at plain h
  cases plain with
  | @rule _ name named accepted =>
    rw [readEntry_of_shape (Shape.of_rule named) (by simp), Shape.read] at h
    cases read : Rule.read name (Entry.path ⟨above, key, value⟩) value with
    | error e =>
      rw [read] at h
      cases h
    | ok rule =>
      rw [read] at h
      obtain rfl := Except.ok.inj h
      rw [Entry.rule?, named, Option.bind_some, read]
      rfl
  | expression e noRule =>
    rw [readEntry_of_shape (Shape.of_expression noRule e) (by simp)] at h
    obtain rfl := Except.ok.inj h
    rw [Entry.rule?_of_noRule noRule]
    rfl
  | equality v names listed =>
    rw [readEntry_of_shape (Shape.of_listed names v listed) (by simp)] at h
    obtain rfl := Except.ok.inj h
    rw [Entry.rule?_of_noRule names.rule?]
    rfl
  | pair names ordered test =>
    rw [readEntry_pair names ordered] at h
    rw [Shape.rules_pair h, Entry.rule?_of_noRule names.rule?]
    rfl
  | triple number ordered test =>
    rw [readEntry_triple number ordered (isTriple_of_isTest ordered test), Shape.read_triple] at h
    rw [Shape.rules_pair h, Entry.rule?_of_noRule (Key.rule?_of_isNumeric number)]
    rfl

/-- A group has the rules of its entries. -/
theorem rules_readGroup {path : Path} {key : Key} {inner : Except CompileError Reading}
    {reading : Reading} (h : readGroup path key inner = .ok reading) :
    ∃ within, inner = .ok within ∧ reading.rules = within.rules := by
  obtain ⟨combinator, -, h⟩ := Except.bind_eq_ok.mp h
  obtain ⟨within, read, h⟩ := Except.bind_eq_ok.mp h
  obtain rfl := Except.ok.inj h
  exact ⟨within, read, rfl⟩

theorem rules_readEntries (path : Path) (entries : List (Key × Document))
    (each : ∀ entry ∈ entries, ∀ reading,
      readEntry known (path ++ [entry.1]) entry.1 entry.2 = .ok reading →
      reading.rules = (entry.2.visitsFrom path entry.1).filterMap Entry.rule?)
    {reading : Reading} (h : readEntries known path entries = .ok reading) :
    reading.rules = (Document.visitsOfEntries path entries).filterMap Entry.rule? := by
  induction entries generalizing reading with
  | nil =>
    obtain rfl := Except.ok.inj h
    rfl
  | cons entry rest ih =>
    rw [List.forall_mem_cons] at each
    rw [readEntries] at h
    obtain ⟨first, readFirst, h⟩ := Except.bind_eq_ok.mp h
    obtain ⟨later, readLater, h⟩ := Except.bind_eq_ok.mp h
    obtain rfl := Except.ok.inj h
    rw [Reading.rules_append, each.1 first readFirst, ih each.2 readLater,
      Document.visitsOfEntries, List.filterMap_append]

/-- An entry states the rules of the entries visited under it, in the order of the visits. -/
theorem rules_readEntry (value : Document) (above : Path) (key : Key) {reading : Reading}
    (h : readEntry known (above ++ [key]) key value = .ok reading) :
    reading.rules = (value.visitsFrom above key).filterMap Entry.rule? := by
  induction value using Document.entries_induction generalizing above key reading with
  | step value ih =>
    cases opened : key.opens value with
    | true =>
      obtain ⟨entries, he⟩ := Document.entries?_of_opens opened
      rw [readEntry_of_opens _ opened he] at h
      obtain ⟨within, read, rules⟩ := rules_readGroup h
      -- the group is visited first, and under its key there is no rule
      have own : Entry.rule? ⟨above, key, value⟩ = none :=
        Entry.rule?_of_noRule (Key.rule?_of_opens opened)
      rw [rules, Document.visitsFrom_of_opens opened he, List.filterMap_cons, own]
      exact rules_readEntries _ entries (fun entry hm _ => ih entries he entry hm _ _) read
    | false =>
      have plain : Plain known key value :=
        (judges_readEntry (above ++ [key]) opened).refusal?_eq_none.mp (by rw [h]; rfl)
      rw [Document.visitsFrom_of_closed opened]
      exact Plain.rules_readEntry ⟨above, key, value⟩ plain h

namespace Document

variable {document : Document} {reading : Reading}

/-- The rules of a document are those of its entries, in the order of the visits. -/
theorem rules_read (h : document.read known = .ok reading) :
    reading.rules = document.visits.filterMap Entry.rule? := by
  cases he : document.entries? with
  | none =>
    rw [read, he] at h
    cases h
  | some entries =>
    rw [read, he] at h
    rw [visits, he]
    exact rules_readEntries [] entries (fun entry _ _ => rules_readEntry entry.2 [] entry.1) h

theorem sound_of_read (h : document.read known = .ok reading) :
    ∀ entry ∈ document.visits, entry.Sound known := by
  intro entry visited
  cases he : document.entries? with
  | none => simp [visits, he] at visited
  | some entries =>
    have accepted : (document.read known).refusal? = none := by rw [h]; rfl
    rw [refusal?_read he, List.findSome?_eq_none_iff] at accepted
    exact Entry.refusal?_eq_none.mp (accepted entry visited)

/-- In a document that is read every entry under the key of a rule gives one. -/
theorem isSome_rule?_of_read (h : document.read known = .ok reading) {entry : Entry}
    (visited : entry ∈ document.visits) {name : RuleName} (named : entry.key.rule? = some name) :
    entry.rule?.isSome :=
  (sound_of_read h entry visited).isSome_rule? named

end Document

end FilterQuery
