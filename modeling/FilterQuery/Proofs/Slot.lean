import FilterQuery.Proofs.Gathering
import Mathlib.Data.List.Induction

/-!
# The slots of limits and offsets

A limit rule gives the limit, and the offset if it has one, and a document may have several such
rules at any depth. Main statement: what the modifiers hold in a slot in the end was given to it by
the last entry visited that gives it anything, and the path kept beside it leads to that scalar.
-/

namespace FilterQuery

inductive Slot where
  | limit
  | offset
  deriving DecidableEq, Repr

/-- Where the value of the slot stands in a rule that is a list. -/
def Slot.index : Slot → Nat
  | .limit => 0
  | .offset => 1

namespace Modifiers

variable (m : Modifiers)

def value? : Slot → Option Value
  | .limit => m.limit
  | .offset => m.offset

def path? : Slot → Option String
  | .limit => m.limitPath
  | .offset => m.offsetPath

end Modifiers

def Rule.located? : Slot → Rule → Option Located
  | .limit, .limit rows _ => some rows
  | .offset, .limit _ skip => skip
  | _, .order _ | _, .group _ => none

/-- A rule sets the slots that it names and leaves the others. -/
theorem Rule.value?_apply (m : Modifiers) (rule : Rule) (slot : Slot) :
    (rule.apply m).value? slot = ((rule.located? slot).map Located.value).or (m.value? slot) := by
  cases rule with
  | limit rows skip => cases slot <;> cases skip <;> rfl
  | _ => cases slot <;> rfl

/-- The path of a slot is that of its value: both are of the rule that set it last. -/
theorem Rule.path?_apply (m : Modifiers) (rule : Rule) (slot : Slot) :
    (rule.apply m).path? slot = ((rule.located? slot).map Located.path).or (m.path? slot) := by
  cases rule with
  | limit rows skip => cases slot <;> cases skip <;> rfl
  | _ => cases slot <;> rfl

/-- An entry under a key of limits gives a slot the scalar at a path. -/
inductive Entry.Gives (entry : Entry) : Slot → Path → Value → Prop
  | bare {v : Value} : entry.key.rule? = some .limit → entry.value = .scalar v →
    Gives entry .limit entry.path v
  | item {slot : Slot} {items : List Document} {v : Value} : entry.key.rule? = some .limit →
    entry.value.sequence? = some items → items[slot.index]? = some (.scalar v) →
    Gives entry slot (entry.path ++ [.index slot.index]) v

namespace Rule

variable {path : Path} {value : Document} {rule : Rule}

theorem located?_of_readOrder (h : readOrder path value = .ok rule) (slot : Slot) :
    rule.located? slot = none := by
  have isOrder : ∃ criteria, rule = .order criteria := by
    unfold readOrder at h
    split at h
    · exact ⟨_, (Except.ok.inj h).symm⟩
    · obtain ⟨criteria, -, rfl⟩ := Except.map_eq_ok.mp h
      exact ⟨criteria, rfl⟩
    · obtain ⟨criteria, -, rfl⟩ := Except.map_eq_ok.mp h
      exact ⟨criteria, rfl⟩
    · cases h
  obtain ⟨criteria, rfl⟩ := isOrder
  cases slot <;> rfl

theorem located?_of_readGroup (h : readGroup path value = .ok rule) (slot : Slot) :
    rule.located? slot = none := by
  have isGroup : ∃ columns, rule = .group columns := by
    unfold readGroup at h
    split at h
    · exact ⟨_, (Except.ok.inj h).symm⟩
    · split at h
      · exact ⟨_, (Except.ok.inj h).symm⟩
      · cases h
    · cases h
  obtain ⟨columns, rfl⟩ := isGroup
  cases slot <;> rfl

/-- The three ways to write a limit, with the place of each count. -/
theorem readLimit_cases (h : readLimit path value = .ok rule) :
    (∃ rows, value = .scalar rows ∧ rule = .limit ⟨rows, path.text⟩ none) ∨
    (∃ rows, value.sequence? = some [.scalar rows] ∧
      rule = .limit ⟨rows, Path.text (path ++ [.index 0])⟩ none) ∨
    ∃ rows skip, value.sequence? = some [.scalar rows, .scalar skip] ∧
      rule = .limit ⟨rows, Path.text (path ++ [.index 0])⟩
        (some ⟨skip, Path.text (path ++ [.index 1])⟩) := by
  unfold readLimit at h
  split at h
  · next rows bare => exact .inl ⟨rows, Document.scalar?_eq_some.mp bare, (Except.ok.inj h).symm⟩
  · next rows _ alone => exact .inr (.inl ⟨rows, alone, (Except.ok.inj h).symm⟩)
  · next rows skip _ both => exact .inr (.inr ⟨rows, skip, both, (Except.ok.inj h).symm⟩)
  · cases h

end Rule

namespace Entry

variable {entry : Entry} {rule : Rule} {slot : Slot}

/-- The rule of an entry is the one its key names, read from its value. -/
theorem exists_read_of_rule? (h : entry.rule? = some rule) :
    ∃ name, entry.key.rule? = some name ∧ Rule.read name entry.path entry.value = .ok rule := by
  obtain ⟨name, named, read⟩ := Option.bind_eq_some_iff.mp h
  refine ⟨name, named, ?_⟩
  cases outcome : Rule.read name entry.path entry.value with
  | error e => simp [outcome, Except.toOption] at read
  | ok r =>
    rw [outcome] at read
    rw [Option.some.inj read]

theorem Gives.named {path : Path} {v : Value} (gives : entry.Gives slot path v) :
    entry.key.rule? = some .limit := by
  cases gives with
  | bare named | item named => exact named

/-- What a rule has for a slot, its entry gives. -/
theorem exists_gives (h : entry.rule? = some rule) {located : Located}
    (held : rule.located? slot = some located) :
    ∃ path, located.path = path.text ∧ entry.Gives slot path located.value := by
  obtain ⟨name, named, read⟩ := exists_read_of_rule? h
  cases name with
  | order => simp [Rule.located?_of_readOrder read] at held
  | group => simp [Rule.located?_of_readGroup read] at held
  | limit =>
    rcases Rule.readLimit_cases read with
      ⟨rows, bare, rfl⟩ | ⟨rows, alone, rfl⟩ | ⟨rows, skip, both, rfl⟩
    · cases slot with
      | limit =>
        obtain rfl := Option.some.inj held
        exact ⟨entry.path, rfl, .bare named bare⟩
      | offset => cases held
    · cases slot with
      | limit =>
        obtain rfl := Option.some.inj held
        exact ⟨_, rfl, .item named alone rfl⟩
      | offset => cases held
    · cases slot with
      | limit =>
        obtain rfl := Option.some.inj held
        exact ⟨_, rfl, .item named both rfl⟩
      | offset =>
        obtain rfl := Option.some.inj held
        exact ⟨_, rfl, .item named both rfl⟩

/-- A rule has for a slot whatever its entry gives. -/
theorem Gives.isSome_located? {path : Path} {v : Value} (gives : entry.Gives slot path v)
    (h : entry.rule? = some rule) : (rule.located? slot).isSome := by
  obtain ⟨name, named, read⟩ := exists_read_of_rule? h
  obtain rfl := Option.some.inj (named.symm.trans gives.named)
  rcases Rule.readLimit_cases read with
    ⟨rows, bare, rfl⟩ | ⟨rows, alone, rfl⟩ | ⟨rows, skip, both, rfl⟩
  · cases gives with
    | bare => rfl
    | item _ ordered => simp [bare, Document.sequence?] at ordered
  · cases slot with
    | limit => rfl
    | offset =>
      cases gives with
      | item _ ordered at' =>
        obtain rfl := Option.some.inj (alone.symm.trans ordered)
        cases at'
  · cases slot <;> rfl

end Entry

/-- The modifiers that the rules of some entries make. -/
def modifiersOf (entries : List Entry) : Modifiers :=
  (entries.filterMap Entry.rule?).foldl Rule.apply {}

/-- The modifiers are what the rules make of the defaults, in the order of the visits. -/
theorem Filter.modifiers_of_read {document : Document} {known : Option (List String)} {f : Filter}
    (read : Filter.ofDocument document known = .ok f) :
    f.modifiers = modifiersOf document.visits := by
  obtain ⟨reading, made, rfl⟩ := Except.map_eq_ok.mp read
  rw [modifiersOf, ← Document.rules_read made]
  rfl

theorem modifiersOf_append_none {entry : Entry} (h : entry.rule? = none) (entries : List Entry) :
    modifiersOf (entries ++ [entry]) = modifiersOf entries := by
  simp [modifiersOf, List.filterMap_append, h]

theorem modifiersOf_append_some {entry : Entry} {rule : Rule} (h : entry.rule? = some rule)
    (entries : List Entry) :
    modifiersOf (entries ++ [entry]) = rule.apply (modifiersOf entries) := by
  simp [modifiersOf, List.filterMap_append, h]

/-- The last entry that gives the slot anything gives it the scalar at the path. -/
def GivenLast (entries : List Entry) (slot : Slot) (path : Path) (v : Value) : Prop :=
  ∃ before entry after, entries = before ++ entry :: after ∧ entry.Gives slot path v ∧
    ∀ later ∈ after, ∀ path v, ¬ later.Gives slot path v

theorem GivenLast.exists_giver {entries : List Entry} {slot : Slot} {path : Path} {v : Value}
    (given : GivenLast entries slot path v) : ∃ entry ∈ entries, entry.Gives slot path v := by
  obtain ⟨before, entry, after, rfl, gives, -⟩ := given
  exact ⟨entry, List.mem_append_right before List.mem_cons_self, gives⟩

/-- An entry that gives nothing for a slot leaves what was given last. -/
theorem GivenLast.append {entries : List Entry} {slot : Slot} {path : Path} {v : Value}
    (given : GivenLast entries slot path v) {entry : Entry}
    (silent : ∀ path v, ¬ entry.Gives slot path v) :
    GivenLast (entries ++ [entry]) slot path v := by
  obtain ⟨before, giver, after, rfl, gives, last⟩ := given
  refine ⟨before, giver, after ++ [entry], by simp, gives, ?_⟩
  exact List.forall_mem_append.mpr ⟨last, List.forall_mem_singleton.mpr silent⟩

/-- What a slot holds in the end was given to it last, and its path is kept beside it. -/
theorem exists_givenLast {entries : List Entry} {slot : Slot} {v : Value}
    (rules : ∀ entry ∈ entries, ∀ name, entry.key.rule? = some name → entry.rule?.isSome)
    (held : (modifiersOf entries).value? slot = some v) :
    ∃ path, GivenLast entries slot path v ∧
      (modifiersOf entries).path? slot = some path.text := by
  induction entries using List.reverseRecOn with
  | nil => cases slot <;> cases held
  | append_singleton entries entry ih =>
    obtain ⟨earlier, own⟩ := List.forall_mem_append.mp rules
    have keep (silent : ∀ path v, ¬ entry.Gives slot path v)
        (same : (modifiersOf entries).value? slot = some v) :
        ∃ path, GivenLast (entries ++ [entry]) slot path v ∧
          (modifiersOf entries).path? slot = some path.text := by
      obtain ⟨path, given, text⟩ := ih earlier same
      exact ⟨path, given.append silent, text⟩
    cases ruled : entry.rule? with
    | none =>
      rw [modifiersOf_append_none ruled] at held ⊢
      refine keep (fun path v gives => ?_) held
      have := own entry List.mem_cons_self _ gives.named
      simp [ruled] at this
    | some rule =>
      rw [modifiersOf_append_some ruled, Rule.value?_apply] at held
      rw [modifiersOf_append_some ruled, Rule.path?_apply]
      cases located : rule.located? slot with
      | none =>
        rw [located] at held
        refine keep (fun path v gives => ?_) held
        have := gives.isSome_located? ruled
        simp [located] at this
      | some place =>
        rw [located] at held
        obtain rfl := Option.some.inj held
        obtain ⟨path, text, gives⟩ := Entry.exists_gives ruled located
        exact ⟨path, ⟨entries, entry, [], rfl, gives, nofun⟩, congrArg some text⟩

namespace Document

theorem Leads.trans {document part inner : Document} {path below : Path}
    (h : document.Leads path part) (h' : part.Leads below inner) :
    document.Leads (path ++ below) inner := by
  induction h with
  | here => exact h'
  | down entries mem _ ih => exact .down entries mem (ih h')

theorem mem_indexed {items : List Document} {i : Nat} {item : Document} (h : items[i]? = some item)
    (k : Nat) : (.index (k + i), item) ∈ indexed k items := by
  induction items generalizing i k with
  | nil => simp at h
  | cons first rest ih =>
    cases i with
    | zero =>
      obtain rfl := Option.some.inj h
      exact List.mem_cons_self
    | succ i =>
      have later := ih (i := i) h (k + 1)
      rw [Nat.add_right_comm, Nat.add_assoc] at later
      exact List.mem_cons_of_mem _ later

/-- An item of a sequence is found under its position, in a list as in a map. -/
theorem leads_item {document : Document} {items : List Document} {i : Nat} {item : Document}
    (ordered : document.sequence? = some items) (h : items[i]? = some item) :
    document.Leads [.index i] item := by
  have mem := mem_indexed h 0
  rw [Nat.zero_add] at mem
  exact .down (entries?_of_sequence? ordered) mem (.here item)

/-- What an entry gives for a slot is the value found in the document at the path given with it. -/
theorem leads_of_gives {document : Document} {entry : Entry} {slot : Slot} {path : Path} {v : Value}
    (h : document.Leads entry.path entry.value) (gives : entry.Gives slot path v) :
    document.Leads path (.scalar v) := by
  cases gives with
  | bare _ bare => exact bare ▸ h
  | item _ ordered placed => exact h.trans (leads_item ordered placed)

end Document

end FilterQuery
