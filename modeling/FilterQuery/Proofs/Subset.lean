import FilterQuery.Collection.Shelf
import FilterQuery.Proofs.Refusal

/-!
# Subsets

A subset holds the records in which a field, or the result of a call, equals the wanted value in the
order of values. Main statement: if every record can be judged, these are the records of the subset,
as they follow each other, and otherwise the first record that cannot be judged is to blame; the
collection and all others stay as they are. Selections that can judge all records may be made in
either order, and to repeat one changes nothing.
-/

namespace FilterQuery

variable {α : Type} [Record α]

namespace Selection

/-- What a selection looks at in a record. -/
def read : Selection → α → Except Error Value
  | .field name _, element => Record.readField element name
  | .call method arguments _, element => Record.call element method arguments

def wanted : Selection → Value
  | .field _ value => value
  | .call _ _ value => value

/-- Whether there is something to look at. -/
def Judges (selection : Selection) (element : α) : Prop :=
  ∃ found, selection.read element = .ok found

def picks (selection : Selection) (element : α) : Bool :=
  match selection.read element with
  | .ok found => found.compare selection.wanted == .eq
  | .error _ => false

/-- A selection by a field judges the records that have it. -/
theorem judges_field {name : String} {value : Value} {element : α} :
    (Selection.field name value).Judges element ↔ (Record.field? element name).isSome := by
  simp only [Judges, read, Record.readField]
  cases Record.field? element name <;> simp

theorem read_field_of_none {name : String} {value : Value} {element : α}
    (missing : Record.field? element name = none) :
    (Selection.field name value).read element =
      .error (.unknownField (recordType element) name) := by
  simp only [read, Record.readField, missing]

theorem exists_error_of_not_judges {selection : Selection} {element : α}
    (h : ¬ selection.Judges element) : ∃ e, selection.read element = .error e := by
  cases found : selection.read element with
  | error e => exact ⟨e, rfl⟩
  | ok v => exact absurd ⟨v, found⟩ h

end Selection

namespace Collection

section

variable {β : Type} {keep : β → Except Error Bool} {elements : List β}

theorem keepM_of_all {picks : β → Bool} (all : ∀ a ∈ elements, keep a = .ok (picks a)) :
    keepM keep elements = .ok (elements.filter picks) := by
  induction elements with
  | nil => rfl
  | cons a rest ih =>
    rw [List.forall_mem_cons] at all
    rw [keepM, all.1, ih all.2, List.filter_cons]
    rfl

theorem keepM_of_first {a : β} {e : Error}
    (first : ReachedIn (fun b => ∃ kept, keep b = .ok kept) elements a)
    (refused : keep a = .error e) : keepM keep elements = .error e := by
  obtain ⟨before, after, rfl, all⟩ := first
  induction before with
  | nil =>
    rw [List.nil_append, keepM, refused]
    rfl
  | cons b before ih =>
    rw [List.forall_mem_cons] at all
    obtain ⟨kept, judged⟩ := all.1
    rw [List.cons_append, keepM, judged, ih all.2]
    rfl

end

variable {c : Collection α} {selection : Selection}

/-- The two ways to select differ in what they look at. -/
theorem select_eq (c : Collection α) (selection : Selection) :
    c.select selection = c.subset fun element =>
      (selection.read element).map fun found => found.compare selection.wanted == .eq := by
  cases selection <;> rfl

/-- The records that a selection picks, in a collection of their own. -/
def picked (c : Collection α) (selection : Selection) : Collection α :=
  { elements := c.elements.filter selection.picks
    elementType := c.elementType
    locked := false
    unlockable := true
    drawn := [] }

/-- A selection that judges every record makes the subset of those it picks. -/
theorem select_of_judges (all : ∀ a ∈ c.elements, selection.Judges a) :
    c.select selection = .ok (c.picked selection) := by
  have judged : ∀ a ∈ c.elements, ((selection.read a).map fun found =>
      found.compare selection.wanted == .eq) = .ok (selection.picks a) := by
    intro a ha
    obtain ⟨found, h⟩ := all a ha
    simp only [h, Selection.picks, Except.map]
  rw [select_eq, subset, keepM_of_all judged]
  rfl

theorem select_of_first {a : α} {e : Error} (first : ReachedIn selection.Judges c.elements a)
    (refused : selection.read a = .error e) : c.select selection = .error e := by
  obtain ⟨before, after, cut, all⟩ := first
  rw [select_eq, subset, keepM_of_first (a := a) (e := e)]
  · rfl
  · refine ⟨before, after, cut, fun b hb => ?_⟩
    obtain ⟨found, h⟩ := all b hb
    exact ⟨_, by rw [h]; rfl⟩
  · rw [refused]
    rfl

/-- Where not every record is judged, the first that is not is the one that the refusal is about. -/
theorem exists_first_unjudged (unjudged : ¬ ∀ a ∈ c.elements, selection.Judges a) :
    ∃ a e, ReachedIn selection.Judges c.elements a ∧ selection.read a = .error e ∧
      c.select selection = .error e := by
  obtain ⟨a, first, bad⟩ := exists_reachedIn (by simpa using unjudged)
  obtain ⟨e, refused⟩ := Selection.exists_error_of_not_judges bad
  exact ⟨a, e, first, refused, select_of_first first refused⟩

theorem judges_of_mem_picked {other : Selection} (all : ∀ a ∈ c.elements, selection.Judges a) :
    ∀ a ∈ (c.picked other).elements, selection.Judges a :=
  fun a ha => all a (List.mem_filter.mp ha).1

/-- Two selections pick the same records in either order. -/
theorem picked_comm (c : Collection α) (first second : Selection) :
    (c.picked first).picked second = (c.picked second).picked first := by
  simp only [picked, List.filter_filter, Bool.and_comm]

/-- Two selections that judge every record make the subset of the records that both pick. -/
theorem select_select {first second : Selection} (all : ∀ a ∈ c.elements, first.Judges a)
    (all' : ∀ a ∈ c.elements, second.Judges a) :
    (c.select first >>= fun subset => subset.select second) =
      .ok ((c.picked first).picked second) := by
  rw [select_of_judges all]
  exact select_of_judges (judges_of_mem_picked all')

/-- To select twice is to select once, also in what is refused. -/
theorem select_self (c : Collection α) (selection : Selection) :
    (c.select selection >>= fun subset => subset.select selection) = c.select selection := by
  by_cases all : ∀ a ∈ c.elements, selection.Judges a
  · rw [select_select all all, select_of_judges all]
    simp only [picked, List.filter_filter, Bool.and_self]
  · obtain ⟨a, e, -, -, refused⟩ := exists_first_unjudged all
    rw [refused]
    rfl

/-- A selection picks just the records with the wanted value or blames the first record that it
cannot judge, and it leaves all collections alone. Two selections that can judge all records may be
exchanged, and one that is repeated changes nothing. -/
theorem select_exact (α : Type) [Record α] :
    (∀ (c : Collection α) (selection : Selection), (∀ a ∈ c.elements, selection.Judges a) →
      c.select selection = .ok (c.picked selection)) ∧
    (∀ (c : Collection α) (selection : Selection), ¬ (∀ a ∈ c.elements, selection.Judges a) →
      ∃ a e, ReachedIn selection.Judges c.elements a ∧ selection.read a = .error e ∧
        c.select selection = .error e ∧
        ∀ name value, selection = .field name value →
          Record.field? a name = none ∧ e = .unknownField (recordType a) name) ∧
    (∀ (s : Shelf α) (i k : Nat) (selection : Selection), k < s.size →
      (s.perform (.select i selection)).2.collection k = s.collection k) ∧
    (∀ (c : Collection α) (first second : Selection),
      (∀ a ∈ c.elements, first.Judges a ∧ second.Judges a) →
      ∃ both, (c.select first >>= fun subset => subset.select second) = .ok both ∧
        (c.select second >>= fun subset => subset.select first) = .ok both) ∧
    (∀ (c : Collection α) (selection : Selection),
      (c.select selection >>= fun subset => subset.select selection) = c.select selection) := by
  refine ⟨fun _ _ => select_of_judges, ?_, ?_, ?_, select_self⟩
  · intro c selection unjudged
    obtain ⟨a, e, first, refused, selected⟩ := exists_first_unjudged unjudged
    refine ⟨a, e, first, refused, selected, ?_⟩
    rintro name value rfl
    cases held : Record.field? a name with
    | none =>
      rw [Selection.read_field_of_none held] at refused
      exact ⟨rfl, (Except.error.inj refused).symm⟩
    | some found => simp [Selection.read, Record.readField, held] at refused
  · intro s i k selection hk
    exact Shelf.collection_perform_of_ne hk nofun
  · intro c first second all
    have front : ∀ a ∈ c.elements, first.Judges a := fun a ha => (all a ha).1
    have back : ∀ a ∈ c.elements, second.Judges a := fun a ha => (all a ha).2
    exact ⟨_, select_select front back, by rw [select_select back front, picked_comm]⟩

/-- An integer that is rounded to the wanted double is picked, by the field first or by the call
first. A record without the field is to blame. -/
theorem select_exact_sample :
    let record (id : Int64) (k m : Value) : Entity := ⟨"r", [("id", id), ("k", k)], [("m", m)]⟩
    let c : Collection Entity :=
      { elements := [record 1 (.int 9007199254740993) (.bool true), record 2 (.text "a") (.bool true),
          record 3 (.float ⟨0x4340000000000000⟩) .null]
        elementType := some "r"
        locked := true
        unlockable := false
        drawn := [2, 1] }
    let large : Selection := .field "k" (.float ⟨0x4340000000000000⟩)
    let active : Selection := .call "m" [] (.bool true)
    let incomplete : Collection Entity := { c with elements := c.elements ++ [⟨"s", [], []⟩] }
    let s : Shelf Entity := ⟨[incomplete, c]⟩
    (∀ a ∈ c.elements, large.Judges a ∧ active.Judges a) ∧
      c.select large = .ok { elements := [record 1 (.int 9007199254740993) (.bool true),
        record 3 (.float ⟨0x4340000000000000⟩) .null], elementType := some "r" } ∧
      (∃ both, (c.select large >>= fun subset => subset.select active) = .ok both ∧
        (c.select active >>= fun subset => subset.select large) = .ok both) ∧
      ¬ (∀ a ∈ incomplete.elements, large.Judges a) ∧
      (∃ a ∈ incomplete.elements, Record.field? a "k" = none ∧
        incomplete.select large = .error (.unknownField (recordType a) "k")) ∧
      (s.perform (.select 1 large)).2.collection 0 = incomplete := by
  intro record c large active incomplete s
  obtain ⟨exact, blamed, apart, exchanged, -⟩ := select_exact Entity
  have judged : ∀ a ∈ c.elements, large.Judges a ∧ active.Judges a := by
    intro a ha
    have known : (Record.field? a "k").isSome ∧ ∃ found, active.read a = .ok found := by
      simp only [c, List.mem_cons, List.not_mem_nil, or_false] at ha
      rcases ha with rfl | rfl | rfl <;> exact ⟨rfl, _, rfl⟩
    exact ⟨Selection.judges_field.mpr known.1, known.2⟩
  have unjudged : ¬ ∀ a ∈ incomplete.elements, large.Judges a := by
    intro all
    have there := Selection.judges_field.mp (all ⟨"s", [], []⟩ (by simp [incomplete]))
    cases there
  refine ⟨judged, ?_, exchanged c large active judged, unjudged, ?_, apart s 1 0 large (by decide)⟩
  · rw [exact c large fun a ha => (judged a ha).1]
    exact congrArg Except.ok (by decide +kernel)
  · obtain ⟨a, e, first, -, refused, lacks⟩ := blamed incomplete large unjudged
    obtain ⟨missing, rfl⟩ := lacks "k" _ rfl
    obtain ⟨before, after, cut, -⟩ := first
    exact ⟨a, by rw [cut]; simp, missing, refused⟩

end Collection

end FilterQuery
