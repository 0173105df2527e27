import FilterQuery.Proofs.StableOrder

/-!
# Records of one type

A collection takes its type from its first record, unless it has one beforehand. Main statement:
whatever is done to a collection, to its clones and subsets and to any others, and whatever is
refused on the way, its records have its type, a collection without a type never held a record, and
a type stays for good, also when no record is left. A list of records makes a collection if all of
them have one type, and then it is just that list.

A step leaves behind a collection that continues the one before: its records have the type of an
older one or the collection's own, and no type is lost. To continue is a preorder, so what holds of
a step holds of a run, and a subset continues the collection that it was selected from.
-/

namespace FilterQuery

variable {α : Type} [Record α]

/-- A field that is written leaves the type of the record alone. -/
def Record.WritesKeepType (α : Type) [Record α] : Prop :=
  ∀ (a b : α) (field : String) (value : Value),
    Record.setField a field value = .ok b → recordType b = recordType a

theorem Entity.writesKeepType : Record.WritesKeepType Entity := by
  intro a b field value written
  simp only [Record.setField] at written
  split at written
  · rw [← Except.ok.inj written]
    rfl
  · cases written

namespace Collection

/-- What every collection keeps. -/
structure OfOneType (c : Collection α) : Prop where
  typed : ∀ element ∈ c.elements, c.elementType = some (recordType element)
  untyped : c.elementType = none → c.elements = []
  locked : c.unlockable = false → c.locked = true

theorem OfOneType.of_typed {c : Collection α}
    (typed : ∀ element ∈ c.elements, c.elementType = some (recordType element))
    (locked : c.unlockable = false → c.locked = true) : c.OfOneType where
  typed := typed
  untyped unset := List.eq_nil_iff_forall_not_mem.mpr fun element he => by
    rw [typed element he] at unset
    cases unset
  locked := locked

/-- What a collection and a later state of it, or a subset of it, have to do with each other. -/
structure Continues (c next : Collection α) : Prop where
  members : ∀ a ∈ next.elements, next.elementType = some (recordType a) ∨
    ∃ b ∈ c.elements, recordType b = recordType a
  lasting : ∀ type, c.elementType = some type → next.elementType = some type
  locked : (c.unlockable = false → c.locked = true) → next.unlockable = false → next.locked = true

namespace Continues

variable {c next : Collection α}

/-- What continues a collection of one type is a collection of one type. -/
theorem ofOneType (h : Continues c next) (before : c.OfOneType) : next.OfOneType := by
  refine .of_typed (fun a ha => ?_) (h.locked before.locked)
  rcases h.members a ha with own | ⟨b, hb, same⟩
  · exact own
  · rw [← same]
    exact h.lasting _ (before.typed b hb)

/-- No record is new, and the type and the flags are as they were. -/
theorem of_members {elements : List α} (drawn : List Nat)
    (old : ∀ a ∈ elements, ∃ b ∈ c.elements, recordType b = recordType a) :
    Continues c { c with elements, drawn } where
  members a ha := .inr (old a ha)
  lasting _ h := h
  locked h := h

/-- Some of the records of a collection, in any order, continue it. -/
theorem of_subset {elements : List α} (drawn : List Nat) (old : elements ⊆ c.elements) :
    Continues c { c with elements, drawn } :=
  of_members drawn fun a ha => ⟨a, old ha, rfl⟩

theorem refl (c : Collection α) : Continues c c := of_subset c.drawn (List.Subset.refl _)

theorem trans {last : Collection α} (h : Continues c next) (h' : Continues next last) :
    Continues c last where
  members a ha := by
    rcases h'.members a ha with own | ⟨b, hb, same⟩
    · exact .inl own
    rcases h.members b hb with own | ⟨first, hf, same'⟩
    · rw [← same]
      exact .inl (h'.lasting _ own)
    · exact .inr ⟨first, hf, same'.trans same⟩
  lasting type h₀ := h'.lasting type (h.lasting type h₀)
  locked h₀ := h'.locked (h.locked h₀)

/-- A change that is refused leaves the collection as it is, so only the others matter. -/
theorem settle {outcome : Except Error (Option α × Collection α)}
    (h : ∀ element next, outcome = .ok (element, next) → Continues c next) :
    Continues c (c.settle outcome).2 := by
  cases outcome with
  | error e => exact refl c
  | ok done => exact h done.1 done.2 rfl

theorem quietly {outcome : Except Error (Collection α)}
    (h : ∀ next, outcome = .ok next → Continues c next) :
    Continues c (c.settle (Collection.quietly outcome)).2 := by
  cases outcome with
  | error e => exact refl c
  | ok next => exact h next rfl

end Continues

variable {c : Collection α}

/-- A collection that accepts a record has its type from then on, and had no other before. -/
theorem accept_eq_ok {element : α} {type : String} (h : c.accept element = .ok type) :
    type = recordType element ∧ ∀ old, c.elementType = some old → old = type := by
  obtain ⟨-, -, h⟩ := Except.bind_eq_ok.mp h
  split at h
  · next unset => exact ⟨(Except.ok.inj h).symm, fun old held => by simp [unset] at held⟩
  · next expected held =>
    dsimp only at h
    split at h
    · next same =>
      obtain rfl := Except.ok.inj h
      exact ⟨same, fun old held' => Option.some.inj (held'.symm.trans held)⟩
    · cases h

theorem continues_accept {element : α} {type : String} (accepted : c.accept element = .ok type)
    {elements : List α} (members : ∀ a ∈ elements, a = element ∨ a ∈ c.elements) :
    Continues c { c with elements, elementType := some type, drawn := [] } where
  members a ha := by
    obtain ⟨rfl, -⟩ := accept_eq_ok accepted
    rcases members a ha with rfl | old
    · exact .inl rfl
    · exact .inr ⟨a, old, rfl⟩
  lasting old held := by rw [(accept_eq_ok accepted).2 old held]
  locked h := h

/-- A pushed record has the type that the collection has from then on. -/
theorem continues_push {element : α} {next : Collection α} (h : c.push element = .ok next) :
    Continues c next := by
  obtain ⟨type, accepted, rest⟩ := Except.bind_eq_ok.mp h
  rw [← Except.ok.inj rest]
  exact continues_accept accepted fun a ha => by simpa [or_comm] using ha

theorem continues_unshift {element : α} {next : Collection α} (h : c.unshift element = .ok next) :
    Continues c next := by
  obtain ⟨type, accepted, rest⟩ := Except.bind_eq_ok.mp h
  rw [← Except.ok.inj rest]
  exact continues_accept accepted fun a ha => by simpa using ha

theorem continues_pop {element : Option α} {next : Collection α} (h : c.pop = .ok (element, next)) :
    Continues c next := by
  obtain ⟨-, -, rest⟩ := Except.bind_eq_ok.mp h
  split at rest
  · obtain ⟨-, rfl⟩ := Prod.mk.inj (Except.ok.inj rest)
    exact .refl c
  · obtain ⟨-, rfl⟩ := Prod.mk.inj (Except.ok.inj rest)
    exact .of_subset [] (List.dropLast_subset _)

theorem continues_shift {element : Option α} {next : Collection α}
    (h : c.shift = .ok (element, next)) : Continues c next := by
  obtain ⟨-, -, rest⟩ := Except.bind_eq_ok.mp h
  split at rest
  · obtain ⟨-, rfl⟩ := Prod.mk.inj (Except.ok.inj rest)
    exact .refl c
  · next first later members =>
    obtain ⟨-, rfl⟩ := Prod.mk.inj (Except.ok.inj rest)
    exact .of_subset [] (by rw [members]; exact List.subset_cons_self _ _)

theorem continues_lock (c : Collection α) (forever : Bool) : Continues c (c.lock forever) where
  members a ha := .inr ⟨a, ha, rfl⟩
  lasting _ h := h
  locked _ _ := rfl

/-- Only a lock that can be taken off is taken off. -/
theorem continues_unlock {next : Collection α} (h : c.unlock = .ok next) : Continues c next := by
  unfold unlock at h
  split at h
  · next unlockable =>
    rw [← Except.ok.inj h]
    refine ⟨fun a ha => .inr ⟨a, ha, rfl⟩, fun _ h => h, fun _ never => ?_⟩
    simp [unlockable] at never
  · cases h

theorem continues_reindex {reverse : Bool} {field : String} {next : Collection α}
    (h : c.reindex reverse field = .ok next) : Continues c next := by
  obtain ⟨elements, perm, rfl⟩ := exists_perm_of_reindex h
  exact .of_subset [] perm.subset

/-- A record keeps its type through writes that keep it one by one. -/
theorem recordType_of_rewritten (keeps : Record.WritesKeepType α)
    {allowed : String → Value → Prop} {a b : α} (h : Rewritten allowed a b) :
    recordType a = recordType b := by
  induction h with
  | refl => rfl
  | tail _ write ih =>
    obtain ⟨field, value, -, written⟩ := write
    exact ih.trans (keeps _ _ field value written).symm

/-- Writing a field of every record keeps the types, also where it is refused halfway. -/
theorem continues_setForEach (keeps : Record.WritesKeepType α) (c : Collection α) (field : String)
    (value : Value) : Continues c (c.setForEach field value).2 := by
  have rewritten : List.Forall₂ (Rewritten fun _ _ => True) c.elements
      (writeAll field value c.elements).1 := rewritten_writeAll trivial c.elements
  have types : c.elements.map recordType = (writeAll field value c.elements).1.map recordType := by
    rw [← List.forall₂_eq_eq_eq, List.forall₂_map_left_iff, List.forall₂_map_right_iff]
    exact rewritten.imp fun a b h => recordType_of_rewritten keeps h
  refine .of_members c.drawn fun a ha => ?_
  have there : recordType a ∈ c.elements.map recordType := by
    rw [types]
    exact List.mem_map_of_mem ha
  exact List.mem_map.mp there

/-- Every operation leaves behind a collection that continues the one before. -/
theorem continues_perform (keeps : Record.WritesKeepType α) (c : Collection α)
    (operation : Operation α) : Continues c (c.perform operation).2 := by
  cases operation with
  | push element => exact .quietly fun next => continues_push
  | unshift element => exact .quietly fun next => continues_unshift
  | pop => exact .settle fun element next => continues_pop
  | shift => exact .settle fun element next => continues_shift
  | lock forever => exact continues_lock c forever
  | unlock => exact .quietly fun next => continues_unlock
  | reindex reverse field => exact .quietly fun next => continues_reindex
  | draw choose =>
    obtain ⟨drawn, after⟩ := c.draw_eq choose
    simp only [perform, after]
    exact .of_subset drawn (List.Subset.refl _)
  | resetDraws => exact .of_subset [] (List.Subset.refl _)
  | setForEach field value => exact continues_setForEach keeps c field value

/-- A subset has no lock, but it has the type, also where it has no records. -/
theorem continues_select {selection : Selection} {subset : Collection α}
    (h : c.select selection = .ok subset) : Continues c subset := by
  obtain ⟨elements, kept, rfl⟩ := exists_sublist_of_select h
  exact ⟨fun a ha => .inr ⟨a, kept.subset ha, rfl⟩, fun _ h => h, fun _ => nofun⟩

/-! ### Collections of lists -/

/-- A collection without a lock, from which nothing was drawn. -/
def holding (type : String) (elements : List α) : Collection α :=
  { elements, elementType := some type }

theorem push_holding {type : String} {elements : List α} {a : α} (same : recordType a = type) :
    (holding type elements).push a = .ok (holding type (elements ++ [a])) := by
  simp [push, accept, ensureUnlocked, holding, same, bind, Except.bind, pure, Except.pure]

theorem push_holding_of_ne {type : String} {elements : List α} {a : α}
    (other : recordType a ≠ type) :
    (holding type elements).push a = .error (.typeMismatch type (recordType a)) := by
  simp [push, accept, ensureUnlocked, holding, Ne.symm other, bind, Except.bind]

theorem foldlM_push {type : String} {elements : List α}
    (same : ∀ a ∈ elements, recordType a = type) (held : List α) :
    elements.foldlM push (holding type held) = .ok (holding type (held ++ elements)) := by
  induction elements generalizing held with
  | nil => simp [pure, Except.pure]
  | cons a rest ih =>
    have later := ih (fun b hb => same b (List.mem_cons_of_mem _ hb)) (held ++ [a])
    rw [List.append_assoc] at later
    rw [List.foldlM_cons, push_holding (same a List.mem_cons_self)]
    exact later

theorem ofList_cons (first : α) (rest : List α) :
    ofList (first :: rest) = rest.foldlM push (holding (recordType first) [first]) := rfl

/-- A list of records of one type makes a collection of them, of the type of the first. -/
theorem ofList_of_same {elements : List α}
    (same : ∀ a ∈ elements, ∀ b ∈ elements, recordType a = recordType b) :
    ofList elements = .ok { elements, elementType := elements.head?.map recordType } := by
  cases elements with
  | nil => rfl
  | cons first rest =>
    have later : ∀ a ∈ rest, recordType a = recordType first := fun a ha =>
      same a (List.mem_cons_of_mem _ ha) first List.mem_cons_self
    rw [ofList_cons, foldlM_push later]
    rfl

/-- The first record of another type than that of the list is named in the refusal. -/
theorem ofList_of_other {first other : α} {rest : List α}
    (reached : ReachedIn (recordType · = recordType first) rest other)
    (differs : recordType other ≠ recordType first) :
    ofList (first :: rest) = .error (.typeMismatch (recordType first) (recordType other)) := by
  obtain ⟨before, after, rfl, same⟩ := reached
  rw [ofList_cons, List.foldlM_append, foldlM_push same]
  exact congrArg (· >>= fun c => after.foldlM push c) (push_holding_of_ne differs)

/-- The records of a list have one type, or there is a first that has another than the first of all.
-/
theorem same_or_other (elements : List α) :
    (∀ a ∈ elements, ∀ b ∈ elements, recordType a = recordType b) ∨
    ∃ first rest other, elements = first :: rest ∧
      ReachedIn (recordType · = recordType first) rest other ∧
      recordType other ≠ recordType first := by
  cases elements with
  | nil => exact .inl nofun
  | cons first rest =>
    by_cases all : ∀ a ∈ rest, recordType a = recordType first
    · have firsts : ∀ a ∈ first :: rest, recordType a = recordType first := by
        simpa using all
      exact .inl fun a ha b hb => (firsts a ha).trans (firsts b hb).symm
    · obtain ⟨other, reached, differs⟩ := exists_reachedIn (by simpa using all)
      exact .inr ⟨first, rest, other, rfl, reached, differs⟩

/-- A list makes a collection exactly where its records have one type. -/
theorem ofList_eq_ok {elements : List α} {c : Collection α} :
    ofList elements = .ok c ↔
      (∀ a ∈ elements, ∀ b ∈ elements, recordType a = recordType b) ∧
      c = { elements, elementType := elements.head?.map recordType } := by
  constructor
  · intro made
    rcases same_or_other elements with same | ⟨first, rest, other, rfl, reached, differs⟩
    · rw [ofList_of_same same] at made
      exact ⟨same, (Except.ok.inj made).symm⟩
    · rw [ofList_of_other reached differs] at made
      cases made
  · rintro ⟨same, rfl⟩
    exact ofList_of_same same

/-- The first record decides on the type, and the first one of another type is refused. -/
theorem ofList_eq_error {elements : List α} {e : Error} :
    ofList elements = .error e ↔
      ∃ first rest other, elements = first :: rest ∧
        ReachedIn (recordType · = recordType first) rest other ∧
        recordType other ≠ recordType first ∧
        e = .typeMismatch (recordType first) (recordType other) := by
  constructor
  · intro refused
    rcases same_or_other elements with same | ⟨first, rest, other, rfl, reached, differs⟩
    · rw [ofList_of_same same] at refused
      cases refused
    · rw [ofList_of_other reached differs] at refused
      exact ⟨first, rest, other, rfl, reached, differs, (Except.error.inj refused).symm⟩
  · rintro ⟨first, rest, other, rfl, reached, differs, rfl⟩
    exact ofList_of_other reached differs

/-- A collection as it is made, by itself or of a list. -/
inductive Made : Collection α → Prop
  | empty : Made empty
  | ofType (type : String) : Made (ofType type)
  | ofList {elements : List α} {c : Collection α} : ofList elements = .ok c → Made c

theorem ofOneType_empty : (empty : Collection α).OfOneType := .of_typed nofun nofun

theorem Made.ofOneType (made : Made c) : c.OfOneType := by
  cases made with
  | empty => exact ofOneType_empty
  | ofType type => exact .of_typed nofun nofun
  | @ofList elements _ made =>
    obtain ⟨same, rfl⟩ := ofList_eq_ok.mp made
    refine .of_typed (fun a ha => ?_) nofun
    cases elements with
    | nil => cases ha
    | cons first rest => exact congrArg some (same first List.mem_cons_self a ha)

end Collection

namespace Shelf

variable {s : Shelf α}

theorem continues_perform (keeps : Record.WritesKeepType α) {k : Nat} (hk : k < s.size)
    (task : Task α) : (s.collection k).Continues ((s.perform task).2.collection k) := by
  by_cases changes : ∃ operation, task = .change k operation
  · obtain ⟨operation, rfl⟩ := changes
    simp only [perform, collection_replace_self s _ hk]
    exact Collection.continues_perform keeps _ operation
  · rw [collection_perform_of_ne hk fun operation same => changes ⟨operation, same⟩]
    exact .refl _

/-- A collection at the end of a run continues the one at its beginning. -/
theorem continues_run (keeps : Record.WritesKeepType α) {k : Nat} (hk : k < s.size)
    (tasks : List (Task α)) : (s.collection k).Continues ((s.run tasks).collection k) := by
  induction tasks generalizing s with
  | nil => exact .refl _
  | cons task rest ih =>
    have there : k < (s.perform task).2.size := Nat.lt_of_lt_of_le hk (s.size_le_perform task)
    exact (continues_perform keeps hk task).trans (ih there)

def OfOneType (s : Shelf α) : Prop := ∀ c ∈ s.collections, c.OfOneType

theorem OfOneType.collection (h : s.OfOneType) (i : Nat) : (s.collection i).OfOneType := by
  rw [Shelf.collection]
  cases found : s.collections[i]? with
  | none => exact Collection.ofOneType_empty
  | some c => exact h c (List.mem_of_getElem? found)

theorem OfOneType.add (h : s.OfOneType) {c : Collection α} (hc : c.OfOneType) :
    (s.add c).OfOneType := by
  intro other member
  rcases List.mem_append.mp member with old | new
  · exact h other old
  · rw [List.mem_singleton.mp new]
    exact hc

/-- A new collection is a clone or a subset of one that is there. -/
theorem OfOneType.perform (keeps : Record.WritesKeepType α) (h : s.OfOneType) (task : Task α) :
    (s.perform task).2.OfOneType := by
  cases task with
  | change i operation =>
    intro c member
    rcases List.mem_or_eq_of_mem_set member with old | rfl
    · exact h c old
    · exact (Collection.continues_perform keeps _ operation).ofOneType (h.collection i)
  | ask i question => exact h
  | clone i => exact h.add (h.collection i)
  | select i selection =>
    simp only [Shelf.perform]
    split
    · next subset selected =>
      exact h.add ((Collection.continues_select selected).ofOneType (h.collection i))
    · exact h

/-- A run keeps every collection on the shelf to one type. -/
theorem OfOneType.run (keeps : Record.WritesKeepType α) (h : s.OfOneType) (tasks : List (Task α)) :
    (s.run tasks).OfOneType := by
  induction tasks generalizing s with
  | nil => exact h
  | cons task rest ih => exact ih (h.perform keeps task)

/-- What is true of a collection at any moment of a run, and of what becomes of it. -/
structure TypedForGood (c : Collection α) (later : Collection α) : Prop where
  ofOneType : c.OfOneType
  lasting : ∀ type, c.elementType = some type → later.elementType = some type
  nothing : later.elementType = none → c.elements = []

/-- A collection of one type is typed for good in whatever continues it. -/
theorem typedForGood_of_continues {c later : Collection α} (h : c.OfOneType)
    (continues : c.Continues later) : TypedForGood c later where
  ofOneType := h
  lasting := continues.lasting
  nothing unset := by
    apply h.untyped
    cases held : c.elementType with
    | none => rfl
    | some type =>
      rw [continues.lasting type held] at unset
      cases unset

end Shelf

/-- Whatever happens to collections that were made empty or of lists, each holds records of the one
type that it has for good. A list makes a collection of just its records, or its first record of
another type than the first is refused. -/
theorem records_of_one_type (α : Type) [Record α] (keeps : Record.WritesKeepType α) :
    (∀ s : Shelf α, (∀ c ∈ s.collections, c.Made) →
      ∀ (tasks : List (Task α)) (k : Nat), k < (s.run tasks).size → ∀ later : List (Task α),
        Shelf.TypedForGood ((s.run tasks).collection k) (((s.run tasks).run later).collection k)) ∧
    (∀ (elements : List α) (c : Collection α), Collection.ofList elements = .ok c ↔
      (∀ a ∈ elements, ∀ b ∈ elements, recordType a = recordType b) ∧
      c = { elements, elementType := elements.head?.map recordType }) ∧
    (∀ (elements : List α) (e : Error), Collection.ofList elements = .error e ↔
      ∃ first rest other, elements = first :: rest ∧
        ReachedIn (recordType · = recordType first) rest other ∧
        recordType other ≠ recordType first ∧
        e = .typeMismatch (recordType first) (recordType other)) := by
  refine ⟨?_, fun _ _ => Collection.ofList_eq_ok, fun _ _ => Collection.ofList_eq_error⟩
  intro s made tasks k hk later
  have start : s.OfOneType := fun c hc => (made c hc).ofOneType
  have now : ((s.run tasks).collection k).OfOneType := (start.run keeps tasks).collection k
  exact Shelf.typedForGood_of_continues now (Shelf.continues_run keeps hk later)

/-- A record of another type is refused, a clone and a subset lose their last record, and the types
stay. -/
theorem records_of_one_type_sample :
    let user : Entity := ⟨"user", [("id", .int 1)], []⟩
    let team : Entity := ⟨"team", [("id", .int 2)], []⟩
    let s : Shelf Entity := ⟨[.empty, .ofType "team"]⟩
    let tasks : List (Task Entity) := [.change 0 (.push user), .change 0 (.push team), .clone 0,
      .change 2 .pop, .select 0 (.field "id" (.int 2)), .change 1 (.unshift user)]
    let later : List (Task Entity) := [.change 2 (.push team), .change 2 (.setForEach "id" .null)]
    Record.WritesKeepType Entity ∧ (∀ c ∈ s.collections, c.Made) ∧ 2 < (s.run tasks).size ∧
      (s.run tasks).collections.map (fun c => (c.elements, c.elementType)) =
        [([user], some "user"), ([], some "team"), ([], some "user"), ([], some "user")] ∧
      Shelf.TypedForGood ((s.run tasks).collection 2) (((s.run tasks).run later).collection 2) ∧
      Collection.ofList [user, team] = .error (.typeMismatch "user" "team") := by
  intro user team s tasks later
  have made : ∀ c ∈ s.collections, c.Made := by
    intro c hc
    rcases List.mem_pair.mp hc with rfl | rfl
    · exact .empty
    · exact .ofType "team"
  have size : 2 < (s.run tasks).size := by decide +kernel
  have law := records_of_one_type Entity Entity.writesKeepType
  refine ⟨Entity.writesKeepType, made, size, by decide +kernel, law.1 s made tasks 2 size later, ?_⟩
  exact (law.2.2 _ _).mpr ⟨user, [team], team, rfl, ⟨[], [], rfl, nofun⟩, by decide, rfl⟩

end FilterQuery
