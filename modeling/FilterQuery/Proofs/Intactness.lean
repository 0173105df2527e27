import FilterQuery.Collection.Change
import FilterQuery.Collection.Shelf
import FilterQuery.Proofs.Work
import Mathlib.Data.List.Forall2

/-!
# What a failure leaves behind

Operations look at a collection before they change it, and where one of them changes it between two
looks, as when a record is let in and its type recorded, nothing is refused any more afterwards.
Main statement: step by step, an operation that fails has left the collection as it was, and so has
a failed task all collections of a shelf. Only writes to all records are made while others may still
be refused: then the records before the first that refuses are written, and it and the later ones
are as they were.
-/

namespace FilterQuery

variable {α : Type}

namespace Change

theorem ensureUnlocked_apply (c : Collection α) : ensureUnlocked c = (c.ensureUnlocked, c) := by
  unfold ensureUnlocked Collection.ensureUnlocked
  rw [ExceptT.bind_apply]
  simp only [look]
  split <;> rfl

variable [Record α] (c : Collection α)

/-- The type is recorded once nothing more can be refused. -/
theorem letIn_apply (element : α) : letIn element c =
    match c.accept element with
    | .ok type => (.ok (), { c with elementType := some type })
    | .error e => (.error e, c) := by
  unfold letIn Collection.accept
  rw [ExceptT.bind_apply, ensureUnlocked_apply]
  cases c.ensureUnlocked with
  | error e => rfl
  | ok _ =>
    simp only [ExceptT.bind_apply, look]
    obtain ⟨elements, elementType, locked, unlockable, drawn⟩ := c
    cases elementType with
    | none => rfl
    | some expected =>
      by_cases same : expected = recordType element
      · simp only [same, ne_eq, not_true_eq_false, if_false, if_true]
        rfl
      · simp only [ne_eq, same, not_false_eq_true, if_false, if_true]
        rfl

/-- At the places from the end of `done` on, writes go as far as they do record by record. -/
theorem forM_writeAt (field : String) (value : Value) (done rest : List α) :
    forM (List.range' done.length rest.length) (writeAt field value)
        { c with elements := done ++ rest } =
      ((Collection.writeAll field value rest).2,
        { c with elements := done ++ (Collection.writeAll field value rest).1 }) := by
  induction rest generalizing done with
  | nil => rfl
  | cons element rest ih =>
    have here : (done ++ element :: rest)[done.length]? = some element := by simp
    rw [List.length_cons, List.range'_succ, List.forM_cons, ExceptT.bind_apply, writeAt,
      ExceptT.bind_apply]
    simp only [look, here, Collection.writeAll, ExceptT.bind_apply, ofExcept]
    cases Record.setField element field value with
    | error e => rfl
    | ok written =>
      have later := ih (done ++ [written])
      simp only [List.length_append, List.length_singleton, List.append_assoc,
        List.singleton_append] at later
      simp only [alter, List.set_append_right _ _ (Nat.le_refl _), Nat.sub_self, List.set_cons_zero]
      exact later

theorem steps_push (element : α) :
    (Operation.push element).steps c = c.perform (.push element) := by
  simp only [Operation.steps, push, Collection.perform, Collection.push, ExceptT.bind_apply,
    letIn_apply]
  cases c.accept element <;> rfl

theorem steps_unshift (element : α) :
    (Operation.unshift element).steps c = c.perform (.unshift element) := by
  simp only [Operation.steps, unshift, Collection.perform, Collection.unshift, ExceptT.bind_apply,
    letIn_apply]
  cases c.accept element <;> rfl

theorem steps_pop : Operation.pop.steps c = c.perform .pop := by
  simp only [Operation.steps, pop, Collection.perform, Collection.pop, ExceptT.bind_apply,
    ensureUnlocked_apply, look]
  cases c.ensureUnlocked with
  | error e => rfl
  | ok _ =>
    obtain ⟨elements, elementType, locked, unlockable, drawn⟩ := c
    rcases elements.eq_nil_or_concat with rfl | ⟨front, last, rfl⟩
    · rfl
    · simp only [List.concat_eq_append, List.getLast?_concat]
      rfl

theorem steps_shift : Operation.shift.steps c = c.perform .shift := by
  simp only [Operation.steps, shift, Collection.perform, Collection.shift, ExceptT.bind_apply,
    ensureUnlocked_apply, look]
  cases c.ensureUnlocked with
  | error e => rfl
  | ok _ =>
    obtain ⟨elements, elementType, locked, unlockable, drawn⟩ := c
    cases elements <;> rfl

theorem steps_lock (forever : Bool) :
    (Operation.lock forever).steps c = c.perform (.lock forever) := by
  obtain ⟨elements, elementType, locked, unlockable, drawn⟩ := c
  cases forever <;> cases unlockable <;> rfl

theorem steps_unlock : Operation.unlock.steps c = c.perform .unlock := by
  obtain ⟨elements, elementType, locked, unlockable, drawn⟩ := c
  cases unlockable <;> rfl

theorem steps_reindex (reverse : Bool) (field : String) :
    (Operation.reindex reverse field).steps c = c.perform (.reindex reverse field) := by
  simp only [Operation.steps, reindex, Collection.perform, Collection.reindex, ExceptT.bind_apply,
    ensureUnlocked_apply, look, ofExcept]
  cases c.ensureUnlocked with
  | error e => rfl
  | ok _ =>
    dsimp only
    cases c.elements.mapM fun element => Record.readField element field <;> rfl

theorem steps_draw (choose : Chooser) :
    (Operation.draw choose).steps c = c.perform (.draw choose) := by
  simp only [Operation.steps, draw, Collection.perform, Collection.draw, ExceptT.bind_apply, look]
  cases c.pool <;> rfl

theorem steps_setForEach (field : String) (value : Value) :
    (Operation.setForEach field value).steps c = c.perform (.setForEach field value) := by
  have written := forM_writeAt c field value [] c.elements
  rw [List.length_nil, ← List.range_eq_range'] at written
  simp only [Operation.steps, setForEach, Collection.perform, Collection.setForEach,
    ExceptT.bind_apply, look]
  rw [List.nil_append] at written
  rw [written]
  cases (Collection.writeAll field value c.elements).2 <;> rfl

/-- Step by step as at once. -/
theorem steps_eq_perform (operation : Operation α) : operation.steps c = c.perform operation := by
  cases operation with
  | push element => exact steps_push c element
  | unshift element => exact steps_unshift c element
  | pop => exact steps_pop c
  | shift => exact steps_shift c
  | lock forever => exact steps_lock c forever
  | unlock => exact steps_unlock c
  | reindex reverse field => exact steps_reindex c reverse field
  | draw choose => exact steps_draw c choose
  | resetDraws => rfl
  | setForEach field value => exact steps_setForEach c field value

end Change

section

variable [Record α]

/-- Whether an operation writes to all records. -/
def Operation.Writes (operation : Operation α) : Prop :=
  ∃ field value, operation = .setForEach field value

/-- How far a value was written into records one after another: into all of them, or into those
before the first that refuses. -/
inductive WritesInOrder (field : String) (value : Value) :
    List α → Except Error (Option α) → List α → Prop
  | all {before after : List α} :
    List.Forall₂ (fun a b => Record.setField a field value = .ok b) before after →
    WritesInOrder field value before (.ok none) after
  | upTo {front written back : List α} {a : α} {e : Error} :
    List.Forall₂ (fun a b => Record.setField a field value = .ok b) front written →
    Record.setField a field value = .error e →
    WritesInOrder field value (front ++ a :: back) (.error e) (written ++ a :: back)

namespace WritesInOrder

variable {field : String} {value : Value} {before after : List α}
  {outcome : Except Error (Option α)}

theorem cons {a b : α} (first : Record.setField a field value = .ok b)
    (h : WritesInOrder field value before outcome after) :
    WritesInOrder field value (a :: before) outcome (b :: after) := by
  cases h with
  | all written => exact .all (.cons first written)
  | upTo written refused => exact .upTo (.cons first written) refused

/-- Every record is at its place, written or as it was. -/
theorem places (h : WritesInOrder field value before outcome after) :
    List.Forall₂ (fun a b => b = a ∨ Record.setField a field value = .ok b) before after := by
  cases h with
  | all written => exact written.imp fun _ _ => .inr
  | @upTo front written back a e taken refused =>
    have rest : List.Forall₂ (fun a b => b = a ∨ Record.setField a field value = .ok b)
        (a :: back) (a :: back) := List.forall₂_same.mpr fun _ _ => .inl rfl
    exact List.rel_append (taken.imp fun _ _ => .inr) rest

/-- Nothing is refused exactly if all records take the value. -/
theorem eq_ok_iff (h : WritesInOrder field value before outcome after) :
    outcome = .ok none ↔ ∀ a ∈ before, ∃ b, Record.setField a field value = .ok b := by
  cases h with
  | all written =>
    have taken : ∀ a ∈ before, ∃ b, Record.setField a field value = .ok b :=
      ((List.forall₂_and_left before after).mp (written.imp fun a b h => ⟨⟨b, h⟩, h⟩)).1
    exact iff_of_true rfl taken
  | @upTo front written back a e _ refused =>
    refine iff_of_false nofun fun all => ?_
    obtain ⟨b, taken⟩ := all a (by simp)
    rw [refused] at taken
    cases taken

end WritesInOrder

namespace Collection

variable {c : Collection α} {e : Error}

/-- A field is written record by record, up to the first that refuses it. -/
theorem writesInOrder_writeAll (field : String) (value : Value) (elements : List α) :
    WritesInOrder field value elements
      ((writeAll field value elements).2.map fun _ => none) (writeAll field value elements).1 := by
  induction elements with
  | nil => exact .all .nil
  | cons a rest ih =>
    cases taken : Record.setField a field value with
    | error e =>
      simp only [writeAll, taken]
      exact .upTo .nil taken
    | ok b =>
      simp only [writeAll, taken]
      exact ih.cons taken

omit [Record α] in
theorem settle_of_error {outcome : Except Error (Option α × Collection α)}
    (failed : (c.settle outcome).1 = .error e) : (c.settle outcome).2 = c := by
  cases outcome with
  | error e => rfl
  | ok done => cases failed

/-- An operation that fails, and writes into no record, leaves the collection as it was. -/
theorem perform_of_error {operation : Operation α} (noWrite : ¬ operation.Writes)
    (failed : (c.perform operation).1 = .error e) : (c.perform operation).2 = c := by
  cases operation with
  | push element => exact settle_of_error failed
  | unshift element => exact settle_of_error failed
  | pop => exact settle_of_error failed
  | shift => exact settle_of_error failed
  | unlock => exact settle_of_error failed
  | reindex reverse field => exact settle_of_error failed
  | lock forever => cases failed
  | draw choose => cases failed
  | resetDraws => cases failed
  | setForEach field value => exact absurd ⟨field, value, rfl⟩ noWrite

end Collection

namespace Shelf

omit [Record α] in
/-- To put a collection back where it is changes nothing. -/
theorem replace_collection (s : Shelf α) (i : Nat) : s.replace i (s.collection i) = s := by
  obtain ⟨collections⟩ := s
  simp only [replace, collection, Shelf.mk.injEq]
  by_cases h : i < collections.length
  · simp [h]
  · exact List.set_eq_of_length_le (Nat.le_of_not_lt h)

/-- A task that fails, and writes into no record, leaves the shelf as it was. -/
theorem perform_of_error {s : Shelf α} {task : Task α} {e : Error}
    (noWrite : ∀ i operation, task = .change i operation → ¬ operation.Writes)
    (failed : (s.perform task).1 = .error e) : (s.perform task).2 = s := by
  cases task with
  | change i operation =>
    simp only [perform] at failed ⊢
    cases outcome : ((s.collection i).perform operation).1 with
    | ok element =>
      rw [outcome] at failed
      cases failed
    | error e' =>
      rw [Collection.perform_of_error (noWrite i operation rfl) outcome]
      exact s.replace_collection i
  | ask i question => rfl
  | clone i => cases failed
  | select i selection =>
    simp only [perform] at failed ⊢
    split at failed
    · cases failed
    · rfl

end Shelf

/-- An operation or a task that fails has changed nothing, unless it writes to all records: it
writes to them in order, whatever locks there are, up to the first that refuses, and does nothing
else. -/
theorem intact_after_failure (α : Type) [Record α] :
    (∀ (operation : Operation α) (c : Collection α), operation.steps c = c.perform operation) ∧
    (∀ (operation : Operation α) (c next : Collection α) (e : Error), ¬ operation.Writes →
      operation.steps c = (.error e, next) → next = c) ∧
    (∀ (task : Task α) (s next : Shelf α) (e : Error),
      (∀ i operation, task = .change i operation → ¬ operation.Writes) →
      s.perform task = (.error e, next) → next = s) ∧
    (∀ (c next : Collection α) (field : String) (value : Value) (outcome : Except Error (Option α)),
      (Operation.setForEach field value).steps c = (outcome, next) →
      next = { c with elements := next.elements } ∧
      List.Forall₂ (fun a b => b = a ∨ Record.setField a field value = .ok b)
        c.elements next.elements ∧
      (outcome = .ok none ↔ ∀ a ∈ c.elements, ∃ b, Record.setField a field value = .ok b) ∧
      WritesInOrder field value c.elements outcome next.elements) := by
  refine ⟨fun operation c => Change.steps_eq_perform c operation, ?_, ?_, ?_⟩
  · intro operation c next e noWrite failed
    rw [Change.steps_eq_perform] at failed
    have same := Collection.perform_of_error noWrite (congrArg Prod.fst failed)
    rwa [failed] at same
  · intro task s next e noWrite failed
    have same := Shelf.perform_of_error noWrite (congrArg Prod.fst failed)
    rwa [failed] at same
  · intro c next field value outcome done
    rw [Change.steps_eq_perform] at done
    obtain ⟨rfl, rfl⟩ := Prod.mk.inj done
    have writes := Collection.writesInOrder_writeAll field value c.elements
    exact ⟨rfl, writes.places, writes.eq_ok_iff, writes⟩

end

/-- A record of another type is not let in and a subset is not made. A write goes under a lock, up
to the record that lacks the field. -/
theorem intact_after_failure_sample :
    let user : Entity := ⟨"user", [("id", .int 1)], []⟩
    let guest : Entity := ⟨"user", [("name", .text "a")], []⟩
    let team : Entity := ⟨"team", [("id", .int 2)], []⟩
    let c : Collection Entity :=
      { elements := [user, guest, user], elementType := some "user", drawn := [2, 0] }
    let s : Shelf Entity := ⟨[{ elements := [team] }, c]⟩
    ¬ (Operation.push team).Writes ∧
      (Operation.push team).steps c = (.error (.typeMismatch "user" "team"), c) ∧
      s.perform (.select 1 (.field "id" .null)) = (.error (.unknownField "user" "id"), s) ∧
      WritesInOrder "id" .null [user, guest, user] (.error (.unknownField "user" "id"))
        [⟨"user", [("id", .null)], []⟩, guest, user] ∧
      (Operation.setForEach "id" .null).steps (c.lock true) =
        (.error (.unknownField "user" "id"),
          { c.lock true with elements := [⟨"user", [("id", .null)], []⟩, guest, user] }) := by
  intro user guest team c s
  obtain ⟨-, operations, tasks, writes⟩ := intact_after_failure Entity
  have noWrite : ¬ (Operation.push team).Writes := by
    rintro ⟨field, value, same⟩
    cases same
  have noChange : ∀ i operation,
      (.select 1 (.field "id" .null) : Task Entity) = .change i operation → ¬ operation.Writes := by
    intro i operation same
    cases same
  have refused : (Operation.push team).steps c =
      (.error (.typeMismatch "user" "team"), ((Operation.push team).steps c).2) := rfl
  have unselected : s.perform (.select 1 (.field "id" .null)) =
      (.error (.unknownField "user" "id"), (s.perform (.select 1 (.field "id" .null))).2) := rfl
  have written : (Operation.setForEach "id" .null).steps (c.lock true) =
      (.error (.unknownField "user" "id"),
        { c.lock true with elements := [⟨"user", [("id", .null)], []⟩, guest, user] }) := rfl
  refine ⟨noWrite, ?_, ?_, (writes _ _ _ _ _ written).2.2.2, written⟩
  · exact refused.trans (Prod.ext rfl (operations _ _ _ _ noWrite refused))
  · exact unselected.trans (Prod.ext rfl (tasks _ _ _ _ noChange unselected))

end FilterQuery
