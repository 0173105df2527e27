import FilterQuery.Collection.Shelf
import FilterQuery.Finder.Request
import FilterQuery.Proofs.Work
import Mathlib.Data.List.Forall2
import Mathlib.Logic.Relation

/-!
# Locked for good

A collection whose lock cannot be taken off keeps its members in their order for good. Main
statement: whatever is done afterwards to it, to its clones and to any other collection, all of
them stay locked, refuse to be unlocked, and refuse every operation on their members before they
look at its arguments. Their records are the old ones at the old places, changed at most by writes
to all records at once. Every result set holds its records in such a collection, and subsets are
new collections without a lock.

The invariant names the places of the collection and its clones. A step adds to them the place of
a new clone, and everything else it does at such a place leaves flags and members alone.
-/

namespace FilterQuery

variable {α : Type}

/-- Whether an operation would change the members of a collection or their order. -/
def Operation.isStructural : Operation α → Bool
  | .push _ | .unshift _ | .pop | .shift | .reindex _ _ => true
  | .lock _ | .unlock | .draw _ | .resetDraws | .setForEach _ _ => false

/-- One record before and after some of the allowed writes, each of which it took. -/
def Rewritten [Record α] (allowed : String → Value → Prop) : α → α → Prop :=
  Relation.ReflTransGen fun a b =>
    ∃ field value, allowed field value ∧ Record.setField a field value = .ok b

namespace Collection

structure LockedForever (c : Collection α) : Prop where
  locked : c.locked = true
  unlockable : c.unlockable = false

variable {c : Collection α}

theorem lockedForever_lock (c : Collection α) : (c.lock true).LockedForever :=
  ⟨rfl, by simp [lock]⟩

/-- A draw changes nothing but what is remembered of the draws. -/
theorem draw_eq (c : Collection α) (choose : Chooser) :
    ∃ drawn, (c.draw choose).2 = { c with drawn } := by
  unfold draw
  split
  · exact ⟨c.drawn, rfl⟩
  · exact ⟨_, rfl⟩

variable [Record α] {allowed : String → Value → Prop}

/-- The lock is looked at before anything else. -/
theorem perform_of_isStructural (h : c.locked = true) {operation : Operation α}
    (structural : operation.isStructural) : c.perform operation = (.error .locked, c) := by
  have refused : c.ensureUnlocked = .error .locked := by simp [ensureUnlocked, h]
  cases operation with
  | push element => simp only [perform, push, accept, refused]; rfl
  | unshift element => simp only [perform, unshift, accept, refused]; rfl
  | pop => simp only [perform, pop, refused]; rfl
  | shift => simp only [perform, shift, refused]; rfl
  | reindex reverse field => simp only [perform, reindex, refused]; rfl
  | _ => simp [Operation.isStructural] at structural

theorem perform_unlock (h : c.unlockable = false) :
    c.perform .unlock = (.error .notUnlockable, c) := by
  simp [perform, unlock, h, quietly, settle, Except.map]

/-- No operation takes a permanent lock off. -/
theorem LockedForever.perform (h : c.LockedForever) (operation : Operation α) :
    (c.perform operation).2.LockedForever := by
  by_cases structural : operation.isStructural
  · rw [perform_of_isStructural h.locked structural]
    exact h
  · cases operation with
    | lock forever => exact ⟨rfl, by simp [Collection.perform, lock, h.unlockable]⟩
    | unlock =>
      rw [perform_unlock h.unlockable]
      exact h
    | draw choose =>
      obtain ⟨drawn, after⟩ := c.draw_eq choose
      simp only [Collection.perform, after]
      exact ⟨h.locked, h.unlockable⟩
    | resetDraws => exact ⟨h.locked, h.unlockable⟩
    | setForEach field value => exact ⟨h.locked, h.unlockable⟩
    | _ => exact absurd rfl structural

/-- A subset is a collection of its own, without a lock. -/
theorem unlocked_of_select {selection : Selection} {subset : Collection α}
    (h : c.select selection = .ok subset) : subset.locked = false ∧ subset.unlockable = true := by
  obtain ⟨elements, -, rfl⟩ := exists_sublist_of_select h
  exact ⟨rfl, rfl⟩

theorem rewritten_refl (elements : List α) :
    List.Forall₂ (Rewritten allowed) elements elements :=
  List.forall₂_same.mpr fun _ _ => .refl

theorem rewritten_trans {first second third : List α}
    (h : List.Forall₂ (Rewritten allowed) first second)
    (h' : List.Forall₂ (Rewritten allowed) second third) :
    List.Forall₂ (Rewritten allowed) first third := by
  induction h generalizing third with
  | nil => exact h'
  | cons head _ ih =>
    cases h' with
    | cons head' tail' => exact .cons (head.trans head') (ih tail')

/-- Every record takes the write or is left as it is. -/
theorem rewritten_writeAll {field : String} {value : Value} (h : allowed field value)
    (elements : List α) :
    List.Forall₂ (Rewritten allowed) elements (writeAll field value elements).1 := by
  induction elements with
  | nil => exact .nil
  | cons element rest ih =>
    cases written : Record.setField element field value with
    | error e =>
      simp only [writeAll, written]
      exact rewritten_refl _
    | ok next =>
      simp only [writeAll, written]
      exact .cons (.single ⟨field, value, h, written⟩) ih

/-- What an operation does to a locked collection is to write fields of its records. -/
theorem rewritten_perform (h : c.locked = true) (operation : Operation α)
    (writes : ∀ field value, operation = .setForEach field value → allowed field value) :
    List.Forall₂ (Rewritten allowed) c.elements (c.perform operation).2.elements := by
  by_cases structural : operation.isStructural
  · rw [perform_of_isStructural h structural]
    exact rewritten_refl _
  · cases operation with
    | lock forever => exact rewritten_refl _
    | unlock =>
      have kept : (c.perform .unlock).2.elements = c.elements := by
        simp only [perform, unlock]
        split <;> rfl
      rw [kept]
      exact rewritten_refl _
    | draw choose =>
      obtain ⟨drawn, after⟩ := c.draw_eq choose
      simp only [perform, after]
      exact rewritten_refl _
    | resetDraws => exact rewritten_refl _
    | setForEach field value => exact rewritten_writeAll (writes field value rfl) c.elements
    | _ => exact absurd rfl structural

/-- Locked for good, with these records at their places, whatever was written into them. -/
structure Guards (allowed : String → Value → Prop) (members : List α) (c : Collection α) :
    Prop where
  forever : c.LockedForever
  kept : List.Forall₂ (Rewritten allowed) members c.elements

/-- A guarded collection stays guarded, if what is written is allowed. -/
theorem Guards.perform {members : List α} (h : Guards allowed members c) (operation : Operation α)
    (writes : ∀ field value, operation = .setForEach field value → allowed field value) :
    Guards allowed members (c.perform operation).2 where
  forever := h.forever.perform operation
  kept := by
    have step := rewritten_perform h.forever.locked operation writes
    exact rewritten_trans h.kept step

theorem Guards.of_lockedForever (h : c.LockedForever) : Guards allowed c.elements c :=
  ⟨h, rewritten_refl _⟩

end Collection

namespace Shelf

variable [Record α] {allowed : String → Value → Prop} {members : List α}

/-- The places after a task: a clone of a collection at one of them is at a new one. -/
def placesAfter (s : Shelf α) (places : List Nat) : Task α → List Nat
  | .clone i => if i ∈ places then places ++ [s.size] else places
  | .change _ _ | .ask _ _ | .select _ _ => places

/-- The places of some collections, of their clones, and of the clones of those. -/
def clones (s : Shelf α) (places : List Nat) : List (Task α) → List Nat
  | [] => places
  | task :: rest => (s.perform task).2.clones (s.placesAfter places task) rest

theorem mem_clones {s : Shelf α} {places : List Nat} {k : Nat} (h : k ∈ places)
    (tasks : List (Task α)) : k ∈ s.clones places tasks := by
  induction tasks generalizing s places with
  | nil => exact h
  | cons task rest ih =>
    apply ih
    cases task with
    | clone i =>
      simp only [placesAfter]
      split
      · exact List.mem_append_left _ h
      · exact h
    | _ => exact h

/-- At each of these places there is a collection locked for good that has these members. -/
def Guards (allowed : String → Value → Prop) (members : List α) (places : List Nat)
    (s : Shelf α) : Prop :=
  ∀ k ∈ places, k < s.size ∧ (s.collection k).Guards allowed members

/-- A new collection takes the place of none that is guarded. -/
theorem Guards.add {s : Shelf α} {places : List Nat} (h : Guards allowed members places s)
    (c : Collection α) : Guards allowed members places (s.add c) := by
  intro k hk
  obtain ⟨bound, guards⟩ := h k hk
  rw [size_add, collection_add_of_lt s c bound]
  exact ⟨by omega, guards⟩

/-- A change of one collection leaves all that are guarded so, if what it writes is allowed. -/
theorem Guards.change {s : Shelf α} {places : List Nat} (h : Guards allowed members places s)
    {i : Nat} {operation : Operation α}
    (writes : i ∈ places → ∀ field value, operation = .setForEach field value →
      allowed field value) :
    Guards allowed members places (s.perform (.change i operation)).2 := by
  intro k hk
  obtain ⟨bound, guards⟩ := h k hk
  refine ⟨by simpa [perform] using bound, ?_⟩
  by_cases same : i = k
  · subst same
    simp only [perform, collection_replace_self s _ bound]
    exact guards.perform operation (writes hk)
  · simp only [perform, collection_replace_of_ne s _ same]
    exact guards

/-- The clone of a guarded collection is guarded too. -/
theorem Guards.clone {s : Shelf α} {places : List Nat} (h : Guards allowed members places s)
    (i : Nat) :
    Guards allowed members (s.placesAfter places (.clone i)) (s.perform (.clone i)).2 := by
  simp only [placesAfter, perform]
  split
  · next cloned =>
    intro k hk
    rcases List.mem_append.mp hk with old | new
    · exact h.add (s.collection i) k old
    · obtain rfl := List.mem_singleton.mp new
      rw [collection_add_size, size_add]
      exact ⟨by omega, (h i cloned).2⟩
  · exact h.add (s.collection i)

theorem Guards.select {s : Shelf α} {places : List Nat} (h : Guards allowed members places s)
    (i : Nat) (selection : Selection) :
    Guards allowed members places (s.perform (.select i selection)).2 := by
  simp only [perform]
  split
  · exact h.add _
  · exact h

/-- The step: whatever the task is, the collections that were guarded are, and so are their new
clones. -/
theorem Guards.perform {s : Shelf α} {places : List Nat} (h : Guards allowed members places s)
    (task : Task α)
    (writes : ∀ k ∈ places, ∀ field value, task = .change k (.setForEach field value) →
      allowed field value) :
    Guards allowed members (s.placesAfter places task) (s.perform task).2 := by
  cases task with
  | change i operation =>
    apply h.change
    rintro hi field value rfl
    exact writes i hi field value rfl
  | ask i question => exact h
  | clone i => exact h.clone i
  | select i selection => exact h.select i selection

/-- The run: the members of guarded collections and of all their clones only ever have fields
written. -/
theorem Guards.run {s : Shelf α} {places : List Nat} {tasks : List (Task α)}
    (h : Guards allowed members places s)
    (writes : ∀ k ∈ s.clones places tasks, ∀ field value,
      .change k (.setForEach field value) ∈ tasks → allowed field value) :
    Guards allowed members (s.clones places tasks) (s.run tasks) := by
  induction tasks generalizing s places with
  | nil => exact h
  | cons task rest ih =>
    rw [run_cons, clones]
    apply ih
    · apply h.perform
      rintro k hk field value rfl
      exact writes k (mem_clones hk _) field value List.mem_cons_self
    · intro k hk field value later
      exact writes k hk field value (List.mem_cons_of_mem _ later)

/-- What holds at a place of a shelf if the collection there is locked for good. -/
structure Sealed (s : Shelf α) (k : Nat) : Prop where
  locked : (s.collection k).locked = true
  unlockable : (s.collection k).unlockable = false
  unlock : (s.perform (.change k .unlock)).1 = .error .notUnlockable
  structural : ∀ operation : Operation α, operation.isStructural →
    (s.perform (.change k operation)).1 = .error .locked

/-- A collection with a permanent lock is sealed. -/
theorem sealed_of_lockedForever {s : Shelf α} {k : Nat} (h : (s.collection k).LockedForever) :
    s.Sealed k where
  locked := h.locked
  unlockable := h.unlockable
  unlock := by
    simp only [perform, Collection.perform_unlock h.unlockable]
    rfl
  structural operation structural := by
    simp only [perform, Collection.perform_of_isStructural h.locked structural]
    rfl

/-- A run that keeps collection `i` and all its clones sealed, with the records that `i` has now:
as many, in the same order, each changed at most by the run's writes to these collections. -/
structure KeepsSealed (s : Shelf α) (i : Nat) (tasks : List (Task α)) : Prop where
  isSealed : ∀ k ∈ s.clones [i] tasks, (s.run tasks).Sealed k
  kept : ∀ k ∈ s.clones [i] tasks,
    List.Forall₂
      (Rewritten fun field value =>
        ∃ j ∈ s.clones [i] tasks, .change j (.setForEach field value) ∈ tasks)
      (s.collection i).elements ((s.run tasks).collection k).elements

/-- A permanent lock seals a collection and its clones through every run. -/
theorem keepsSealed {s : Shelf α} {i : Nat} (hi : i < s.size)
    (h : (s.collection i).LockedForever) (tasks : List (Task α)) : s.KeepsSealed i tasks := by
  have start : Guards (fun field value =>
      ∃ j ∈ s.clones [i] tasks, .change j (.setForEach field value) ∈ tasks)
      (s.collection i).elements [i] s := by
    intro k hk
    obtain rfl := List.mem_singleton.mp hk
    exact ⟨hi, .of_lockedForever h⟩
  have guards : Guards _ _ (s.clones [i] tasks) (s.run tasks) :=
    start.run fun k hk field value written => ⟨k, hk, written⟩
  exact ⟨fun k hk => sealed_of_lockedForever (guards k hk).2.forever,
    fun k hk => (guards k hk).2.kept⟩

theorem keepsSealed_add {s : Shelf α} {c : Collection α} (h : c.LockedForever)
    (tasks : List (Task α)) : (s.add c).KeepsSealed s.size tasks := by
  apply keepsSealed
  · simp
  · rwa [collection_add_size]

theorem collection_lock {s : Shelf α} {i : Nat} (hi : i < s.size) :
    (s.perform (.change i (.lock true))).2.collection i = (s.collection i).lock true :=
  collection_replace_self s _ hi

theorem keepsSealed_lock {s : Shelf α} {i : Nat} (hi : i < s.size) (tasks : List (Task α)) :
    (s.perform (.change i (.lock true))).2.KeepsSealed i tasks := by
  apply keepsSealed
  · simpa [perform] using hi
  · rw [collection_lock hi]
    exact Collection.lockedForever_lock _

end Shelf

section Results

variable [Record α]

theorem ResultSet.lockedForever_ofRecords {records : List α} {prepared : Prepared}
    {target : Target} {connected : Bool} {r : ResultSet α}
    (h : ResultSet.ofRecords records prepared target connected = .ok r) :
    r.records.LockedForever := by
  unfold ResultSet.ofRecords at h
  cases made : Collection.ofList records with
  | error e => simp [made, bind, Except.bind] at h
  | ok collection =>
    obtain rfl : _ = r := by simpa [made, bind, Except.bind, pure, Except.pure] using h
    exact Collection.lockedForever_lock collection

namespace Finder

variable {σ : Type} [Store σ] (finder : Finder α)

theorem ensures_find (prepared : Prepared) :
    Work.Ensures (·.records.LockedForever) (finder.find (σ := σ) prepared) := by
  unfold Finder.find
  generalize prepared.compile finder.target = compiled
  obtain ⟨outcome, prepared⟩ := compiled
  refine Work.Ensures.after _ fun handed => Work.Ensures.after _ fun rows => ?_
  have hydrated : Work.Ensures (·.records.LockedForever) (do
      let records ← Work.ofExcept (rows.mapM finder.hydrate)
      Work.ofExcept (ResultSet.ofRecords records prepared finder.target true) : Work σ _) :=
    Work.Ensures.after _ fun records => .ofExcept fun r => ResultSet.lockedForever_ofRecords
  dsimp only
  split
  · exact Work.Ensures.after _ fun _ => hydrated
  · exact hydrated

theorem ensures_findPage (f : Filter) (number : UInt64) (size : Option UInt64) :
    Work.Ensures (·.records.LockedForever) (finder.findPage (σ := σ) f number size) := by
  unfold Finder.findPage
  exact finder.ensures_find _

theorem ensures_serve (request : Request) :
    Work.Ensures (fun answer => ∀ r, answer = .found r → r.records.LockedForever)
      (finder.serve (σ := σ) request) := by
  have found : ∀ r : ResultSet α, r.records.LockedForever →
      ∀ r', Answer.found r = .found r' → r'.records.LockedForever := by
    rintro r h r' ⟨⟩
    exact h
  cases request with
  | find prepared => exact (finder.ensures_find prepared).map found
  | page filter number size => exact (finder.ensures_findPage filter number size).map found
  | ids filter => exact (Work.ensures_true _).map fun ids _ r impossible => nomatch impossible
  | count filter => exact (Work.ensures_true _).map fun n _ r impossible => nomatch impossible
  | get id => exact (Work.ensures_true _).map fun record _ r impossible => nomatch impossible

/-- Every result set that requests have found has a permanent lock on its records. -/
theorem lockedForever_of_mem_serveAll {requests : List (Finder α × Request)} {s : Session σ}
    {r : ResultSet α} (h : .ok (.found r) ∈ (serveAll requests s).1) : r.records.LockedForever := by
  induction requests generalizing s with
  | nil => simp [serveAll] at h
  | cons first rest ih =>
    obtain ⟨finder, request⟩ := first
    rcases List.mem_cons.mp h with now | later
    · exact finder.ensures_serve request s (.found r) _ (Prod.ext now.symm rfl) r rfl
    · exact ih later

end Finder

end Results

/-- A lock without return keeps a collection and all its clones sealed, whatever is done to any
collection afterwards. The records of every result set lie under such a lock, and subsets do not. -/
theorem sealed_by_permanent_lock (α σ : Type) [Record α] [Store σ] :
    (∀ (s : Shelf α) (i : Nat), i < s.size → ∀ tasks,
      ((s.perform (.change i (.lock true))).2.collection i).elements = (s.collection i).elements ∧
      (s.perform (.change i (.lock true))).2.KeepsSealed i tasks) ∧
    (∀ (records : List α) prepared target connected r,
      ResultSet.ofRecords records prepared target connected = .ok r →
      ∀ (s : Shelf α) tasks, (s.add r.records).KeepsSealed s.size tasks) ∧
    (∀ (requests : List (Finder α × Request)) (session : Session σ) r,
      .ok (.found r) ∈ (Finder.serveAll requests session).1 →
      ∀ (s : Shelf α) tasks, (s.add r.records).KeepsSealed s.size tasks) ∧
    (∀ (c : Collection α) selection subset, c.select selection = .ok subset →
      subset.locked = false ∧ subset.unlockable = true) := by
  refine ⟨?_, ?_, ?_, ?_⟩
  · intro s i hi tasks
    exact ⟨by rw [Shelf.collection_lock hi]; rfl, Shelf.keepsSealed_lock hi tasks⟩
  · intro records prepared target connected r made s tasks
    exact Shelf.keepsSealed_add (ResultSet.lockedForever_ofRecords made) tasks
  · intro requests session r served s tasks
    exact Shelf.keepsSealed_add (Finder.lockedForever_of_mem_serveAll served) tasks
  · intro c selection subset selected
    exact Collection.unlocked_of_select selected

/-- Two clones, a write to one of them, and three attempts at the lock and what lies under it. -/
theorem sealed_by_permanent_lock_sample :
    let users : Collection Entity := { elements := [⟨"user", [("id", .int 1)], []⟩] }
    let tasks : List (Task Entity) := [.clone 0, .change 1 (.setForEach "id" .null), .clone 1,
      .change 2 .unlock, .change 1 .pop, .change 0 (.push ⟨"team", [], []⟩)]
    let s := (({ collections := [users] } : Shelf Entity).perform (.change 0 (.lock true))).2
    s.clones [0] tasks = [0, 1, 2] ∧ s.KeepsSealed 0 tasks := by
  intro users tasks s
  exact ⟨rfl, ((sealed_by_permanent_lock Entity Script).1 ⟨[users]⟩ 0 (by decide) tasks).2⟩

end FilterQuery
