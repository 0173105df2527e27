import FilterQuery.Proofs.PermanentLock
import Mathlib.Data.List.Perm.Subperm
import Mathlib.Data.List.Nodup
import Mathlib.Logic.Function.Basic

/-!
# Sampling without replacement

An epoch of a collection is what happens to it between two renewals, that is changes of its members
or of their order, and fresh starts of its draws. Main statement: in a run of any tasks on any
collections, as many draws of an epoch as there are records give each position once, and all
further draws of the epoch give nothing. A clone goes on with the epoch of the collection that it
was made from, and from then on each of the two goes its own way.

The invariant ties the positions that a collection remembers to what the draws of its epoch gave.
A renewal empties both, a draw adds to both, and everything else leaves both alone.
-/

namespace FilterQuery

variable {α : Type}

/-! ### Positions without repetition -/

section Positions

variable {n : Nat} {positions : List Nat}

theorem subperm_range (once : positions.Nodup) (inside : ∀ p ∈ positions, p < n) :
    positions.Subperm (List.range n) :=
  once.subperm fun p hp => List.mem_range.mpr (inside p hp)

/-- There are at most as many positions without repetition as there are places. -/
theorem length_le_of_inside (once : positions.Nodup) (inside : ∀ p ∈ positions, p < n) :
    positions.length ≤ n := by
  simpa using (subperm_range once inside).length_le

/-- As many positions as places, without repetition, are all of them. -/
theorem mem_of_length_le (once : positions.Nodup) (inside : ∀ p ∈ positions, p < n)
    (full : n ≤ positions.length) {p : Nat} (hp : p < n) : p ∈ positions := by
  have perm : positions.Perm (List.range n) :=
    (subperm_range once inside).perm_of_length_le (by simpa using full)
  exact perm.mem_iff.mpr (List.mem_range.mpr hp)

theorem length_eq_of_all (once : positions.Nodup) (inside : ∀ p ∈ positions, p < n)
    (all : ∀ p < n, p ∈ positions) : positions.length = n := by
  have covered : (List.range n).Subperm positions :=
    List.nodup_range.subperm fun p hp => all p (List.mem_range.mp hp)
  exact Nat.le_antisymm (length_le_of_inside once inside) (by simpa using covered.length_le)

end Positions

/-- What an epoch on `n` records gives, draw by draw: a position, or nothing. -/
structure WithoutReplacement (n : Nat) (epoch : List (Option Nat)) : Prop where
  given : ∀ drawn ∈ epoch.take n, ∃ p < n, drawn = some p
  once : (epoch.take n).Nodup
  every : n ≤ epoch.length → ∀ p < n, some p ∈ epoch.take n
  later : ∀ drawn ∈ epoch.drop n, drawn = none

/-- Positions without repetition, which are all there are if something else is asked for. -/
theorem WithoutReplacement.of_positions {n spare : Nat} {positions : List Nat}
    (once : positions.Nodup) (inside : ∀ p ∈ positions, p < n)
    (all : spare ≠ 0 → ∀ p < n, p ∈ positions) :
    WithoutReplacement n (positions.map some ++ List.replicate spare none) := by
  obtain ⟨front, back⟩ :
      (positions.map some ++ List.replicate spare none).take n = positions.map some ∧
      (positions.map some ++ List.replicate spare none).drop n = List.replicate spare none := by
    by_cases more : spare = 0
    · have bound : (positions.map some).length ≤ n := by
        simpa using length_le_of_inside once inside
      simp [more, List.take_of_length_le bound, List.drop_of_length_le bound]
    · have length : (positions.map some).length = n := by
        simpa using length_eq_of_all once inside (all more)
      exact ⟨List.take_left' length, List.drop_left' length⟩
  refine ⟨?_, ?_, ?_, ?_⟩
  · rw [front]
    intro drawn hd
    obtain ⟨p, hp, rfl⟩ := List.mem_map.mp hd
    exact ⟨p, inside p hp, rfl⟩
  · rw [front]
    exact once.map (fun p q same => Option.some_inj.mp same)
  · rw [front]
    intro long p hp
    apply List.mem_map_of_mem
    by_cases more : spare = 0
    · exact mem_of_length_le once inside (by simpa [more] using long) hp
    · exact all more p hp
  · rw [back]
    exact fun drawn hd => List.eq_of_mem_replicate hd

namespace Collection

variable (c : Collection α)

/-- The position that a draw takes from what is left. -/
def pick? (choose : Chooser) : Option Nat :=
  match c.pool with
  | [] => none
  | first :: rest => some ((first :: rest).get (choose rest.length))

/-- What is left to draw is every position that was not drawn. -/
theorem mem_pool {p : Nat} : p ∈ c.pool ↔ p < c.elements.length ∧ p ∉ c.drawn := by
  simp [pool]

variable {c}

theorem mem_pool_of_pick? {choose : Chooser} {p : Nat} (h : c.pick? choose = some p) :
    p ∈ c.pool := by
  unfold pick? at h
  split at h
  · simp at h
  · next first rest left =>
    obtain rfl := Option.some_inj.mp h
    rw [left]
    exact List.get_mem _ _

theorem pick?_eq_none {choose : Chooser} : c.pick? choose = none ↔ c.pool = [] := by
  unfold pick?
  split <;> simp_all

/-- A draw gives the record at the position it takes, and remembers the position. -/
theorem draw_eq_pick? (choose : Chooser) :
    c.draw choose = ((c.pick? choose).bind (c.elements[·]?),
      { c with drawn := (c.pick? choose).toList ++ c.drawn }) := by
  unfold draw pick?
  split <;> simp_all

theorem exists_element_of_pick? {choose : Chooser} {p : Nat} (h : c.pick? choose = some p) :
    ∃ element, c.elements[p]? = some element :=
  ⟨_, List.getElem?_eq_getElem (c.mem_pool.mp (mem_pool_of_pick? h)).1⟩

/-- The draws of an epoch gave the positions that the collection remembers, and nothing more once
none was left. -/
structure EpochOf (c : Collection α) (epoch : List (Option Nat)) : Prop where
  gave : ∃ spare, epoch = c.drawn.reverse.map some ++ List.replicate spare none ∧
    (spare ≠ 0 → c.pool = [])
  once : c.drawn.Nodup
  inside : ∀ p ∈ c.drawn, p < c.elements.length

/-- With no draw remembered an epoch begins. -/
theorem EpochOf.of_drawn (h : c.drawn = []) : c.EpochOf [] where
  gave := ⟨0, by simp [h], by simp⟩
  once := by simp [h]
  inside := by simp [h]

/-- In an epoch no position is drawn twice, and all are drawn before there is nothing left. -/
theorem EpochOf.withoutReplacement {epoch : List (Option Nat)} (h : c.EpochOf epoch) :
    WithoutReplacement c.elements.length epoch := by
  obtain ⟨spare, rfl, exhausted⟩ := h.gave
  apply WithoutReplacement.of_positions
  · exact List.nodup_reverse.mpr h.once
  · exact fun p hp => h.inside p (List.mem_reverse.mp hp)
  · intro more p hp
    by_contra left
    have rest : p ∈ c.pool := c.mem_pool.mpr ⟨hp, fun hd => left (List.mem_reverse.mpr hd)⟩
    simp [exhausted more] at rest

/-- A draw adds what it took to the epoch. -/
theorem EpochOf.draw {epoch : List (Option Nat)} (h : c.EpochOf epoch) (choose : Chooser) :
    (c.draw choose).2.EpochOf (epoch ++ [c.pick? choose]) := by
  obtain ⟨spare, rfl, exhausted⟩ := h.gave
  rw [draw_eq_pick?]
  cases picked : c.pick? choose with
  | none =>
    have empty : c.pool = [] := pick?_eq_none.mp picked
    refine ⟨⟨spare + 1, ?_, fun _ => empty⟩, h.once, h.inside⟩
    simp [List.replicate_succ']
  | some p =>
    obtain ⟨bound, new⟩ := c.mem_pool.mp (mem_pool_of_pick? picked)
    -- as something was left, none of the draws so far came to nothing
    have spare_eq : spare = 0 := by
      by_contra more
      simp [pick?_eq_none.mpr (exhausted more)] at picked
    refine ⟨⟨0, by simp [spare_eq], by simp⟩, List.nodup_cons.mpr ⟨new, h.once⟩, ?_⟩
    simpa using ⟨bound, h.inside⟩

/-- An epoch on some records begins with one of them. -/
theorem EpochOf.exists_pick? {epoch : List (Option Nat)} (h : c.EpochOf epoch)
    (fresh : epoch = []) (nonempty : c.elements ≠ []) (choose : Chooser) :
    ∃ p, c.pick? choose = some p := by
  have law := (h.draw choose).withoutReplacement
  have first : c.pick? choose ∈ (epoch ++ [c.pick? choose]).take c.elements.length := by
    rw [fresh, List.nil_append, List.take_of_length_le]
    · exact List.mem_cons_self
    · exact List.length_pos_of_ne_nil nonempty
  rw [draw_eq_pick?] at law
  obtain ⟨p, -, picked⟩ := law.given _ first
  exact ⟨p, picked⟩

variable [Record α]

/-- Either the draws are forgotten, or they are kept and every record is at its place. -/
structure Settles (c next : Collection α) (renewed : Bool) : Prop where
  forgets : renewed = true → next.drawn = []
  keeps : renewed = false → next.drawn = c.drawn
  members : renewed = false →
    List.Forall₂ (Rewritten fun _ _ => True) c.elements next.elements

theorem Settles.kept {next : Collection α} (drawn : next.drawn = c.drawn)
    (elements : next.elements = c.elements) : c.Settles next false where
  forgets := nofun
  keeps _ := drawn
  members _ := by
    rw [elements]
    exact rewritten_refl _

theorem Settles.refl (c : Collection α) : c.Settles c false := .kept rfl rfl

theorem Settles.forgot {next : Collection α} (h : next.drawn = []) : c.Settles next true :=
  ⟨fun _ => h, nofun, nofun⟩

/-- Whether an operation starts a new epoch: a fresh start of the draws, or a change of the members
or of their order that takes place. -/
def renews (c : Collection α) (operation : Operation α) : Bool :=
  match operation with
  | .resetDraws => true
  | .push _ | .unshift _ | .reindex _ _ => (c.perform operation).1.isOk
  | .pop | .shift =>
    match (c.perform operation).1 with
    | .ok (some _) => true
    | _ => false
  | .lock _ | .unlock | .draw _ | .setForEach _ _ => false

/-- What the draws of the current epoch have given after one more operation. -/
def epochAfter (c : Collection α) (epoch : List (Option Nat)) (operation : Operation α) :
    List (Option Nat) :=
  match operation with
  | .draw choose => epoch ++ [c.pick? choose]
  | operation => if c.renews operation then [] else epoch

/-- Operations that leave an epoch alone: those that fail, those that find nothing to take, changes
of the lock, and writes. -/
inductive Idle (c : Collection α) : Operation α → Prop
  | failed {operation : Operation α} {e : Error} : (c.perform operation).1 = .error e →
    Idle c operation
  | pop : c.elements = [] → Idle c .pop
  | shift : c.elements = [] → Idle c .shift
  | lock (forever : Bool) : Idle c (.lock forever)
  | unlock : Idle c .unlock
  | setForEach (field : String) (value : Value) : Idle c (.setForEach field value)

theorem renews_of_failed {operation : Operation α} {e : Error}
    (h : (c.perform operation).1 = .error e) : c.renews operation = false := by
  cases operation with
  | resetDraws => simp [perform] at h
  | _ => simp [renews, h, Except.isOk, Except.toBool]

theorem renews_of_idle {operation : Operation α} (h : c.Idle operation) :
    c.renews operation = false := by
  cases h with
  | failed failed => exact renews_of_failed failed
  | pop empty =>
    simp only [renews, perform, Collection.pop, empty]
    cases c.ensureUnlocked <;> rfl
  | shift empty =>
    simp only [renews, perform, Collection.shift, empty]
    cases c.ensureUnlocked <;> rfl
  | _ => rfl

theorem ne_draw_of_idle {operation : Operation α} (h : c.Idle operation) (choose : Chooser) :
    operation ≠ .draw choose := by
  rintro rfl
  cases h with
  | failed failed => simp [perform] at failed

theorem epochAfter_of_renews {operation : Operation α} (h : c.renews operation)
    (epoch : List (Option Nat)) : c.epochAfter epoch operation = [] := by
  cases operation with
  | draw choose => simp [renews] at h
  | _ => simp only [epochAfter, h, if_true]

theorem epochAfter_of_noDraw {operation : Operation α} (noDraw : ∀ choose, operation ≠ .draw choose)
    (epoch : List (Option Nat)) :
    c.epochAfter epoch operation = if c.renews operation then [] else epoch := by
  cases operation with
  | draw choose => exact absurd rfl (noDraw choose)
  | _ => rfl

/-- A change that takes place forgets the draws, and a refused one changes nothing. -/
theorem settles_of_outcome {operation : Operation α} {outcome : Except Error (Collection α)}
    (performed : c.perform operation = c.settle (quietly outcome))
    (h : ∀ next, outcome = .ok next → next.drawn = []) :
    c.Settles (c.perform operation).2 (c.perform operation).1.isOk := by
  rw [performed]
  cases outcome with
  | error e => exact .refl c
  | ok next => exact .forgot (h next rfl)

theorem drawn_of_push {element : α} {next : Collection α} (h : c.push element = .ok next) :
    next.drawn = [] := by
  obtain ⟨type, -, made⟩ := Except.bind_eq_ok.mp h
  cases made
  rfl

theorem drawn_of_unshift {element : α} {next : Collection α} (h : c.unshift element = .ok next) :
    next.drawn = [] := by
  obtain ⟨type, -, made⟩ := Except.bind_eq_ok.mp h
  cases made
  rfl

theorem drawn_of_reindex {reverse : Bool} {field : String} {next : Collection α}
    (h : c.reindex reverse field = .ok next) : next.drawn = [] := by
  obtain ⟨_, -, sorted⟩ := Except.bind_eq_ok.mp h
  obtain ⟨keys, -, made⟩ := Except.bind_eq_ok.mp sorted
  cases made
  rfl

theorem drawn_of_select {selection : Selection} {subset : Collection α}
    (h : c.select selection = .ok subset) : subset.drawn = [] := by
  obtain ⟨elements, -, rfl⟩ := exists_sublist_of_select h
  rfl

/-- A record is taken off, or there is nothing to take and nothing changes. -/
theorem settles_pop (c : Collection α) : c.Settles (c.perform .pop).2 (c.renews .pop) := by
  simp only [renews, perform, pop]
  cases c.ensureUnlocked with
  | error e => exact .refl c
  | ok u =>
    cases h : c.elements.getLast? with
    | none => exact .refl c
    | some element => exact .forgot rfl

theorem settles_shift (c : Collection α) : c.Settles (c.perform .shift).2 (c.renews .shift) := by
  simp only [renews, perform, shift]
  cases c.ensureUnlocked with
  | error e => exact .refl c
  | ok u =>
    cases h : c.elements with
    | nil => exact .refl c
    | cons element rest => exact .forgot rfl

/-- Apart from draws, an operation forgets the draws or keeps the records at their places. -/
theorem settles_perform (c : Collection α) {operation : Operation α}
    (noDraw : ∀ choose, operation ≠ .draw choose) :
    c.Settles (c.perform operation).2 (c.renews operation) := by
  cases operation with
  | push element => exact settles_of_outcome rfl fun next => drawn_of_push
  | unshift element => exact settles_of_outcome rfl fun next => drawn_of_unshift
  | pop => exact settles_pop c
  | shift => exact settles_shift c
  | lock forever => exact .kept rfl rfl
  | unlock =>
    simp only [perform, unlock]
    split
    · exact .kept rfl rfl
    · exact .refl c
  | reindex reverse field => exact settles_of_outcome rfl fun next => drawn_of_reindex
  | draw choose => exact absurd rfl (noDraw choose)
  | resetDraws => exact .forgot rfl
  | setForEach field value =>
    refine ⟨fun renewed => ?_, fun _ => rfl, fun _ => rewritten_writeAll trivial c.elements⟩
    cases renewed

/-- Without a new epoch every record is at its place, though fields of it may have been written. -/
theorem members_perform {operation : Operation α} (h : c.renews operation = false) :
    List.Forall₂ (Rewritten fun _ _ => True) c.elements (c.perform operation).2.elements := by
  by_cases draws : ∃ choose, operation = .draw choose
  · obtain ⟨choose, rfl⟩ := draws
    simp only [perform, draw_eq_pick?]
    exact rewritten_refl _
  · exact (settles_perform c fun choose same => draws ⟨choose, same⟩).members h

/-- The step: the epoch after an operation is what its draws gave so far. -/
theorem EpochOf.perform {epoch : List (Option Nat)} (h : c.EpochOf epoch)
    (operation : Operation α) :
    (c.perform operation).2.EpochOf (c.epochAfter epoch operation) := by
  by_cases draws : ∃ choose, operation = .draw choose
  · obtain ⟨choose, rfl⟩ := draws
    exact h.draw choose
  · have noDraw : ∀ choose, operation ≠ .draw choose := fun choose same => draws ⟨choose, same⟩
    have settles := settles_perform c noDraw
    rw [epochAfter_of_noDraw noDraw]
    cases renewed : c.renews operation with
    | true => exact .of_drawn (settles.forgets renewed)
    | false =>
      have drawn := settles.keeps renewed
      have size := (settles.members renewed).length_eq.symm
      obtain ⟨spare, gave, exhausted⟩ := h.gave
      refine ⟨⟨spare, by simpa [drawn] using gave, ?_⟩, by simpa [drawn] using h.once, ?_⟩
      · simpa [pool, drawn, size] using exhausted
      · simpa [drawn, size] using h.inside

end Collection

namespace Shelf

/-- At every place the draws are those of the epoch there. -/
def InEpochs (s : Shelf α) (epochs : Nat → List (Option Nat)) : Prop :=
  ∀ k < s.size, (s.collection k).EpochOf (epochs k)

/-- A collection goes on the shelf with an epoch of its own. -/
theorem InEpochs.add {s : Shelf α} {epochs : Nat → List (Option Nat)} (h : s.InEpochs epochs)
    {c : Collection α} {epoch : List (Option Nat)} (hc : c.EpochOf epoch) :
    (s.add c).InEpochs (Function.update epochs s.size epoch) := by
  intro k hk
  rw [size_add] at hk
  by_cases last : k = s.size
  · subst last
    rwa [collection_add_size, Function.update_self]
  · have old : k < s.size := by omega
    rw [collection_add_of_lt s c old, Function.update_of_ne last]
    exact h k old

variable [Record α]

/-- For each place what the draws of the current epoch there gave, after one more task. A clone
stands in the epoch of its original, and a subset in one of its own. -/
def epochsAfter (s : Shelf α) (epochs : Nat → List (Option Nat)) :
    Task α → Nat → List (Option Nat)
  | .change i operation =>
    Function.update epochs i ((s.collection i).epochAfter (epochs i) operation)
  | .ask _ _ => epochs
  | .clone i => Function.update epochs s.size (if i < s.size then epochs i else [])
  | .select _ _ => Function.update epochs s.size []

/-- For each place what the draws of the current epoch there gave, after some tasks. -/
def epochs (s : Shelf α) (before : Nat → List (Option Nat)) :
    List (Task α) → Nat → List (Option Nat)
  | [] => before
  | task :: rest => (s.perform task).2.epochs (s.epochsAfter before task) rest

/-- The step on a shelf: a task moves on the epoch of the one collection that it changes or adds. -/
theorem InEpochs.perform {s : Shelf α} {epochs : Nat → List (Option Nat)} (h : s.InEpochs epochs)
    (task : Task α) : (s.perform task).2.InEpochs (s.epochsAfter epochs task) := by
  cases task with
  | change i operation =>
    intro k hk
    have bound : k < s.size := by simpa [Shelf.perform] using hk
    by_cases same : i = k
    · subst same
      simp only [Shelf.perform, epochsAfter, collection_replace_self s _ bound,
        Function.update_self]
      exact (h i bound).perform operation
    · simp only [Shelf.perform, epochsAfter, collection_replace_of_ne s _ same,
        Function.update_of_ne (Ne.symm same)]
      exact h k bound
  | ask i question => exact h
  | clone i =>
    by_cases hi : i < s.size
    · simp only [Shelf.perform, epochsAfter, if_pos hi]
      exact h.add (h i hi)
    · -- where nothing stands there is nothing to draw from
      have nothing : s.collection i = {} := by
        simp only [size] at hi
        simp [collection, List.getElem?_eq_none (Nat.not_lt.mp hi)]
      simp only [Shelf.perform, epochsAfter, if_neg hi]
      exact h.add (.of_drawn (by rw [nothing]))
  | select i selection =>
    simp only [Shelf.perform, epochsAfter]
    split
    · next subset selected => exact h.add (.of_drawn (Collection.drawn_of_select selected))
    · intro k hk
      dsimp only at hk
      rw [Function.update_of_ne (by omega)]
      exact h k hk

/-- The run: at any moment each collection is in the epoch that its operations made. -/
theorem InEpochs.run {s : Shelf α} {epochs : Nat → List (Option Nat)} (h : s.InEpochs epochs)
    (tasks : List (Task α)) : (s.run tasks).InEpochs (s.epochs epochs tasks) := by
  induction tasks generalizing s epochs with
  | nil => exact h
  | cons task rest ih => exact ih (h.perform task)

theorem epochsAfter_of_ne {s : Shelf α} {k : Nat} (hk : k < s.size) {task : Task α}
    (other : ∀ operation, task ≠ .change k operation) (epochs : Nat → List (Option Nat)) :
    s.epochsAfter epochs task k = epochs k := by
  cases task with
  | change i operation =>
    apply Function.update_of_ne
    rintro rfl
    exact other operation rfl
  | ask i question => rfl
  | clone i => exact Function.update_of_ne (by omega) _ _
  | select i selection => exact Function.update_of_ne (by omega) _ _

/-- How draws go at a place of a shelf, where `epochs` is what the draws of the current epochs gave
so far. -/
structure SamplesAt (s : Shelf α) (epochs : Nat → List (Option Nat)) (k : Nat) : Prop where
  withoutReplacement : WithoutReplacement (s.collection k).elements.length (epochs k)
  /-- A draw takes a position, and answers with the record there. -/
  draw : ∀ choose,
    s.epochsAfter epochs (.change k (.draw choose)) k =
      epochs k ++ [(s.collection k).pick? choose] ∧
    (s.perform (.change k (.draw choose))).1 =
      .ok (.element (((s.collection k).pick? choose).bind ((s.collection k).elements[·]?)))
  record : ∀ choose p, (s.collection k).pick? choose = some p →
    ∃ element, (s.collection k).elements[p]? = some element
  /-- The first draw of an epoch fails only where there is nothing. -/
  first : epochs k = [] → (s.collection k).elements ≠ [] → ∀ choose,
    ∃ element, (s.perform (.change k (.draw choose))).1 = .ok (.element (some element))
  renewed : ∀ operation, (s.collection k).renews operation →
    s.epochsAfter epochs (.change k operation) k = []
  /-- Until the next epoch every record stays at its place, changed at most by writes. -/
  members : ∀ operation, (s.collection k).renews operation = false →
    List.Forall₂ (Rewritten fun _ _ => True) (s.collection k).elements
      ((s.perform (.change k operation)).2.collection k).elements
  idle : ∀ operation, (s.collection k).Idle operation →
    s.epochsAfter epochs (.change k operation) k = epochs k
  /-- What is done elsewhere, asked or selected here, or cloned from here, does not show here. -/
  apart : ∀ task, (∀ operation, task ≠ .change k operation) →
    (s.perform task).2.collection k = s.collection k ∧ s.epochsAfter epochs task k = epochs k
  clone : (s.perform (.clone k)).2.collection s.size = s.collection k ∧
    s.epochsAfter epochs (.clone k) s.size = epochs k

/-- Draws go as they should at every place where the collection is in its epoch. -/
theorem samplesAt_of_inEpochs {s : Shelf α} {epochs : Nat → List (Option Nat)}
    (h : s.InEpochs epochs) {k : Nat} (hk : k < s.size) : s.SamplesAt epochs k where
  withoutReplacement := (h k hk).withoutReplacement
  draw choose := by
    refine ⟨Function.update_self .., ?_⟩
    simp only [perform, Collection.perform, Collection.draw_eq_pick?]
    rfl
  record choose p := Collection.exists_element_of_pick?
  first fresh nonempty choose := by
    obtain ⟨p, picked⟩ := (h k hk).exists_pick? fresh nonempty choose
    obtain ⟨element, found⟩ := Collection.exists_element_of_pick? picked
    refine ⟨element, ?_⟩
    simp only [perform, Collection.perform, Collection.draw_eq_pick?, picked, Option.bind_some,
      found]
    rfl
  renewed operation renews := by
    rw [epochsAfter, Function.update_self]
    exact Collection.epochAfter_of_renews renews _
  members operation same := by
    rw [perform, collection_replace_self s _ hk]
    exact Collection.members_perform same
  idle operation idle := by
    rw [epochsAfter, Function.update_self,
      Collection.epochAfter_of_noDraw (Collection.ne_draw_of_idle idle),
      Collection.renews_of_idle idle]
    rfl
  apart task other := ⟨collection_perform_of_ne hk other, epochsAfter_of_ne hk other epochs⟩
  clone := by
    refine ⟨collection_add_size s _, ?_⟩
    rw [epochsAfter, Function.update_self, if_pos hk]

/-- Within an epoch no position is drawn twice, and none is left out. -/
theorem samplesAt_run {s : Shelf α} (fresh : ∀ c ∈ s.collections, c.drawn = [])
    (tasks : List (Task α)) {k : Nat} (hk : k < (s.run tasks).size) :
    (s.run tasks).SamplesAt (s.epochs (fun _ => []) tasks) k := by
  have start : s.InEpochs fun _ => [] := by
    intro i hi
    refine .of_drawn (fresh _ ?_)
    simp only [Shelf.size] at hi
    simp [collection, hi]
  exact samplesAt_of_inEpochs (start.run tasks) hk

/-- A clone between two draws, a refused removal, and a draw too many. -/
theorem samplesAt_run_sample :
    let users : Collection Entity :=
      { elements := [⟨"user", [("id", .int 1)], []⟩, ⟨"user", [("id", .int 2)], []⟩] }
    let s : Shelf Entity := { collections := [users] }
    let tasks : List (Task Entity) := [.change 0 (.draw .last), .clone 0, .change 0 (.lock false),
      .change 0 .pop, .change 0 (.draw .last), .change 0 (.draw .first), .change 1 (.draw .first)]
    (∀ c ∈ s.collections, c.drawn = []) ∧ 1 < (s.run tasks).size ∧
      s.epochs (fun _ => []) tasks 0 = [some 1, some 0, none] ∧
      s.epochs (fun _ => []) tasks 1 = [some 1, some 0] ∧
      (s.run tasks).SamplesAt (s.epochs (fun _ => []) tasks) 1 := by
  intro users s tasks
  have fresh : ∀ c ∈ s.collections, c.drawn = [] := by
    intro c hc
    rw [List.mem_singleton.mp hc]
  have size : 1 < (s.run tasks).size := by decide +kernel
  exact ⟨fresh, size, by decide +kernel, by decide +kernel, samplesAt_run fresh tasks size⟩

end Shelf

end FilterQuery
