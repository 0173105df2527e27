import FilterQuery.Builder
import FilterQuery.Proofs.Slot

/-!
# Limits and pages of a builder

A builder may be told several times which rows to take, by a limit or by a page. Main statement:
limit and offset are those of the last such call, as if it had been the only one. But a page also
marks the filter as paged, and this no later call takes back. A limit after a page leaves a filter
that still passes for a page, with a limit and an offset that are not those of any; in every other
case the last call decides alone.
-/

namespace FilterQuery

namespace Call

/-- Whether a call says which rows to take. -/
def isBound : Call → Bool
  | .limit _ _ | .page _ _ => true
  | _ => false

def isPage : Call → Bool
  | .page _ _ => true
  | _ => false

theorem isBound_of_isPage {call : Call} (h : call.isPage) : call.isBound := by
  cases call with
  | page number size => rfl
  | _ => cases h

theorem isPage_iff {call : Call} : call.isPage ↔ ∃ number size, call = .page number size := by
  cases call <;> simp [isPage]

variable (m : Modifiers) (call : Call)

/-- What a call puts into a slot does not depend on what was there. -/
theorem value?_modify (slot : Slot) : (call.modify m).value? slot =
    if call.isBound then (call.modify {}).value? slot else m.value? slot := by
  cases call <;> cases slot <;> rfl

theorem path?_modify {slot : Slot} (h : m.path? slot = none) :
    (call.modify m).path? slot = none := by
  cases call with
  | page number size => cases slot <;> rfl
  | _ => cases slot <;> exact h

/-- A page marks the filter, and no call takes the mark away. -/
theorem paged_modify : (call.modify m).paged = (m.paged || call.isPage) := by
  cases call <;> simp [modify, isPage]

end Call

/-- The last of some calls to say which rows to take. -/
def lastBound? (calls : List Call) : Option Call := (calls.filter Call.isBound).getLast?

/-- One more call is the last bound if it sets any. -/
theorem lastBound?_append (calls : List Call) (call : Call) :
    lastBound? (calls ++ [call]) = if call.isBound then some call else lastBound? calls := by
  unfold lastBound?
  cases bound : call.isBound <;> simp [List.filter_append, bound]

theorem mem_of_lastBound? {calls : List Call} {call : Call} (h : lastBound? calls = some call) :
    call ∈ calls ∧ call.isBound :=
  List.mem_filter.mp (List.mem_of_getLast? h)

theorem not_isPage_of_lastBound? {calls : List Call} (h : lastBound? calls = none) :
    ∀ call ∈ calls, ¬ call.isPage := by
  intro call mem page
  have none := List.filter_eq_nil_iff.mp (List.getLast?_eq_none_iff.mp h) call mem
  exact none (Call.isBound_of_isPage page)

namespace Filter

/-- Limit and offset are those of the last bound alone. -/
theorem value?_build (calls : List Call) (slot : Slot) : (build calls).modifiers.value? slot =
    (build (lastBound? calls).toList).modifiers.value? slot := by
  induction calls using List.reverseRecOn with
  | nil => rfl
  | append_singleton calls call ih =>
    rw [build_append, lastBound?_append]
    have step := call.value?_modify (build calls).modifiers slot
    cases bound : call.isBound with
    | true =>
      rw [if_pos bound] at step
      exact step
    | false =>
      rw [if_neg (by simp [bound])] at step
      exact step.trans ih

theorem path?_build (calls : List Call) (slot : Slot) :
    (build calls).modifiers.path? slot = none := by
  induction calls using List.reverseRecOn with
  | nil => cases slot <;> rfl
  | append_singleton calls call ih =>
    rw [build_append]
    exact call.path?_modify _ ih

/-- A filter is paged if any call was a page, the last bound or not. -/
theorem paged_build (calls : List Call) :
    (build calls).modifiers.paged = calls.any Call.isPage := by
  induction calls using List.reverseRecOn with
  | nil => rfl
  | append_singleton calls call ih =>
    rw [build_append, List.any_append, ← ih]
    exact (call.paged_modify _).trans (by simp)

/-- The mark of a page is that of the last call, unless that is a limit with a page before it. -/
theorem paged_build_eq_iff (calls : List Call) :
    (build calls).modifiers.paged = (build (lastBound? calls).toList).modifiers.paged ↔
      ∀ rows skip, lastBound? calls = some (.limit rows skip) →
        ∀ call ∈ calls, ¬ call.isPage := by
  rw [paged_build, paged_build]
  cases last : lastBound? calls with
  | none => simpa using not_isPage_of_lastBound? last
  | some call =>
    obtain ⟨mem, bound⟩ := mem_of_lastBound? last
    cases call with
    | page number size =>
      have marked : calls.any Call.isPage := List.any_eq_true.mpr ⟨_, mem, rfl⟩
      simp [marked, Call.isPage]
    | limit rows skip => simp [Call.isPage]
    | _ => cases bound

/-- Limit and offset are as if the last call for them had been the only one. The filter is paged if
a page was ever asked for, so that it is no page of its own where a limit was asked for later. -/
theorem last_bound_alone (calls : List Call) :
    let last := lastBound? calls
    let alone := (build last.toList).modifiers
    let m := (build calls).modifiers
    (m.limit = alone.limit ∧ m.offset = alone.offset ∧ m.limitPath = none ∧ m.offsetPath = none) ∧
    (m.paged ↔ ∃ number size, .page number size ∈ calls) ∧
    (∀ number size, last = some (.page number size) → m.paged ∧
      m.limit = some (.ofCount size) ∧
      m.offset = some (.ofCount (Modifiers.rowsBefore number size))) ∧
    (m.paged = alone.paged ↔ ∀ rows skip, last = some (.limit rows skip) →
      ∀ number size, .page number size ∉ calls) := by
  intro last alone m
  have limit : m.limit = alone.limit := value?_build calls .limit
  have offset : m.offset = alone.offset := value?_build calls .offset
  have paged : m.paged ↔ ∃ number size, .page number size ∈ calls := by
    simp only [m, paged_build, List.any_eq_true, Call.isPage_iff]
    constructor
    · rintro ⟨call, mem, number, size, rfl⟩
      exact ⟨number, size, mem⟩
    · rintro ⟨number, size, mem⟩
      exact ⟨_, mem, number, size, rfl⟩
  refine ⟨⟨limit, offset, path?_build calls .limit, path?_build calls .offset⟩, paged, ?_, ?_⟩
  · intro number size page
    refine ⟨paged.mpr ⟨number, size, (mem_of_lastBound? page).1⟩, ?_, ?_⟩
    · rw [limit]
      simp only [alone, page]
      rfl
    · rw [offset]
      simp only [alone, page]
      rfl
  · rw [paged_build_eq_iff]
    simp only [Call.isPage_iff]
    constructor
    · intro none rows skip limited number size mem
      exact none rows skip limited _ mem ⟨number, size, rfl⟩
    · rintro none rows skip limited call mem ⟨number, size, rfl⟩
      exact none rows skip limited number size mem

/-- A limit does not undo the page before it. -/
theorem not_last_bound_alone :
    ¬ ∀ calls : List Call,
      let alone := (build (lastBound? calls).toList).modifiers
      let m := (build calls).modifiers
      m.limit = alone.limit ∧ m.offset = alone.offset ∧ m.paged = alone.paged := by
  intro last
  have paged := (last [.page 3 20, .limit 5 (some 7)]).2.2
  exact absurd paged (by decide)

end Filter

end FilterQuery
