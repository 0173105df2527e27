import FilterQuery.Query

/-!
# Prepared filters

A prepared filter keeps the query of its first successful compilation and hands out that same one
again whenever it is compiled for the same target. For another target a query is made afresh and
nothing is kept. A filter derived from it begins without a kept query.

The bench numbers filters and compilations, and knows of each query handed out whose it is: kept
by a filter, or made for one compilation alone. Two answers are the same object exactly if they
have the same owner.
-/

namespace FilterQuery

structure Prepared where
  filter : Filter
  kept : Option Query
  made : ∀ q ∈ kept, filter.query q.target = .ok q

def Filter.prepare (f : Filter) : Prepared := ⟨f, none, by simp⟩

namespace Prepared

def isCompiled (p : Prepared) : Bool := p.kept.isSome

/-- Keeps a query that the filter makes. -/
def keep (p : Prepared) (q : Query) (h : p.filter.query q.target = .ok q) : Prepared :=
  { p with kept := some q, made := by simpa using h }

/-- A query as it is handed out: the kept one, or one of its own. -/
structure Handed where
  query : Query
  isKept : Bool
  deriving DecidableEq, Repr

def compile (p : Prepared) (target : Target) : Except CompileError Handed × Prepared :=
  match p.kept with
  | some q =>
    if q.target = target then (.ok ⟨q, true⟩, p)
    else ((p.filter.query target).map (⟨·, false⟩), p)
  | none =>
    match h : p.filter.query target with
    | .ok q => (.ok ⟨q, true⟩, p.keep q (by rw [Filter.target_of_query h, h]))
    | .error e => (.error e, p)

@[simp] theorem filter_compile (p : Prepared) (target : Target) :
    (p.compile target).2.filter = p.filter := by
  unfold compile
  split
  · split <;> rfl
  · split <;> rfl

/-- Keeping queries never shows in what is handed out. -/
theorem query_compile (p : Prepared) (target : Target) :
    (p.compile target).1.map Handed.query = p.filter.query target := by
  unfold compile
  split
  · next q kept =>
    split
    · next same =>
      rw [← same, p.made q (by simp [kept])]
      rfl
    · cases p.filter.query target <;> rfl
  · split
    · next made => exact made.symm
    · next made => exact made.symm

/-- For what target a query is kept. -/
def keptTarget? (p : Prepared) : Option Target := p.kept.map Query.target

@[simp] theorem keptTarget?_prepare (f : Filter) : f.prepare.keptTarget? = none := rfl

@[simp] theorem isSome_keptTarget? (p : Prepared) : p.keptTarget?.isSome = p.isCompiled := by
  simp [keptTarget?, isCompiled]

/-- The first compilation that succeeds settles for what target a query is kept. -/
theorem keptTarget?_compile (p : Prepared) (target : Target) :
    (p.compile target).2.keptTarget? =
      p.keptTarget?.or (if (p.filter.query target).isOk then some target else none) := by
  unfold compile
  split
  · next q kept => split <;> simp [keptTarget?, kept]
  · next kept =>
    split
    · next q made =>
      have same := Filter.target_of_query made
      simp [keptTarget?, kept, keep, made, same, Except.isOk, Except.toBool]
    · next e made => simp [keptTarget?, kept, made, Except.isOk, Except.toBool]

/-- The kept query is handed out for its own target and for no other. -/
theorem isKept_of_compile {p : Prepared} {target : Target} {handed : Handed}
    (h : (p.compile target).1 = .ok handed) :
    handed.isKept = decide ((p.compile target).2.keptTarget? = some target) := by
  unfold compile at h ⊢
  split at h
  · next q kept =>
    split at h
    · next same =>
      obtain rfl := Except.ok.inj h
      simp [kept, keptTarget?, same]
    · next other =>
      have own : handed.isKept = false := by
        cases made : p.filter.query target with
        | error e => simp [made, Except.map] at h
        | ok r =>
          obtain rfl : ⟨r, false⟩ = handed := by simpa [made, Except.map] using h
          rfl
      simp [kept, keptTarget?, other, own]
  · next kept =>
    split at h
    · next q made =>
      obtain rfl := Except.ok.inj h
      simp [keptTarget?, keep, Filter.target_of_query made]
    · exact absurd h (by simp)

end Prepared

/-- Where a query object lives. -/
inductive Owner where
  | filter (number : Nat)
  | compilation (number : Nat)
  deriving DecidableEq, Repr

structure Issue where
  owner : Owner
  query : Query
  deriving DecidableEq, Repr

/-- Filters by number, and by number what each compilation gave, if it succeeded. -/
structure Bench where
  filters : List Prepared
  issues : List (Option Issue) := []

namespace Bench

def start (f : Filter) : Bench := { filters := [f.prepare] }

def filter (b : Bench) (i : Nat) : Prepared := b.filters[i]?.getD Filter.all.prepare

def compile (b : Bench) (i : Nat) (target : Target) : Except CompileError Query × Bench :=
  let (outcome, prepared) := (b.filter i).compile target
  let filters := b.filters.set i prepared
  match outcome with
  | .ok handed =>
    let owner := if handed.isKept then .filter i else .compilation b.issues.length
    (.ok handed.query, ⟨filters, b.issues ++ [some ⟨owner, handed.query⟩]⟩)
  | .error e => (.error e, ⟨filters, b.issues ++ [none]⟩)

/-- Adds a filter made from the one numbered `i`; it takes the next number. -/
def derive (b : Bench) (i : Nat) (change : Filter → Filter) : Bench :=
  { b with filters := b.filters ++ [(change (b.filter i).filter).prepare] }

section

variable (b : Bench) (i : Nat) (target : Target) (change : Filter → Filter)

@[simp] theorem filters_compile :
    (b.compile i target).2.filters = b.filters.set i ((b.filter i).compile target).2 := by
  unfold compile
  cases h : (b.filter i).compile target with
  | mk outcome prepared => cases outcome <;> rfl

/-- A filter compiled for the first time or again answers with the query of its filter. -/
theorem answer_compile : (b.compile i target).1 = (b.filter i).filter.query target := by
  rw [← Prepared.query_compile]
  unfold compile
  cases h : (b.filter i).compile target with
  | mk outcome prepared => cases outcome <;> rfl

/-- An object is the filter's own exactly if a query is kept for its target. -/
theorem issues_compile :
    (b.compile i target).2.issues = b.issues ++ [(b.compile i target).1.toOption.map fun q =>
      ⟨if ((b.filter i).compile target).2.keptTarget? = some target then .filter i
        else .compilation b.issues.length, q⟩] := by
  unfold compile
  cases h : (b.filter i).compile target with
  | mk outcome prepared =>
    cases outcome with
    | error e => rfl
    | ok handed =>
      have own := Prepared.isKept_of_compile (by rw [h])
      rw [h] at own
      simp [own, Except.toOption]

variable {i}

theorem filter_compile_self (h : i < b.filters.length) :
    (b.compile i target).2.filter i = ((b.filter i).compile target).2 := by
  simp [filter, h]

/-- Compiling one filter leaves the others as they are. -/
theorem filter_compile_of_ne {j : Nat} (h : i ≠ j) :
    (b.compile i target).2.filter j = b.filter j := by
  simp [filter, List.getElem?_set_ne h]

/-- A compilation changes no filter, only what is kept beside it. -/
theorem filter_filter_compile (j : Nat) :
    ((b.compile i target).2.filter j).filter = (b.filter j).filter := by
  by_cases h : i = j
  · subst h
    by_cases hi : i < b.filters.length
    · rw [filter_compile_self b target hi, Prepared.filter_compile]
    · simp [filter, hi]
  · rw [filter_compile_of_ne b target h]

variable (i)

theorem filter_derive_length :
    (b.derive i change).filter b.filters.length = (change (b.filter i).filter).prepare := by
  simp [derive, filter]

theorem filter_derive_of_ne {j : Nat} (h : j ≠ b.filters.length) :
    (b.derive i change).filter j = b.filter j := by
  by_cases hj : j < b.filters.length
  · simp [derive, filter, List.getElem?_append_left hj]
  · have last : j - b.filters.length ≠ 0 := by omega
    simp [derive, filter, List.getElem?_append_right (Nat.le_of_not_lt hj), hj, last]

end

/-- What can be done at a bench: a compilation, or a filter made from another. -/
inductive Step where
  | compile (filter : Nat) (target : Target)
  | copy (filter : Nat)
  | project (filter : Nat) (projection : Projection)
  | page (filter : Nat) (number size : UInt64)
  deriving DecidableEq, Repr

/-- A compilation has an outcome, and every other step only adds a filter. -/
def perform (b : Bench) : Step → Option (Except CompileError Query) × Bench
  | .compile i target =>
    let (outcome, next) := b.compile i target
    (some outcome, next)
  | .copy i => (none, b.derive i id)
  | .project i projection => (none, b.derive i (·.withProjection projection))
  | .page i number size => (none, b.derive i (·.withPage number size))

def run (b : Bench) (steps : List Step) : Bench := steps.foldl (fun b step => (b.perform step).2) b

@[simp] theorem run_nil (b : Bench) : b.run [] = b := rfl

@[simp] theorem run_cons (b : Bench) (step : Step) (rest : List Step) :
    b.run (step :: rest) = (b.perform step).2.run rest := rfl

/-- Whether two compilations gave the same object, and whether they gave equal contents. -/
def compareIssues? (b : Bench) (i j : Nat) : Option (Bool × Bool) := do
  let x ← b.issues[i]?.join
  let y ← b.issues[j]?.join
  return (x.owner == y.owner, x.query.sameContent y.query)

end Bench

end FilterQuery
