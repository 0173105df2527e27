import FilterQuery.Prepared

/-!
# Keeping queries never shows

A run takes steps at a bench whose filters were not compiled before. Main statement: every
compilation is answered as if its filter were new, a filter is compiled exactly if one of its own
compilations succeeded, and two answers for one filter are the same object exactly if both are for
the target of its first success. What is done with other filters makes no difference to a filter.

The invariant compares a bench with the compilations that led to it: a filter keeps a query for the
target of its first success, and with that the owner of every answer is settled for good.
-/

namespace FilterQuery

namespace Bench

/-- A bench with filters that were never compiled. -/
def ofFilters (fs : List Filter) : Bench := { filters := fs.map Filter.prepare }

namespace Step

/-- The number of the filter that a step is about. -/
def subject : Step → Nat
  | compile i _ | copy i | project i _ | page i _ _ => i

/-- How a step makes a filter of another, if it makes one. -/
def change? : Step → Option (Filter → Filter)
  | compile _ _ => none
  | copy _ => some id
  | project _ projection => some (·.withProjection projection)
  | page _ number size => some (·.withPage number size)

/-- A step that makes no filter compiles one. -/
theorem exists_compile {step : Step} (h : step.change? = none) :
    ∃ i target, step = .compile i target := by
  cases step with
  | compile i target => exact ⟨i, target, rfl⟩
  | _ => simp [change?] at h

/-- Whether a step adds a filter or compiles the one numbered `j`. -/
def concerns (j : Nat) (step : Step) : Bool := step.change?.isSome || step.subject == j

end Step

/-- Every step is about a filter that is there when the step is taken. -/
def Admits : Bench → List Step → Prop
  | _, [] => True
  | b, step :: rest => step.subject < b.filters.length ∧ (b.perform step).2.Admits rest

/-- A compilation as it was asked for and answered. -/
structure Compilation where
  filter : Nat
  target : Target
  outcome : Except CompileError Query

def compilation? (b : Bench) : Step → Option Compilation
  | .compile i target => some ⟨i, target, (b.compile i target).1⟩
  | _ => none

/-- The compilations of a run, in order. -/
def history (b : Bench) : List Step → List Compilation
  | [] => []
  | step :: rest => (b.compilation? step).toList ++ (b.perform step).2.history rest

/-- A step that makes a filter adds it and gives no answer. -/
theorem perform_of_change? {step : Step} {change : Filter → Filter}
    (h : step.change? = some change) (b : Bench) :
    b.perform step = (none, b.derive step.subject change) := by
  cases step with
  | compile i target => simp [Step.change?] at h
  | _ =>
    obtain rfl := Option.some.inj h
    rfl

theorem outcome_compilation? (b : Bench) (step : Step) :
    (b.compilation? step).map Compilation.outcome = (b.perform step).1 := by
  cases step <;> rfl

theorem compilation?_of_change? {step : Step} {change : Filter → Filter}
    (h : step.change? = some change) (b : Bench) : b.compilation? step = none := by
  have none := b.outcome_compilation? step
  rw [perform_of_change? h, Option.map_eq_none_iff] at none
  exact none

section Afresh

def filterAt (fs : List Filter) (i : Nat) : Filter := fs[i]?.getD .all

/-- A compilation of a copy that was never compiled. -/
def compilationAfresh? (fs : List Filter) : Step → Option Compilation
  | .compile i target =>
    some ⟨i, target, ((filterAt fs i).prepare.compile target).1.map Prepared.Handed.query⟩
  | _ => none

def extend (fs : List Filter) (step : Step) : List Filter :=
  match step.change? with
  | none => fs
  | some change => fs ++ [change (filterAt fs step.subject)]

/-- The compilations of a run, each on a copy of its own. -/
def afresh (fs : List Filter) : List Step → List Compilation
  | [] => []
  | step :: rest => (compilationAfresh? fs step).toList ++ afresh (extend fs step) rest

/-- The filters of a bench, whatever is kept beside them. -/
def plain (b : Bench) : List Filter := b.filters.map Prepared.filter

@[simp] theorem plain_ofFilters (fs : List Filter) : (ofFilters fs).plain = fs := by
  simp [plain, ofFilters, Filter.prepare, Function.comp_def]

theorem filterAt_plain (b : Bench) (i : Nat) : filterAt b.plain i = (b.filter i).filter := by
  simp only [filterAt, plain, filter, List.getElem?_map]
  cases b.filters[i]? <;> rfl

@[simp] theorem plain_compile (b : Bench) (i : Nat) (target : Target) :
    (b.compile i target).2.plain = b.plain := by
  apply List.ext_getElem?
  intro j
  by_cases h : i = j
  · subst h
    by_cases hi : i < b.filters.length
    · simp [plain, filter, hi]
    · simp [plain, hi]
  · simp [plain, List.getElem?_set_ne h]

/-- A step does to the filters what it would do without anything kept. -/
theorem plain_perform (b : Bench) (step : Step) :
    (b.perform step).2.plain = extend b.plain step := by
  cases h : step.change? with
  | none =>
    obtain ⟨i, target, rfl⟩ := Step.exists_compile h
    exact plain_compile b i target
  | some change =>
    rw [perform_of_change? h, extend, h, filterAt_plain]
    simp [plain, derive, Filter.prepare]

/-- A compilation has the outcome that it has on a fresh copy. -/
theorem compilation?_eq_afresh (b : Bench) (step : Step) :
    b.compilation? step = compilationAfresh? b.plain step := by
  cases step with
  | compile i target =>
    have again := (filterAt b.plain i).prepare.query_compile target
    simp only [compilation?, compilationAfresh?, again]
    rw [answer_compile, filterAt_plain]
    rfl
  | _ => rfl

/-- Compilation by compilation, a run comes to what fresh copies come to. -/
theorem history_eq_afresh (b : Bench) (steps : List Step) :
    b.history steps = afresh b.plain steps := by
  induction steps generalizing b with
  | nil => rfl
  | cons step rest ih => rw [history, afresh, ih, plain_perform, compilation?_eq_afresh]

end Afresh

/-- The target of the first compilation of filter `i` that succeeded. -/
def firstTarget? (i : Nat) (past : List Compilation) : Option Target :=
  (past.find? fun c => c.filter == i && c.outcome.isOk).map Compilation.target

/-- A later success counts only if there was none before. -/
theorem firstTarget?_append (i : Nat) (past : List Compilation) (c : Compilation) :
    firstTarget? i (past ++ [c]) = (firstTarget? i past).or
      (if c.filter = i ∧ c.outcome.isOk then some c.target else none) := by
  unfold firstTarget?
  rw [List.find?_append]
  cases past.find? fun c => c.filter == i && c.outcome.isOk with
  | some first => rfl
  | none => by_cases h : c.filter = i ∧ c.outcome.isOk <;> simp [h]

theorem isSome_firstTarget? {i : Nat} {past : List Compilation} :
    (firstTarget? i past).isSome ↔ ∃ c ∈ past, c.filter = i ∧ ∃ q, c.outcome = .ok q := by
  have ok : ∀ o : Except CompileError Query, o.isOk ↔ ∃ q, o = .ok q := by
    intro o
    cases o <;> simp [Except.isOk, Except.toBool]
  simp [firstTarget?, ok]

/-- The object that the compilation numbered `n` gave, if it succeeded. -/
def issueOf (past : List Compilation) (n : Nat) (c : Compilation) : Option Issue :=
  c.outcome.toOption.map fun q =>
    ⟨if firstTarget? c.filter past = some c.target then .filter c.filter else .compilation n, q⟩

/-- Later compilations do not change whose an object is. -/
theorem issueOf_append {past : List Compilation} {c : Compilation} (h : c ∈ past) (n : Nat)
    (d : Compilation) : issueOf (past ++ [d]) n c = issueOf past n c := by
  cases hc : c.outcome with
  | error e => simp [issueOf, hc, Except.toOption]
  | ok q =>
    have settled := isSome_firstTarget?.mpr ⟨c, h, rfl, q, hc⟩
    obtain ⟨first, hf⟩ := Option.isSome_iff_exists.mp settled
    have same : firstTarget? c.filter (past ++ [d]) = firstTarget? c.filter past := by
      rw [firstTarget?_append, hf, Option.some_or]
    rw [issueOf, issueOf, same]

/-- How a bench stands after these compilations. -/
structure Reflects (b : Bench) (past : List Compilation) : Prop where
  answers : ∀ c ∈ past, c.filter < b.filters.length ∧
    c.outcome = (b.filter c.filter).filter.query c.target
  kept : ∀ i, (b.filter i).keptTarget? = firstTarget? i past
  length_issues : b.issues.length = past.length
  issues : ∀ n c, past[n]? = some c → b.issues[n]? = some (issueOf past n c)

theorem reflects_ofFilters (fs : List Filter) : (ofFilters fs).Reflects [] where
  answers := by simp
  kept i := by
    simp only [ofFilters, filter, List.getElem?_map]
    cases fs[i]? <;> rfl
  length_issues := rfl
  issues := by simp

variable {b : Bench} {past : List Compilation}

/-- A compilation leaves the bench as it should stand after one more. -/
theorem Reflects.compile {i : Nat} (h : b.Reflects past) (hi : i < b.filters.length)
    (target : Target) :
    (b.compile i target).2.Reflects (past ++ [⟨i, target, (b.compile i target).1⟩]) := by
  have answer := b.answer_compile i target
  have kept : ∀ j, ((b.compile i target).2.filter j).keptTarget? =
      firstTarget? j (past ++ [⟨i, target, (b.compile i target).1⟩]) := by
    intro j
    rw [firstTarget?_append, ← h.kept j]
    by_cases hj : i = j
    · subst hj
      rw [filter_compile_self b target hi, Prepared.keptTarget?_compile, answer]
      simp
    · simp [filter_compile_of_ne b target hj, hj]
  refine ⟨?_, kept, ?_, ?_⟩
  · intro c hc
    rw [filter_filter_compile, filters_compile, List.length_set]
    rcases List.mem_append.mp hc with hc | hc
    · exact h.answers c hc
    · rw [List.mem_singleton.mp hc]
      exact ⟨hi, answer⟩
  · simp [issues_compile, h.length_issues]
  · intro n c hc
    rw [issues_compile]
    -- An earlier object keeps its owner, and that of the new one shows in what is kept by now.
    by_cases hn : n < past.length
    · rw [List.getElem?_append_left hn] at hc
      rw [List.getElem?_append_left (by rwa [h.length_issues]), h.issues n c hc,
        issueOf_append (List.mem_of_getElem? hc)]
    · have bound := (List.getElem?_eq_some_iff.mp hc).1
      obtain rfl : n = past.length := by
        simp only [List.length_append, List.length_singleton] at bound
        omega
      obtain rfl : _ = c := by simpa using hc
      rw [← h.length_issues, List.getElem?_concat_length, issueOf, ← kept i,
        filter_compile_self b target hi]

theorem Reflects.derive (h : b.Reflects past) (i : Nat) (change : Filter → Filter) :
    (b.derive i change).Reflects past := by
  refine ⟨?_, ?_, h.length_issues, h.issues⟩
  · intro c hc
    obtain ⟨hlt, answer⟩ := h.answers c hc
    rw [filter_derive_of_ne b i change (Nat.ne_of_lt hlt)]
    exact ⟨by simp [Bench.derive]; omega, answer⟩
  · intro j
    by_cases hj : j = b.filters.length
    · have unused : b.filter b.filters.length = Filter.all.prepare := by simp [filter]
      rw [hj, filter_derive_length, ← h.kept, unused]
      rfl
    · rw [filter_derive_of_ne b i change hj, h.kept]

/-- Every step leaves the bench as it should stand. -/
theorem Reflects.perform (h : b.Reflects past) {step : Step}
    (hs : step.subject < b.filters.length) :
    (b.perform step).2.Reflects (past ++ (b.compilation? step).toList) := by
  cases hc : step.change? with
  | none =>
    obtain ⟨i, target, rfl⟩ := Step.exists_compile hc
    exact h.compile hs target
  | some change =>
    rw [perform_of_change? hc, compilation?_of_change? hc, Option.toList_none, List.append_nil]
    exact h.derive step.subject change

/-- A whole run leaves the bench as it should stand after its compilations. -/
theorem Reflects.run {steps : List Step} (h : b.Reflects past) (admitted : b.Admits steps) :
    (b.run steps).Reflects (past ++ b.history steps) := by
  induction steps generalizing b past with
  | nil => simpa [history] using h
  | cons step rest ih =>
    have next := h.perform admitted.1
    rw [run_cons, history, ← List.append_assoc]
    exact ih next admitted.2

/-- One compilation that fails keeps its filter uncompiled, since then they all fail. -/
theorem Reflects.not_isCompiled {c : Compilation} {e : CompileError} (h : b.Reflects past)
    (hc : c ∈ past) (failed : c.outcome = .error e) :
    (b.filter c.filter).isCompiled = false := by
  have answer := (h.answers c hc).2
  rw [failed, eq_comm, Filter.query_eq_error] at answer
  cases kept : (b.filter c.filter).kept with
  | none => simp [Prepared.isCompiled, kept]
  | some q =>
    have made := (b.filter c.filter).made q kept
    rw [Filter.query_eq_error.mpr answer] at made
    exact absurd made (by simp)

/-- The object of a compilation holds the query that was its outcome. -/
theorem Reflects.query_issue {n : Nat} {c : Compilation} (h : b.Reflects past)
    (hc : past[n]? = some c) :
    b.issues[n]?.map (·.map Issue.query) = some c.outcome.toOption := by
  rw [h.issues n c hc, issueOf]
  cases c.outcome <;> rfl

/-- Two answers for one filter have the same owner if both targets are that of its first success,
and otherwise at least one of them belongs to its compilation alone. -/
theorem Reflects.compareIssues {m n : Nat} {c d : Compilation} {q r : Query}
    (h : b.Reflects past) (hc : past[m]? = some c) (hd : past[n]? = some d) (hmn : m ≠ n)
    (same : c.filter = d.filter) (hq : c.outcome = .ok q) (hr : d.outcome = .ok r) :
    (b.compareIssues? m n).map Prod.fst =
      some (decide (firstTarget? c.filter past = some c.target ∧
        firstTarget? d.filter past = some d.target)) := by
  have left := h.issues m c hc
  have right := h.issues n d hd
  simp only [issueOf, hq, hr, same, Except.toOption, Option.map_some] at left right
  simp only [compareIssues?, left, right, same, Option.join_some, bind, Option.bind_some, pure,
    Option.map_some]
  by_cases first : firstTarget? d.filter past = some c.target
  · by_cases second : firstTarget? d.filter past = some d.target
    · have both : c.target = d.target := Option.some.inj (first.symm.trans second)
      rw [if_pos first, if_pos second]
      simp [second, both]
    · rw [if_pos first, if_neg second]
      simp [second]
  · by_cases second : firstTarget? d.filter past = some d.target
    · rw [if_neg first, if_pos second]
      simp [first]
    · rw [if_neg first, if_neg second]
      simp [first, hmn]

section Apart

variable {b' : Bench} {j : Nat}

/-- Two benches with the same filters, and with the same kept beside the one numbered `j`. -/
structure Alike (j : Nat) (b b' : Bench) : Prop where
  plain : b.plain = b'.plain
  filter : b.filter j = b'.filter j

theorem Alike.length_filters (h : Alike j b b') : b.filters.length = b'.filters.length := by
  simpa [Bench.plain] using congrArg List.length h.plain

theorem Alike.derive (h : Alike j b b') (i : Nat) (change : Filter → Filter) :
    Alike j (b.derive i change) (b'.derive i change) := by
  have length := h.length_filters
  have source : (b.filter i).filter = (b'.filter i).filter := by
    rw [← filterAt_plain, ← filterAt_plain, h.plain]
  constructor
  · have plain := h.plain
    simp only [Bench.plain] at plain
    simp [Bench.plain, Bench.derive, source, plain]
  · by_cases hj : j = b.filters.length
    · rw [hj, filter_derive_length, length, filter_derive_length, source]
    · rw [filter_derive_of_ne b i change hj, filter_derive_of_ne b' i change (length ▸ hj), h.filter]

theorem Alike.compile (h : Alike j b b') (target : Target) :
    Alike j (b.compile j target).2 (b'.compile j target).2 := by
  have length := h.length_filters
  constructor
  · rw [plain_compile, plain_compile, h.plain]
  · by_cases hj : j < b.filters.length
    · rw [filter_compile_self b target hj, filter_compile_self b' target (length ▸ hj), h.filter]
    · have same := h.filter
      simp only [Bench.filter] at same
      simp [Bench.filter, hj, length ▸ hj]

theorem Alike.compile_other {i : Nat} (h : Alike j b b') (hij : i ≠ j) (target : Target) :
    Alike j (b.compile i target).2 b' where
  plain := by rw [plain_compile, h.plain]
  filter := by rw [filter_compile_of_ne b target hij, h.filter]

/-- A run and what it has of steps for one filter leave that filter in the same state. -/
theorem Alike.run (h : Alike j b b') (steps : List Step) :
    Alike j (b.run steps) (b'.run (steps.filter (Step.concerns j))) := by
  induction steps generalizing b b' with
  | nil => exact h
  | cons step rest ih =>
    cases hc : step.change? with
    | some change =>
      have heeded : step.concerns j = true := by simp [Step.concerns, hc]
      rw [List.filter_cons_of_pos heeded, run_cons, run_cons, perform_of_change? hc,
        perform_of_change? hc]
      exact ih (h.derive step.subject change)
    | none =>
      obtain ⟨i, target, rfl⟩ := Step.exists_compile hc
      by_cases hij : i = j
      · subst hij
        have heeded : (Step.compile i target).concerns i = true := by
          simp [Step.concerns, Step.subject]
        rw [List.filter_cons_of_pos heeded, run_cons, run_cons]
        exact ih (h.compile target)
      · -- Only the longer run takes this step, so the benches stay alike without moving both.
        have unheeded : ¬(Step.compile i target).concerns j = true := by
          simp [Step.concerns, Step.subject, Step.change?, hij]
        rw [List.filter_cons_of_neg unheeded, run_cons]
        exact ih (h.compile_other hij target)

/-- Steps for other filters do not change what this one is compiled to. -/
theorem afresh_concerns (j : Nat) (fs : List Filter) (steps : List Step) :
    (afresh fs steps).filter (·.filter == j) =
      (afresh fs (steps.filter (Step.concerns j))).filter (·.filter == j) := by
  induction steps generalizing fs with
  | nil => rfl
  | cons step rest ih =>
    by_cases hc : step.concerns j = true
    · rw [List.filter_cons_of_pos hc, afresh, afresh, List.filter_append, List.filter_append, ih]
    · have compiles : step.change? = none := by
        cases h : step.change? with
        | none => rfl
        | some change => simp [Step.concerns, h] at hc
      obtain ⟨i, target, rfl⟩ := Step.exists_compile compiles
      have other : (i == j) = false := by simpa [Step.concerns, compiles, Step.subject] using hc
      rw [List.filter_cons_of_neg hc, afresh, List.filter_append, ← ih fs]
      simp [compilationAfresh?, extend, compiles, other]

end Apart

/-- What is true of the run that takes these steps from filters that were never compiled. -/
structure Transparent (fs : List Filter) (steps : List Step) : Prop where
  /-- Every compilation is answered as it would be on a copy of its own. -/
  answers : (ofFilters fs).history steps = afresh fs steps
  isCompiled_iff : ∀ i, (((ofFilters fs).run steps).filter i).isCompiled ↔
    ∃ c ∈ (ofFilters fs).history steps, c.filter = i ∧ ∃ q, c.outcome = .ok q
  not_isCompiled : ∀ c ∈ (ofFilters fs).history steps, ∀ e, c.outcome = .error e →
    (((ofFilters fs).run steps).filter c.filter).isCompiled = false
  /-- The object numbered `n` is what the compilation numbered `n` gave. -/
  issues : ∀ (n : Nat) (c : Compilation), ((ofFilters fs).history steps)[n]? = some c →
    ((ofFilters fs).run steps).issues[n]?.map (·.map Issue.query) = some c.outcome.toOption
  /-- Two answers for one filter are the same object only for the target of its first success. -/
  shared : ∀ (m n : Nat) (c d : Compilation) (q r : Query),
    ((ofFilters fs).history steps)[m]? = some c → ((ofFilters fs).history steps)[n]? = some d →
    m ≠ n → c.filter = d.filter → c.outcome = .ok q → d.outcome = .ok r →
    (((ofFilters fs).run steps).compareIssues? m n).map Prod.fst =
      some (decide (firstTarget? c.filter ((ofFilters fs).history steps) = some c.target ∧
        firstTarget? d.filter ((ofFilters fs).history steps) = some d.target))
  /-- Compilations of other filters might as well not have been. -/
  apart : ∀ j,
    ((ofFilters fs).run steps).filter j =
      ((ofFilters fs).run (steps.filter (Step.concerns j))).filter j ∧
    ((ofFilters fs).history steps).filter (·.filter == j) =
      ((ofFilters fs).history (steps.filter (Step.concerns j))).filter (·.filter == j)

/-- Every run of steps is transparent. -/
theorem transparent_run {fs : List Filter} {steps : List Step}
    (admitted : (ofFilters fs).Admits steps) : Transparent fs steps := by
  have reflects : ((ofFilters fs).run steps).Reflects ((ofFilters fs).history steps) :=
    (reflects_ofFilters fs).run admitted
  have afresh_eq : ∀ steps, (ofFilters fs).history steps = afresh fs steps := by
    intro steps
    rw [history_eq_afresh, plain_ofFilters]
  refine ⟨afresh_eq steps, ?_, ?_, ?_, ?_, ?_⟩
  · intro i
    rw [← Prepared.isSome_keptTarget?, reflects.kept i, isSome_firstTarget?]
  · intro c hc e failed
    exact reflects.not_isCompiled hc failed
  · intro n c hc
    exact reflects.query_issue hc
  · intro m n c d q r hc hd hmn same hq hr
    exact reflects.compareIssues hc hd hmn same hq hr
  · intro j
    have alike : Alike j (ofFilters fs) (ofFilters fs) := ⟨rfl, rfl⟩
    refine ⟨(alike.run steps).filter, ?_⟩
    rw [afresh_eq, afresh_eq, afresh_concerns]

/-- Two successes for one target and one for another, then the same with a copy, and a failure. -/
theorem transparent_run_sample :
    Transparent [.all, { root := {}, modifiers := { limit := some (.int (-1)) } }]
      [.compile 0 ⟨"users", "id"⟩, .compile 0 ⟨"teams", "id"⟩, .compile 0 ⟨"users", "id"⟩,
        .copy 0, .compile 2 ⟨"teams", "id"⟩, .page 1 2 10, .compile 1 ⟨"users", "id"⟩] := by
  refine transparent_run ?_
  simp [Admits, ofFilters, Step.subject, perform, derive]

end Bench

end FilterQuery
