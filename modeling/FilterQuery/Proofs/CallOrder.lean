import FilterQuery.Builder
import Mathlib.Data.List.Induction

/-!
# The order of calls

Calls of different kinds write to different parts of a filter, so it makes no difference which of
them comes first. Main statement: two sequences with the same calls of each kind in the same order
build the same filter. Its clauses, criteria and columns are those of the calls as they follow each
other, a group having the clauses of its body in the same way, and where a part can be set again the
last call for it counts.

A sequence is brought into the order of another one from the front: the first call of one stands in
the other behind calls of other kinds alone, and moves past these.
-/

namespace List

variable {σ ι κ : Type} {step : σ → ι → σ} {kind : ι → κ}

/-- A step moves past steps of other kinds. -/
theorem foldl_move (comm : ∀ s a b, kind a ≠ kind b → step (step s a) b = step (step s b) a)
    {a : ι} {before : List ι} (other : ∀ b ∈ before, kind b ≠ kind a) (s : σ) :
    step (before.foldl step s) a = before.foldl step (step s a) := by
  induction before generalizing s with
  | nil => rfl
  | cons b before ih =>
    rw [forall_mem_cons] at other
    rw [foldl_cons, ih other.2, comm s b a other.1, foldl_cons]

variable [DecidableEq κ]

theorem eq_nil_of_filter {l : List ι} (none : ∀ k, l.filter (kind · = k) = []) : l = [] := by
  rw [eq_nil_iff_forall_not_mem]
  intro a ha
  have own : a ∈ l.filter (kind · = kind a) := mem_filter.mpr ⟨ha, decide_eq_true rfl⟩
  rw [none] at own
  cases own

/-- If steps of different kinds commute, a run depends on nothing but the steps of each kind in
their order. -/
theorem foldl_eq_of_filter_eq
    (comm : ∀ s a b, kind a ≠ kind b → step (step s a) b = step (step s b) a) {l l' : List ι}
    (same : ∀ k, l.filter (kind · = k) = l'.filter (kind · = k)) (s : σ) :
    l.foldl step s = l'.foldl step s := by
  induction l generalizing l' s with
  | nil => rw [eq_nil_of_filter fun k => (same k).symm]
  | cons a l ih =>
    have own : l'.filter (kind · = kind a) = a :: l.filter (kind · = kind a) := by
      rw [← same]
      exact filter_cons_of_pos (decide_eq_true rfl)
    obtain ⟨before, after, rfl, other, -, later⟩ := filter_eq_cons_iff.mp own
    have other : ∀ b ∈ before, kind b ≠ kind a := fun b hb => by simpa using other b hb
    have rest : ∀ k, l.filter (kind · = k) = (before ++ after).filter (kind · = k) := by
      intro k
      by_cases here : kind a = k
      · subst here
        have none : before.filter (kind · = kind a) = [] :=
          filter_eq_nil_iff.mpr fun b hb => by simpa using other b hb
        rw [filter_append, none, nil_append, later]
      · simpa only [filter_append, filter_cons, here, decide_false, Bool.false_eq_true, if_false]
          using same k
    rw [foldl_cons, ih rest, foldl_append, foldl_append, foldl_cons, foldl_move comm other]

end List

namespace FilterQuery

namespace Call

/-- What a call is about. -/
inductive Kind where
  | clause
  | connective
  | order
  | grouping
  | bound
  | distinct
  | projection
  deriving DecidableEq, Repr

def kind : Call → Kind
  | .condition _ => .clause
  | .orQuery _ => .connective
  | .order _ => .order
  | .groupBy _ => .grouping
  | .limit _ _ | .page _ _ => .bound
  | .distinct _ => .distinct
  | .idOnly _ | .countOnly => .projection

/-- Calls of different kinds write to different parts. -/
theorem apply_comm (f : Filter) (a b : Call) (other : a.kind ≠ b.kind) :
    apply (apply f a) b = apply (apply f b) a := by
  cases a <;> cases b <;> first | rfl | exact absurd rfl other

def clause? : Call → Option Clause
  | .condition c => some c.toClause
  | _ => none

def connective? : Call → Option Combinator
  | .orQuery on => some (if on then .or else .and)
  | _ => none

def criterion? : Call → Option Criterion
  | .order criterion => some criterion
  | _ => none

def column? : Call → Option String
  | .groupBy column => some column
  | _ => none

def distinct? : Call → Option Bool
  | .distinct on => some on
  | _ => none

def projection? : Call → Option Projection
  | .idOnly on => some (if on then .idOnly else .full)
  | .countOnly => some .countOnly
  | _ => none

end Call

namespace Filter

/-- A part to which each call adds what it has for it. -/
theorem gathered_build {β : Type} (part : Filter → List β) (has? : Call → Option β)
    (start : part all = [])
    (step : ∀ f call, part (Call.apply f call) = part f ++ (has? call).toList)
    (calls : List Call) : part (build calls) = calls.filterMap has? := by
  induction calls using List.reverseRecOn with
  | nil => exact start
  | append_singleton calls call ih =>
    rw [build_append, step, ih, List.filterMap_append]
    cases has : has? call <;> simp [has]

/-- A part which each call that has something for it sets anew. -/
theorem latest_build {β : Type} (part : Filter → β) (has? : Call → Option β)
    (step : ∀ f call, part (Call.apply f call) = (has? call).getD (part f)) (calls : List Call) :
    part (build calls) = (calls.filterMap has?).getLast?.getD (part all) := by
  induction calls using List.reverseRecOn with
  | nil => rfl
  | append_singleton calls call ih =>
    rw [build_append, step, ih, List.filterMap_append]
    cases has : has? call <;> simp [has]

/-- A sequence of calls that has the same calls of each kind, in the same order, builds the same. -/
theorem build_of_filter_eq {calls calls' : List Call}
    (same : ∀ kind, calls.filter (·.kind = kind) = calls'.filter (·.kind = kind)) :
    build calls = build calls' :=
  List.foldl_eq_of_filter_eq Call.apply_comm same all

/-- Conditions are collected in the order of the calls. -/
theorem children_build (calls : List Call) :
    (build calls).root.children = calls.filterMap Call.clause? := by
  refine gathered_build (·.root.children) Call.clause? rfl (fun f call => ?_) calls
  cases call <;> simp [Call.apply, Call.extend, Call.clause?]

theorem order_build (calls : List Call) :
    (build calls).modifiers.order = calls.filterMap Call.criterion? := by
  refine gathered_build (·.modifiers.order) Call.criterion? rfl (fun f call => ?_) calls
  cases call <;> simp [Call.apply, Call.modify, Call.criterion?, Modifiers.setPage]

theorem groupBy_build (calls : List Call) :
    (build calls).modifiers.groupBy = calls.filterMap Call.column? := by
  refine gathered_build (·.modifiers.groupBy) Call.column? rfl (fun f call => ?_) calls
  cases call <;> simp [Call.apply, Call.modify, Call.column?, Modifiers.setPage]

theorem combinator_build (calls : List Call) :
    (build calls).root.combinator = (calls.filterMap Call.connective?).getLast?.getD .and := by
  refine latest_build (·.root.combinator) Call.connective? (fun f call => ?_) calls
  cases call <;> rfl

theorem distinct_build (calls : List Call) :
    (build calls).modifiers.distinct = (calls.filterMap Call.distinct?).getLast?.getD false := by
  refine latest_build (·.modifiers.distinct) Call.distinct? (fun f call => ?_) calls
  cases call <;> rfl

theorem projection_build (calls : List Call) :
    (build calls).modifiers.projection =
      (calls.filterMap Call.projection?).getLast?.getD .full := by
  refine latest_build (·.modifiers.projection) Call.projection? (fun f call => ?_) calls
  cases call <;> rfl

end Filter

/-- The body of a group has its clauses as if its calls were made at the top. -/
theorem Condition.toClauses_eq_map (body : List Condition) :
    toClauses body = body.map toClause := by
  induction body with
  | nil => rfl
  | cons condition rest ih => rw [toClauses, ih, List.map_cons]

/-- Calls of different kinds may be reordered. -/
theorem Filter.build_reordered :
    (∀ calls calls' : List Call,
      (∀ kind, calls.filter (·.kind = kind) = calls'.filter (·.kind = kind)) →
      build calls = build calls') ∧
    (∀ calls : List Call,
      (build calls).root.children = calls.filterMap Call.clause? ∧
      (build calls).root.combinator = (calls.filterMap Call.connective?).getLast?.getD .and ∧
      (build calls).modifiers.order = calls.filterMap Call.criterion? ∧
      (build calls).modifiers.groupBy = calls.filterMap Call.column? ∧
      (build calls).modifiers.distinct = (calls.filterMap Call.distinct?).getLast?.getD false ∧
      (build calls).modifiers.projection =
        (calls.filterMap Call.projection?).getLast?.getD .full) ∧
    (∀ (combinator : Combinator) (body : List Condition),
      (Condition.group combinator body).toClause =
        .group combinator (build (body.map .condition)).root.children ∧
      (build (body.map .condition)).root.children = body.map Condition.toClause) := by
  have body (conditions : List Condition) :
      (build (conditions.map .condition)).root.children = conditions.map Condition.toClause := by
    rw [children_build, List.filterMap_map, ← List.filterMap_eq_map]
    rfl
  refine ⟨fun _ _ => build_of_filter_eq, fun calls => ?_, fun combinator conditions => ?_⟩
  · exact ⟨children_build calls, combinator_build calls, order_build calls, groupBy_build calls,
      distinct_build calls, projection_build calls⟩
  · rw [body, Condition.toClause, Condition.toClauses_eq_map]
    exact ⟨rfl, rfl⟩

/-- The clauses, the pages and limits, and what is selected keep their order. -/
theorem Filter.build_reordered_sample :
    let either : Condition := .group .or [.eq "b" (.int 1), .group .and [.isNull "c"]]
    let calls : List Call := [.page 2 10, .condition (.eq "a" .null), .orQuery true, .idOnly true,
      .order ⟨"a", .desc⟩, .condition either, .limit 5 none, .groupBy "d", .countOnly,
      .orQuery false]
    let calls' : List Call := [.orQuery true, .orQuery false, .groupBy "d", .order ⟨"a", .desc⟩,
      .condition (.eq "a" .null), .page 2 10, .idOnly true, .limit 5 none, .countOnly,
      .condition either]
    (∀ kind, calls.filter (·.kind = kind) = calls'.filter (·.kind = kind)) ∧
      build calls = build calls' ∧ (build calls').root.combinator = .and := by
  intro either calls calls'
  have same : ∀ kind, calls.filter (·.kind = kind) = calls'.filter (·.kind = kind) := by
    intro kind
    cases kind <;> rfl
  exact ⟨same, build_reordered.1 calls calls' same, rfl⟩

end FilterQuery
