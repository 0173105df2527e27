import FilterQuery.Reading
import Mathlib.Data.List.Forall2

/-!
# Refusals

A reading that goes wrong is known by its error alone, so readings are compared by what they
refuse: of several in a row the first refusal counts. A judgement says of a reading at a path what
it accepts and which fault it finds in everything else.
-/

namespace Except

variable {ε α β γ : Type}

def refusal? : Except ε α → Option ε
  | .error e => some e
  | .ok _ => none

@[simp] theorem refusal?_ok (a : α) : (.ok a : Except ε α).refusal? = none := rfl
@[simp] theorem refusal?_error (e : ε) : (.error e : Except ε α).refusal? = some e := rfl

/-- What is judged is accepted if and only if it is good. -/
theorem refusal?_eq_none {x : Except ε α} : x.refusal? = none ↔ ∃ a, x = .ok a := by
  cases x <;> simp

/-- What is judged is refused at its own path, for a fault that it has. -/
theorem refusal?_eq_some {x : Except ε α} {e : ε} : x.refusal? = some e ↔ x = .error e := by
  cases x <;> simp

/-- What is made of an answer afterwards refuses nothing. -/
@[simp] theorem refusal?_map (f : α → β) (x : Except ε α) : (x.map f).refusal? = x.refusal? := by
  cases x <;> rfl

/-- Of two readings, the second counts only if the first succeeds. -/
theorem refusal?_both (x : Except ε α) (y : Except ε β) (f : α → β → γ) :
    (do let a ← x; let b ← y; return f a b : Except ε γ).refusal? =
      x.refusal?.or y.refusal? := by
  cases x with
  | error e => rfl
  | ok a => cases y <;> rfl

/-- A list is refused for its first item that is refused. -/
theorem refusal?_mapM (f : α → Except ε β) (l : List α) :
    (l.mapM f).refusal? = l.findSome? fun a => (f a).refusal? := by
  induction l with
  | nil => rfl
  | cons a l ih =>
    rw [List.mapM_cons, refusal?_both, ih, List.findSome?_cons]
    cases (f a).refusal? <;> rfl

/-- The items are read one by one, each to the answer in its place. -/
theorem mapM_eq_ok {f : α → Except ε β} {l : List α} {l' : List β} :
    l.mapM f = .ok l' ↔ List.Forall₂ (fun a b => f a = .ok b) l l' := by
  constructor
  · intro h
    induction l generalizing l' with
    | nil =>
      obtain rfl := Except.ok.inj h
      exact .nil
    | cons a l ih =>
      rw [List.mapM_cons] at h
      obtain ⟨b, first, h⟩ := bind_eq_ok.mp h
      obtain ⟨later, rest, h⟩ := bind_eq_ok.mp h
      obtain rfl := Except.ok.inj h
      exact .cons first (ih rest)
  · intro each
    induction each with
    | nil => rfl
    | cons first _ ih =>
      rw [List.mapM_cons, first, ih]
      rfl

end Except

namespace FilterQuery

/-- Everything that stands before an item of a row is good. -/
def ReachedIn {α : Type} (good : α → Prop) (l : List α) (a : α) : Prop :=
  ∃ before after, l = before ++ a :: after ∧ ∀ b ∈ before, good b

/-- Where an item is not good at all, one of them comes first. -/
theorem exists_reachedIn {α : Type} {good : α → Prop} {l : List α} (h : ∃ a ∈ l, ¬ good a) :
    ∃ a, ReachedIn good l a ∧ ¬ good a := by
  classical
  obtain ⟨a, found⟩ := Option.isSome_iff_exists.mp
    (List.find?_isSome.mpr (by simpa using h) : (l.find? fun a => ¬ good a).isSome)
  obtain ⟨bad, before, after, cut, all⟩ := List.find?_eq_some_iff_append.mp found
  exact ⟨a, ⟨before, after, cut, fun b hb => by simpa using all b hb⟩, by simpa using bad⟩

/-- A row is refused for its first item that is refused. -/
theorem Except.mapM_eq_error {ε α β : Type} {f : α → Except ε β} {l : List α} {e : ε} :
    l.mapM f = .error e ↔ ∃ a, ReachedIn (fun b => ∃ x, f b = .ok x) l a ∧ f a = .error e := by
  rw [← Except.refusal?_eq_some, Except.refusal?_mapM, List.findSome?_eq_some_iff]
  simp only [Except.refusal?_eq_some, Except.refusal?_eq_none, ReachedIn]
  constructor
  · rintro ⟨before, a, after, cut, refused, all⟩
    exact ⟨a, ⟨before, after, cut, all⟩, refused⟩
  · rintro ⟨a, ⟨before, after, cut, all⟩, refused⟩
    exact ⟨before, a, after, cut, refused, all⟩

variable {α β : Type} {path : Path} {x : Except CompileError α} {good : Prop}
  {faulty : CompileFault → Prop}

/-- A reading at a path accepts what is good, and finds a fault in all else. -/
structure Judges (path : Path) (x : Except CompileError α) (good : Prop)
    (faulty : CompileFault → Prop) : Prop where
  accepts : good → x.refusal? = none
  refuses : ∀ {fault}, faulty fault → x.refusal? = some ⟨path.text, fault⟩
  total : good ∨ ∃ fault, faulty fault

namespace Judges

theorem refusal?_eq_none (h : Judges path x good faulty) : x.refusal? = none ↔ good := by
  refine ⟨fun hx => ?_, h.accepts⟩
  rcases h.total with hg | ⟨fault, hf⟩
  · exact hg
  · simp [h.refuses hf] at hx

theorem refusal?_eq_some (h : Judges path x good faulty) {e : CompileError} :
    x.refusal? = some e ↔ ∃ fault, faulty fault ∧ e = ⟨path.text, fault⟩ := by
  constructor
  · intro hx
    rcases h.total with hg | ⟨fault, hf⟩
    · simp [h.accepts hg] at hx
    · rw [h.refuses hf, Option.some_inj] at hx
      exact ⟨fault, hf, hx.symm⟩
  · rintro ⟨fault, hf, rfl⟩
    exact h.refuses hf

theorem map (h : Judges path x good faulty) (f : α → β) : Judges path (x.map f) good faulty :=
  ⟨fun hg => by simp [h.accepts hg], fun hf => by simp [h.refuses hf], h.total⟩

/-- A reading that finds only one fault. -/
theorem single {fault : CompileFault} (h : good ∧ x.refusal? = none ∨
    ¬ good ∧ x.refusal? = some ⟨path.text, fault⟩) :
    Judges path x good fun found => ¬ good ∧ found = fault := by
  rcases h with ⟨hg, hx⟩ | ⟨hg, hx⟩
  · exact ⟨fun _ => hx, fun hf => absurd hg hf.1, .inl hg⟩
  · refine ⟨fun good => absurd good hg, ?_, .inr ⟨fault, hg, rfl⟩⟩
    rintro _ ⟨-, rfl⟩
    exact hx

/-- A row is accepted item by item, and its fault is that of the first item with one. -/
theorem each {f : α → Except CompileError β} {P : α → Prop} {F : α → CompileFault → Prop}
    (h : ∀ a, Judges path (f a) (P a) (F a)) (l : List α) :
    Judges path (l.mapM f) (∀ a ∈ l, P a) fun fault => ∃ a, ReachedIn P l a ∧ F a fault := by
  refine ⟨fun all => ?_, ?_, ?_⟩
  · rw [Except.refusal?_mapM, List.findSome?_eq_none_iff]
    exact fun a hm => (h a).accepts (all a hm)
  · rintro fault ⟨a, ⟨before, after, rfl, all⟩, hf⟩
    rw [Except.refusal?_mapM, List.findSome?_eq_some_iff]
    exact ⟨before, a, after, rfl, (h a).refuses hf, fun b hm => (h b).accepts (all b hm)⟩
  · cases hx : (l.mapM f).refusal? with
    | none =>
      rw [Except.refusal?_mapM, List.findSome?_eq_none_iff] at hx
      exact .inl fun a hm => (h a).refusal?_eq_none.mp (hx a hm)
    | some e =>
      rw [Except.refusal?_mapM, List.findSome?_eq_some_iff] at hx
      obtain ⟨before, a, after, cut, ha, all⟩ := hx
      obtain ⟨fault, hf, -⟩ := (h a).refusal?_eq_some.mp ha
      have earlier : ∀ b ∈ before, P b := fun b hm => (h b).refusal?_eq_none.mp (all b hm)
      exact .inr ⟨fault, a, ⟨before, after, cut, earlier⟩, hf⟩

end Judges

end FilterQuery
