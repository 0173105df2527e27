import FilterQuery.Session

/-!
# What work ensures

Work ends with an answer or with an error. It ensures a property if every answer that it gives, in
whatever session, has it. Main statement: a sequence ensures what its last part ensures, since an
error ends the sequence and the parts before can only decide which last part it is.
-/

/-- What the first part did before it failed stays done. -/
theorem ExceptT.bind_apply {ε σ α β : Type} (first : ExceptT ε (StateM σ) α)
    (later : α → ExceptT ε (StateM σ) β) (s : σ) :
    (first >>= later) s =
      match first s with
      | (.ok a, t) => later a t
      | (.error e, t) => (.error e, t) := by
  change (StateT.bind first (ExceptT.bindCont later)) s = _
  simp only [StateT.bind]
  rcases first s with ⟨_ | _, t⟩ <;> rfl

namespace FilterQuery.Work

variable {σ α β : Type} {P : β → Prop}

/-- The next part goes on in the session that the first one leaves. -/
theorem bind_of_ok {first : Work σ α} {s t : Session σ} {a : α} (h : first s = (.ok a, t))
    (later : α → Work σ β) : (first >>= later) s = later a t := by
  rw [ExceptT.bind_apply, h]

/-- No next part is begun after an error. -/
theorem bind_of_error {first : Work σ α} {s t : Session σ} {e : Error} (h : first s = (.error e, t))
    (later : α → Work σ β) : (first >>= later) s = (.error e, t) := by
  rw [ExceptT.bind_apply, h]

def Ensures (P : β → Prop) (work : Work σ β) : Prop :=
  ∀ s answer t, work s = (.ok answer, t) → P answer

theorem ensures_true (work : Work σ β) : Ensures (fun _ => True) work := fun _ _ _ _ => trivial

theorem Ensures.ofExcept {outcome : Except Error β} (h : ∀ b, outcome = .ok b → P b) :
    Ensures P (ofExcept outcome : Work σ β) := by
  rintro s answer t ⟨⟩
  exact h answer rfl

/-- What the first part ensures may be used for the next one. -/
theorem Ensures.bind {Q : α → Prop} {first : Work σ α} {later : α → Work σ β}
    (hf : Ensures Q first) (hl : ∀ a, Q a → Ensures P (later a)) : Ensures P (first >>= later) := by
  intro s answer t answered
  cases outcome : first s with
  | mk result s' =>
    cases result with
    | ok a =>
      rw [bind_of_ok outcome] at answered
      exact hl a (hf s a s' outcome) s' answer t answered
    | error e =>
      rw [bind_of_error outcome] at answered
      cases answered

/-- Nothing need be known of the part before. -/
theorem Ensures.after (first : Work σ α) {later : α → Work σ β} (h : ∀ a, Ensures P (later a)) :
    Ensures P (first >>= later) :=
  (ensures_true first).bind fun a _ => h a

theorem Ensures.map {Q : α → Prop} {work : Work σ α} {f : α → β} (hw : Ensures Q work)
    (hf : ∀ a, Q a → P (f a)) : Ensures P (f <$> work) := by
  have last : ∀ a, Q a → Ensures P (pure (f a) : Work σ β) := by
    rintro a ha s answer t ⟨⟩
    exact hf a ha
  exact hw.bind last

end FilterQuery.Work
