import FilterQuery.Proofs.Page

/-!
# Page numbers

A filter may be marked as paged with any limit and offset, not only with those of a page that was
asked for. The page number is then found from what these count. Main statement: it is the quotient
of the two, counted from one, and no step overflows or divides by zero, but for one pair of counts.
With one row to a page, after as many rows as a word can count, the number is more than a word
holds, and what is given is zero.
-/

namespace FilterQuery

theorem Value.Counts.lt_size {v : Value} {n : Nat} (h : v.Counts n) : n < UInt64.size := by
  cases h with
  | @int i _ same =>
    have := i.toInt_lt
    simp only [UInt64.size]
    omega
  | digits _ small => exact small

namespace Modifiers

/-- The slot holds a count. One that is empty counts as zero. -/
inductive Holds (m : Modifiers) (slot : Slot) : Nat → Prop
  | absent : m.value? slot = none → Holds m slot 0
  | count {v : Value} {n : Nat} : m.value? slot = some v → v.Counts n → Holds m slot n

variable {m : Modifiers} {slot : Slot}

theorem Holds.lt_size {n : Nat} (h : m.Holds slot n) : n < UInt64.size := by
  cases h with
  | absent => decide
  | count _ counts => exact counts.lt_size

theorem Holds.toNat_count {n : Nat} (h : m.Holds slot n) :
    (((m.value? slot).bind Value.count?).getD 0).toNat = n := by
  have small := h.lt_size
  cases h with
  | absent none =>
    rw [none]
    rfl
  | count held counts =>
    rw [held, Option.bind_some, Value.count?_of_counts counts, Option.getD_some,
      UInt64.toNat_ofNat_of_lt' small]

/-- A slot holds a number if and only if it fits. -/
theorem exists_holds : (∃ n, m.Holds slot n) ↔ m.Fits slot := by
  constructor
  · rintro ⟨n, holds⟩ v held
    cases holds with
    | absent none => simp [none] at held
    | count held' counts =>
      obtain rfl := Option.some.inj (held'.symm.trans held)
      exact ⟨n, counts⟩
  · intro fits
    cases held : m.value? slot with
    | none => exact ⟨0, .absent held⟩
    | some v =>
      obtain ⟨n, counts⟩ := fits v held
      exact ⟨n, .count held counts⟩

/-- The page number of a filter with these counts. -/
theorem pageNumber?_of_holds (paged : m.paged) {rows skipped : Nat} (limit : m.Holds .limit rows)
    (offset : m.Holds .offset skipped) :
    (∃ page, m.pageNumber? = some page ∧
      page.toNat = pageNumberOf rows skipped % UInt64.size) ∧
    m.pageNumberStepwise? =
      if pageNumberOf rows skipped < UInt64.size then some m.pageNumber? else none := by
  have rows_eq : (m.limitCount?.getD 0).toNat = rows := limit.toNat_count
  have skipped_eq : (m.offsetCount?.getD 0).toNat = skipped := offset.toNat_count
  have value := m.exists_pageNumber? paged
  have stepwise := m.pageNumberStepwise?_eq paged
  rw [rows_eq, skipped_eq] at value stepwise
  exact ⟨value, stepwise⟩

end Modifiers

namespace ResultSet

variable {α : Type} (r : ResultSet α)

/-- If the filter of a paged result can be made into a query, its limit and offset are counts, and
the page number is the quotient of the two and one more, found without a step that fails. Only
where that sum is too large for a word is it zero. -/
theorem pageNumber?_of_counts {target : Target} {handed : Prepared.Handed}
    (made : (r.prepared.compile target).1 = .ok handed) (paged : r.isPaged) :
    let m := r.prepared.filter.modifiers
    (∀ slot, ∃ n, m.Holds slot n) ∧
    ∀ rows skipped, m.Holds .limit rows → m.Holds .offset skipped →
      (¬ (rows = 1 ∧ skipped = UInt64.size - 1) →
        ∃ page, r.pageNumber? = some page ∧ m.pageNumberStepwise? = some (some page) ∧
          page.toNat = if rows = 0 then 1 else skipped / rows + 1) ∧
      (rows = 1 ∧ skipped = UInt64.size - 1 →
        r.pageNumber? = some 0 ∧ m.pageNumberStepwise? = none) := by
  intro m
  have fits := Prepared.exists_compile_eq_ok.mp ⟨handed, made⟩
  refine ⟨fun slot => Modifiers.exists_holds.mpr (fits slot), ?_⟩
  intro rows skipped limit offset
  obtain ⟨⟨page, said, value⟩, stepwise⟩ := Modifiers.pageNumber?_of_holds paged limit offset
  have in_range := Modifiers.pageNumberOf_lt_size_iff rows offset.lt_size
  constructor
  · intro below
    have small := in_range.mpr below
    rw [Nat.mod_eq_of_lt small] at value
    rw [if_pos small, said] at stepwise
    exact ⟨page, said, stepwise, value⟩
  · intro top
    rw [if_neg (fun small => in_range.mp small top)] at stepwise
    obtain ⟨rfl, rfl⟩ := top
    have zero : page = 0 := UInt64.toNat_inj.mp (value.trans (by decide))
    exact ⟨said.trans (congrArg some zero), stepwise⟩

/-- Limits and offsets may be numbers or digits, and the last page of one row each is found. -/
theorem pageNumber?_of_counts_sample :
    let last : Modifiers :=
      { limit := some (.text "01"), offset := some (.text "18446744073709551614"), paged := true }
    let f : Filter := { modifiers := last }
    let r : ResultSet Entity := ⟨{}, f.prepare, ⟨"users", "id"⟩, false⟩
    last.Holds .limit 1 ∧ last.Holds .offset (UInt64.size - 2) ∧
      r.pageNumber? = some (.ofNat (UInt64.size - 1)) := by
  intro last f r
  have one : last.Holds .limit 1 := .count rfl (.digits rfl (by decide))
  have rest : last.Holds .offset (UInt64.size - 2) := .count rfl (.digits rfl (by decide))
  obtain ⟨-, exact_number⟩ := @pageNumber?_of_counts _ r r.target _ rfl rfl
  obtain ⟨page, said, -, value⟩ := (exact_number 1 (UInt64.size - 2) one rest).1 (by decide)
  have last_page : page = .ofNat (UInt64.size - 1) := UInt64.toNat_inj.mp (value.trans (by decide))
  exact ⟨one, rest, said.trans (congrArg some last_page)⟩

/-- With one row more to skip, the number is zero. -/
theorem not_pageNumber?_of_counts :
    ¬ ∀ (r : ResultSet Entity) (target : Target) (handed : Prepared.Handed) (rows skipped : Nat),
      (r.prepared.compile target).1 = .ok handed → r.isPaged →
      r.prepared.filter.modifiers.Holds .limit rows →
      r.prepared.filter.modifiers.Holds .offset skipped →
      ∃ page, r.pageNumber? = some page ∧
        page.toNat = if rows = 0 then 1 else skipped / rows + 1 := by
  intro exact_number
  let top : Modifiers :=
    { limit := some (.int 1), offset := some (.text "18446744073709551615"), paged := true }
  let f : Filter := { modifiers := top }
  have one : top.Holds .limit 1 := .count rfl (.int rfl)
  have all : top.Holds .offset (UInt64.size - 1) := .count rfl (.digits rfl (by decide))
  let r : ResultSet Entity := ⟨{}, f.prepare, ⟨"users", "id"⟩, false⟩
  obtain ⟨page, said, value⟩ := exact_number r r.target _ 1 (UInt64.size - 1) rfl rfl one all
  obtain ⟨⟨zero, given, remainder⟩, -⟩ := Modifiers.pageNumber?_of_holds rfl one all
  obtain rfl := Option.some.inj (given.symm.trans said)
  exact absurd (value.symm.trans remainder) (by decide)

end ResultSet

end FilterQuery
