import FilterQuery.Value

/-!
# Rows

A row gives each of its columns one value. The cells are kept in the order of the column names,
without repetition, so two rows with the same cells are equal.
-/

namespace FilterQuery

structure Row where
  cells : List (String × Value)
  sorted : cells.Pairwise fun a b => a.1 < b.1
  deriving DecidableEq

namespace Row

def empty : Row := ⟨[], .nil⟩

/-- Puts a cell in its place, over the cell of the same column if there is one. -/
def putCell (column : String) (value : Value) : List (String × Value) → List (String × Value)
  | [] => [(column, value)]
  | (c, v) :: rest =>
    if column < c then (column, value) :: (c, v) :: rest
    else if column = c then (column, value) :: rest
    else (c, v) :: putCell column value rest

/-- What is in a row after a value is put there is that value or was there before. -/
theorem mem_putCell {column : String} {value : Value} {cells : List (String × Value)}
    {a : String × Value} (h : a ∈ putCell column value cells) :
    a = (column, value) ∨ a ∈ cells := by
  induction cells with
  | nil => simp_all [putCell]
  | cons cell rest ih =>
    simp only [putCell] at h
    split at h
    · simpa using h
    · split at h
      · simp only [List.mem_cons] at h ⊢
        exact h.imp_right .inr
      · simp only [List.mem_cons] at h ⊢
        rcases h with h | h
        · exact .inr (.inl h)
        · exact (ih h).imp_right .inr

/-- Cells stay in the order of their columns. -/
theorem sorted_putCell {column : String} {value : Value} {cells : List (String × Value)}
    (h : cells.Pairwise fun a b => a.1 < b.1) :
    (putCell column value cells).Pairwise fun a b => a.1 < b.1 := by
  induction cells with
  | nil => simp [putCell]
  | cons cell rest ih =>
    obtain ⟨first, later⟩ := List.pairwise_cons.mp h
    simp only [putCell]
    split
    · next before =>
      refine List.pairwise_cons.mpr ⟨fun a ha => ?_, h⟩
      rcases List.mem_cons.mp ha with rfl | ha
      · exact before
      · exact String.lt_trans before (first a ha)
    · split
      · next same =>
        exact List.pairwise_cons.mpr ⟨fun a ha => same ▸ first a ha, later⟩
      · next notBefore other =>
        refine List.pairwise_cons.mpr ⟨fun a ha => ?_, ih later⟩
        rcases mem_putCell ha with rfl | ha
        · exact Std.lt_of_le_of_ne (String.not_lt.mp notBefore) (Ne.symm other)
        · exact first a ha

def insert (row : Row) (column : String) (value : Value) : Row :=
  ⟨putCell column value row.cells, sorted_putCell row.sorted⟩

/-- The row of these cells; of a repeated column the last cell counts. -/
def ofCells (cells : List (String × Value)) : Row :=
  cells.foldl (fun row cell => row.insert cell.1 cell.2) empty

def get? (row : Row) (column : String) : Option Value :=
  (row.cells.find? fun cell => cell.1 == column).map Prod.snd

@[simp] theorem get?_empty (column : String) : empty.get? column = none := rfl

@[simp] theorem get?_insert_self (row : Row) (column : String) (value : Value) :
    (row.insert column value).get? column = some value := by
  obtain ⟨cells, sorted⟩ := row
  simp only [get?, insert]
  clear sorted
  induction cells with
  | nil => simp [putCell]
  | cons cell rest ih =>
    simp only [putCell]
    split
    · simp
    · split
      · simp
      · next other => simpa [List.find?_cons, beq_eq_false_iff_ne.mpr (Ne.symm other)] using ih

theorem get?_insert_of_ne (row : Row) {column other : String} (value : Value)
    (h : other ≠ column) : (row.insert column value).get? other = row.get? other := by
  obtain ⟨cells, sorted⟩ := row
  simp only [get?, insert]
  clear sorted
  induction cells with
  | nil => simp [putCell, Ne.symm h]
  | cons cell rest ih =>
    simp only [putCell]
    split
    · simp [List.find?_cons, beq_eq_false_iff_ne.mpr (Ne.symm h)]
    · split
      · next same =>
        simp [beq_eq_false_iff_ne.mpr (Ne.symm h), ← same]
      · simp only [List.find?_cons]
        split
        · rfl
        · exact ih

end Row

end FilterQuery
