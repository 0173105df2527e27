import FilterQuery.Collection
import FilterQuery.Proofs.Refusal
import Mathlib.Data.List.Induction

/-!
# Columns

A field of all records is a column, and several fields of each record are its row. Main statement:
the rows of some fields can be read exactly if the column of each of them can. Then the rows have
these columns and no others; and otherwise the first record that lacks any of the fields is to blame
for the first one that it lacks.

Columns are read record after record and rows field after field, so the two meet the same gaps in
different orders. A field that is asked for twice is read twice, but a record answers both times
alike, so that one cell is enough for it.
-/

namespace Except

variable {ε α β : Type}

/-- A list is gone through to its end exactly where no item is refused. -/
theorem exists_mapM_iff {f : α → Except ε β} {l : List α} :
    (∃ l', l.mapM f = .ok l') ↔ ∀ a ∈ l, ∃ b, f a = .ok b := by
  simp only [← refusal?_eq_none, refusal?_mapM, List.findSome?_eq_none_iff]

end Except

namespace FilterQuery

namespace Row

def columns (row : Row) : List String := row.cells.map Prod.fst

theorem mem_columns {row : Row} {column : String} :
    column ∈ row.columns ↔ (row.get? column).isSome := by
  simp [columns, get?]

/-- Cells that are all taken from one reading of the columns give a row of that reading, even if a
column is repeated. -/
theorem get?_ofCells {read : String → Option Value} {cells : List (String × Value)}
    (h : ∀ cell ∈ cells, read cell.1 = some cell.2) (column : String) :
    (ofCells cells).get? column = if column ∈ cells.map Prod.fst then read column else none := by
  induction cells using List.reverseRecOn with
  | nil => rfl
  | append_singleton cells last ih =>
    have earlier := ih fun cell hc => h cell (by simp [hc])
    have here : read last.1 = some last.2 := h last (by simp)
    have put : ofCells (cells ++ [last]) = (ofCells cells).insert last.1 last.2 := by
      simp only [ofCells, List.foldl_append, List.foldl_cons, List.foldl_nil]
    by_cases same : column = last.1
    · rw [same, put, get?_insert_self]
      simp [here]
    · rw [put, get?_insert_of_ne _ _ same, earlier]
      exact if_congr (by simp [same]) rfl rfl

end Row

variable {α : Type} [Record α] {a : α} {field : String} {fields : List String} {e : Error}

namespace Record

theorem readField_eq_ok {value : Value} :
    readField a field = .ok value ↔ field? a field = some value := by
  rw [readField]
  cases field? a field <;> simp

theorem readField_eq_error :
    readField a field = .error e ↔
      field? a field = none ∧ e = .unknownField (recordType a) field := by
  rw [readField]
  cases field? a field <;> simp [eq_comm]

end Record

namespace Collection

variable {c : Collection α} {row : Row} {rows : List Row} {values : List Value}

/-! ### One column -/

/-- The values of a field are read where every record has it, and are those of the records in order.
-/
theorem getFromEach_eq_ok :
    c.getFromEach field = .ok values ↔
      c.elements.map (Record.field? · field) = values.map some := by
  simp only [getFromEach, Except.mapM_eq_ok, Record.readField_eq_ok]
  rw [← List.forall₂_eq_eq_eq, List.forall₂_map_left_iff, List.forall₂_map_right_iff]

theorem exists_getFromEach_iff :
    (∃ values, c.getFromEach field = .ok values) ↔
      ∀ a ∈ c.elements, (Record.field? a field).isSome := by
  simp only [getFromEach, Except.exists_mapM_iff, Record.readField_eq_ok,
    Option.isSome_iff_exists]

/-! ### One row -/

/-- The record has every one of the fields. -/
def HasAll (fields : List String) (a : α) : Prop :=
  ∀ field ∈ fields, (Record.field? a field).isSome

/-- A field beside its value, if the record has it. -/
def cell (a : α) (field : String) : Except Error (String × Value) :=
  (Record.readField a field).map (field, ·)

theorem cell_eq_ok {found : String × Value} :
    cell a field = .ok found ↔ found.1 = field ∧ Record.field? a found.1 = some found.2 := by
  rw [cell, Except.map_eq_ok]
  simp only [Record.readField_eq_ok]
  constructor
  · rintro ⟨value, held, rfl⟩
    exact ⟨rfl, held⟩
  · rintro ⟨rfl, held⟩
    exact ⟨found.2, held, rfl⟩

theorem exists_cell_iff : (∃ found, cell a field = .ok found) ↔ (Record.field? a field).isSome := by
  rw [cell, ← Except.refusal?_eq_none, Except.refusal?_map, Except.refusal?_eq_none]
  simp only [Record.readField_eq_ok, Option.isSome_iff_exists]

theorem cell_eq_error :
    cell a field = .error e ↔
      Record.field? a field = none ∧ e = .unknownField (recordType a) field := by
  rw [cell, ← Except.refusal?_eq_some, Except.refusal?_map, Except.refusal?_eq_some,
    Record.readField_eq_error]

/-- A row is made of one cell for each name. -/
theorem fieldRow_eq (fields : List String) (a : α) :
    fieldRow fields a = (fields.mapM (cell a)).map Row.ofCells := by
  change (fields.mapM (cell a) >>= fun cells => pure (Row.ofCells cells)) = _
  cases fields.mapM (cell a) <;> rfl

theorem cells_of_read {cells : List (String × Value)}
    (read : List.Forall₂ (fun field found => cell a field = .ok found) fields cells) :
    cells.map Prod.fst = fields ∧ ∀ found ∈ cells, Record.field? a found.1 = some found.2 := by
  induction read with
  | nil => simp
  | cons here _ ih =>
    obtain ⟨name, held⟩ := cell_eq_ok.mp here
    exact ⟨by rw [List.map_cons, name, ih.1], List.forall_mem_cons.mpr ⟨held, ih.2⟩⟩

/-- A row has what the record has in the fields that were asked for, and nothing else. -/
theorem get?_of_fieldRow (h : fieldRow fields a = .ok row) (column : String) :
    row.get? column = if column ∈ fields then Record.field? a column else none := by
  rw [fieldRow_eq, Except.map_eq_ok] at h
  obtain ⟨cells, read, rfl⟩ := h
  obtain ⟨names, held⟩ := cells_of_read (Except.mapM_eq_ok.mp read)
  rw [Row.get?_ofCells held, names]

/-- A record gives a row exactly where it has all the fields. -/
theorem exists_fieldRow_iff : (∃ row, fieldRow fields a = .ok row) ↔ HasAll fields a := by
  rw [fieldRow_eq, ← Except.refusal?_eq_none, Except.refusal?_map, Except.refusal?_eq_none,
    Except.exists_mapM_iff]
  simp only [exists_cell_iff, HasAll]

/-- The columns of a row are the names that were asked for. -/
theorem mem_columns_of_fieldRow (h : fieldRow fields a = .ok row) (column : String) :
    column ∈ row.columns ↔ column ∈ fields := by
  have all : HasAll fields a := exists_fieldRow_iff.mp ⟨row, h⟩
  rw [Row.mem_columns, get?_of_fieldRow h]
  by_cases asked : column ∈ fields
  · simp [asked, all column asked]
  · simp [asked]

/-- A row is refused for the first of the fields that the record does not have. -/
theorem fieldRow_eq_error :
    fieldRow fields a = .error e ↔
      ∃ field, ReachedIn (fun f => (Record.field? a f).isSome) fields field ∧
        Record.field? a field = none ∧ e = .unknownField (recordType a) field := by
  rw [fieldRow_eq, ← Except.refusal?_eq_some, Except.refusal?_map, Except.refusal?_eq_some,
    Except.mapM_eq_error]
  simp only [exists_cell_iff, cell_eq_error]

/-! ### All rows -/

/-- The rows are read exactly where every record has all the fields. -/
theorem exists_getManyFromEach_iff :
    (∃ rows, c.getManyFromEach fields = .ok rows) ↔ ∀ a ∈ c.elements, HasAll fields a := by
  simp only [getManyFromEach, Except.exists_mapM_iff, exists_fieldRow_iff]

/-- The rows are refused for the first record with a gap, and for its first gap. -/
theorem getManyFromEach_eq_error :
    c.getManyFromEach fields = .error e ↔
      ∃ a field, ReachedIn (HasAll fields) c.elements a ∧
        ReachedIn (fun f => (Record.field? a f).isSome) fields field ∧
        Record.field? a field = none ∧ e = .unknownField (recordType a) field := by
  rw [getManyFromEach, Except.mapM_eq_error]
  simp only [exists_fieldRow_iff, fieldRow_eq_error, exists_and_left]

section

variable {elements : List α}
  (read : List.Forall₂ (fun a row => fieldRow fields a = .ok row) elements rows)

include read

theorem mem_columns_of_rows : ∀ row ∈ rows, ∀ column, column ∈ row.columns ↔ column ∈ fields := by
  induction read with
  | nil => simp
  | cons here _ ih => exact List.forall_mem_cons.mpr ⟨mem_columns_of_fieldRow here, ih⟩

theorem map_get?_rows (asked : field ∈ fields) :
    rows.map (Row.get? · field) = elements.map (Record.field? · field) := by
  induction read with
  | nil => rfl
  | cons here _ ih => rw [List.map_cons, List.map_cons, ih, get?_of_fieldRow here, if_pos asked]

end

/-- The rows of some fields are their columns side by side, or the first record with a gap is to
blame for the first of its gaps. -/
theorem rows_are_columns (c : Collection α) (fields : List String) :
    ((∃ rows, c.getManyFromEach fields = .ok rows) ↔
      ∀ field ∈ fields, ∃ values, c.getFromEach field = .ok values) ∧
    (∀ rows, c.getManyFromEach fields = .ok rows →
      rows.length = c.elements.length ∧
      (∀ row ∈ rows, ∀ column, column ∈ row.columns ↔ column ∈ fields) ∧
      ∀ field ∈ fields, ∃ values, c.getFromEach field = .ok values ∧
        c.elements.map (Record.field? · field) = values.map some ∧
        rows.map (Row.get? · field) = values.map some) ∧
    (∀ e, c.getManyFromEach fields = .error e ↔
      ∃ a field, ReachedIn (HasAll fields) c.elements a ∧
        ReachedIn (fun f => (Record.field? a f).isSome) fields field ∧
        Record.field? a field = none ∧ e = .unknownField (recordType a) field) := by
  -- rows ask for all fields of each record, columns for each field of all records
  have agree : (∃ rows, c.getManyFromEach fields = .ok rows) ↔
      ∀ field ∈ fields, ∃ values, c.getFromEach field = .ok values := by
    simp only [exists_getManyFromEach_iff, exists_getFromEach_iff, HasAll]
    exact ⟨fun all field hf a ha => all a ha field hf, fun all a ha field hf => all field hf a ha⟩
  refine ⟨agree, ?_, fun e => getManyFromEach_eq_error⟩
  intro rows found
  have read := Except.mapM_eq_ok.mp found
  refine ⟨read.length_eq.symm, mem_columns_of_rows read, fun field asked => ?_⟩
  obtain ⟨values, column⟩ := agree.mp ⟨rows, found⟩ field asked
  have held := getFromEach_eq_ok.mp column
  exact ⟨values, column, held, (map_get?_rows read asked).trans held⟩

/-- A field that is asked for twice makes one cell. Where the first record lacks the second field
and the second record the first, the rows blame the first record and the columns the second. -/
theorem rows_are_columns_sample :
    let c : Collection Entity :=
      { elements := [⟨"r", [("id", .int 1), ("k", .null)], []⟩,
          ⟨"r", [("k", .text "a"), ("id", .int 2), ("k", .bool true)], []⟩] }
    let gaps : Collection Entity :=
      { elements := [⟨"r", [("a", .int 1)], []⟩, ⟨"r", [("b", .int 2)], []⟩] }
    ∃ rows, c.getManyFromEach ["k", "id", "k"] = .ok rows ∧
      rows.map Row.cells = [[("id", .int 1), ("k", .null)], [("id", .int 2), ("k", .text "a")]] ∧
      (∀ row ∈ rows, ∀ column, column ∈ row.columns ↔ column ∈ ["k", "id", "k"]) ∧
      (∃ values, c.getFromEach "k" = .ok values ∧
        rows.map (Row.get? · "k") = values.map some) ∧
      gaps.getManyFromEach ["a", "b"] = .error (.unknownField "r" "b") ∧
      gaps.getFromEach "a" = .error (.unknownField "r" "a") := by
  intro c gaps
  obtain ⟨agree, read, -⟩ := rows_are_columns c ["k", "id", "k"]
  have each : ∀ field ∈ ["k", "id", "k"], ∃ values, c.getFromEach field = .ok values := by
    intro field asked
    simp only [List.mem_cons, List.not_mem_nil, or_false] at asked
    rcases asked with rfl | rfl | rfl <;> exact ⟨_, rfl⟩
  obtain ⟨rows, found⟩ := agree.mpr each
  obtain ⟨-, names, columns⟩ := read rows found
  obtain ⟨values, column, -, same⟩ := columns "k" (by decide)
  have blamed : ∃ a field, ReachedIn (HasAll ["a", "b"]) gaps.elements a ∧
      ReachedIn (fun f => (Record.field? a f).isSome) ["a", "b"] field ∧
      Record.field? a field = none ∧
      Error.unknownField "r" "b" = .unknownField (recordType a) field :=
    ⟨⟨"r", [("a", .int 1)], []⟩, "b", ⟨[], _, rfl, by simp⟩, ⟨["a"], [], rfl, by decide⟩, rfl, rfl⟩
  have cells : (c.getManyFromEach ["k", "id", "k"]).map (List.map Row.cells) =
      .ok [[("id", .int 1), ("k", .null)], [("id", .int 2), ("k", .text "a")]] := rfl
  rw [found] at cells
  exact ⟨rows, found, Except.ok.inj cells, names, ⟨values, column, same⟩,
    ((rows_are_columns gaps ["a", "b"]).2.2 _).mpr blamed, rfl⟩

end Collection

end FilterQuery
