import FilterQuery.Proofs.LastLimit
import FilterQuery.Proofs.Window

/-!
# The fault in a limit

A rule for a limit may be a row of one or two items, the limit and the offset, each of which has to
be a count. What is no scalar is found when the document is read, and what is a scalar and no count
when the query is made. Main statement: a query is made exactly if all items are counts. A scalar
that is none is blamed in its own slot, but any other item is blamed on the rule as a whole, and
always as a limit, even where it stands in the place of the offset.
-/

namespace FilterQuery

/-- An item that can be a limit or an offset. -/
def Document.IsCount (item : Document) : Prop := ∃ v n, item = .scalar v ∧ v.Counts n

/-- The item in a slot of a limit is no count, and there is none before it that is no count. -/
structure Slot.FailsIn (slot : Slot) (items : List Document) (item : Document) : Prop where
  placed : items[slot.index]? = some item
  noCount : ¬ item.IsCount
  first : slot = .offset → ∀ rows, items[Slot.limit.index]? = some rows → rows.IsCount

/-- A document with a single rule for limits, a row of one or two items, in which nothing else is
at fault. -/
structure Document.LimitedBy (known : Option (List String)) (document : Document) (entry : Entry)
    (items : List Document) : Prop where
  named : entry.key.rule? = some .limit
  ordered : entry.value.sequence? = some items
  short : items.length = 1 ∨ items.length = 2
  alone : ∃ before after, document.visits = before ++ entry :: after ∧
    ∀ other ∈ before ++ after, other.Sound known ∧ other.key.rule? ≠ some .limit

/-- Reads a document and makes a query of it. -/
def Document.compile (document : Document) (known : Option (List String)) (target : Target) :
    Except CompileError Prepared.Handed :=
  (Filter.ofDocument document known).bind fun f => (f.prepare.compile target).1

theorem Document.isCount_scalar {v : Value} : (scalar v).IsCount ↔ ∃ n, v.Counts n := by
  simp [IsCount]

/-- In a row of one or two items that are not all counts, one slot is at fault. -/
theorem Slot.exists_failsIn {items : List Document} (short : items.length ≤ 2) {bad : Document}
    (mem : bad ∈ items) (noCount : ¬ bad.IsCount) : ∃ slot item, Slot.FailsIn slot items item := by
  by_cases fine : ∀ rows, items[0]? = some rows → rows.IsCount
  · obtain ⟨i, placed⟩ := List.mem_iff_getElem?.mp mem
    have inside : i < 2 := Nat.lt_of_lt_of_le (List.getElem?_eq_some_iff.mp placed).1 short
    obtain rfl : i = 1 := by
      by_contra other
      obtain rfl : i = 0 := by omega
      exact noCount (fine bad placed)
    exact ⟨.offset, bad, placed, noCount, fun _ => fine⟩
  · obtain ⟨rows, placed, noCount⟩ : ∃ rows, items[0]? = some rows ∧ ¬ rows.IsCount := by
      simpa using fine
    exact ⟨.limit, rows, placed, noCount, nofun⟩

theorem Slot.failsIn_offset {rows skip : Document} (fine : rows.IsCount)
    (noCount : ¬ skip.IsCount) : Slot.FailsIn .offset [rows, skip] skip where
  placed := rfl
  noCount := noCount
  first _ _ placed := Option.some.inj placed ▸ fine

theorem Document.scalars_cases {items : List Document}
    (short : items.length = 1 ∨ items.length = 2)
    (scalars : ∀ item ∈ items, ∃ v, item = .scalar v) :
    (∃ rows, items = [.scalar rows]) ∨ ∃ rows skip, items = [.scalar rows, .scalar skip] := by
  rcases short with one | two
  · obtain ⟨rows, rfl⟩ := List.length_eq_one_iff.mp one
    obtain ⟨rows, rfl⟩ := scalars rows List.mem_cons_self
    exact .inl ⟨rows, rfl⟩
  · obtain ⟨rows, skip, rfl⟩ := List.length_eq_two.mp two
    obtain ⟨rows, rfl⟩ := scalars rows List.mem_cons_self
    obtain ⟨skip, rfl⟩ := scalars skip (by simp)
    exact .inr ⟨rows, skip, rfl⟩

theorem RuleName.accepts_limit_iff {value : Document} {items : List Document}
    (ordered : value.sequence? = some items) (short : items.length = 1 ∨ items.length = 2) :
    RuleName.Accepts .limit value ↔ ∀ item ∈ items, ∃ v, item = .scalar v := by
  constructor
  · intro accepted
    cases accepted with
    | rows rows => cases ordered
    | onlyRows only | rowsAndSkip only =>
      obtain rfl := Option.some.inj (only.symm.trans ordered)
      simp
  · intro scalars
    rcases Document.scalars_cases short scalars with ⟨rows, rfl⟩ | ⟨rows, skip, rfl⟩
    · exact .onlyRows ordered
    · exact .rowsAndSkip ordered

namespace Document.LimitedBy

variable {known : Option (List String)} {document : Document} {entry : Entry}
  {items : List Document}

theorem sound_iff (h : document.LimitedBy known entry items) :
    entry.Sound known ↔ ∀ item ∈ items, ∃ v, item = .scalar v := by
  rw [← RuleName.accepts_limit_iff h.ordered h.short]
  constructor
  · rintro (opened | plain)
    · cases (Key.rule?_of_opens opened).symm.trans h.named
    · exact plain.accepts h.named
  · exact fun accepted => .inr (.rule h.named accepted)

theorem exists_entries? (h : document.LimitedBy known entry items) :
    ∃ entries, document.entries? = some entries := by
  obtain ⟨before, after, cut, -⟩ := h.alone
  refine Option.ne_none_iff_exists'.mp fun none => ?_
  simp [visits, none] at cut

/-- Where all items are scalars, nothing is refused in reading. -/
theorem exists_filter (h : document.LimitedBy known entry items)
    (scalars : ∀ item ∈ items, ∃ v, item = .scalar v) :
    ∃ f, Filter.ofDocument document known = .ok f := by
  obtain ⟨entries, he⟩ := h.exists_entries?
  obtain ⟨before, after, cut, others⟩ := h.alone
  obtain ⟨earlier, later⟩ := List.forall_mem_append.mp others
  rw [Filter.exists_ofDocument_iff he, cut, List.forall_mem_append, List.forall_mem_cons]
  exact ⟨fun other hm => (earlier other hm).1, h.sound_iff.mpr scalars,
    fun other hm => (later other hm).1⟩

/-- An item that is no scalar is blamed on the whole rule. -/
theorem ofDocument_eq_error (h : document.LimitedBy known entry items)
    (noScalar : ¬ ∀ item ∈ items, ∃ v, item = .scalar v) :
    Filter.ofDocument document known =
      .error ⟨entry.path.text, .invalidLimit entry.value.describe⟩ := by
  obtain ⟨entries, he⟩ := h.exists_entries?
  obtain ⟨before, after, cut, others⟩ := h.alone
  have reached : ReachedIn (Entry.Sound known) document.visits entry :=
    ⟨before, after, cut, fun other hm => (others other (List.mem_append_left after hm)).1⟩
  have refused := mt (RuleName.accepts_limit_iff h.ordered h.short).mp noScalar
  rw [← Except.refusal?_eq_some, Filter.refusal?_ofDocument, Document.refusal?_read he,
    findSome?_refusal?]
  exact ⟨entry, _, reached, mt h.sound_iff.mp noScalar, .rule h.named (.limit refused), rfl⟩

theorem limits_eq (h : document.LimitedBy known entry items) :
    document.limits = entry.limits?.toList := by
  obtain ⟨before, after, cut, others⟩ := h.alone
  have silent : ∀ other ∈ before ++ after, other.limits? = none :=
    fun other hm => if_neg (others other hm).2
  obtain ⟨earlier, later⟩ := List.forall_mem_append.mp silent
  rw [limits, cut, List.filterMap_append, List.filterMap_cons,
    List.filterMap_eq_nil_iff.mpr earlier, List.filterMap_eq_nil_iff.mpr later]
  cases entry.limits? <;> rfl

/-- The slots hold the items of the rule. -/
theorem slots_of_read (h : document.LimitedBy known entry items) {f : Filter}
    (read : Filter.ofDocument document known = .ok f)
    (scalars : ∀ item ∈ items, ∃ v, item = .scalar v) (slot : Slot) :
    f.modifiers.value? slot = items[slot.index]?.bind scalar? ∧
      f.modifiers.path? slot =
        items[slot.index]?.map fun _ => Path.text (entry.path ++ [.index slot.index]) := by
  have rows := Filter.limit_of_read read
  have skip := Filter.offset_of_read read
  have ordered := h.ordered
  rw [h.limits_eq, Entry.limits?, if_pos h.named, scalar?_of_sequence? ordered, ordered]
    at rows skip
  rcases scalars_cases h.short scalars with ⟨first, rfl⟩ | ⟨first, second, rfl⟩
  · cases slot with
    | limit => exact rows
    | offset => exact skip
  · cases slot with
    | limit => exact rows
    | offset => exact skip

theorem blames_iff (h : document.LimitedBy known entry items) {f : Filter}
    (read : Filter.ofDocument document known = .ok f)
    (scalars : ∀ item ∈ items, ∃ v, item = .scalar v) {slot : Slot} {v : Value} :
    f.modifiers.Blames slot v ↔ slot.FailsIn items (.scalar v) := by
  have held (slot : Slot) (v : Value) :
      f.modifiers.value? slot = some v ↔ items[slot.index]? = some (.scalar v) := by
    rw [(h.slots_of_read read scalars slot).1]
    simp [Option.bind_eq_some_iff, scalar?_eq_some]
  have limit : f.modifiers.Fits .limit ↔
      ∀ rows, items[Slot.limit.index]? = some rows → rows.IsCount := by
    simp only [Modifiers.Fits, held]
    constructor
    · intro fits rows placed
      obtain ⟨v, rfl⟩ := scalars rows (List.mem_of_getElem? placed)
      exact isCount_scalar.mpr (fits v placed)
    · exact fun fine v placed => isCount_scalar.mp (fine _ placed)
  have noCount : (∀ n, ¬ v.Counts n) ↔ ¬ (scalar v).IsCount := by
    rw [isCount_scalar, not_exists]
  constructor
  · intro blames
    exact ⟨(held slot v).mp blames.held, noCount.mp blames.noCount,
      fun offset => limit.mp (blames.first offset)⟩
  · intro fails
    exact ⟨(held slot v).mpr fails.placed, noCount.mpr fails.noCount,
      fun offset => limit.mpr (fails.first offset)⟩

/-- A scalar that is no count is blamed in its slot. -/
theorem compile_eq_error_iff (h : document.LimitedBy known entry items)
    (scalars : ∀ item ∈ items, ∃ v, item = .scalar v) (target : Target) {e : CompileError} :
    document.compile known target = .error e ↔ ∃ slot v, Slot.FailsIn slot items (.scalar v) ∧
      e = ⟨Path.text (entry.path ++ [.index slot.index]), slot.fault v.display⟩ := by
  obtain ⟨f, read⟩ := h.exists_filter scalars
  have compiled : document.compile known target = (f.prepare.compile target).1 := by
    rw [Document.compile, read]
    rfl
  rw [compiled, Prepared.compile_eq_error]
  change f.modifiers.window = .error e ↔ _
  rw [Modifiers.window_eq_error]
  refine exists_congr fun slot => exists_congr fun v => ?_
  rw [← h.blames_iff read scalars]
  refine and_congr_right fun blames => ?_
  have placed := ((h.blames_iff read scalars).mp blames).placed
  rw [(h.slots_of_read read scalars slot).2, placed]
  rfl

theorem exists_compile_iff (h : document.LimitedBy known entry items) (target : Target) :
    (∃ handed, document.compile known target = .ok handed) ↔ ∀ item ∈ items, item.IsCount := by
  by_cases scalars : ∀ item ∈ items, ∃ v, item = .scalar v
  · constructor
    · rintro ⟨handed, made⟩
      by_contra bad
      obtain ⟨item, mem, noCount⟩ : ∃ item ∈ items, ¬ item.IsCount := by simpa using bad
      have short : items.length ≤ 2 := by have := h.short; omega
      obtain ⟨slot, item, fails⟩ := Slot.exists_failsIn short mem noCount
      obtain ⟨v, rfl⟩ := scalars item (List.mem_of_getElem? fails.placed)
      cases made.symm.trans ((h.compile_eq_error_iff scalars target).mpr ⟨slot, v, fails, rfl⟩)
    · intro counts
      cases made : document.compile known target with
      | ok handed => exact ⟨handed, rfl⟩
      | error e =>
        obtain ⟨slot, v, fails, -⟩ := (h.compile_eq_error_iff scalars target).mp made
        exact absurd (counts _ (List.mem_of_getElem? fails.placed)) fails.noCount
  · constructor
    · rintro ⟨handed, made⟩
      rw [Document.compile, h.ofDocument_eq_error scalars] at made
      cases made
    · intro counts
      refine absurd (fun item mem => ?_) scalars
      obtain ⟨v, n, scalar, -⟩ := counts item mem
      exact ⟨v, scalar⟩

end Document.LimitedBy

namespace Document

/-- Of a document with one limit, a row of one or two items, a query is made if all of these are
counts. If they are scalars, the first that is no count is blamed in its place, and by its name. If
they are not, the rule is blamed, and as a limit. -/
theorem compile_of_limitedBy {known : Option (List String)} {document : Document} {entry : Entry}
    {items : List Document} (h : document.LimitedBy known entry items) (target : Target) :
    ((∃ handed, document.compile known target = .ok handed) ↔ ∀ item ∈ items, item.IsCount) ∧
    ((∀ item ∈ items, ∃ v, item = .scalar v) → ∀ e, document.compile known target = .error e ↔
      ∃ slot v, Slot.FailsIn slot items (.scalar v) ∧
        e = ⟨Path.text (entry.path ++ [.index slot.index]), slot.fault v.display⟩) ∧
    ((¬ ∀ item ∈ items, ∃ v, item = .scalar v) → document.compile known target =
      .error ⟨entry.path.text, .invalidLimit entry.value.describe⟩) := by
  refine ⟨h.exists_compile_iff target, ?_, ?_⟩
  · exact fun scalars e => h.compile_eq_error_iff scalars target
  · intro noScalar
    rw [compile, h.ofDocument_eq_error noScalar]
    rfl

/-- A limit in a group within a group. -/
theorem limitedBy_inner (items : List Document) (short : items.length = 1 ∨ items.length = 2) :
    LimitedBy none (.map [(.name ":or", .list [.map [(.name ":limit", .list items)]])])
      ⟨[.name ":or", .index 0], .name ":limit", .list items⟩ items where
  named := by rfl
  ordered := rfl
  short := short
  alone := by
    have outer (inner : Document) : (Key.name ":or").opens (.list [inner]) := by
      have joined : (Key.name ":or").isConnective := by decide +kernel
      rw [Key.opens, joined]
      rfl
    have inner : (Key.index 0).opens (.map [(.name ":limit", .list items)]) := rfl
    have closed : (Key.name ":limit").opens (.list items) = false := by
      have joined : (Key.name ":limit").isConnective = false := by decide +kernel
      have number : (Key.name ":limit").isNumeric = false := by decide +kernel
      rw [Key.opens, joined, number]
      rfl
    refine ⟨[⟨[], .name ":or", .list [.map [(.name ":limit", .list items)]]⟩,
      ⟨[.name ":or"], .index 0, .map [(.name ":limit", .list items)]⟩], [], ?_, ?_⟩
    · simp [visits, entries?, visitsOfEntries, visitsFrom, visitsOfItems, outer, inner, closed]
    · rw [List.append_nil, List.forall_mem_cons, List.forall_mem_singleton]
      have group {entry : Entry} (opened : entry.key.opens entry.value) :
          entry.Sound none ∧ entry.key.rule? ≠ some .limit :=
        ⟨.inl opened, by simp [Key.rule?_of_opens opened]⟩
      exact ⟨group (outer _), group inner⟩

/-- A negative offset is blamed in its place. -/
theorem compile_of_limitedBy_sample :
    let items : List Document := [.scalar (.text "05"), .scalar (.int (-1))]
    let document : Document := .map [(.name ":or", .list [.map [(.name ":limit", .list items)]])]
    Slot.FailsIn .offset items (.scalar (.int (-1))) ∧
      document.compile none ⟨"users", "id"⟩ = .error ⟨"/:or/0/:limit/1", .invalidOffset "-1"⟩ := by
  intro items document
  have limited := limitedBy_inner items (.inr rfl)
  have five : (scalar (.text "05")).IsCount := isCount_scalar.mpr ⟨_, .digits rfl (by decide)⟩
  have negative : ¬ (scalar (.int (-1))).IsCount := by
    rw [isCount_scalar, not_exists, ← Value.count?_eq_none]
    rfl
  have fails := Slot.failsIn_offset five negative
  obtain ⟨-, blamed, -⟩ := compile_of_limitedBy limited ⟨"users", "id"⟩
  exact ⟨fails, (blamed (by simp [items]) _).mpr ⟨.offset, _, fails, rfl⟩⟩

/-- An offset that is a list is taken for a limit, and blamed on the whole rule. -/
theorem not_slot_blamed :
    ¬ ∀ (document : Document) (entry : Entry) (items : List Document) (slot : Slot)
      (item : Document) (target : Target), document.LimitedBy none entry items →
      slot.FailsIn items item → ∃ said, document.compile none target =
        .error ⟨Path.text (entry.path ++ [.index slot.index]), slot.fault said⟩ := by
  intro blamed
  let items : List Document := [.scalar (.int 10), .list [.scalar (.int 20)]]
  have limited := limitedBy_inner items (.inr rfl)
  have ten : (scalar (.int 10)).IsCount := isCount_scalar.mpr ⟨10, .int rfl⟩
  have listed : ¬ (list [.scalar (.int 20)]).IsCount := by
    rintro ⟨v, n, same, -⟩
    cases same
  have fails := Slot.failsIn_offset ten listed
  obtain ⟨said, offset⟩ := blamed _ _ items .offset _ ⟨"users", "id"⟩ limited fails
  have limit := limited.ofDocument_eq_error (by simp [items])
  rw [compile, limit] at offset
  cases offset

end Document

end FilterQuery
