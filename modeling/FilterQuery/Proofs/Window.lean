import FilterQuery.Prepared
import FilterQuery.Proofs.Slot

/-!
# Limits and offsets

All values of a filter go to the store beside the text of the query, but limit and offset are
written into the text. Main statement: nothing is written there but a number in plain digits. What
is no count keeps the query from being made, whatever else the filter says and whatever it is made
for, and in a filter that comes from a document it is found at the place where it stands there.
-/

namespace FilterQuery

/-- The digits of a number, none to spare. -/
structure Decimal.Canonical (text : String) (n : Nat) : Prop where
  isRun : Decimal.isRun text.toList
  value : Decimal.value text.toList = n
  noLeadingZero : text.toList.head? = some '0' → text = "0"

namespace Decimal

theorem head?_toDigits {n : Nat} (positive : 0 < n) : (Nat.toDigits 10 n).head? ≠ some '0' := by
  induction n using Nat.strongRecOn with
  | ind n ih =>
    by_cases small : n < 10
    · rw [Nat.toDigits_of_lt_base small]
      simp [Nat.ne_of_gt positive]
    · have higher := ih (n / 10) (by omega) (by omega)
      obtain ⟨c, cs, digits⟩ := List.exists_cons_of_ne_nil (Nat.toDigits_ne_nil (n := n / 10))
      rw [digits] at higher
      rwa [Nat.toDigits_of_base_le (by decide) (Nat.le_of_not_lt small), digits]

theorem canonical_text (n : Nat) : Canonical (text n) n where
  isRun := by rw [toList_text, isRun_toDigits]
  value := by rw [toList_text, value_toDigits]
  noLeadingZero := by
    rw [toList_text]
    intro leading
    rcases Nat.eq_zero_or_pos n with rfl | positive
    · rfl
    · exact absurd leading (head?_toDigits positive)

end Decimal

/-- The values that stand for a count. -/
inductive Value.Counts : Value → Nat → Prop
  | int {i : Int64} {n : Nat} : i.toInt = n → Counts (.int i) n
  | digits {s : String} : Decimal.isRun s.toList → Decimal.value s.toList < UInt64.size →
    Counts (.text s) (Decimal.value s.toList)

namespace Value

variable {v : Value}

theorem counts_of_count? {n : UInt64} (h : v.count? = some n) : v.Counts n.toNat := by
  cases v with
  | int i =>
    obtain ⟨positive, rfl⟩ := Option.ite_some_none_eq_some.mp h
    have small : i.toInt.toNat < UInt64.size := by
      have := i.toInt_lt
      simp only [UInt64.size]
      omega
    refine .int ?_
    rw [UInt64.toNat_ofNat_of_lt' small, Int.toNat_of_nonneg positive]
  | text s =>
    obtain ⟨fits, rfl⟩ := Option.ite_some_none_eq_some.mp h
    obtain ⟨run, small⟩ : Decimal.isRun s.toList ∧ Decimal.value s.toList < UInt64.size := by
      simpa using fits
    rw [UInt64.toNat_ofNat_of_lt' small]
    exact .digits run small
  | _ => cases h

theorem count?_of_counts {n : Nat} (h : v.Counts n) : v.count? = some (.ofNat n) := by
  cases h with
  | int same => rw [count?, same, if_pos (Int.natCast_nonneg n), Int.toNat_natCast]
  | digits run small =>
    refine if_pos ?_
    rw [run, Bool.true_and]
    exact decide_eq_true small

theorem count?_eq_none : v.count? = none ↔ ∀ n, ¬ v.Counts n := by
  constructor
  · intro none n counts
    simp [count?_of_counts counts] at none
  · intro noCount
    refine Option.eq_none_iff_forall_ne_some.mpr fun n counted => ?_
    exact noCount n.toNat (counts_of_count? counted)

theorem exists_counts : (∃ n, v.Counts n) ↔ ∃ n, v.count? = some n := by
  constructor
  · rintro ⟨n, counts⟩
    exact ⟨_, count?_of_counts counts⟩
  · rintro ⟨n, counted⟩
    exact ⟨_, counts_of_count? counted⟩

end Value

/-- What the text of a query says of a limit or an offset: nothing, or a number after a word. -/
inductive SaysCount (word : String) : Option Value → String → Prop
  | absent : SaysCount word none ""
  | count {v : Value} {n : Nat} {digits : String} : v.Counts n → Decimal.Canonical digits n →
    SaysCount word (some v) (word ++ digits)

namespace Slot

def fault : Slot → String → CompileFault
  | .limit => .invalidLimit
  | .offset => .invalidOffset

/-- Where a slot is blamed whose value does not come from a document. -/
def usualPath : Slot → String
  | .limit => "/:limit"
  | .offset => "/:limit/offset"

end Slot

namespace Modifiers

variable (m : Modifiers)

/-- The slot is empty or holds a count. -/
def Fits (slot : Slot) : Prop := ∀ v, m.value? slot = some v → ∃ n, v.Counts n

/-- The value for which a query is refused. A bad limit is blamed before a bad offset. -/
structure Blames (slot : Slot) (v : Value) : Prop where
  held : m.value? slot = some v
  noCount : ∀ n, ¬ v.Counts n
  first : slot = .offset → m.Fits .limit

def countIn (slot : Slot) : Except CompileError (Option UInt64) :=
  countOf (m.value? slot) ((m.path? slot).getD slot.usualPath) slot.fault

/-- The limit is looked at before the offset. -/
theorem window_eq : m.window = (do
    let limit ← m.countIn .limit
    let offset ← m.countIn .offset
    return (limit, offset)) := rfl

variable {m} {slot : Slot}

/-- A count that is accepted is said in the tail, and one that is absent is not. -/
theorem says_of_countIn {count : Option UInt64} (h : m.countIn slot = .ok count) (word : String) :
    SaysCount word (m.value? slot) (Filter.countSql word count) := by
  unfold countIn countOf at h
  split at h
  · next absent =>
    obtain rfl := Except.ok.inj h
    rw [absent]
    exact .absent
  · next v held =>
    split at h
    · next n counted =>
      obtain rfl := Except.ok.inj h
      rw [held]
      exact .count (Value.counts_of_count? counted) (Decimal.canonical_text n.toNat)
    · cases h

theorem fits_iff : m.Fits slot ↔ ∃ count, m.countIn slot = .ok count := by
  unfold Fits countIn countOf
  cases m.value? slot with
  | none => simp
  | some v =>
    simp only [Option.some.injEq, forall_eq', Value.exists_counts]
    cases v.count? <;> simp

/-- A slot is refused for its own value, at the path where the value stood. -/
theorem countIn_eq_error {e : CompileError} :
    m.countIn slot = .error e ↔ ∃ v, m.value? slot = some v ∧ (∀ n, ¬ v.Counts n) ∧
      e = ⟨(m.path? slot).getD slot.usualPath, slot.fault v.display⟩ := by
  unfold countIn countOf
  cases m.value? slot with
  | none => simp
  | some v =>
    simp only [Option.some.injEq, exists_eq_left', ← Value.count?_eq_none]
    cases v.count? <;> simp [eq_comm]

/-- Nothing but the two slots and their paths is looked at. -/
theorem window_eq_of_same {m' : Modifiers}
    (same : ∀ slot, m'.value? slot = m.value? slot ∧ m'.path? slot = m.path? slot) :
    m'.window = m.window := by
  simp only [window_eq, countIn, same]

theorem refusal?_window :
    m.window.refusal? = (m.countIn .limit).refusal?.or (m.countIn .offset).refusal? :=
  Except.refusal?_both _ _ Prod.mk

theorem exists_window : (∃ window, m.window = .ok window) ↔ ∀ slot, m.Fits slot := by
  rw [← Except.refusal?_eq_none, refusal?_window, Option.or_eq_none_iff, Except.refusal?_eq_none,
    Except.refusal?_eq_none, ← fits_iff, ← fits_iff]
  constructor
  · rintro ⟨limit, offset⟩ slot
    cases slot with
    | limit => exact limit
    | offset => exact offset
  · exact fun fits => ⟨fits .limit, fits .offset⟩

/-- An offset is blamed only if the limit fits. -/
theorem exists_blames {e : CompileError} :
    (∃ v, m.Blames slot v ∧ e = ⟨(m.path? slot).getD slot.usualPath, slot.fault v.display⟩) ↔
      m.countIn slot = .error e ∧ (slot = .offset → m.Fits .limit) := by
  rw [countIn_eq_error]
  constructor
  · rintro ⟨v, blames, blamed⟩
    exact ⟨⟨v, blames.held, blames.noCount, blamed⟩, blames.first⟩
  · rintro ⟨⟨v, held, noCount, blamed⟩, first⟩
    exact ⟨v, ⟨held, noCount, first⟩, blamed⟩

/-- A window is refused for the slot that is to blame. -/
theorem window_eq_error {e : CompileError} :
    m.window = .error e ↔ ∃ slot v, m.Blames slot v ∧
      e = ⟨(m.path? slot).getD slot.usualPath, slot.fault v.display⟩ := by
  simp only [exists_blames]
  rw [← Except.refusal?_eq_some, refusal?_window, Option.or_eq_some_iff, Except.refusal?_eq_none,
    Except.refusal?_eq_some, Except.refusal?_eq_some, ← fits_iff]
  constructor
  · rintro (limit | ⟨fits, offset⟩)
    · exact ⟨.limit, limit, nofun⟩
    · exact ⟨.offset, offset, fun _ => fits⟩
  · rintro ⟨slot, blamed, first⟩
    cases slot with
    | limit => exact .inl blamed
    | offset => exact .inr ⟨first rfl, blamed⟩

end Modifiers

namespace Filter

/-- The query text ends in limit and offset, after the groups and the order. -/
theorem sql_of_query {f : Filter} {target : Target} {q : Query} (made : f.query target = .ok q)
    (limited : f.modifiers.projection ≠ .countOnly) :
    ∃ limitSql offsetSql, SaysCount " LIMIT " f.modifiers.limit limitSql ∧
      SaysCount " OFFSET " f.modifiers.offset offsetSql ∧
      q.sql = "SELECT " ++ f.selection target.idColumn ++ " FROM " ++ target.table ++
        Piece.textOf f.conditionPieces ++ f.groupSql ++ f.orderSql ++ limitSql ++ offsetSql := by
  obtain ⟨limit, offset, window, rfl⟩ := query_eq_ok.mp made
  rw [Modifiers.window_eq] at window
  obtain ⟨limit', counted, window⟩ := Except.bind_eq_ok.mp window
  obtain ⟨offset', counted', window⟩ := Except.bind_eq_ok.mp window
  obtain ⟨rfl, rfl⟩ := Prod.mk.inj (Except.ok.inj window)
  refine ⟨_, _, Modifiers.says_of_countIn counted " LIMIT ",
    Modifiers.says_of_countIn counted' " OFFSET ", ?_⟩
  simp [tailSql, limited, String.append_assoc]

/-- Leading zeros of the value do not come into the text. -/
example :
    let f : Filter := { modifiers := { limit := some (.text "007"), offset := some (.int 40) } }
    (f.query ⟨"users", "id"⟩).map Query.sql = .ok "SELECT * FROM users LIMIT 7 OFFSET 40" := by
  rfl

/-- A filter has a query if both of its slots fit, whatever the target. -/
theorem exists_query (f : Filter) (target : Target) :
    (∃ q, f.query target = .ok q) ↔ ∀ slot, f.modifiers.Fits slot := by
  rw [← Modifiers.exists_window]
  constructor
  · rintro ⟨q, made⟩
    obtain ⟨limit, offset, window, -⟩ := query_eq_ok.mp made
    exact ⟨_, window⟩
  · rintro ⟨window, made⟩
    exact ⟨_, query_eq_ok.mpr ⟨window.1, window.2, made, rfl⟩⟩

/-- In a filter from a document the value of a slot stands where its path says. -/
theorem exists_givenLast_of_read {document : Document} {known : Option (List String)} {f : Filter}
    (read : Filter.ofDocument document known = .ok f) {slot : Slot} {v : Value}
    (held : f.modifiers.value? slot = some v) :
    ∃ path, GivenLast document.visits slot path v ∧ document.Leads path (.scalar v) ∧
      f.modifiers.path? slot = some path.text := by
  obtain ⟨reading, made, -⟩ := Except.map_eq_ok.mp read
  rw [modifiers_of_read read] at held ⊢
  obtain ⟨path, given, text⟩ := exists_givenLast
    (fun entry visited _ named => Document.isSome_rule?_of_read made visited named) held
  obtain ⟨entry, visited, gives⟩ := given.exists_giver
  exact ⟨path, given, Document.leads_of_gives (Document.leads_of_mem_visits visited) gives, text⟩

end Filter

namespace Prepared

variable {p : Prepared} {target : Target}

/-- What a filter keeps changes nothing of the error. -/
theorem compile_eq_error {e : CompileError} :
    (p.compile target).1 = .error e ↔ p.filter.modifiers.window = .error e := by
  have failed : p.filter.query target = .error e ↔ _ := Filter.query_eq_error
  rw [← failed, ← p.query_compile target]
  cases (p.compile target).1 <;> simp [Except.map]

theorem exists_compile_eq_ok :
    (∃ handed, (p.compile target).1 = .ok handed) ↔ ∀ slot, p.filter.modifiers.Fits slot := by
  rw [← p.filter.exists_query target, ← p.query_compile target]
  cases (p.compile target).1 <;> simp [Except.map]

/-- Whether a compilation succeeds, and else with which error, is settled by the window. -/
theorem map_compile (p : Prepared) (target : Target) :
    (p.compile target).1.map (fun _ => ()) = p.filter.modifiers.window.map fun _ => () := by
  have query : (p.filter.query target).map (fun _ => ()) =
      p.filter.modifiers.window.map fun _ => () := by
    unfold Filter.query
    cases p.filter.modifiers.window <;> rfl
  rw [← query, ← p.query_compile target]
  cases (p.compile target).1 <;> rfl

/-- A compilation that fails leaves the filter as it was, with no query kept. -/
theorem compile_of_error {e : CompileError} (failed : (p.compile target).1 = .error e) :
    p.isCompiled = false ∧ (p.compile target).2 = p := by
  have window := compile_eq_error.mp failed
  have none : p.kept = none := by
    refine Option.eq_none_iff_forall_ne_some.mpr fun q kept => ?_
    obtain ⟨limit, offset, fine, -⟩ := Filter.query_eq_ok.mp (p.made q kept)
    rw [window] at fine
    cases fine
  refine ⟨by rw [isCompiled, none]; rfl, ?_⟩
  unfold compile
  split
  · next kept => rw [none] at kept; cases kept
  · split
    · next made => rw [Filter.query_eq_error.mpr window] at made; cases made
    · rfl

/-- Limit and offset of a query are numbers in plain digits, and anything else in their places is
refused. The refusal depends on nothing else in the filter nor on the target, and in a filter from
a document it is of the scalar at the path that it names. -/
theorem compile_counts (p : Prepared) (target : Target) :
    let m := p.filter.modifiers
    ((∃ handed, (p.compile target).1 = .ok handed) ↔ ∀ slot, m.Fits slot) ∧
    (∀ e, (p.compile target).1 = .error e ↔ ∃ slot v, m.Blames slot v ∧
      e = ⟨(m.path? slot).getD slot.usualPath, slot.fault v.display⟩) ∧
    (∀ (other : Prepared) (target' : Target),
      (∀ slot, other.filter.modifiers.value? slot = m.value? slot ∧
        other.filter.modifiers.path? slot = m.path? slot) →
      (other.compile target').1.map (fun _ => ()) = (p.compile target).1.map fun _ => ()) ∧
    (∀ handed, (p.compile target).1 = .ok handed → m.projection ≠ .countOnly →
      ∃ limitSql offsetSql, SaysCount " LIMIT " m.limit limitSql ∧
        SaysCount " OFFSET " m.offset offsetSql ∧
        handed.query.sql = "SELECT " ++ p.filter.selection target.idColumn ++ " FROM " ++
          target.table ++ Piece.textOf p.filter.conditionPieces ++ p.filter.groupSql ++
          p.filter.orderSql ++ limitSql ++ offsetSql) ∧
    (∀ e, (p.compile target).1 = .error e →
      p.isCompiled = false ∧ (p.compile target).2 = p) ∧
    ∀ document known, Filter.ofDocument document known = .ok p.filter →
      ∀ e, (p.compile target).1 = .error e → ∃ slot path v, m.Blames slot v ∧
        GivenLast document.visits slot path v ∧ document.Leads path (.scalar v) ∧
        e = ⟨path.text, slot.fault v.display⟩ := by
  intro m
  have blamed (e : CompileError) : (p.compile target).1 = .error e ↔ ∃ slot v, m.Blames slot v ∧
      e = ⟨(m.path? slot).getD slot.usualPath, slot.fault v.display⟩ :=
    compile_eq_error.trans Modifiers.window_eq_error
  refine ⟨exists_compile_eq_ok, blamed, ?_, ?_, fun e => compile_of_error, ?_⟩
  · intro other target' same
    rw [map_compile, map_compile, Modifiers.window_eq_of_same same]
  · intro handed made limited
    refine Filter.sql_of_query ?_ limited
    rw [← p.query_compile target, made]
    rfl
  · intro document known read e failed
    obtain ⟨slot, v, blames, rfl⟩ := (blamed e).mp failed
    obtain ⟨path, given, leads, text⟩ := Filter.exists_givenLast_of_read read blames.held
    exact ⟨slot, path, v, blames, given, leads, by rw [text]; rfl⟩

/-- Of two rules the later, inner one counts, and its offset is no number. -/
theorem compile_counts_sample :
    let inner : Document := .list [.scalar (.int 5), .scalar (.text "1 OR")]
    let document : Document := .map [(.name ":limit", .scalar (.text "007")),
      (.name ":and", .list [.map [(.name ":Limit", inner)]])]
    let f : Filter :=
      { root := ⟨.and, [.group .and [.group .and []]]⟩
        modifiers := { limit := some (.int 5), limitPath := some "/:and/0/:Limit/0",
                       offset := some (.text "1 OR"), offsetPath := some "/:and/0/:Limit/1" } }
    let e : CompileError := ⟨"/:and/0/:Limit/1", .invalidOffset "1 OR"⟩
    Filter.ofDocument document = .ok f ∧ (f.prepare.compile ⟨"users", "id"⟩).1 = .error e ∧
      ∃ slot path v, f.modifiers.Blames slot v ∧ GivenLast document.visits slot path v ∧
        document.Leads path (.scalar v) ∧ e = ⟨path.text, slot.fault v.display⟩ := by
  intro inner document f e
  have read : Filter.ofDocument document = .ok f := rfl
  have failed : (f.prepare.compile ⟨"users", "id"⟩).1 = .error e := rfl
  obtain ⟨-, -, -, -, -, blamed⟩ := compile_counts f.prepare ⟨"users", "id"⟩
  exact ⟨read, failed, blamed document none read e failed⟩

end Prepared

end FilterQuery
