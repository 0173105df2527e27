import FilterQuery.Builder
import FilterQuery.Proofs.Slot
import Mathlib.Data.List.Basic

/-!
# Several limit rules

A document may limit the rows more than once, at any depth, by a number alone or together with an
offset. Main statement: the limit is that of the last rule visited, but the offset is that of the
last rule that gives one. So the last rule decides alone only if it gives an offset or none of the
rules does; else an offset is left over from a rule that was replaced. A call of the builder always
decides alone.
-/

namespace FilterQuery

/-- The rows and the offset of a rule that limits. -/
def Rule.limits? : Rule → Option (Located × Option Located)
  | .limit rows skip => some (rows, skip)
  | .order _ | .group _ => none

namespace Rule

theorem located?_limit (rule : Rule) : rule.located? .limit = rule.limits?.map Prod.fst := by
  cases rule <;> rfl

theorem located?_offset (rule : Rule) : rule.located? .offset = rule.limits?.bind Prod.snd := by
  cases rule <;> rfl

/-- A rule without a limit has no offset either. -/
theorem limits?_of_located? {rule : Rule} (h : rule.located? .limit = none) :
    rule.limits? = none := by
  rwa [located?_limit, Option.map_eq_none_iff] at h

/-- A slot holds the last that any rule has for it, and the path of that. -/
theorem slot_foldl (rules : List Rule) (slot : Slot) :
    (rules.foldl apply {}).value? slot =
        (rules.filterMap (located? slot)).getLast?.map Located.value ∧
      (rules.foldl apply {}).path? slot =
        (rules.filterMap (located? slot)).getLast?.map Located.path := by
  induction rules using List.reverseRecOn with
  | nil => cases slot <;> exact ⟨rfl, rfl⟩
  | append_singleton rules rule ih =>
    rw [List.foldl_append, List.filterMap_append]
    simp only [List.foldl_cons, List.foldl_nil, value?_apply, path?_apply, ih]
    cases located : rule.located? slot with
    | none => simp [located]
    | some place => simp [located]

end Rule

namespace Entry

variable (entry : Entry)

def item (i : Nat) (v : Value) : Located := ⟨v, Path.text (entry.path ++ [.index i])⟩

/-- The rows that an entry limits a query to, and the offset if it gives one. -/
def limits? : Option (Located × Option Located) :=
  if entry.key.rule? = some .limit then
    match entry.value.scalar?, entry.value.sequence? with
    | some rows, _ => some (⟨rows, entry.path.text⟩, none)
    | none, some [.scalar rows] => some (entry.item 0 rows, none)
    | none, some [.scalar rows, .scalar skip] => some (entry.item 0 rows, some (entry.item 1 skip))
    | none, _ => none
  else none

variable {entry}

theorem limits?_of_rule? {rule : Rule} (h : entry.rule? = some rule) :
    entry.limits? = rule.limits? := by
  obtain ⟨name, named, read⟩ := exists_read_of_rule? h
  cases name with
  | order =>
    rw [Rule.limits?_of_located? (Rule.located?_of_readOrder read .limit)]
    exact if_neg (by simp [named])
  | group =>
    rw [Rule.limits?_of_located? (Rule.located?_of_readGroup read .limit)]
    exact if_neg (by simp [named])
  | limit =>
    rw [limits?, if_pos named]
    rcases Rule.readLimit_cases read with
      ⟨rows, bare, rfl⟩ | ⟨rows, alone, rfl⟩ | ⟨rows, skip, both, rfl⟩
    · rw [bare]
      rfl
    · rw [Document.scalar?_of_sequence? alone, alone]
      rfl
    · rw [Document.scalar?_of_sequence? both, both]
      rfl

/-- Where every rule is read, the entries limit by their rules. -/
theorem filterMap_limits? {entries : List Entry}
    (rules : ∀ entry ∈ entries, ∀ name, entry.key.rule? = some name → entry.rule?.isSome) :
    entries.filterMap limits? = (entries.filterMap rule?).filterMap Rule.limits? := by
  rw [List.filterMap_filterMap]
  refine List.filterMap_congr fun entry visited => ?_
  cases ruled : entry.rule? with
  | some rule => exact limits?_of_rule? ruled
  | none =>
    refine if_neg fun named => ?_
    have := rules entry visited _ named
    simp [ruled] at this

end Entry

/-- The limits of a document in the order of the visits. -/
def Document.limits (document : Document) : List (Located × Option Located) :=
  document.visits.filterMap Entry.limits?

/-- The offset of the last limit is the last offset if it is there, or if there is none at all. -/
theorem last_offset_iff (limits : List (Located × Option Located)) :
    (limits.filterMap Prod.snd).getLast?.map Located.value =
        (limits.getLast?.bind Prod.snd).map Located.value ↔
      ∀ rows, limits.getLast? = some (rows, none) → ∀ limit ∈ limits, limit.2 = none := by
  rcases List.eq_nil_or_concat limits with rfl | ⟨earlier, ⟨rows, skip⟩, rfl⟩
  · simp
  · cases skip with
    | some skip => simp
    | none => simp [or_imp, forall_and]

namespace Filter

variable {document : Document} {known : Option (List String)} {f : Filter}

theorem slot_of_read (read : Filter.ofDocument document known = .ok f) (slot : Slot) :
    let located := (document.visits.filterMap Entry.rule?).filterMap (Rule.located? slot)
    f.modifiers.value? slot = located.getLast?.map Located.value ∧
      f.modifiers.path? slot = located.getLast?.map Located.path := by
  rw [modifiers_of_read read]
  exact Rule.slot_foldl _ slot

/-- The limits of a document are those of its rules, in the order of the visits. -/
theorem limits_of_read (read : Filter.ofDocument document known = .ok f) :
    document.limits = (document.visits.filterMap Entry.rule?).filterMap Rule.limits? := by
  obtain ⟨reading, made, -⟩ := Except.map_eq_ok.mp read
  exact Entry.filterMap_limits? fun entry visited _ => Document.isSome_rule?_of_read made visited

theorem isSome_limits? (read : Filter.ofDocument document known = .ok f) {entry : Entry}
    (visited : entry ∈ document.visits) (named : entry.key.rule? = some .limit) :
    entry.limits?.isSome := by
  obtain ⟨reading, made, -⟩ := Except.map_eq_ok.mp read
  obtain ⟨rule, ruled⟩ :=
    Option.isSome_iff_exists.mp (Document.isSome_rule?_of_read made visited named)
  obtain ⟨name, named', taken⟩ := Entry.exists_read_of_rule? ruled
  obtain rfl := Option.some.inj (named.symm.trans named')
  rw [Entry.limits?_of_rule? ruled]
  rcases Rule.readLimit_cases taken with ⟨_, -, rfl⟩ | ⟨_, -, rfl⟩ | ⟨_, _, -, rfl⟩ <;> rfl

theorem limit_of_read (read : Filter.ofDocument document known = .ok f) :
    f.modifiers.limit = document.limits.getLast?.map (·.1.value) ∧
      f.modifiers.limitPath = document.limits.getLast?.map (·.1.path) := by
  have rows : (document.visits.filterMap Entry.rule?).filterMap (Rule.located? .limit) =
      document.limits.map Prod.fst := by
    rw [limits_of_read read, List.map_filterMap]
    exact List.filterMap_congr fun rule _ => rule.located?_limit
  have slot := slot_of_read read .limit
  simp only [rows, List.getLast?_map, Option.map_map] at slot
  exact slot

/-- The offset is the last one that a limit rule gives, in whichever rule that was. -/
theorem offset_of_read (read : Filter.ofDocument document known = .ok f) :
    f.modifiers.offset = (document.limits.filterMap (·.2)).getLast?.map Located.value ∧
      f.modifiers.offsetPath = (document.limits.filterMap (·.2)).getLast?.map Located.path := by
  have skips : (document.visits.filterMap Entry.rule?).filterMap (Rule.located? .offset) =
      document.limits.filterMap (·.2) := by
    rw [limits_of_read read]
    generalize document.visits.filterMap Entry.rule? = rules
    rw [List.filterMap_filterMap]
    exact List.filterMap_congr fun rule _ => rule.located?_offset
  have slot := slot_of_read read .offset
  simp only [skips] at slot
  exact slot

/-- A call of the builder sets limit and offset, whatever they were before. -/
theorem build_limit (calls : List Call) (rows : UInt64) (skip : Option UInt64) :
    (build (calls ++ [.limit rows skip])).modifiers =
      { (build calls).modifiers with
        limit := some (.ofCount rows), offset := skip.map .ofCount } := by
  rw [build_append]
  rfl

/-- In a document the last limit counts, and the last offset, which need not be of the same rule.
A call of the builder sets both. -/
theorem limit_and_offset_last (read : Filter.ofDocument document known = .ok f) :
    let limits := document.limits
    let m := f.modifiers
    (∀ entry ∈ document.visits, entry.key.rule? = some .limit → entry.limits?.isSome) ∧
    (m.limit = limits.getLast?.map (·.1.value) ∧ m.limitPath = limits.getLast?.map (·.1.path)) ∧
    (m.offset = (limits.filterMap (·.2)).getLast?.map Located.value ∧
      m.offsetPath = (limits.filterMap (·.2)).getLast?.map Located.path) ∧
    (m.offset = (limits.getLast?.bind (·.2)).map Located.value ↔
      ∀ rows, limits.getLast? = some (rows, none) → ∀ limit ∈ limits, limit.2 = none) ∧
    ∀ calls rows skip,
      (build (calls ++ [.limit rows skip])).modifiers.limit = some (.ofCount rows) ∧
      (build (calls ++ [.limit rows skip])).modifiers.offset = skip.map .ofCount := by
  intro limits m
  refine ⟨fun entry => isSome_limits? read, limit_of_read read, offset_of_read read, ?_, ?_⟩
  · rw [(offset_of_read read).1]
    exact last_offset_iff limits
  · intro calls rows skip
    rw [build_limit]
    exact ⟨rfl, rfl⟩

/-- Three limits at different depths: the last has no offset, and that of the second stays. -/
theorem limit_and_offset_last_sample :
    let document : Document := .map [(.name ":limit", .list [.scalar (.int 1), .scalar (.int 2)]),
      (.name ":or", .list [.map [(.name ":Limit", .list [.scalar (.int 3), .scalar (.int 4)])]]),
      (.name "0", .list [.map [(.name ":limit", .scalar (.int 5))]])]
    let limits : List (Located × Option Located) :=
      [(⟨.int 1, "/:limit/0"⟩, some ⟨.int 2, "/:limit/1"⟩),
        (⟨.int 3, "/:or/0/:Limit/0"⟩, some ⟨.int 4, "/:or/0/:Limit/1"⟩),
        (⟨.int 5, "/0/0/:limit"⟩, none)]
    document.limits = limits ∧ ∃ f, Filter.ofDocument document = .ok f ∧
      f.modifiers.limit = some (.int 5) ∧ f.modifiers.offset = some (.int 4) := by
  intro document limits
  have visited : document.limits = limits := by decide +kernel
  obtain ⟨f, read⟩ : ∃ f, Filter.ofDocument document = .ok f := ⟨_, rfl⟩
  obtain ⟨-, ⟨limit, -⟩, ⟨offset, -⟩, -⟩ := limit_and_offset_last read
  rw [visited] at limit offset
  exact ⟨visited, f, read, limit, offset⟩

/-- A limit without an offset does not undo the offset of the one before. -/
theorem not_offset_of_last_limit :
    ¬ ∀ (document : Document) (known : Option (List String)) (f : Filter),
      Filter.ofDocument document known = .ok f →
      f.modifiers.limit = document.limits.getLast?.map (·.1.value) ∧
      f.modifiers.offset = (document.limits.getLast?.bind (·.2)).map Located.value := by
  intro alone
  have offset := (alone (.map [(.name ":limit", .list [.scalar (.int 10), .scalar (.int 20)]),
    (.name ":limit", .scalar (.int 5))]) none _ rfl).2
  exact absurd offset (by decide +kernel)

end Filter

end FilterQuery
