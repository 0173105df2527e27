import FilterQuery.Reading

/-!
# Kinds of keys

A key may be a position or a number, the name of a rule, the name of a combinator, some other name
with a colon in front, or the name of a field. The kinds exclude each other, and beside raw SQL they
alone decide which shapes an entry can have.
-/

namespace FilterQuery

namespace Text

/-- Beside letters and what has no capital there are a few ligatures and stray letters, and these
are capitalized with S, I or F in front. -/
theorem upperForm_eq_or (c : Char) :
    upperForm c = [c.toUpper] ∨
      c.toUpper = c ∧ (upperForm c).head? ∈ [some 'S', some 'I', some 'F'] := by
  by_cases small : c.isLower
  · simp [upperForm, small]
  · have noLower : ¬ (decide (c.val ≥ 'a'.val) && decide (c.val ≤ 'z'.val)) = true := small
    have same : c.toUpper = c := dif_neg (by simpa using noLower)
    rw [same, upperForm, if_neg small]
    split <;> simp

/-- Up to these letters it makes no difference that there are letters beyond ASCII. -/
theorem upper_eq_iff {cs w : List Char} (hw : ∀ d ∈ w, d ∈ [':', 'A', 'N', 'D', 'O', 'R']) :
    upper cs = w ↔ cs.map Char.toUpper = w := by
  induction cs generalizing w with
  | nil => rfl
  | cons c cs ih =>
    have step : upper (c :: cs) = upperForm c ++ upper cs := rfl
    cases w with
    | nil => rcases upperForm_eq_or c with h | ⟨-, h⟩ <;> cases hc : upperForm c <;> simp_all
    | cons d w =>
      rw [List.forall_mem_cons] at hw
      -- a letter of the word is not where one of the odd capitals begins
      have own : upperForm d = [d] ∧ some d ∉ [some 'S', some 'I', some 'F'] := by
        have letter := hw.1
        simp only [List.mem_cons, List.not_mem_nil, or_false] at letter
        rcases letter with rfl | rfl | rfl | rfl | rfl | rfl <;> decide
      rcases upperForm_eq_or c with h | ⟨same, h⟩
      · simp [step, h, ih hw.2]
      · have other : c ≠ d := by
          rintro rfl
          rw [own.1] at h
          exact own.2 h
        have : upper (c :: cs) ≠ d :: w := by
          intro he
          rw [step] at he
          cases hc : upperForm c with
          | nil => simp [hc] at h
          | cons e more =>
            rw [hc] at he h
            exact own.2 ((List.cons.inj he).1 ▸ h)
        simp [this, same, other]

theorem toUpper_eq_colon {c : Char} (h : c.toUpper = ':') : c = ':' := by
  unfold Char.toUpper at h
  split at h
  · next small =>
    have moved : (c.val + ('A'.val - 'a'.val)).toNat = 58 := congrArg (·.val.toNat) h
    have low : 97 ≤ c.val.toNat := UInt32.le_iff_toNat_le.mp small.1
    have high : c.val.toNat ≤ 122 := UInt32.le_iff_toNat_le.mp small.2
    rw [UInt32.toNat_add] at moved
    simp only [UInt32.reduceSub, UInt32.reduceToNat, Char.reduceVal] at moved
    omega
  · exact h

theorem toLower_eq_colon {c : Char} (h : c.toLower = ':') : c = ':' := by
  unfold Char.toLower at h
  split at h
  · next capital =>
    have moved : (c.val + ('a'.val - 'A'.val)).toNat = 58 := congrArg (·.val.toNat) h
    have low : 65 ≤ c.val.toNat := UInt32.le_iff_toNat_le.mp capital.1
    have high : c.val.toNat ≤ 90 := UInt32.le_iff_toNat_le.mp capital.2
    rw [UInt32.toNat_add] at moved
    simp only [UInt32.reduceSub, UInt32.reduceToNat, Char.reduceVal] at moved
    omega
  · exact h

end Text

namespace Key

/-- The rule that a key stands for. -/
def rule? (key : Key) : Option RuleName := key.name?.bind RuleName.ofKey?

/-- `:AND` and `:OR` in any letter case. -/
def isConnective : Key → Bool
  | .index _ => false
  | .name s => s.toUpper == ":AND" || s.toUpper == ":OR"

/-- A name that is no number and does not begin with a colon. -/
structure Names (key : Key) (field : String) : Prop where
  name : key = .name field
  notNumeric : key.isNumeric = false
  notPrefixed : Shape.isPrefixed field = false

variable {key : Key} {s : String}

theorem isPrefixed_iff : Shape.isPrefixed s ↔ ∃ more, s.toList = ':' :: more := by
  rw [Shape.isPrefixed]
  cases s.toList <;> simp

/-- A name with a colon in front is no number. -/
theorem not_isNumeric_of_isPrefixed (h : Shape.isPrefixed s) : (name s).isNumeric = false := by
  obtain ⟨more, hs⟩ := isPrefixed_iff.mp h
  rw [isNumeric, hs]
  rfl

/-- A text with a colon in front has it there before its letters are mapped, too. -/
theorem isPrefixed_of_map {f : Char → Char} (hf : ∀ {c}, f c = ':' → c = ':') {w : List Char}
    (h : s.toList.map f = ':' :: w) : Shape.isPrefixed s ∧ s.toList.length = w.length + 1 := by
  cases hs : s.toList with
  | nil => simp [hs] at h
  | cons c cs =>
    simp only [hs, List.map_cons, List.cons.injEq] at h
    obtain ⟨head, rfl⟩ := h
    exact ⟨isPrefixed_iff.mpr ⟨cs, by rw [hs, hf head]⟩, by simp⟩

/-- Rule keys begin with a colon and five letters follow. -/
theorem spelling_of_rule? {rule : RuleName} (h : (name s).rule? = some rule) :
    Shape.isPrefixed s ∧ s.toList.length = 6 := by
  have spelled : RuleName.ofKey? s = some rule := h
  unfold RuleName.ofKey? at spelled
  split at spelled
  · next e => exact isPrefixed_of_map Text.toLower_eq_colon e
  · next e => exact isPrefixed_of_map Text.toLower_eq_colon e
  · next e => exact isPrefixed_of_map Text.toLower_eq_colon e
  · simp at spelled

/-- The keys of groups begin with a colon and at most three letters follow. -/
theorem spelling_of_isConnective (h : (name s).isConnective) :
    Shape.isPrefixed s ∧ s.toList.length < 6 := by
  simp only [isConnective, Bool.or_eq_true, beq_iff_eq] at h
  rcases h with h | h
  · have e : s.toList.map Char.toUpper = ':' :: ['A', 'N', 'D'] := by
      rw [← String.toList_map]
      exact congrArg String.toList h
    have spelled := isPrefixed_of_map Text.toUpper_eq_colon e
    exact ⟨spelled.1, by simp [spelled.2]⟩
  · have e : s.toList.map Char.toUpper = ':' :: ['O', 'R'] := by
      rw [← String.toList_map]
      exact congrArg String.toList h
    have spelled := isPrefixed_of_map Text.toUpper_eq_colon e
    exact ⟨spelled.1, by simp [spelled.2]⟩

theorem rule?_of_isConnective (h : key.isConnective) : key.rule? = none := by
  cases key with
  | index i => rfl
  | name s =>
    cases hr : (name s).rule? with
    | none => rfl
    | some rule =>
      have short := (spelling_of_isConnective h).2
      have long := (spelling_of_rule? hr).2
      omega

theorem rule?_of_isNumeric (h : key.isNumeric) : key.rule? = none := by
  cases key with
  | index i => rfl
  | name s =>
    cases hr : (name s).rule? with
    | none => rfl
    | some rule => simp [not_isNumeric_of_isPrefixed (spelling_of_rule? hr).1] at h

theorem Names.rule? {field : String} (h : key.Names field) : key.rule? = none := by
  cases hr : key.rule? with
  | none => rfl
  | some rule =>
    rw [h.name] at hr
    exact absurd (spelling_of_rule? hr).1 (by simp [h.notPrefixed])

theorem Names.not_isConnective {field : String} (h : key.Names field) :
    ¬ key.isConnective := by
  intro joined
  rw [h.name] at joined
  exact absurd (spelling_of_isConnective joined).1 (by simp [h.notPrefixed])

theorem not_isConnective_of_isNumeric (h : key.isNumeric) : ¬ key.isConnective := by
  intro joined
  cases key with
  | index i => simp [isConnective] at joined
  | name s => simp [not_isNumeric_of_isPrefixed (spelling_of_isConnective joined).1] at h

/-- The capitals by which the key of a group is recognised are those of ASCII. -/
theorem isSome_ofKey? (s : String) :
    (Combinator.ofKey? s).isSome = (name s).isConnective := by
  have and : Text.upper s.toList = [':', 'A', 'N', 'D'] ↔ s.toUpper = ":AND" := by
    rw [Text.upper_eq_iff (by simp), ← String.toList_map, ← String.toList_inj]
    rfl
  have or : Text.upper s.toList = [':', 'O', 'R'] ↔ s.toUpper = ":OR" := by
    rw [Text.upper_eq_iff (by simp), ← String.toList_map, ← String.toList_inj]
    rfl
  rw [Bool.eq_iff_iff]
  simp only [isConnective, Bool.or_eq_true, beq_iff_eq, ← and, ← or]
  unfold Combinator.ofKey?
  split
  · next e => simp [e]
  · next e => simp [e]
  · next noAnd noOr => simpa using ⟨noAnd, noOr⟩

/-- A key is a number, begins with a colon, or names a field. -/
theorem kinds (key : Key) :
    key.isNumeric ∨ (∃ s, key = .name s ∧ Shape.isPrefixed s) ∨ ∃ field, key.Names field := by
  cases key with
  | index i => exact .inl rfl
  | name s =>
    by_cases number : (name s).isNumeric
    · exact .inl number
    · by_cases colon : Shape.isPrefixed s
      · exact .inr (.inl ⟨s, rfl, colon⟩)
      · exact .inr (.inr ⟨s, rfl, by simpa using number, by simpa using colon⟩)

variable {path : Path}

theorem combinator_of_isNumeric (h : key.isNumeric) : key.combinator path = .ok .and := by
  cases key with
  | index i => rfl
  | name s => rw [combinator, if_pos h]

theorem combinator_of_isConnective (h : key.isConnective) :
    ∃ k, key.combinator path = .ok k := by
  cases key with
  | index i => exact ⟨.and, rfl⟩
  | name s =>
    have notNumeric := not_isNumeric_of_isPrefixed (spelling_of_isConnective h).1
    rw [← isSome_ofKey?] at h
    obtain ⟨k, hk⟩ := Option.isSome_iff_exists.mp h
    exact ⟨k, by simp [combinator, notNumeric, hk]⟩

/-- Any other key with a colon in front is refused by its name. -/
theorem combinator_of_unknown (hp : Shape.isPrefixed s) (hc : (name s).isConnective = false) :
    (name s).combinator path = path.refuse (.unknownCombinator s) := by
  rw [← isSome_ofKey?, Option.isSome_eq_false_iff, Option.isNone_iff_eq_none] at hc
  simp [combinator, not_isNumeric_of_isPrefixed hp, hc]

end Key

namespace Shape

variable {known : Option (List String)} {key : Key} {value : Document}

/-- The key of a rule makes a rule of any value. -/
theorem of_rule {rule : RuleName} (h : key.rule? = some rule) :
    of known key value = .rule rule := by
  have name : key.name?.bind RuleName.ofKey? = some rule := h
  simp [of, name]

/-- Raw SQL stays raw SQL under every key but that of a rule. -/
theorem of_expression (h : key.rule? = none) (e : Expression) :
    of known key (.expression e) = .expression e := by
  have name : key.name?.bind RuleName.ofKey? = none := h
  simp [of, name]

/-- Under a number the outline of the value decides. -/
theorem of_isNumeric (h : key.isNumeric) (he : ∀ e, value ≠ .expression e) :
    of known key value = ofPosition value := by
  have name : key.name?.bind RuleName.ofKey? = none := Key.rule?_of_isNumeric h
  cases key <;> simp [of, name, h]

/-- Under a colon there is a group, whether its combinator is known or not. -/
theorem of_isPrefixed {s : String} (noRule : (Key.name s).rule? = none) (h : isPrefixed s)
    (he : ∀ e, value ≠ .expression e) : of known (.name s) value = .group := by
  have name : (Key.name s).name?.bind RuleName.ofKey? = none := noRule
  simp [of, name, Key.not_isNumeric_of_isPrefixed h, h]

theorem of_isConnective (h : key.isConnective) (he : ∀ e, value ≠ .expression e) :
    of known key value = .group := by
  cases key with
  | index i => simp [Key.isConnective] at h
  | name s =>
    exact of_isPrefixed (Key.rule?_of_isConnective h) (Key.spelling_of_isConnective h).1 he

/-- Under a field the value decides, and for scalars the list of known fields. -/
theorem of_names {field : String} (h : key.Names field) (he : ∀ e, value ≠ .expression e) :
    of known key value = ofField known field value := by
  have name : key.name?.bind RuleName.ofKey? = none := h.rule?
  obtain ⟨rfl, notNumeric, notPrefixed⟩ := h
  simp [of, name, notNumeric, notPrefixed]

end Shape

end FilterQuery
