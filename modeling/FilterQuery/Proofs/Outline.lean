import FilterQuery.Proofs.Grammar

/-!
# Outlines

The shape of an entry depends on its key and on the outline of its value: whether it is raw SQL,
what it is at a position, and what it is under a field. So a change of values that carries over to
the shapes at positions and under fields carries over to all shapes. Which shapes there can be at a
position or under a field is said here, too.
-/

namespace FilterQuery

variable {known : Option (List String)} {key : Key} {value value' : Document}

/-- A document is composite, a scalar or an expression. -/
theorem Document.outlines (document : Document) :
    document.isComposite ∨ (∃ v, document = .scalar v) ∨ ∃ e, document = .expression e := by
  cases document with
  | list | map => exact .inl rfl
  | scalar v => exact .inr (.inl ⟨v, rfl⟩)
  | expression e => exact .inr (.inr ⟨e, rfl⟩)

/-- The operands of a composite are its items, if these are scalars in a sequence. -/
theorem Document.operands?_of_isComposite (h : value.isComposite) :
    value.operands? = value.sequence?.bind fun items => items.mapM scalar? := by
  cases value with
  | scalar v => simp [isComposite] at h
  | _ => rfl

namespace Shape

/-- Under a field, a composite is a pair where it is a sequence of two, and otherwise says nothing.
-/
theorem ofField_of_isComposite {field : String} (h : value.isComposite) :
    ofField known field value =
      match value.sequence? with
      | some [operator, operand] => .pair field operator operand
      | _ => .unknown := by
  cases value with
  | scalar v => simp [Document.isComposite] at h
  | _ => rfl

/-- Changing a value changes the shape of its entry alike, if this is so at every position and under
every field. -/
theorem of_natural {change : Shape → Shape} (rules : ∀ name, change (.rule name) = .rule name)
    (expressions : ∀ e, change (.expression e) = .expression e) (groups : change .group = .group)
    (raw : ∀ e, value' = .expression e ↔ value = .expression e)
    (position : key.isNumeric → ofPosition value' = change (ofPosition value))
    (field : ∀ name, key.Names name →
      ofField known name value' = change (ofField known name value)) :
    of known key value' = change (of known key value) := by
  cases hr : key.rule? with
  | some name => rw [of_rule hr, of_rule hr, rules]
  | none =>
    by_cases isRaw : ∃ e, value = .expression e
    · obtain ⟨e, he⟩ := isRaw
      rw [he, (raw e).mpr he, of_expression hr, expressions]
    · have he : ∀ e, value ≠ .expression e := fun e same => isRaw ⟨e, same⟩
      have he' : ∀ e, value' ≠ .expression e := fun e same => he e ((raw e).mp same)
      rcases key.kinds with number | ⟨s, rfl, prefixed⟩ | ⟨name, names⟩
      · rw [of_isNumeric number he, of_isNumeric number he', position number]
      · rw [of_isPrefixed hr prefixed he, of_isPrefixed hr prefixed he', groups]
      · rw [of_names names he, of_names names he', field name names]

theorem ofField_ne_group {field : String} : ofField known field value ≠ .group := by
  unfold ofField
  split
  · split <;> simp
  · split <;> simp

theorem ofField_ne_rule {field : String} (name : RuleName) :
    ofField known field value ≠ .rule name := by
  unfold ofField
  split
  · split <;> simp
  · split <;> simp

theorem ofPosition_ne_rule (name : RuleName) : ofPosition value ≠ .rule name := by
  unfold ofPosition
  split
  · split <;> simp
  · split <;> simp

theorem ofPosition_ne_group_of_isTriple (h : value.isTriple) : ofPosition value ≠ .group := by
  rw [Document.isTriple] at h
  split at h
  · next hs =>
    simp only [Bool.and_eq_true, Bool.not_eq_true'] at h
    simp [ofPosition, hs, h]
  · cases h

/-- Only under the key of a rule there is a rule. -/
theorem rule?_of_eq_rule {name : RuleName} (h : of known key value = .rule name) :
    key.rule? = some name := by
  unfold of at h
  split at h
  · next named =>
    obtain rfl := Shape.rule.inj h
    exact named
  · cases h
  · split at h
    · exact absurd h (ofPosition_ne_rule name)
    · split at h
      · exact absurd h (ofPosition_ne_rule name)
      · split at h
        · cases h
        · exact absurd h (ofField_ne_rule name)

end Shape

end FilterQuery
