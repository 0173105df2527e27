import FilterQuery.Proofs.Levels
import FilterQuery.Proofs.Placeholder

/-!
# Parentheses

Text is balanced if no prefix of it closes more parentheses than it opens and all of them are
closed in the end. Balanced text is read into nests: characters, and parentheses around further
nests.

Main statement: balanced text is a row that is read alike at every level, and so is every clause
that is made of balanced names and fragments.
-/

namespace FilterQuery

/-- Characters, and parentheses around more of the same. -/
inductive Nest where
  | char (c : Char)
  | parenthesis (inside : List Nest)

namespace Nest

def mark (c : Char) : Mark Nest :=
  if c = '(' then .opening else if c = ')' then .closing else .item (.char c)

/-- The nests of a text that closes every parenthesis it opens, and no other. -/
def ofText? (text : String) : Option (List Nest) :=
  Levels.read? parenthesis (text.toList.map mark)

/-- Parentheses with AND between neighbours and nothing else around them. -/
def conjunction (terms : List (List Nest)) : List Nest :=
  List.intercalate (Combinator.and.joiner.toList.map char)
    (terms.map fun term => [parenthesis term])

end Nest

/-- Parentheses are closed after they have been opened, and all of them. -/
structure Balanced (text : String) : Prop where
  opened : ∀ front, front <+: text.toList → front.count ')' ≤ front.count '('
  closed : text.toList.count ')' = text.toList.count '('

instance (text : String) : Decidable (Balanced text) :=
  decidable_of_iff ((∀ n < text.toList.length + 1,
      (text.toList.take n).count ')' ≤ (text.toList.take n).count '(') ∧
      text.toList.count ')' = text.toList.count '(') <| by
    constructor
    · rintro ⟨opened, closed⟩
      refine ⟨fun front before => ?_, closed⟩
      rw [List.prefix_iff_eq_take.mp before]
      exact opened _ (Nat.lt_succ_of_le before.length_le)
    · exact fun h => ⟨fun n _ => h.opened _ (List.take_prefix n _), h.closed⟩

namespace Nest

variable {cs : List Char} {n : Levels Nest}

/-- A character is taken unless it closes what is not open. -/
theorem exists_take (c : Char) (h : [c].count ')' ≤ [c].count '(' + n.outside.length) :
    ∃ n', n.take parenthesis (mark c) = some n' ∧
      n'.outside.length + [c].count ')' = n.outside.length + [c].count '(' := by
  by_cases opens : c = '('
  · subst opens
    exact ⟨_, rfl, by simp⟩
  · by_cases closes : c = ')'
    · subst closes
      obtain ⟨here, outside⟩ := n
      cases outside with
      | nil => simp at h
      | cons outer outside => exact ⟨_, rfl, by simp [Levels.add]⟩
    · exact ⟨n.add [.char c], by simp [mark, opens, closes, Levels.take],
        by simp [opens, closes, Levels.add]⟩

/-- Text in which no prefix closes more than is open is read to its end. -/
theorem exists_takeAll
    (h : ∀ front, front <+: cs → front.count ')' ≤ front.count '(' + n.outside.length) :
    ∃ n', n.takeAll parenthesis (cs.map mark) = some n' ∧
      n'.outside.length + cs.count ')' = n.outside.length + cs.count '(' := by
  induction cs generalizing n with
  | nil => exact ⟨n, rfl, rfl⟩
  | cons c cs ih =>
    obtain ⟨next, taken, depth⟩ := exists_take c (h [c] (by simp))
    have later : ∀ front, front <+: cs →
        front.count ')' ≤ front.count '(' + next.outside.length := by
      intro front before
      have whole := h (c :: front) (by simpa using before)
      rw [← List.singleton_append, List.count_append, List.count_append] at whole
      omega
    obtain ⟨last, takenAll, depth'⟩ := ih later
    refine ⟨last, ?_, ?_⟩
    · have rest : (cs.map mark).foldlM (Levels.take parenthesis) next = some last := takenAll
      simp [Levels.takeAll, taken, rest]
    · rw [← List.singleton_append, List.count_append, List.count_append]
      omega

end Nest

/-- The row of a text is read anywhere as these nests. -/
def Nested (text : String) (nests : List Nest) : Prop :=
  Nests Nest.parenthesis (text.toList.map Nest.mark) nests

/-- Balanced text is read into nests. -/
theorem Balanced.exists_nested {text : String} (h : Balanced text) :
    ∃ nests, Nested text nests := by
  obtain ⟨n, taken, depth⟩ := Nest.exists_takeAll (n := {}) h.opened
  have closed := h.closed
  obtain ⟨here, outside⟩ := n
  have none : outside = [] := List.eq_nil_of_length_eq_zero (by simp at depth; omega)
  subst none
  exact ⟨here, Nests.iff_read?.mpr (by simp [Levels.read?, taken])⟩

namespace Nested

variable {text text' : String} {nests nests' : List Nest}

theorem append (h : Nested text nests) (h' : Nested text' nests') :
    Nested (text ++ text') (nests ++ nests') := by
  simpa [Nested] using Nests.append h h'

theorem parenthesis (h : Nested text nests) : Nested ("(" ++ text ++ ")") [.parenthesis nests] := by
  have opening : Nest.mark '(' = .opening := rfl
  have closing : Nest.mark ')' = .closing := rfl
  simpa [Nested, opening, closing] using Nests.parenthesis h

/-- Text without parentheses is read character by character. -/
theorem chars (h : '(' ∉ text.toList ∧ ')' ∉ text.toList) :
    Nested text (text.toList.map .char) := by
  have each : ∀ cs : List Char, '(' ∉ cs ∧ ')' ∉ cs →
      Nests Nest.parenthesis (cs.map Nest.mark) (cs.map .char) := by
    intro cs
    induction cs with
    | nil => exact fun _ => .nil
    | cons c cs ih =>
      intro h
      simp only [List.mem_cons, not_or] at h
      have own : Nest.mark c = .item (.char c) := by
        simp [Nest.mark, Ne.symm h.1.1, Ne.symm h.2.1]
      rw [List.map_cons, own]
      exact Nests.append (.item _) (ih ⟨h.1.2, h.2.2⟩)
  exact each _ h

/-- To be read anywhere is to be read as a whole. -/
theorem ofText?_eq (h : Nested text nests) : Nest.ofText? text = some nests := Nests.iff_read?.mp h

end Nested

namespace Clause

/-- The name or the fragment that a leaf is written with is balanced. -/
def Balanced : Clause → Prop
  | .comparison field _ _ | .membership field _ _ | .nullCheck field _ | .pattern field _ _ =>
    FilterQuery.Balanced field
  | .raw expression => FilterQuery.Balanced expression.sql
  | .group _ _ => True

instance : (clause : Clause) → Decidable clause.Balanced
  | .comparison field _ _ | .membership field _ _ | .nullCheck field _ | .pattern field _ _ =>
    inferInstanceAs (Decidable (FilterQuery.Balanced field))
  | .raw expression => inferInstanceAs (Decidable (FilterQuery.Balanced expression.sql))
  | .group _ _ => .isTrue trivial

theorem not_mem_placeholders {c : Char} (plain : isKeywordChar c = false) (other : c ∉ "?".toList)
    (n : Nat) : c ∉ (String.intercalate ", " (List.replicate n "?")).toList := by
  refine (composable_not_mem plain).intercalate (by decide) fun part hm => ?_
  rwa [(List.mem_replicate.mp hm).2]

/-- Behind a name stands text without parentheses, or a list in parentheses. -/
theorem exists_nested_membershipSql {field : String} (h : FilterQuery.Balanced field)
    (negate : Bool) (n : Nat) : ∃ nests, Nested (membershipSql field negate n) nests := by
  obtain ⟨nests, named⟩ := h.exists_nested
  unfold membershipSql
  split
  · exact ⟨_, .chars (by cases negate <;> decide)⟩
  · have list : Nested (String.intercalate ", " (List.replicate n "?")) _ :=
      .chars ⟨not_mem_placeholders (by decide) (by decide) n,
        not_mem_placeholders (by decide) (by decide) n⟩
    have words : Nested (" " ++ negation negate ++ "IN ") _ :=
      .chars (by cases negate <;> decide)
    have written : field ++ " " ++ negation negate ++ "IN (" ++
        String.intercalate ", " (List.replicate n "?") ++ ")" =
          field ++ (" " ++ negation negate ++ "IN ") ++
            ("(" ++ String.intercalate ", " (List.replicate n "?") ++ ")") := by
      simp [← String.toList_inj]
    rw [written]
    exact ⟨_, (named.append words).append list.parenthesis⟩

/-- A leaf with a balanced name or fragment is read into nests. -/
theorem Balanced.exists_nested {leaf : Clause} (h : leaf.Balanced) (hl : leaf.isLeaf) :
    ∃ nests, Nested leaf.text nests := by
  have behind {field : String} (named : FilterQuery.Balanced field) (text : String)
      (plain : '(' ∉ text.toList ∧ ')' ∉ text.toList) : ∃ nests, Nested (field ++ text) nests := by
    obtain ⟨nests, nested⟩ := named.exists_nested
    exact ⟨_, nested.append (.chars plain)⟩
  cases leaf with
  | comparison field comparator value =>
    have found := behind h (" " ++ comparator.sql ++ " ?") (by cases comparator <;> decide)
    simpa [String.append_assoc] using found
  | membership field negate values =>
    rw [text_membership]
    exact exists_nested_membershipSql h negate values.length
  | nullCheck field isNull =>
    have found := behind h (" IS " ++ negation (!isNull) ++ "NULL") (by cases isNull <;> decide)
    simpa [String.append_assoc] using found
  | pattern field negate value =>
    have found := behind h (" " ++ negation negate ++ "LIKE ?") (by cases negate <;> decide)
    simpa [String.append_assoc] using found
  | raw expression =>
    rw [text_raw]
    exact FilterQuery.Balanced.exists_nested h
  | group k children => simp [isLeaf] at hl

mutual

theorem exists_nested (clause : Clause) (h : ∀ leaf ∈ clause.leaves, leaf.Balanced) :
    ∃ nests, Nested clause.text nests := by
  by_cases hl : clause.isLeaf
  · exact (h clause (by simp [leaves_of_isLeaf hl])).exists_nested hl
  · cases clause with
    | group k children =>
      obtain ⟨nests, nested⟩ := exists_nested_joined k children h
      exact ⟨_, by simpa [text, pieces, Piece.text, String.append_assoc] using nested.parenthesis⟩
    | _ => exact absurd rfl hl

theorem exists_nested_joined (k : Combinator) (clauses : List Clause)
    (h : ∀ leaf ∈ leavesOfAll clauses, leaf.Balanced) :
    ∃ nests, Nested (Piece.textOf (Piece.joined k (piecesOfEach clauses))) nests := by
  cases clauses with
  | nil => exact ⟨_, .chars (by cases k <;> decide)⟩
  | cons clause rest =>
    simp only [leavesOfAll, List.forall_mem_append] at h
    obtain ⟨first, nested⟩ := exists_nested clause h.1
    cases rest with
    | nil => exact ⟨first, by simpa [piecesOfEach, Piece.joined, text] using nested⟩
    | cons next rest =>
      obtain ⟨later, nested'⟩ := exists_nested_joined k (next :: rest) h.2
      have joiner : Nested k.joiner _ := .chars (by cases k <;> decide)
      rw [piecesOfEach, piecesOfEach, Piece.textOf_joined_cons_cons]
      exact ⟨_, (nested.append joiner).append nested'⟩

end

end Clause

end FilterQuery
