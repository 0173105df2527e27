import FilterQuery.Proofs.Grammar
import FilterQuery.Proofs.Leaf

/-!
# Clause trees as documents

Every clause tree can be written as a document: a group under the key of its combinator, as the map
of its children in order, and any other clause under a position, a test as the list of its field,
its operator in SQL and its operand, a fragment as it stands. Main statement: a document that
writes a conjunction of groups is read as that conjunction and no modifiers, unless a leaf equates
something with null, which would be read as a test for null.

Positions say nothing about the clause under them, so a tree has as many documents as its leaves
can be numbered, and the statement is about them all. The induction goes over the tree.
-/

namespace FilterQuery

def Combinator.key : Combinator → String
  | .and => ":AND"
  | .or => ":OR"

theorem Combinator.ofKey?_key (k : Combinator) : Combinator.ofKey? k.key = some k := by
  cases k <;> decide

/-- The spelling of an operator in SQL is one of those under which it is read. -/
theorem Operator.ofText?_sql (operator : Operator) :
    Operator.ofText? operator.sql = some operator := by
  cases operator with
  | compare comparator => cases comparator <;> decide
  | membership negate | pattern negate | nullTest negate => cases negate <;> decide

/-- A field, an operator and an operand in a list. -/
def Operator.document (operator : Operator) (field : String) (operand : Document) : Document :=
  .list [.scalar (.text field), .scalar (.text operator.sql), operand]

namespace Clause

/-- Where a clause stands among its siblings does not matter to a group. -/
def key (i : Nat) : Clause → Key
  | .group k _ => .name k.key
  | _ => .index i

mutual

def document : Clause → Document
  | .comparison field comparator value => (Operator.compare comparator).document field value
  | .membership field negate values =>
    (Operator.membership negate).document field (.list (values.map .scalar))
  | .nullCheck field isNull => (Operator.nullTest !isNull).document field (.scalar .null)
  | .pattern field negate value => (Operator.pattern negate).document field value
  | .raw expression => expression
  | .group _ children => .map (entriesFrom 0 children)

/-- The first clause is written under position `i`, unless it is a group. -/
def entriesFrom (i : Nat) : List Clause → List (Key × Document)
  | [] => []
  | clause :: rest => (clause.key i, clause.document) :: entriesFrom (i + 1) rest

end

mutual

/-- An entry writes a clause, under whatever positions the leaves in it stand. -/
inductive WrittenAs : Clause → Key × Document → Prop
  | leaf {leaf : Clause} (i : Nat) : leaf.isLeaf → WrittenAs leaf (.index i, leaf.document)
  | group {k : Combinator} {children : List Clause} {entries : List (Key × Document)} :
    EachWrittenAs children entries → WrittenAs (.group k children) (.name k.key, .map entries)

inductive EachWrittenAs : List Clause → List (Key × Document) → Prop
  | nil : EachWrittenAs [] []
  | cons {clause : Clause} {rest : List Clause} {entry : Key × Document}
    {entries : List (Key × Document)} : WrittenAs clause entry → EachWrittenAs rest entries →
    EachWrittenAs (clause :: rest) (entry :: entries)

end

mutual

/-- The canonical entry of a clause is one of the ways to write it. -/
theorem writtenAs_document (i : Nat) (clause : Clause) :
    clause.WrittenAs (clause.key i, clause.document) := by
  cases clause with
  | group k children => exact .group (eachWrittenAs_entriesFrom 0 children)
  | _ => exact .leaf i rfl

theorem eachWrittenAs_entriesFrom (i : Nat) (clauses : List Clause) :
    EachWrittenAs clauses (entriesFrom i clauses) := by
  cases clauses with
  | nil => exact .nil
  | cons clause rest =>
    exact .cons (writtenAs_document i clause) (eachWrittenAs_entriesFrom (i + 1) rest)

end

/-- Equality and inequality with null are written down but not read back. -/
def EquatesNull : Clause → Prop
  | .comparison _ .eq value | .comparison _ .notEq value => value = .null
  | _ => False

instance : (clause : Clause) → Decidable clause.EquatesNull
  | .comparison _ .eq value | .comparison _ .notEq value =>
    inferInstanceAs (Decidable (value = .null))
  | .comparison _ .lt _ | .comparison _ .gt _ | .comparison _ .ltEq _ | .comparison _ .gtEq _ =>
    .isFalse id
  | .membership _ _ _ | .nullCheck _ _ | .pattern _ _ _ | .raw _ | .group _ _ => .isFalse id

theorem ofComparison_eq {field : String} {comparator : Comparator} {value : Value}
    (h : ¬ (comparison field comparator value).EquatesNull) :
    ofComparison field comparator value = comparison field comparator value := by
  unfold ofComparison
  split
  · exact absurd rfl h
  · exact absurd rfl h
  · rfl

end Clause

theorem Document.operands?_scalars (values : List Value) :
    (Document.list (values.map .scalar)).operands? = some values := by
  simp only [operands?, sequence?, Option.bind_some]
  exact (mapM_eq_some scalar?_eq_some).mpr rfl

variable {known : Option (List String)} {path : Path}

/-- Under a position, a list of field, operator and operand is read as the clause they make. -/
theorem readEntry_operator {i : Nat} {operator : Operator} {field : String} {operand : Document}
    {clause : Clause} (h : operator.clause? field operand = some clause) :
    readEntry known path (.index i) (operator.document field operand) =
      .ok (.ofClause clause) := by
  rw [Operator.document, readEntry_triple rfl rfl rfl, Shape.read_triple]
  simp [Shape.read, readOperation, Operator.ofText?_sql, h]

/-- A leaf written under a position is read as itself, unless it compares with null for equality,
which is read as a null check. -/
theorem readEntry_leaf {leaf : Clause} (i : Nat) (hl : leaf.isLeaf) (hn : ¬ leaf.EquatesNull) :
    readEntry known path (.index i) leaf.document = .ok (.ofClause leaf) := by
  cases leaf with
  | comparison field comparator value =>
    apply readEntry_operator
    rw [Operator.clause?, Clause.ofComparison_eq hn]
  | membership field negate values =>
    apply readEntry_operator
    rw [Operator.clause?, Document.operands?_scalars, Option.map_some]
  | nullCheck field isNull =>
    apply readEntry_operator
    rw [Operator.clause?, Bool.not_not]
  | pattern field negate value =>
    apply readEntry_operator
    rw [Operator.clause?]
  | raw expression => rw [Clause.document, readEntry]; rfl
  | group k children => simp [Clause.isLeaf] at hl

/-- The key of a combinator opens a group, whatever map stands under it. -/
theorem readEntry_key (k : Combinator) (entries : List (Key × Document)) :
    readEntry known path (.name k.key) (.map entries) =
      (readEntries known path entries).map
        fun reading => ⟨[.group k reading.clauses], reading.rules⟩ := by
  have connective : (Key.name k.key).isConnective := by
    rw [← Key.isSome_ofKey?, Combinator.ofKey?_key, Option.isSome_some]
  have notNumeric := Key.not_isNumeric_of_isPrefixed (Key.spelling_of_isConnective connective).1
  have shape : Shape.of known (.name k.key) (.map entries) = .group :=
    Shape.of_isConnective connective (by simp)
  have joined : (Key.name k.key).combinator path = .ok k := by
    simp [Key.combinator, notNumeric, Combinator.ofKey?_key]
  rw [readEntry_eq, shape]
  simp only [Document.entries?, readGroup, joined]
  cases readEntries known path entries <;> rfl

mutual

/-- An entry that writes a clause is read as exactly that clause, and states no rule. -/
theorem readEntry_of_writtenAs {clause : Clause} {key : Key} {value : Document}
    (written : clause.WrittenAs (key, value)) (h : ∀ leaf ∈ clause.leaves, ¬ leaf.EquatesNull)
    (path : Path) : readEntry known path key value = .ok (.ofClause clause) := by
  cases written with
  | leaf i hl => exact readEntry_leaf i hl (h _ (by simp [Clause.leaves_of_isLeaf hl]))
  | group inner =>
    rw [readEntry_key, readEntries_of_eachWrittenAs inner h path]
    rfl

theorem readEntries_of_eachWrittenAs {clauses : List Clause} {entries : List (Key × Document)}
    (written : Clause.EachWrittenAs clauses entries)
    (h : ∀ leaf ∈ Clause.leavesOfAll clauses, ¬ leaf.EquatesNull) (path : Path) :
    readEntries known path entries = .ok ⟨clauses, []⟩ := by
  cases written with
  | nil => rfl
  | cons first later =>
    simp only [Clause.leavesOfAll, List.forall_mem_append] at h
    rw [readEntries, readEntry_of_writtenAs first h.1, readEntries_of_eachWrittenAs later h.2]
    rfl

end

theorem Clause.enclosed_of_not_isLeaf {clause : Clause} (h : ¬ clause.isLeaf) :
    clause.enclosed = clause := by
  cases clause with
  | group k children => rfl
  | _ => exact absurd rfl h

/-- A conjunction of groups can be written as a document, and each document that writes it is read
as it. -/
theorem Filter.ofDocument_of_eachWrittenAs (g : Group) (joined : g.combinator = .and)
    (groups : ∀ clause ∈ g.children, ¬ clause.isLeaf)
    (tests : ∀ leaf ∈ g.leaves, ¬ leaf.EquatesNull) :
    Clause.EachWrittenAs g.children (Clause.entriesFrom 0 g.children) ∧
    ∀ entries, Clause.EachWrittenAs g.children entries →
      ∀ known, Filter.ofDocument (.map entries) known = .ok { root := g } := by
  refine ⟨Clause.eachWrittenAs_entriesFrom 0 g.children, fun entries written known => ?_⟩
  have read : (Document.map entries).read known = .ok ⟨g.children, []⟩ :=
    readEntries_of_eachWrittenAs written tests []
  have enclosed : g.children.map Clause.enclosed = g.children :=
    calc g.children.map Clause.enclosed
        = g.children.map id :=
          List.map_congr_left fun clause hm => Clause.enclosed_of_not_isLeaf (groups clause hm)
      _ = g.children := List.map_id _
  rw [Filter.ofDocument, read]
  simp [Except.map, Reading.filter, enclosed, ← joined]

/-- Groups over fields whose names look like the keys of a document. -/
def Group.namedLikeKeys : Group where
  children := [
    .group .or [
      .comparison ":order" .lt .null,
      .group .and [],
      .membership "12" true [],
      .nullCheck ":OR" false],
    .group .and [
      .raw ⟨"a = ?", [.int 1]⟩,
      .group .or [.pattern "" true (.text "%"), .comparison "IN" .notEq (.text "LIKE")],
      .membership "role" false [.null, .text "admin"]]]

/-- With the leaves numbered in no order, and no field known. -/
theorem Filter.ofDocument_of_eachWrittenAs_sample :
    (∀ clause ∈ Group.namedLikeKeys.children, ¬ clause.isLeaf) ∧
    (∀ leaf ∈ Group.namedLikeKeys.leaves, ¬ leaf.EquatesNull) ∧
    Filter.ofDocument (.map [
      (.name ":OR", .map [
        (.index 7, .list [.scalar (.text ":order"), .scalar (.text "<"), .scalar .null]),
        (.name ":AND", .map []),
        (.index 7, .list [.scalar (.text "12"), .scalar (.text "NOT IN"), .list []]),
        (.index 0, .list [.scalar (.text ":OR"), .scalar (.text "IS NOT"), .scalar .null])]),
      (.name ":AND", .map [
        (.index 0, .expression ⟨"a = ?", [.int 1]⟩),
        (.name ":OR", .map [
          (.index 1, .list [.scalar (.text ""), .scalar (.text "NOT LIKE"), .scalar (.text "%")]),
          (.index 0,
            .list [.scalar (.text "IN"), .scalar (.text "!="), .scalar (.text "LIKE")])]),
        (.index 2, .list [
          .scalar (.text "role"), .scalar (.text "IN"),
          .list [.scalar .null, .scalar (.text "admin")]])])]) (some []) =
      .ok { root := .namedLikeKeys } := by
  have groups : ∀ clause ∈ Group.namedLikeKeys.children, ¬ clause.isLeaf := by decide
  have tests : ∀ leaf ∈ Group.namedLikeKeys.leaves, ¬ leaf.EquatesNull := by decide
  refine ⟨groups, tests, (ofDocument_of_eachWrittenAs _ rfl groups tests).2 _ ?_ _⟩
  refine .cons (.group (.cons (.leaf 7 rfl) ?_)) (.cons (.group (.cons (.leaf 0 rfl) ?_)) .nil)
  · exact .cons (.group .nil) (.cons (.leaf 7 rfl) (.cons (.leaf 0 rfl) .nil))
  · exact .cons (.group (.cons (.leaf 1 rfl) (.cons (.leaf 0 rfl) .nil)))
      (.cons (.leaf 2 rfl) .nil)

end FilterQuery
