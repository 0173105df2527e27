import Mathlib.Data.List.Forall2
import FilterQuery.Proofs.SearchCondition

/-!
# What a condition comes to

A condition is judged test by test, from left to right. The judgement of a row of conditions is made
of theirs, and it does not matter how the row is grouped. Alternatives are what OR stands between at
the outermost level. Main statement: with OR between two conditions the alternatives are those of
both, and with AND between them the last alternative of the one and the first of the other become
a single one, while the others stay apart.
-/

namespace FilterQuery

namespace Combinator

/-- Brackets among equal connectives change no truth. -/
theorem connect_assoc (k : Combinator) (t u w : Truth) :
    k.connect (k.connect t u) w = k.connect t (k.connect u w) := by
  cases k <;> cases t <;> cases u <;> cases w <;> rfl

@[simp] theorem neutral_connect (k : Combinator) (t : Truth) : k.connect k.neutral t = t := by
  cases k <;> cases t <;> rfl

end Combinator

/-- What each test of a condition comes to, by its number from the left and its words. Where the
same words stand twice, other values may be bound, so the two may differ. -/
abbrev Assignment := Nat → String → Truth

/-- The truth of a condition behind this many tests, and how many there are up to its end. -/
abbrev Judgement := Assignment → Nat → Truth × Nat

namespace Judgement

variable {k : Combinator}

/-- With a connective between two conditions their alternatives are merged. -/
def connect (k : Combinator) (first second : Judgement) : Judgement := fun a n =>
  let (t, n) := first a n
  let (u, n) := second a n
  (k.connect t u, n)

def neutral (k : Combinator) : Judgement := fun _ n => (k.neutral, n)

def ofRow (k : Combinator) (row : List Judgement) : Judgement := row.foldr (connect k) (neutral k)

/-- Brackets among equal connectives change no judgement, since the tests keep their order. -/
theorem connect_assoc (i j l : Judgement) :
    connect k (connect k i j) l = connect k i (connect k j l) := by
  funext a n
  simp only [connect, Combinator.connect_assoc]

/-- A row of no members behind a judgement changes nothing. -/
@[simp] theorem connect_neutral (j : Judgement) : connect k j (neutral k) = j := by
  funext a n
  simp [connect, neutral]

@[simp] theorem neutral_connect (j : Judgement) : connect k (neutral k) j = j := by
  funext a n
  simp [connect, neutral]

@[simp] theorem ofRow_nil : ofRow k [] = neutral k := rfl

@[simp] theorem ofRow_cons (j : Judgement) (row : List Judgement) :
    ofRow k (j :: row) = connect k j (ofRow k row) := rfl

theorem ofRow_singleton (j : Judgement) : ofRow k [j] = j := connect_neutral j

/-- Two rows side by side are judged like two members. -/
theorem ofRow_append (row row' : List Judgement) :
    ofRow k (row ++ row') = connect k (ofRow k row) (ofRow k row') := by
  induction row with
  | nil => exact (neutral_connect _).symm
  | cons j row ih => rw [List.cons_append, ofRow_cons, ih, ofRow_cons, connect_assoc]

end Judgement

namespace Predicate

def judgement : Predicate → Judgement
  | .test text => fun a n => (a n text, n + 1)
  | .join k left right => .connect k left.judgement right.judgement

def truthUnder (p : Predicate) (a : Assignment) : Truth := (p.judgement a 0).1

/-- Whether something is read, and judged so. -/
def Judges (read : Option Predicate) (j : Judgement) : Prop := ∃ p, read = some p ∧ p.judgement = j

variable {k : Combinator} {j j' : Judgement}

/-- A chain is judged by the judgements of its members. -/
theorem judges_chain? {reads : List (Option Predicate)} (inhabited : reads ≠ []) :
    Judges (chain? k reads) j ↔
      ∃ row, List.Forall₂ Judges reads row ∧ Judgement.ofRow k row = j := by
  induction reads generalizing j with
  | nil => exact absurd rfl inhabited
  | cons read reads ih =>
    cases reads with
    | nil => simp [chain?, List.forall₂_cons_left_iff]
    | cons next reads =>
      simp only [List.forall₂_cons_left_iff (l := next :: reads)]
      constructor
      · rintro ⟨p, chained, rfl⟩
        obtain ⟨first, readFirst, later⟩ := Option.bind_eq_some_iff.mp chained
        obtain ⟨rest, readRest, joined⟩ := Option.bind_eq_some_iff.mp later
        obtain rfl := Option.some.inj joined
        obtain ⟨row, judges, whole⟩ := (ih (by simp)).mp ⟨rest, readRest, rfl⟩
        exact ⟨_, ⟨_, row, ⟨first, readFirst, rfl⟩, judges, rfl⟩, by
          rw [Judgement.ofRow_cons, whole, judgement]⟩
      · rintro ⟨_, ⟨_, row, ⟨first, readFirst, rfl⟩, judges, rfl⟩, rfl⟩
        obtain ⟨rest, readRest, whole⟩ := (ih (by simp)).mpr ⟨row, judges, rfl⟩
        refine ⟨.join k first rest, ?_, ?_⟩
        · simp [chain?, readFirst, readRest]
        · rw [judgement, whole, Judgement.ofRow_cons]

/-- A level is judged by the stretches between its keywords. -/
theorem judges_level? {read : List Part → Option Predicate} {parts : List Part} :
    Judges (level? k read parts) j ↔
      ∃ row, List.Forall₂ (fun stretch j => Judges (read stretch) j)
        (parts.splitOnP (Part.isKeyword k)) row ∧ Judgement.ofRow k row = j := by
  rw [level?, judges_chain? (by simp [List.splitOnP_ne_nil])]
  simp only [List.forall₂_map_left_iff]

/-- Two levels with the keyword between them are judged like two members. -/
theorem Judges.level? {read : List Part → Option Predicate} {front back : List Part} {sep : Part}
    (hs : sep.isKeyword k) (hf : Judges (level? k read front) j)
    (hb : Judges (level? k read back) j') :
    Judges (level? k read (front ++ sep :: back)) (.connect k j j') := by
  obtain ⟨row, judges, rfl⟩ := judges_level?.mp hf
  obtain ⟨row', judges', rfl⟩ := judges_level?.mp hb
  refine judges_level?.mpr ⟨row ++ row', ?_, Judgement.ofRow_append row row'⟩
  rw [List.splitOnP_append_cons _ _ hs]
  exact List.rel_append judges judges'

end Predicate

/-- Two rows in which the last of the one and the first of the other become one. -/
def splice {α : Type} (f : α → α → α) : List α → List α → List α
  | [], ys => ys
  | [x], [] => [x]
  | [x], y :: ys => f x y :: ys
  | x :: next :: xs, ys => x :: splice f (next :: xs) ys

/-- Only the last of the first row takes part. -/
theorem splice_cons {α : Type} (f : α → α → α) (x : α) {xs : List α} (h : xs ≠ []) (ys : List α) :
    splice f (x :: xs) ys = x :: splice f xs ys := by
  cases xs with
  | nil => exact absurd rfl h
  | cons next xs => rfl

/-- Rows that are related member by member stay so when they are spliced. -/
theorem forall₂_splice {α β : Type} {R : α → β → Prop} {f : α → α → α} {g : β → β → β}
    (step : ∀ {x y x' y'}, R x y → R x' y' → R (f x x') (g y y')) {xs xs' : List α}
    {ys ys' : List β} (h : List.Forall₂ R xs ys) (h' : List.Forall₂ R xs' ys') :
    List.Forall₂ R (splice f xs xs') (splice g ys ys') := by
  induction h with
  | nil => exact h'
  | @cons x y xs ys own rest ih =>
    cases rest with
    | nil =>
      cases h' with
      | nil => exact .cons own .nil
      | cons own' rest' => exact .cons (step own own') rest'
    | cons => exact .cons own ih

/-- What is no place to split at joins the stretches on either side of it. -/
theorem splitOnP_append_of_not {α : Type} {p : α → Bool} {sep : α} (h : p sep = false)
    (front back : List α) : (front ++ sep :: back).splitOnP p =
      splice (fun s s' => s ++ sep :: s') (front.splitOnP p) (back.splitOnP p) := by
  induction front with
  | nil =>
    obtain ⟨s, rest, cut⟩ := List.exists_cons_of_ne_nil (List.splitOnP_ne_nil p back)
    simp [List.splitOnP_cons_eq_if_modifyHead, h, cut, splice]
  | cons x front ih =>
    rw [List.cons_append, List.splitOnP_cons_eq_if_modifyHead, List.splitOnP_cons_eq_if_modifyHead,
      ih]
    obtain ⟨s, rest, cut⟩ := List.exists_cons_of_ne_nil (List.splitOnP_ne_nil p front)
    obtain ⟨s', rest', cut'⟩ := List.exists_cons_of_ne_nil (List.splitOnP_ne_nil p back)
    split
    · rw [splice_cons _ _ (List.splitOnP_ne_nil p front)]
    · rw [cut, cut']
      cases rest <;> rfl

/-- What the stretches between the ORs are judged. -/
def Alternatives (parts : List Part) (rows : List Judgement) : Prop :=
  List.Forall₂
    (fun stretch j => Predicate.Judges (Predicate.level? .and Predicate.operand? stretch) j)
    (parts.splitOnP (Part.isKeyword .or)) rows

namespace Alternatives

open Predicate

variable {parts parts' : List Part} {rows rows' : List Judgement} {j : Judgement}

/-- A condition is judged by its alternatives. -/
theorem judges_ofParts? : Judges (ofParts? parts) j ↔
    ∃ rows, Alternatives parts rows ∧ Judgement.ofRow .or rows = j := judges_level?

/-- The alternatives with a connective between two conditions. -/
def merge : Combinator → List Judgement → List Judgement → List Judgement
  | .and => splice (Judgement.connect .and)
  | .or => (· ++ ·)

theorem connect (k : Combinator) (h : Alternatives parts rows) (h' : Alternatives parts' rows') :
    Alternatives (parts ++ .word k.keyword :: parts') (merge k rows rows') := by
  cases k with
  | and =>
    rw [Alternatives, splitOnP_append_of_not (by decide)]
    exact forall₂_splice (fun own own' => own.level? (by decide) own') h h'
  | or =>
    rw [Alternatives, List.splitOnP_append_cons _ _ (by decide)]
    exact List.rel_append h h'

/-- Without an OR there is one alternative. -/
theorem exists_singleton (h : Alternatives parts rows)
    (free : ∀ part ∈ parts, part.isKeyword .or = false) : ∃ j, rows = [j] := by
  rw [Alternatives, List.splitOnP_eq_singleton free] at h
  cases h with
  | cons own rest =>
    cases rest
    exact ⟨_, rfl⟩

theorem parenthesis {text : List Char} {inside : Option Predicate} (h : Judges inside j) :
    Alternatives [.parenthesis text inside] [j] := .cons h .nil

end Alternatives

end FilterQuery
