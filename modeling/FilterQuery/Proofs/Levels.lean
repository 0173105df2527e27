/-!
# Levels

Rows with parentheses in them are read with a stack of levels, one for each parenthesis that is
open. The reader knows nothing of what the items at a level are, so that it serves for characters
and for words alike; what becomes of a parenthesis when it is closed is left to those who use it.

Main statement: a row that closes all its parentheses, and no other, is read alike at every level,
whatever stands before it.
-/

namespace FilterQuery

/-- A row as the reader takes it: items, and parentheses between them. -/
inductive Mark (α : Type) where
  | item (a : α)
  | opening
  | closing
  deriving DecidableEq, Repr

/-- The items read at the level that is open, and at those around it, the nearest first. -/
structure Levels (α : Type) where
  here : List α := []
  outside : List (List α) := []

namespace Levels

variable {α : Type} (enclose : List α → α)

def add (n : Levels α) (items : List α) : Levels α := { n with here := n.here ++ items }

@[simp] theorem add_add (n : Levels α) (front back : List α) :
    (n.add front).add back = n.add (front ++ back) := by simp [add]

@[simp] theorem add_nil (n : Levels α) : n.add [] = n := by simp [add]

/-- A parenthesis becomes an item of the level around it when it is closed. -/
def take : Levels α → Mark α → Option (Levels α)
  | n, .item a => some (n.add [a])
  | n, .opening => some ⟨[], n.here :: n.outside⟩
  | ⟨here, outer :: outside⟩, .closing => some ((⟨outer, outside⟩ : Levels α).add [enclose here])
  | ⟨_, []⟩, .closing => none

def takeAll (n : Levels α) (row : List (Mark α)) : Option (Levels α) := row.foldlM (take enclose) n

/-- A row as a whole, all its parentheses closed. -/
def read? (row : List (Mark α)) : Option (List α) :=
  match takeAll enclose {} row with
  | some ⟨items, []⟩ => some items
  | _ => none

/-- These levels with the others around them: the outermost goes on where the innermost of the
others is. -/
def within (base : Levels α) : List α → List (List α) → Levels α
  | here, [] => base.add here
  | here, outer :: outside =>
    let around := within base outer outside
    ⟨here, around.here :: around.outside⟩

variable {enclose} {base n n' : Levels α}

theorem within_add (here : List α) (outside : List (List α)) (items : List α) :
    within base (here ++ items) outside = (within base here outside).add items := by
  cases outside with
  | nil => simp [within]
  | cons outer outside => rfl

/-- One mark does the same to levels that stand within others. -/
theorem take_within {mark : Mark α} (h : take enclose n mark = some n') :
    take enclose (within base n.here n.outside) mark = some (within base n'.here n'.outside) := by
  obtain ⟨here, outside⟩ := n
  cases mark with
  | item a =>
    obtain rfl := Option.some.inj h
    exact congrArg some (within_add here outside [a]).symm
  | opening =>
    obtain rfl := Option.some.inj h
    rfl
  | closing =>
    cases outside with
    | nil => cases h
    | cons outer outside =>
      obtain rfl := Option.some.inj h
      exact congrArg some (within_add outer outside [enclose here]).symm

/-- What a row does to the levels it opens itself, it does wherever it stands. -/
theorem takeAll_within {row : List (Mark α)} (h : takeAll enclose n row = some n') :
    takeAll enclose (within base n.here n.outside) row =
      some (within base n'.here n'.outside) := by
  induction row generalizing n with
  | nil =>
    obtain rfl := Option.some.inj h
    rfl
  | cons mark row ih =>
    rw [takeAll, List.foldlM_cons] at h
    obtain ⟨next, taken, rest⟩ := Option.bind_eq_some_iff.mp h
    rw [takeAll, List.foldlM_cons, take_within taken]
    exact ih rest

end Levels

/-- A row that adds these items to whatever level it stands at. -/
def Nests {α : Type} (enclose : List α → α) (row : List (Mark α)) (items : List α) : Prop :=
  ∀ n : Levels α, n.takeAll enclose row = some (n.add items)

namespace Nests

variable {α : Type} {enclose : List α → α} {row front back : List (Mark α)} {items more : List α}

theorem nil : Nests enclose [] [] := fun n => congrArg some n.add_nil.symm

theorem item (a : α) : Nests enclose [.item a] [a] := fun _ => rfl

/-- Two rows that nest, one after another, nest. -/
theorem append (hf : Nests enclose front items) (hb : Nests enclose back more) :
    Nests enclose (front ++ back) (items ++ more) := by
  intro n
  have first : front.foldlM (Levels.take enclose) n = some (n.add items) := hf n
  have second : back.foldlM (Levels.take enclose) (n.add items) = _ := hb (n.add items)
  simp [Levels.takeAll, first, second]

/-- A row in parentheses adds one item, whatever it adds without them. -/
theorem parenthesis (h : Nests enclose row items) :
    Nests enclose (.opening :: row ++ [.closing]) [enclose items] := by
  intro n
  have inside : row.foldlM (Levels.take enclose) ⟨[], n.here :: n.outside⟩ = _ :=
    h ⟨[], n.here :: n.outside⟩
  simp [Levels.takeAll, Levels.take, inside, Levels.add]

/-- To read a row as a whole is to read it anywhere. -/
theorem iff_read? : Nests enclose row items ↔ Levels.read? enclose row = some items := by
  constructor
  · intro h
    simp [Levels.read?, h {}, Levels.add]
  · intro h n
    unfold Levels.read? at h
    split at h
    · next items' taken =>
      obtain rfl := Option.some.inj h
      have placed : Levels.takeAll enclose (Levels.within n [] []) row =
          some (Levels.within n items' []) := Levels.takeAll_within taken
      simpa [Levels.within] using placed
    · cases h

end Nests

end FilterQuery
