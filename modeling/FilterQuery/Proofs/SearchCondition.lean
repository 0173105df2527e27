import FilterQuery.Proofs.Parenthesis
import FilterQuery.Proofs.Predicate

/-!
# Conditions with quoted text and ranges

Fragments of SQL hold more than words and parentheses. Text between quotation marks is part of a
word, whatever stands in it. A range has an AND of its own, the one that BETWEEN waits for, and
everything from CASE to its END stays together. With these made into single words, a condition is
read by the rule of `Predicate`: AND binds tighter than OR, and parentheses come first. What NOT
governs is one test with it, since NOT binds tighter than AND.

Main statements: a condition made of two with a connective between them has the parts of both, and
a condition in parentheses is one part of what stands around it.
-/

namespace FilterQuery

namespace Part

/-- The words that are awaited once this part is read, the next one first. -/
def await (awaited : List (List Char)) : Part → List (List Char)
  | .parenthesis _ _ => awaited
  | .word letters =>
    let word := letters.map Char.toUpper
    if awaited.head? = some word then awaited.tail
    else if word = ['B', 'E', 'T', 'W', 'E', 'E', 'N'] then Combinator.and.keyword :: awaited
    else if word = ['C', 'A', 'S', 'E'] then ['E', 'N', 'D'] :: awaited
    else awaited

/-- Several parts as one word. -/
def together : List Part → Part
  | [part] => part
  | parts => .word (textOf parts)

@[simp] theorem together_singleton (part : Part) : together [part] = part := rfl

/-- The parts still to come, after those held back until every awaited word is read. -/
def boundAfter? (awaited : List (List Char)) (held : List Part) : List Part → Option (List Part)
  | [] => if held.isEmpty then some [] else none
  | part :: rest =>
    let later := part.await awaited
    if later.isEmpty then (boundAfter? [] [] rest).map (together (held ++ [part]) :: ·)
    else boundAfter? later (held ++ [part]) rest

/-- Ranges and cases made into words; each of them has to come to its end. -/
def bound? (parts : List Part) : Option (List Part) := boundAfter? [] [] parts

/-- A part that awaits nothing parts a row, if all that is awaited before it has come. -/
theorem boundAfter?_append {part : Part} (free : part.await [] = []) {awaited : List (List Char)}
    {held front bound : List Part} (idle : held = [] → awaited = [])
    (read : boundAfter? awaited held front = some bound) (back : List Part) :
    boundAfter? awaited held (front ++ part :: back) =
      (bound? back).map (bound ++ part :: ·) := by
  induction front generalizing awaited held bound with
  | nil =>
    by_cases none : held = []
    · obtain rfl := idle none
      subst none
      obtain rfl : [] = bound := by simpa [boundAfter?] using read
      simp [boundAfter?, free, bound?]
    · simp [boundAfter?, none] at read
  | cons first front ih =>
    simp only [List.cons_append, boundAfter?] at read ⊢
    split at read
    · next done =>
      obtain ⟨rest, readRest, rfl⟩ := Option.map_eq_some_iff.mp read
      rw [if_pos done, ih (fun _ => rfl) readRest, Option.map_map]
      rfl
    · next open' =>
      rw [if_neg open']
      exact ih (by simp) read

/-- A connective between two rows leaves each of them bound as it was. -/
theorem bound?_append {part : Part} (free : part.await [] = [])
    {front back bound bound' : List Part} (hf : bound? front = some bound)
    (hb : bound? back = some bound') :
    bound? (front ++ part :: back) = some (bound ++ part :: bound') := by
  rw [bound?, boundAfter?_append free (fun _ => rfl) hf, hb]
  rfl

end Part

namespace SearchCondition

/-- The marks that enclose a string or a quoted name. -/
def isQuotation (c : Char) : Bool := c.toNat == 0x22 || c.toNat == 0x27 || c.toNat == 0x60

def isBreak (c : Char) : Bool := Text.isBlank c || c == '(' || c == ')'

def ofBreak (c : Char) : List (Mark Part) :=
  if c = '(' then [.opening] else if c = ')' then [.closing] else []

def ofLetters (letters : List Char) : List (Mark Part) :=
  if letters.isEmpty then [] else [.item (.word letters)]

/-- The row still to come, after the letters of the word begun and the quotation mark that it
takes to go on. A doubled quotation mark closes and opens, so it needs no rule of its own. -/
def rowAfter? (begun : List Char) : Option Char → List Char → Option (List (Mark Part))
  | none, [] => some (ofLetters begun)
  | some _, [] => none
  | some quotation, c :: cs =>
    rowAfter? (begun ++ [c]) (if c = quotation then none else some quotation) cs
  | none, c :: cs =>
    if isBreak c then (rowAfter? [] none cs).map (ofLetters begun ++ ofBreak c ++ ·)
    else rowAfter? (begun ++ [c]) (if isQuotation c then some c else none) cs

def row? (cs : List Char) : Option (List (Mark Part)) := rowAfter? [] none cs

/-- Text on either side of a break is cut for itself, if all quotation marks are closed. -/
theorem rowAfter?_append {c : Char} (h : isBreak c) {begun front : List Char}
    {quotation : Option Char} {row : List (Mark Part)}
    (read : rowAfter? begun quotation front = some row) (back : List Char) :
    rowAfter? begun quotation (front ++ c :: back) =
      (row? back).map (row ++ ofBreak c ++ ·) := by
  induction front generalizing begun quotation row with
  | nil =>
    cases quotation with
    | some q => cases read
    | none =>
      obtain rfl := Option.some.inj read
      simp [rowAfter?, h, row?]
  | cons d front ih =>
    cases quotation with
    | some q => exact ih read
    | none =>
      simp only [List.cons_append, rowAfter?] at read ⊢
      split at read
      · next between =>
        obtain ⟨rest, readRest, rfl⟩ := Option.map_eq_some_iff.mp read
        rw [if_pos between, ih readRest, Option.map_map]
        simp [Function.comp_def]
      · next within =>
        rw [if_neg within]
        exact ih read

/-- Text without an open quotation mark is cut for itself, and so is the text behind it. -/
theorem row?_append {c : Char} (h : isBreak c) {front back : List Char}
    {row row' : List (Mark Part)} (hf : row? front = some row) (hb : row? back = some row') :
    row? (front ++ c :: back) = some (row ++ ofBreak c ++ row') := by
  rw [row?, rowAfter?_append h hf, hb]
  rfl

/-- A parenthesis with what it says if it is read as a condition. -/
def enclose (parts : List Part) : Part :=
  .parenthesis (Part.textOf parts) ((Part.bound? parts).bind Predicate.ofParts?)

/-- The parts that a condition consists of at its outermost level. -/
def parts? (text : String) : Option (List Part) := do
  let row ← row? text.toList
  let parts ← Levels.read? enclose row
  Part.bound? parts

/-- A condition as a text, read whole. -/
def read? (text : String) : Option Predicate := (parts? text).bind Predicate.ofParts?

example : read? "a BETWEEN ? AND ? AND (b = 'x OR (y' OR c)" =
    some (.join .and (.test "a BETWEEN ? AND ?")
      (.join .or (.test "b = 'x OR (y'") (.test "c"))) := by
  decide +kernel

/-- The parts of a text: its row, read at any level, with ranges and cases made into words. -/
theorem parts?_eq_some {text : String} {parts : List Part} :
    parts? text = some parts ↔ ∃ row own, row? text.toList = some row ∧
      Nests enclose row own ∧ Part.bound? own = some parts := by
  simp only [parts?, Option.bind_eq_bind, Option.bind_eq_some_iff, Nests.iff_read?]
  constructor
  · rintro ⟨row, cut, own, read, bound⟩
    exact ⟨row, own, cut, read, bound⟩
  · rintro ⟨row, own, cut, read, bound⟩
    exact ⟨row, cut, own, read, bound⟩

variable {s t : String} {front back : List Part}

/-- A condition made of two with a connective between them has the parts of both. -/
theorem parts?_connect (k : Combinator) (hs : parts? s = some front) (ht : parts? t = some back) :
    parts? (s ++ k.joiner ++ t) = some (front ++ .word k.keyword :: back) := by
  obtain ⟨row, own, cut, nests, bound⟩ := parts?_eq_some.mp hs
  obtain ⟨row', own', cut', nests', bound'⟩ := parts?_eq_some.mp ht
  have word : row? k.keyword = some [.item (.word k.keyword)] := by cases k <;> rfl
  have space : isBreak ' ' := by decide
  have written : (s ++ k.joiner ++ t).toList =
      s.toList ++ ' ' :: (k.keyword ++ ' ' :: t.toList) := by
    cases k <;> simp [Combinator.joiner, Combinator.keyword]
  have free : (Part.word k.keyword).await [] = [] := by cases k <;> decide
  have keyword : Nests enclose [.item (.word k.keyword)] [.word k.keyword] := .item _
  have whole : row? (s ++ k.joiner ++ t).toList =
      some (row ++ .item (.word k.keyword) :: row') := by
    simpa [written, ofBreak] using row?_append space cut (row?_append space word cut')
  exact parts?_eq_some.mpr ⟨_, own ++ .word k.keyword :: own', whole,
    nests.append (keyword.append nests'), Part.bound?_append free bound bound'⟩

theorem parts?_enclose (hs : parts? s = some front) :
    ∃ text, parts? ("(" ++ s ++ ")") = some [.parenthesis text (Predicate.ofParts? front)] := by
  obtain ⟨row, own, cut, nests, bound⟩ := parts?_eq_some.mp hs
  have whole : Part.bound? [enclose own] = some [enclose own] := rfl
  have inside : enclose own = .parenthesis (Part.textOf own) (Predicate.ofParts? front) := by
    rw [enclose, bound]
    rfl
  refine ⟨Part.textOf own, parts?_eq_some.mpr ⟨.opening :: row ++ [.closing], [enclose own], ?_,
    nests.parenthesis, by rw [whole, inside]⟩⟩
  · have closed : row? (s.toList ++ [')']) = some (row ++ [.closing] ++ []) :=
      row?_append (by decide) cut rfl
    have opened : row? ([] ++ '(' :: (s.toList ++ [')'])) = some ([] ++ [.opening] ++ _) :=
      row?_append (by decide) rfl closed
    simpa using opened

end SearchCondition

end FilterQuery
