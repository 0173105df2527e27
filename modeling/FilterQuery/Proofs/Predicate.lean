import FilterQuery.Proofs.Levels
import FilterQuery.Query

/-!
# Reading a condition

A condition is read by the ordinary rule: what stands in parentheses first, and AND binds tighter
than OR. Its text is cut into words and parentheses, every parenthesis is read as soon as it is
closed, and a row of parts is split at the ORs and then at the ANDs. What is left between two of
them is a parenthesis of its own or the words of one test. A list behind IN is no such parenthesis,
since words stand before it.

The placeholders of a test take their values from the front of a list, and the tests go from left
to right. Truth has three values, and the connectives are Kleene's.
-/

namespace FilterQuery

inductive Truth where
  | no
  | unknown
  | yes
  deriving DecidableEq, Repr

namespace Truth

def and : Truth → Truth → Truth
  | .no, _ | _, .no => .no
  | .yes, .yes => .yes
  | _, _ => .unknown

def or : Truth → Truth → Truth
  | .yes, _ | _, .yes => .yes
  | .no, .no => .no
  | _, _ => .unknown

end Truth

namespace Combinator

def connect : Combinator → Truth → Truth → Truth
  | .and => Truth.and
  | .or => Truth.or

/-- The truth of a row without members. -/
def neutral : Combinator → Truth
  | .and => .yes
  | .or => .no

/-- The truth of no members changes nothing. -/
@[simp] theorem connect_neutral (k : Combinator) (t : Truth) : k.connect t k.neutral = t := by
  cases k <;> cases t <;> rfl

def keyword : Combinator → List Char
  | .and => ['A', 'N', 'D']
  | .or => ['O', 'R']

end Combinator

/-- A condition as it is read. -/
inductive Predicate where
  | test (text : String)
  | join (combinator : Combinator) (left right : Predicate)
  deriving DecidableEq, Repr

inductive Token where
  | word (letters : List Char)
  | opening
  | closing
  | quote
  deriving DecidableEq, Repr

namespace Token

def isQuote (c : Char) : Bool := c.toNat == 0x22 || c.toNat == 0x27

/-- Whether a character belongs to no word. -/
def isMark (c : Char) : Bool := Text.isBlank c || isQuote c || c == '(' || c == ')'

def ofMark (c : Char) : List Token :=
  if isQuote c then [.quote]
  else if c = '(' then [.opening]
  else if c = ')' then [.closing]
  else []

def ofLetters (letters : List Char) : List Token := if letters.isEmpty then [] else [.word letters]

/-- The tokens still to come, after the letters of the word begun. -/
def listAfter (begun : List Char) : List Char → List Token
  | [] => ofLetters begun
  | c :: cs =>
    if isMark c then ofLetters begun ++ ofMark c ++ listAfter [] cs
    else listAfter (begun ++ [c]) cs

def list (cs : List Char) : List Token := listAfter [] cs

/-- Text on either side of a mark is cut for itself. -/
theorem listAfter_mark {c : Char} (h : isMark c) (begun front back : List Char) :
    listAfter begun (front ++ c :: back) = listAfter begun front ++ ofMark c ++ list back := by
  induction front generalizing begun with
  | nil => simp [listAfter, h, list]
  | cons d front ih =>
    simp only [List.cons_append, listAfter]
    by_cases hd : isMark d
    · simp [hd, ih]
    · simpa [hd] using ih (begun ++ [d])

/-- A mark cuts a text into what is before it and what is behind it. -/
theorem list_mark {c : Char} (h : isMark c) (front back : List Char) :
    list (front ++ c :: back) = list front ++ ofMark c ++ list back :=
  listAfter_mark h [] front back

/-- Letters without a mark among them are one word. -/
theorem listAfter_letters {letters : List Char} (h : ∀ c ∈ letters, isMark c = false)
    (begun : List Char) : listAfter begun letters = ofLetters (begun ++ letters) := by
  induction letters generalizing begun with
  | nil => simp [listAfter]
  | cons c letters ih =>
    simp only [List.mem_cons, forall_eq_or_imp] at h
    simp [listAfter, h.1, ih h.2]

end Token

theorem intercalate_space (word : List Char) (words : List (List Char)) :
    List.intercalate [' '] (word :: words) = word ++ words.flatMap (' ' :: ·) := by
  induction words generalizing word with
  | nil => simp
  | cons next words ih =>
    rw [List.intercalate_cons_cons, ih next]
    simp

/-- A word, or a parenthesis with what it says if it is read as a condition. -/
inductive Part where
  | word (letters : List Char)
  | parenthesis (text : List Char) (inside : Option Predicate)

namespace Part

def text : Part → List Char
  | .word letters => letters
  | .parenthesis text _ => '(' :: text ++ [')']

/-- The parts with one space between neighbours. -/
def textOf (parts : List Part) : List Char := List.intercalate [' '] (parts.map text)

@[simp] theorem textOf_singleton (part : Part) : textOf [part] = part.text := by simp [textOf]

/-- Two rows of parts stand side by side with a space between them. -/
theorem textOf_append {front back : List Part} (hf : front ≠ []) (hb : back ≠ []) :
    textOf (front ++ back) = textOf front ++ ' ' :: textOf back := by
  obtain ⟨part, front, rfl⟩ := List.exists_cons_of_ne_nil hf
  obtain ⟨part', back, rfl⟩ := List.exists_cons_of_ne_nil hb
  simp [textOf, intercalate_space]

/-- Whether a part is the keyword of a combinator, in any letter case. -/
def isKeyword (k : Combinator) : Part → Bool
  | .word letters => letters.map Char.toUpper == k.keyword
  | .parenthesis _ _ => false

end Part

namespace Predicate

def chain? (k : Combinator) : List (Option Predicate) → Option Predicate
  | [] => none
  | [p] => p
  | p :: rest => do return .join k (← p) (← chain? k rest)

/-- Splits a row at one keyword and reads each stretch between. -/
def level? (k : Combinator) (read : List Part → Option Predicate) (parts : List Part) :
    Option Predicate := chain? k ((parts.splitOnP (Part.isKeyword k)).map read)

def operand? : List Part → Option Predicate
  | [] => none
  | [.parenthesis _ inside] => inside
  | parts => some (.test (String.ofList (Part.textOf parts)))

def ofParts? : List Part → Option Predicate := level? .or (level? .and operand?)

end Predicate

/-- A token in a row. What stands in quotes is not read at all. -/
def Token.mark? : Token → Option (Mark Part)
  | .word letters => some (.item (.word letters))
  | .opening => some .opening
  | .closing => some .closing
  | .quote => none

namespace Predicate

/-- A parenthesis is read as a condition when it is closed. -/
def enclose (parts : List Part) : Part := .parenthesis (Part.textOf parts) (ofParts? parts)

/-- A condition as a text, read whole: every parenthesis in it is closed again. -/
def ofText? (text : String) : Option Predicate := do
  let row ← (Token.list text.toList).mapM Token.mark?
  let parts ← Levels.read? enclose row
  ofParts? parts

example : ofText? "a = ? OR b IN (?, ?) AND (c = ?)" =
    some (.join .or (.test "a = ?") (.join .and (.test "b IN (?, ?)") (.test "c = ?"))) := by
  decide +kernel

end Predicate

/-- What each test comes to with its values. The constant tests are what they look like. -/
structure Valuation where
  truth : String → List Value → Truth
  always : truth "1 = 1" [] = .yes
  never : truth "1 = 0" [] = .no

namespace Predicate

/-- The truth of a condition with its values from the front of a list, and the values left. -/
def truth? (v : Valuation) : Predicate → List Value → Option (Truth × List Value)
  | .test text, values =>
    let count := text.toList.count '?'
    if count ≤ values.length then some (v.truth text (values.take count), values.drop count)
    else none
  | .join k left right, values => do
    let (t, rest) ← left.truth? v values
    let (u, rest) ← right.truth? v rest
    return (k.connect t u, rest)

end Predicate

end FilterQuery
