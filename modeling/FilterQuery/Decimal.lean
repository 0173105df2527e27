/-!
# Whole numbers in decimal

A natural number is written with its decimal digits, most significant first, and no leading zero
but in `0` itself. Reading takes any run of ASCII digits, leading zeros included, and keeps what
fits a sixty-four bit word. A reader that has to explain itself stops at the first fault from the
left; one that only decides looks at the run as a whole.
-/

namespace FilterQuery.Decimal

def text (n : Nat) : String := String.ofList (Nat.toDigits 10 n)

def signedText (i : Int) : String :=
  if i < 0 then "-" ++ text i.natAbs else text i.natAbs

/-- The number that a run of ASCII digits denotes. -/
def value (digits : List Char) : Nat := Nat.ofDigitChars 10 digits 0

@[simp] theorem toList_text (n : Nat) : (text n).toList = Nat.toDigits 10 n := by simp [text]

@[simp] theorem value_toDigits (n : Nat) : value (Nat.toDigits 10 n) = n := by simp [value]

/-- At least one character, and ASCII digits throughout. -/
def isRun (cs : List Char) : Bool := !cs.isEmpty && cs.all Char.isDigit

/-- The word that a run of digits denotes, if it is one and the number fits. -/
def word? (cs : List Char) : Option UInt64 :=
  if isRun cs && value cs < UInt64.size then some (.ofNat (value cs)) else none

theorem isRun_toDigits (n : Nat) : isRun (Nat.toDigits 10 n) := by
  simp only [isRun, Bool.and_eq_true, Bool.not_eq_true', List.isEmpty_eq_false_iff, ne_eq,
    Nat.toDigits_ne_nil, not_false_eq_true, List.all_eq_true, true_and]
  intro c h
  exact Nat.isDigit_of_mem_toDigits (b := 10) (by decide) (by decide) h

/-- Whether a text is a run of digits after at most one sign, within the signed words. -/
def isSignedWord : List Char → Bool
  | '-' :: digits => isRun digits && value digits ≤ 1 <<< 63
  | '+' :: digits => isRun digits && value digits < 1 <<< 63
  | digits => isRun digits && value digits < 1 <<< 63

/-- Why a text is no word. -/
inductive Fault where
  | empty
  | invalidDigit
  | tooLarge
  deriving DecidableEq, Repr

def Fault.message : Fault → String
  | .empty => "cannot parse integer from empty string"
  | .invalidDigit => "invalid digit found in string"
  | .tooLarge => "number too large to fit in target type"

/-- Digit by digit from `n`: what is no digit is refused before its size is looked at. -/
def readFrom (n : Nat) : List Char → Except Fault UInt64
  | [] => .ok (.ofNat n)
  | c :: cs =>
    if c.isDigit then
      let next := 10 * n + (c.toNat - '0'.toNat)
      if next < UInt64.size then readFrom next cs else .error .tooLarge
    else .error .invalidDigit

/-- Reads a word; one plus sign may stand in front of its digits. -/
def read : List Char → Except Fault UInt64
  | [] => .error .empty
  | ['+'] => .error .invalidDigit
  | '+' :: digits => readFrom 0 digits
  | digits => readFrom 0 digits

end FilterQuery.Decimal
