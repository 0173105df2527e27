/-!
# Letter case, as far as it reaches ASCII

Keywords are ASCII words, and a text matches one of them if its upper-case (or lower-case) form is
that word. Only characters whose form is made of ASCII letters can take part in a match, and these
are the ones mapped here: the ASCII letters themselves and the few others that Unicode sends to
them. Every other character stands for itself, and since it is not ASCII it spoils the match just
as its true form would.
-/

namespace FilterQuery.Text

/-- The upper-case form of a character, where that form is ASCII. -/
def upperForm (c : Char) : List Char :=
  if c.isLower then [c.toUpper]
  else match c.toNat with
    | 0xDF => ['S', 'S']
    | 0x131 => ['I']
    | 0x17F => ['S']
    | 0xFB00 => ['F', 'F']
    | 0xFB01 => ['F', 'I']
    | 0xFB02 => ['F', 'L']
    | 0xFB03 => ['F', 'F', 'I']
    | 0xFB04 => ['F', 'F', 'L']
    | 0xFB05 => ['S', 'T']
    | 0xFB06 => ['S', 'T']
    | _ => [c]

/-- The lower-case form of a character, where that form is ASCII: beside the capital letters,
the Kelvin sign. -/
def lowerForm (c : Char) : List Char :=
  if c.isUpper then [c.toLower] else if c.toNat = 0x212A then ['k'] else [c]

def upper (cs : List Char) : List Char := cs.flatMap upperForm

def lower (cs : List Char) : List Char := cs.flatMap lowerForm

/-- The text with its ASCII capitals made small and all else untouched. -/
def asciiLower (cs : List Char) : List Char := cs.map Char.toLower

end FilterQuery.Text
