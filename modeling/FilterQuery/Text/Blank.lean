/-!
# White space

The twenty-five code points that have the Unicode property White_Space, and the two things that
text does with them: it is trimmed at both ends, and it is cut into words.
-/

namespace FilterQuery.Text

def isBlank (c : Char) : Bool :=
  let n := c.toNat
  (0x09 ≤ n && n ≤ 0x0D) || n == 0x20 || n == 0x85 || n == 0xA0 || n == 0x1680 ||
    (0x2000 ≤ n && n ≤ 0x200A) || n == 0x2028 || n == 0x2029 || n == 0x202F ||
    n == 0x205F || n == 0x3000

def trim (cs : List Char) : List Char :=
  ((cs.dropWhile isBlank).reverse.dropWhile isBlank).reverse

/-- The words still to come, after the letters of the word begun, last letter first. -/
def wordsAfter (begun : List Char) : List Char → List (List Char)
  | [] => if begun.isEmpty then [] else [begun.reverse]
  | c :: cs =>
    if isBlank c then
      if begun.isEmpty then wordsAfter [] cs else begun.reverse :: wordsAfter [] cs
    else wordsAfter (c :: begun) cs

/-- The longest stretches without white space, from left to right. -/
def words (cs : List Char) : List (List Char) := wordsAfter [] cs

/-- The same words with one space between neighbours and none outside. -/
def spaced (cs : List Char) : List Char := List.intercalate [' '] (words cs)

end FilterQuery.Text
