/-!
# Double-precision numbers on an exact scale

A double is its sixty-four bits. Every finite one is a whole number of the smallest positive
double, 2^-1074, so sizes are compared as integers in that unit and nothing is rounded. The same
reading of the bits puts the infinities at 2^2098 units, just beyond the finite doubles, and the
order sets every NaN one unit higher still: NaN comes last and all NaNs are equal, as the two
zeros are.

An integer meets a double on the same scale after it is rounded to fifty-three significant bits,
a tie going to the even neighbour.
-/

namespace FilterQuery

structure Binary64 where
  bits : UInt64
  deriving DecidableEq, Repr

namespace Binary64

def nan : Binary64 := ⟨0x7FF8000000000000⟩

variable (x y : Binary64)

def isNegative : Bool := 1 <<< 63 ≤ x.bits.toNat
def exponentField : Nat := (x.bits.toNat >>> 52) % 2048
def fraction : Nat := x.bits.toNat % (1 <<< 52)
def isFinite : Bool := x.exponentField != 2047
def isNaN : Bool := x.exponentField == 2047 && x.fraction != 0

/-- The fraction behind its implicit leading bit, which the smallest doubles lack. -/
def significand : Nat := if x.exponentField = 0 then x.fraction else (1 <<< 52) + x.fraction

/-- The power of two, in units of 2^-1074, that the significand counts. -/
def scale : Nat := x.exponentField - 1

/-- The size in units of 2^-1074. -/
def magnitude : Nat := x.significand <<< x.scale

/-- The place in the order of all doubles. -/
def orderKey : Int :=
  if x.isNaN then ((1 <<< 2098) + 1 : Nat)
  else if x.isNegative then -(x.magnitude : Int)
  else x.magnitude

def compare : Ordering := Ord.compare x.orderKey y.orderKey

/-- Numerical equality: the zeros are equal, and a NaN equals nothing. -/
def sameNumber : Bool := !x.isNaN && !y.isNaN && x.orderKey == y.orderKey

/-- The nearest number with at most fifty-three significant bits, ties to even. -/
def nearest53 (n : Nat) : Nat :=
  let unit := 1 <<< (n.log2 - 52)
  let down := n / unit
  let rest := n % unit
  (if unit < 2 * rest || (2 * rest == unit && down % 2 == 1) then down + 1 else down) * unit

/-- Whole numbers of at most fifty-three bits are not rounded. -/
theorem nearest53_of_lt {n : Nat} (h : n < 1 <<< 53) : nearest53 n = n := by
  have unit : n.log2 - 52 = 0 := by
    by_cases zero : n = 0
    · simp [zero]
    · rw [Nat.one_shiftLeft] at h
      have := (Nat.log2_lt zero).mpr h
      omega
  simp [nearest53, unit, Nat.mod_one]

/-- The place of an integer in the order of all doubles. -/
def orderKeyOfInt (i : Int) : Int :=
  (if i < 0 then -(nearest53 i.natAbs : Int) else nearest53 i.natAbs) * (1 <<< 1074 : Nat)

/-- The double nearest to a natural number of at most a thousand bits. -/
def ofNat (n : Nat) : Binary64 :=
  let size := nearest53 n
  if size = 0 then ⟨0⟩
  else
    let significand := (size <<< 52) >>> size.log2
    ⟨.ofNat (((size.log2 + 1023) <<< 52) + (significand - (1 <<< 52)))⟩

/-- The double nearest to an integer of at most a thousand bits. -/
def ofInt (i : Int) : Binary64 :=
  if i < 0 then ⟨.ofNat (1 <<< 63) ||| (ofNat i.natAbs).bits⟩ else ofNat i.natAbs

end Binary64

end FilterQuery
