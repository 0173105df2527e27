import FilterQuery.Binary64
import FilterQuery.Decimal

/-!
# The shortest decimal that reads back

A positive double stands for every real number nearer to it than to its neighbours, the two ends
of that interval included if its significand is even. Among the decimals in the interval those
with the fewest digits are wanted, and of these the one nearest to the double, the larger one on a
tie. With n digits a candidate is one of the two neighbours of the double on a decimal grid, so
the grids for 1, 2, … 17 digits are tried in turn. All of it is done on whole numbers: lengths are
counted in quarters of the smallest positive double, 2^-1076.

The text is positional at every size, without an exponent, and whole numbers have no point.
-/

namespace FilterQuery.Binary64

/-- The reals that round to a positive double, in units of 2^-1076. -/
structure Interval where
  low : Nat
  centre : Nat
  high : Nat
  closed : Bool
  deriving DecidableEq, Repr

/-- The neighbour below is only half as far away where the exponent changes. -/
def interval (x : Binary64) : Interval :=
  let unit := 1 <<< x.scale
  let m := x.significand
  { low := (if m = 1 <<< 52 && x.scale != 0 then 4 * m - 1 else 4 * m - 2) * unit
    centre := 4 * m * unit
    high := (4 * m + 2) * unit
    closed := m % 2 == 0 }

/-- A decimal `digits · 10^exponent`. -/
structure Scientific where
  digits : Nat
  exponent : Int
  deriving DecidableEq, Repr

/-- Comparing with `d · 10^k` is comparing `d · denominator k` with a length taken
`numerator k` times. -/
def numerator (k : Int) : Nat := Nat.pow 10 (-k).toNat

def denominator (k : Int) : Nat := Nat.pow 10 k.toNat <<< 1076

def Interval.holds (r : Interval) (k : Int) (d : Nat) : Bool :=
  let point := d * denominator k
  let low := r.low * numerator k
  let high := r.high * numerator k
  if r.closed then low ≤ point && point ≤ high else low < point && point < high

/-- The better of the centre's two neighbours on the grid of multiples of 10^k, if one lies in
the interval. -/
def Interval.onGrid? (r : Interval) (k : Int) : Option Scientific :=
  let length := r.centre * numerator k
  let down := length / denominator k
  let rest := length % denominator k
  match r.holds k down, r.holds k (down + 1) with
  | true, true => some ⟨if denominator k ≤ 2 * rest then down + 1 else down, k⟩
  | true, false => some ⟨down, k⟩
  | false, true => some ⟨down + 1, k⟩
  | false, false => none

/-- The exponent e with 10^(e-1) ≤ centre < 10^e: no double is below 10^-400. -/
def Interval.exponent (r : Interval) : Int :=
  (Nat.toDigits 10 ((r.centre * Nat.pow 10 400) >>> 1076)).length - 400

/-- Seventeen digits always suffice, so the last grid needs no search. -/
def Interval.shortest (r : Interval) : Scientific :=
  let top := r.exponent
  ((List.range 17).findSome? fun (n : Nat) => r.onGrid? (top - (n + 1))).getD
    ⟨r.centre * numerator (top - 17) / denominator (top - 17), top - 17⟩

/-- Decimal digits of a fraction with `places` places, closing zeros dropped. -/
def fractionText (places n : Nat) : String :=
  let digits := Nat.toDigits 10 n
  let padded := List.replicate (places - digits.length) '0' ++ digits
  String.ofList (padded.reverse.dropWhile (· == '0')).reverse

/-- Positional text: a point stands only before a fraction that is not zero. -/
def Scientific.text (s : Scientific) : String :=
  let scaled := s.digits * Nat.pow 10 s.exponent.toNat
  let places := (-s.exponent).toNat
  let whole := Decimal.text (scaled / Nat.pow 10 places)
  let rest := scaled % Nat.pow 10 places
  if rest = 0 then whole else whole ++ "." ++ fractionText places rest

/-- The sign of zero shows and that of a NaN does not. -/
def text (x : Binary64) : String :=
  if x.isNaN then "NaN"
  else
    let size :=
      if !x.isFinite then "inf"
      else if x.magnitude = 0 then "0"
      else x.interval.shortest.text
    if x.isNegative then "-" ++ size else size

end FilterQuery.Binary64
