import ViewCompiler.Binary64

/-!
# Shortest Decimals

The decimal with the fewest digits that reads back as a given number.

All reals between the midpoints to the two neighbours of a number read back as
that number; the midpoints themselves do if its mantissa is even. On the grid
of decimals with a given number of digits it is enough to try the two points
next to the number: if any point of the grid lies in the interval, one of
these does. The first grid with such a point is taken, and of two points the
nearer one.

## Main definitions

* `Interval`: The reals that read back as a number, in quarters of its last
  binary place.
* `Binary64.shortest`: The shortest decimal that reads back.
* `Binary64.write`: The characters of a number in a layout.
-/

namespace ViewCompiler

namespace Binary64

/-- The reals that read back as a number. All three are multiples of one
    quarter of the number's last binary place. -/
structure Interval where
  low : Nat
  middle : Nat
  high : Nat
  closed : Bool
deriving DecidableEq

/-- The interval of a number other than zero. Below a power of two the
    numbers lie twice as close. -/
def interval (x : Binary64) : Interval :=
  { low := if x.mantissa = leastNormal ∧ leastExponent < x.exponent then 4 * x.mantissa - 1
      else 4 * x.mantissa - 2
    middle := 4 * x.mantissa
    high := 4 * x.mantissa + 2
    closed := x.mantissa % 2 == 0 }

/-- The ratio of a quarter of the last binary place to a power of ten. -/
def placeRatio (x : Binary64) (exponent : Int) : Nat × Nat :=
  let (num, den) := scaled 1 1 (2 - x.exponent)
  if 0 ≤ exponent then (num, den * Nat.pow 10 exponent.toNat)
  else (num * Nat.pow 10 (-exponent).toNat, den)

/-- Whether `candidate` units of a grid lie in the interval, where a quarter of
    a place is `num / den` units. -/
def Interval.contains (i : Interval) (num den candidate : Nat) : Bool :=
  if i.closed then i.low * num ≤ candidate * den && candidate * den ≤ i.high * num
  else i.low * num < candidate * den && candidate * den < i.high * num

/-- The point of a grid that stands for the number: of the two points next to
    it those in the interval, and of two the nearer, or the even one. -/
def Interval.gridPoint? (i : Interval) (num den : Nat) : Option Nat :=
  let below := i.middle * num / den
  match i.contains num den below, i.contains num den (below + 1) with
  | true, true => some (Decimal.roundDiv (i.middle * num) den)
  | true, false => some below
  | false, true => some (below + 1)
  | false, false => none

/-- The first of a run of ever finer grids that has a point for the number. -/
def firstPoint (x : Binary64) : (grids : Nat) → (exponent : Int) → Decimal
  | 0, exponent => ⟨0, exponent⟩
  | grids + 1, exponent =>
      let (num, den) := placeRatio x exponent
      match (interval x).gridPoint? num den with
      | some point => if point = 0 then firstPoint x grids (exponent - 1) else ⟨point, exponent⟩
      | none => firstPoint x grids (exponent - 1)

/-- An exponent of ten at which the number has at most two digits in front of
    the point; `2 ^ 10` is a little more than `10 ^ 3`. -/
def coarseExponent (x : Binary64) : Int :=
  (x.exponent + Nat.log2 x.mantissa) * 30103 / 100000

/-- The decimal with the fewest digits that reads back as a number other than
    zero. Seventeen digits always do, and two grids more make up for the
    guess at the first one. -/
def shortest (x : Binary64) : Decimal :=
  firstPoint x 19 (coarseExponent x + 1)

/-- The characters of a number. -/
def write (layout : Decimal.Layout) (x : Binary64) : List Char :=
  let unsigned := if x.mantissa = 0 then ['0', '.', '0'] else (shortest x).write layout
  if x.negative then '-' :: unsigned else unsigned

end Binary64

end ViewCompiler
