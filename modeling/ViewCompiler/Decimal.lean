/-!
# Decimals

A number as a significand and a power of ten, and the two ways of writing it:
positionally, or with an exponent.

Where the first way ends is a decision of the format that is written, so it
comes as a `Layout`.

## Main definitions

* `Decimal`: A significand and a power of ten.
* `Decimal.roundDiv`: Division rounded to the nearest whole number.
* `Layout`: Which magnitudes are written positionally.
* `Decimal.write`: The characters of a decimal.

## Theorems

* `Decimal.roundDiv_near`: The rounded quotient is within half a divisor.
-/

namespace ViewCompiler

/-- The number `significand * 10 ^ exponent`. -/
structure Decimal where
  significand : Nat
  exponent : Int
deriving DecidableEq

namespace Decimal

/-- Division rounded to the nearest whole number, a half going to the even
    neighbour. -/
def roundDiv (n d : Nat) : Nat :=
  if 2 * (n % d) < d then n / d
  else if d < 2 * (n % d) then n / d + 1
  else n / d + n / d % 2

theorem roundDiv_near (n d : Nat) (hd : 0 < d) :
    2 * n ≤ 2 * d * roundDiv n d + d ∧ 2 * d * roundDiv n d ≤ 2 * n + d := by
  have hdiv : d * (n / d) + n % d = n := Nat.div_add_mod n d
  have hlt : n % d < d := Nat.mod_lt n hd
  have hpar : n / d % 2 = 0 ∨ n / d % 2 = 1 := by omega
  unfold roundDiv
  split
  · rw [Nat.mul_assoc]
    omega
  · split
    · rw [Nat.mul_assoc, Nat.mul_add]
      omega
    · rcases hpar with h | h <;> rw [h, Nat.mul_assoc, Nat.mul_add] <;> omega

/-- The number of digits of a whole number, one for zero. -/
def digitCount (n : Nat) : Nat :=
  (Nat.toDigits 10 n).length

/-- Which magnitudes are written positionally, by the power of ten of their
    first digit. -/
structure Layout where
  least : Int
  most : Int
deriving DecidableEq

/-- Digits without the zeros at their end. -/
def dropZeros (digits : List Char) : List Char :=
  (digits.reverse.dropWhile (· == '0')).reverse

/-- Digits of a fraction, of which there is at least one. -/
def orZero (digits : List Char) : List Char :=
  if digits.isEmpty then ['0'] else digits

/-- A number positionally, with at least one digit on either side of the
    point. `point` is the number of digits in front of it. -/
def positional (digits : List Char) (point : Int) : List Char :=
  if point ≤ 0 then
    '0' :: '.' :: (List.replicate (-point).toNat '0' ++ digits)
  else
    let whole := digits.take point.toNat
    whole ++ List.replicate (point.toNat - whole.length) '0' ++
      '.' :: orZero (digits.drop point.toNat)

/-- The exponent of a number, always with its sign. -/
def exponentText (e : Int) : List Char :=
  (if e < 0 then '-' else '+') :: Nat.toDigits 10 e.natAbs

/-- A number by its digits and the power of ten of the first one. -/
def scientific (digits : List Char) (magnitude : Int) : List Char :=
  match digits with
  | [] => []
  | [d] => d :: 'e' :: exponentText magnitude
  | d :: rest => d :: '.' :: (rest ++ 'e' :: exponentText magnitude)

/-- The characters of a decimal other than zero. -/
def write (layout : Layout) (value : Decimal) : List Char :=
  let all := Nat.toDigits 10 value.significand
  let magnitude : Int := value.exponent + all.length - 1
  let digits := dropZeros all
  if layout.least ≤ magnitude ∧ magnitude ≤ layout.most then positional digits (magnitude + 1)
  else scientific digits magnitude

end Decimal

end ViewCompiler
