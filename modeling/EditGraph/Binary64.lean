/-!
# Quotients as binary floating point numbers

The double-precision number nearest to a quotient of natural numbers, in exact arithmetic.
A positive number is a significand of 53 bits times a power of two; between two candidates
that are equally near, the one with the even significand is taken. Numbers here are counts
below `2 ^ 64` and their quotients, so the exponent never leaves its range.

## Main definitions

* `roundDiv` — a quotient rounded to an integer, a half to the even neighbour.
* `Binary64` — the significand and exponent.
* `Binary64.ofQuotient` — the nearest number to a quotient.
* `Binary64.bits` — the 64 bits of the interchange format.
* `Binary64.fixed` — the exact value, rounded to some decimal places.

-/

namespace EditGraph

/-- `num / den` rounded to an integer; a half goes to the even neighbour. -/
def roundDiv (num den : Nat) : Nat :=
  let q := num / den
  let twice := 2 * (num % den)
  if twice < den then q
  else if den < twice then q + 1
  else q + q % 2

/-- The number `significand * 2 ^ exponent`. It is normal when the significand has exactly
53 bits, and zero when the significand is zero. -/
structure Binary64 where
  significand : Nat
  exponent : Int
  deriving DecidableEq, Repr

namespace Binary64

/-- Zero. -/
def zero : Binary64 := ⟨0, 0⟩

/-- The least significand of a normal number, `2 ^ 52`. -/
def leastSignificand : Nat := 4503599627370496

/-- `num / den * 2 ^ shift` as a quotient of natural numbers. -/
def scaled (num den : Nat) : Int → Nat × Nat
  | .ofNat s => (num <<< s, den)
  | .negSucc s => (num, den <<< (s + 1))

/-- The number nearest to `num / den`. The quotient is scaled until its integer part has 53
bits; should rounding carry into a 54th bit, the significand is halved. -/
def ofQuotient (num den : Nat) : Binary64 :=
  if num = 0 ∨ den = 0 then zero
  else
    let estimate : Int := 52 + (den.log2 : Int) - (num.log2 : Int)
    let (n, d) := scaled num den estimate
    let shift := if n / d < leastSignificand then estimate + 1 else estimate
    let (n, d) := scaled num den shift
    let significand := roundDiv n d
    if significand = 2 * leastSignificand then ⟨leastSignificand, 1 - shift⟩
    else ⟨significand, -shift⟩

/-- The number nearest to a natural number. -/
def ofNat (n : Nat) : Binary64 := ofQuotient n 1

/-- The value as a quotient of natural numbers. -/
def quotient (x : Binary64) : Nat × Nat := scaled x.significand 1 x.exponent

/-- The number nearest to the quotient of two numbers. -/
def div (x y : Binary64) : Binary64 :=
  let (n, d) := x.quotient
  let (n', d') := y.quotient
  ofQuotient (n * d') (d * n')

/-- The interchange format: the exponent, biased by 1023 and counted for a point after the
leading bit, over the significand without its leading bit. -/
def bits (x : Binary64) : Nat :=
  if x.significand = 0 then 0
  else (x.exponent + 1075).toNat * leastSignificand + (x.significand - leastSignificand)

/-- Decimal text of the exact value with `places` decimals; a half goes to the even
neighbour. -/
def fixed (places : Nat) (x : Binary64) : String :=
  let (n, d) := x.quotient
  let scale := Nat.pow 10 places
  let units := roundDiv (n * scale) d
  let fraction := toString (units % scale)
  let zeros := String.ofList (List.replicate (places - fraction.length) '0')
  toString (units / scale) ++ "." ++ zeros ++ fraction

end Binary64

end EditGraph
