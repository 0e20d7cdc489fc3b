import KNames.Number.Power

set_option autoImplicit false

/-!
# Finite double-precision numbers

A magnitude is `mantissa * 2 ^ exponent` with a mantissa below `2 ^ 53` and an exponent of at
least `-1074`. `nearest` rounds a quotient of natural numbers to such a magnitude, a tie going to
the even mantissa, and says when there is none. `shortest` finds the fewest decimal digits that
round back to a magnitude, and among those the nearest; which of two equally near ones it takes,
and where the text goes over to an exponent, is for each `TextFormat` to say.
-/
namespace KNames.Number

/-- A finite number; zero keeps its sign. -/
structure Binary64 where
  negative : Bool
  mantissa : Nat
  exponent : Int
deriving DecidableEq, Repr, Inhabited

namespace Binary64

def leastExponent : Int := -1074

def greatestExponent : Int := 971

def scaled (num den : Nat) (shift : Int) : Nat × Nat :=
  (num * twoTo shift.toNat, den * twoTo (-shift).toNat)

/-- Where a quotient half way between two whole numbers goes. -/
inductive Tie
  | toEven
  | away
deriving DecidableEq, Repr

def Tie.goesUp (tie : Tie) (q : Nat) : Bool :=
  match tie with
  | toEven => q % 2 == 1
  | away => true

def roundQuotient (tie : Tie) (num den : Nat) : Nat :=
  let q := num / den
  let r := num % den
  if den < 2 * r || (den == 2 * r && tie.goesUp q) then q + 1 else q

/-- An exponent at which the quotient has a mantissa of 53 bits, or the least one. -/
def exponentFor (num den : Nat) : Int :=
  let guess : Int := (num.log2 : Int) - den.log2 - 52
  let (n, d) := scaled num den (-guess)
  max leastExponent (if n < twoTo 52 * d then guess - 1 else guess)

/-- The magnitude nearest to `num / den`; there is none beyond the greatest finite one. -/
def nearest (negative : Bool) (num den : Nat) : Option Binary64 :=
  if num = 0 then some ⟨negative, 0, leastExponent⟩
  else
    let e := exponentFor num den
    let (n, d) := scaled num den (-e)
    let m := roundQuotient .toEven n d
    let (m, e) := if m = twoTo 53 then (twoTo 52, e + 1) else (m, e)
    if e ≤ greatestExponent then some ⟨negative, m, e⟩ else none

def quotient (x : Binary64) : Nat × Nat := scaled x.mantissa 1 x.exponent

def isZero (x : Binary64) : Bool := x.mantissa == 0

/-- The product with a power of ten, both factors and the product rounded; a negative power
divides. -/
def timesTen (x : Binary64) (power : Int) : Option Binary64 :=
  match nearest false (tenTo power.natAbs) 1 with
  | none => none
  | some ten =>
    let (n, d) := x.quotient
    let (n', d') := ten.quotient
    if 0 ≤ power then nearest x.negative (n * n') (d * d')
    else nearest x.negative (n * d') (d * n')

/-- The nearest number to `significand * 10 ^ power`. A power so far out that the result must be
zero or infinite is not computed. -/
def ofDecimal (negative : Bool) (significand : Nat) (power : Int) : Option Binary64 :=
  let digits : Int := (Nat.toDigits 10 significand).length
  if significand = 0 ∨ power + digits < -400 then nearest negative 0 1
  else if 400 < power + digits then none
  else nearest negative (significand * tenTo power.toNat) (tenTo (-power).toNat)

/-- Does `digits * 10 ^ power` round to the magnitude of `x`? The bounds lie half way to the
neighbouring magnitudes and belong to the interval when the mantissa is even. Everything is
counted in quarters of the last place, because the lower neighbour of a power of two is nearer. -/
def roundsBack (x : Binary64) (digits : Nat) (power : Int) : Bool :=
  let below := if x.mantissa = twoTo 52 ∧ leastExponent < x.exponent then 1 else 2
  let num := digits * tenTo power.toNat
  let den := tenTo (-power).toNat
  let (low, unit) := scaled (4 * x.mantissa - below) 4 x.exponent
  let (high, _) := scaled (4 * x.mantissa + 2) 4 x.exponent
  if x.mantissa % 2 = 0 then low * den ≤ num * unit && num * unit ≤ high * den
  else low * den < num * unit && num * unit < high * den

def pointPlace (x : Binary64) : Int :=
  let (n, d) := x.quotient
  let guess : Int := (n.log2 : Int) - d.log2
  let estimate := guess * 30103 / 100000
  let above (k : Int) : Bool := n * tenTo (-k).toNat < d * tenTo k.toNat
  if above (estimate - 1) then estimate - 1
  else if above estimate then estimate
  else if above (estimate + 1) then estimate + 1
  else estimate + 2

/-- The neighbours of the magnitude on the grid of `count` digits, kept if they round back; of
two the nearer one. -/
def onGrid? (tie : Tie) (x : Binary64) (count : Nat) : Option (Nat × Int) :=
  let power := x.pointPlace - count
  let (n, d) := x.quotient
  let num := n * tenTo (-power).toNat
  let den := d * tenTo power.toNat
  let low := num / den
  let near := roundQuotient tie num den
  let far := if near = low then low + 1 else low
  if x.roundsBack near power then some (near, power)
  else if x.roundsBack far power then some (far, power)
  else none

/-- The fewest digits that read back, with the power of ten of the last one. -/
def shortest (tie : Tie) (x : Binary64) : Nat × Int :=
  ((List.range 17).findSome? fun count => x.onGrid? tie (count + 1)).getD (x.mantissa, x.exponent)

structure PointRange where
  least : Int
  greatest : Int
deriving Repr

/-- What one kind of text decides about numbers: which of two equally near digits it takes, and
which places of the point it writes without an exponent, all of them if no range is given. -/
structure TextFormat where
  tie : Tie
  pointRange : Option PointRange
deriving Repr

def positional (digits : List Char) (point : Int) : List Char :=
  if point ≤ 0 then ['0', '.'] ++ List.replicate (-point).toNat '0' ++ digits
  else if digits.length ≤ point.toNat then
    digits ++ List.replicate (point.toNat - digits.length) '0' ++ ['.', '0']
  else digits.take point.toNat ++ ['.'] ++ digits.drop point.toNat

def scientific (digits : List Char) (point : Int) : List Char :=
  let fraction := if digits.length ≤ 1 then [] else '.' :: digits.drop 1
  let power := point - 1
  digits.take 1 ++ fraction ++ ['e', if power < 0 then '-' else '+'] ++
    Nat.toDigits 10 power.natAbs

def withoutTrailingZeros (digits : List Char) : List Char :=
  (digits.reverse.dropWhile (· == '0')).reverse

def text (format : TextFormat) (x : Binary64) : String :=
  let sign := if x.negative then "-" else ""
  if x.isZero then sign ++ "0.0"
  else
    let (number, power) := x.shortest format.tie
    let point := power + (Nat.toDigits 10 number).length
    let digits := withoutTrailingZeros (Nat.toDigits 10 number)
    match format.pointRange with
    | none => sign ++ String.ofList (positional digits point)
    | some r =>
      if r.least ≤ point ∧ point ≤ r.greatest then sign ++ String.ofList (positional digits point)
      else sign ++ String.ofList (scientific digits point)

end Binary64

end KNames.Number
