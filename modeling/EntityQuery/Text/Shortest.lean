/-!
# Shortest decimals

Among the decimals that are read back as a given binary floating-point number, the shortest are those
with the fewest digits; the nearest of them stands for the number. A number is `mantissa * 2 ^ power`,
and all comparisons are made on natural numbers.
-/

namespace EntityQuery.Shortest

/-- A positive number of a binary format. -/
structure Binary where
  mantissa : Nat
  power : Int
  /-- Whether the numbers below are twice as close as those above. -/
  atBoundary : Bool

/-- A decimal `digits * 10 ^ power`. -/
structure Decimal where
  digits : Nat
  power : Int
deriving Inhabited

namespace Binary

/-! The number and the ends of the interval of what rounds to it, in quarters of its last place. -/

def center (x : Binary) : Nat := 4 * x.mantissa

def upper (x : Binary) : Nat := 4 * x.mantissa + 2

def lower (x : Binary) : Nat := 4 * x.mantissa - if x.atBoundary then 1 else 2

/-- Factors that make quarters of the last place and multiples of a power of ten comparable. -/
def scale (x : Binary) (power : Int) : Nat × Nat :=
  (Nat.pow 2 (x.power - 2).toNat * Nat.pow 10 (-power).toNat,
    Nat.pow 10 power.toNat * Nat.pow 2 (2 - x.power).toNat)

/-- The largest multiple of a power of ten that is not above the number. -/
def floorAt (x : Binary) (power : Int) : Nat :=
  let (binary, decimal) := x.scale power
  x.center * binary / decimal

/-- Whether a decimal is read back as the number: it lies between the ends, which belong to the
number if its mantissa is even. -/
def admits (x : Binary) (d : Decimal) : Bool :=
  let (binary, decimal) := x.scale d.power
  let v := d.digits * decimal
  if x.mantissa % 2 = 0 then x.lower * binary ≤ v && v ≤ x.upper * binary
  else x.lower * binary < v && v < x.upper * binary

/-- Whether the number is at least half a unit above a decimal, so that the next one is as near. -/
def isHalfAbove (x : Binary) (d : Decimal) : Bool :=
  let (binary, decimal) := x.scale d.power
  (2 * d.digits + 1) * decimal ≤ 2 * (x.center * binary)

/-- The multiple of a power of ten that is read back as the number: of two the nearer, and of two
equally near the upper. -/
def hit? (x : Binary) (power : Int) : Option Decimal :=
  let below : Decimal := ⟨x.floorAt power, power⟩
  let above : Decimal := ⟨x.floorAt power + 1, power⟩
  match x.admits below, x.admits above with
  | true, true => some (if x.isHalfAbove below then above else below)
  | true, false => some below
  | false, true => some above
  | false, false => none

/-- The first hit on ever finer grids. -/
def firstHit (x : Binary) : (grids : Nat) → (power : Int) → Decimal
  | 0, power => ⟨x.floorAt power, power⟩
  | grids + 1, power => (x.hit? power).getD (x.firstHit grids (power - 1))

/-- The shortest decimal: no format has numbers of 400 places, and 20 digits always suffice. -/
def shortest (x : Binary) : Decimal :=
  let rec leading : (steps : Nat) → (power : Int) → Int
    | 0, power => power
    | steps + 1, power => if x.floorAt power = 0 then leading steps (power - 1) else power
  x.firstHit 20 (leading 800 400)

end Binary

namespace Decimal

/-- The digits without zeros at their end, and the place of the point behind the first of them. -/
def normalize (d : Decimal) : List Char × Int :=
  let digits := Nat.toDigits 10 d.digits
  ((digits.reverse.dropWhile (· == '0')).reverse, digits.length + d.power)

end Decimal

end EntityQuery.Shortest
