import EntityQuery.Text.Shortest

/-!
# Text of floats

A float is shown by its shortest decimal, positionally or with an exponent as a style says.
-/

namespace EntityQuery

/-- How floats are shown. Places are counted so that a number is zero, a point, its digits, and then
shifted by the place. -/
structure FloatStyle where
  /-- The first and the last place that are shown positionally. -/
  firstPlace : Int
  lastPlace : Int
  nan : String
  infinity : String

namespace FloatStyle

/-- Digits around a point, with at least one digit on either side. -/
def positional (digits : List Char) (place : Int) : List Char :=
  if place ≤ 0 then '0' :: '.' :: List.replicate (-place).toNat '0' ++ digits
  else
    let padded := digits ++ List.replicate (place.toNat - digits.length) '0'
    let rest := padded.drop place.toNat
    padded.take place.toNat ++ '.' :: (if rest.isEmpty then ['0'] else rest)

/-- One digit before the point, and none behind it where there are no more; then the exponent. -/
def scientific (digits : List Char) (place : Int) : List Char :=
  let mantissa := match digits with
    | d :: rest@(_ :: _) => d :: '.' :: rest
    | digits => digits
  mantissa ++ 'e' :: (toString (place - 1)).toList

/-- A positive finite number. -/
def magnitude (style : FloatStyle) (x : Shortest.Binary) : List Char :=
  let (digits, place) := x.shortest.normalize
  if style.firstPlace ≤ place ∧ place ≤ style.lastPlace then positional digits place
  else scientific digits place

/-- A number of a binary format with so many exponent and fraction bits. -/
def ofFields (style : FloatStyle) (exponentBits fractionBits : Nat) (bits : Nat) : String :=
  let fractions := Nat.pow 2 fractionBits
  let exponents := Nat.pow 2 exponentBits
  let fraction := bits % fractions
  let exponent := bits / fractions % exponents
  let isNegative := bits / (fractions * exponents) % 2 = 1
  let bias : Int := exponents / 2 - 1 + fractionBits
  let sign := if isNegative then "-" else ""
  if exponent + 1 = exponents then
    if fraction = 0 then sign ++ style.infinity else style.nan
  else if exponent = 0 then
    if fraction = 0 then sign ++ "0.0"
    else sign ++ String.ofList (style.magnitude ⟨fraction, 1 - bias, false⟩)
  else
    let mantissa := fractions + fraction
    let atBoundary := fraction = 0 ∧ 1 < exponent
    sign ++ String.ofList (style.magnitude ⟨mantissa, exponent - bias, atBoundary⟩)

def float32 (style : FloatStyle) (x : Float32) : String :=
  style.ofFields 8 23 x.toBits.toNat

def float64 (style : FloatStyle) (x : Float) : String :=
  style.ofFields 11 52 x.toBits.toNat

end FloatStyle

end EntityQuery
