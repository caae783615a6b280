/-!
# Numbers of different widths

Integers and both float widths meet in the 64-bit float: an integer rounds to the nearest one (ties
to the even mantissa), a 32-bit float is represented exactly.
-/

namespace EntityQuery.Number

/-- The 64-bit float nearest to an integer. -/
def ofInt (n : Int) : Float :=
  .ofModel (.ofInt n)

/-- The 64-bit float with the value of a 32-bit one. -/
def widen (x : Float32) : Float :=
  .ofModel <| .pack <| match x.toModel.unpack with
    | .finite sign mantissa exponent _ => .round .binary64 sign mantissa exponent
    | special => special

/-- The order of two floats; a NaN is unordered and the two zeros are equal. -/
def order (x y : Float) : Option Ordering :=
  x.toModel.compare y.toModel

end EntityQuery.Number
