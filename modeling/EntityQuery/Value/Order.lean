import EntityQuery.Value

/-!
# Comparing values

Filters, joins, membership tests and orderings compare values across widths. Equality is decided
for every pair; the order is partial.
-/

namespace EntityQuery.Value

/-- The order in which two byte strings sort: by the first byte that differs, then by length. -/
def orderBytes : List UInt8 → List UInt8 → Ordering
  | [], [] => .eq
  | [], _ :: _ => .lt
  | _ :: _, [] => .gt
  | a :: as, b :: bs => (compare a b).then (orderBytes as bs)

/-- Equality of values. Null equals null; numbers of one kind or two are compared as 64-bit floats,
except that two integers of different widths are compared exactly; a timestamp equals the 64-bit
integer of its microseconds; all else is identity. -/
def equal : Value → Value → Bool
  | null, null => true
  | int32 a, int64 b => a.toInt64 == b
  | int64 a, int32 b => a == b.toInt64
  | timestamp a, int64 b => a == b
  | int64 a, timestamp b => a == b
  | a, b =>
    match a.float64?, b.float64? with
    | some x, some y => x == y
    | _, _ => a.identical b

/-- The order of two values, where there is one: integers exactly and across widths, other numbers
as 64-bit floats, timestamps with timestamps and 64-bit integers, and strings, byte strings,
identifiers and truth values among themselves. -/
def order : Value → Value → Option Ordering
  | int32 a, int32 b => some (compare a.toInt b.toInt)
  | int64 a, int64 b => some (compare a.toInt b.toInt)
  | int32 a, int64 b => some (compare a.toInt b.toInt)
  | int64 a, int32 b => some (compare a.toInt b.toInt)
  | string a, string b => some (compare a b)
  | timestamp a, timestamp b => some (compare a.toInt b.toInt)
  | timestamp a, int64 b => some (compare a.toInt b.toInt)
  | int64 a, timestamp b => some (compare a.toInt b.toInt)
  | bytes a, bytes b => some (orderBytes a b)
  | uuid a, uuid b => some (orderBytes a.toList b.toList)
  | bool a, bool b => some (compare a b)
  | a, b =>
    match a.float64?, b.float64? with
    | some x, some y => Number.order x y
    | _, _ => none

/-- The order in which values sort: null first, and values without an order level. -/
def sortOrder : Value → Value → Ordering
  | null, null => .eq
  | null, _ => .lt
  | _, null => .gt
  | a, b => (order a b).getD .eq

end EntityQuery.Value
