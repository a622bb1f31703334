/-
Sets of characters given as ranges of code points.

The properties that the character database assigns are tables, and a table here
is a list of inclusive ranges in increasing order.
-/

namespace Listing
namespace Text

/-- A set of code points as inclusive ranges. -/
abbrev Ranges := List (Nat × Nat)

/-- A character is in the set when one of the ranges holds its code point. -/
def Ranges.has (ranges : Ranges) (c : Char) : Bool :=
  ranges.any fun r => r.1 ≤ c.toNat && c.toNat ≤ r.2

end Text
end Listing
