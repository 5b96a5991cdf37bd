/-!
Sets of characters, as ranges of code points.
-/

set_option autoImplicit false

namespace ForeignCall

abbrev CodeRanges := Array (Nat × Nat)

def CodeRanges.covers (ranges : CodeRanges) (c : Char) : Bool :=
  ranges.any fun (first, last) => first ≤ c.toNat && c.toNat ≤ last

end ForeignCall
