/-!
Powers of two, which measure everything that is made of bits.
-/

set_option autoImplicit false

namespace ForeignCall

/-- The number of values that `n` bits can hold. Shifting computes it, which the kernel does at any
size. -/
def twoPow (n : Nat) : Nat := 1 <<< n

end ForeignCall
