import ForeignCall.PowerOfTwo

/-!
Native slots: the untyped 64-bit words in which arguments and results cross the boundary.

A narrow value lives in the low bits, little endian in memory. What the bits mean is said by the
type of the parameter; this module reads them at every width a type can ask for.
-/

set_option autoImplicit false

namespace ForeignCall

structure Slot where
  bits : UInt64
  deriving DecidableEq, Repr, Inhabited

def littleEndian : Nat → Nat → List UInt8
  | 0, _ => []
  | n + 1, value => UInt8.ofNat value :: littleEndian n (value / 256)

def ofLittleEndian : List UInt8 → Nat
  | [] => 0
  | b :: rest => b.toNat + 256 * ofLittleEndian rest

namespace Slot

def ofNat (n : Nat) : Slot := ⟨UInt64.ofNat n⟩

def ofInt (i : Int) : Slot := ofNat (i % UInt64.size).toNat

def null : Slot := ⟨0⟩

def ofBool (b : Bool) : Slot := if b then ⟨1⟩ else ⟨0⟩

def toNat (s : Slot) : Nat := s.bits.toNat

def isNull (s : Slot) : Bool := s.toNat == 0

/-- A native boolean is a 32-bit integer: anything but zero in the low half is true. -/
def toBool (s : Slot) : Bool := s.toNat % UInt32.size != 0

def low (s : Slot) (width : Nat) (signed : Bool) : Int :=
  let raw := s.toNat % twoPow width
  if signed then Int.bmod raw (twoPow width) else raw

/-- The integer of the given width; every width but 8, 16 and 32 reads the whole slot. -/
def asInt (s : Slot) (bits : Nat) (signed : Bool) : Int :=
  s.low (if bits = 8 ∨ bits = 16 ∨ bits = 32 then bits else 64) signed

def toBytes (s : Slot) (size : Nat) : List UInt8 := littleEndian (min size 8) s.toNat

/-- The slot whose low bytes are the first eight of `bytes`; the rest is zero. -/
def ofBytes (bytes : List UInt8) : Slot := ofNat (ofLittleEndian (bytes.take 8))

end Slot

def hexDigits (n : Nat) : String := String.ofList (Nat.toDigits 16 n)

def hexAddress (n : Nat) : String := "0x" ++ hexDigits n

end ForeignCall
