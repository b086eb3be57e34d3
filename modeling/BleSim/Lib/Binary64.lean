import Mathlib.Tactic.Common
import Mathlib.Algebra.Group.Nat.Defs
import Mathlib.Data.Int.Notation

/-!
# Integers held by 64-bit floating-point numbers

A binary64 number is given by its bits: a sign, an 11-bit exponent and a 52-bit fraction.
`toInt?` is its value when that is an integer.
-/

namespace Binary64

/-- The biased exponent. -/
def exponent (bits : UInt64) : ℕ := bits.toNat / 2 ^ 52 % 2 ^ 11

/-- The fraction, without the implicit leading bit. -/
def fraction (bits : UInt64) : ℕ := bits.toNat % 2 ^ 52

/-- Whether the sign bit is set. -/
def negative (bits : UInt64) : Bool := bits.toNat / 2 ^ 63 == 1

/-- Whether the bits are those of a NaN. -/
def isNaN (bits : UInt64) : Bool := exponent bits == 2047 && fraction bits != 0

/-- The magnitude of the number when it is finite and an integer: `m * 2 ^ (e - 1075)` with the
implicit bit in `m`, or `m * 2 ^ (-1074)` for a subnormal number. -/
def magnitude? (bits : UInt64) : Option ℕ :=
  let e := exponent bits
  let f := fraction bits
  if e = 2047 then none
  else if e = 0 then if f = 0 then some 0 else none
  else
    let m := 2 ^ 52 + f
    if 1075 ≤ e then some (m * 2 ^ (e - 1075))
    else if m % 2 ^ (1075 - e) = 0 then some (m / 2 ^ (1075 - e))
    else none

/-- The value of the number when it is an integer. -/
def toInt? (bits : UInt64) : Option ℤ :=
  (magnitude? bits).map fun m => if negative bits then -(m : ℤ) else m

-- 1.0, -2.5 and 2 ^ 53
example : toInt? 0x3FF0000000000000 = some 1 := by decide
example : toInt? 0xC004000000000000 = none := by decide
example : toInt? 0x4340000000000000 = some 9007199254740992 := by decide

end Binary64
