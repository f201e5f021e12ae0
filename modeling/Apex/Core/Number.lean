import Apex.Core.Json

/-!
# Numbers

Python compares integers and doubles by their exact values. The smallest
positive double is `2 ^ -1074`, so every finite number is an integer multiple of
it, and `scaled` is that integer: bounds are compared in this unit and nothing
is rounded.

## Main definitions

* `PyFloat.scaled`: The value of a finite double.
* `PyFloat.ofNat`: The double equal to a small integer.
-/

namespace Apex

/-- One, in units of the smallest positive double. -/
def unitScale : Int := 2 ^ 1074

namespace PyFloat

/-- The value of a finite double, in units of the smallest positive one. -/
def scaled (x : PyFloat) : Int :=
  let exponent := (x.bits.extractLsb' 52 11).toNat
  let fraction := (x.bits.extractLsb' 0 52).toNat
  -- A zero exponent marks a subnormal, which has no leading one.
  let magnitude := if exponent = 0 then fraction else (2 ^ 52 + fraction) * 2 ^ (exponent - 1)
  if x.bits.getLsbD 63 then -(magnitude : Int) else magnitude

/-- The double equal to an integer below `2 ^ 53`. -/
def ofNat (n : Nat) : PyFloat :=
  if n = 0 then ⟨0⟩
  else
    let e := Nat.log2 n
    ⟨BitVec.ofNat 64 ((e + 1023) * 2 ^ 52 + (n * 2 ^ (52 - e) - 2 ^ 52))⟩

end PyFloat

/-- The value of a finite number of at most 128 bits. -/
def Json.number? : Json → Option Int
  | .int n => if bitLength n ≤ 128 then some (n * unitScale) else none
  | .float x => if x.isFinite then some x.scaled else none
  | _ => none

/-- `float(value)` of a number that is not negative and fits a double exactly. -/
def Json.toFloat : Json → PyFloat
  | .int n => PyFloat.ofNat n.toNat
  | .float x => x
  | _ => ⟨0⟩

end Apex
