set_option autoImplicit false

/-!
# Binary64 numbers

The finite numbers of the IEEE 754 format binary64, as their bit pattern, with exact rounding of
a ratio of natural numbers to the nearest of them, ties to the even one.  Everything is over
`Nat` and `Int`, so that the rounding can be computed inside a proof.

`magnitude` reads a pattern as `significand · 2 ^ exponent`; `ofRatio` goes the other way.
`scaled` is the reading of a decimal numeral by one multiplication or division: the digits are
rounded first, then the power of ten, then their product or quotient.
-/

namespace WatchCache.Decimal

/-- A power of two. -/
def twoPow (n : Nat) : Nat := Nat.pow 2 n

/-- A power of ten. -/
def tenPow (n : Nat) : Nat := Nat.pow 10 n

/-- A number of the format binary64, by its bits. -/
structure Binary64 where
  bits : UInt64
  deriving DecidableEq, Repr, Inhabited

namespace Binary64

/-- The sign bit. -/
def isNegative (x : Binary64) : Bool := x.bits.toNat / twoPow 63 = 1

/-- The bits without the sign. -/
def magnitudeBits (x : Binary64) : Nat := x.bits.toNat % twoPow 63

/-- The magnitude as `significand · 2 ^ exponent`; a subnormal number has the least exponent. -/
def magnitude (x : Binary64) : Nat × Int :=
  let field : Nat := x.magnitudeBits / twoPow 52
  let fraction : Nat := x.magnitudeBits % twoPow 52
  if field = 0 then (fraction, -1074) else (twoPow 52 + fraction, (field : Int) - 1075)

/-- Whether the number is one of the two zeros. -/
def isZero (x : Binary64) : Bool := x.magnitudeBits = 0

/-- The positive zero. -/
def zero : Binary64 := ⟨0⟩

/-- The number with the other sign. -/
def negate (x : Binary64) : Binary64 :=
  if x.isNegative then ⟨.ofNat x.magnitudeBits⟩ else ⟨.ofNat (x.magnitudeBits + twoPow 63)⟩

/-- A quotient rounded to the nearest natural number, a tie to the even one. -/
def roundDiv (num den : Nat) : Nat :=
  let q := num / den
  let r := num % den
  if 2 * r < den then q
  else if den < 2 * r then q + 1
  else if q % 2 = 0 then q else q + 1

/-- The quotient `num / (den · 2 ^ e)` rounded to the nearest natural number. -/
def roundScaled (num den : Nat) (e : Int) : Nat :=
  if 0 ≤ e then roundDiv num (den * twoPow e.toNat) else roundDiv (num * twoPow (-e).toNat) den

/-- The exponent at which a positive ratio has a significand of 53 bits, or the least one. -/
def ratioExponent (num den : Nat) : Int :=
  let guess : Int := (num.log2 : Int) - den.log2 - 53
  let fits (e : Int) : Bool :=
    if 0 ≤ e then num < den * twoPow (e.toNat + 53) else num * twoPow (-e).toNat < den * twoPow 53
  let e := if fits guess then guess else guess + 1
  if e < -1074 then -1074 else e

/-- The nonnegative number nearest to `num / den`, ties to even; `none` beyond the largest. -/
def ofRatio (num den : Nat) : Option Binary64 :=
  if num = 0 ∨ den = 0 then some zero
  else
    let e := ratioExponent num den
    let m := roundScaled num den e
    let (m, e) := if m = twoPow 53 then (twoPow 52, e + 1) else (m, e)
    if m < twoPow 52 then some ⟨.ofNat m⟩
    else if 971 < e then none
    else some ⟨.ofNat ((e + 1075).toNat * twoPow 52 + (m - twoPow 52))⟩

/-- The nonnegative number as a ratio of natural numbers. -/
def toRatio (x : Binary64) : Nat × Nat :=
  let (m, e) := x.magnitude
  if 0 ≤ e then (m * twoPow e.toNat, 1) else (m, twoPow (-e).toNat)

/-- The magnitude times ten to the power `n`, where the power is itself rounded first. -/
def timesPowerOfTen (x : Binary64) (n : Nat) : Option Binary64 := do
  let (a, b) := x.toRatio
  let (p, r) := (← ofRatio (tenPow n) 1).toRatio
  ofRatio (a * p) (b * r)

/-- The magnitude divided by ten to the power `n`, where the power is itself rounded first. -/
def overPowerOfTen (x : Binary64) (n : Nat) : Option Binary64 := do
  let (a, b) := x.toRatio
  let (p, r) := (← ofRatio (tenPow n) 1).toRatio
  ofRatio (a * r) (b * p)

/-- Divides by 10^308 while the decimal exponent is out of reach of one division. -/
def scaledDown : Nat → Binary64 → Int → Option Binary64
  | 0, x, _ => some x
  | steps + 1, x, exponent =>
    if x.isZero then some x
    else if -308 ≤ exponent then x.overPowerOfTen (-exponent).toNat
    else (x.overPowerOfTen 308).bind fun y => scaledDown steps y (exponent + 308)

/-- The number read from decimal digits and a power of ten; `none` where it would be infinite.
Four divisions by 10^308 take every 64-bit significand to zero. -/
def scaled (significand : Nat) (exponent : Int) : Option Binary64 := do
  let x ← ofRatio significand 1
  if 0 ≤ exponent then
    if exponent ≤ 308 then x.timesPowerOfTen exponent.toNat
    else if x.isZero then some x else none
  else scaledDown 4 x exponent

end Binary64

end WatchCache.Decimal
