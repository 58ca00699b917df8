import WatchCache.Decimal.Binary64

set_option autoImplicit false

/-!
# Shortest decimal text

The decimal numeral with the fewest digits that rounds back to a given binary64 number, and its
written form.  The numbers that round to `x` form an interval around it; for one digit, two
digits and so on the two neighbours of `x` on that decimal grid are tested exactly, and the
first grid that has one of them inside gives the digits.
-/

namespace WatchCache.Decimal

/-- A positive decimal `digits · 10 ^ exponent`. -/
structure Numeral where
  digits : Nat
  exponent : Int
  deriving DecidableEq, Repr, Inhabited

/-- `num / den` compared with `10 ^ e`. -/
def reachesPowerOfTen (num den : Nat) (e : Int) : Bool :=
  if 0 ≤ e then den * tenPow e.toNat ≤ num else den ≤ num * tenPow (-e).toNat

/-- The greatest `e` with `10 ^ e ≤ num / den`, for a positive ratio. -/
def leadingExponent (num den : Nat) : Int :=
  let guess : Int := ((Nat.toDigits 10 num).length : Int) - (Nat.toDigits 10 den).length
  if reachesPowerOfTen num den guess then guess else guess - 1

/-- The interval of the ratios that round to one number, in units of `1 / scale`, and whether
its ends belong to it. -/
structure RoundingInterval where
  low : Nat
  middle : Nat
  high : Nat
  scale : Nat
  closed : Bool

/-- The rounding interval of a positive number.  The neighbour below a power of two is twice as
near as the one above, and the ends belong to the interval when the significand is even. -/
def Binary64.roundingInterval (x : Binary64) : RoundingInterval :=
  let (m, e) := x.magnitude
  let below := if m = twoPow 52 && -1074 < e then 1 else 2
  let (unit, scale) := if 0 ≤ e then (twoPow e.toNat, 4) else (1, 4 * twoPow (-e).toNat)
  { low := (4 * m - below) * unit, middle := 4 * m * unit, high := (4 * m + 2) * unit
    scale := scale, closed := m % 2 = 0 }

/-- Whether `num / den` lies in the interval. -/
def RoundingInterval.contains (i : RoundingInterval) (num den : Nat) : Bool :=
  let v := num * i.scale
  if i.closed then i.low * den ≤ v && v ≤ i.high * den else i.low * den < v && v < i.high * den

/-- The ratio `digits · 10 ^ exponent`. -/
def Numeral.toRatio (d : Numeral) : Nat × Nat :=
  if 0 ≤ d.exponent then (d.digits * tenPow d.exponent.toNat, 1)
  else (d.digits, tenPow (-d.exponent).toNat)

/-- The neighbours of the number on the grid of multiples of `10 ^ p`, below and above. -/
def gridNeighbours (i : RoundingInterval) (p : Int) : Nat × Nat :=
  let q := if 0 ≤ p then i.middle / (i.scale * tenPow p.toNat)
    else i.middle * tenPow (-p).toNat / i.scale
  (q, q + 1)

/-- Whether the lower of two neighbours on a grid is taken: it is the nearer one, or both are
equally near and it is even. -/
def takesLower (i : RoundingInterval) (q : Nat) (p : Int) : Bool :=
  let (num, den) := Numeral.toRatio ⟨2 * q + 1, p⟩
  let twice := 2 * i.middle * den
  twice < num * i.scale || (twice = num * i.scale && q % 2 = 0)

/-- The first grid, from `n` digits on, that meets the interval. -/
def firstGrid (i : RoundingInterval) (lead : Int) : Nat → Nat → Numeral
  | 0, n =>
    let p := lead - n + 1
    ⟨(gridNeighbours i p).1, p⟩
  | tries + 1, n =>
    let p := lead - n + 1
    let (q, q') := gridNeighbours i p
    let inside (d : Nat) : Bool :=
      let (num, den) := Numeral.toRatio ⟨d, p⟩
      i.contains num den
    match inside q, inside q' with
    | true, true => if takesLower i q p then ⟨q, p⟩ else ⟨q', p⟩
    | true, false => ⟨q, p⟩
    | false, true => ⟨q', p⟩
    | false, false => firstGrid i lead tries (n + 1)

/-- The shortest numeral that reads back as the positive number `x`; seventeen digits always
suffice. -/
def Binary64.shortest (x : Binary64) : Numeral :=
  let i := x.roundingInterval
  firstGrid i (leadingExponent i.middle i.scale) 17 1

/-- Trailing zeros of the digits, moved to the exponent. -/
def Numeral.normalize : Nat → Numeral → Numeral
  | 0, d => d
  | steps + 1, d =>
    if d.digits % 10 = 0 && d.digits != 0 then
      Numeral.normalize steps ⟨d.digits / 10, d.exponent + 1⟩
    else d

/-- How floating point numbers are written: which decimal point positions are written without an
exponent. -/
structure FloatLayout where
  leastPoint : Int
  greatestPoint : Int

/-- Numbers from 10^-5 to below 10^16 are positional. -/
def FloatLayout.standard : FloatLayout := ⟨-4, 16⟩

/-- A positive numeral written out: positional with at least one digit on both sides of the
point, or with an exponent that carries its sign. -/
def Numeral.render (layout : FloatLayout) (d : Numeral) : List Char :=
  let digits := Nat.toDigits 10 d.digits
  let n : Int := digits.length
  let point := n + d.exponent
  if 0 ≤ d.exponent && point ≤ layout.greatestPoint then
    digits ++ List.replicate d.exponent.toNat '0' ++ ['.', '0']
  else if 0 < point && point ≤ layout.greatestPoint then
    digits.take point.toNat ++ ['.'] ++ digits.drop point.toNat
  else if layout.leastPoint ≤ point && point ≤ 0 then
    ['0', '.'] ++ List.replicate (-point).toNat '0' ++ digits
  else
    let e := point - 1
    let mantissa := match digits with
      | [] => []
      | [c] => [c]
      | c :: rest => c :: '.' :: rest
    mantissa ++ ['e', if e < 0 then '-' else '+'] ++ Nat.toDigits 10 e.natAbs

/-- The text of a number. -/
def Binary64.render (x : Binary64) : List Char :=
  let sign := if x.isNegative then ['-'] else []
  if x.isZero then sign ++ ['0', '.', '0']
  else sign ++ (x.shortest.normalize 20).render .standard

end WatchCache.Decimal
