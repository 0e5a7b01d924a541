/-!
Binary floating point numbers of 64 bits, kept as their bits, so that every value, NaN and negative
zero included, equals itself and nothing else. With them the shortest decimal that reads back as a
given number.
-/

namespace PluginHost

structure Binary64 where
  bits : UInt64
deriving DecidableEq, Inhabited

namespace Binary64

/-- The sign bit; set for negative zero too. -/
def isNegative (x : Binary64) : Bool := x.bits >>> 63 == 1

def exponentField (x : Binary64) : Nat := ((x.bits >>> 52) &&& 0x7FF).toNat

def fractionField (x : Binary64) : Nat := (x.bits &&& 0xFFFFFFFFFFFFF).toNat

def isNaN (x : Binary64) : Bool := x.exponentField == 0x7FF && x.fractionField != 0

def isInfinite (x : Binary64) : Bool := x.exponentField == 0x7FF && x.fractionField == 0

def isFinite (x : Binary64) : Bool := x.exponentField != 0x7FF

/-- `significand * 2 ^ scale` is the magnitude of a finite number. -/
def significand (x : Binary64) : Nat :=
  if x.exponentField = 0 then x.fractionField else 1 <<< 52 + x.fractionField

def scale (x : Binary64) : Int := (max 1 x.exponentField : Nat) - (1075 : Int)

/-- Sign, biased exponent and fraction put together. -/
def ofFields (negative : Bool) (exponent fraction : Nat) : Binary64 :=
  ⟨UInt64.ofNat ((if negative then 1 <<< 63 else 0) + exponent <<< 52 + fraction)⟩

def zero (negative : Bool) : Binary64 := ofFields negative 0 0

def infinity (negative : Bool) : Binary64 := ofFields negative 0x7FF 0

/-- The quiet NaN without payload. -/
def nan (negative : Bool) : Binary64 := ofFields negative 0x7FF (1 <<< 51)

/-- A power of ten. -/
def tenTo (n : Nat) : Nat := Nat.pow 10 n

/-- The quotient rounded to the nearest integer, a half to the even one. -/
def roundHalfEven (numerator denominator : Nat) : Nat :=
  let q := numerator / denominator
  let r := numerator % denominator
  if 2 * r > denominator || (2 * r == denominator && q % 2 == 1) then q + 1 else q

/-- The nearest number to a positive fraction; what exceeds the range becomes infinite. -/
def ofRatio (negative : Bool) (numerator denominator : Nat) : Binary64 :=
  if numerator = 0 ∨ denominator = 0 then zero negative
  else
    -- the fraction lies within a factor two of 2 ^ guess
    let guess : Int := (Nat.log2 numerator : Int) - Nat.log2 denominator
    let magnitude : Int :=
      if numerator <<< (-guess).toNat < denominator <<< guess.toNat then guess - 1 else guess
    let scale : Int := max (magnitude - 52) (-1074)
    let rounded := roundHalfEven (numerator <<< (-scale).toNat) (denominator <<< scale.toNat)
    let (significand, scale) := if rounded = 1 <<< 53 then (1 <<< 52, scale + 1) else (rounded, scale)
    if significand < 1 <<< 52 then ofFields negative 0 significand
    else if scale + 1075 ≥ 0x7FF then infinity negative
    else ofFields negative (scale + 1075).toNat (significand - 1 <<< 52)

/-- The nearest number to `mantissa * 10 ^ exponent`. Exponents far outside the range are settled
    without a power of ten. -/
def ofDecimal (negative : Bool) (mantissa : Nat) (exponent : Int) : Binary64 :=
  let size : Int := (Nat.toDigits 10 mantissa).length
  if mantissa = 0 || size + exponent < -330 then zero negative
  else if size + exponent > 310 then infinity negative
  else ofRatio negative (mantissa * tenTo exponent.toNat) (tenTo (-exponent).toNat)

end Binary64

/-! Numbers as the machine counts with them. -/

namespace Binary64

def toFloat (x : Binary64) : Float := Float.ofBits x.bits

def ofFloat (x : Float) : Binary64 := ⟨x.toBits⟩

/-- Whether a number is below another one; NaN is below none. -/
def isBelow (x y : Binary64) : Bool := x.toFloat < y.toFloat

/-! The shortest decimal that reads back. -/

/-- A magnitude as a fraction. -/
def ratio (x : Binary64) : Nat × Nat :=
  (x.significand <<< x.scale.toNat, 1 <<< (-x.scale).toNat)

/-- Twice the distance from a magnitude to the lower end of the interval that rounds to it, in
    quarters of its last place. Below a power of two the interval is half as wide. -/
def lowerQuarters (x : Binary64) : Nat :=
  if x.fractionField = 0 ∧ x.exponentField > 1 then 1 else 2

/-- Whether `digits * 10 ^ exponent` rounds to the magnitude of `x`. The ends of the interval count
    when the significand is even. -/
def rounds (x : Binary64) (digits : Nat) (exponent : Int) : Bool :=
  -- both sides in quarters of the last place of `x`
  let unit := (digits * 4 * tenTo exponent.toNat) <<< (-x.scale).toNat
  let weight := tenTo (-exponent).toNat <<< x.scale.toNat
  let low := (4 * x.significand - x.lowerQuarters) * weight
  let high := (4 * x.significand + 2) * weight
  if x.significand % 2 = 0 then low ≤ unit && unit ≤ high else low < unit && unit < high

/-- The exponent `k` with `10 ^ k ≤ magnitude < 10 ^ (k + 1)`, for a positive finite number. All
    such numbers exceed `10 ^ -400`. -/
def decimalMagnitude (x : Binary64) : Int :=
  let (numerator, denominator) := x.ratio
  ((Nat.toDigits 10 (numerator * tenTo 400 / denominator)).length : Int) - 401

/-- The best decimal of `count` digits that rounds to `x`: of the two grid points around `x` the
    nearer one, in a tie the even one. -/
def withDigits? (x : Binary64) (count : Nat) : Option (Nat × Int) :=
  let exponent : Int := x.decimalMagnitude - (count - 1 : Nat)
  let (numerator, denominator) := x.ratio
  let numerator := numerator * tenTo (-exponent).toNat
  let denominator := denominator * tenTo exponent.toNat
  let below := numerator / denominator
  let twiceRest := 2 * (numerator % denominator)
  let nearer := if twiceRest > denominator || (twiceRest == denominator && below % 2 == 1)
    then below + 1 else below
  let other := if nearer = below then below + 1 else below
  if x.rounds nearer exponent then some (nearer, exponent)
  else if x.rounds other exponent then some (other, exponent)
  else none

/-- Digits and exponent of the shortest decimal that rounds to a positive finite number, without
    trailing zeros. Seventeen digits always suffice. -/
def shortest (x : Binary64) : Nat × Int :=
  match (List.range' 1 17).findSome? x.withDigits? with
  | some found => trimZeros 400 found
  | none => (0, 0)
where
  trimZeros : Nat → Nat × Int → Nat × Int
    | 0, found => found
    | fuel + 1, (digits, exponent) =>
      if digits % 10 = 0 then trimZeros fuel (digits / 10, exponent + 1) else (digits, exponent)

end Binary64

end PluginHost
