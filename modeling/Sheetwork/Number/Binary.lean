/-
  Numbers: binary floating point seen as a sign and `m · 2^q`. `nearest` rounds a quotient of naturals to the nearest
  float, a tie going to the even neighbour; it serves decimal reading, whole numbers and quotients alike. Remainders
  and roundings are computed on whole numbers.
-/

-- what is imported does not change what powers and sums are
attribute [instance (high)] instPowNat Zero.ofOfNat0

namespace Sheetwork.Number

/-- The quotient rounded to the nearest whole number, a half going to the even one. -/
def roundDiv (num den : Nat) : Nat :=
  let q := num / den
  let r := num % den
  if 2 * r < den then q
  else if den < 2 * r then q + 1
  else if q % 2 = 0 then q else q + 1

/-- A float is no number, infinite or `m · 2^q` with a sign. -/
inductive Binary where
  | nan
  | inf (neg : Bool)
  | finite (neg : Bool) (m : Nat) (q : Int)

variable (x : Float)

def Binary.ofFloat : Binary :=
  let b := x.toBits.toNat
  let neg := b / 2 ^ (63 : Nat) = 1
  let e : Nat := b / 2 ^ (52 : Nat) % 2048
  let f := b % 2 ^ (52 : Nat)
  if e = 2047 then if f = 0 then .inf neg else .nan
  else if e = 0 then .finite neg f (-1074)
  else .finite neg (f + 2 ^ (52 : Nat)) ((e : Int) - 1075)

variable (neg : Bool)

def signBit : Nat := if neg then 2 ^ (63 : Nat) else 0

def infinity : Float := Float.ofBits (signBit neg + 2047 * 2 ^ (52 : Nat)).toUInt64

def notANumber : Float := Float.ofBits (0x7ff8000000000000 : Nat).toUInt64

/-- The float `m · 2^q` for `m ≤ 2^53` and `-1074 ≤ q`, where `2^52 ≤ m` unless `q = -1074`. -/
def compose (m : Nat) (q : Int) : Float :=
  let (m, q) := if m = 2 ^ (53 : Nat) then (2 ^ (52 : Nat), q + 1) else (m, q)
  if 971 < q then infinity neg
  else if m < 2 ^ (52 : Nat) then Float.ofBits (signBit neg + m).toUInt64
  else Float.ofBits (signBit neg + (q + 1075).toNat * 2 ^ (52 : Nat) + (m - 2 ^ (52 : Nat))).toUInt64

def bitLength (n : Nat) : Nat := if n = 0 then 0 else n.log2 + 1

def scaledDiv (num den : Nat) (q : Int) : Nat :=
  if 0 ≤ q then roundDiv num (den * 2 ^ q.toNat) else roundDiv (num * 2 ^ (-q).toNat) den

def nearest (num den : Nat) : Float :=
  if num = 0 then Float.ofBits (signBit neg).toUInt64
  else
    let q : Int := (bitLength num : Int) - bitLength den - 53
    let under : Bool :=
      if 0 ≤ q then num < den * 2 ^ q.toNat * 2 ^ (53 : Nat) else num * 2 ^ (-q).toNat < den * 2 ^ (53 : Nat)
    let q := if under then q else q + 1
    let q := max q (-1074)
    compose neg (scaledDiv num den q) q

def ofInt (n : Int) : Float := nearest (n < 0) n.natAbs 1

/-- Whole numbers from this one on have no finite float. -/
def isTooLarge (n : Int) : Bool := (ofInt n).isInf

def isNegative : Bool := x.toBits.toNat / 2 ^ (63 : Nat) = 1

def ratio (m : Nat) (q : Int) : Nat × Nat := if 0 ≤ q then (m * 2 ^ q.toNat, 1) else (m, 2 ^ (-q).toNat)

def signed (n : Nat) : Int := if neg then -(n : Int) else n

/-- The whole part, toward zero, of a finite float. -/
def truncate? : Option Int :=
  match Binary.ofFloat x with
  | .finite neg m q => let (n, d) := ratio m q; some (signed neg (n / d))
  | _ => none

def floor? : Option Int :=
  match Binary.ofFloat x with
  | .finite neg m q => let (n, d) := ratio m q; some ((signed neg n).fdiv d)
  | _ => none

def ceil? : Option Int :=
  match Binary.ofFloat x with
  | .finite neg m q => let (n, d) := ratio m q; some (-((-(signed neg n)).fdiv d))
  | _ => none

/-- The nearest whole number, a half going to the even one. -/
def roundEven? : Option Int :=
  match Binary.ofFloat x with
  | .finite neg m q => let (n, d) := ratio m q; some (signed neg (roundDiv n d))
  | _ => none

def isWhole : Bool :=
  match Binary.ofFloat x with
  | .finite _ m q => let (n, d) := ratio m q; n % d = 0
  | _ => false

/-- The order of a whole number and a float, none for no number. -/
def compareInt (n : Int) (x : Float) : Option Ordering :=
  match Binary.ofFloat x with
  | .nan => none
  | .inf neg => some (if neg then .gt else .lt)
  | .finite neg m q => let (a, d) := ratio m q; some (compare (n * d) (signed neg a))

def align (m₁ : Nat) (q₁ : Int) (m₂ : Nat) (q₂ : Int) : Nat × Nat × Int :=
  let q := min q₁ q₂
  (m₁ * 2 ^ (q₁ - q).toNat, m₂ * 2 ^ (q₂ - q).toNat, q)

/-- The remainder with the sign of `x`, exact. -/
def remainder (x y : Float) : Float :=
  match Binary.ofFloat x, Binary.ofFloat y with
  | .nan, _ => notANumber
  | _, .nan => notANumber
  | .inf _, _ => notANumber
  | .finite .., .inf _ => x
  | .finite neg m₁ q₁, .finite _ m₂ q₂ =>
    if m₂ = 0 then notANumber
    else
      let (a, b, q) := align m₁ q₁ m₂ q₂
      let (n, d) := ratio (a % b) q
      nearest neg n d

def copySign (neg : Bool) : Float := if isNegative x = neg then x else -x

/-- Quotient and remainder for a divisor that is not zero; the remainder has the divisor's sign. -/
def divMod (x y : Float) : Float × Float :=
  let r := remainder x y
  let d := (x - r) / y
  let (d, r) :=
    if r == 0 then (d, copySign r (isNegative y))
    else if (y < 0) ≠ (r < 0) then (d - 1.0, r + y) else (d, r)
  if d == 0 then (copySign 0.0 (isNegative (x / y)), r)
  else
    let f := d.floor
    (if d - f > 0.5 then f + 1.0 else f, r)

/-- The quotient of two whole numbers, correctly rounded; the divisor is not zero. -/
def quotient (a b : Int) : Float := nearest ((a < 0) ≠ (b < 0) && a ≠ 0) a.natAbs b.natAbs

/-- `x` rounded to `places` decimal places, a half going to the even digit. -/
def roundPlaces (places : Int) : Float :=
  match Binary.ofFloat x with
  | .finite neg m q =>
    if 323 < places then x
    else if places < -308 then nearest neg 0 1
    else
      let (n, d) := ratio m q
      if 0 ≤ places then nearest neg (roundDiv (n * 10 ^ places.toNat) d) (10 ^ places.toNat)
      else
        nearest neg (roundDiv n (d * 10 ^ (-places).toNat) * 10 ^ (-places).toNat) 1
  | _ => x

/-- A whole number rounded to a multiple of `10 ^ k`, a half going to the even multiple; a number
  whose double has fewer binary digits than `k` rounds to zero. -/
def roundTens (n : Int) (k : Nat) : Int :=
  if n.natAbs.log2 + 2 < k then 0 else signed (n < 0) (roundDiv n.natAbs (10 ^ k) * 10 ^ k)

/-- Whether two numbers differ by at most a fraction of either, or by at most a fixed amount. -/
def isClose (fraction amount : Float) (x y : Float) : Bool :=
  if x == y then true
  else if x.isInf || y.isInf then false
  else
    let d := (y - x).abs
    d ≤ (fraction * y).abs || d ≤ (fraction * x).abs || d ≤ amount

end Sheetwork.Number
