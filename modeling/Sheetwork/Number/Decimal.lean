import Sheetwork.Number.Binary
import Sheetwork.Text.Basic
/-
  Numbers: decimal text of floats, and numbers read from text. `shortest` takes the fewest digits that read back, and
  among those the ones nearest to the value; `Layout` says how digits and exponent are written. White space around a
  number that is read is skipped, digits are those of any script, and an underscore may stand between two digits.
-/

namespace Sheetwork.Number

/-- `0.d₁d₂… · 10^point`, the digits of `digits` from the left. -/
structure Digits where
  (digits count : Nat)
  point : Int

def scaleTen (a b : Nat) (k : Int) : Nat × Nat := if 0 ≤ k then (a, b * 10 ^ k.toNat) else (a * 10 ^ (-k).toNat, b)

/-- The exponent `p` with `10^(p-1) ≤ a / b < 10^p`, corrected from a guess by at
most `fuel` steps. -/
def tenPower (a b : Nat) : Nat → Int → Int
  | 0, p => p
  | fuel + 1, p =>
    let (n, d) := scaleTen a b p
    if d ≤ n then tenPower a b fuel (p + 1)
    else if n * 10 < d then tenPower a b fuel (p - 1)
    else p

/-- The ends of the values that round to `m · 2^q`, over one denominator: low, value, high, den. -/
def roundingInterval (m : Nat) (q : Int) : Nat × Nat × Nat × Nat :=
  let low := if m = 2 ^ (52 : Nat) ∧ q ≠ -1074 then 4 * m - 1 else 4 * m - 2
  let (s, d) := ratio 1 (q - 2)
  (low * s, 4 * m * s, (4 * m + 2) * s, d)

/-- A digit count tried: the value's neighbours on the grid of `count` digits that read back. -/
def tryCount (m : Nat) (interval : Nat × Nat × Nat × Nat) (point : Int) (count : Nat) : Option Nat :=
  let (low, v, high, den) := interval
  let k := point - count
  let (vn, vd) := scaleTen v den k
  let (ln, _) := scaleTen low den k
  let (hn, _) := scaleTen high den k
  let f := vn / vd
  let inside := fun c : Nat =>
    if m % 2 = 0 then ln ≤ c * vd && c * vd ≤ hn else ln < c * vd && c * vd < hn
  let up := if vn % vd = 0 then f else f + 1
  match inside f, inside up with
  | true, true =>
    if vn - f * vd < up * vd - vn then some f
    else if up * vd - vn < vn - f * vd then some up
    else some (if f % 2 = 0 then f else up)
  | true, false => some f
  | false, true => some up
  | false, false => none

def firstCount (m : Nat) (interval : Nat × Nat × Nat × Nat) (point : Int) : Nat → Nat → Digits
  | 0, count => ⟨0, count, point⟩
  | fuel + 1, count =>
    match tryCount m interval point count with
    | some ds =>
      if ds = 10 ^ count then ⟨1, 1, point + 1⟩ else ⟨ds, count, point⟩
    | none => firstCount m interval point fuel (count + 1)

def shortest (m : Nat) (q : Int) : Digits :=
  let interval := roundingInterval m q
  let (_, v, _, den) := interval
  let guess : Int := ((bitLength m : Int) + q) * 30103 / 100000
  let point := tenPower v den 4 guess
  firstCount m interval point 18 1

structure Layout where
  /-- Positional notation from this point position on. -/
  leastPoint : Int
  /-- Positional notation up to this point position. -/
  mostPoint : Int
  /-- Whole numbers keep a point and a zero. -/
  keepPoint : Bool
  exponentWidth : Nat

/-- Positional from `0.0001` up to sixteen digits, else `d.ddde±dd`. -/
def plainLayout : Layout := ⟨-3, 16, true, 2⟩

def Layout.write (f : Layout) (ds : Digits) : List Char :=
  let cs := Text.natL ds.digits
  if f.leastPoint ≤ ds.point ∧ ds.point ≤ f.mostPoint then
    if ds.point ≤ 0 then '0' :: '.' :: (List.replicate (-ds.point).toNat '0' ++ cs)
    else
      let p := ds.point.toNat
      if cs.length ≤ p then
        cs ++ List.replicate (p - cs.length) '0' ++ (if f.keepPoint then ['.', '0'] else [])
      else cs.take p ++ '.' :: cs.drop p
  else
    let e := ds.point - 1
    let es := Text.natL e.natAbs
    let mant := match cs with
      | [d] => [d]
      | d :: r => d :: '.' :: r
      | [] => []
    mant ++ 'e' :: (if e < 0 then '-' else '+') :: (List.replicate (f.exponentWidth - es.length) '0' ++ es)

def Layout.text (f : Layout) (x : Float) : String :=
  match Binary.ofFloat x with
  | .nan => "nan"
  | .inf neg => if neg then "-inf" else "inf"
  | .finite neg m q =>
    let body :=
        if m = 0 then (if f.keepPoint then ['0', '.', '0'] else ['0']) else f.write (shortest m q)
    String.ofList (if neg then '-' :: body else body)

/-- The shortest text that reads back as the float. -/
def text (x : Float) : String := plainLayout.text x

/-- The digits of a whole number with `places` of them after the point. -/
def pointed (n places : Nat) : List Char :=
  let cs := Text.natL n
  let cs := List.replicate (places + 1 - cs.length) '0' ++ cs
  if places = 0 then cs
  else cs.take (cs.length - places) ++ '.' :: cs.drop (cs.length - places)

/-- A float with a fixed number of places, a half going to the even digit. -/
def fixedText (places : Nat) (x : Float) : String :=
  match Binary.ofFloat x with
  | .nan => "nan"
  | .inf neg => if neg then "-inf" else "inf"
  | .finite neg m q =>
    let (n, d) := ratio m q
    let body := pointed (roundDiv (n * 10 ^ places) d) places
    String.ofList (if neg then '-' :: body else body)

/-- Digits with underscores between them: the digits and the rest; `inside` says that a digit stands
before. -/
def scanDigitsFrom (isDigit : Char → Bool) (inside : Bool) : List Char → List Char × List Char
  | [] => ([], [])
  | c :: r =>
    if isDigit c then
      let (ds, rest) := scanDigitsFrom isDigit true r
      (c :: ds, rest)
    else if c = '_' && inside && r.head?.any isDigit then scanDigitsFrom isDigit false r
    else ([], c :: r)

def scanDigits (s : List Char) : List Char × List Char := scanDigitsFrom Text.isDecimal false s

def scanSign : List Char → Bool × List Char
  | '-' :: r => (true, r)
  | '+' :: r => (false, r)
  | r => (false, r)

/-- A text of more digits than this is not read as a whole number. -/
def maxDigits : Nat := 4300

def int? (s : String) : Option Int :=
  let (neg, r) := scanSign (Text.stripL s.toList)
  match scanDigits r with
  | (d :: ds, []) =>
    if maxDigits < ds.length + 1 then none
    else some (signed neg (Text.natOfDigits (d :: ds)))
  | _ => none

/-- `digits · 10^e` as a float; an exponent out of reach is decided by the size alone. -/
def ofDecimal (neg : Bool) (n : Nat) (e : Int) : Float :=
  if n = 0 then nearest neg 0 1
  else
    let size : Int := (Text.natL n).length + e
    if 400 < size then infinity neg
    else if size < -400 then nearest neg 0 1
    else if 0 ≤ e then nearest neg (n * 10 ^ e.toNat) 1
    else nearest neg n (10 ^ (-e).toNat)

/-- The exponent, if there is one with at least one digit. -/
def scanExponent? (isDigit : Char → Bool) : List Char → Option (Int × List Char)
  | c :: r =>
    if c = 'e' || c = 'E' then
      let (neg, r) := scanSign r
      match scanDigitsFrom isDigit false r with
      | ([], _) => none
      | (ds, rest) => some (signed neg (Text.natOfDigits (ds.take 12)), rest)
    else none
  | [] => none

/-- A float, if the text writes one; `inf`, `infinity` and `nan` are read in any case. -/
def float? (s : String) : Option Float :=
  let cs := Text.stripL s.toList
  let (neg, r) := scanSign cs
  let name := String.ofList (r.map Char.toLower)
  if name = "inf" || name = "infinity" then some (infinity neg)
  else if name = "nan" then some (if neg then -notANumber else notANumber)
  else
    let (whole, r) := scanDigits r
    let (frac, r) := match r with
      | '.' :: r' => scanDigits r'
      | _ => ([], r)
    if whole.isEmpty && frac.isEmpty then none
    else
      let (e, rest) := (scanExponent? Text.isDecimal r).getD (0, r)
      if rest.isEmpty then some (ofDecimal neg (Text.natOfDigits (whole ++ frac)) (e - frac.length))
      else none

end Sheetwork.Number
