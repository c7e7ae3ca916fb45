import Sheetwork.Value.Order
/-
  Values: arithmetic. Whole numbers are exact, a float operand makes the result a float, and a quotient is always a
  float; texts and lists can be joined and repeated, and times shifted by spans.
-/

namespace Sheetwork.Value

open Number

inductive NumPair where
  | ints (a b : Int)
  | floats (x y : Float)
  | complexes (a b c d : Float)

def complexParts? : Value → Option (Outcome (Float × Float))
  | complex a b => some (.ok (a, b))
  | float x => some (.ok (x, 0))
  | v => v.int?.map fun n => (floatOfInt n).map (·, 0)

def numPair : Value → Value → Option (Outcome NumPair)
  | float x, float y => some (.ok (.floats x y))
  | a, b =>
    match int? a, int? b, a, b with
    | some m, some n, _, _ => some (.ok (.ints m n))
    | some m, none, _, float y => some ((floatOfInt m).map (.floats · y))
    | none, some n, float x, _ => some ((floatOfInt n).map (.floats x ·))
    | _, _, _, _ =>
      match complexParts? a, complexParts? b with
      | some p, some q => some do
        let (a, b) ← p
        let (c, d) ← q
        pure (.complexes a b c d)
      | _, _ => none

def addDays (d : Date) (micros : Int) : Outcome Value :=
  match d.addDays? (micros / DateTime.dayMicros) with
  | some d => .ok (date d)
  | none => .error .tooLarge

def addMicros (t : DateTime) (micros : Int) : Outcome Value :=
  match t.add? micros with
  | some t => .ok (datetime t)
  | none => .error .tooLarge

variable (a b : Value)

/-- An operation by the kind that both numbers have, and what it is on other values. -/
def arith (ints : Int → Int → Outcome Value) (floats : Float → Float → Outcome Value)
    (complexes : Float → Float → Float → Float → Outcome Value) (other : Outcome Value) : Outcome Value :=
  match numPair a b with
  | some (.error e) => .error e
  | some (.ok (.ints m n)) => ints m n
  | some (.ok (.floats x y)) => floats x y
  | some (.ok (.complexes a b c d)) => complexes a b c d
  | none => other

def add : Outcome Value :=
  arith a b (.ok <| int <| · + ·) (.ok <| float <| · + ·) (fun a b c d => .ok (complex (a + c) (b + d)))
    (match a, b with
    | text s, text t => .ok (text (s ++ t))
    | list xs, list ys => .ok (list (xs ++ ys))
    | tuple xs, tuple ys => .ok (tuple (xs ++ ys))
    | span m, span n => .ok (span (m + n))
    | date d, span n => addDays d n
    | span n, date d => addDays d n
    | datetime t, span n => addMicros t n
    | span n, datetime t => addMicros t n
    | _, _ => .error .wrongKind)

def sub : Outcome Value :=
  arith a b (.ok <| int <| · - ·) (.ok <| float <| · - ·) (fun a b c d => .ok (complex (a - c) (b - d)))
    (match a, b with
    | span m, span n => .ok (span (m - n))
    | date d, date e => .ok (span (((d.ordinal : Int) - e.ordinal) * DateTime.dayMicros))
    | datetime t, datetime u =>
      if t.time.zone.isSome = u.time.zone.isSome then .ok (span (t.instant - u.instant))
      else .error .wrongKind
    | date d, span n => addDays d (-n)
    | datetime t, span n => addMicros t (-n)
    | _, _ => .error .wrongKind)

def repeated {α : Type} (n : Int) (xs : List α) : List α := (List.replicate n.toNat xs).flatten

/-- A text or list repeated, if one operand is a whole number and the other can be. -/
def repeat? : Option Value :=
  match a, b.int? with
  | text s, some n => some (text (Text.times n.toNat s))
  | list xs, some n => some (list (repeated n xs))
  | tuple xs, some n => some (tuple (repeated n xs))
  | span m, some n => some (span (m * n))
  | _, _ => none

def mul : Outcome Value :=
  arith a b (.ok <| int <| · * ·) (.ok <| float <| · * ·) (fun a b c d => .ok (complex (a * c - b * d) (a * d + b * c)))
    (Fault.wrongKind.ifNone ((repeat? a b).orElse fun _ => repeat? b a))

/-- The quotient of complex numbers, scaled by the larger part of the divisor. -/
def complexDiv (a b c d : Float) : Outcome Value :=
  if c == 0 && d == 0 then .error .zeroDivisor
  else if c.abs ≥ d.abs then
    let r := d / c
    let den := c + d * r
    .ok (complex ((a + b * r) / den) ((b - a * r) / den))
  else
    let r := c / d
    let den := c * r + d
    .ok (complex ((a * r + b) / den) ((b * r - a) / den))

def div : Outcome Value :=
  arith a b (fun m n =>
      if n = 0 then .error .zeroDivisor
      else
        let x := quotient m n
        if x.isInf then .error .tooLarge else .ok (float x))
    (fun x y => if y == 0 then .error .zeroDivisor else .ok (float (x / y))) complexDiv
    (match a, b with
    | span m, span n => if n = 0 then .error .zeroDivisor else .ok (float (quotient m n))
    | _, _ => .error .wrongKind)

/-- A part of a division that leaves a remainder. -/
def divPart (ints : Int → Int → Int) (floats : Float × Float → Float) (a b : Value) : Outcome Value :=
  arith a b (fun m n => if n = 0 then .error .zeroDivisor else .ok (int (ints m n)))
    (fun x y => if y == 0 then .error .zeroDivisor else .ok (float (floats (divMod x y))))
    (fun _ _ _ _ => .error .wrongKind) (.error .wrongKind)

def floorDiv : Value → Value → Outcome Value := divPart Int.fdiv Prod.fst

def mod : Value → Value → Outcome Value := divPart Int.fmod Prod.snd

def complexPow (a b c d : Float) : Outcome Value :=
  if c == 0 && d == 0 then .ok (complex 1 0)
  else if a == 0 && b == 0 then
    if d == 0 && !(c < 0) then .ok (complex 0 0) else .error .zeroDivisor
  else
    let size := if b == 0 then a.abs else if a == 0 then b.abs else Float.sqrt (a * a + b * b)
    let angle := Float.atan2 b a
    let len := size.pow c
    let phase := angle * c
    let (len, phase) :=
      if d == 0 then (len, phase)
      else (len / Float.exp (angle * d), phase + d * Float.log size)
    let re := len * phase.cos
    let im := len * phase.sin
    if re.isInf || im.isInf then .error .tooLarge else .ok (complex re im)

def floatPow (x y : Float) : Outcome Value :=
  if y == 0 || x == 1 then .ok (float 1)
  else if x.isNaN || y.isNaN then .ok (float notANumber)
  else if x == 0 && y < 0 then .error .zeroDivisor
  else if x < 0 && !x.isInf && !y.isInf && !isWhole y then complexPow x 0 y 0
  else
    let r := x.pow y
    if r.isInf && !x.isInf && !y.isInf then .error .tooLarge else .ok (float r)

/-- The largest exponent that a power of whole numbers is computed for. -/
def maxExponent : Nat := 2 ^ (24 : Nat)

/-- A power of a whole number; beyond the largest exponent only zero and the units have one. -/
def intPow (m : Int) (n : Nat) : Outcome Int :=
  if n ≤ maxExponent then .ok (m ^ n)
  else if m = 0 || m = 1 then .ok m
  else if m = -1 then .ok (if n % 2 = 0 then 1 else -1)
  else .error .tooLarge

def pow : Outcome Value :=
  arith a b (fun m n =>
      if 0 ≤ n then int <$> intPow m n.toNat
      else if m = 0 then .error .zeroDivisor
      else do floatPow (← floatOfInt m) (← floatOfInt n))
    floatPow complexPow (.error .wrongKind)

/-- An operation on one number; a span keeps its kind. -/
def unary (ints : Int → Int) (floats : Float → Float) (complexes : Float → Float → Value) : Value → Outcome Value
  | float x => .ok (float (floats x))
  | complex a b => .ok (complexes a b)
  | span n => .ok (span (ints n))
  | v => Fault.wrongKind.ifNone (v.int?.map fun n => int (ints n))

def neg : Value → Outcome Value := unary (-·) (-·) fun a b => complex (-a) (-b)

def pos : Value → Outcome Value := unary id id complex

def abs : Value → Outcome Value := unary (·.natAbs) Float.abs fun a b => float (Float.sqrt (a * a + b * b))

/-- Rounds to whole numbers, or to `places` decimal places; a half goes to the even neighbour. -/
def round (v : Value) (places : Option Int) : Outcome Value :=
  match v, places with
  | float x, none => int <$> wholeBy roundEven? x
  | float x, some p =>
    let r := roundPlaces x p
    if r.isInf && !x.isInf then .error .tooLarge else .ok (float r)
  | v, p =>
    match v.int? with
    | some n =>
      match p with
      | some p => .ok (int (if 0 ≤ p then n else roundTens n (-p).toNat))
      | none => .ok (int n)
    | none => .error .wrongKind

def sumFrom (start : Value) (xs : List Value) : Outcome Value := xs.foldlM add start

def extreme (isBetter : Value → Value → Outcome Bool) : List Value → Outcome Value
  | [] => .error .badValue
  | x :: xs => xs.foldlM (fun m y => do if ← isBetter y m then pure y else pure m) x

def maxOf : List Value → Outcome Value := extreme gt

def minOf : List Value → Outcome Value := extreme lt

end Sheetwork.Value
