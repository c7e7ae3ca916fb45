import Sheetwork.Value.Arith
/-
  Values: percent templates. A template holds conversions `%d`, `%s`, `%5.2f` …, each with flags, a width and a
  precision; they take the argument, or the elements of a tuple in turn.
-/

namespace Sheetwork.Value.Percent

open Number Text

structure Spec where
  (left sign space zero alt : Bool)
  width : Nat
  precision : Option Nat
  kind : Char

def flags : List Char → Spec → Spec × List Char
  | '-' :: r, s => flags r { s with left := true }
  | '+' :: r, s => flags r { s with sign := true }
  | ' ' :: r, s => flags r { s with space := true }
  | '0' :: r, s => flags r { s with zero := true }
  | '#' :: r, s => flags r { s with alt := true }
  | r, s => (s, r)

def spec? (s : List Char) : Option (Spec × List Char) :=
  let (sp, s) := flags s ⟨false, false, false, false, false, 0, none, 's'⟩
  let width := s.takeWhile isAsciiDigit
  let s := s.dropWhile isAsciiDigit
  let (prec, s) := match s with
    | '.' :: r => (some (natOfDigits (r.takeWhile isAsciiDigit)), r.dropWhile isAsciiDigit)
    | _ => (none, s)
  match s with
  | k :: r => some ({ sp with width := natOfDigits width, precision := prec, kind := k }, r)
  | [] => none

variable (sp : Spec)

/-- Fills to the width, zeros going between a sign and its digits. -/
def Spec.pad (numeric : Bool) (body : List Char) : List Char :=
  let n := sp.width - body.length
  if sp.left then body ++ List.replicate n ' '
  else if sp.zero && numeric then
    match body with
    | c :: r =>
      if c = '-' || c = '+' || c = ' ' then c :: (List.replicate n '0' ++ r)
      else List.replicate n '0' ++ body
    | [] => List.replicate n '0'
  else List.replicate n ' ' ++ body

def Spec.signed (neg : Bool) (digits : List Char) : List Char :=
  if neg then '-' :: digits else if sp.sign then '+' :: digits else if sp.space then ' ' :: digits else digits

def Spec.whole (n : Int) (base : Nat) (upper : Bool) (mark : List Char) : List Char :=
  let ds := Nat.toDigits base n.natAbs
  let ds := if upper then ds.map Char.toUpper else ds
  let ds := List.replicate ((sp.precision.getD 0) - ds.length) '0' ++ ds
  sp.pad true (sp.signed (n < 0) ((if sp.alt then mark else []) ++ ds))

/-- `p + 1` significant digits and the power of ten of the first. -/
def significant (m : Nat) (q : Int) (p : Nat) : Nat × Int :=
  if m = 0 then (0, 0)
  else
    let (a, b) := ratio m q
    let guess : Int := ((bitLength m : Int) + q) * 30103 / 100000
    let e := tenPower a b 4 guess - 1
    let (n, d) := scaleTen a b (e - p)
    let ds := roundDiv n d
    if ds = 10 ^ (p + 1) then (10 ^ p, e + 1) else (ds, e)

def exponentText (e : Int) : List Char :=
  let ds := natL e.natAbs
  'e' :: (if e < 0 then '-' else '+') :: (List.replicate (2 - ds.length) '0' ++ ds)

def scientific (m : Nat) (q : Int) (p : Nat) : List Char :=
  let (ds, e) := significant m q p
  let cs := natL ds
  let cs := cs ++ List.replicate (p + 1 - cs.length) '0'
  (match cs with
    | d :: r => if r.isEmpty then [d] else d :: '.' :: r
    | [] => []) ++ exponentText e

def trimZeros (s : List Char) : List Char :=
  if s.contains '.' then dropRightWhileL (· = '.') (dropRightWhileL (· = '0') s)
  else s

def general (m : Nat) (q : Int) (p : Nat) : List Char :=
  let p := if p = 0 then 1 else p
  let (ds, e) := significant m q (p - 1)
  if -4 ≤ e && e < p then
    let (a, b) := ratio m q
    let places := ((p : Int) - 1 - e).toNat
    trimZeros (pointed (roundDiv (a * 10 ^ places) b) places)
  else
    let cs := natL ds
    let mant := match cs with
      | d :: r => if r.isEmpty then [d] else d :: '.' :: r
      | [] => []
    trimZeros mant ++ exponentText e

def Spec.real (x : Float) : List Char :=
  let p := sp.precision.getD 6
  let upper (s : List Char) :=
      if sp.kind = 'E' || sp.kind = 'G' || sp.kind = 'F' then s.map Char.toUpper else s
  match Number.Binary.ofFloat x with
  | .nan => sp.pad false (sp.signed false (upper ['n', 'a', 'n']))
  | .inf neg => sp.pad false (sp.signed neg (upper ['i', 'n', 'f']))
  | .finite neg m q =>
    let k := sp.kind.toLower
    let body :=
      if k = 'f' then
        let (a, b) := ratio m q
        pointed (roundDiv (a * 10 ^ p) b) p
      else if k = 'e' then scientific m q p
      else general m q p
    sp.pad true (sp.signed neg (upper body))

/-- A value as a whole number: a float is cut, a text is none. -/
def wholeOf : Value → Outcome Int
  | .text _ => .error .wrongKind
  | v => v.toInt

def strictInt (v : Value) : Outcome Int :=
  match v.int? with
  | some n => .ok n
  | none => .error .wrongKind

def realOf : Value → Outcome Float
  | .text _ => .error .wrongKind
  | v => v.toFloat

def Spec.apply (v : Value) : Outcome (List Char) :=
  let cut (s : String) := match sp.precision with
    | some p => s.toList.take p
    | none => s.toList
  match sp.kind with
  | 's' => .ok (sp.pad false (cut v.toText))
  | 'r' => .ok (sp.pad false (cut v.literal))
  | 'd' => (wholeOf v).map fun n => sp.whole n 10 false []
  | 'i' => (wholeOf v).map fun n => sp.whole n 10 false []
  | 'u' => (wholeOf v).map fun n => sp.whole n 10 false []
  | 'x' => (strictInt v).map fun n => sp.whole n 16 false ['0', 'x']
  | 'X' => (strictInt v).map fun n => sp.whole n 16 true ['0', 'X']
  | 'o' => (strictInt v).map fun n => sp.whole n 8 false ['0', 'o']
  | 'c' => match v with
    | .text s => if s.length = 1 then .ok (sp.pad false s.toList) else .error .wrongKind
    | v => (strictInt v).bind fun n =>
      if 0 ≤ n && n < 0x110000 then .ok (sp.pad false [Char.ofNat n.toNat])
      else .error .tooLarge
  | k => if "eEfFgG".toList.contains k then (realOf v).map sp.real else .error .badValue

/-- Fills the conversions from the arguments; all of them are used unless `spare`. -/
def fill : Nat → List Char → List Value → Bool → Outcome (List Char)
  | 0, _, _, _ => .ok []
  | _ + 1, [], args, spare => if args.isEmpty || spare then .ok [] else .error .wrongKind
  | fuel + 1, c :: r, args, spare =>
    if c ≠ '%' then (fill fuel r args spare).map (c :: ·)
    else match spec? r with
      | none => .error .badValue
      | some (sp, rest) =>
        if sp.kind = '%' then (fill fuel rest args spare).map ('%' :: ·)
        else match args with
          | [] => .error .wrongKind
          | v :: vs => do
            let s ← sp.apply v
            let t ← fill fuel rest vs spare
            pure (s ++ t)

def format (template : String) (arg : Value) : Outcome Value :=
  let (args, spare) := match arg with
    | .tuple xs => (xs, false)
    | .list _ => ([arg], true)
    | .keyed _ => ([arg], true)
    | v => ([v], false)
  (fill (template.length + 1) template.toList args spare).map fun s => .text (String.ofList s)

end Sheetwork.Value.Percent

/-- The remainder, or a filled template if the first operand is a text. -/
def Sheetwork.Value.percent (a b : Value) : Outcome Value :=
  match a with
  | text s => Percent.format s b
  | _ => mod a b

