import Sheetwork.Text.Case
import Sheetwork.Value.Arith
/-
  Plans: functions of numbers. What is no number counts as zero, one level of lists is opened up, and a text criterion
  that begins with a comparison sign compares numbers.
-/

namespace Sheetwork.Plan.Functions

open Text Value

variable (v : Value)

def num : Outcome Float :=
  match v with
  | .int n => floatOfInt n
  | v => .ok (v.toFloat.toOption.getD 0.0)

def whole : Outcome Int := do intOfFloat (← num v)

def listOf : List Value := v.items?.getD [v]

variable (args : List Value)

def flat : List Value := args.flatMap listOf

def filled : Outcome (List Float) := ((flat args).filter (!·.isNull)).mapM num

variable (xs : List Float)

def total : Float := xs.foldl (· + ·) 0.0

def sum : Outcome Value := do pure (.float (total (← (flat args).mapM num)))

def mean : Value := if xs.isEmpty then .int 0 else .float (total xs / xs.length.toFloat)

def average : Outcome Value := mean <$> filled args

def isBlank : Bool := v.isNull || v == .text ""

def count : Nat := (flat args).countP isNumber

def countFilled : Nat := (flat args).countP fun v => !isBlank v

def countBlank : Nat := (flat args).countP isBlank

/-! Rounding and powers -/

/-- Rounds a number by a rule at some decimal places. -/
def roundAt (rule : Float → Float → Option Int) (v digits : Value) : Outcome Value := do
  let x ← num v
  let factor ← pow (.int 10) (.int (← whole digits))
  let scaled ← (← mul (.float x) factor).toFloat
  div (.int (← wholeBy (rule x) scaled)) factor

def roundDown (v digits : Value) : Outcome Value := roundAt (fun _ => Number.truncate?) v digits

def roundUp (v digits : Value) : Outcome Value :=
  roundAt (fun x => if 0 ≤ x then Number.ceil? else Number.floor?) v digits

def multiple (rule : Float → Option Int) (v step : Value) : Outcome Value := do
  let x ← num v
  let s ← num step
  if s == 0 then pure (.int 0)
  else mul (.int (← wholeBy rule (x / s))) (.float s)

def modulo (a b : Value) : Outcome Value := do
  let y ← num b
  if y == 0 then pure (.int 0) else mod (.float (← num a)) (.float y)

def power (a b : Value) : Outcome Value := do pow (.float (← num a)) (.float (← num b))

def squareRoot (x : Float) : Outcome Value := if x < 0 then .error .badValue else .ok (.float x.sqrt)

def log (x : Float) : Outcome Float := if x ≤ 0 then .error .badValue else .ok x.log

/-- A logarithm of a positive number, zero for any other. -/
def logOr (f : Float → Outcome Value) (v : Value) : Outcome Value := do
  let x ← num v
  if 0 < x then f x else pure (.int 0)

def logBase (v base : Value) : Outcome Value :=
  logOr (fun x => do
    let d ← log (← num base)
    div (.float (← log x)) (.float d)) v

def exponential : Outcome Value := do
  let x ← num v
  let y := x.exp
  if y.isInf && !x.isInf then .error .tooLarge else pure (.float y)

def sign (x : Float) : Int := if 0 < x then 1 else if x < 0 then -1 else 0

/-! Order and spread -/

/-- Where a number goes in `[lo, hi)` of ordered ones, found by halving: before the first above it. -/
def placeFor (x : Float) (xs : Array Float) (lo hi : Nat) : Nat :=
  if lo < hi then
    let mid := (lo + hi) / 2
    if xs[mid]?.any (x < ·) then placeFor x xs lo mid else placeFor x xs (mid + 1) hi
  else lo
termination_by hi - lo

def insertOrdered (xs : Array Float) (x : Float) : Array Float := xs.insertIdxIfInBounds (placeFor x xs 0 xs.size) x

/-- Numbers from the least on: those that go up at the beginning stay, those that go down are
turned round, and the others are put among them one by one. What is not a number hides what stands
behind it from the halving. -/
def ascending : List Float :=
  let falls (p : Float × Float) := decide (p.2 < p.1)
  let steps := xs.zip xs.tail
  let down := steps.head?.any falls
  let n := (steps.takeWhile (falls · == down)).length + 1
  let run := xs.take n
  ((xs.drop n).foldl insertOrdered (if down then run.reverse else run).toArray).toList

def descending : List Float := (ascending xs.reverse).reverse

def ranked (order : List Float → List Float) (range k : Value) : Outcome Value :=
  match range.items? with
  | none => .ok range
  | some xs => do
    let xs := order (← filled xs)
    let i := (← whole k) - 1
    pure (if i < 0 then .null else toFloat (xs[i.toNat]?))
where
  toFloat : Option Float → Value
    | some x => .float x
    | none => .null

/-- The place of a number, up to rounding, among the numbers of a list. -/
def rank (v range order : Value) : Outcome Value :=
  match range.items? with
  | none => .ok (.int 1)
  | some xs => do
    let xs ← filled xs
    let xs := if (← whole order) = 0 then descending xs else ascending xs
    let n ← num v
    pure (match xs.findIdx? fun x => Number.isClose 1e-9 0.0 x n with
      | some i => .ofNat (i + 1)
      | none => .null)

def median : Outcome Value := do
  let xs := ascending (← filled args)
  let n := xs.length
  let at_ (i : Nat) := (xs[i]?).getD 0.0
  pure (if xs.isEmpty then .int 0
    else if n % 2 = 1 then .float (at_ (n / 2))
    else .float ((at_ (n / 2 - 1) + at_ (n / 2)) / 2.0))

/-- The mean squared distance from the mean, for one less than the count; zero below two numbers. -/
def variance : Outcome Value := do
  let xs ← filled args
  if xs.length < 2 then return .int 0
  let mean := total xs / xs.length.toFloat
  let squares ← xs.mapM fun x => do (← floatPow (x - mean) 2.0).toFloat
  pure (.float (total squares / (xs.length - 1).toFloat))

def deviation : Outcome Value := do
  match ← variance args with
  | .float x => squareRoot x
  | v => pure v

/-! Criteria -/

def compareNumbers (test : Float → Float → Bool) (v : Value) (s : String) : Outcome Bool := do
  let x ← num v
  pure (test x (← num (.text s)))

def meets (v criterion : Value) : Outcome Bool :=
  match criterion with
  | .text s =>
    if startsWith ">=" s then compareNumbers (fun x y => x ≥ y) v (drop 2 s)
    else if startsWith "<=" s then compareNumbers (fun x y => x ≤ y) v (drop 2 s)
    else if startsWith "<>" s then .ok (v.toText != drop 2 s)
    else if startsWith ">" s then compareNumbers (fun x y => x > y) v (drop 1 s)
    else if startsWith "<" s then compareNumbers (fun x y => x < y) v (drop 1 s)
    else if startsWith "=" s then .ok (lower v.toText == lower (drop 1 s))
    else .ok (lower v.toText == lower s)
  | c => .ok (v == c)

def selected (criterion : Value) (keys values : List Value) : Outcome (List Value) := do
  pure ((← (keys.zip values).filterM fun (k, _) => meets k criterion).map (·.2))

variable (range criterion values : Value)

def sumIf : Outcome Value := do
  let values := if values.isNull then range else values
  let vs ← selected criterion (listOf range) (listOf values)
  pure (.float (total (← vs.mapM num)))

def averageIf : Outcome Value := do
  let values := if values.isNull then range else values
  mean <$> (← selected criterion (listOf range) (listOf values)).mapM num

def countIf (range criterion : Value) : Outcome Value := do
  pure (.ofNat (← (listOf range).filterM (meets · criterion)).length)

/-- Ranges with their criteria; a last one without a partner is left out. -/
def criteria : List Value → List (List Value × Value)
  | r :: c :: rest => (listOf r, c) :: criteria rest
  | _ => []

/-- Whether place `i` of every range that reaches so far meets its criterion. -/
def meetsAll (i : Nat) : List (List Value × Value) → Outcome Bool
  | [] => .ok true
  | (vs, c) :: rest => do
    match vs[i]? with
    | some v => if ← meets v c then meetsAll i rest else pure false
    | none => meetsAll i rest

def sumIfs (values : Value) (pairs : List Value) : Outcome Value := do
  let cs := criteria pairs
  let vs ← (listOf values).zipIdx.filterM fun (_, i) => meetsAll i cs
  pure (.float (total (← vs.mapM fun (v, _) => num v)))

def countIfs (pairs : List Value) : Outcome Value := do
  match criteria pairs with
  | [] => pure (.int 0)
  | cs@((vs, _) :: _) => pure (.ofNat (← (List.range vs.length).filterM (meetsAll · cs)).length)

def sumProduct : Outcome Value := do
  let rows ← args.mapM fun a => (listOf a).mapM num
  match rows with
  | [] => pure (.int 0)
  | r :: _ =>
    let n := rows.foldl (fun n xs => min n xs.length) r.length
    let product (i : Nat) := rows.foldl (fun p xs => p * (xs[i]?).getD 0.0) 1.0
    pure (.float (total ((List.range n).map product)))

end Sheetwork.Plan.Functions
