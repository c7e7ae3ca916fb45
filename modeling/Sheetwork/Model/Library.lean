import Sheetwork.Text.Case
import Sheetwork.Value.Arith
import Sheetwork.Value.Convert
/-
  Models: the functions of the formula engine. Texts that begin with a number sign are error values and pass through
  most functions; numbers are floats, and what is no number stops a strict function and counts as zero or not at all
  elsewhere.
-/

namespace Sheetwork.Model.Engine

def fault (s : String) : Fault := .saying .engine s

def isBlank : Value → Bool
  | .null => true
  | .text s => s.isEmpty
  | _ => false

def isError : Value → Bool
  | .text s => Text.startsWith "#" s
  | _ => false

variable (vs : List Value)

def firstError : Option Value := (Value.flattenAll vs).find? isError

/-- A value as a number; where it is none, a strict reading fails and any other gives zero. -/
def number (strict : Bool) (v : Value) : Outcome Float :=
  match v with
  | .bool b => .ok (if b then 1.0 else 0.0)
  | .int n => Value.floatOfInt n
  | .float x => .ok x
  | v =>
    if isError v then .error (fault ("Cannot coerce Excel error to number: " ++ v.toText))
    else if isBlank v then .ok 0.0
    else match v.toFloat with
      | .ok x => .ok x
      | .error _ =>
        if strict then .error (fault ("Cannot coerce to number: " ++ v.literal)) else .ok 0.0

def isZero (x : Float) : Bool := Number.isClose 1e-9 1e-12 x 0.0

def holds (v : Value) : Outcome Bool :=
  if isBlank v then .ok false
  else match v with
    | .bool b => .ok b
    | .int n => do pure (!isZero (← Value.floatOfInt n))
    | .float x => .ok (!isZero x)
    | .text s =>
      let t := Text.lower (Text.strip s)
      .ok (t != "false")
    | v => .ok v.truthy

def unlessError (f : Outcome Value) : Outcome Value :=
  match firstError vs with
  | some e => .ok e
  | none => f

/-! Operators -/

inductive Sign where
  | plus | minus | percent

inductive Operator where
  | add | sub | mul | div | pow | concat | eq | ne | gt | ge | lt | le
  deriving DecidableEq

def Sign.apply (s : Sign) (v : Value) : Outcome Value :=
  if isError v then .ok v
  else do
    let x ← number true v
    pure (.float (match s with
      | .plus => x
      | .minus => -x
      | .percent => x / 100.0))

def shown (v : Value) : String := if v.isNull then "" else v.toText

variable (a b : Value)

/-- Two values made comparable: as numbers if either is one, else as texts. -/
def comparable : Outcome (Value × Value) :=
  match firstError [a, b] with
  | some e => .ok (e, e)
  | none =>
    if a.isNumber || b.isNumber then do
      pure (.float (← number true a), .float (← number true b))
    else .ok (.text (shown a), .text (shown b))

def compare (test : Value → Value → Outcome Bool) (a b : Value) : Outcome Value := do
  let (a, b) ← comparable a b
  pure (.bool (← test a b))

def numeric (f : Float → Float → Outcome Value) (a b : Value) : Outcome Value :=
  unlessError [a, b] do f (← number true a) (← number true b)

def divide : Outcome Value :=
  unlessError [a, b] do
    let d ← number true b
    if isZero d then .error (fault "Division by zero")
    else pure (.float ((← number true a) / d))

def Operator.apply : Operator → Value → Value → Outcome Value
  | add => numeric fun x y => .ok (.float (x + y))
  | sub => numeric fun x y => .ok (.float (x - y))
  | mul => numeric fun x y => .ok (.float (x * y))
  | div => divide
  | pow => numeric fun x y => Value.pow (.float x) (.float y)
  | concat => fun a b => unlessError [a, b] (.ok (.text (shown a ++ shown b)))
  | eq => compare fun a b => .ok (a == b)
  | ne => compare fun a b => .ok (!(a == b))
  | gt => compare Value.gt
  | ge => compare Value.ge
  | lt => compare Value.lt
  | le => compare Value.le

/-! Functions -/

inductive Function where
  | sum | npv | choose | unlessFaulty | any | all | average | max | min | mod | roundUp | roundDown | year | month
  | today | now | sumproduct
  deriving DecidableEq

def numbers : Outcome (List Float) := do
  let read (v : Value) := match v with
    | .int n => some <$> Value.floatOfInt n
    | v => .ok (if isBlank v then none else v.toFloat.toOption)
  pure ((← (Value.flattenAll vs).mapM read).filterMap id)

/-- A number that is whole but for rounding becomes whole. -/
def settled (x : Float) : Outcome Value := do
  let n ← Value.wholeBy Number.roundEven? x
  pure (if Number.isClose 1e-12 1e-12 x (Number.ofInt n) then .int n else .float x)

def sum : Outcome Value := unlessError vs do settled ((← numbers vs).foldl (· + ·) 0.0)

def average : Outcome Value :=
  unlessError vs do
    let xs ← numbers vs
    if xs.isEmpty then .error (fault "AVERAGE with no numeric arguments")
    else pure (.float (xs.foldl (· + ·) 0.0 / xs.length.toFloat))

def extreme (pick : List Value → Outcome Value) (vs : List Value) : Outcome Value :=
  unlessError vs do
    let xs ← ((Value.flattenAll vs).filter (!isBlank ·)).mapM (number false)
    if xs.isEmpty then pure (.int 0) else pick (xs.map .float)

def modulo : Outcome Value :=
  unlessError [a, b] do
    let x ← number true a
    let y ← number true b
    if isZero y then .error (fault "MOD divisor is zero") else Value.mod (.float x) (.float y)

def rounded (away : Bool) (a digits : Value) : Outcome Value :=
  unlessError [a, digits] do
    let x ← number true a
    let d ← Value.intOfFloat (← number true digits)
    let factor ← Value.pow (.int 10) (.int d)
    let scaled ← (← Value.mul (.float x) factor).toFloat
    let n ← Value.wholeBy (if (0 ≤ x) = away then Number.ceil? else Number.floor?) scaled
    Value.div (.int n) factor

def datePart (part : Date → Nat) (v : Value) : Outcome Value :=
  if isError v then .ok v
  else match v with
    | .datetime t => .ok (.ofNat (part t.date))
    | .date d => .ok (.ofNat (part d))
    | v => do pure (.ofNat (part (← Fault.badValue.ifNone (Calendar.isoDateTime? v.toText)).date))

def products : List (List Float) → List Float
  | [] => []
  | v :: vs => vs.foldl (fun ps w => ps.zipWith (· * ·) w) (v.map (1.0 * ·))

def sumproduct : Outcome Value :=
  unlessError vs do
    match vs.map Value.flatten with
    | [] => pure (.int 0)
    | v :: rest =>
      if rest.any (·.length != v.length) then .error (fault "SUMPRODUCT arguments must have equal lengths")
      else
        let xs ← (v :: rest).mapM (·.mapM (number false))
        pure (.float ((products xs).foldl (· + ·) 0.0))

/-- The present value of later payments; a blank one passes a period. -/
def npv (rate : Value) (flows : List Value) : Outcome Value :=
  unlessError (rate :: flows) do
    let r ← number true rate
    let paid (total : Float) (flow : Value × Nat) := do
      if isBlank flow.1 then pure total
      else
        let x ← number false flow.1
        let factor ← Value.pow (.float (1.0 + r)) (.ofNat (flow.2 + 1))
        pure (total + (← (← Value.div (.float x) factor).toFloat))
    .float <$> (Value.flattenAll flows).zipIdx.foldlM paid 0.0

def choose (c t e : Value) : Outcome Value := if isError c then .ok c else do pure (if ← holds c then t else e)

def anyHolds : List Value → Outcome Bool
  | [] => .ok false
  | v :: vs => do if ← holds v then pure true else anyHolds vs

def allHold : List Value → Outcome Bool
  | [] => .ok true
  | v :: vs => do if ← holds v then allHold vs else pure false

def Function.apply (f : Function) (vs : List Value) : Outcome Value :=
  match f, vs with
  | sum, vs => Engine.sum vs
  | npv, r :: vs => Engine.npv r vs
  | choose, [c, t] => Engine.choose c t (.bool false)
  | choose, [c, t, e] => Engine.choose c t e
  | unlessFaulty, [v, w] => .ok (if isError v then w else v)
  | any, vs => .bool <$> anyHolds (Value.flattenAll vs)
  | all, vs =>
    let vs := Value.flattenAll vs
    if vs.isEmpty then .ok (.bool false) else .bool <$> allHold vs
  | average, vs => Engine.average vs
  | max, vs => extreme Value.maxOf vs
  | min, vs => extreme Value.minOf vs
  | mod, [a, b] => modulo a b
  | roundUp, [a] => rounded true a (.int 0)
  | roundUp, [a, d] => rounded true a d
  | roundDown, [a] => rounded false a (.int 0)
  | roundDown, [a, d] => rounded false a d
  | year, [v] => datePart Date.year v
  | month, [v] => datePart Date.month v
  | today, [] => .ok (.date Calendar.clock.date)
  | now, [] => .ok (.datetime Calendar.clock)
  | sumproduct, vs => Engine.sumproduct vs
  | _, _ => .error .wrongKind

/-! Names -/

def Sign.helper : Sign → String
  | plus => "xl_uplus"
  | minus => "xl_uminus"
  | percent => "xl_percent"

/-- The mark of an operator and the helper that computes it. -/
def operators : List (String × String × Operator) :=
  [("+", "xl_add", .add), ("-", "xl_sub", .sub), ("*", "xl_mul", .mul), ("/", "xl_div", .div),
    ("^", "xl_pow", .pow), ("&", "xl_concat", .concat), ("=", "xl_eq", .eq), ("<>", "xl_ne", .ne),
    (">", "xl_gt", .gt), (">=", "xl_ge", .ge), ("<", "xl_lt", .lt), ("<=", "xl_le", .le)]

def Operator.ofMark? (mark : String) : Option Operator := (operators.find? (·.1 = mark)).map (·.2.2)

def Operator.helper (o : Operator) : String := ((operators.find? (·.2.2 = o)).map (·.2.1)).getD ""

/-- The name of a function in formulas and the helper that computes it. -/
def functions : List (String × String × Function) :=
  [("SUM", "xl_sum", .sum), ("NPV", "xl_npv", .npv), ("IF", "xl_if", .choose),
    ("IFERROR", "xl_iferror", .unlessFaulty), ("OR", "xl_or", .any), ("AND", "xl_and", .all),
    ("AVERAGE", "xl_average", .average), ("MAX", "xl_max", .max), ("MIN", "xl_min", .min),
    ("MOD", "xl_mod", .mod), ("ROUNDUP", "xl_roundup", .roundUp),
    ("ROUNDDOWN", "xl_rounddown", .roundDown), ("YEAR", "xl_year", .year),
    ("MONTH", "xl_month", .month),
    ("TODAY", "xl_today", .today), ("NOW", "xl_now", .now),
    ("SUMPRODUCT", "xl_sumproduct", .sumproduct)]

def function? (name : String) : Option (String × Function) := (functions.find? (·.1 = name)).map (·.2)

def referred (v : Value) : Value := if v.isNull then .int 0 else v

def call (helper : String) (vs : List Value) : Outcome Value :=
  match helper, vs with
  | "xl_error", [v] => .ok v
  | "xl_ref", [v] => .ok (referred v)
  | helper, vs =>
    match [Sign.plus, .minus, .percent].find? (·.helper = helper), vs with
    | some s, [v] => s.apply v
    | some _, _ => .error .wrongKind
    | none, vs =>
      match operators.find? (·.2.1 = helper), vs with
      | some (_, _, o), [a, b] => o.apply a b
      | some _, _ => .error .wrongKind
      | none, vs =>
        match functions.find? (·.2.1 = helper) with
        | some (_, _, f) => f.apply vs
        | none => .error .noProperty

end Sheetwork.Model.Engine
