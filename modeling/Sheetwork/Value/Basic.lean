import Sheetwork.Calendar
import Sheetwork.Fault
import Sheetwork.Number.Decimal
/-
  Values: what a cell, a table entry or the result of an expression can be. `text` is how a value reads in running
  text, `literal` how it reads as an element of a list.
-/

namespace Sheetwork

inductive Value where
  | null
  | bool (b : Bool)
  | int (n : Int)
  | float (x : Float)
  | text (s : String)
  | date (d : Date)
  | datetime (t : DateTime)
  | time (t : TimeOfDay)
  | span (micros : Int)
  | complex (re im : Float)
  | list (xs : List Value)
  | tuple (xs : List Value)
  /-- Entries in the order of their insertion, no key twice. -/
  | keyed (es : List (Value × Value))

namespace Value

instance : Inhabited Value := ⟨null⟩

instance : Coe String Value := ⟨text⟩

def ofNat (n : Nat) : Value := int n

def isNull : Value → Bool
  | null => true
  | _ => false

def isText : Value → Bool
  | text _ => true
  | _ => false

def int? : Value → Option Int
  | int n => some n
  | bool b => some (if b then 1 else 0)
  | _ => none

/-- Whole numbers and floats, truth values among them. -/
def isNumber : Value → Bool
  | int _ => true
  | bool _ => true
  | float _ => true
  | _ => false

/-- Whole numbers and floats that are no truth values. -/
def isPlainNumber : Value → Bool
  | int _ => true
  | float _ => true
  | _ => false

def items? : Value → Option (List Value)
  | list xs => some xs
  | tuple xs => some xs
  | _ => none

def text? : Value → Option String
  | text s => some s
  | _ => none

def truthy : Value → Bool
  | null => false
  | bool b => b
  | int n => n ≠ 0
  | float x => !(x == 0)
  | text s => s ≠ ""
  | span n => n ≠ 0
  | complex a b => !(a == 0) || !(b == 0)
  | list xs => !xs.isEmpty
  | tuple xs => !xs.isEmpty
  | keyed es => !es.isEmpty
  | _ => true

def spanText (n : Int) : String :=
  let days := n / DateTime.dayMicros
  let t := TimeOfDay.ofMicros (n % DateTime.dayMicros).toNat
  let head := if days = 0 then "" else
    Text.ofInt days ++ (if days.natAbs = 1 then " day, " else " days, ")
  head ++ Text.ofNat t.hour ++ ":" ++ Calendar.pad 2 t.minute ++ ":" ++ Calendar.pad 2 t.second ++ t.microText

def natList (xs : List Nat) : String := Text.join ", " (xs.map Text.ofNat)

def dateLiteral (d : Date) : String := "datetime.date(" ++ natList d.key ++ ")"

/-- Seconds and microseconds are left out when they end the list with zeros. -/
def clockParts (t : TimeOfDay) : List Nat :=
  if t.micro ≠ 0 then t.key
  else if t.second ≠ 0 then [t.hour, t.minute, t.second] else [t.hour, t.minute]

def spanParts (n : Int) : String :=
  let rest := n % DateTime.dayMicros
  let parts := [("days", n / DateTime.dayMicros), ("seconds", rest / 1000000),
    ("microseconds", rest % 1000000)].filter fun p => p.2 ≠ 0
  Text.join ", " (parts.map fun (k, v) => k ++ "=" ++ Text.ofInt v)

def zoneLiteral (zone : Option Int) : String :=
  match zone with
  | none => ""
  | some 0 => ", tzinfo=datetime.timezone.utc"
  | some n => ", tzinfo=datetime.timezone(datetime.timedelta(" ++ spanParts n ++ "))"

def datetimeLiteral (t : DateTime) : String :=
  "datetime.datetime(" ++ natList (t.date.key ++ clockParts t.time) ++ zoneLiteral t.time.zone ++ ")"

def timeLiteral (t : TimeOfDay) : String := "datetime.time(" ++ natList (clockParts t) ++ zoneLiteral t.zone ++ ")"

def partText (x : Float) : String := ({ Number.plainLayout with keepPoint := false }).text x

def complexText (re im : Float) : String :=
  if re == 0 && !Number.isNegative re then partText im ++ "j"
  else "(" ++ partText re ++ (if Number.isNegative im || im.isNaN then "" else "+") ++ partText im ++ "j)"

mutual

def literal : Value → String
  | null => "None"
  | bool b => if b then "True" else "False"
  | int n => Text.ofInt n
  | float x => Number.text x
  | text s => Text.quoted s
  | date d => dateLiteral d
  | datetime t => datetimeLiteral t
  | time t => timeLiteral t
  | span n => spanText n
  | complex a b => complexText a b
  | list xs => "[" ++ Text.join ", " (literals xs) ++ "]"
  | tuple xs =>
    match xs with
    | [x] => "(" ++ literal x ++ ",)"
    | xs => "(" ++ Text.join ", " (literals xs) ++ ")"
  | keyed es => "\x7b" ++ Text.join ", " (entryLiterals es) ++ "\x7d"

def literals : List Value → List String
  | [] => []
  | x :: r => literal x :: literals r

def entryLiterals : List (Value × Value) → List String
  | [] => []
  | (k, v) :: r => (literal k ++ ": " ++ literal v) :: entryLiterals r

end

def toText : Value → String
  | text s => s
  | date d => d.iso
  | datetime t => t.isoWith " "
  | time t => t.iso
  | v => v.literal

/-- The whole number as a float; there is none beyond the largest. -/
def floatOfInt (n : Int) : Outcome Float :=
  let x := Number.ofInt n
  if x.isInf then .error .tooLarge else .ok x

def toFloat : Value → Outcome Float
  | float x => .ok x
  | int n => floatOfInt n
  | bool b => .ok (if b then 1.0 else 0.0)
  | text s => (Number.float? s).elim (.error .badValue) .ok
  | _ => .error .wrongKind

/-- A number as a size; nothing else is one. -/
def toSize (v : Value) : Outcome Float :=
  match v.toFloat with
  | .ok x => .ok x
  | .error _ => .error .wrongKind

/-- The whole number that a rule gives; what is no finite number has none. -/
def wholeBy (rule : Float → Option Int) (x : Float) : Outcome Int :=
  (if x.isNaN then Fault.badValue else Fault.tooLarge).ifNone (rule x)

def intOfFloat (x : Float) : Outcome Int :=
  match Number.truncate? x with
  | some n => .ok n
  | none => .error (if x.isNaN then Fault.badValue else Fault.tooLarge)

def toInt : Value → Outcome Int
  | int n => .ok n
  | bool b => .ok (if b then 1 else 0)
  | float x => intOfFloat x
  | text s => (Number.int? s).elim (.error .badValue) .ok
  | _ => .error .wrongKind

end Value

end Sheetwork
