import Sheetwork.Plan.Functions.Number
import Sheetwork.Script.Library
/-
  Plans: functions of texts. Nothing, false, zero and empty lists count as the empty text.
-/

namespace Sheetwork.Plan.Functions

variable (v : Value)

def textOf : String := if v.truthy then v.toText else ""

def left (v n : Value) : Outcome Value := do
  pure (.text (Value.sliceText (textOf v) none (some (← n.toInt))))

def right (v n : Value) : Outcome Value := do
  pure (.text (Value.sliceText (textOf v) (some (-(← n.toInt))) none))

def mid (v start length : Value) : Outcome Value := do
  let i := (← start.toInt) - 1
  pure (.text (Value.sliceText (textOf v) (some i) (some (i + (← length.toInt)))))

def formatted (v format : Value) : String :=
  if v.isNumber && Text.contains "%" format.toText then
    match v.toFloat with
    | .ok x => Number.fixedText 2 (x * 100.0) ++ "%"
    | .error _ => textOf v
  else if v.isNumber then v.toText
  else textOf v

/-- The number that a value is or writes, a whole zero if it is none. -/
def value : Outcome Value :=
  match v with
  | .int n => .float <$> Value.floatOfInt n
  | v => .ok (match v.toFloat with
    | .ok x => .float x
    | .error _ => .int 0)

/-- The number that a text writes with given signs for the point and between groups. -/
def numberValue (v point group : Value) : Value :=
  let s := Text.replace point.toText "." (Text.replace group.toText "" (textOf v))
  match Number.float? s with
  | some x => .float x
  | none => .null

/-- The place of a text in another from a place on, counted from one, with `fold`
applied to both. -/
def find (fold : String → String) (p w n : Value) : Outcome Value := do
  let s := (fold (textOf w)).toList
  let i := (← whole n) - 1
  let i := if i < 0 then (max 0 (i + s.length)).toNat else i.toNat
  pure (if s.length < i then .null
    else match Text.find? (fold (textOf p)) (String.ofList (s.drop i)) with
      | some k => .ofNat (i + k + 1)
      | none => .null)

/-- Puts a text for one occurrence of another, the `wanted`-th from the left; occurrences
do not overlap. -/
def replaceNth (old new : List Char) (wanted : Int) : Nat → Nat → List Char → List Char
  | 0, _, s => s
  | _ + 1, _, [] => []
  | fuel + 1, seen, c :: r =>
    match Text.afterL? old (c :: r) with
    | some rest => (if (seen + 1 : Int) = wanted then new else old) ++ replaceNth old new wanted fuel (seen + 1) rest
    | none => c :: replaceNth old new wanted fuel seen r

/-- Puts a text for every occurrence of another, or for one of them. Looking for single occurrences
  of the empty text never ends. -/
def substitute (v old new which : Value) : Outcome Value := do
  let s := textOf v
  let o := textOf old
  if which.isNull then pure (.text (Text.replace o (textOf new) s))
  else if s.isEmpty || !Text.contains o s then pure (.text s)
  else
    let n ← whole which
    if o.isEmpty then .error ⟨.endless, none⟩
    else pure (.text (String.ofList (replaceNth o.toList (textOf new).toList n (s.length + 1) 0 s.toList)))

def replaceAt (v start count new : Value) : Outcome Value := do
  let s := textOf v
  let i := (← whole start) - 1
  let n ← whole count
  pure (.text (Value.sliceText s none (some i) ++ textOf new ++ Value.sliceText s (some (i + n)) none))

def repeated (v n : Value) : Outcome Value := do
  pure (.text (Text.times (← whole n).toNat (textOf v)))

def charOf : Outcome Value :=
  match v.int? with
  | none => .error .wrongKind
  | some n => if 0 ≤ n && n < 0x110000 then .ok (.text (Char.ofNat n.toNat).toString) else .error .badValue

def codeOf : Value → Outcome Value
  | .text s => match s.toList with
    | [c] => .ok (.ofNat c.toNat)
    | _ => .error .wrongKind
  | _ => .error .wrongKind

def kindNumber : Int :=
  match v with
  | .text _ => 2
  | .null => 16
  | _ => 1

/-- What stands for an error: nothing, or what is not a number. -/
def isFault : Value → Bool
  | .null => true
  | .float x => x.isNaN
  | _ => false

end Sheetwork.Plan.Functions

/-! Functions of dates. A date with a time keeps being one, but months are counted
from midnight; what cannot be computed leaves the date as it was. -/

namespace Sheetwork.Plan.Functions

/-- A part of a date, or what a rule gives for anything else. -/
def datePart (part : Date → Nat) (other : Outcome Value) (v : Value) : Outcome Value :=
  match Script.dateOf? v with
  | some d => .ok (.ofNat (part d))
  | none => other

def likeDate (v : Value) (d : Date) : Value :=
  match v with
  | .datetime _ => .datetime ⟨d, TimeOfDay.midnight⟩
  | _ => .date d

/-- The same day some months later, or the last of that month. -/
def addMonths (start months : Value) : Value :=
  let moved : Option Value := do
    let t ← Script.dateOf? start
    let (y, m) := Script.monthAfter t (← (whole months).toOption)
    match (Script.dateFrom y m (min t.day (Script.monthLength y m))).toOption with
    | some (.date d) => some (likeDate start d)
    | _ => none
  moved.getD start

/-- The last day of the month some months later. -/
def endOfMonth (start months : Value) : Value :=
  let d := addMonths start months
  match Script.dateOf? d with
  | some t => likeDate d { t with day := Calendar.daysInMonth t.year t.month }
  | none => d

/-- The working days among `n` days from a weekday on, up or down the week. -/
def workingDays (first : Nat) (up : Bool) (n : Nat) : Nat :=
  let day (i : Nat) := if up then (first + i) % 7 else (first + 7 - i % 7) % 7
  n / 7 * 5 + (List.range (n % 7)).countP fun i => day i < 5

/-- The working days between two dates, both included; none if the day after the last is beyond the
  calendar. -/
def networkDays (start stop : Value) : Value :=
  let days : Option Nat := do
    let a ← Script.dateOf? start
    let _ ← Script.dateOf? stop
    match (← (Value.sub stop start).toOption), (← (Value.ge stop start).toOption) with
    | .span gap, up =>
      let n := gap.natAbs / DateTime.dayMicros
      let after := (a.ordinal : Int) + (if up then (n + 1 : Int) else -(n + 1 : Int))
      let _ ← Date.ofOrdinal? after
      some (workingDays a.weekday up (n + 1))
    | _, _ => none
  .ofNat (days.getD 0)

end Sheetwork.Plan.Functions
