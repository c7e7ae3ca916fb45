import Sheetwork.Script.Evaluation
import Sheetwork.Script.Library
/-
  Layers: the functions that scripts of the layers call. Only numbers count in sums; a number can stand for a date by
  its day count.
-/

namespace Sheetwork.Layers.Code.Library

open Value

variable (args : List Value)

def flat : List Value := args.flatMap fun a => a.items?.getD [a]

def numbers : List Value := (flat args).filter isNumber

def sum : Outcome Value := sumFrom (.int 0) (numbers args)

def average : Outcome Value := do
  let xs := numbers args
  if xs.isEmpty then pure (.int 0) else (← sumFrom (.int 0) xs).div (.ofNat xs.length)

def listOf (v : Value) : List Value := v.items?.getD [v]

/-- The numbers of the second list where the first has the criterion. -/
def sumIf (range criterion sums : Value) : Outcome Value :=
  let pairs := (listOf range).zip (listOf sums)
  sumFrom (.int 0) ((pairs.filter fun (c, v) => v.isNumber && c == criterion).map (·.2))

def sumProduct (arrays : List Value) : Outcome Value := do
  let rows := arrays.map listOf
  match rows with
  | [] => pure (.int 0)
  | r :: rs =>
    let n := rs.foldl (fun n xs => min n xs.length) r.length
    (List.range n).foldlM (fun total i => do
      let product ← rows.foldlM (fun p xs =>
        let v := (xs[i]?).getD .null
        p.mul (if v.isNumber then v else .int 0)) (.int 1)
      total.add product) (.int 0)

def countFilled : Nat := ((flat args).filter fun v => !v.isNull && !(v == .text "")).length

/-! Dates -/

def dayZero : Date := ⟨1899, 12, 30⟩

/-- The date of a value: itself, or the day that a positive number counts to. -/
def toDate (v : Value) : Outcome (Option Value) := do
  match v with
  | .date _ | .datetime _ => pure (some v)
  | v =>
    if v.isNumber then
      if ← v.gt (.int 0) then
        let n ← v.toInt
        if 999999999 < n then .error .tooLarge
        else match dayZero.addDays? n with
          | some d => pure (some (.date d))
          | none => .error .tooLarge
      else pure none
    else pure none

def partOf (f : Date → Nat) (v : Value) : Outcome Value := do
  match (← toDate v).bind Script.dateOf? with
  | some d => pure (.ofNat (f d))
  | none => pure .null

def fromDate (f : Value → Value → Outcome Value) (start months : Value) : Outcome Value := do
  ((← toDate start).map (f · months)).getD (pure .null)

def today : Value := .date Calendar.clock.date

def days (last first : Value) : Outcome Value := do
  match ← toDate last, ← toDate first with
  | some e, some s =>
    match ← e.sub s with
    | .span n => pure (.int (n.fdiv DateTime.dayMicros))
    | _ => .error .noProperty
  | _, _ => pure .null

def call (name : String) (args : List Value) : Outcome Value :=
  match name, args with
  | "xl_sum", _ => sum args
  | "xl_average", _ => average args
  | "xl_count", _ => .ok (.ofNat (numbers args).length)
  | "xl_if", [c, t, f] => .ok (if c.truthy then t else f)
  | "xl_iferror", [v, _] => .ok v
  | "xl_sumif", [r, c] => sumIf r c r
  | "xl_sumif", [r, c, s] => sumIf r c (if s.isNull then r else s)
  | "xl_sumproduct", _ => sumProduct args
  | "xl_counta", _ => .ok (.ofNat (countFilled args))
  | "xl_isnumber", [v] => .ok (.bool v.isNumber)
  | "xl_isblank", [v] => .ok (.bool (v.isNull || v == .text ""))
  | "xl_concatenate", _ => .ok (.text (Script.concatenate args))
  | "_to_date", [v] => do pure ((← toDate v).getD .null)
  | "xl_eomonth", [s, m] => fromDate Script.endOfMonth s m
  | "xl_edate", [s, m] => fromDate Script.addMonths s m
  | "xl_year", [v] => partOf Date.year v
  | "xl_month", [v] => partOf Date.month v
  | "xl_day", [v] => partOf Date.day v
  | "xl_date", [y, m, d] => .ok (Script.dateOrNull y m d)
  | "xl_today", [] => .ok today
  | "xl_days", [e, s] => days e s
  | _, _ => .error .wrongKind

def names : List String :=
  ["xl_sum", "xl_average", "xl_count", "xl_if", "xl_iferror", "xl_sumif", "xl_sumproduct", "xl_counta",
    "xl_isnumber", "xl_isblank", "xl_concatenate", "_to_date", "xl_eomonth", "xl_edate", "xl_year",
    "xl_month", "xl_day", "xl_date", "xl_today", "xl_days"]

def function? (name : String) : Option (List Value → Outcome Value) :=
  if names.contains name then some (call name) else Script.Builtin.function? name

end Sheetwork.Layers.Code.Library
