import Sheetwork.Formula.Lexeme
import Sheetwork.Json.Reader
import Sheetwork.Json.Writer
import Sheetwork.Model.Reference
/-
  Models: values as texts. A value is written as a record of its type and itself, and what JSON has no form for as a
  text or not at all.
-/

namespace Sheetwork.Model

variable (v : Value)

def truth? : Value := if v.isNull then .null else .bool v.truthy

/-- The text of a value; nothing and no number have none. -/
def plainText : String :=
  match v with
  | .null => ""
  | .float x => if x.isNaN then "" else v.toText
  | v => v.toText

def typed : String × Value :=
  match v with
  | .null => ("null", .null)
  | .bool _ => ("bool", v)
  | .int _ => ("int", v)
  | .float x =>
    if x.isNaN then ("nan", .null) else if x.isInf then ("inf", .bool (0 < x)) else ("float", v)
  | .datetime t => ("datetime", t.iso)
  | .date d => ("date", d.iso)
  | .time t => ("time", t.iso)
  | v => ("str", v.toText)

def writeValue : Outcome String :=
  let (type, value) := typed v
  Json.line.write (.record [("type", type), ("value", value)])

def readDate {α : Type} (read? : String → Option α) (make : α → Value) (v : Value) : Outcome Value :=
  match v with
  | .text s => (Fault.badValue.ifNone (read? s)).map make
  | _ => .error .wrongKind

/-- The value of a type and of how it is written; an unknown type changes nothing. -/
def untyped (type v : Value) : Outcome Value :=
  match type with
  | .text "null" => .ok .null
  | .text "bool" => .ok (.bool v.truthy)
  | .text "int" => v.toInt.map .int
  | .text "float" => v.toFloat.map .float
  | .text "nan" => .ok (.float Number.notANumber)
  | .text "inf" => .ok (.float (Number.infinity (!v.truthy)))
  | .text "datetime" => readDate Calendar.isoDateTime? .datetime v
  | .text "date" => readDate Calendar.isoDate? .date v
  | .text "time" => readDate Calendar.isoTime? .time v
  | _ => .ok v

def readValue : Outcome Value :=
  match v with
  | .text s => do
    let r ← Json.read s
    match r with
    | .keyed _ => untyped (r.get "type") (r.get "value")
    | _ => .error .noProperty
  | _ => .error .wrongKind

end Sheetwork.Model

/-! Canonical formulas. Formulas that were dragged from one another read the same
when every reference is written as it is seen from its cell. -/

namespace Sheetwork.Model

open Formula

/-- A corner of a reference as it is seen from a cell; whole rows and columns stay as they are. -/
def canonicalCorner (row col : Int) (part : String) : Outcome String :=
  let bare := (Text.replace "$" "" part).toList
  if !bare.isEmpty && (bare.all Text.isDigit || bare.all Text.isLetter) then .ok part
  else relative part row col

/-- A range operand as it is seen from a cell; its own sheet is left out. -/
def canonicalRange (token sheet : String) (row col : Int) : Outcome String := do
  let token := Text.strip token
  let (refSheet, ref) := splitSheet token
  if !isReference ref then return token
  let seen ← match Text.cut? ":" ref with
    | some (a, b) => do
      let a ← canonicalCorner row col a
      let b ← canonicalCorner row col b
      pure (a ++ ":" ++ b)
    | none => canonicalCorner row col ref
  match refSheet with
  | none => pure seen
  | some s =>
    if s = sheet then pure seen
    else pure (quotedSheet (if s.isEmpty then sheet else s) ++ "!" ++ seen)

def canonicalLexeme (sheet : String) (row col : Int) (t : Lexeme) : Outcome String :=
  if t.isRange then canonicalRange t.text sheet row col else .ok t.text

def canonical (formula sheet : String) (row col : Int) : Outcome String := do
  let parts ← (← Lexeme.all formula).mapM (canonicalLexeme sheet row col)
  pure ("=" ++ String.join parts)

def reference? (current : String) (t : Lexeme) : Option (String × String) :=
  let (sheet, ref) := splitSheet (Text.strip t.text)
  if t.isRange && isReference ref then some (if sheet.getD "" = "" then current else sheet.getD "", ref)
  else none

def references (formula current : String) : Outcome (List (String × String)) := do
  if !Text.startsWith "=" formula then return []
  pure ((← Lexeme.all formula).filterMap (reference? current))

/-! Bounds -/

def rowNumber (ds : List Char) : Outcome Nat := if isDigits ds then .ok (Text.natOfDigits ds) else .error .badValue

/-- The bounds of a reference: whole rows and columns are open to the sides. -/
def bounds (ref : String) : Outcome Address.Bounds := do
  let cs := (Text.replace "$" "" ref).toList
  match Text.cutL? [':'] cs with
  | none =>
    if !cs.isEmpty && cs.all Text.isDigit then
      let n ← rowNumber cs
      pure ⟨none, some n, none, some n⟩
    else Address.bounds (String.ofList cs)
  | some (a, b) =>
    let others := cs.filter (· ≠ ':')
    if !others.isEmpty && others.all Text.isDigit then
      let m ← rowNumber a
      let n ← rowNumber b
      pure ⟨none, some m, none, some n⟩
    else if !a.isEmpty && !b.isEmpty && a.all Text.isLetter && b.all Text.isLetter then
      let m ← spot (String.ofList (a ++ ['1']))
      let n ← spot (String.ofList (b ++ ['1']))
      pure ⟨some m.col, none, some n.col, none⟩
    else Address.bounds (String.ofList cs)

def inBounds (row col : Int) (b : Address.Bounds) : Bool :=
  b.minCol.all (fun (n : Nat) => (n : Int) ≤ col) && b.maxCol.all (fun (n : Nat) => col ≤ n) &&
    b.minRow.all (fun (n : Nat) => (n : Int) ≤ row) && b.maxRow.all fun (n : Nat) => row ≤ n

end Sheetwork.Model
