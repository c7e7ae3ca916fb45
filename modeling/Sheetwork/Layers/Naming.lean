import Sheetwork.Text.Pattern
import Sheetwork.Value.Basic
/-
  Layers: names of cells, colours, labels and periods as the layers write them.
-/

namespace Sheetwork.Layers

open Text Text.Pattern

/-! Periods -/

def yearDigits : Pattern := between 2 4 digit

def gap : Pattern := blank.many ++ (one fun c => c = '-' || isBlank c).opt

def quarterName : Pattern := chr 'Q' ++ one fun c => '1' ≤ c && c ≤ '4'

def periodLabels : List Pattern :=
  [(lit "FY" ++ blank.many).opt ++ times 4 digit ++ (one isAsciiLetter).opt ++ finish,
    ((quarterName ++ gap ++ yearDigits <|> yearDigits ++ gap ++ quarterName) ++ finish).anyCase,
    (monthName ++ gap ++ yearDigits <|> yearDigits ++ gap ++ monthName).anyCase,
    times 4 digit ++ anyOf "-/" ++ between 1 2 digit ++ finish]

variable (s : String)

def isPeriodLabel : Bool := periodLabels.any fun p => (p.begin? (strip s)).isSome

/-- Whether a value stands for a period: a date with a time, a year or a label. -/
def isPeriod : Value → Bool
  | .datetime _ => true
  | .int n => 1900 ≤ n && n ≤ 2199
  | .text s => isPeriodLabel s
  | _ => false

/-! Cells -/

structure NamedCell where
  sheet : String
  row : Nat
  col : String

def readReference : Outcome NamedCell :=
  let (sheet, cell) := match cut? "!" s with
    | some (a, b) => (stripChars "'\"" a, b)
    | none => ("", s)
  match (cellForm 1).begin? cell with
  | some m => .ok ⟨sheet, natOfDigits (m.group 2).toList, m.group 1⟩
  | none => .error (.saying .badValue ("Invalid cell reference: " ++ s))

/-- A reference; a sheet name with a blank is quoted. -/
def writeReference (sheet row col : String) (fixedRow fixedCol : Bool) : String :=
  let cell := (if fixedCol then "$" else "") ++ col ++ (if fixedRow then "$" else "") ++ row
  if sheet = "" then cell
  else if contains " " sheet then "'" ++ sheet ++ "'!" ++ cell
  else sheet ++ "!" ++ cell

/-! Colours -/

/-- A colour as `#` and its digits; of eight digits the first two are left out. -/
def colorText (v : Value) : Option String :=
  if !v.truthy then none
  else
    let s := v.toText
    some ("#" ++ if s.length = 8 then drop 2 s else s)

/-- The digits of a written colour, fully opaque. -/
def colorDigits : Option String := if s = "" then none else some ("FF" ++ stripCharsLeft "#" s)

/-! Labels -/

def labels (count : Int) (stem : String) : List String := (List.range count.toNat).map fun i => stem ++ ofNat (i + 1)

def shownText (v : Value) : String := if v.isNull then "" else v.toText

/-- Letters, digits, dashes and underscores; every other character becomes an underscore. -/
def safeName : String :=
  String.ofList (s.toList.map fun c => if isAlphanumeric c || c = '-' || c = '_' then c else '_')

end Sheetwork.Layers
